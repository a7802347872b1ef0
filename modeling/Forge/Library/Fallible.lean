/-! When a computation that may fail returns a value: one inversion rule for each way such
computations are put together. -/

namespace Forge.Library.Fallible

variable {ε ε' α β : Type}

theorem bind_eq_ok {first : Except ε α} {next : α → Except ε β} {result : β} :
    (first >>= next) = .ok result ↔ ∃ value, first = .ok value ∧ next value = .ok result := by
  cases first with
  | error err => simp [bind, Except.bind]
  | ok value => simp [bind, Except.bind]

theorem then_eq_ok {first : Except ε Unit} {next : Unit → Except ε β} {result : β} :
    (first >>= next) = .ok result ↔ first = .ok () ∧ next () = .ok result := by
  rw [bind_eq_ok]
  exact ⟨fun ⟨(), done, later⟩ => ⟨done, later⟩, fun ⟨done, later⟩ => ⟨(), done, later⟩⟩

theorem pure_eq_ok {value result : α} :
    (pure value : Except ε α) = .ok result ↔ value = result := by
  simp [pure, Except.pure]

theorem map_eq_ok {first : Except ε α} {f : α → β} {result : β} :
    first.map f = .ok result ↔ ∃ value, first = .ok value ∧ f value = result := by
  cases first with
  | error err => simp [Except.map]
  | ok value => simp [Except.map]

theorem mapError_eq_ok {first : Except ε α} {f : ε → ε'} {result : α} :
    first.mapError f = .ok result ↔ first = .ok result := by
  cases first with
  | error err => exact iff_of_false nofun nofun
  | ok value => exact ⟨fun same => by cases same; rfl, fun same => by cases same; rfl⟩

theorem elim_eq_ok {found : Option α} {absent : ε} {result : α} :
    found.elim (.error absent) .ok = (.ok result : Except ε α) ↔ found = some result := by
  cases found with
  | none => simp
  | some value => simp

theorem toOption_eq_some {computed : Except ε α} {result : α} :
    computed.toOption = some result ↔ computed = .ok result := by
  cases computed with
  | error err => simp [Except.toOption]
  | ok value => simp [Except.toOption]

theorem guard_eq_ok {condition : Prop} [Decidable condition] {err : ε} {rest : Except ε α}
    {result : α} :
    (if condition then throw err else rest) = .ok result ↔ ¬condition ∧ rest = .ok result := by
  by_cases holds : condition
  · simp [holds, throw, throwThe, MonadExceptOf.throw]
  · simp [holds]

theorem forM_eq_ok {items : List α} {step : α → Except ε Unit} :
    items.forM step = .ok () ↔ ∀ item ∈ items, step item = .ok () := by
  induction items with
  | nil => exact iff_of_true rfl (List.forall_mem_nil _)
  | cons item rest ih =>
      show (step item >>= fun _ => rest.forM step) = _ ↔ _
      rw [then_eq_ok, List.forall_mem_cons, ih]

end Forge.Library.Fallible
