import Mathlib.Data.List.Basic

/-! Records that keep their earlier versions, numbered from one. -/

namespace Forge.Library.History

variable {α : Type}

structure Entry (α : Type) where
  current : Option α
  past : List α

/-- What may happen to a record: who revises it keeps what it was. A record that is closed in place
keeps its version and is never revised again. -/
inductive Step (version : α → Nat) (closed : α → Prop) : Entry α → Entry α → Prop
  | kept (entry : Entry α) : Step version closed entry entry
  | opened (value : α) (first : version value = 1) :
      Step version closed ⟨none, []⟩ ⟨some value, []⟩
  | revised (value next : α) (past : List α) (isOpen : ¬ closed value)
      (successor : version next = version value + 1) :
      Step version closed ⟨some value, past⟩ ⟨some next, past ++ [value]⟩
  | closing (value next : α) (past : List α) (isOpen : ¬ closed value) (isClosed : closed next)
      (same : version next = version value) :
      Step version closed ⟨some value, past⟩ ⟨some next, past⟩

/-- One value for each version before the current one, in their order. -/
def Contiguous (version : α → Nat) (entry : Entry α) : Prop :=
  match entry.current with
  | none => entry.past = []
  | some value =>
      0 < version value ∧ entry.past.map version = List.range' 1 (version value - 1)

section Steps

variable {version : α → Nat} {closed : α → Prop}

theorem Contiguous.step {entry next : Entry α} (contiguous : Contiguous version entry)
    (moved : Step version closed entry next) : Contiguous version next := by
  cases moved with
  | kept => exact contiguous
  | opened value first =>
      show 0 < version value ∧ List.map version [] = List.range' 1 (version value - 1)
      simp [first]
  | revised value next past isOpen successor =>
      obtain ⟨positive, past_eq⟩ := contiguous
      refine ⟨by omega, ?_⟩
      have split : version next - 1 = (version value - 1) + 1 := by omega
      rw [List.map_append, past_eq, split, List.range'_concat]
      have last : 1 + 1 * (version value - 1) = version value := by omega
      rw [last]
      rfl
  | closing value next past isOpen isClosed same =>
      show 0 < version next ∧ past.map version = List.range' 1 (version next - 1)
      rw [same]
      exact contiguous

theorem Contiguous.lt_of_mem {entry : Entry α} {value old : α}
    (contiguous : Contiguous version entry) (current : entry.current = some value)
    (member : old ∈ entry.past) : version old < version value := by
  rw [Contiguous, current] at contiguous
  have listed : version old ∈ List.range' 1 (version value - 1) := by
    rw [← contiguous.2]
    exact List.mem_map_of_mem member
  have := List.mem_range'_1.mp listed
  omega

end Steps

section Traces

variable {version : α → Nat} {closed : α → Prop} {entries : Nat → Entry α}

/-- What holds of a record after some steps, of all that it was before. -/
structure Faithful (version : α → Nat) (closed : α → Prop) (entries : Nat → Entry α) (n : Nat) :
    Prop where
  contiguous : Contiguous version (entries n)
  stood : ∀ old ∈ (entries n).past, ∃ m ≤ n, (entries m).current = some old
  only : ∀ old ∈ (entries n).past, ∀ m ≤ n, ∀ value, (entries m).current = some value →
    version value = version old → value = old
  latest : ∀ m ≤ n, ∀ value, (entries m).current = some value →
    ∃ now, (entries n).current = some now ∧ version value ≤ version now
      ∧ (version value = version now → ¬ closed now → value = now)

theorem Faithful.zero (contiguous : Contiguous version (entries 0)) (empty : (entries 0).past = []) :
    Faithful version closed entries 0 where
  contiguous := contiguous
  stood := by simp [empty]
  only := by simp [empty]
  latest := by
    intro m below value current
    obtain rfl : m = 0 := by omega
    exact ⟨value, current, Nat.le_refl _, fun _ _ => rfl⟩

section Successor

variable {n : Nat} (faithful : Faithful version closed entries n)
  (moved : Step version closed (entries n) (entries (n + 1)))
include faithful moved

theorem Faithful.stood_succ : ∀ old ∈ (entries (n + 1)).past,
    ∃ m ≤ n + 1, (entries m).current = some old := by
  have stood := faithful.stood
  intro old member
  generalize atN : entries n = entry at moved stood
  generalize entries (n + 1) = next at moved member
  have earlier (member : old ∈ entry.past) : ∃ m ≤ n + 1, (entries m).current = some old := by
    obtain ⟨m, below, current⟩ := stood old member
    exact ⟨m, by omega, current⟩
  cases moved with
  | kept => exact earlier member
  | opened value first => cases member
  | revised value next past isOpen successor =>
      rcases List.mem_append.mp member with member | member
      · exact earlier member
      · obtain rfl : old = value := List.mem_singleton.mp member
        exact ⟨n, by omega, by rw [atN]⟩
  | closing value next past isOpen isClosed same => exact earlier member

theorem Faithful.only_succ : ∀ old ∈ (entries (n + 1)).past, ∀ m ≤ n + 1, ∀ value,
    (entries m).current = some value → version value = version old → value = old := by
  intro old member m below value current same
  have contiguous := faithful.contiguous.step moved
  obtain before | rfl : m ≤ n ∨ m = n + 1 := by omega
  · obtain ⟨now, currentN, _, latest⟩ := faithful.latest m before value current
    have only := fun member => faithful.only old member m before value current same
    generalize entries n = entry at moved only currentN
    generalize entries (n + 1) = next at moved member
    cases moved with
    | kept => exact only member
    | opened first isFirst => cases member
    | revised last next past isOpen successor =>
        rcases List.mem_append.mp member with member | member
        · exact only member
        · obtain rfl : old = last := List.mem_singleton.mp member
          obtain rfl : old = now := Option.some.inj currentN
          exact latest same isOpen
    | closing last next past isOpen isClosed sameVersion => exact only member
  · have := contiguous.lt_of_mem current member
    omega

theorem Faithful.latest_succ : ∀ m ≤ n + 1, ∀ value, (entries m).current = some value →
    ∃ now, (entries (n + 1)).current = some now ∧ version value ≤ version now
      ∧ (version value = version now → ¬ closed now → value = now) := by
  intro m below value current
  obtain before | rfl : m ≤ n ∨ m = n + 1 := by omega
  · obtain ⟨now, currentN, atMost, latest⟩ := faithful.latest m before value current
    generalize entries n = entry at moved currentN
    generalize entries (n + 1) = next at moved
    cases moved with
    | kept => exact ⟨now, currentN, atMost, latest⟩
    | opened first isFirst => cases currentN
    | revised last next past isOpen successor =>
        obtain rfl : last = now := Option.some.inj currentN
        exact ⟨next, rfl, by omega, fun same => by omega⟩
    | closing last next past isOpen isClosed same =>
        obtain rfl : last = now := Option.some.inj currentN
        exact ⟨next, rfl, by omega, fun _ isOpen => absurd isClosed isOpen⟩
  · exact ⟨value, current, Nat.le_refl _, fun _ _ => rfl⟩

theorem Faithful.succ : Faithful version closed entries (n + 1) where
  contiguous := faithful.contiguous.step moved
  stood := faithful.stood_succ moved
  only := faithful.only_succ moved
  latest := faithful.latest_succ moved

end Successor

theorem faithful (contiguous : Contiguous version (entries 0)) (empty : (entries 0).past = [])
    (moves : ∀ n, Step version closed (entries n) (entries (n + 1))) (n : Nat) :
    Faithful version closed entries n := by
  induction n with
  | zero => exact Faithful.zero contiguous empty
  | succ n ih => exact ih.succ (moves n)

end Traces

end Forge.Library.History
