import Mathlib.Logic.Function.Basic

/-! A store that is written place by place: the last write to a place is what it holds. -/

namespace Forge.Library.Writes

variable {Place Value : Type} {holds : Value → Prop}

section Order

def WrittenOver (holds : Value → Prop) (writes : List (Place × Value)) : Prop :=
  ∀ first place value second, writes = first ++ (place, value) :: second → ¬ holds value →
    ∃ later, (place, later) ∈ second

theorem writtenOver_cons {place : Place} {value : Value} {writes : List (Place × Value)} :
    WrittenOver holds ((place, value) :: writes) ↔
      (¬ holds value → ∃ later, (place, later) ∈ writes) ∧ WrittenOver holds writes := by
  constructor
  · intro over_
    refine ⟨over_ [] place value writes rfl, fun first place' value' second split => ?_⟩
    exact over_ ((place, value) :: first) place' value' second (by rw [split]; rfl)
  · rintro ⟨here, rest⟩ first place' value' second split bad
    cases first with
    | nil =>
        obtain ⟨same, rfl⟩ := List.cons.inj split
        obtain ⟨rfl, rfl⟩ := Prod.mk.inj same
        exact here bad
    | cons write first => exact rest first place' value' second (List.cons.inj split).2 bad

end Order

section Store

variable [DecidableEq Place]

def after (store : Place → Value) (writes : List (Place × Value)) : Place → Value :=
  writes.foldl (fun store write => Function.update store write.1 write.2) store

theorem after_append (store : Place → Value) (first second : List (Place × Value)) :
    after store (first ++ second) = after (after store first) second :=
  List.foldl_append

theorem forall_after (store : Place → Value) (writes : List (Place × Value)) :
    (∀ place, holds (after store writes place)) ↔
      (∀ place, ¬ holds (store place) → ∃ later, (place, later) ∈ writes) ∧
        WrittenOver holds writes := by
  induction writes generalizing store with
  | nil =>
      constructor
      · exact fun every => ⟨fun place bad => absurd (every place) bad,
          fun first _ _ _ split => by cases first <;> cases split⟩
      · rintro ⟨start, -⟩ place
        by_contra bad
        obtain ⟨_, inside⟩ := start place bad
        exact List.not_mem_nil inside
  | cons write writes ih =>
      obtain ⟨written, value⟩ := write
      rw [after, List.foldl_cons, writtenOver_cons]
      refine (ih (Function.update store written value)).trans ?_
      constructor
      · rintro ⟨start, rest⟩
        refine ⟨fun place bad => ?_, fun bad => ?_, rest⟩
        · by_cases same : place = written
          · exact ⟨value, same ▸ List.mem_cons_self⟩
          · rw [← Function.update_of_ne same value store] at bad
            obtain ⟨later, inside⟩ := start place bad
            exact ⟨later, List.mem_cons_of_mem _ inside⟩
        · exact start written (by rwa [Function.update_self])
      · rintro ⟨start, here, rest⟩
        refine ⟨fun place bad => ?_, rest⟩
        by_cases same : place = written
        · subst same
          rw [Function.update_self] at bad
          exact here bad
        · rw [Function.update_of_ne same] at bad
          obtain ⟨later, inside⟩ := start place bad
          rcases List.mem_cons.1 inside with equal | inside
          · exact absurd (Prod.mk.inj equal).1 same
          · exact ⟨later, inside⟩

end Store

end Forge.Library.Writes
