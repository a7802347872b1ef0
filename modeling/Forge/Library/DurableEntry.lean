import Mathlib.Data.List.Basic

/-! One name of a directory: the file it shows, and the earlier states that a loss of power may
bring back until the directory is synced. -/

namespace Forge.Library.DurableEntry

structure Entry (ε : Type) where
  current : Option ε
  earlier : List (Option ε)
deriving DecidableEq

namespace Entry

variable {ε : Type}

def settled (value : Option ε) : Entry ε := ⟨value, []⟩

def versions (entry : Entry ε) : List (Option ε) := entry.current :: entry.earlier

def present (entry : Entry ε) : Bool := entry.current.isSome

def change (entry : Entry ε) (value : Option ε) : Entry ε := ⟨value, entry.versions⟩

def sync (entry : Entry ε) : Entry ε := settled entry.current

def restore (entry : Entry ε) (pick : Nat) : Entry ε :=
  settled (entry.versions[pick]?.getD entry.current)

def Possible (entry : Entry ε) (value : ε) : Prop := some value ∈ entry.versions

def Firm (entry : Entry ε) : Prop := none ∉ entry.versions

instance (entry : Entry ε) [DecidableEq ε] : Decidable entry.Firm :=
  inferInstanceAs (Decidable (none ∉ entry.versions))

instance (entry : Entry ε) : Decidable (∀ value, ¬entry.Possible value) :=
  decidable_of_iff (∀ version ∈ entry.versions, version = none) <| by
    constructor
    · rintro empty value member
      cases empty _ member
    · rintro absent version member
      cases version with
      | none => rfl
      | some value => exact absurd member (absent value)

variable {entry : Entry ε} {value other : ε}

theorem present_iff : entry.present = true ↔ ∃ value, entry.current = some value :=
  Option.isSome_iff_exists

theorem Possible.of_current (shown : entry.current = some value) : entry.Possible value := by
  rw [Possible, versions, shown]
  exact List.mem_cons_self

theorem Firm.shows (firm : entry.Firm) : ∃ value, entry.current = some value := by
  cases shown : entry.current with
  | none => exact absurd (shown ▸ List.mem_cons_self) firm
  | some value => exact ⟨value, rfl⟩

@[simp] theorem possible_settled {shown : Option ε} :
    (settled shown).Possible value ↔ shown = some value := by
  rw [Possible, versions, settled, List.mem_singleton, eq_comm]

@[simp] theorem firm_settled {shown : Option ε} : (settled shown).Firm ↔ shown.isSome := by
  cases shown with
  | none => simp [Firm, versions, settled]
  | some value => simp [Firm, versions, settled]

@[simp] theorem current_change {shown : Option ε} : (entry.change shown).current = shown := rfl

@[simp] theorem current_sync : entry.sync.current = entry.current := rfl

theorem possible_change {shown : Option ε} :
    (entry.change shown).Possible value ↔ shown = some value ∨ entry.Possible value := by
  rw [Possible, versions, change, List.mem_cons, eq_comm, Possible]

theorem firm_change : (entry.change (some value)).Firm ↔ entry.Firm := by
  simp [Firm, versions, change]

theorem Possible.of_sync (possible : entry.sync.Possible value) : entry.Possible value :=
  .of_current (possible_settled.mp possible)

theorem Firm.sync (firm : entry.Firm) : entry.sync.Firm := by
  obtain ⟨value, shown⟩ := firm.shows
  simp [Entry.sync, shown]

theorem restore_mem (entry : Entry ε) (pick : Nat) :
    (entry.restore pick).current ∈ entry.versions := by
  show entry.versions[pick]?.getD entry.current ∈ entry.versions
  cases picked : entry.versions[pick]? with
  | none => exact List.mem_cons_self
  | some version => exact List.mem_of_getElem? picked

theorem Possible.of_restore {pick : Nat} (possible : (entry.restore pick).Possible value) :
    entry.Possible value := by
  have shown : (entry.restore pick).current = some value := possible_settled.mp possible
  rw [Possible, ← shown]
  exact restore_mem entry pick

theorem Firm.restore (firm : entry.Firm) (pick : Nat) : (entry.restore pick).Firm := by
  rw [Entry.restore, firm_settled, Option.isSome_iff_ne_none]
  exact fun lost => firm (lost ▸ restore_mem entry pick)

end Entry

end Forge.Library.DurableEntry
