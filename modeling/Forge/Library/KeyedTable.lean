import Mathlib.Data.List.Nodup
import Mathlib.Data.List.Count
import Mathlib.Logic.Relation

/-! Finite tables with a key column, the statements that change them, and how the rows of a
later table come from the rows of an earlier one. -/

namespace Forge.Library.KeyedTable

structure Table {κ : Type} (ρ : Type) (key : ρ → κ) where
  rows : List ρ
  distinct : (rows.map key).Nodup

namespace Table

variable {κ ρ : Type} {key : ρ → κ}

instance : Membership ρ (Table ρ key) := ⟨fun table row => row ∈ table.rows⟩

theorem mem_iff {table : Table ρ key} {row : ρ} : row ∈ table ↔ row ∈ table.rows := Iff.rfl

def empty : Table ρ key := ⟨[], by simp⟩

@[simp] theorem not_mem_empty (row : ρ) : row ∉ (empty : Table ρ key) := by
  simp [mem_iff, empty]

theorem eq_of_key_eq {table : Table ρ key} {left right : ρ} (hl : left ∈ table)
    (hr : right ∈ table) (same : key left = key right) : left = right :=
  List.inj_on_of_nodup_map table.distinct hl hr same

def any (table : Table ρ key) (holds : ρ → Bool) : Bool :=
  table.rows.any holds

@[simp] theorem any_eq_true {table : Table ρ key} {holds : ρ → Bool} :
    table.any holds = true ↔ ∃ row ∈ table, holds row = true := by
  simp [any, mem_iff]

@[simp] theorem any_eq_false {table : Table ρ key} {holds : ρ → Bool} :
    table.any holds = false ↔ ∀ row ∈ table, holds row = false := by
  simp [any, mem_iff]

def find? (table : Table ρ key) (holds : ρ → Bool) : Option ρ :=
  table.rows.find? holds

theorem mem_of_find? {table : Table ρ key} {holds : ρ → Bool} {row : ρ}
    (found : table.find? holds = some row) : row ∈ table ∧ holds row = true :=
  ⟨List.mem_of_find?_eq_some found, List.find?_some found⟩

theorem find?_eq_none {table : Table ρ key} {holds : ρ → Bool} :
    table.find? holds = none ↔ ∀ row ∈ table, holds row = false := by
  simp [find?, mem_iff]

/-- The one row with a key. -/
theorem find?_key [BEq κ] [LawfulBEq κ] {table : Table ρ key} {row : ρ} {wanted : κ}
    (member : row ∈ table) (same : key row = wanted) :
    table.find? (fun other => key other == wanted) = some row := by
  cases first : table.find? fun other => key other == wanted with
  | none =>
      have other := find?_eq_none.1 first row member
      rw [same, beq_self_eq_true] at other
      cases other
  | some other =>
      obtain ⟨there, found⟩ := mem_of_find? first
      rw [eq_of_key_eq there member ((beq_iff_eq.1 found).trans same.symm)]

def count (table : Table ρ key) (holds : ρ → Bool) : Nat :=
  table.rows.countP holds

theorem count_eq_zero {table : Table ρ key} {holds : ρ → Bool}
    (absent : ∀ row ∈ table, holds row = false) : table.count holds = 0 := by
  refine List.countP_eq_zero.2 fun row member => ?_
  simp [absent row member]

theorem count_eq_one {table : Table ρ key} {holds : ρ → Bool} {row : ρ} (member : row ∈ table)
    (holdsRow : holds row = true)
    (only : ∀ other ∈ table, holds other = true → other = row) : table.count holds = 1 := by
  have nodup : table.rows.Nodup := table.distinct.of_map key
  have filtered : table.rows.filter holds = [row] := by
    refine List.perm_singleton.1 ((List.perm_ext_iff_of_nodup (nodup.filter _)
      (List.nodup_singleton _)).2 fun other => ?_)
    rw [List.mem_filter, List.mem_singleton]
    constructor
    · intro found
      exact only other found.1 found.2
    · rintro rfl
      exact ⟨member, holdsRow⟩
  rw [count, List.countP_eq_length_filter, filtered, List.length_singleton]

/-- `UPDATE … SET … WHERE …` with an assignment that keeps the key. -/
def update (table : Table ρ key) (hits : ρ → Bool) (set : ρ → ρ)
    (keeps : ∀ row, key (set row) = key row) : Table ρ key where
  rows := table.rows.map fun row => if hits row then set row else row
  distinct := by
    have keys : (table.rows.map fun row => if hits row then set row else row).map key
        = table.rows.map key := by
      rw [List.map_map]
      refine List.map_congr_left fun row _ => ?_
      by_cases hit : hits row = true <;> simp [hit, keeps]
    rw [keys]
    exact table.distinct

theorem mem_update {table : Table ρ key} {hits : ρ → Bool} {set : ρ → ρ}
    {keeps : ∀ row, key (set row) = key row} {row : ρ} :
    row ∈ table.update hits set keeps ↔
      ∃ old ∈ table, row = if hits old then set old else old := by
  simp only [mem_iff, update, List.mem_map]
  exact exists_congr fun old => and_congr_right fun _ => eq_comm

theorem mem_update_cases {table : Table ρ key} {hits : ρ → Bool} {set : ρ → ρ}
    {keeps : ∀ row, key (set row) = key row} {row : ρ}
    (member : row ∈ table.update hits set keeps) :
    ∃ old ∈ table, key row = key old ∧
      ((hits old = true ∧ row = set old) ∨ (hits old = false ∧ row = old)) := by
  obtain ⟨old, there, rfl⟩ := mem_update.1 member
  refine ⟨old, there, ?_⟩
  by_cases hit : hits old = true
  · simp [hit, keeps]
  · simp [hit]

theorem mem_update_of_hit {table : Table ρ key} {hits : ρ → Bool} {set : ρ → ρ}
    {keeps : ∀ row, key (set row) = key row} {row : ρ} (member : row ∈ table)
    (hit : hits row = true) : set row ∈ table.update hits set keeps :=
  mem_update.2 ⟨row, member, by simp [hit]⟩

theorem mem_update_of_miss {table : Table ρ key} {hits : ρ → Bool} {set : ρ → ρ}
    {keeps : ∀ row, key (set row) = key row} {row : ρ} (member : row ∈ table)
    (miss : hits row = false) : row ∈ table.update hits set keeps :=
  mem_update.2 ⟨row, member, by simp [miss]⟩

/-- The first row with a property that an update does not change. -/
theorem find?_update {table : Table ρ key} {hits holds : ρ → Bool} {set : ρ → ρ}
    {keeps : ∀ row, key (set row) = key row} (same : ∀ row, holds (set row) = holds row) :
    (table.update hits set keeps).find? holds =
      (table.find? holds).map fun row => if hits row then set row else row := by
  have unchanged : (holds ∘ fun row => if hits row then set row else row) = holds := by
    funext row
    rw [Function.comp_apply]
    split
    · exact same row
    · rfl
  rw [find?, update, List.find?_map, unchanged, find?]

/-- `INSERT`, refused when the key is taken. -/
def insert? [DecidableEq κ] (table : Table ρ key) (row : ρ) : Option (Table ρ key) :=
  if fresh : ∀ old ∈ table.rows, key old ≠ key row then
    some ⟨row :: table.rows, by
      refine List.nodup_cons.2 ⟨fun taken => ?_, table.distinct⟩
      obtain ⟨old, member, same⟩ := List.mem_map.1 taken
      exact fresh old member same⟩
  else none

theorem insert?_eq_some [DecidableEq κ] {table grown : Table ρ key} {row : ρ}
    (inserted : table.insert? row = some grown) :
    (∀ old ∈ table, key old ≠ key row) ∧ ∀ other, other ∈ grown ↔ other = row ∨ other ∈ table := by
  by_cases fresh : ∀ old ∈ table.rows, key old ≠ key row
  · rw [insert?, dif_pos fresh, Option.some.injEq] at inserted
    subst inserted
    exact ⟨fresh, fun other => List.mem_cons⟩
  · simp [insert?, dif_neg fresh] at inserted

/-- The new row comes first. -/
theorem find?_insert [DecidableEq κ] {table grown : Table ρ key} {row : ρ} {holds : ρ → Bool}
    (inserted : table.insert? row = some grown) :
    grown.find? holds = if holds row then some row else table.find? holds := by
  by_cases fresh : ∀ old ∈ table.rows, key old ≠ key row
  · rw [insert?, dif_pos fresh, Option.some.injEq] at inserted
    subst inserted
    rw [find?, List.find?_cons]
    cases holds row <;> rfl
  · simp [insert?, dif_neg fresh] at inserted

theorem insert?_eq_none [DecidableEq κ] {table : Table ρ key} {row : ρ} :
    table.insert? row = none ↔ ∃ old ∈ table, key old = key row := by
  simp [insert?, mem_iff]

/-- `DELETE … WHERE …`. -/
def deleteWhere (table : Table ρ key) (hits : ρ → Bool) : Table ρ key where
  rows := table.rows.filter fun row => !hits row
  distinct := table.distinct.sublist (List.filter_sublist.map key)

theorem mem_deleteWhere {table : Table ρ key} {hits : ρ → Bool} {row : ρ} :
    row ∈ table.deleteWhere hits ↔ row ∈ table ∧ hits row = false := by
  simp [mem_iff, deleteWhere]

/-- Every row of the later table is an earlier row after some steps, or was born under a key
the earlier table does not have; no earlier row is gone. -/
structure Evolves (step : ρ → ρ → Prop) (born : ρ → Prop) (old new : Table ρ key) : Prop where
  origin : ∀ row ∈ new, (∃ before ∈ old, key before = key row ∧ step before row)
    ∨ (born row ∧ ∀ before ∈ old, key before ≠ key row)
  kept : ∀ row ∈ old, ∃ after ∈ new, key after = key row

namespace Evolves

variable {step : ρ → ρ → Prop} {born : ρ → Prop} {old mid new : Table ρ key}

theorem refl (stay : ∀ row, step row row) (table : Table ρ key) :
    Evolves step born table table :=
  ⟨fun row member => .inl ⟨row, member, rfl, stay row⟩, fun row member => ⟨row, member, rfl⟩⟩

/-- A row that was there before is followed by a row that it steps to. -/
theorem forward (evolves : Evolves step born old new) {row : ρ} (member : row ∈ old) :
    ∃ after ∈ new, key after = key row ∧ step row after := by
  obtain ⟨after, there, same⟩ := evolves.kept row member
  rcases evolves.origin after there with ⟨before, was, key_eq, stepped⟩ | ⟨-, fresh⟩
  · have : before = row := eq_of_key_eq was member (key_eq.trans same)
    subst this
    exact ⟨after, there, same, stepped⟩
  · exact absurd same.symm (fresh row member)

theorem mono {step' : ρ → ρ → Prop} {born' : ρ → Prop} (evolves : Evolves step born old new)
    (steps : ∀ before ∈ old, ∀ after ∈ new, step before after → step' before after)
    (births : ∀ row, born row → born' row) : Evolves step' born' old new := by
  refine ⟨fun row member => ?_, evolves.kept⟩
  rcases evolves.origin row member with ⟨before, was, same, stepped⟩ | ⟨birth, fresh⟩
  · exact .inl ⟨before, was, same, steps before was row member stepped⟩
  · exact .inr ⟨births row birth, fresh⟩

theorem trans (trans_step : ∀ {a b c}, step a b → step b c → step a c)
    (born_step : ∀ {a b}, born a → step a b → born b)
    (first : Evolves step born old mid) (second : Evolves step born mid new) :
    Evolves step born old new := by
  constructor
  · intro row member
    rcases second.origin row member with ⟨between, there, same, stepped⟩ | ⟨birth, fresh⟩
    · rcases first.origin between there with ⟨before, was, same', stepped'⟩ | ⟨birth, fresh⟩
      · exact .inl ⟨before, was, same'.trans same, trans_step stepped' stepped⟩
      · exact .inr ⟨born_step birth stepped, fun before was => same ▸ fresh before was⟩
    · refine .inr ⟨birth, fun before was => ?_⟩
      obtain ⟨between, there, same⟩ := first.kept before was
      exact same ▸ fresh between there
  · intro row member
    obtain ⟨between, there, same⟩ := first.kept row member
    obtain ⟨after, last, same'⟩ := second.kept between there
    exact ⟨after, last, same'.trans same⟩

/-- A property of single rows that births have and steps keep holds of the later table. -/
theorem preserves {P : ρ → Prop} (evolves : Evolves step born old new)
    (start : ∀ row, born row → P row)
    (keep : ∀ before ∈ old, ∀ after ∈ new, step before after → P before → P after)
    (before : ∀ row ∈ old, P row) : ∀ row ∈ new, P row := by
  intro row member
  rcases evolves.origin row member with ⟨earlier, was, -, stepped⟩ | ⟨birth, -⟩
  · exact keep earlier was row member stepped (before earlier was)
  · exact start row birth

theorem of_update_exact {hits : ρ → Bool} {set : ρ → ρ} {keeps : ∀ row, key (set row) = key row}
    (misses : ∀ row ∈ old, hits row = false → step row row)
    (sets : ∀ row ∈ old, hits row = true → step row (set row)) :
    Evolves step born old (old.update hits set keeps) := by
  constructor
  · intro row member
    obtain ⟨before, was, rfl⟩ := mem_update.1 member
    refine .inl ⟨before, was, ?_, ?_⟩
    · by_cases hit : hits before = true <;> simp [hit, keeps]
    · by_cases hit : hits before = true
      · simpa [hit] using sets before was hit
      · simpa [hit] using misses before was (eq_false_of_ne_true hit)
  · intro row member
    refine ⟨_, mem_update.2 ⟨row, member, rfl⟩, ?_⟩
    by_cases hit : hits row = true <;> simp [hit, keeps]

theorem of_update {hits : ρ → Bool} {set : ρ → ρ} {keeps : ∀ row, key (set row) = key row}
    (stay : ∀ row, step row row)
    (sets : ∀ row ∈ old, hits row = true → step row (set row)) :
    Evolves step born old (old.update hits set keeps) :=
  of_update_exact (fun row _ _ => stay row) sets

theorem of_insert [DecidableEq κ] {row : ρ} (stay : ∀ row, step row row)
    (birth : born row) (inserted : old.insert? row = some new) : Evolves step born old new := by
  obtain ⟨fresh, members⟩ := insert?_eq_some inserted
  constructor
  · intro other member
    rcases (members other).1 member with rfl | was
    · exact .inr ⟨birth, fresh⟩
    · exact .inl ⟨other, was, rfl, stay other⟩
  · intro other member
    exact ⟨other, (members other).2 (.inr member), rfl⟩

end Evolves

end Table

end Forge.Library.KeyedTable
