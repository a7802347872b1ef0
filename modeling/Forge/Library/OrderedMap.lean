import Mathlib.Order.Basic
import Mathlib.Data.List.Sort

/-! Maps as lists of entries in the order of their keys. -/

namespace Forge.Library.OrderedMap

/-- A finite map; no key is there twice. -/
@[ext] structure SortedMap (κ β : Type) [LinearOrder κ] where
  entries : List (κ × β)
  sorted : entries.Pairwise fun first second => first.1 < second.1

variable {κ β γ : Type} [LinearOrder κ]

def insertEntry (key : κ) (value : β) : List (κ × β) → List (κ × β)
  | [] => [(key, value)]
  | entry :: rest =>
      if key < entry.1 then (key, value) :: entry :: rest
      else if key = entry.1 then (key, value) :: rest
      else entry :: insertEntry key value rest

theorem mem_insertEntry {key : κ} {value : β} {entries : List (κ × β)} {entry : κ × β}
    (member : entry ∈ insertEntry key value entries) :
    entry = (key, value) ∨ entry ∈ entries := by
  induction entries with
  | nil => exact .inl (List.mem_singleton.1 member)
  | cons first rest ih =>
      rw [insertEntry] at member
      split at member
      · exact List.mem_cons.1 member
      split at member
      · exact (List.mem_cons.1 member).imp_right (List.mem_cons_of_mem _)
      · rcases List.mem_cons.1 member with rfl | later
        · exact .inr (.head _)
        · exact (ih later).imp_right (List.mem_cons_of_mem _)

theorem sorted_insertEntry (key : κ) (value : β) {entries : List (κ × β)}
    (sorted : entries.Pairwise fun first second => first.1 < second.1) :
    (insertEntry key value entries).Pairwise fun first second => first.1 < second.1 := by
  induction entries with
  | nil => exact List.pairwise_singleton _ _
  | cons first rest ih =>
      obtain ⟨below, others⟩ := List.pairwise_cons.1 sorted
      rw [insertEntry]
      split
      case isTrue before =>
          refine List.pairwise_cons.2 ⟨fun entry member => ?_, sorted⟩
          rcases List.mem_cons.1 member with rfl | later
          · exact before
          · exact before.trans (below entry later)
      case isFalse notBefore =>
          split
          case isTrue same =>
              exact List.pairwise_cons.2 ⟨fun entry later => same ▸ below entry later, others⟩
          case isFalse other =>
              refine List.pairwise_cons.2 ⟨fun entry member => ?_, ih others⟩
              rcases mem_insertEntry member with rfl | later
              · exact lt_of_le_of_ne (not_lt.1 notBefore) (Ne.symm other)
              · exact below entry later

namespace SortedMap

def empty : SortedMap κ β := ⟨[], .nil⟩

def insert (map : SortedMap κ β) (key : κ) (value : β) : SortedMap κ β :=
  ⟨insertEntry key value map.entries, sorted_insertEntry key value map.sorted⟩

def ofList (entries : List (κ × β)) : SortedMap κ β :=
  entries.foldl (fun map entry => map.insert entry.1 entry.2) empty

def find? (map : SortedMap κ β) (key : κ) : Option β := map.entries.lookup key

def keys (map : SortedMap κ β) : List κ := map.entries.map Prod.fst

def isEmpty (map : SortedMap κ β) : Bool := map.entries.isEmpty

def mapValues (map : SortedMap κ β) (f : β → γ) : SortedMap κ γ :=
  ⟨map.entries.map fun entry => (entry.1, f entry.2), List.pairwise_map.2 map.sorted⟩

section Lookup

variable {map : SortedMap κ β} {key other : κ} {value : β} {entries : List (κ × β)}

theorem lookup_cons_eq (first : κ) (value : β) :
    ((first, value) :: entries).lookup key = if key = first then some value
      else entries.lookup key := by
  rw [List.lookup_cons]
  by_cases same : key = first
  · rw [if_pos same, beq_iff_eq.2 same]
  · rw [if_neg same, beq_eq_false_iff_ne.2 same]

theorem mem_of_lookup (found : entries.lookup key = some value) : (key, value) ∈ entries := by
  induction entries with
  | nil => cases found
  | cons entry rest ih =>
      rw [lookup_cons_eq] at found
      split at found
      case isTrue same =>
          obtain rfl := Option.some.inj found
          exact same ▸ .head _
      case isFalse => exact List.mem_cons_of_mem _ (ih found)

theorem mem_entries : (key, value) ∈ map.entries ↔ map.find? key = some value := by
  refine ⟨fun member => ?_, mem_of_lookup⟩
  have sorted := map.sorted
  rw [find?]
  generalize map.entries = entries at member sorted
  induction entries with
  | nil => cases member
  | cons entry rest ih =>
      obtain ⟨below, others⟩ := List.pairwise_cons.1 sorted
      rw [lookup_cons_eq]
      rcases List.mem_cons.1 member with rfl | later
      · exact if_pos rfl
      · rw [if_neg (below _ later).ne', ih later others]

theorem find?_insert : (map.insert key value).find? other
    = if other = key then some value else map.find? other := by
  show (insertEntry key value map.entries).lookup other = _
  rw [find?]
  generalize map.entries = entries
  induction entries with
  | nil => rw [insertEntry, lookup_cons_eq]
  | cons entry rest ih =>
      rw [insertEntry]
      split
      case isTrue => rw [lookup_cons_eq]
      case isFalse =>
          split
          case isTrue same =>
              rw [lookup_cons_eq, lookup_cons_eq, same]
              split <;> rfl
          case isFalse apart =>
              rw [lookup_cons_eq, lookup_cons_eq, ih]
              split
              case isTrue here =>
                  rw [if_neg]
                  rintro rfl
                  exact apart here
              case isFalse => rfl

theorem find?_mapValues (f : β → γ) : (map.mapValues f).find? key = (map.find? key).map f := by
  show (map.entries.map fun entry => (entry.1, f entry.2)).lookup key = _
  rw [find?]
  generalize map.entries = entries
  induction entries with
  | nil => rfl
  | cons entry rest ih =>
      rw [List.map_cons, lookup_cons_eq, lookup_cons_eq, ih]
      split <;> rfl

theorem mem_keys : key ∈ map.keys ↔ ∃ value, map.find? key = some value := by
  constructor
  · intro member
    obtain ⟨entry, listed, same⟩ := List.mem_map.1 member
    exact ⟨entry.2, mem_entries.1 (same ▸ listed)⟩
  · rintro ⟨value, found⟩
    exact List.mem_map.2 ⟨_, mem_entries.2 found, rfl⟩

theorem mem_keys_ofList : key ∈ (ofList entries).keys ↔ key ∈ entries.map Prod.fst := by
  have onward : ∀ (entries : List (κ × β)) (map : SortedMap κ β),
      key ∈ (entries.foldl (fun map entry => map.insert entry.1 entry.2) map).keys
        ↔ key ∈ map.keys ∨ key ∈ entries.map Prod.fst := by
    intro entries
    induction entries with
    | nil => exact fun map => (or_iff_left List.not_mem_nil).symm
    | cons entry rest ih =>
        intro map
        have grown : key ∈ (map.insert entry.1 entry.2).keys ↔ key ∈ map.keys ∨ key = entry.1 := by
          rw [mem_keys, mem_keys]
          simp only [find?_insert]
          by_cases same : key = entry.1 <;> simp [same]
        rw [List.foldl_cons, ih, grown, List.map_cons, List.mem_cons, or_assoc]
  exact (onward entries empty).trans (or_iff_right List.not_mem_nil)

end Lookup

section Order

theorem insertEntry_last {key : κ} {value : β} {entries : List (κ × β)}
    (above : ∀ entry ∈ entries, entry.1 < key) :
    insertEntry key value entries = entries ++ [(key, value)] := by
  induction entries with
  | nil => rfl
  | cons entry rest ih =>
      have first := above entry (.head _)
      rw [insertEntry, if_neg first.le.not_gt, if_neg first.ne', ih fun later member =>
        above later (.tail _ member), List.cons_append]

theorem ofList_entries (map : SortedMap κ β) : ofList map.entries = map := by
  have append : ∀ (later : List (κ × β)) (front : SortedMap κ β),
      (front.entries ++ later).Pairwise (fun first second => first.1 < second.1) →
      (later.foldl (fun map entry => map.insert entry.1 entry.2) front).entries
        = front.entries ++ later := by
    intro later
    induction later with
    | nil => exact fun front _ => (List.append_nil _).symm
    | cons entry rest ih =>
        intro front sorted
        have above : ∀ before ∈ front.entries, before.1 < entry.1 := fun before member =>
          (List.pairwise_append.1 sorted).2.2 before member entry (.head _)
        have grown : (front.insert entry.1 entry.2).entries = front.entries ++ [entry] :=
          insertEntry_last above
        rw [List.foldl_cons, ih, grown, List.append_assoc, List.singleton_append]
        rwa [grown, List.append_assoc, List.singleton_append]
  exact SortedMap.ext (append map.entries empty map.sorted)

end Order

end SortedMap

end Forge.Library.OrderedMap
