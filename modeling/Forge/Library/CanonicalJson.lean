import Forge.Library.JsonParts
import Forge.Library.JsonText
import Forge.Library.OrderedMap
import Mathlib.Data.String.Basic

/-! Documents whose objects are sorted maps: their compact texts, and reading the texts back. -/

namespace Forge.Library.CanonicalJson

open Forge.Library.JsonDocument
open Forge.Library.JsonText
open Forge.Library.OrderedMap

def isMachineInt (number : Int) : Bool := -(2 : Int) ^ 63 ≤ number && number < (2 : Int) ^ 64

mutual

def normalize : Json → Json
  | .array items => .array (normalizeItems items)
  | .object fields => .object (SortedMap.ofList (normalizeFields fields)).entries
  | other => other

def normalizeItems : List Json → List Json
  | [] => []
  | item :: rest => normalize item :: normalizeItems rest

def normalizeFields : List (String × Json) → List (String × Json)
  | [] => []
  | (key, value) :: rest => (key, normalize value) :: normalizeFields rest

end

section Printing

abbrev FloatText := Int → Nat → List Char

variable (float : FloatText)

mutual

/-- The text of a document without white space. -/
def print : Json → List Char
  | .null => "null".toList
  | .bool true => "true".toList
  | .bool false => "false".toList
  | .number mantissa scale =>
      if scale = 0 ∧ isMachineInt mantissa = true then (toString mantissa).toList
      else float mantissa scale
  | .string text => (Json.quote text).toList
  | .array [] => ['[', ']']
  | .array (item :: rest) => '[' :: (print item ++ printItems rest)
  | .object [] => ['\x7b', '\x7d']
  | .object ((key, value) :: rest) =>
      '\x7b' :: ((Json.quote key).toList ++ ':' :: (print value ++ printFields rest))

def printItems : List Json → List Char
  | [] => [']']
  | item :: rest => ',' :: (print item ++ printItems rest)

def printFields : List (String × Json) → List Char
  | [] => ['\x7d']
  | (key, value) :: rest =>
      ',' :: ((Json.quote key).toList ++ ':' :: (print value ++ printFields rest))

end

end Printing

section Shapes

def IsInteger : Json → Prop
  | .number mantissa scale => scale = 0 ∧ isMachineInt mantissa = true
  | _ => True

def IsOrdered : Json → Prop
  | .object fields => fields.Pairwise fun first second => first.1 < second.1
  | _ => True

def Integral (document : Json) : Prop := Everywhere IsInteger document

def Ordered (document : Json) : Prop := Everywhere IsOrdered document

variable {items : List Json} {fields : List (String × Json)}

theorem integral_array : Integral (.array items) ↔ ∀ item ∈ items, Integral item :=
  everywhere_array.trans (and_iff_right trivial)

theorem integral_object :
    Integral (.object fields) ↔ ∀ field ∈ fields, Integral field.2 :=
  (everywhere_object.trans (and_iff_right trivial)).trans
    ⟨fun all field => all field.1 field.2, fun all _ _ => all _⟩

theorem integral_string (text : String) : Integral (.string text) :=
  everywhere_of_leaf trivial trivial

theorem ordered_array : Ordered (.array items) ↔ ∀ item ∈ items, Ordered item :=
  everywhere_array.trans (and_iff_right trivial)

theorem ordered_object : Ordered (.object fields) ↔
    fields.Pairwise (fun first second => first.1 < second.1)
      ∧ ∀ field ∈ fields, Ordered field.2 :=
  everywhere_object.trans (and_congr_right fun _ =>
    ⟨fun all field => all field.1 field.2, fun all _ _ => all _⟩)

theorem ordered_string (text : String) : Ordered (.string text) :=
  everywhere_of_leaf trivial trivial

theorem ordered_number (mantissa : Int) (scale : Nat) : Ordered (.number mantissa scale) :=
  everywhere_of_leaf trivial trivial

theorem normalizeItems_eq (items : List Json) : normalizeItems items = items.map normalize := by
  induction items with
  | nil => rfl
  | cons item rest ih => rw [normalizeItems, ih, List.map_cons]

theorem normalizeFields_eq (fields : List (String × Json)) :
    normalizeFields fields = fields.map fun field => (field.1, normalize field.2) := by
  induction fields with
  | nil => rfl
  | cons field rest ih => rw [normalizeFields, ih, List.map_cons]

theorem normalize_of_ordered (value : Json) (ordered : Ordered value) :
    normalize value = value := by
  induction value using Json.depth with
  | array items ih =>
      have below := ordered_array.1 ordered
      rw [normalize, normalizeItems_eq,
        List.map_congr_left fun item member => ih item member (below item member), List.map_id']
  | object fields ih =>
      obtain ⟨sorted, below⟩ := ordered_object.1 ordered
      have same : (fields.map fun field => (field.1, normalize field.2)) = fields := by
        refine (List.map_congr_left fun field member => ?_).trans (List.map_id' fields)
        rw [ih field.1 field.2 member (below field member)]
      rw [normalize, normalizeFields_eq, same]
      exact congrArg (fun map => Json.object map.entries)
        (SortedMap.ofList_entries ⟨fields, sorted⟩)
  | _ => rfl

end Shapes

section Reading

variable {float : FloatText} {rest : List Char} {fuel : Nat}

def Closes (rest : List Char) : Prop :=
  ∀ c ∈ rest.head?, c = ',' ∨ c = ']' ∨ c = '\x7d'

theorem closes_nil : Closes [] := by
  intro c first
  cases first

theorem delimited_of_closes (closes : Closes rest) : Delimited rest := by
  intro c first
  rcases closes c first with rfl | rfl | rfl <;> decide

theorem closes_items (items : List Json) : Closes (printItems float items ++ rest) := by
  intro c first
  cases items with
  | nil => exact .inr (.inl (Option.mem_some.1 first).symm)
  | cons => exact .inl (Option.mem_some.1 first).symm

theorem closes_fields (fields : List (String × Json)) :
    Closes (printFields float fields ++ rest) := by
  intro c first
  cases fields with
  | nil => exact .inr (.inr (Option.mem_some.1 first).symm)
  | cons => exact .inl (Option.mem_some.1 first).symm

theorem print_integer {mantissa : Int} {scale : Nat}
    (integral : Integral (.number mantissa scale)) :
    scale = 0 ∧ print float (.number mantissa scale) = (toString mantissa).toList := by
  have integer : scale = 0 ∧ isMachineInt mantissa = true := integral _ (.whole _)
  exact ⟨integer.1, by rw [print, if_pos integer]⟩

theorem print_head (value : Json) (integral : Integral value) :
    ∃ c text, print float value = c :: text ∧ isSpace c = false ∧ c ≠ ']' := by
  cases value with
  | null => exact ⟨_, _, rfl, rfl, by decide⟩
  | bool value => cases value <;> exact ⟨_, _, rfl, rfl, by decide⟩
  | number mantissa scale =>
      rw [(print_integer integral).2]
      obtain ⟨c, text, same, number⟩ := head_toString mantissa
      refine ⟨c, text, same, plain_of_digit number, ?_⟩
      rintro rfl
      rcases number with digit | sign
      · cases digit
      · cases sign
  | string text => exact ⟨_, _, by rw [print, ← List.append_nil (Json.quote text).toList,
      quote_append], rfl, by decide⟩
  | array items => cases items <;> exact ⟨_, _, rfl, rfl, by decide⟩
  | object fields =>
      rcases fields with _ | ⟨⟨key, value⟩, others⟩ <;> exact ⟨_, _, rfl, rfl, by decide⟩

theorem readValue_items {text : List Char} {c : Char} (first : text.head? = some c)
    (plain : isSpace c = false) (other : c ≠ ']') :
    readValue (fuel + 1) ('[' :: text)
      = (readItems fuel text).map fun found => (.array found.1, found.2) := by
  obtain ⟨more, rfl⟩ := List.head?_eq_some_iff.1 first
  rw [readValue]
  simp only [skip_cons (c := '[') rfl, skip_cons plain]
  split
  case h_1 same => exact absurd (List.cons.inj same).1 other
  case h_2 => rw [Option.map_eq_bind]; rfl

theorem readValue_fields {text : List Char} :
    readValue (fuel + 1) ('\x7b' :: '"' :: text)
      = (readFields fuel ('"' :: text)).map fun found => (.object found.1, found.2) := by
  have opens : readValue (fuel + 1) ('\x7b' :: '"' :: text)
      = (readFields fuel ('"' :: text)).bind fun found => some (.object found.1, found.2) := rfl
  rw [opens, Option.map_eq_bind]
  rfl

def Reads (float : FloatText) (value : Json) : Prop :=
  ∀ fuel rest, Closes rest → (print float value).length ≤ fuel →
    readValue fuel (print float value ++ rest) = some (value, rest)

theorem length_print (value : Json) (integral : Integral value) :
    0 < (print float value).length := by
  obtain ⟨c, text, same, -⟩ := @print_head float value integral
  rw [same]
  exact Nat.succ_pos _

theorem readItems_print {item : Json} {items : List Json} (reads : Reads float item)
    (others : ∀ later ∈ items, Reads float later)
    (enough : (print float item).length + (printItems float items).length ≤ fuel) :
    readItems fuel (print float item ++ (printItems float items ++ rest))
      = some (item :: items, rest) := by
  induction items generalizing item fuel with
  | nil =>
      obtain ⟨fuel, rfl⟩ : ∃ before, fuel = before + 1 :=
        ⟨fuel - 1, by rw [printItems, List.length_singleton] at enough; omega⟩
      rw [readItems, reads fuel _ (closes_items []) (by
        rw [printItems, List.length_singleton] at enough; omega)]
      rfl
  | cons next items ih =>
      rw [printItems, List.length_cons, List.length_append] at enough
      obtain ⟨fuel, rfl⟩ : ∃ before, fuel = before + 1 := ⟨fuel - 1, by omega⟩
      rw [readItems, reads fuel _ (closes_items (next :: items)) (by omega)]
      have read := @ih fuel next (others next (.head _))
        (fun later member => others later (.tail _ member)) (by omega)
      show ((readItems fuel (print float next ++ printItems float items ++ rest)).bind _ : Option _)
        = _
      rw [List.append_assoc, read]
      rfl

theorem readFields_print {key : String} {value : Json} {fields : List (String × Json)}
    (reads : Reads float value) (others : ∀ field ∈ fields, Reads float field.2)
    (enough : (Json.quote key).toList.length + (print float value).length
      + (printFields float fields).length ≤ fuel) :
    readFields fuel ((Json.quote key).toList
        ++ ':' :: (print float value ++ (printFields float fields ++ rest)))
      = some ((key, value) :: fields, rest) := by
  induction fields generalizing key value fuel with
  | nil =>
      rw [printFields, List.length_singleton] at enough
      obtain ⟨fuel, rfl⟩ : ∃ before, fuel = before + 1 := ⟨fuel - 1, by omega⟩
      rw [readFields_field (reads fuel _ (closes_fields []) (by omega))]
      rfl
  | cons field fields ih =>
      rcases field with ⟨next, second⟩
      rw [printFields, List.length_cons, List.length_append, List.length_cons,
        List.length_append] at enough
      obtain ⟨fuel, rfl⟩ : ∃ before, fuel = before + 1 := ⟨fuel - 1, by omega⟩
      rw [readFields_field (reads fuel _ (closes_fields ((next, second) :: fields)) (by omega))]
      have read := @ih fuel next second (others _ (.head _))
        (fun later member => others later (.tail _ member)) (by omega)
      show ((readFields fuel ((Json.quote next).toList
        ++ ':' :: (print float second ++ printFields float fields) ++ rest)).bind _ : Option _) = _
      rw [List.append_assoc, List.cons_append, List.append_assoc, read]
      rfl

theorem reads_array {items : List Json} (integral : Integral (.array items))
    (below : ∀ item ∈ items, Reads float item) : Reads float (.array items) := by
  intro fuel rest closes enough
  cases items with
  | nil =>
      obtain ⟨fuel, rfl⟩ : ∃ before, fuel = before + 1 :=
        ⟨fuel - 1, by rw [print, List.length_cons] at enough; omega⟩
      rfl
  | cons item items =>
      obtain ⟨c, text, same, plain, other⟩ := @print_head float item
        (integral_array.1 integral item (.head _))
      rw [print, List.length_cons, List.length_append] at enough
      obtain ⟨fuel, rfl⟩ : ∃ before, fuel = before + 1 := ⟨fuel - 1, by omega⟩
      have head : (print float item ++ (printItems float items ++ rest)).head? = some c := by
        rw [same]
        rfl
      rw [print, List.cons_append, List.append_assoc, readValue_items head plain other,
        readItems_print (below item (.head _)) (fun later member => below later (.tail _ member))
          (by omega)]
      rfl

theorem reads_object {fields : List (String × Json)}
    (below : ∀ field ∈ fields, Reads float field.2) : Reads float (.object fields) := by
  intro fuel rest closes enough
  cases fields with
  | nil =>
      obtain ⟨fuel, rfl⟩ : ∃ before, fuel = before + 1 :=
        ⟨fuel - 1, by rw [print, List.length_cons] at enough; omega⟩
      rfl
  | cons field fields =>
      rcases field with ⟨key, value⟩
      rw [print, List.length_cons, List.length_append, List.length_cons, List.length_append]
        at enough
      obtain ⟨fuel, rfl⟩ : ∃ before, fuel = before + 1 := ⟨fuel - 1, by omega⟩
      have read := @readFields_print float rest fuel key value fields (below _ (.head _))
        (fun later member => below later (.tail _ member)) (by omega)
      rw [quote_append] at read
      rw [print, List.cons_append, List.append_assoc, List.cons_append, List.append_assoc,
        quote_append, readValue_fields, read]
      rfl

theorem reads_print (value : Json) (integral : Integral value) : Reads float value := by
  induction value using Json.depth with
  | array items ih =>
      exact reads_array integral fun item member =>
        ih item member (integral_array.1 integral item member)
  | object fields ih =>
      exact reads_object fun field member =>
        ih field.1 field.2 member (integral_object.1 integral field member)
  | null =>
      intro fuel rest _ enough
      obtain ⟨fuel, rfl⟩ := Nat.exists_eq_add_of_lt
        (Nat.lt_of_lt_of_le (@length_print float _ integral) enough)
      rw [Nat.zero_add]
      rfl
  | bool value =>
      intro fuel rest _ enough
      obtain ⟨fuel, rfl⟩ := Nat.exists_eq_add_of_lt
        (Nat.lt_of_lt_of_le (@length_print float _ integral) enough)
      rw [Nat.zero_add]
      cases value <;> rfl
  | number mantissa scale =>
      intro fuel rest closes enough
      obtain ⟨fuel, rfl⟩ := Nat.exists_eq_add_of_lt
        (Nat.lt_of_lt_of_le (@length_print float _ integral) enough)
      obtain ⟨whole, text⟩ := @print_integer float mantissa scale integral
      rw [Nat.zero_add, text, readValue_delimited (delimited_of_closes closes), whole]
  | string text =>
      intro fuel rest _ enough
      obtain ⟨fuel, rfl⟩ := Nat.exists_eq_add_of_lt
        (Nat.lt_of_lt_of_le (@length_print float _ integral) enough)
      rw [Nat.zero_add]
      exact readValue_quote

theorem readDocument_print (value : Json) (integral : Integral value) :
    readDocument (print float value) = some value := by
  have read := @reads_print float value integral ((print float value).length + 1) [] closes_nil
    (Nat.le_succ _)
  rw [List.append_nil] at read
  rw [readDocument, read]
  rfl

end Reading

end Forge.Library.CanonicalJson
