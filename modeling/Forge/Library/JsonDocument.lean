import Forge.Library.Text
import Mathlib.Data.List.Sort

/-! JSON documents with the two sets of accessors that programs over a `jsonb` column use:
lookups in the host language, and the operators of the database. -/

namespace Forge.Library.JsonDocument

open Forge.Library.Text

/-- A JSON document. A number is `mantissa / 10 ^ scale`; of two fields with one name the
first counts. -/
inductive Json where
  | null
  | bool (value : Bool)
  | number (mantissa : Int) (scale : Nat)
  | string (text : String)
  | array (items : List Json)
  | object (fields : List (String × Json))
deriving Repr, Inhabited

def firstByKey {β : Type} : List (String × β) → List (String × β)
  | [] => []
  | (key, value) :: rest => (key, value) :: (firstByKey rest).filter (fun entry => entry.1 ≠ key)

theorem mem_firstByKey_iff {β : Type} {fields : List (String × β)} {key : String} {value : β} :
    (key, value) ∈ firstByKey fields ↔ fields.lookup key = some value := by
  induction fields with
  | nil => simp [firstByKey]
  | cons field rest ih =>
      rcases field with ⟨head, first⟩
      by_cases same : key = head
      · subst same
        simp [firstByKey, eq_comm]
      · have other : (key == head) = false := by simpa using same
        simp [firstByKey, List.lookup_cons, other, same, ih]

namespace Json

/-- `Value::get`: the field of an object. -/
def get : Json → String → Option Json
  | .object fields, key => fields.lookup key
  | _, _ => none

/-- `Value::as_str`. -/
def asStr : Json → Option String
  | .string text => some text
  | _ => none

/-- `Value::as_array`. -/
def asArray : Json → Option (List Json)
  | .array items => some items
  | _ => none

/-- `Value::as_i64`. -/
def asI64 : Json → Option Int
  | .number mantissa 0 =>
      if -(2 : Int) ^ 63 ≤ mantissa ∧ mantissa < (2 : Int) ^ 63 then some mantissa else none
  | _ => none

def numberText (mantissa : Int) (scale : Nat) : String :=
  let sign := if mantissa < 0 then "-" else ""
  let whole := toString (mantissa.natAbs / 10 ^ scale)
  if scale = 0 then sign ++ whole
  else
    let fraction := (digits 10 scale mantissa.natAbs).map Nat.digitChar
    sign ++ whole ++ "." ++ String.ofList fraction

/-- One character inside a quoted JSON string. -/
def escapeChar (c : Char) : List Char :=
  if c = '"' then ['\\', '"']
  else if c = '\\' then ['\\', '\\']
  else if c = '\n' then ['\\', 'n']
  else if c = '\r' then ['\\', 'r']
  else if c = '\t' then ['\\', 't']
  else if c.toNat = 8 then ['\\', 'b']
  else if c.toNat = 12 then ['\\', 'f']
  else if c.toNat < 32 then
    '\\' :: 'u' :: (digits 16 4 c.toNat).map Nat.digitChar
  else [c]

def quote (text : String) : String :=
  "\"" ++ String.ofList (text.toList.flatMap escapeChar) ++ "\""

def keyLe (left right : String) : Bool :=
  left.utf8ByteSize < right.utf8ByteSize
    || (left.utf8ByteSize == right.utf8ByteSize && decide (left ≤ right))

mutual

/-- The text of a `jsonb` value. -/
def jsonbText : Json → String
  | .null => "null"
  | .bool true => "true"
  | .bool false => "false"
  | .number mantissa scale => numberText mantissa scale
  | .string text => quote text
  | .array items => "[" ++ String.intercalate ", " (jsonbItems items) ++ "]"
  | .object fields =>
      let entries := (firstByKey (jsonbFields fields)).insertionSort fun a b => keyLe a.1 b.1
      "\x7b" ++ String.intercalate ", " (entries.map fun e => quote e.1 ++ ": " ++ e.2) ++ "\x7d"

def jsonbItems : List Json → List String
  | [] => []
  | item :: rest => jsonbText item :: jsonbItems rest

def jsonbFields : List (String × Json) → List (String × String)
  | [] => []
  | (key, value) :: rest => (key, jsonbText value) :: jsonbFields rest

end

/-- The text of one element as `jsonb_array_elements_text` returns it, NULL for null. -/
def elementText : Json → Option String
  | .null => none
  | .string text => some text
  | other => some (jsonbText other)

/-- `jsonb_each`: the entries of an object. -/
def jsonbEach : Json → List (String × Json)
  | .object fields => firstByKey fields
  | _ => []

/-- The `?` operator: a top-level key of an object or string element of an array. -/
def hasKey : Json → String → Bool
  | .object fields, key => (fields.lookup key).isSome
  | .array items, key => items.any (fun item => item.asStr == some key)
  | .string text, key => text == key
  | _, _ => false

theorem mem_jsonbEach_iff {document : Json} {key : String} {value : Json} :
    (key, value) ∈ document.jsonbEach ↔ document.get key = some value := by
  cases document with
  | object fields => exact mem_firstByKey_iff
  | _ => simp [jsonbEach, get]

theorem elementText_of_asStr {item : Json} {text : String} (read : item.asStr = some text) :
    item.elementText = some text := by
  cases item <;> simp_all [asStr, elementText]

end Json

/-- The `->` operator on a nullable document. -/
def arrow (document : Option Json) (key : String) : Option Json :=
  document.bind (·.get key)

def arrayItems (document : Option Json) : List Json :=
  (document.bind Json.asArray).getD []

/-- `jsonb_typeof(document) = 'array'`, false for NULL. -/
def isArray (document : Option Json) : Bool :=
  (document.bind Json.asArray).isSome

end Forge.Library.JsonDocument
