import Forge.Library.JsonDocument

/-! Reading JSON texts: white space, strings with their escapes, numbers, and nested documents. -/

namespace Forge.Library.JsonText

open Forge.Library.JsonDocument
open Forge.Library.Text

def isSpace (c : Char) : Bool :=
  c == ' ' || c == '\n' || c == '\t' || c == '\r'

def skip (text : List Char) : List Char :=
  text.dropWhile isSpace

def hexValue (c : Char) : Option Nat :=
  if '0' ≤ c ∧ c ≤ '9' then some (c.toNat - '0'.toNat)
  else if 'a' ≤ c ∧ c ≤ 'f' then some (c.toNat - 'a'.toNat + 10)
  else if 'A' ≤ c ∧ c ≤ 'F' then some (c.toNat - 'A'.toNat + 10)
  else none

def readUnit : List Char → Option (Nat × List Char)
  | a :: b :: c :: d :: rest => do
      let digits := [← hexValue a, ← hexValue b, ← hexValue c, ← hexValue d]
      some (ofDigits 16 digits, rest)
  | _ => none

/-- What stands behind a backslash; two surrogates are one character. -/
def readEscape : List Char → Option (Char × List Char)
  | [] => none
  | e :: rest =>
      if e = 'u' then do
        let (lead, rest) ← readUnit rest
        if 0xD800 ≤ lead ∧ lead < 0xDC00 then
          match rest with
          | '\\' :: 'u' :: more => do
              let (trail, rest) ← readUnit more
              if 0xDC00 ≤ trail ∧ trail < 0xE000 then
                some (.ofNat (0x10000 + (lead - 0xD800) * 0x400 + (trail - 0xDC00)), rest)
              else none
          | _ => none
        else if 0xDC00 ≤ lead ∧ lead < 0xE000 then none
        else some (.ofNat lead, rest)
      else
        (([('"', '"'), ('\\', '\\'), ('/', '/'), ('b', .ofNat 8), ('f', .ofNat 12), ('n', '\n'),
          ('r', '\r'), ('t', '\t')].lookup e).map fun c => (c, rest))

/-- The rest of a string behind its opening quote. -/
def readChars : Nat → List Char → Option (List Char × List Char)
  | 0, _ => none
  | _ + 1, [] => none
  | fuel + 1, c :: rest =>
      if c = '"' then some ([], rest)
      else do
        let (first, rest) ←
          if c = '\\' then readEscape rest else if c.toNat < 32 then none else some (c, rest)
        let (others, rest) ← readChars fuel rest
        some (first :: others, rest)

/-- The exponent of a number, if there is one. -/
def readExponent (text : List Char) : Option (Option Int × List Char) :=
  match text with
  | [] => some (none, [])
  | e :: rest =>
      if e = 'e' ∨ e = 'E' then
        let (negative, rest) := match rest with
          | '-' :: more => (true, more)
          | '+' :: more => (false, more)
          | other => (false, other)
        let digits := rest.takeWhile Char.isDigit
        let power : Int := Nat.ofDigitChars 10 digits 0
        if digits = [] then none
        else some (some (if negative then -power else power), rest.dropWhile Char.isDigit)
      else some (none, text)

def readFraction : List Char → Option (Option (List Char) × List Char)
  | '.' :: rest =>
      let digits := rest.takeWhile Char.isDigit
      if digits = [] then none else some (some digits, rest.dropWhile Char.isDigit)
  | text => some (none, text)

/-- A number without its sign; one with a fraction or an exponent, and `-0`, is a float and has a
scale. -/
def readMagnitude (negative : Bool) (text : List Char) : Option (Json × List Char) := do
  let whole := text.takeWhile Char.isDigit
  if whole = [] ∨ (whole.head? = some '0' ∧ 1 < whole.length) then none
  else
    let (fraction, rest) ← readFraction (text.dropWhile Char.isDigit)
    let (exponent, rest) ← readExponent rest
    let magnitude : Int := Nat.ofDigitChars 10 (whole ++ fraction.getD []) 0
    let mantissa := if negative then -magnitude else magnitude
    if fraction = none ∧ exponent = none ∧ ¬ (negative = true ∧ magnitude = 0) then
      some (.number mantissa 0, rest)
    else
      let scale : Int := (fraction.getD []).length - exponent.getD 0
      some (.number (mantissa * 10 ^ (1 - scale).toNat) (max scale 1).toNat, rest)

def readNumber : List Char → Option (Json × List Char)
  | '-' :: rest => readMagnitude true rest
  | text => readMagnitude false text

mutual

def readValue : Nat → List Char → Option (Json × List Char)
  | 0, _ => none
  | fuel + 1, text =>
      match skip text with
      | '"' :: rest => do
          let (chars, rest) ← readChars (rest.length + 1) rest
          some (.string (String.ofList chars), rest)
      | '[' :: rest =>
          match skip rest with
          | ']' :: rest => some (.array [], rest)
          | inner => do
              let (items, rest) ← readItems fuel inner
              some (.array items, rest)
      | '\x7b' :: rest =>
          match skip rest with
          | '\x7d' :: rest => some (.object [], rest)
          | inner => do
              let (fields, rest) ← readFields fuel inner
              some (.object fields, rest)
      | 'n' :: 'u' :: 'l' :: 'l' :: rest => some (.null, rest)
      | 't' :: 'r' :: 'u' :: 'e' :: rest => some (.bool true, rest)
      | 'f' :: 'a' :: 'l' :: 's' :: 'e' :: rest => some (.bool false, rest)
      | other => readNumber other

/-- The items of an array up to its closing bracket. -/
def readItems : Nat → List Char → Option (List Json × List Char)
  | 0, _ => none
  | fuel + 1, text => do
      let (item, rest) ← readValue fuel text
      match skip rest with
      | ']' :: rest => some ([item], rest)
      | ',' :: rest => do
          let (items, rest) ← readItems fuel rest
          some (item :: items, rest)
      | _ => none

/-- The fields of an object up to its closing brace. -/
def readFields : Nat → List Char → Option (List (String × Json) × List Char)
  | 0, _ => none
  | fuel + 1, text =>
      match skip text with
      | '"' :: rest => do
          let (key, rest) ← readChars (rest.length + 1) rest
          match skip rest with
          | ':' :: rest => do
              let (value, rest) ← readValue fuel rest
              match skip rest with
              | '\x7d' :: rest => some ([(String.ofList key, value)], rest)
              | ',' :: rest => do
                  let (fields, rest) ← readFields fuel rest
                  some ((String.ofList key, value) :: fields, rest)
              | _ => none
          | _ => none
      | _ => none

end

def readDocument (text : List Char) : Option Json := do
  let (document, rest) ← readValue (text.length + 1) text
  if skip rest = [] then some document else none

section Documents

def field (document : Json) (name : String) : Option Json :=
  match document with
  | .object fields => fields.reverse.lookup name
  | _ => none

def parseIndex (token : String) : Option Nat :=
  let text := token.toList
  if text = [] ∨ ¬ text.all Char.isDigit ∨ (text.head? = some '0' ∧ text.length ≠ 1) then none
  else some (Nat.ofDigitChars 10 text 0)

/-- `Value::pointer`, with the segments of the pointer. -/
def pointer : Json → List String → Option Json
  | target, [] => some target
  | .object fields, token :: rest => do pointer (← field (.object fields) token) rest
  | .array items, token :: rest => do pointer (← items[(← parseIndex token)]?) rest
  | _, _ :: _ => none

/-- `Value::as_u64`. -/
def asU64 : Json → Option Nat
  | .number mantissa 0 =>
      if 0 ≤ mantissa ∧ mantissa < (2 : Int) ^ 64 then some mantissa.toNat else none
  | _ => none

end Documents

section Strings

variable {c : Char} {rest : List Char}

theorem hexValue_digitChar {d : Nat} (small : d < 16) : hexValue (Nat.digitChar d) = some d := by
  have table : ∀ d < 16, hexValue (Nat.digitChar d) = some d := by decide
  exact table d small

theorem readUnit_digits {number : Nat} (small : number < 16 ^ 4) :
    readUnit ((digits 16 4 number).map Nat.digitChar ++ rest) = some (number, rest) := by
  have length := length_digits 16 4 number
  have below : ∀ d ∈ digits 16 4 number, d < 16 := fun d => lt_of_mem_digits (by decide)
  have whole := ofDigits_digits_of_lt small
  revert length below whole
  generalize digits 16 4 number = ds
  intro length below whole
  match ds, length with
  | [a, b, c, d], _ =>
      simp only [List.forall_mem_cons] at below
      obtain ⟨first, second, third, fourth, -⟩ := below
      simp only [List.map_cons, List.map_nil, List.cons_append, List.nil_append, readUnit,
        hexValue_digitChar first, hexValue_digitChar second, hexValue_digitChar third,
        hexValue_digitChar fourth, Option.bind_eq_bind, Option.bind_some, whole]

theorem escapeChar_cases (c : Char) :
    (Json.escapeChar c = [c] ∧ c ≠ '"' ∧ c ≠ '\\' ∧ ¬ c.toNat < 32)
      ∨ ∃ escape, Json.escapeChar c = '\\' :: escape
        ∧ ∀ rest, readEscape (escape ++ rest) = some (c, rest) := by
  rw [Json.escapeChar]
  split
  case isTrue same => exact .inr ⟨['"'], rfl, fun rest => by rw [same]; rfl⟩
  case isFalse noQuote =>
  split
  case isTrue same => exact .inr ⟨['\\'], rfl, fun rest => by rw [same]; rfl⟩
  case isFalse noSlash =>
  split
  case isTrue same => exact .inr ⟨['n'], rfl, fun rest => by rw [same]; rfl⟩
  case isFalse =>
  split
  case isTrue same => exact .inr ⟨['r'], rfl, fun rest => by rw [same]; rfl⟩
  case isFalse =>
  split
  case isTrue same => exact .inr ⟨['t'], rfl, fun rest => by rw [same]; rfl⟩
  case isFalse =>
  split
  case isTrue code =>
      exact .inr ⟨['b'], rfl, fun rest => by rw [← Char.ofNat_toNat c, code]; rfl⟩
  case isFalse =>
  split
  case isTrue code =>
      exact .inr ⟨['f'], rfl, fun rest => by rw [← Char.ofNat_toNat c, code]; rfl⟩
  case isFalse =>
  split
  case isTrue control =>
      refine .inr ⟨_, rfl, fun rest => ?_⟩
      rw [List.cons_append, readEscape, if_pos rfl, readUnit_digits (by omega)]
      simp only [Option.bind_eq_bind, Option.bind_some]
      rw [if_neg (by omega), if_neg (by omega), Char.ofNat_toNat]
  case isFalse printable => exact .inl ⟨rfl, noQuote, noSlash, printable⟩

theorem readChars_escape {fuel : Nat} {text : List Char} (enough : text.length < fuel) :
    readChars fuel (text.flatMap Json.escapeChar ++ '"' :: rest) = some (text, rest) := by
  induction text generalizing fuel with
  | nil =>
      obtain ⟨less, rfl⟩ := Nat.exists_eq_succ_of_ne_zero (Nat.ne_of_gt enough)
      rfl
  | cons c others ih =>
      obtain ⟨less, rfl⟩ := Nat.exists_eq_succ_of_ne_zero (Nat.ne_of_gt (Nat.zero_lt_of_lt enough))
      have goes := @ih less (Nat.lt_of_succ_lt_succ enough)
      rw [List.flatMap_cons, List.append_assoc]
      rcases escapeChar_cases c with ⟨same, noQuote, noSlash, printable⟩ | ⟨escape, same, read⟩
      · rw [same, List.singleton_append, readChars, if_neg noQuote, if_neg noSlash,
          if_neg printable]
        simp only [Option.bind_eq_bind, Option.bind_some, goes]
      · rw [same, List.cons_append, readChars, if_neg (by decide), if_pos rfl, read]
        simp only [Option.bind_eq_bind, Option.bind_some, goes]

end Strings

section Numbers

variable {rest : List Char}

def Delimited (rest : List Char) : Prop :=
  ∀ c ∈ rest.head?, c.isDigit = false ∧ c ≠ '.' ∧ c ≠ 'e' ∧ c ≠ 'E'

def Ends (rest : List Char) : Prop :=
  ∀ c ∈ rest.head?, c = ',' ∨ c = '\x7d'

theorem Ends.delimited (ends : Ends rest) : Delimited rest := by
  intro c first
  rcases ends c first with rfl | rfl <;> decide

theorem digits_of_delimited {digits : List Char} (all : ∀ c ∈ digits, c.isDigit = true)
    (delimited : Delimited rest) : (digits ++ rest).takeWhile Char.isDigit = digits
      ∧ (digits ++ rest).dropWhile Char.isDigit = rest := by
  have none_ : rest.takeWhile Char.isDigit = [] ∧ rest.dropWhile Char.isDigit = rest := by
    cases rest with
    | nil => exact ⟨rfl, rfl⟩
    | cons c others =>
        have plain : c.isDigit = false := (delimited c rfl).1
        exact ⟨List.takeWhile_cons_of_neg (by simp [plain]),
          List.dropWhile_cons_of_neg (by simp [plain])⟩
  rw [List.takeWhile_append_of_pos all, List.dropWhile_append_of_pos all, none_.1, none_.2,
    List.append_nil]
  exact ⟨rfl, rfl⟩

theorem head_toDigits {number : Nat} (positive : 0 < number) :
    (Nat.toDigits 10 number).head? ≠ some '0' := by
  induction number using Nat.strong_induction_on with
  | _ number ih =>
      by_cases small : number < 10
      · rw [Nat.toDigits_of_lt_base small]
        have table : ∀ d < 10, 0 < d → [Nat.digitChar d].head? ≠ some '0' := by decide
        exact table number small positive
      · rw [Nat.toDigits_of_base_le (by decide) (by omega), List.head?_append_of_ne_nil _
          Nat.toDigits_ne_nil]
        exact ih (number / 10) (by omega) (by omega)

theorem readMagnitude_digits {negative : Bool} {number : Nat} (delimited : Delimited rest)
    (proper : ¬ (negative = true ∧ number = 0)) :
    readMagnitude negative (Nat.toDigits 10 number ++ rest)
      = some (.number (if negative then -number else number) 0, rest) := by
  obtain ⟨whole, others⟩ := @digits_of_delimited rest (Nat.toDigits 10 number)
    (fun c member => Nat.isDigit_of_mem_toDigits (by decide) (by decide) member) delimited
  have single : ¬ ((Nat.toDigits 10 number).head? = some '0'
      ∧ 1 < (Nat.toDigits 10 number).length) := by
    rintro ⟨zero, long⟩
    rcases Nat.eq_zero_or_pos number with rfl | positive
    · simp at long
    · exact head_toDigits positive zero
  have plain : readFraction rest = some (none, rest) ∧ readExponent rest = some (none, rest) := by
    cases rest with
    | nil => exact ⟨rfl, rfl⟩
    | cons c more =>
        obtain ⟨-, point, lower, upper⟩ := delimited c rfl
        constructor
        · unfold readFraction
          split
          case h_1 same => exact absurd (List.cons.inj same).1 point
          case h_2 => rfl
        · exact if_neg (not_or.2 ⟨lower, upper⟩)
  rw [readMagnitude, whole, others, if_neg (not_or.2 ⟨Nat.toDigits_ne_nil, single⟩), plain.1]
  simp only [Option.bind_eq_bind, Option.bind_some, plain.2, Option.getD_none, List.append_nil,
    Nat.ofDigitChars_ten_toDigits]
  rw [if_pos ⟨trivial, trivial, by simpa using proper⟩]

theorem readNumber_delimited {number : Int} (delimited : Delimited rest) :
    readNumber ((toString number).toList ++ rest) = some (.number number 0, rest) := by
  rw [Int.toString_eq_repr, Int.repr_eq_if]
  split
  case isTrue natural =>
      rw [Nat.toList_repr]
      have read := @readMagnitude_digits rest false number.toNat delimited (by simp)
      have sign : ∀ text, (Nat.toDigits 10 number.toNat ++ rest) = '-' :: text → False := by
        intro text same
        cases digits : Nat.toDigits 10 number.toNat with
        | nil => exact Nat.toDigits_ne_nil digits
        | cons first more =>
            have member : first ∈ Nat.toDigits 10 number.toNat := by
              rw [digits]
              exact .head _
            have digit := Nat.isDigit_of_mem_toDigits (by decide) (by decide) member
            rw [digits] at same
            cases same
            cases digit
      unfold readNumber
      split
      case h_1 text same => exact absurd same (sign text)
      case h_2 =>
          rw [read]
          simp [Int.toNat_of_nonneg natural]
  case isFalse negative =>
      rw [String.toList_append, Nat.toList_repr]
      show readMagnitude true (Nat.toDigits 10 (-number).toNat ++ rest) = _
      rw [readMagnitude_digits delimited (by omega), if_pos rfl, Int.toNat_of_nonneg (by omega),
        Int.neg_neg]

theorem readNumber_text {number : Int} (ends : Ends rest) :
    readNumber ((toString number).toList ++ rest) = some (.number number 0, rest) :=
  readNumber_delimited ends.delimited

theorem skip_cons {c : Char} (plain : isSpace c = false) : skip (c :: rest) = c :: rest :=
  List.dropWhile_cons_of_neg (by simp [plain])

theorem plain_of_digit {c : Char} (number : c.isDigit = true ∨ c = '-') : isSpace c = false := by
  rcases number with digit | rfl
  · by_contra space
    simp only [isSpace, Bool.not_eq_false, Bool.or_eq_true, beq_iff_eq] at space
    rcases space with ((rfl | rfl) | rfl) | rfl <;> cases digit
  · rfl

theorem readValue_of_digit {fuel : Nat} {c : Char} (number : c.isDigit = true ∨ c = '-') :
    readValue (fuel + 1) (c :: rest) = readNumber (c :: rest) := by
  have plain : isSpace c = false := plain_of_digit number
  unfold readValue
  rw [skip_cons plain]
  have other : ∀ d more, c :: rest = d :: more → d.isDigit = false → d ≠ '-' → False := by
    intro d more same noDigit noSign
    cases same
    rcases number with digit | rfl
    · rw [noDigit] at digit
      cases digit
    · exact noSign rfl
  split
  case h_1 more same => exact (other _ _ same rfl (by decide)).elim
  case h_2 more same => exact (other _ _ same rfl (by decide)).elim
  case h_3 more same => exact (other _ _ same rfl (by decide)).elim
  case h_4 more same => exact (other _ _ same rfl (by decide)).elim
  case h_5 more same => exact (other _ _ same rfl (by decide)).elim
  case h_6 more same => exact (other _ _ same rfl (by decide)).elim
  case h_7 => rfl

theorem head_toString (number : Int) :
    ∃ c more, (toString number).toList = c :: more ∧ (c.isDigit = true ∨ c = '-') := by
  rw [Int.toString_eq_repr, Int.repr_eq_if]
  split
  case isTrue =>
      rw [Nat.toList_repr]
      cases digits : Nat.toDigits 10 number.toNat with
      | nil => exact absurd digits Nat.toDigits_ne_nil
      | cons c more =>
          have member : c ∈ Nat.toDigits 10 number.toNat := by
            rw [digits]
            exact .head _
          exact ⟨c, more, rfl, .inl (Nat.isDigit_of_mem_toDigits (by decide) (by decide) member)⟩
  case isFalse => exact ⟨'-', _, String.toList_append, .inr rfl⟩

theorem readValue_delimited {fuel : Nat} {number : Int} (delimited : Delimited rest) :
    readValue (fuel + 1) ((toString number).toList ++ rest) = some (.number number 0, rest) := by
  have read := @readNumber_delimited rest number delimited
  obtain ⟨c, more, same, number⟩ := head_toString number
  rw [same, List.cons_append] at read ⊢
  rw [readValue_of_digit number, read]

theorem readValue_number {fuel : Nat} {number : Int} (ends : Ends rest) :
    readValue (fuel + 1) ((toString number).toList ++ rest) = some (.number number 0, rest) :=
  readValue_delimited ends.delimited

theorem quote_append (text : String) : (Json.quote text).toList ++ rest
    = '"' :: (text.toList.flatMap Json.escapeChar ++ '"' :: rest) := by
  simp [Json.quote]

theorem length_escaped (text : List Char) :
    text.length ≤ (text.flatMap Json.escapeChar).length := by
  induction text with
  | nil => exact le_rfl
  | cons c others ih =>
      have one : 1 ≤ (Json.escapeChar c).length := by
        rcases escapeChar_cases c with ⟨same, -⟩ | ⟨escape, same, -⟩ <;> simp [same]
      rw [List.flatMap_cons, List.length_append, List.length_cons]
      omega

theorem readChars_quoted (text : String) :
    let quoted := text.toList.flatMap Json.escapeChar ++ '"' :: rest
    readChars (quoted.length + 1) quoted = some (text.toList, rest) := by
  refine readChars_escape ?_
  have longer := length_escaped text.toList
  rw [List.length_append]
  omega

theorem readValue_quote {fuel : Nat} {text : String} :
    readValue (fuel + 1) ((Json.quote text).toList ++ rest) = some (.string text, rest) := by
  have opens : ∀ chars, readValue (fuel + 1) ('"' :: chars)
      = (readChars (chars.length + 1) chars).bind fun found =>
        some (.string (String.ofList found.1), found.2) := fun _ => rfl
  rw [quote_append, opens, readChars_quoted, Option.bind_some, String.ofList_toList]

theorem readFields_field {fuel : Nat} {key : String} {value : Json} {text : List Char}
    (read : readValue fuel (text ++ rest) = some (value, rest)) :
    readFields (fuel + 1) ((Json.quote key).toList ++ ':' :: (text ++ rest)) =
      match skip rest with
      | '\x7d' :: rest => some ([(key, value)], rest)
      | ',' :: rest => (readFields fuel rest).bind fun found =>
          some ((key, value) :: found.1, found.2)
      | _ => none := by
  have opens : ∀ chars, readFields (fuel + 1) ('"' :: chars)
      = (readChars (chars.length + 1) chars).bind fun found =>
        match skip found.2 with
        | ':' :: rest => (readValue fuel rest).bind fun held =>
            match skip held.2 with
            | '\x7d' :: rest => some ([(String.ofList found.1, held.1)], rest)
            | ',' :: rest => (readFields fuel rest).bind fun more =>
                some ((String.ofList found.1, held.1) :: more.1, more.2)
            | _ => none
        | _ => none := fun _ => rfl
  rw [quote_append, opens, readChars_quoted, Option.bind_some]
  show ((readValue fuel (text ++ rest)).bind _ : Option _) = _
  rw [read, Option.bind_some, String.ofList_toList]

end Numbers

end Forge.Library.JsonText
