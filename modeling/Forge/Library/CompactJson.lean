import Forge.Library.JsonText

/-! Values and their compact texts. A text stands for one value, and cannot go on in a string of
another. -/

namespace Forge.Library.CompactJson

open Forge.Library.JsonDocument
open Forge.Library.JsonText

def isNumeric (c : Char) : Bool :=
  c.isDigit || c == '-' || c == '+' || c == '.' || c == 'e'

structure FloatFormat where
  Float : Type
  print : Float → List Char
  injective : ∀ first second, print first = print second → first = second
  numeric : ∀ float, ∀ c ∈ print float, isNumeric c = true
  fractional : ∀ float, '.' ∈ print float ∨ 'e' ∈ print float

/-- A value; the fields of an object are in the order in which they are printed. -/
inductive Value (format : FloatFormat) where
  | null
  | bool (value : Bool)
  | int (number : Int)
  | float (number : format.Float)
  | string (text : String)
  | array (items : List (Value format))
  | object (fields : List (String × Value format))

variable {format : FloatFormat}

def decimal (number : Int) : List Char := (toString number).toList

def quoted (text : String) : List Char :=
  '"' :: (text.toList.flatMap Json.escapeChar ++ ['"'])

mutual

def print : Value format → List Char
  | .null => "null".toList
  | .bool true => "true".toList
  | .bool false => "false".toList
  | .int number => decimal number
  | .float number => format.print number
  | .string text => quoted text
  | .array [] => ['[', ']']
  | .array (item :: rest) => '[' :: (print item ++ printItems rest)
  | .object [] => ['\x7b', '\x7d']
  | .object ((key, value) :: rest) =>
      '\x7b' :: (quoted key ++ ':' :: (print value ++ printFields rest))

def printItems : List (Value format) → List Char
  | [] => [']']
  | item :: rest => ',' :: (print item ++ printItems rest)

def printFields : List (String × Value format) → List Char
  | [] => ['\x7d']
  | (key, value) :: rest => ',' :: (quoted key ++ ':' :: (print value ++ printFields rest))

end

section Scanning

/-- Where a text is: in a string, behind a backslash there, or outside; `closed` is that a string
has just ended. -/
inductive Mode where
  | outside (closed : Bool)
  | inside
  | escaped
deriving DecidableEq

def step : Mode → Char → Option Mode
  | .outside closed, c =>
      if c = '"' then some .inside
      else if c = '\\' then none
      else if c = ':' ∧ closed = false then none
      else some (.outside false)
  | .inside, c =>
      if c = '"' then some (.outside true) else if c = '\\' then some .escaped else some .inside
  | .escaped, _ => some .inside

theorem step_outside (closed : Bool) (c : Char) : step (.outside closed) c =
    if c = '"' then some .inside
    else if c = '\\' then none
    else if c = ':' ∧ closed = false then none
    else some (.outside false) := rfl

theorem step_inside (c : Char) : step .inside c =
    if c = '"' then some (.outside true) else if c = '\\' then some .escaped
    else some .inside := rfl

def scan (mode : Mode) (text : List Char) : Option Mode :=
  text.foldlM step mode

theorem scan_append {mode : Mode} {first second : List Char} :
    scan mode (first ++ second) = (scan mode first).bind fun mode => scan mode second := by
  rw [scan, List.foldlM_append]
  rfl

theorem scan_cons {mode : Mode} {c : Char} {text : List Char} :
    scan mode (c :: text) = (step mode c).bind fun mode => scan mode text := by
  rw [scan, List.foldlM_cons]
  rfl

theorem not_both {closed first second : Bool} {text : List Char}
    (outside : scan (.outside closed) text = some (.outside first)) :
    scan .inside text ≠ some (.outside second) := by
  induction text generalizing closed first second with
  | nil => nofun
  | cons c rest ih =>
      intro inside
      rw [scan_cons, step_outside] at outside
      rw [scan_cons, step_inside] at inside
      by_cases quote : c = '"'
      · rw [if_pos quote, Option.bind_some] at outside inside
        exact ih inside outside
      rw [if_neg quote] at outside inside
      by_cases slash : c = '\\'
      · rw [if_pos slash] at outside
        cases outside
      rw [if_neg slash] at outside inside
      split at outside
      · cases outside
      · exact ih outside inside

theorem quote_of_closed {mode : Mode} {text : List Char} {last : Char}
    (closing : scan mode (text ++ [last]) = some (.outside true)) : last = '"' := by
  rw [scan_append] at closing
  obtain ⟨before, _, closing⟩ := Option.bind_eq_some_iff.mp closing
  rw [scan_cons] at closing
  obtain ⟨after, stepped, same⟩ := Option.bind_eq_some_iff.mp closing
  obtain rfl : after = .outside true := Option.some.inj same
  cases before with
  | outside closed =>
      rw [step_outside] at stepped
      split at stepped
      next quote => exact quote
      split at stepped
      · cases stepped
      split at stepped
      · cases stepped
      · cases stepped
  | inside =>
      rw [step_inside] at stepped
      split at stepped
      next quote => exact quote
      split at stepped
      · cases stepped
      · cases stepped
  | escaped => cases stepped

theorem scan_escapeChar (c : Char) : scan .inside (Json.escapeChar c) = some .inside := by
  have unicode : ∀ n < 32, scan .inside ('\\' :: 'u' :: (Text.digits 16 4 n).map Nat.digitChar)
      = some .inside := by decide
  rw [Json.escapeChar]
  split
  · rfl
  next noQuote =>
  split
  · rfl
  next noSlash =>
  split
  · rfl
  split
  · rfl
  split
  · rfl
  split
  · rfl
  split
  · rfl
  split
  next control => exact unicode c.toNat control
  · rw [scan_cons, step_inside, if_neg noQuote, if_neg noSlash]
    rfl

theorem scan_quoted (closed : Bool) (text : String) :
    scan (.outside closed) (quoted text) = some (.outside true) := by
  have escaped (chars : List Char) :
      scan .inside (chars.flatMap Json.escapeChar) = some .inside := by
    induction chars with
    | nil => rfl
    | cons c rest ih => rw [List.flatMap_cons, scan_append, scan_escapeChar, Option.bind_some, ih]
  rw [quoted, scan_cons]
  show scan .inside _ = _
  rw [scan_append, escaped]
  rfl

def Outside (text : List Char) : Prop :=
  ∀ closed, ∃ after, scan (.outside closed) text = some (.outside after)

theorem Outside.append {first second : List Char} (before : Outside first) (after : Outside second) :
    Outside (first ++ second) := by
  intro closed
  obtain ⟨middle, goes⟩ := before closed
  obtain ⟨last, ends⟩ := after middle
  exact ⟨last, by rw [scan_append, goes, Option.bind_some, ends]⟩

theorem outside_plain {text : List Char}
    (plain : ∀ c ∈ text, c ≠ '"' ∧ c ≠ '\\' ∧ c ≠ ':') : Outside text := by
  induction text with
  | nil => exact fun closed => ⟨closed, rfl⟩
  | cons c rest ih =>
      obtain ⟨⟨noQuote, noSlash, noColon⟩, others⟩ := List.forall_mem_cons.mp plain
      intro closed
      obtain ⟨after, goes⟩ := ih others false
      refine ⟨after, ?_⟩
      rw [scan_cons, step_outside, if_neg noQuote, if_neg noSlash, if_neg (fun both => noColon both.1)]
      exact goes

theorem outside_field (key : String) {text : List Char} (value : Outside text) :
    Outside (quoted key ++ ':' :: text) := by
  intro closed
  obtain ⟨after, goes⟩ := value false
  refine ⟨after, ?_⟩
  rw [scan_append, scan_quoted, Option.bind_some, scan_cons]
  exact goes

theorem plain_of_numeric {c : Char} (numeric : isNumeric c = true) :
    c ≠ '"' ∧ c ≠ '\\' ∧ c ≠ ':' := by
  refine ⟨?_, ?_, ?_⟩ <;> rintro rfl <;> cases numeric

theorem decimal_eq (number : Int) : ∃ sign n, decimal number = sign ++ Nat.toDigits 10 n
    ∧ (sign = [] ∨ sign = ['-']) := by
  rw [decimal, Int.toString_eq_repr, Int.repr_eq_if]
  split
  · exact ⟨[], _, Nat.toList_repr, .inl rfl⟩
  · exact ⟨['-'], _, by rw [String.toList_append, Nat.toList_repr]; rfl, .inr rfl⟩

theorem digit_or_sign {number : Int} {c : Char} (member : c ∈ decimal number) :
    c.isDigit = true ∨ c = '-' := by
  obtain ⟨sign, n, same, signs⟩ := decimal_eq number
  rw [same] at member
  rcases List.mem_append.mp member with member | member
  · rcases signs with rfl | rfl
    · cases member
    · exact .inr (List.mem_singleton.mp member)
  · exact .inl (Nat.isDigit_of_mem_toDigits (by decide) (by decide) member)

theorem decimal_last (number : Int) :
    ∃ front last, decimal number = front ++ [last] ∧ last.isDigit = true := by
  obtain ⟨sign, n, same, _⟩ := decimal_eq number
  obtain ⟨front, last, split⟩ := (List.eq_nil_or_concat' (Nat.toDigits 10 n)).resolve_left
    Nat.toDigits_ne_nil
  refine ⟨sign ++ front, last, by rw [same, split, List.append_assoc], ?_⟩
  exact Nat.isDigit_of_mem_toDigits (by decide) (by decide) (split ▸ List.mem_append_right _ (.head _))

theorem decimal_injective {first second : Int} (same : decimal first = decimal second) :
    first = second := by
  have ends : Ends [] := nofun
  have read (number : Int) : readNumber (decimal number ++ []) = some (.number number 0, []) :=
    readNumber_text ends
  have both := read first
  rw [same, read second] at both
  simpa using both.symm

theorem numeric_of_mem_decimal {number : Int} {c : Char} (member : c ∈ decimal number) :
    isNumeric c = true := by
  rcases digit_or_sign member with digit | rfl
  · simp [isNumeric, digit]
  · rfl

theorem Outside.cons {c : Char} {text : List Char} (plain : c ≠ '"' ∧ c ≠ '\\' ∧ c ≠ ':')
    (after : Outside text) : Outside (c :: text) :=
  (outside_plain (List.forall_mem_singleton.mpr plain)).append after

mutual

theorem outside_print : ∀ value : Value format, Outside (print value)
  | .null => outside_plain (show ∀ c ∈ "null".toList, _ by simp)
  | .bool true => outside_plain (show ∀ c ∈ "true".toList, _ by simp)
  | .bool false => outside_plain (show ∀ c ∈ "false".toList, _ by simp)
  | .int _ => outside_plain fun _ member => plain_of_numeric (numeric_of_mem_decimal member)
  | .float number => outside_plain fun _ member =>
      plain_of_numeric (format.numeric number _ member)
  | .string text => fun closed => ⟨true, scan_quoted closed text⟩
  | .array [] => outside_plain (show ∀ c ∈ ['[', ']'], _ by simp)
  | .array (item :: rest) =>
      .cons (by decide) ((outside_print item).append (outside_items rest))
  | .object [] => outside_plain (show ∀ c ∈ ['\x7b', '\x7d'], _ by simp)
  | .object ((key, value) :: rest) =>
      .cons (by decide) (outside_field key ((outside_print value).append (outside_fields rest)))

theorem outside_items : ∀ items : List (Value format), Outside (printItems items)
  | [] => outside_plain (show ∀ c ∈ [']'], _ by simp)
  | item :: rest => .cons (by decide) ((outside_print item).append (outside_items rest))

theorem outside_fields : ∀ fields : List (String × Value format), Outside (printFields fields)
  | [] => outside_plain (show ∀ c ∈ ['\x7d'], _ by simp)
  | (key, value) :: rest =>
      .cons (by decide) (outside_field key ((outside_print value).append (outside_fields rest)))

end

end Scanning

section Decoding

def Stops (rest : List Char) : Prop :=
  ∀ c ∈ rest.head?, isNumeric c = false

theorem stops_cons {c : Char} {rest : List Char} (plain : isNumeric c = false) : Stops (c :: rest) := by
  intro d first
  obtain rfl := Option.some.inj first
  exact plain

theorem numeric_append_inj {first second rest rest' : List Char}
    (numeric : ∀ c ∈ first, isNumeric c = true) (numeric' : ∀ c ∈ second, isNumeric c = true)
    (stops : Stops rest) (stops' : Stops rest') (same : first ++ rest = second ++ rest') :
    first = second ∧ rest = rest' := by
  have whole {text rest : List Char} (numeric : ∀ c ∈ text, isNumeric c = true)
      (stops : Stops rest) : (text ++ rest).takeWhile isNumeric = text := by
    have none : rest.takeWhile isNumeric = [] := by
      cases rest with
      | nil => rfl
      | cons c more => exact List.takeWhile_cons_of_neg (by simp [stops c rfl])
    rw [List.takeWhile_append_of_pos numeric, none, List.append_nil]
  have texts : first = second := by
    rw [← whole numeric stops, same, whole numeric' stops']
  subst texts
  exact ⟨rfl, List.append_cancel_left same⟩

theorem quoted_append_inj {first second : String} {rest rest' : List Char}
    (same : quoted first ++ rest = quoted second ++ rest') : first = second ∧ rest = rest' := by
  have texts : first.toList.flatMap Json.escapeChar ++ '"' :: rest
      = second.toList.flatMap Json.escapeChar ++ '"' :: rest' := by
    simpa [quoted] using same
  have read := @readChars_quoted rest first
  have read' := @readChars_quoted rest' second
  dsimp only at read read'
  rw [texts, read'] at read
  obtain ⟨chars, others⟩ := Prod.mk.inj (Option.some.inj read)
  exact ⟨(String.toList_injective chars).symm, others.symm⟩

def lead (c : Char) : Option Nat :=
  if c = 'n' then some 0 else if c = 't' then some 1 else if c = 'f' then some 2
  else if c = '"' then some 3 else if c = '[' then some 4 else if c = '\x7b' then some 5
  else if isNumeric c then some 6 else none

def kind : Value format → Nat
  | .null => 0
  | .bool true => 1
  | .bool false => 2
  | .string _ => 3
  | .array _ => 4
  | .object _ => 5
  | .int _ => 6
  | .float _ => 6

theorem lead_of_numeric {c : Char} (numeric : isNumeric c = true) : lead c = some 6 := by
  have other (d : Char) (plain : isNumeric d = false) : c ≠ d := by
    rintro rfl
    rw [numeric] at plain
    cases plain
  rw [lead, if_neg (other 'n' rfl), if_neg (other 't' rfl), if_neg (other 'f' rfl),
    if_neg (other '"' rfl), if_neg (other '[' rfl), if_neg (other '\x7b' rfl), if_pos numeric]

theorem print_head (value : Value format) :
    ∃ c rest, print value = c :: rest ∧ lead c = some (kind value) := by
  have number {text : List Char} (numeric : ∀ c ∈ text, isNumeric c = true) (some_ : text ≠ []) :
      ∃ c rest, text = c :: rest ∧ lead c = some 6 := by
    cases text with
    | nil => exact absurd rfl some_
    | cons c rest => exact ⟨c, rest, rfl, lead_of_numeric (numeric c (.head _))⟩
  cases value with
  | null => exact ⟨_, _, rfl, rfl⟩
  | bool value => cases value <;> exact ⟨_, _, rfl, rfl⟩
  | int n =>
      refine number (fun _ => numeric_of_mem_decimal) fun empty => ?_
      obtain ⟨front, last, same, _⟩ := decimal_last n
      rw [print, same] at empty
      simp at empty
  | float f =>
      refine number (format.numeric f) fun empty => ?_
      have empty : format.print f = [] := empty
      rcases format.fractional f with member | member <;> rw [empty] at member <;> cases member
  | string text => exact ⟨_, _, rfl, rfl⟩
  | array items => cases items <;> exact ⟨_, _, rfl, rfl⟩
  | object fields =>
      rcases fields with _ | ⟨⟨key, value⟩, rest⟩ <;> exact ⟨_, _, rfl, rfl⟩

theorem kind_eq {first second : Value format} {rest rest' : List Char}
    (same : print first ++ rest = print second ++ rest') : kind first = kind second := by
  obtain ⟨c, more, text, isKind⟩ := print_head first
  obtain ⟨c', more', text', isKind'⟩ := print_head second
  rw [text, text'] at same
  obtain ⟨rfl, _⟩ := List.cons.inj same
  exact Option.some.inj (isKind.symm.trans isKind')

theorem print_ne_cons {value : Value format} {c : Char} {rest rest' : List Char}
    (plain : lead c = none) : print value ++ rest ≠ c :: rest' := by
  intro same
  obtain ⟨first, more, text, isKind⟩ := print_head value
  rw [text] at same
  obtain ⟨rfl, _⟩ := List.cons.inj same
  rw [plain] at isKind
  cases isKind

theorem stops_items (items : List (Value format)) (rest : List Char) :
    Stops (printItems items ++ rest) := by
  cases items <;> exact stops_cons rfl

theorem stops_fields (fields : List (String × Value format)) (rest : List Char) :
    Stops (printFields fields ++ rest) := by
  rcases fields with _ | ⟨⟨key, value⟩, others⟩ <;> exact stops_cons rfl

theorem not_fractional {number : Int} (f : format.Float) : decimal number ≠ format.print f := by
  intro same
  have plain (c : Char) (member : c ∈ format.print f) : c.isDigit = true ∨ c = '-' :=
    digit_or_sign (same ▸ member)
  rcases format.fractional f with member | member
  · rcases plain _ member with digit | sign
    · cases digit
    · cases sign
  · rcases plain _ member with digit | sign
    · cases digit
    · cases sign

theorem printField_append_inj (key key' : String) (value value' : Value format)
    (fields fields' : List (String × Value format)) (rest rest' : List Char)
    (apart : ∀ {rest rest' : List Char}, Stops rest → Stops rest' →
      print value ++ rest = print value' ++ rest' → value = value' ∧ rest = rest')
    (same : (quoted key ++ ':' :: (print value ++ printFields fields)) ++ rest
      = (quoted key' ++ ':' :: (print value' ++ printFields fields')) ++ rest') :
    key = key' ∧ value = value' ∧ printFields fields ++ rest = printFields fields' ++ rest' := by
  rw [List.append_assoc, List.append_assoc] at same
  obtain ⟨keys, behind⟩ := quoted_append_inj same
  have behind : (print value ++ printFields fields) ++ rest
      = (print value' ++ printFields fields') ++ rest' := (List.cons.inj behind).2
  rw [List.append_assoc, List.append_assoc] at behind
  obtain ⟨values, others⟩ := apart (stops_fields fields rest) (stops_fields fields' rest') behind
  exact ⟨keys, values, others⟩

mutual

theorem print_append_inj : ∀ (first second : Value format) (rest rest' : List Char), Stops rest →
    Stops rest' → print first ++ rest = print second ++ rest' → first = second ∧ rest = rest'
  | .null, second, rest, rest', _, _, same => by
      have kinds := kind_eq same
      cases second with
      | null => exact ⟨rfl, List.append_cancel_left same⟩
      | bool value => cases value <;> cases kinds
      | _ => cases kinds
  | .bool value, second, rest, rest', _, _, same => by
      have kinds := kind_eq same
      cases second with
      | bool value' =>
          obtain rfl : value = value' := by
            cases value <;> cases value' <;> first | rfl | cases kinds
          exact ⟨rfl, List.append_cancel_left same⟩
      | _ => cases value <;> cases kinds
  | .int number, second, rest, rest', stops, stops', same => by
      have kinds := kind_eq same
      cases second with
      | int number' =>
          obtain ⟨texts, rests⟩ := numeric_append_inj (fun _ => numeric_of_mem_decimal)
            (fun _ => numeric_of_mem_decimal) stops stops' same
          exact ⟨congrArg _ (decimal_injective texts), rests⟩
      | float f =>
          obtain ⟨texts, _⟩ := numeric_append_inj (fun _ => numeric_of_mem_decimal)
            (format.numeric f) stops stops' same
          exact absurd texts (not_fractional f)
      | bool value => cases value <;> cases kinds
      | _ => cases kinds
  | .float f, second, rest, rest', stops, stops', same => by
      have kinds := kind_eq same
      cases second with
      | int number =>
          obtain ⟨texts, _⟩ := numeric_append_inj (format.numeric f)
            (fun _ => numeric_of_mem_decimal) stops stops' same
          exact absurd texts.symm (not_fractional f)
      | float f' =>
          obtain ⟨texts, rests⟩ := numeric_append_inj (format.numeric f) (format.numeric f') stops
            stops' same
          exact ⟨congrArg _ (format.injective f f' texts), rests⟩
      | bool value => cases value <;> cases kinds
      | _ => cases kinds
  | .string text, second, rest, rest', _, _, same => by
      have kinds := kind_eq same
      cases second with
      | string text' =>
          obtain ⟨rfl, rests⟩ := quoted_append_inj same
          exact ⟨rfl, rests⟩
      | bool value => cases value <;> cases kinds
      | _ => cases kinds
  | .array [], second, rest, rest', _, _, same => by
      have kinds := kind_eq same
      cases second with
      | array items =>
          cases items with
          | nil => exact ⟨rfl, List.append_cancel_left same⟩
          | cons item others =>
              have behind : (print item ++ printItems others) ++ rest' = ']' :: rest :=
                (List.cons.inj same).2.symm
              rw [List.append_assoc] at behind
              exact absurd behind (print_ne_cons rfl)
      | bool value => cases value <;> cases kinds
      | _ => cases kinds
  | .array (item :: items), second, rest, rest', _, _, same => by
      have kinds := kind_eq same
      cases second with
      | array others =>
          cases others with
          | nil =>
              have behind : (print item ++ printItems items) ++ rest = ']' :: rest' :=
                (List.cons.inj same).2
              rw [List.append_assoc] at behind
              exact absurd behind (print_ne_cons rfl)
          | cons item' others =>
              have behind : (print item ++ printItems items) ++ rest
                  = (print item' ++ printItems others) ++ rest' := (List.cons.inj same).2
              rw [List.append_assoc, List.append_assoc] at behind
              obtain ⟨rfl, later⟩ := print_append_inj item item' _ _ (stops_items items rest)
                (stops_items others rest') behind
              obtain ⟨rfl, rests⟩ := printItems_append_inj items others rest rest' later
              exact ⟨rfl, rests⟩
      | bool value => cases value <;> cases kinds
      | _ => cases kinds
  | .object [], second, rest, rest', _, _, same => by
      have kinds := kind_eq same
      cases second with
      | object fields =>
          rcases fields with _ | ⟨⟨key, value⟩, others⟩
          · exact ⟨rfl, List.append_cancel_left same⟩
          · exact absurd (List.cons.inj (List.cons.inj same).2).1 (by decide)
      | bool value => cases value <;> cases kinds
      | _ => cases kinds
  | .object ((key, value) :: fields), second, rest, rest', _, _, same => by
      have kinds := kind_eq same
      cases second with
      | object others =>
          rcases others with _ | ⟨⟨key', value'⟩, others⟩
          · exact absurd (List.cons.inj (List.cons.inj same).2).1 (by decide)
          · obtain ⟨rfl, rfl, behind⟩ := printField_append_inj key key' value value' fields others
              rest rest' (fun stops stops' => print_append_inj value value' _ _ stops stops')
              (List.cons.inj same).2
            obtain ⟨rfl, rests⟩ := printFields_append_inj fields others rest rest' behind
            exact ⟨rfl, rests⟩
      | bool value => cases value <;> cases kinds
      | _ => cases kinds

theorem printItems_append_inj : ∀ (first second : List (Value format)) (rest rest' : List Char),
    printItems first ++ rest = printItems second ++ rest' → first = second ∧ rest = rest'
  | [], [], rest, rest', same => ⟨rfl, (List.cons.inj same).2⟩
  | [], item :: others, rest, rest', same => absurd (List.cons.inj same).1 (by decide)
  | item :: others, [], rest, rest', same => absurd (List.cons.inj same).1 (by decide)
  | item :: items, item' :: others, rest, rest', same => by
      have behind : (print item ++ printItems items) ++ rest
          = (print item' ++ printItems others) ++ rest' := (List.cons.inj same).2
      rw [List.append_assoc, List.append_assoc] at behind
      obtain ⟨rfl, later⟩ := print_append_inj item item' _ _ (stops_items items rest)
        (stops_items others rest') behind
      obtain ⟨rfl, rests⟩ := printItems_append_inj items others rest rest' later
      exact ⟨rfl, rests⟩

theorem printFields_append_inj : ∀ (first second : List (String × Value format))
    (rest rest' : List Char),
    printFields first ++ rest = printFields second ++ rest' → first = second ∧ rest = rest'
  | [], [], rest, rest', same => ⟨rfl, (List.cons.inj same).2⟩
  | [], (key, value) :: others, rest, rest', same => absurd (List.cons.inj same).1 (by decide)
  | (key, value) :: others, [], rest, rest', same => absurd (List.cons.inj same).1 (by decide)
  | (key, value) :: fields, (key', value') :: others, rest, rest', same => by
      obtain ⟨rfl, rfl, behind⟩ := printField_append_inj key key' value value' fields others
        rest rest' (fun stops stops' => print_append_inj value value' _ _ stops stops')
        (List.cons.inj same).2
      obtain ⟨rfl, rests⟩ := printFields_append_inj fields others rest rest' behind
      exact ⟨rfl, rests⟩

end

theorem print_injective {first second : Value format} (same : print first = print second) :
    first = second := by
  have stops : Stops [] := nofun
  exact (print_append_inj first second [] [] stops stops (by rw [same])).1

/-- Floats as an integer and a power of ten. -/
def scientific : FloatFormat where
  Float := Int × Int
  print := fun (mantissa, power) => decimal mantissa ++ 'e' :: decimal power
  injective := by
    rintro ⟨mantissa, power⟩ ⟨mantissa', power'⟩ same
    have plain (number : Int) : ∀ c ∈ decimal number, (c != 'e') = true := by
      intro c member
      rcases digit_or_sign member with digit | rfl
      · by_contra isE
        have isE : c = 'e' := by simpa using isE
        rw [isE] at digit
        cases digit
      · rfl
    have whole (number : Int) (rest : List Char) :
        (decimal number ++ 'e' :: rest).takeWhile (· != 'e') = decimal number := by
      rw [List.takeWhile_append_of_pos (plain number), List.takeWhile_cons_of_neg (by decide),
        List.append_nil]
    have mantissas : decimal mantissa = decimal mantissa' := by
      rw [← whole mantissa (decimal power), ← whole mantissa' (decimal power')]
      exact congrArg _ same
    dsimp only at same
    rw [mantissas] at same
    have powers := (List.cons.inj (List.append_cancel_left same)).2
    rw [decimal_injective mantissas, decimal_injective powers]
  numeric := by
    rintro ⟨mantissa, power⟩ c member
    rcases List.mem_append.mp member with member | member
    · exact numeric_of_mem_decimal member
    · rcases List.mem_cons.mp member with rfl | member
      · rfl
      · exact numeric_of_mem_decimal member
  fractional := fun _ => .inr (List.mem_append_right _ (.head _))

instance : Inhabited FloatFormat := ⟨scientific⟩

end Decoding

end Forge.Library.CompactJson
