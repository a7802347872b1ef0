import Forge.Library.Text
import Mathlib.Algebra.GroupWithZero.Nat
import Mathlib.Data.Fin.Basic

/-! Universally unique identifiers: the canonical text that a database prints and the
spellings that a lenient parser reads. -/

namespace Forge.Library.Identifier

open Forge.Library.Text

structure Uuid where
  value : Fin (2 ^ 128)
deriving DecidableEq, Repr

instance neZero_values : NeZero (2 ^ 128) := Nat.instNeZeroHPow

instance : Inhabited Uuid := ⟨⟨0⟩⟩

namespace Uuid

def hexValue (c : Char) : Option Nat :=
  if '0' ≤ c ∧ c ≤ '9' then some (c.toNat - '0'.toNat)
  else if 'a' ≤ c ∧ c ≤ 'f' then some (c.toNat - 'a'.toNat + 10)
  else if 'A' ≤ c ∧ c ≤ 'F' then some (c.toNat - 'A'.toNat + 10)
  else none

def hexDigits (id : Uuid) : List Char :=
  (digits 16 32 id.value).map Nat.digitChar

def hyphenate (hex : List Char) : List Char :=
  hex.take 8 ++ '-' :: (hex.drop 8).take 4 ++ '-' :: (hex.drop 12).take 4
    ++ '-' :: (hex.drop 16).take 4 ++ '-' :: hex.drop 20

def toText (id : Uuid) : String :=
  String.ofList (hyphenate id.hexDigits)

def parseSimple (chars : List Char) : Option Uuid :=
  (chars.mapM hexValue).map fun ds => ⟨Fin.ofNat (2 ^ 128) (ofDigits 16 ds)⟩

def parseHyphenated (chars : List Char) : Option Uuid :=
  if chars[8]? = some '-' ∧ chars[13]? = some '-' ∧ chars[18]? = some '-'
      ∧ chars[23]? = some '-' then
    parseSimple (chars.take 8 ++ (chars.drop 9).take 4 ++ (chars.drop 14).take 4
      ++ (chars.drop 19).take 4 ++ chars.drop 24)
  else none

/-- `Uuid::parse_str`: simple, hyphenated, braced and URN spellings, in either case. -/
def parseStr (text : String) : Option Uuid :=
  let chars := text.toList
  if chars.length = 32 then parseSimple chars
  else if chars.length = 36 then parseHyphenated chars
  else if chars.length = 38 ∧ chars.head? = some '\x7b' ∧ chars.getLast? = some '\x7d' then
    parseHyphenated (chars.drop 1).dropLast
  else if chars.length = 45 ∧ "urn:uuid:".toList <+: chars then
    parseHyphenated (chars.drop 9)
  else none

theorem hexValue_digitChar {d : Nat} (small : d < 16) : hexValue (Nat.digitChar d) = some d := by
  have table : ∀ d < 16, hexValue (Nat.digitChar d) = some d := by decide
  exact table d small

theorem mapM_hexValue {ds : List Nat} (small : ∀ d ∈ ds, d < 16) :
    (ds.map Nat.digitChar).mapM hexValue = some ds := by
  induction ds with
  | nil => rfl
  | cons d rest ih =>
      have first := hexValue_digitChar (small d List.mem_cons_self)
      have others := ih fun e member => small e (List.mem_cons_of_mem d member)
      simp [List.mapM_cons, first, others]

theorem length_hexDigits (id : Uuid) : id.hexDigits.length = 32 := by
  simp [hexDigits]

theorem parseSimple_hexDigits (id : Uuid) : parseSimple id.hexDigits = some id := by
  have small : ∀ d ∈ digits 16 32 id.value, d < 16 :=
    fun d member => lt_of_mem_digits (by decide) member
  have bound : (id.value : Nat) < 16 ^ 32 := id.value.isLt
  rw [parseSimple, hexDigits, mapM_hexValue small, Option.map_some,
    ofDigits_digits_of_lt bound]
  simp

theorem length_hyphenate {hex : List Char} (full : hex.length = 32) :
    (hyphenate hex).length = 36 := by
  simp [hyphenate, full]

theorem length_toText (id : Uuid) : id.toText.toList.length = 36 := by
  rw [toText, String.toList_ofList]
  exact length_hyphenate id.length_hexDigits

theorem mem_hexDigits {id : Uuid} {c : Char} (member : c ∈ id.hexDigits) :
    ∃ d < 16, c = Nat.digitChar d := by
  obtain ⟨d, digit, same⟩ := List.mem_map.1 member
  exact ⟨d, lt_of_mem_digits (by decide) digit, same.symm⟩

theorem mem_toText {id : Uuid} {c : Char} (member : c ∈ id.toText.toList) :
    c = '-' ∨ ∃ d < 16, c = Nat.digitChar d := by
  have part (n m : Nat) : c ∈ (id.hexDigits.drop n).take m → ∃ d < 16, c = Nat.digitChar d :=
    fun here => mem_hexDigits (List.mem_of_mem_drop (List.mem_of_mem_take here))
  simp only [toText, hyphenate, String.toList_ofList, List.mem_append, List.mem_cons] at member
  rcases member with (((here | hyphen | here) | hyphen | here) | hyphen | here) | hyphen | here
  · exact .inr (mem_hexDigits (List.mem_of_mem_take here))
  · exact .inl hyphen
  · exact .inr (part 8 4 here)
  · exact .inl hyphen
  · exact .inr (part 12 4 here)
  · exact .inl hyphen
  · exact .inr (part 16 4 here)
  · exact .inl hyphen
  · exact .inr (mem_hexDigits (List.mem_of_mem_drop here))

theorem hyphen_mem_toText (id : Uuid) : '-' ∈ id.toText.toList := by
  simp [toText, hyphenate]

theorem utf8ByteSize_toText_le (id : Uuid) : id.toText.utf8ByteSize ≤ 144 := by
  have bound := utf8ByteSize_ofList_le (hyphenate id.hexDigits)
  rw [length_hyphenate id.length_hexDigits] at bound
  exact bound

theorem groups (hex : List Char) : hex = hex.take 8 ++ (hex.drop 8).take 4
    ++ (hex.drop 12).take 4 ++ (hex.drop 16).take 4 ++ hex.drop 20 := by
  have cut : ∀ n, (hex.drop n).take 4 ++ hex.drop (n + 4) = hex.drop n := fun n => by
    rw [← List.drop_drop, List.take_append_drop]
  rw [List.append_assoc, cut 16, List.append_assoc, cut 12, List.append_assoc, cut 8,
    List.take_append_drop]

theorem subset_hyphenate (hex : List Char) : hex ⊆ hyphenate hex := by
  intro c member
  rw [groups hex] at member
  simp only [List.mem_append] at member
  simp only [hyphenate, List.mem_append, List.mem_cons]
  tauto

theorem parseHyphenated_hyphenate {hex : List Char} (full : hex.length = 32) :
    parseHyphenated (hyphenate hex) = parseSimple hex := by
  have l₁ : (hex.take 8).length = 8 := by simp [full]
  have l₂ : ((hex.drop 8).take 4).length = 4 := by simp [full]
  have l₃ : ((hex.drop 12).take 4).length = 4 := by simp [full]
  have l₄ : ((hex.drop 16).take 4).length = 4 := by simp [full]
  rw [hyphenate]
  conv => rhs; rw [groups hex]
  generalize hex.take 8 = a at *
  generalize (hex.drop 8).take 4 = b at *
  generalize (hex.drop 12).take 4 = c at *
  generalize (hex.drop 16).take 4 = d at *
  generalize hex.drop 20 = e at *
  simp [parseHyphenated, List.getElem?_append, List.drop_append,
    l₁, l₂, l₃, l₄, List.drop_of_length_le]

theorem parseStr_toText (id : Uuid) : parseStr id.toText = some id := by
  have length := length_hyphenate id.length_hexDigits
  simp [parseStr, toText, length, parseHyphenated_hyphenate id.length_hexDigits,
    parseSimple_hexDigits]

theorem toText_injective : Function.Injective toText := by
  intro left right same
  have read := parseStr_toText left
  rw [same, parseStr_toText] at read
  exact (Option.some.inj read).symm

@[simp] theorem toText_inj {left right : Uuid} : left.toText = right.toText ↔ left = right :=
  toText_injective.eq_iff

section Canonical

variable {id : Uuid} {hex chars : List Char} {ds : List Nat}

theorem toNat_lt_of_hexValue {c : Char} {d : Nat} (read : hexValue c = some d) : c.toNat < 128 := by
  unfold hexValue at read
  split at read
  case isTrue range => exact Nat.lt_of_le_of_lt range.2 (by decide)
  split at read
  case isTrue range => exact Nat.lt_of_le_of_lt range.2 (by decide)
  split at read
  case isTrue range => exact Nat.lt_of_le_of_lt range.2 (by decide)
  cases read

theorem digitChar_hexValue {c : Char} {d : Nat} (read : hexValue c = some d)
    (lower : c.isUpper = false) : d < 16 ∧ Nat.digitChar d = c := by
  have table : ∀ n < 128, (hexValue (Char.ofNat n)).all fun d =>
      (Char.ofNat n).isUpper || decide (d < 16 ∧ Nat.digitChar d = Char.ofNat n) := by decide
  have here := table c.toNat (toNat_lt_of_hexValue read)
  rw [Char.ofNat_toNat, read, Option.all_some, lower, Bool.false_or] at here
  exact of_decide_eq_true here

theorem digitChars_of_mapM (lower : ∀ c ∈ hex, c.isUpper = false)
    (read : hex.mapM hexValue = some ds) : (∀ d ∈ ds, d < 16) ∧ ds.map Nat.digitChar = hex := by
  induction hex generalizing ds with
  | nil =>
      obtain rfl : [] = ds := Option.some.inj read
      exact ⟨nofun, rfl⟩
  | cons c rest ih =>
      rw [List.mapM_cons] at read
      obtain ⟨d, first, read⟩ := Option.bind_eq_some_iff.1 read
      obtain ⟨others, later, same⟩ := Option.bind_eq_some_iff.1 read
      obtain rfl : d :: others = ds := Option.some.inj same
      obtain ⟨lowerFirst, lowerRest⟩ := List.forall_mem_cons.1 lower
      obtain ⟨small, char⟩ := digitChar_hexValue first lowerFirst
      obtain ⟨smaller, chars⟩ := ih lowerRest later
      exact ⟨List.forall_mem_cons.2 ⟨small, smaller⟩, by rw [List.map_cons, char, chars]⟩

theorem hexDigits_of_parseSimple (full : hex.length = 32) (lower : ∀ c ∈ hex, c.isUpper = false)
    (read : parseSimple hex = some id) : id.hexDigits = hex := by
  obtain ⟨ds, mapped, rfl⟩ := Option.map_eq_some_iff.1 read
  obtain ⟨small, chars⟩ := digitChars_of_mapM lower mapped
  have length : ds.length = 32 := by rw [← full, ← chars, List.length_map]
  have same := digits_ofDigits small
  have bound : ofDigits 16 ds < 2 ^ 128 := by
    have number := ofDigits_digits 16 32 (ofDigits 16 ds)
    rw [← length, same, length] at number
    rw [number]
    exact Nat.mod_lt _ (by decide)
  rw [length] at same
  rw [hexDigits, Fin.val_ofNat, Nat.mod_eq_of_lt bound, same, chars]

theorem cut_at (chars : List Char) (n : Nat) {c : Char} (here : chars[n]? = some c) :
    chars = chars.take n ++ c :: chars.drop (n + 1) := by
  obtain ⟨bound, same⟩ := List.getElem?_eq_some_iff.1 here
  rw [← same, ← List.drop_eq_getElem_cons bound, List.take_append_drop]

theorem hyphenate_groups {a b c d e : List Char} (l₁ : a.length = 8) (l₂ : b.length = 4)
    (l₃ : c.length = 4) (l₄ : d.length = 4) : hyphenate (a ++ b ++ c ++ d ++ e) =
      a ++ '-' :: (b ++ '-' :: (c ++ '-' :: (d ++ '-' :: e))) := by
  simp [hyphenate, List.drop_append, l₁, l₂, l₃, l₄, List.drop_of_length_le]

theorem hyphenate_of_parseHyphenated (full : chars.length = 36)
    (read : parseHyphenated chars = some id) :
    ∃ hex, hex.length = 32 ∧ hyphenate hex = chars ∧ parseSimple hex = some id := by
  rw [parseHyphenated] at read
  split at read
  case isFalse => cases read
  case isTrue hyphens =>
      obtain ⟨h₁, h₂, h₃, h₄⟩ := hyphens
      have c₁ := cut_at chars 8 h₁
      have c₂ := cut_at (chars.drop 9) 4 (by rw [List.getElem?_drop]; exact h₂)
      have c₃ := cut_at (chars.drop 14) 4 (by rw [List.getElem?_drop]; exact h₃)
      have c₄ := cut_at (chars.drop 19) 4 (by rw [List.getElem?_drop]; exact h₄)
      rw [List.drop_drop] at c₂ c₃ c₄
      refine ⟨_, by simp [full], ?_, read⟩
      rw [hyphenate_groups (by simp [full]) (by simp [full]) (by simp [full]) (by simp [full]),
        ← c₄, ← c₃, ← c₂, ← c₁]

theorem toText_of_parseStr {text : String} (full : text.toList.length = 36)
    (lower : ∀ c ∈ text.toList, c.isUpper = false) (read : parseStr text = some id) :
    id.toText = text := by
  rw [parseStr, if_neg (by omega), if_pos full] at read
  obtain ⟨hex, length, same, read⟩ := hyphenate_of_parseHyphenated full read
  have lowerHex : ∀ c ∈ hex, c.isUpper = false := fun c member =>
    lower c (same ▸ subset_hyphenate hex member)
  rw [toText, hexDigits_of_parseSimple length lowerHex read, same, String.ofList_toList]

end Canonical

end Uuid

end Forge.Library.Identifier
