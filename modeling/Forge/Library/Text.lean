import Mathlib.Algebra.Group.Int.Defs
import Mathlib.Algebra.Group.Nat.Defs
import Mathlib.Data.List.DropRight
import Mathlib.Data.List.Infix
import Mathlib.Data.List.TakeWhile

/-! Character-level facts about printed numbers and blank text: fixed-width digits in any
base, and stripping a class of characters from both ends. -/

namespace Forge.Library.Text

instance lawful_text : LawfulBEq (List Char) := inferInstance

/-- The lowest `width` digits of a number, most significant digit first. -/
def digits (radix : Nat) : Nat → Nat → List Nat
  | 0, _ => []
  | width + 1, number => digits radix width (number / radix) ++ [number % radix]

def ofDigits (radix : Nat) (ds : List Nat) : Nat :=
  ds.foldl (fun acc d => radix * acc + d) 0

@[simp] theorem length_digits (radix width number : Nat) :
    (digits radix width number).length = width := by
  induction width generalizing number with
  | zero => rfl
  | succ width ih => simp [digits, ih]

theorem lt_of_mem_digits {radix : Nat} (positive : 0 < radix) {width number d : Nat}
    (member : d ∈ digits radix width number) : d < radix := by
  induction width generalizing number with
  | zero => simp [digits] at member
  | succ width ih =>
      rcases List.mem_append.1 member with early | last
      · exact ih early
      · rw [List.mem_singleton.1 last]
        exact Nat.mod_lt _ positive

theorem ofDigits_digits (radix width number : Nat) :
    ofDigits radix (digits radix width number) = number % radix ^ width := by
  induction width generalizing number with
  | zero => simp [digits, ofDigits, Nat.mod_one]
  | succ width ih =>
      have fold := ih (number / radix)
      simp only [ofDigits] at fold
      simp only [digits, ofDigits, List.foldl_append, List.foldl_cons, List.foldl_nil, fold]
      rw [Nat.pow_succ', Nat.mod_mul, Nat.add_comm]

theorem ofDigits_digits_of_lt {radix width number : Nat}
    (small : number < radix ^ width) :
    ofDigits radix (digits radix width number) = number := by
  rw [ofDigits_digits, Nat.mod_eq_of_lt small]

theorem digits_ofDigits {radix : Nat} {ds : List Nat} (small : ∀ d ∈ ds, d < radix) :
    digits radix ds.length (ofDigits radix ds) = ds := by
  induction ds using List.reverseRecOn with
  | nil => rfl
  | append_singleton front d ih =>
      have last : d < radix := small d (by simp)
      have early := ih fun e member => small e (List.mem_append_left _ member)
      have number : ofDigits radix (front ++ [d]) = d + radix * ofDigits radix front := by
        rw [ofDigits, List.foldl_append, List.foldl_cons, List.foldl_nil, ← ofDigits,
          Nat.add_comm]
      rw [List.length_append, List.length_singleton, digits, number,
        Nat.add_mul_div_left _ _ (Nat.zero_lt_of_lt last), Nat.div_eq_of_lt last, Nat.zero_add,
        early, Nat.add_mul_mod_self_left, Nat.mod_eq_of_lt last]

theorem utf8ByteSize_ofList_le (text : List Char) :
    (String.ofList text).utf8ByteSize ≤ 4 * text.length := by
  induction text with
  | nil => simp
  | cons c rest ih =>
      have first := c.utf8Size_le_four
      have split : String.ofList (c :: rest) = String.singleton c ++ String.ofList rest := by
        rw [← String.toList_inj]
        simp
      rw [split, String.utf8ByteSize_append, String.utf8ByteSize_singleton, List.length_cons]
      omega

def strip (blank : Char → Bool) (text : List Char) : List Char :=
  (text.dropWhile blank).rdropWhile blank

theorem strip_eq_nil_iff (blank : Char → Bool) (text : List Char) :
    strip blank text = [] ↔ ∀ c ∈ text, blank c = true := by
  rw [strip, List.rdropWhile_eq_nil_iff]
  constructor
  · intro inner c member
    rw [← @List.takeWhile_append_dropWhile _ blank text] at member
    rcases List.mem_append.1 member with front | back
    · exact List.mem_takeWhile_imp front
    · exact inner c back
  · intro allBlank c member
    exact allBlank c ((List.dropWhile_suffix blank).mem member)

theorem mem_dropWhile {blank : Char → Bool} {c : Char} {text : List Char} (member : c ∈ text)
    (kept : blank c = false) : c ∈ text.dropWhile blank := by
  rw [← @List.takeWhile_append_dropWhile _ blank text, List.mem_append] at member
  rcases member with front | back
  · have gone := List.mem_takeWhile_imp front
    rw [kept] at gone
    cases gone
  · exact back

theorem mem_strip {blank : Char → Bool} {c : Char} {text : List Char} (member : c ∈ text)
    (kept : blank c = false) : c ∈ strip blank text := by
  rw [strip, List.rdropWhile, List.mem_reverse]
  exact mem_dropWhile (List.mem_reverse.2 (mem_dropWhile member kept)) kept

theorem strip_bounded {blank : Char → Bool} {first last : Char} (head : blank first = false)
    (foot : blank last = false) (middle : List Char) :
    strip blank (first :: middle ++ [last]) = first :: middle ++ [last] := by
  rw [strip, List.cons_append, List.dropWhile_cons_of_neg (by simp [head]), ← List.cons_append]
  exact List.rdropWhile_concat_neg _ _ _ (by simp [foot])

theorem strip_cons {blank : Char → Bool} {first : Char} (head : blank first = true)
    (text : List Char) : strip blank (first :: text) = strip blank text := by
  rw [strip, List.dropWhile_cons_of_pos head, strip]

theorem strip_of_plain {blank : Char → Bool} {text : List Char}
    (plain : ∀ c ∈ text, blank c = false) : strip blank text = text := by
  have front : text.dropWhile blank = text :=
    List.dropWhile_eq_self_iff.2 fun full => by simp [plain]
  rw [strip, front, List.rdropWhile_eq_self_iff]
  exact fun full => by simp [plain _ (List.getLast_mem full)]

theorem mem_intercalate {separator : List Char} {pieces : List (List Char)} {c : Char} :
    c ∈ List.intercalate separator pieces →
      c ∈ separator ∨ ∃ piece ∈ pieces, c ∈ piece := by
  induction pieces with
  | nil => exact nofun
  | cons piece rest ih =>
      intro member
      cases rest with
      | nil =>
          rw [List.intercalate_singleton] at member
          exact .inr ⟨piece, .head _, member⟩
      | cons next rest =>
          rw [List.intercalate_cons_cons, List.mem_append, List.mem_append] at member
          rcases member with (here | between) | later
          · exact .inr ⟨piece, .head _, here⟩
          · exact .inl between
          · exact (ih later).imp_right fun ⟨found, listed, inside⟩ =>
              ⟨found, .tail _ listed, inside⟩

theorem mem_intercalate_of_mem {separator : List Char} {pieces : List (List Char)} {c : Char}
    {piece : List Char} (listed : piece ∈ pieces) (inside : c ∈ piece) :
    c ∈ List.intercalate separator pieces := by
  induction pieces with
  | nil => cases listed
  | cons first rest ih =>
      cases rest with
      | nil =>
          rw [List.intercalate_singleton]
          exact List.mem_singleton.1 listed ▸ inside
      | cons next rest =>
          rw [List.intercalate_cons_cons, List.mem_append, List.mem_append]
          rcases List.mem_cons.1 listed with rfl | later
          · exact .inl (.inl inside)
          · exact .inr (ih later)

section Fronts

variable {α : Type} [DecidableEq α] {front text rest : List α}

/-- `strip_prefix`. -/
def stripText (front text : List α) : Option (List α) :=
  if front <+: text then some (text.drop front.length) else none

theorem stripText_append (front rest : List α) : stripText front (front ++ rest) = some rest := by
  rw [stripText, if_pos (List.prefix_append _ _), List.drop_left]

theorem stripText_eq_some (stripped : stripText front text = some rest) : text = front ++ rest := by
  unfold stripText at stripped
  split at stripped
  case isTrue first =>
      obtain ⟨tail, rfl⟩ := first
      rw [List.drop_left, Option.some.injEq] at stripped
      rw [stripped]
  case isFalse => exact nomatch stripped

theorem stripText_cons (first second : α) :
    stripText (first :: front) (second :: text) =
      if first = second then stripText front text else none := by
  by_cases same : first = second
  · simp [stripText, same]
  · simp [stripText, same]

end Fronts

section Lines

/-- The lines of a text without their line ends, `\n` or `\r\n`. -/
def lines (text : List Char) : List (List Char) :=
  let pieces := text.splitOn '\n'
  pieces.dropLast.map (fun line => if line.getLast? = some '\r' then line.dropLast else line)
    ++ pieces.getLast?.toList.filter fun line => line ≠ []

theorem splitOn_terminated {pieces : List (List Char)} (plain : ∀ piece ∈ pieces, '\n' ∉ piece) :
    (pieces.flatMap (· ++ ['\n'])).splitOn '\n' = pieces ++ [[]] := by
  induction pieces with
  | nil => rfl
  | cons piece rest ih =>
      obtain ⟨first, others⟩ := List.forall_mem_cons.1 plain
      rw [List.flatMap_cons, List.append_assoc, List.singleton_append,
        List.splitOn_append_cons_self_of_not_mem first, ih others, List.cons_append]

theorem lines_terminated {pieces : List (List Char)}
    (plain : ∀ piece ∈ pieces, '\n' ∉ piece ∧ '\r' ∉ piece) :
    lines (pieces.flatMap (· ++ ['\n'])) = pieces := by
  have kept : ∀ piece ∈ pieces,
      (if piece.getLast? = some '\r' then piece.dropLast else piece) = piece := by
    intro piece member
    exact if_neg fun last => (plain piece member).2 (List.mem_of_getLast? last)
  rw [lines, splitOn_terminated fun piece member => (plain piece member).1]
  simp [List.map_congr_left kept]

theorem filterMap_lines {β : Type} {choose : List Char → Option β} {text : List Char}
    (plain : '\r' ∉ text) (empty : choose [] = none) :
    (lines text).filterMap choose = (text.splitOn '\n').filterMap choose := by
  have inside : ∀ piece ∈ text.splitOn '\n', '\r' ∉ piece := by
    intro piece listed member
    have whole : List.intercalate ['\n'] (text.splitOn '\n') = text := List.intercalate_splitOn ..
    exact plain (whole ▸ mem_intercalate_of_mem listed member)
  obtain ⟨front, last, split⟩ : ∃ front last, text.splitOn '\n' = front ++ [last] :=
    ⟨_, _, (List.dropLast_concat_getLast (List.splitOn_ne_nil _ _)).symm⟩
  rw [split] at inside
  have kept : ∀ line ∈ front,
      (if line.getLast? = some '\r' then line.dropLast else line) = line := by
    intro line member
    exact if_neg fun ended =>
      inside line (List.mem_append_left _ member) (List.mem_of_getLast? ended)
  rw [lines, split, List.dropLast_concat, List.getLast?_concat, List.map_congr_left kept,
    List.map_id', List.filterMap_append, List.filterMap_append, Option.toList_some]
  by_cases bare : last = []
  · rw [bare, List.filterMap_cons_none empty]
    rfl
  · rw [List.filter_cons, if_pos (decide_eq_true bare), List.filter_nil]

def splitWhitespace (blank : Char → Bool) (text : List Char) : List (List Char) :=
  (text.splitOnP blank).filter fun part => part ≠ []

end Lines

section Separators

variable {separator : Char} {text before after : List Char}

def splitOnce (separator : Char) : List Char → Option (List Char × List Char)
  | [] => none
  | c :: rest =>
      if c = separator then some ([], rest)
      else (splitOnce separator rest).map fun parts => (c :: parts.1, parts.2)

def rsplitOnce (separator : Char) (text : List Char) : Option (List Char × List Char) :=
  (splitOnce separator text.reverse).map fun parts => (parts.2.reverse, parts.1.reverse)

theorem eq_of_splitOnce (parts : splitOnce separator text = some (before, after)) :
    text = before ++ separator :: after := by
  induction text generalizing before with
  | nil => cases parts
  | cons c rest ih =>
      rw [splitOnce] at parts
      split at parts
      case isTrue here =>
          obtain ⟨rfl, rfl⟩ := Prod.mk.inj (Option.some.inj parts)
          rw [here, List.nil_append]
      case isFalse =>
          obtain ⟨⟨front, back⟩, found, same⟩ := Option.map_eq_some_iff.1 parts
          obtain ⟨rfl, rfl⟩ := Prod.mk.inj same
          rw [ih found, List.cons_append]

theorem eq_of_rsplitOnce (parts : rsplitOnce separator text = some (before, after)) :
    text = before ++ separator :: after := by
  obtain ⟨⟨front, back⟩, found, same⟩ := Option.map_eq_some_iff.1 parts
  obtain ⟨rfl, rfl⟩ := Prod.mk.inj same
  have joined := congrArg List.reverse (eq_of_splitOnce found)
  simpa using joined

theorem splitOnce_append (plain : separator ∉ before) :
    splitOnce separator (before ++ separator :: after) = some (before, after) := by
  induction before with
  | nil => exact if_pos rfl
  | cons c rest ih =>
      obtain ⟨other, plain⟩ := not_or.1 (mt List.mem_cons.2 plain)
      rw [List.cons_append, splitOnce, if_neg (Ne.symm other), ih plain, Option.map_some]

theorem append_separator_inj {before' after' : List Char} (plain : separator ∉ before)
    (plain' : separator ∉ before')
    (same : before ++ separator :: after = before' ++ separator :: after') :
    before = before' ∧ after = after' := by
  have split : splitOnce separator (before ++ separator :: after) = some (before, after) :=
    splitOnce_append plain
  rw [same, splitOnce_append plain'] at split
  exact (Prod.mk.inj (Option.some.inj split)).imp Eq.symm Eq.symm

end Separators

end Forge.Library.Text
