import Forge.CloneDomain
import Forge.Library.UnixPath
import Forge.Library.Utf8
import Mathlib.Data.List.Chain

/-! How the directory names of workspaces are derived from the names of projects, told apart, and
resolved below the root of the projects. -/

namespace Forge.WorkspaceDirNames

open Forge.CloneDomain
open Forge.Library.UnixPath
open Forge.Library.Text (append_separator_inj)
open Forge.Library.Utf8 (size utf8ByteSize_ofList)

section Source

def workspaceDirNameFallback : List Char := "project".toList

/-- The letters and digits in lower case, with one dash for each run of others; `prevDash` is that
no dash may follow. -/
def filtered (prevDash : Bool) : List Char → List Char
  | [] => []
  | c :: rest =>
      if c.isAlphanum then c.toLower :: filtered false rest
      else if prevDash then filtered true rest
      else '-' :: filtered true rest

def isDash (c : Char) : Bool := c == '-'

/-- The value of `derive`; what is filtered is ASCII, so it has a byte for each character. -/
def derivedText (name : List Char) : List Char :=
  let out := ((filtered true name).take workspaceDirNameMax).rdropWhile isDash
  if out = [] ∨ reservedDirNames.contains (String.ofList out) then workspaceDirNameFallback else out

/-- The value of `with_suffix`. -/
def suffixedText (value : List Char) (suffix : UInt32) : List Char :=
  let tail := '-' :: Nat.toDigits 10 suffix.toNat
  let base := (value.take (workspaceDirNameMax - tail.length)).rdropWhile isDash
  (if base = [] then workspaceDirNameFallback else base) ++ tail

inductive ResolveError where
  | pathEscape (name : List Char)
  /-- The `debug_assert` on the root. -/
  | rootNotAbsolute
deriving DecidableEq

/-- `resolve_under`; `debug` is that the build has its assertions. -/
def resolveUnder (debug : Bool) (value root : List Char) : Except ResolveError (List Char) :=
  if debug ∧ isAbsolute root = false then .error .rootNotAbsolute
  else if value = [] ∨ '/' ∈ value ∨ '\\' ∈ value ∨ ['.', '.'] <:+: value
      ∨ reservedDirNames.contains (String.ofList value) then
    .error (.pathEscape value)
  else
    let joined := join root value
    let escapes := (stripPrefix joined root).elim true fun tail =>
      tail.any fun component => component = .parentDir || component = .rootDir
    if escapes then .error (.pathEscape value) else .ok joined

end Source

section Characters

def allowed (c : Char) : Bool :=
  (decide ('a' ≤ c) && decide (c ≤ 'z')) || c.isDigit || c == '-'

theorem of_ascii {p : Char → Prop} (all : ∀ n < 128, p (Char.ofNat n)) {c : Char}
    (small : c.toNat < 128) : p c := by
  have here := all c.toNat small
  rwa [Char.ofNat_toNat] at here

theorem toNat_lt_of_allowed {c : Char} (fine : allowed c = true) : c.toNat < 128 := by
  simp only [allowed, Bool.or_eq_true, Bool.and_eq_true, decide_eq_true_eq, Char.isDigit,
    beq_iff_eq] at fine
  rcases fine with (⟨-, small⟩ | ⟨-, small⟩) | rfl
  · exact Nat.lt_of_le_of_lt small (by decide)
  · exact Nat.lt_of_le_of_lt small (by decide)
  · decide

theorem toNat_lt_of_isAlphanum {c : Char} (fine : c.isAlphanum = true) : c.toNat < 128 := by
  rcases Bool.or_eq_true_iff.1 fine with letter | digit
  · rcases Bool.or_eq_true_iff.1 letter with upper | lower
    · exact Nat.lt_of_le_of_lt (of_decide_eq_true upper).2 (by decide)
    · exact Nat.lt_of_le_of_lt (of_decide_eq_true (Bool.and_eq_true_iff.1 lower).2) (by decide)
  · exact Nat.lt_of_le_of_lt (of_decide_eq_true (Bool.and_eq_true_iff.1 digit).2) (by decide)

theorem allowed_toLower {c : Char} (fine : c.isAlphanum = true) :
    allowed c.toLower = true ∧ c.toLower ≠ '-' := by
  exact of_ascii (p := fun c => c.isAlphanum = true → allowed c.toLower = true ∧ c.toLower ≠ '-')
    (by decide) (toNat_lt_of_isAlphanum fine) fine

theorem toLower_of_allowed {c : Char} (fine : allowed c = true) (other : c ≠ '-') :
    c.isAlphanum = true ∧ c.toLower = c := by
  exact of_ascii
    (p := fun c => allowed c = true → c ≠ '-' → c.isAlphanum = true ∧ c.toLower = c)
    (by decide) (toNat_lt_of_allowed fine) fine other

theorem size_of_allowed {value : List Char} (fine : ∀ c ∈ value, allowed c = true) :
    size value = value.length := by
  induction value with
  | nil => rfl
  | cons c rest ih =>
      obtain ⟨first, others⟩ := List.forall_mem_cons.1 fine
      have one : c.utf8Size = 1 :=
        Char.utf8Size_eq_one_iff.2 (Nat.lt_succ_iff.1 (toNat_lt_of_allowed first))
      rw [Forge.Library.Utf8.size_cons, one, ih others, List.length_cons, Nat.add_comm]

end Characters

section Safety

/-- The safe names, by their characters. -/
structure Safe (value : List Char) : Prop where
  full : value ≠ []
  short : value.length ≤ workspaceDirNameMax
  fine : ∀ c ∈ value, allowed c = true
  head : value.head? ≠ some '-'
  last : value.getLast? ≠ some '-'

variable {value : List Char} {c : Char}

theorem Safe.not_mem (safe : Safe value) (other : allowed c = false) : c ∉ value := by
  intro member
  rw [safe.fine c member] at other
  cases other

theorem not_reserved (noDot : '.' ∉ value) :
    reservedDirNames.contains (String.ofList value) = false := by
  rw [Bool.eq_false_iff, Ne, List.contains_iff_mem]
  intro listed
  simp only [reservedDirNames, List.mem_cons, List.not_mem_nil, or_false,
    ← String.toList_inj, String.toList_ofList] at listed
  rcases listed with rfl | rfl | rfl
  all_goals exact noDot (by decide)

theorem isSafeDirName_iff : isSafeDirName (String.ofList value) = true ↔ Safe value := by
  have empty : (String.ofList value).isEmpty = false ↔ value ≠ [] := by
    rw [Bool.eq_false_iff, Ne, String.isEmpty_iff, ← String.toList_inj, String.toList_ofList]
    rfl
  simp only [isSafeDirName, Bool.and_eq_true, Bool.not_eq_true', bne_iff_ne, decide_eq_true_eq,
    String.toList_ofList, utf8ByteSize_ofList, List.all_eq_true, empty]
  constructor
  · rintro ⟨⟨⟨⟨⟨full, short⟩, fine⟩, head⟩, last⟩, -⟩
    rw [size_of_allowed fine] at short
    exact ⟨full, short, fine, head, last⟩
  · intro safe
    refine ⟨⟨⟨⟨⟨safe.full, ?_⟩, safe.fine⟩, safe.head⟩, safe.last⟩,
      not_reserved (safe.not_mem (by decide))⟩
    rw [size_of_allowed safe.fine]
    exact safe.short

theorem safe_fallback : Safe workspaceDirNameFallback := by
  have fine : workspaceDirNameFallback.all allowed = true := by decide
  exact ⟨by decide, by decide, List.all_eq_true.1 fine, by decide, by decide⟩

theorem last_rdropWhile (text : List Char) : (text.rdropWhile isDash).getLast? ≠ some '-' := by
  intro last
  obtain ⟨front, split⟩ := List.getLast?_eq_some_iff.1 last
  have kept := List.rdropWhile_last_not isDash text (by rw [split]; simp)
  simp [split, isDash] at kept

theorem rdropWhile_of_last {text : List Char} (last : text.getLast? ≠ some '-') :
    text.rdropWhile isDash = text := by
  rcases List.eq_nil_or_concat' text with rfl | ⟨front, c, rfl⟩
  · rfl
  · refine List.rdropWhile_concat_neg _ _ _ fun dash => last ?_
    rw [List.getLast?_concat, eq_of_beq dash]

end Safety

section Deriving

variable {prevDash : Bool} {text : List Char}

def Single (text : List Char) : Prop :=
  text.IsChain fun first second => ¬(first = '-' ∧ second = '-')

theorem single_cons {c : Char} {rest : List Char}
    (follows : c = '-' → rest.head? ≠ some '-') (single : Single rest) : Single (c :: rest) := by
  cases rest with
  | nil => exact .singleton c
  | cons next rest =>
      refine .cons_cons (fun both => follows both.1 ?_) single
      rw [List.head?_cons, both.2]

theorem Single.of_prefix {first second : List Char} (single : Single second)
    (initial : first <+: second) : Single first :=
  List.IsChain.infix single initial.isInfix

theorem filtered_spec (prevDash : Bool) (text : List Char) :
    (∀ c ∈ filtered prevDash text, allowed c = true) ∧ Single (filtered prevDash text)
      ∧ (prevDash = true → (filtered prevDash text).head? ≠ some '-') := by
  induction text generalizing prevDash with
  | nil => exact ⟨nofun, .nil, nofun⟩
  | cons c rest ih =>
      rw [filtered]
      split
      case isTrue kept =>
          obtain ⟨fine, single, -⟩ := ih false
          obtain ⟨lower, other⟩ := allowed_toLower kept
          refine ⟨List.forall_mem_cons.2 ⟨lower, fine⟩,
            single_cons (fun dash => absurd dash other) single, fun _ dash => other ?_⟩
          exact Option.some.inj dash
      case isFalse =>
          obtain ⟨fine, single, head⟩ := ih true
          split
          case isTrue => exact ⟨fine, single, fun _ => head rfl⟩
          case isFalse fresh =>
              exact ⟨List.forall_mem_cons.2 ⟨by decide, fine⟩,
                single_cons (fun _ => head rfl) single, fun closed => absurd closed fresh⟩

theorem filtered_eq_self (fine : ∀ c ∈ text, allowed c = true) (single : Single text)
    (head : prevDash = true → text.head? ≠ some '-') : filtered prevDash text = text := by
  induction text generalizing prevDash with
  | nil => rfl
  | cons c rest ih =>
      obtain ⟨first, others⟩ := List.forall_mem_cons.1 fine
      have singleRest : Single rest := List.IsChain.tail single
      rw [filtered]
      by_cases dash : c = '-'
      · subst dash
        have unblocked : prevDash ≠ true := fun blocked => head blocked rfl
        have follows : rest.head? ≠ some '-' := by
          intro next
          obtain ⟨rest, rfl⟩ := List.head?_eq_some_iff.1 next
          exact (List.isChain_cons_cons.1 single).1 ⟨rfl, rfl⟩
        rw [if_neg (by decide), if_neg unblocked, ih others singleRest fun _ => follows]
      · obtain ⟨kept, lower⟩ := toLower_of_allowed first dash
        rw [if_pos kept, lower, ih others singleRest fun closed => absurd closed Bool.false_ne_true]

theorem safe_derivedText (name : List Char) :
    Safe (derivedText name) ∧ Single (derivedText name) := by
  obtain ⟨fine, single, head⟩ := filtered_spec true name
  have initial : ((filtered true name).take workspaceDirNameMax).rdropWhile isDash <+:
      filtered true name :=
    (List.rdropWhile_prefix _ _).trans (List.take_prefix _ _)
  rw [derivedText]
  split
  case isTrue =>
      have kept : filtered true workspaceDirNameFallback = workspaceDirNameFallback := by decide
      exact ⟨safe_fallback, kept ▸ (filtered_spec true workspaceDirNameFallback).2.1⟩
  case isFalse usable =>
      refine ⟨⟨fun empty => usable (.inl empty), ?_, fun c member => fine c (initial.mem member),
        fun dash => ?_, last_rdropWhile _⟩, single.of_prefix initial⟩
      · exact (List.rdropWhile_prefix _ _).length_le.trans (List.length_take_le _ _)
      · obtain ⟨rest, split⟩ := List.head?_eq_some_iff.1 dash
        obtain ⟨behind, whole⟩ := initial
        exact head rfl (by rw [← whole, split]; rfl)

theorem derivedText_derivedText (name : List Char) :
    derivedText (derivedText name) = derivedText name := by
  obtain ⟨safe, single⟩ := safe_derivedText name
  generalize derivedText name = value at *
  have kept : (value.take workspaceDirNameMax).rdropWhile isDash = value := by
    rw [List.take_of_length_le safe.short, rdropWhile_of_last safe.last]
  rw [derivedText, filtered_eq_self safe.fine single fun _ => safe.head, kept]
  refine if_neg (not_or.2 ⟨safe.full, ?_⟩)
  rw [not_reserved (safe.not_mem (by decide))]
  exact Bool.false_ne_true

end Deriving

section Suffixes

variable {value : List Char}

theorem length_toDigits_le (suffix : UInt32) : (Nat.toDigits 10 suffix.toNat).length ≤ 10 :=
  (Nat.length_toDigits_le_iff (by decide) (by decide)).2 (Nat.lt_trans suffix.toNat_lt (by decide))

theorem allowed_of_mem_toDigits {n : Nat} {c : Char} (member : c ∈ Nat.toDigits 10 n) :
    allowed c = true ∧ c ≠ '-' := by
  have digit := Nat.isDigit_of_mem_toDigits (by decide) (by decide) member
  refine ⟨by simp [allowed, digit], ?_⟩
  rintro rfl
  cases digit

theorem base_ne_nil (safe : Safe value) {limit : Nat} (room : 0 < limit) :
    (value.take limit).rdropWhile isDash ≠ [] := by
  intro nothing
  obtain ⟨c, rest, rfl⟩ := List.exists_cons_of_ne_nil safe.full
  obtain ⟨limit, rfl⟩ := Nat.exists_eq_succ_of_ne_zero (Nat.pos_iff_ne_zero.1 room)
  rw [List.rdropWhile_eq_nil_iff, List.take_succ_cons] at nothing
  exact safe.head (congrArg some (eq_of_beq (nothing c (.head _))))

theorem safe_suffixedText (safe : Safe value) (suffix : UInt32) :
    Safe (suffixedText value suffix) := by
  have short := length_toDigits_le suffix
  have initial (limit : Nat) : (value.take limit).rdropWhile isDash <+: value :=
    (List.rdropWhile_prefix _ _).trans (List.take_prefix _ _)
  rw [suffixedText, if_neg (base_ne_nil safe (by
    rw [workspaceDirNameMax, List.length_cons]
    omega))]
  generalize limited : workspaceDirNameMax - ('-' :: Nat.toDigits 10 suffix.toNat).length = limit
  have kept : (value.take limit).rdropWhile isDash ≠ [] := by
    refine base_ne_nil safe ?_
    rw [← limited, workspaceDirNameMax, List.length_cons]
    omega
  refine ⟨fun nothing => kept (List.append_eq_nil_iff.1 nothing).1, ?_, ?_, ?_, ?_⟩
  · have bound : ((value.take limit).rdropWhile isDash).length ≤ limit :=
      (List.rdropWhile_prefix _ _).length_le.trans (List.length_take_le _ _)
    rw [workspaceDirNameMax, List.length_cons] at *
    rw [List.length_append, List.length_cons]
    omega
  · intro c member
    rcases List.mem_append.1 member with inBase | inTail
    · exact safe.fine c ((initial limit).mem inBase)
    · rcases List.mem_cons.1 inTail with rfl | digit
      · decide
      · exact (allowed_of_mem_toDigits digit).1
  · obtain ⟨c, rest, split⟩ := List.exists_cons_of_ne_nil kept
    obtain ⟨behind, whole⟩ := initial limit
    have head := safe.head
    rw [← whole, split] at head
    rw [split]
    exact head
  · intro last
    rw [List.append_cons, List.getLast?_append_of_ne_nil _ Nat.toDigits_ne_nil] at last
    exact (allowed_of_mem_toDigits (List.mem_of_getLast? last)).2 rfl

theorem suffixedText_injective (value : List Char) : Function.Injective (suffixedText value) := by
  intro first second same
  have plain (n : Nat) : '-' ∉ (Nat.toDigits 10 n).reverse := fun member =>
    (allowed_of_mem_toDigits (List.mem_reverse.1 member)).2 rfl
  have back := congrArg List.reverse same
  simp only [suffixedText, List.reverse_append, List.reverse_cons, List.append_assoc,
    List.singleton_append] at back
  have digits := List.reverse_injective (append_separator_inj (plain _) (plain _) back).1
  have numbers := congrArg (Nat.ofDigitChars 10 · 0) digits
  simp only [Nat.ofDigitChars_ten_toDigits] at numbers
  exact UInt32.toNat_inj.1 numbers

end Suffixes

section Names

def derive (name : List Char) : WorkspaceDirName :=
  ⟨String.ofList (derivedText name), isSafeDirName_iff.2 (safe_derivedText name).1⟩

variable (name : WorkspaceDirName)

theorem safe_value : Safe name.value.toList := by
  refine isSafeDirName_iff.1 ?_
  rw [String.ofList_toList]
  exact name.safe

def withSuffix (suffix : UInt32) : WorkspaceDirName :=
  ⟨String.ofList (suffixedText name.value.toList suffix),
    isSafeDirName_iff.2 (safe_suffixedText (safe_value name) suffix)⟩

theorem resolveUnder_of_safe {value root : List Char} {debug : Bool} (safe : Safe value)
    (absolute : debug = true → isAbsolute root = true) :
    ∃ joined, resolveUnder debug value root = .ok joined
      ∧ components joined = components root ++ [.normal value] := by
  have noDot : '.' ∉ value := safe.not_mem (by decide)
  have flat : '/' ∉ value := safe.not_mem (by decide)
  have joined : components (join root value) = components root ++ [.normal value] :=
    components_join flat safe.full noDot
  refine ⟨join root value, ?_, joined⟩
  have usable : ¬(value = [] ∨ '/' ∈ value ∨ '\\' ∈ value ∨ ['.', '.'] <:+: value
      ∨ reservedDirNames.contains (String.ofList value)) := by
    rintro (empty | slash | backslash | dots | reserved)
    · exact safe.full empty
    · exact flat slash
    · exact safe.not_mem (by decide) backslash
    · exact noDot (dots.mem (.head _))
    · rw [not_reserved noDot] at reserved
      cases reserved
  have below : stripPrefix (join root value) root = some [.normal value] := by
    rw [stripPrefix, joined, if_pos (List.prefix_append _ _), List.drop_left]
  have asserted : ¬(debug = true ∧ isAbsolute root = false) := by
    rintro ⟨built, relative⟩
    rw [absolute built] at relative
    cases relative
  rw [resolveUnder, if_neg asserted, if_neg usable]
  simp only [below]
  rfl

/-- Derived names parse and derive themselves. Suffixed names parse, along any sequence of
suffixes, and those of one name are told apart by their suffixes. Every name has at most 64 bytes,
traverses nothing, and resolves below every root that the assertions let pass to that root and one
normal component. -/
theorem workspace_dir_names :
    (∀ text, WorkspaceDirName.parse (String.ofList (derivedText text)) = some (derive text)
      ∧ derive (derive text).value.toList = derive text) ∧
    (∀ (name : WorkspaceDirName) (suffixes : List UInt32),
      WorkspaceDirName.parse (suffixes.foldl (fun value suffix =>
          String.ofList (suffixedText value.toList suffix)) name.value) =
        some (suffixes.foldl withSuffix name)) ∧
    (∀ name, Function.Injective (withSuffix name)) ∧
    (∀ name : WorkspaceDirName, name.value.utf8ByteSize ≤ 64
      ∧ '/' ∉ name.value.toList ∧ '\\' ∉ name.value.toList ∧ '.' ∉ name.value.toList) ∧
    ∀ (name : WorkspaceDirName) (debug : Bool) (root : List Char),
      (debug = true → isAbsolute root = true) →
      ∃ joined, resolveUnder debug name.value.toList root = .ok joined
        ∧ components joined = components root ++ [.normal name.value.toList] := by
  refine ⟨fun text => ⟨WorkspaceDirName.parse_value (derive text), ?_⟩, fun name suffixes => ?_,
    fun name first second same => ?_, fun name => ?_,
    fun name debug root absolute => resolveUnder_of_safe (safe_value name) absolute⟩
  · refine WorkspaceDirName.mk.injEq .. |>.mpr ?_
    rw [derive, String.toList_ofList, derivedText_derivedText]
  · induction suffixes generalizing name with
    | nil => exact WorkspaceDirName.parse_value name
    | cons suffix rest ih => exact ih (withSuffix name suffix)
  · have texts := congrArg (fun name => name.value.toList) same
    simp only [withSuffix, String.toList_ofList] at texts
    exact suffixedText_injective _ texts
  · have safe := safe_value name
    refine ⟨?_, safe.not_mem (by decide), safe.not_mem (by decide), safe.not_mem (by decide)⟩
    rw [← String.ofList_toList (s := name.value), utf8ByteSize_ofList, size_of_allowed safe.fine]
    exact safe.short

end Names

end Forge.WorkspaceDirNames
