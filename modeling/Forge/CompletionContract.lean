import Forge.Library.CompactJson
import Forge.ResultConsumer

/-! The contract of a completion: which results contain an expected text, and which texts. -/

namespace Forge.CompletionContract

open Forge.Library.CompactJson
open Forge.Library.JsonDocument (Json)
open Forge.ResultConsumer (verifyCompletion)

section Source

variable {format : FloatFormat}

/-- `CompletionVerifier::verify` on the `contains` of a contract; `debug` is how the reason shows
the text. -/
def verify (debug : List Char → List Char) (contains : Option String) (result : Value format) :
    Except (List Char) Unit :=
  match contains with
  | none => .ok ()
  | some sub =>
      if sub.toList <:+: print result then .ok ()
      else .error ("result is missing the expected substring ".toList ++ debug sub.toList)

def completed (stdout : String) : Value format := .object [("stdout", .string stdout)]

theorem verify_ok {debug : List Char → List Char} {sub : String} {result : Value format} :
    verify debug (some sub) result = .ok () ↔ sub.toList <:+: print result := by
  unfold verify
  dsimp only
  split
  case isTrue found => simp [found]
  case isFalse missing => simp [missing]

theorem verifyCompletion_iff (debug : List Char → List Char) (expected stdout : String) :
    verifyCompletion expected stdout = true ↔
      verify debug (some expected) (completed stdout : Value format) = .ok () := by
  have same : ("\x7b\"stdout\":" ++ Json.quote stdout ++ "\x7d").toList =
      print (completed stdout : Value format) := by
    simp [completed, print, printFields, quoted, Json.quote, String.toList_append,
      String.toList_ofList, Json.escapeChar]
  rw [verify_ok, ← same]
  exact decide_eq_true_iff

end Source

section Escapes

def escaped (text : String) : List Char := text.toList.flatMap Json.escapeChar

def Plain (text : String) : Prop := ∀ c ∈ text.toList, Json.escapeChar c = [c]

theorem escaped_of_plain {text : String} (plain : Plain text) : escaped text = text.toList := by
  have chars : ∀ chars : List Char, (∀ c ∈ chars, Json.escapeChar c = [c]) →
      chars.flatMap Json.escapeChar = chars := by
    intro chars plain
    induction chars with
    | nil => rfl
    | cons c rest ih =>
        obtain ⟨first, others⟩ := List.forall_mem_cons.1 plain
        rw [List.flatMap_cons, first, ih others, List.singleton_append]
  exact chars text.toList plain

theorem infix_escaped {sub text : String} (inside : sub.toList <:+: text.toList) :
    escaped sub <:+: escaped text := by
  obtain ⟨front, back, same⟩ := inside
  refine ⟨front.flatMap Json.escapeChar, back.flatMap Json.escapeChar, ?_⟩
  rw [escaped, escaped, ← same, List.flatMap_append, List.flatMap_append]

end Escapes

section Places

variable {format : FloatFormat} {sub front back : List Char}

theorem prefix_of_separator {separator : Char} (plain : separator ∉ sub)
    (begins : sub <+: front ++ separator :: back) : sub <+: front := by
  obtain ⟨rest, same⟩ := begins
  rcases List.append_eq_append_iff.1 same with ⟨more, inside, -⟩ | ⟨more, longer, further⟩
  · exact ⟨more, inside.symm⟩
  · cases more with
    | nil => exact longer ▸ (List.append_nil front).symm ▸ List.prefix_rfl
    | cons c others =>
        obtain rfl := (List.cons.inj further).1
        exact absurd (longer ▸ List.mem_append_right front (.head others)) plain

theorem infix_separator {separator : Char} (plain : separator ∉ sub) :
    sub <:+: front ++ separator :: back ↔ sub <:+: front ∨ sub <:+: back := by
  constructor
  · intro inside
    induction front with
    | nil =>
        rcases List.infix_cons_iff.1 inside with begins | later
        · exact .inl (prefix_of_separator plain begins).isInfix
        · exact .inr later
    | cons c rest ih =>
        rcases List.infix_cons_iff.1 inside with begins | later
        · have begins : sub <+: (c :: rest) ++ separator :: back := begins
          exact .inl (prefix_of_separator plain begins).isInfix
        · exact (ih later).imp_left fun inner => List.infix_cons_iff.2 (.inr inner)
  · rintro (before | after)
    · exact List.infix_append_of_infix_left before
    · exact List.infix_append_of_infix_right (List.infix_cons_iff.2 (.inr after))

theorem infix_of_field {key : String} {value : Value format} {fields : List (String × Value format)}
    (member : (key, value) ∈ fields) : print value <:+: print (.object fields) := by
  have later : ∀ fields : List (String × Value format), (key, value) ∈ fields →
      print value <:+: printFields fields := by
    intro fields member
    induction fields with
    | nil => exact nomatch member
    | cons field rest ih =>
        obtain ⟨name, other⟩ := field
        rw [printFields]
        rcases List.mem_cons.1 member with same | member
        · obtain ⟨rfl, rfl⟩ := Prod.mk.inj same
          exact ⟨',' :: (quoted key ++ [':']), printFields rest, by simp⟩
        · obtain ⟨front, back, same⟩ := ih member
          exact ⟨',' :: (quoted name ++ ':' :: (print other ++ front)), back, by simp [← same]⟩
  rcases fields with _ | ⟨⟨name, other⟩, rest⟩
  · exact nomatch member
  · rw [print]
    rcases List.mem_cons.1 member with same | member
    · obtain ⟨rfl, rfl⟩ := Prod.mk.inj same
      exact ⟨'\x7b' :: (quoted key ++ [':']), printFields rest, by simp⟩
    · obtain ⟨front, back, same⟩ := later rest member
      exact ⟨'\x7b' :: (quoted name ++ ':' :: (print other ++ front)), back, by simp [← same]⟩

theorem print_completed (stdout : String) : print (completed stdout : Value format) =
    ['\x7b'] ++ '"' :: ("stdout".toList ++ '"' :: ([':'] ++ '"' :: (escaped stdout ++
      '"' :: ['\x7d']))) := by
  simp [completed, print, printFields, quoted, escaped, Json.escapeChar]

theorem infix_completed (full : sub ≠ []) (plain : '"' ∉ sub) (stdout : String) :
    sub <:+: print (completed stdout : Value format) ↔
      sub <:+: escaped stdout ∨ sub <:+: "stdout".toList
        ∨ sub ∈ [['\x7b'], [':'], ['\x7d']] := by
  rw [print_completed, infix_separator plain, infix_separator plain, infix_separator plain,
    infix_separator plain, List.infix_singleton_iff, List.infix_singleton_iff,
    List.infix_singleton_iff, or_iff_right full, or_iff_right full, or_iff_right full]
  simp only [List.mem_cons, List.not_mem_nil, or_false]
  tauto

end Places

section Contract

variable {format : FloatFormat}

theorem contains_rule (debug : List Char → List Char) (sub stdout : String) :
    (sub.toList <:+: stdout.toList → ∀ fields : List (String × Value format),
        ("stdout", Value.string stdout) ∈ fields →
          verify debug (some (String.ofList (escaped sub))) (.object fields) = .ok ()
            ∧ (Plain sub → verify debug (some sub) (.object fields) = .ok ()))
      ∧ (sub ≠ "" → '"' ∉ sub.toList →
        (verify debug (some sub) (completed stdout : Value format) = .ok () ↔
            sub.toList <:+: escaped stdout ∨ sub.toList <:+: "stdout".toList
              ∨ sub ∈ ["\x7b", ":", "\x7d"])
          ∧ (Plain stdout →
            (verify debug (some sub) (completed stdout : Value format) = .ok () ↔
              sub.toList <:+: stdout.toList ∨ sub.toList <:+: "stdout".toList
                ∨ sub ∈ ["\x7b", ":", "\x7d"]))) := by
  constructor
  · intro inside fields member
    have stands : escaped sub <:+: print (.object fields) := by
      have value : escaped stdout <:+: print (Value.string stdout : Value format) :=
        ⟨['"'], ['"'], by simp [print, quoted, escaped]⟩
      exact (infix_escaped inside).trans (value.trans (infix_of_field member))
    refine ⟨verify_ok.2 (String.toList_ofList.symm ▸ stands), fun plain => verify_ok.2 ?_⟩
    exact escaped_of_plain plain ▸ stands
  · intro full plain
    have chars : sub.toList ≠ [] := fun empty => full (String.toList_inj.1 empty)
    have marks : sub.toList ∈ [['\x7b'], [':'], ['\x7d']] ↔ sub ∈ ["\x7b", ":", "\x7d"] := by
      simp [← String.toList_inj]
    have rule : verify debug (some sub) (completed stdout : Value format) = .ok () ↔
        sub.toList <:+: escaped stdout ∨ sub.toList <:+: "stdout".toList
          ∨ sub ∈ ["\x7b", ":", "\x7d"] :=
      verify_ok.trans ((infix_completed chars plain stdout).trans (by rw [marks]))
    exact ⟨rule, fun written => escaped_of_plain written ▸ rule⟩

/-- An empty output contains the name of its field. -/
theorem name_of_field_contained :
    ¬ ∀ (debug : List Char → List Char) (sub stdout : String), sub ≠ "" →
      (verify debug (some sub) (completed stdout : Value default) = .ok () ↔
        sub.toList <:+: stdout.toList) := by
  intro rule
  have found : "stdout".toList <:+: print (completed "" : Value default) := by
    rw [print_completed]
    exact ⟨['\x7b', '"'], '"' :: ':' :: '"' :: '"' :: ['\x7d'], rfl⟩
  have inside := (rule id "stdout" "" (by decide)).1 (verify_ok.2 found)
  exact absurd inside (by decide)

end Contract

end Forge.CompletionContract
