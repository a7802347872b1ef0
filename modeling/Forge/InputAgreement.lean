import Forge.OrchestrationView

/-! The required-inputs clause of the self-claim statement beside the policy of the service
layer, and exactly when the two agree. -/

namespace Forge.InputAgreement

open Forge.Library.JsonDocument
open Forge.Library.Text
open Forge.OrchestrationView

/-- `btrim(text) <> ''`: one argument strips spaces only. -/
def btrimNonempty (text : String) : Bool :=
  !(strip (· == ' ') text.toList).isEmpty

/-- `COALESCE(params->'requiredInputs', params->'required_inputs')`. -/
def requiredDocument (params : Option Json) : Option Json :=
  (arrow params "requiredInputs").orElse fun _ => arrow params "required_inputs"

def requiredElements (params : Option Json) : List Json :=
  arrayItems (requiredDocument params)

def containers (params : Option Json) : List Json :=
  [params, arrow params "inputs", arrow params "env", arrow params "apiKeys",
    arrow params "api_keys"].filterMap id

def suppliedValue : Json → Bool
  | .null => false
  | .string text => btrimNonempty text
  | _ => true

def suppliedName (params : Option Json) (name : String) : Bool :=
  (containers params).any fun container =>
    container.jsonbEach.any fun supplied => supplied.1 == name && suppliedValue supplied.2

/-- The required-inputs clause of `NEXT_DISPATCHABLE_SQL`; a NULL name joins with nothing. -/
def requiredInputsClause (params : Option Json) : Bool :=
  (requiredElements params).all fun item =>
    match item.elementText with
    | some name => suppliedName params name
    | none => false

section Values

def Blank (value : Json) : Prop :=
  ∃ text, value = .string text ∧ ∀ c ∈ text.toList, isWhitespace c = true

def Supplied (params : Option Json) (name : String) : Prop :=
  ∃ container ∈ containers params, ∃ value, container.get name = some value ∧
    value ≠ .null ∧ ∀ text, value = .string text → ∃ c ∈ text.toList, c ≠ ' '

/-- Every value under the name is null or blank, and one of them is a blank string with a
character other than the space. -/
def WhitespaceOnly (params : Option Json) (name : String) : Prop :=
  (∃ container ∈ containers params, ∃ text, container.get name = some (.string text) ∧
    (∀ c ∈ text.toList, isWhitespace c = true) ∧ ∃ c ∈ text.toList, c ≠ ' ') ∧
  ∀ container ∈ containers params, ∀ value, container.get name = some value →
    value = .null ∨ Blank value

def SuppliedElement (params : Option Json) (item : Json) : Prop :=
  ∃ name, item.elementText = some name ∧ Supplied params name

theorem suppliedValue_iff {value : Json} :
    suppliedValue value = true ↔
      value ≠ .null ∧ ∀ text, value = .string text → ∃ c ∈ text.toList, c ≠ ' ' := by
  cases value with
  | string text =>
      have trimmed : btrimNonempty text = true ↔ ¬ ∀ c ∈ text.toList, (c == ' ') = true := by
        rw [btrimNonempty, Bool.not_eq_true', ← Bool.not_eq_true, List.isEmpty_iff,
          strip_eq_nil_iff]
      simp [suppliedValue, trimmed]
  | _ => simp [suppliedValue]

theorem suppliedName_iff {params : Option Json} {name : String} :
    suppliedName params name = true ↔ Supplied params name := by
  simp only [suppliedName, List.any_eq_true, Bool.and_eq_true, beq_iff_eq, Supplied]
  refine exists_congr fun container => and_congr_right fun _ => ?_
  constructor
  · rintro ⟨⟨key, value⟩, entry, rfl, supplied⟩
    exact ⟨value, Json.mem_jsonbEach_iff.1 entry, suppliedValue_iff.1 supplied⟩
  · rintro ⟨value, read, supplied⟩
    exact ⟨(name, value), Json.mem_jsonbEach_iff.2 read, rfl, suppliedValue_iff.2 supplied⟩

theorem valueHasNonEmptyField_iff {container : Json} {name : String} :
    valueHasNonEmptyField container name = true ↔
      ∃ value, container.get name = some value ∧ value ≠ .null ∧ ¬ Blank value := by
  have blank : ∀ text, Blank (.string text) ↔ trimIsEmpty text = true := fun text => by
    rw [trimIsEmpty_iff]
    exact ⟨fun ⟨_, same, all⟩ => by cases same; exact all, fun all => ⟨text, rfl, all⟩⟩
  have other : ∀ value, (∀ text, value ≠ Json.string text) → ¬ Blank value :=
    fun value different ⟨text, same, _⟩ => different text same
  rw [valueHasNonEmptyField]
  cases container.get name with
  | none => simp
  | some value => cases value <;> simp [blank, other]

theorem inputValuePresent_iff {params : Json} {name : String} :
    inputValuePresent params name = true ↔
      ∃ container ∈ containers (some params), ∃ value, container.get name = some value ∧
        value ≠ .null ∧ ¬ Blank value := by
  have members : ∀ container, container ∈ containers (some params) ↔
      container ∈ ["inputs", "env", "apiKeys", "api_keys"].filterMap params.get
        ∨ container = params := by
    intro container
    simp only [containers, arrow, Option.bind_some, List.mem_filterMap, List.mem_cons,
      List.not_mem_nil, or_false, id]
    constructor
    · rintro ⟨found, rfl | rfl | rfl | rfl | rfl, same⟩
      · exact .inr (Option.some.inj same).symm
      all_goals exact .inl ⟨_, by simp, same⟩
    · rintro (⟨key, rfl | rfl | rfl | rfl, same⟩ | rfl)
      · exact ⟨_, .inr (.inl rfl), same⟩
      · exact ⟨_, .inr (.inr (.inl rfl)), same⟩
      · exact ⟨_, .inr (.inr (.inr (.inl rfl))), same⟩
      · exact ⟨_, .inr (.inr (.inr (.inr rfl))), same⟩
      · exact ⟨_, .inl rfl, rfl⟩
  simp only [inputValuePresent, Bool.or_eq_true, List.any_eq_true, valueHasNonEmptyField_iff,
    members, or_and_right, exists_or, exists_eq_left]

theorem inputValuePresent_iff_supplied {params : Json} {name : String} :
    inputValuePresent params name = true ↔
      Supplied (some params) name ∧ ¬ WhitespaceOnly (some params) name := by
  rw [inputValuePresent_iff]
  constructor
  · rintro ⟨container, member, value, read, nonnull, visible⟩
    refine ⟨⟨container, member, value, read, nonnull, fun text same => ?_⟩, fun only => ?_⟩
    · by_contra spaces
      push Not at spaces
      refine visible ⟨text, same, fun c listed => ?_⟩
      rw [spaces c listed]
      decide
    · exact (only.2 container member value read).elim nonnull visible
  · rintro ⟨⟨container, member, value, read, nonnull, visible⟩, notOnly⟩
    by_contra absent
    push Not at absent
    have all : ∀ container ∈ containers (some params), ∀ value,
        container.get name = some value → value = .null ∨ Blank value :=
      fun container member value read => or_iff_not_imp_left.2 (absent container member value read)
    refine notOnly ⟨?_, all⟩
    obtain ⟨text, rfl, blank⟩ := (all container member value read).resolve_left nonnull
    exact ⟨container, member, text, read, blank, visible text rfl⟩

end Values

theorem requiredField_eq (params : Json) :
    BlockedTaskPolicy.requiredField params = requiredDocument (some params) := rfl

theorem missingRequiredInputs_eq_nil_iff {params : Option Json} :
    BlockedTaskPolicy.missingRequiredInputs params = [] ↔
      ∀ name, .string name ∈ requiredElements params →
        Supplied params name ∧ ¬ WhitespaceOnly params name := by
  cases params with
  | none =>
      have empty : requiredElements none = [] := rfl
      simp [BlockedTaskPolicy.missingRequiredInputs, empty]
  | some params =>
      have strings : ∀ name,
          name ∈ (arrayItems (BlockedTaskPolicy.requiredField params)).filterMap Json.asStr ↔
            .string name ∈ requiredElements (some params) := by
        intro name
        rw [requiredField_eq, List.mem_filterMap, requiredElements]
        constructor
        · rintro ⟨item, member, read⟩
          cases item <;> simp_all [Json.asStr]
        · intro member
          exact ⟨_, member, rfl⟩
      simp only [BlockedTaskPolicy.missingRequiredInputs, List.filter_eq_nil_iff, strings,
        Bool.not_eq_true', Bool.not_eq_false, inputValuePresent_iff_supplied]

theorem requiredInputsClause_iff {params : Option Json} :
    requiredInputsClause params = true ↔
      ∀ item ∈ requiredElements params, SuppliedElement params item := by
  rw [requiredInputsClause, List.all_eq_true]
  refine forall₂_congr fun item _ => ?_
  rw [SuppliedElement]
  cases item.elementText with
  | none => simp
  | some name => simp [suppliedName_iff]

/-- The policy and the statement agree on a params document exactly when a name supplied by
whitespace alone comes with an unsupplied element, and an unsupplied element that is no string
comes with a name the policy misses. -/
theorem required_inputs_agreement_iff (params : Option Json) :
    (BlockedTaskPolicy.missingRequiredInputs params = [] ↔ requiredInputsClause params = true)
    ↔ (((∃ name, .string name ∈ requiredElements params ∧ WhitespaceOnly params name) →
          ∃ item ∈ requiredElements params, ¬ SuppliedElement params item)
      ∧ ((∃ item ∈ requiredElements params, item.asStr = none ∧ ¬ SuppliedElement params item) →
          ∃ name, .string name ∈ requiredElements params ∧
            (¬ Supplied params name ∨ WhitespaceOnly params name))) := by
  have named : ∀ name, SuppliedElement params (.string name) ↔ Supplied params name :=
    fun name => by simp [SuppliedElement, Json.elementText]
  rw [missingRequiredInputs_eq_nil_iff, requiredInputsClause_iff]
  by_cases present : ∀ name, .string name ∈ requiredElements params →
      Supplied params name ∧ ¬ WhitespaceOnly params name
  case pos =>
      -- No name is missing, so the statement can only be held up by an element without a name.
      have noBlank : ¬ ∃ name, .string name ∈ requiredElements params ∧
          WhitespaceOnly params name := by
        rintro ⟨name, member, only⟩
        exact (present name member).2 only
      have noMissing : ¬ ∃ name, .string name ∈ requiredElements params ∧
          (¬ Supplied params name ∨ WhitespaceOnly params name) := by
        rintro ⟨name, member, absent | only⟩
        · exact absent (present name member).1
        · exact (present name member).2 only
      rw [iff_true_left present, and_iff_right fun blank => absurd blank noBlank]
      constructor
      · rintro all ⟨item, member, -, unsupplied⟩
        exact absurd (all item member) unsupplied
      · intro onlyNames item member
        by_contra unsupplied
        refine noMissing (onlyNames ⟨item, member, ?_, unsupplied⟩)
        cases item with
        | string name => exact absurd ((named name).2 (present name member).1) unsupplied
        | _ => rfl
  case neg =>
      -- Some name is missing for the policy; they agree when the statement refuses as well.
      rw [iff_false_left present]
      push Not at present
      obtain ⟨name, member, missing⟩ := present
      have noted : ∃ name, .string name ∈ requiredElements params ∧
          (¬ Supplied params name ∨ WhitespaceOnly params name) :=
        ⟨name, member, or_iff_not_imp_left.2 fun given => missing (not_not.1 given)⟩
      rw [and_iff_left fun _ => noted]
      push Not
      constructor
      · exact fun refused _ => refused
      · intro otherwise
        by_cases given : Supplied params name
        · exact otherwise ⟨name, member, missing given⟩
        · exact ⟨_, member, fun supplied => given ((named name).1 supplied)⟩

/-- A tab for a required input: the policy misses the input, the statement admits the task. -/
theorem required_inputs_disagreement :
    ¬ ∀ params : Option Json,
      (BlockedTaskPolicy.missingRequiredInputs params = [] ↔
        requiredInputsClause params = true) := by
  intro agreement
  have tab := agreement (some (.object [("requiredInputs", .array [.string "KEY"]),
    ("inputs", .object [("KEY", .string "\t")])]))
  exact absurd (tab.2 (by decide)) (by decide)

end Forge.InputAgreement
