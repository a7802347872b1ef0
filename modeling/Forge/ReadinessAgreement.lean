import Forge.DependencyReadiness

/-! How the service layer's prerequisite decision relates to the clauses of the three
statements that dispatch or release tasks. -/

namespace Forge.ReadinessAgreement

open Forge.DependencyReadiness
open Forge.Library.Identifier
open Forge.Library.JsonDocument
open Forge.OrchestrationDomain

def CanonicalDependencies (params : Option Json) : Prop :=
  arrow params "dependency_ids" = none ∨
    ∃ ids : List Uuid, ids.length ≤ TaskDependencyPolicy.max ∧
      arrow params "dependency_ids" = some (.array (ids.map fun id => .string id.toText))

section Canonical

variable {tasks : Tasks} {organizationId : Uuid} {params : Option Json}

theorem mem_fromParams {id : Uuid} (declared : id ∈ TaskDependencyPolicy.fromParams params) :
    ∃ item ∈ arrayItems (arrow params "dependency_ids"), ∃ text,
      item.asStr = some text ∧ Uuid.parseStr text = some id := by
  obtain ⟨text, listed, parsed⟩ := List.mem_filterMap.1 (List.mem_of_mem_take declared)
  obtain ⟨item, member, read⟩ := List.mem_filterMap.1 listed
  exact ⟨item, member, text, read, parsed⟩

theorem fromParams_of_canonical {ids : List Uuid} (few : ids.length ≤ TaskDependencyPolicy.max)
    (stored : arrow params "dependency_ids"
      = some (.array (ids.map fun id => .string id.toText))) :
    TaskDependencyPolicy.fromParams params = ids := by
  have strings : (arrayItems (arrow params "dependency_ids")).filterMap Json.asStr
      = ids.map Uuid.toText := by
    rw [stored]
    simp [arrayItems, Json.asArray, List.filterMap_map, Function.comp_def, Json.asStr]
  rw [TaskDependencyPolicy.fromParams, strings, List.filterMap_map]
  simp only [Function.comp_def, Uuid.parseStr_toText, List.filterMap_some]
  exact List.take_of_length_le few

theorem createTaskParams_dependency_ids (input : CreateTaskParamsInput) :
    arrow (some (createTaskParams input)) "dependency_ids" =
      if input.dependencyIds = [] then none
      else some (.array (input.dependencyIds.map fun id => .string id.toText)) := by
  have given : ∀ (key : String) (value : Option Json), key ≠ "dependency_ids" →
      (value.toList.map fun found => (key, found)).lookup "dependency_ids" = none := by
    intro key value other
    rw [List.lookup_eq_none_iff]
    simp [other.symm]
  have listed : ∀ (key : String) (items : List String), key ≠ "dependency_ids" →
      (if items.isEmpty then [] else
        [(key, Json.array (items.map .string))]).lookup "dependency_ids" = none := by
    intro key items other
    rw [List.lookup_eq_none_iff]
    split <;> simp [other.symm]
  simp only [arrow, createTaskParams, Option.bind_some, Json.get, List.lookup_append, Option.or]
  rw [listed "requiredInputs" _ (by decide), given "inputs" _ (by decide),
    given "env" _ (by decide), given "apiKeys" _ (by decide),
    given "expectedResult" _ (by decide), listed "imageAttachmentIds" _ (by decide)]
  by_cases noneDeclared : input.dependencyIds = []
  · simp [List.lookup_cons, noneDeclared]
  · simp [List.lookup_cons, noneDeclared, List.isEmpty_iff, Function.comp_def]

/-- What a create request stores under `dependency_ids` is canonical once it is within the
limit. -/
theorem createTaskParams_canonical {input : CreateTaskParamsInput}
    (few : input.dependencyIds.length ≤ TaskDependencyPolicy.max) :
    CanonicalDependencies (some (createTaskParams input)) := by
  rw [CanonicalDependencies, createTaskParams_dependency_ids]
  by_cases noneDeclared : input.dependencyIds = []
  · simp [noneDeclared]
  · exact .inr ⟨input.dependencyIds, few, by simp [noneDeclared]⟩

end Canonical

section Agreement

variable {tasks : Tasks} {organizationId : Uuid} {params : Option Json}
  {parentTaskId : Option Uuid}

theorem prerequisitesReady_of_releaseReady
    (ready : releaseReady tasks organizationId params parentTaskId = true) :
    prerequisitesReady tasks organizationId params parentTaskId = true := by
  simp only [releaseReady, Bool.and_eq_true, dependencyClause_iff] at ready
  refine prerequisitesReady_iff.2 ⟨ready.1, fun id declared => ?_⟩
  obtain ⟨item, member, text, read, parsed⟩ := mem_fromParams declared
  obtain ⟨id', joined, done⟩ := ready.2 item member
  rw [Json.elementText_of_asStr read, Option.some.injEq] at joined
  rw [joined, Uuid.parseStr_toText, Option.some.injEq] at parsed
  rwa [← parsed]

theorem releaseReady_of_prerequisitesReady (canonical : CanonicalDependencies params)
    (ready : prerequisitesReady tasks organizationId params parentTaskId = true) :
    releaseReady tasks organizationId params parentTaskId = true := by
  obtain ⟨parent, done⟩ := prerequisitesReady_iff.1 ready
  simp only [releaseReady, Bool.and_eq_true, dependencyClause_iff]
  refine ⟨parent, fun item member => ?_⟩
  rcases canonical with missing | ⟨ids, few, stored⟩
  · simp [missing, arrayItems] at member
  · rw [fromParams_of_canonical few stored] at done
    simp only [stored, arrayItems, Option.bind_some, Json.asArray, Option.getD_some,
      List.mem_map] at member
    obtain ⟨id, listed, rfl⟩ := member
    exact ⟨id, rfl, done id listed⟩

theorem nextDispatchableReady_iff :
    nextDispatchableReady tasks organizationId params parentTaskId = true ↔
      releaseReady tasks organizationId params parentTaskId = true ∧
        (arrow params "dependency_ids" = none ∨ ∃ items,
          arrow params "dependency_ids" = some (.array items) ∧ items.length ≤ 10) := by
  have shape : ((arrow params "dependency_ids").isNone
        || isArray (arrow params "dependency_ids")) = true ∧
        (arrayItems (arrow params "dependency_ids")).length ≤ 10 ↔
      arrow params "dependency_ids" = none ∨ ∃ items,
        arrow params "dependency_ids" = some (.array items) ∧ items.length ≤ 10 := by
    cases arrow params "dependency_ids" with
    | none => simp [arrayItems]
    | some value => cases value <;> simp [arrayItems, isArray, Json.asArray]
  simp only [nextDispatchableReady, releaseReady, Bool.and_eq_true, decide_eq_true_eq, ← shape]
  tauto

theorem reconcileReady_iff :
    reconcileReady tasks organizationId params parentTaskId = true ↔
      releaseReady tasks organizationId params parentTaskId = true ∧
        (parentTaskId.isSome ∨ arrayItems (arrow params "dependency_ids") ≠ []) := by
  simp only [reconcileReady, releaseReady, declaresPrerequisite, parentClause, Bool.and_eq_true,
    Bool.or_eq_true, decide_eq_true_eq, List.length_pos_iff]
  cases parentTaskId <;> simp <;> tauto

end Agreement

end Forge.ReadinessAgreement
