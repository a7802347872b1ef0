import Forge.OrchestrationDomain

/-! When the prerequisites of a task count as finished: the policy of the service layer, and
the clauses of the three statements that dispatch or release a task. -/

namespace Forge.DependencyReadiness

open Forge.Library.Identifier
open Forge.Library.JsonDocument
open Forge.Library.KeyedTable
open Forge.OrchestrationDomain
open Forge.OrchestrationView
open Forge.Schema

abbrev Tasks := Table Task (fun task => task.id)

/-- `find_by_id`, tenant-scoped. -/
def findById (tasks : Tasks) (organizationId id : Uuid) : Except AppError Task :=
  match tasks.find? fun task => task.id == id && task.organizationId == organizationId with
  | some task => .ok task
  | none => .error (OrchestrationRepositoryPolicy.taskNotFound id)

/-- `lock_statuses_in_tx`. -/
def lockStatuses (tasks : Tasks) (organizationId : Uuid) (ids : List Uuid) :
    List (Uuid × String) :=
  (tasks.rows.filter fun task =>
    task.organizationId == organizationId && ids.contains task.id).map
      fun task => (task.id, task.status.text)

/-- The parent's status among the locked rows, `missing` without a row. -/
def lockedParentStatus (statuses : List (Uuid × String)) (parentTaskId : Option Uuid) :
    Option String :=
  parentTaskId.map fun parentId => (statuses.lookup parentId).getD "missing"

def lockedPrerequisites (tasks : Tasks) (organizationId : Uuid) (params : Option Json)
    (parentTaskId : Option Uuid) : List (Uuid × String) :=
  lockStatuses tasks organizationId
    (TaskDependencyPolicy.fromParams params ++ parentTaskId.toList)

def prerequisitesReady (tasks : Tasks) (organizationId : Uuid) (params : Option Json)
    (parentTaskId : Option Uuid) : Bool :=
  let statuses := lockedPrerequisites tasks organizationId params parentTaskId
  !TaskDependencyPolicy.unresolved (TaskDependencyPolicy.fromParams params) statuses
    && !BlockedTaskPolicy.needsDependencyBlock (lockedParentStatus statuses parentTaskId)

/-- `ensure_task_prerequisites_ready_in_tx`. -/
def ensureTaskPrerequisitesReadyInTx (tasks : Tasks) (organizationId : Uuid)
    (params : Option Json) (parentTaskId : Option Uuid) : Except AppError Unit := do
  TaskDependencyPolicy.ensureWithinLimit params
  let statuses := lockedPrerequisites tasks organizationId params parentTaskId
  TaskCreationPolicy.ensureAssignedTaskCanStart
    (BlockedTaskPolicy.missingRequiredInputs params) (lockedParentStatus statuses parentTaskId)
    (TaskDependencyPolicy.unresolved (TaskDependencyPolicy.fromParams params) statuses)

def isCompleted (tasks : Tasks) (organizationId id : Uuid) : Bool :=
  tasks.any fun task =>
    task.id == id && task.organizationId == organizationId && task.status == .completed

/-- `parent_task_id IS NULL OR EXISTS (… parent.status = 'completed')`. -/
def parentClause (tasks : Tasks) (organizationId : Uuid) (parentTaskId : Option Uuid) : Bool :=
  match parentTaskId with
  | none => true
  | some parentId => isCompleted tasks organizationId parentId

def joinedStatuses (tasks : Tasks) (organizationId : Uuid) (declared : Option String) :
    List (Option TaskStatus) :=
  match tasks.rows.filter fun task =>
      task.organizationId == organizationId && some task.id.toText == declared with
  | [] => [none]
  | prerequisites => prerequisites.map fun task => some task.status

/-- `NOT EXISTS (… LEFT JOIN … WHERE prerequisite.status IS DISTINCT FROM 'completed')`. -/
def dependencyClause (tasks : Tasks) (organizationId : Uuid) (params : Option Json) : Bool :=
  (arrayItems (arrow params "dependency_ids")).all fun item =>
    (joinedStatuses tasks organizationId item.elementText).all (· == some .completed)

/-- The prerequisite clauses of `RELEASE_TASK_DEPENDENTS_SQL`. -/
def releaseReady (tasks : Tasks) (organizationId : Uuid) (params : Option Json)
    (parentTaskId : Option Uuid) : Bool :=
  parentClause tasks organizationId parentTaskId && dependencyClause tasks organizationId params

/-- The anchor clause of `RECONCILE_SQL`: the row declares a prerequisite. -/
def declaresPrerequisite (tasks : Tasks) (organizationId : Uuid) (params : Option Json)
    (parentTaskId : Option Uuid) : Bool :=
  parentTaskId.any (isCompleted tasks organizationId)
    || 0 < (arrayItems (arrow params "dependency_ids")).length

/-- The prerequisite clauses of `RECONCILE_SQL`. -/
def reconcileReady (tasks : Tasks) (organizationId : Uuid) (params : Option Json)
    (parentTaskId : Option Uuid) : Bool :=
  declaresPrerequisite tasks organizationId params parentTaskId
    && parentClause tasks organizationId parentTaskId
    && dependencyClause tasks organizationId params

/-- The prerequisite clauses of `NEXT_DISPATCHABLE_SQL`. -/
def nextDispatchableReady (tasks : Tasks) (organizationId : Uuid) (params : Option Json)
    (parentTaskId : Option Uuid) : Bool :=
  parentClause tasks organizationId parentTaskId
    && ((arrow params "dependency_ids").isNone || isArray (arrow params "dependency_ids"))
    && decide ((arrayItems (arrow params "dependency_ids")).length ≤ 10)
    && dependencyClause tasks organizationId params

section Completion

variable {tasks : Tasks} {organizationId : Uuid}

theorem isCompleted_iff {id : Uuid} :
    isCompleted tasks organizationId id = true ↔
      ∃ task ∈ tasks, task.id = id ∧ task.organizationId = organizationId
        ∧ task.status = .completed := by
  simp [isCompleted, and_assoc]

theorem mem_lockStatuses_completed {ids : List Uuid} {id : Uuid} :
    (id, "completed") ∈ lockStatuses tasks organizationId ids ↔
      id ∈ ids ∧ isCompleted tasks organizationId id = true := by
  rw [isCompleted_iff]
  simp only [lockStatuses, List.mem_map, List.mem_filter, Bool.and_eq_true, beq_iff_eq,
    List.contains_eq_mem, decide_eq_true_eq, Prod.mk.injEq, TaskStatus.text_eq_completed]
  constructor
  · rintro ⟨task, ⟨member, org, listed⟩, rfl, done⟩
    exact ⟨listed, task, member, rfl, org, done⟩
  · rintro ⟨listed, task, member, rfl, org, done⟩
    exact ⟨task, ⟨member, org, listed⟩, rfl, done⟩

theorem mem_of_lookup {entries : List (Uuid × String)} {id : Uuid} {status : String}
    (read : entries.lookup id = some status) : (id, status) ∈ entries := by
  obtain ⟨before, after, rfl, -⟩ := List.lookup_eq_some_iff.1 read
  simp

theorem lockedParentStatus_completed {ids : List Uuid} {parentId : Uuid} (listed : parentId ∈ ids) :
    lockedParentStatus (lockStatuses tasks organizationId ids) (some parentId)
        = some "completed" ↔
      isCompleted tasks organizationId parentId = true := by
  have only : ∀ status, (parentId, status) ∈ lockStatuses tasks organizationId ids →
      (lockStatuses tasks organizationId ids).lookup parentId = some status := by
    intro status member
    obtain ⟨found, read⟩ : ∃ found,
        (lockStatuses tasks organizationId ids).lookup parentId = some found := by
      rw [← Option.isSome_iff_exists, List.lookup_isSome_iff]
      exact ⟨_, member, by simp⟩
    have memberFound := mem_of_lookup read
    simp only [lockStatuses, List.mem_map, List.mem_filter, Prod.mk.injEq] at member memberFound
    obtain ⟨task, ⟨there, -⟩, same, rfl⟩ := member
    obtain ⟨task', ⟨there', -⟩, same', rfl⟩ := memberFound
    rw [read, Table.eq_of_key_eq there there' (same.trans same'.symm)]
  rw [← (mem_lockStatuses_completed.trans (and_iff_right listed))]
  constructor
  · intro status
    simp only [lockedParentStatus, Option.map_some, Option.some.injEq] at status
    cases read : (lockStatuses tasks organizationId ids).lookup parentId with
    | none => simp [read] at status
    | some found =>
        have member := mem_of_lookup read
        rw [read, Option.getD_some] at status
        rwa [status] at member
  · intro member
    simp [lockedParentStatus, only _ member]

theorem prerequisitesReady_iff {params : Option Json} {parentTaskId : Option Uuid} :
    prerequisitesReady tasks organizationId params parentTaskId = true ↔
      parentClause tasks organizationId parentTaskId = true ∧
        ∀ id ∈ TaskDependencyPolicy.fromParams params,
          isCompleted tasks organizationId id = true := by
  have dependencies : TaskDependencyPolicy.unresolved (TaskDependencyPolicy.fromParams params)
        (lockedPrerequisites tasks organizationId params parentTaskId) = false ↔
      ∀ id ∈ TaskDependencyPolicy.fromParams params,
        isCompleted tasks organizationId id = true := by
    rw [TaskDependencyPolicy.unresolved_eq_false_iff]
    refine forall₂_congr fun id declared => ?_
    rw [lockedPrerequisites, mem_lockStatuses_completed]
    exact and_iff_right (List.mem_append_left _ declared)
  have parent : BlockedTaskPolicy.needsDependencyBlock
        (lockedParentStatus (lockedPrerequisites tasks organizationId params parentTaskId)
          parentTaskId) = false ↔
      parentClause tasks organizationId parentTaskId = true := by
    rw [BlockedTaskPolicy.needsDependencyBlock_eq_false]
    cases parentTaskId with
    | none => simp [lockedParentStatus, parentClause]
    | some parentId =>
        rw [lockedPrerequisites, lockedParentStatus_completed (by simp)]
        simp [lockedParentStatus, parentClause]
  simp only [prerequisitesReady, Bool.and_eq_true, Bool.not_eq_true', dependencies, parent]
  exact and_comm

theorem prerequisitesReady_mono {tasks' : Tasks}
    (more : ∀ id, isCompleted tasks organizationId id = true →
      isCompleted tasks' organizationId id = true)
    {params : Option Json} {parentTaskId : Option Uuid}
    (ready : prerequisitesReady tasks organizationId params parentTaskId = true) :
    prerequisitesReady tasks' organizationId params parentTaskId = true := by
  obtain ⟨parent, dependencies⟩ := prerequisitesReady_iff.1 ready
  refine prerequisitesReady_iff.2 ⟨?_, fun id declared => more id (dependencies id declared)⟩
  cases parentTaskId with
  | none => rfl
  | some parentId => exact more parentId parent

theorem ensureTaskPrerequisitesReadyInTx_ok {params : Option Json} {parentTaskId : Option Uuid}
    (allowed : ensureTaskPrerequisitesReadyInTx tasks organizationId params parentTaskId
      = .ok ()) :
    prerequisitesReady tasks organizationId params parentTaskId = true := by
  rw [ensureTaskPrerequisitesReadyInTx] at allowed
  cases limit : TaskDependencyPolicy.ensureWithinLimit params with
  | error err => simp [limit, bind, Except.bind] at allowed
  | ok =>
      simp only [limit, bind, Except.bind] at allowed
      obtain ⟨-, parent, dependencies⟩ :=
        TaskCreationPolicy.ensureAssignedTaskCanStart_ok allowed
      have free := BlockedTaskPolicy.needsDependencyBlock_eq_false.2 parent
      simp [prerequisitesReady, dependencies, free]

theorem joinedStatuses_all_completed {declared : Option String} :
    (joinedStatuses tasks organizationId declared).all (· == some .completed) = true ↔
      ∃ id, declared = some id.toText ∧ isCompleted tasks organizationId id = true := by
  simp only [isCompleted_iff, joinedStatuses]
  cases rows : tasks.rows.filter fun task =>
      task.organizationId == organizationId && some task.id.toText == declared with
  | nil =>
      simp only [List.filter_eq_nil_iff, Bool.and_eq_true, beq_iff_eq, not_and] at rows
      refine iff_of_false (by simp) ?_
      rintro ⟨id, rfl, task, member, rfl, org, -⟩
      exact rows task member org rfl
  | cons first rest =>
      have listed : ∀ task, task ∈ first :: rest ↔
          task ∈ tasks ∧ task.organizationId = organizationId
            ∧ some task.id.toText = declared := by
        intro task
        rw [← rows, List.mem_filter]
        simp [Table.mem_iff]
      simp only [List.all_map, List.all_eq_true, Function.comp_apply, beq_iff_eq,
        Option.some.injEq]
      constructor
      · intro done
        obtain ⟨member, org, text⟩ := (listed first).1 List.mem_cons_self
        exact ⟨first.id, text.symm, first, member, rfl, org, done first List.mem_cons_self⟩
      · rintro ⟨id, rfl, task, member, rfl, org, done⟩ other there
        obtain ⟨member', -, text⟩ := (listed other).1 there
        rw [Option.some.injEq, Uuid.toText_inj] at text
        rw [Table.eq_of_key_eq member' member text]
        exact done

theorem dependencyClause_iff {params : Option Json} :
    dependencyClause tasks organizationId params = true ↔
      ∀ item ∈ arrayItems (arrow params "dependency_ids"),
        ∃ id, item.elementText = some id.toText ∧ isCompleted tasks organizationId id = true := by
  rw [dependencyClause, List.all_eq_true]
  exact forall₂_congr fun item _ => joinedStatuses_all_completed

end Completion

end Forge.DependencyReadiness
