import Forge.DependencyReadiness

/-! The statements that write `orchestration_tasks`, one definition for each, with the columns
they set and the rows they match. -/

namespace Forge.TaskStatements

open Forge.DependencyReadiness
open Forge.Library.Identifier
open Forge.Library.JsonDocument
open Forge.Library.KeyedTable
open Forge.OrchestrationDomain
open Forge.Schema

/-- An `UPDATE orchestration_tasks`: the rows it matches and the columns it sets. No statement
touches the columns of the insert or the version column, which the trigger counts up. -/
structure TaskUpdate where
  hits : Task → Bool
  set : Task → Task
  keepsSpec : ∀ task, (set task).toTaskSpec = task.toTaskSpec := by intro; rfl
  keepsVersion : ∀ task, (set task).rowVersion = task.rowVersion := by intro; rfl

namespace TaskUpdate

variable (statement : TaskUpdate)

def apply (task : Task) : Task :=
  (statement.set task).bumpRowVersion

@[simp] theorem id_apply (task : Task) : (statement.apply task).id = task.id :=
  congrArg TaskSpec.id (statement.keepsSpec task)

def execute (tasks : Tasks) : Tasks :=
  tasks.update statement.hits statement.apply statement.id_apply

theorem mem_execute {tasks : Tasks} {task : Task} :
    task ∈ statement.execute tasks ↔
      ∃ old ∈ tasks, task = if statement.hits old then statement.apply old else old :=
  @Table.mem_update _ _ _ _ _ _ statement.id_apply _

theorem eq_of_mem_execute {tasks : Tasks} {before after : Task} (was : before ∈ tasks)
    (there : after ∈ statement.execute tasks) (id : after.id = before.id) :
    after = if statement.hits before then statement.apply before else before := by
  obtain ⟨earlier, was', rfl⟩ := statement.mem_execute.1 there
  have one : earlier = before := by
    refine Table.eq_of_key_eq was' was ?_
    rw [← id]
    split <;> simp
  rw [one]

/-- `RETURNING *` of a statement that matches at most one row. -/
def executeOptional (tasks : Tasks) : Option (Tasks × Task) :=
  (tasks.find? statement.hits).map fun task => (statement.execute tasks, statement.apply task)

def executeOne (tasks : Tasks) (absent : AppError) : Except AppError (Tasks × Task) :=
  (statement.executeOptional tasks).elim (.error absent) .ok

theorem executeOptional_some {tasks after : Tasks} {returned : Task}
    (done : statement.executeOptional tasks = some (after, returned)) :
    ∃ task ∈ tasks, statement.hits task = true ∧ after = statement.execute tasks
      ∧ returned = statement.apply task := by
  obtain ⟨task, found, same⟩ := Option.map_eq_some_iff.1 done
  cases same
  exact ⟨task, (Table.mem_of_find? found).1, (Table.mem_of_find? found).2, rfl, rfl⟩

theorem executeOptional_none {tasks : Tasks} (missed : statement.executeOptional tasks = none) :
    ∀ task ∈ tasks, statement.hits task = false :=
  Table.find?_eq_none.1 (Option.map_eq_none_iff.1 missed)

theorem executeOne_ok {tasks after : Tasks} {absent : AppError} {returned : Task}
    (done : statement.executeOne tasks absent = .ok (after, returned)) :
    ∃ task ∈ tasks, statement.hits task = true ∧ after = statement.execute tasks
      ∧ returned = statement.apply task := by
  rw [executeOne] at done
  cases written : statement.executeOptional tasks with
  | none => simp [written] at done
  | some pair =>
      simp only [written, Option.elim_some, Except.ok.injEq] at done
      subst done
      exact statement.executeOptional_some written

end TaskUpdate

/-- `WHERE id = $1 AND organization_id = $2`. -/
def isTask (organizationId id : Uuid) (task : Task) : Bool :=
  task.id == id && task.organizationId == organizationId

@[simp] theorem isTask_iff {organizationId id : Uuid} {task : Task} :
    isTask organizationId id task = true ↔ task.id = id ∧ task.organizationId = organizationId := by
  simp [isTask]

/-- `SET_RESULT_SQL`. -/
def setResultSql (organizationId id : Uuid) (status : TaskStatus) (body : Json)
    (expectedRowVersion : Nat) (now : Timestamp) : TaskUpdate where
  hits task := isTask organizationId id task && task.rowVersion == expectedRowVersion
    && ((status == .completed && (task.status == .working
          || (task.status == .blocked && task.blockedReason == some .waitingVerification)))
      || (status == .failed && task.status == .working))
  set task := { task with
    status
    result := if status = .completed then some body else task.result
    error := if status = .failed then some body else task.error
    progress := if status = .completed then 100 else task.progress
    leaseExpiresAt := none
    retryable := false
    completedAt := if status = .completed then some now else none
    updatedAt := now }

/-- `ASSIGN_TASK_SQL`. -/
def assignTaskSql (organizationId id agentId deliveryId : Uuid) (leaseSecs : Int)
    (now : Timestamp) : TaskUpdate where
  hits task := isTask organizationId id task
  set task := { task with
    assignedAgentId := some agentId
    status := .working
    blockedReason := none
    blockedMetadata := none
    startedAt := some (task.startedAt.getD now)
    attempt := task.attempt + 1
    leaseExpiresAt := some (now + leaseSecs * second)
    lastAssignmentId := some deliveryId
    failureCode := none
    retryable := false
    updatedAt := now }

/-- `MARK_BLOCKED_RETRYABLE_SQL`. -/
def markBlockedRetryableSql (organizationId id : Uuid) (reason : BlockedReason)
    (metadata error : Json) (expectedRowVersion : Nat) (now : Timestamp) : TaskUpdate where
  hits task := isTask organizationId id task && task.status == .working
    && task.rowVersion == expectedRowVersion
  set task := { task with
    status := .blocked
    assignedAgentId := none
    leaseExpiresAt := none
    lastAssignmentId := none
    blockedReason := some reason
    blockedMetadata := some metadata
    error := some error
    failureCode := some reason.text
    retryable := true
    updatedAt := now }

/-- `CANCEL_TASK_SQL`. -/
def cancelTaskSql (organizationId id : Uuid) (expectedRowVersion : Nat) (now : Timestamp) :
    TaskUpdate where
  hits task := isTask organizationId id task && task.rowVersion == expectedRowVersion
    && (task.status != .completed && task.status != .failed)
    && (task.status != .working || task.lastAssignmentId.isNone)
  set task := { task with
    status := .canceled
    leaseExpiresAt := none
    retryable := false
    canceledAt := some now
    updatedAt := now }

/-- The first part of `INVALIDATE_ACTIVE_WORK_FOR_QUARANTINE_SQL`. -/
def invalidateActiveWorkSql (organizationId agentId : Uuid) (now : Timestamp) : TaskUpdate where
  hits task := task.organizationId == organizationId && task.assignedAgentId == some agentId
    && task.status == .working
  set task := { task with
    status := .failed
    error := some (.object [
      ("message", .string "Agent image identity could not be verified; the work was stopped"),
      ("code", .string "agent_image_unverified")])
    failureCode := some "agent_image_unverified"
    retryable := false
    leaseExpiresAt := none
    lastAssignmentId := none
    completedAt := some now
    updatedAt := now }

/-- `mark_blocked_if_unchanged`. -/
def markBlockedIfUnchangedSql (organizationId id : Uuid) (expectedStatus : TaskStatus)
    (expectedRowVersion : Nat) (reason : BlockedReason) (metadata : Json) (now : Timestamp) :
    TaskUpdate where
  hits task := isTask organizationId id task && task.status == expectedStatus
    && task.rowVersion == expectedRowVersion
  set task := { task with
    status := .blocked
    blockedReason := some reason
    blockedMetadata := some metadata
    updatedAt := now }

/-- `approve_waiting_task`. -/
def approveWaitingTaskSql (organizationId id : Uuid) (expectedRowVersion : Nat)
    (approvedBy : Uuid) (nextStatus : TaskStatus) (nextReason : Option BlockedReason)
    (nextMetadata : Option Json) (now : Timestamp) : TaskUpdate where
  hits task := isTask organizationId id task && task.status == .blocked
    && task.blockedReason == some .waitingApproval && task.requiresApproval
    && task.rowVersion == expectedRowVersion
  set task := { task with
    status := nextStatus
    blockedReason := nextReason
    blockedMetadata := nextMetadata
    requiresApproval := false
    approvedAt := some now
    approvedBy := some approvedBy
    updatedAt := now }

def waitsForDependency (task : Task) : Bool :=
  task.status == .blocked && task.blockedReason == some .waitingDependency
    && task.assignedAgentId.isNone && !task.requiresApproval

def releaseTo (status : TaskStatus) (now : Timestamp) (task : Task) : Task :=
  { task with status, blockedReason := none, blockedMetadata := none, updatedAt := now }

/-- `release_waiting_dependency`. -/
def releaseWaitingDependencySql (organizationId id : Uuid) (readyStatus : TaskStatus)
    (now : Timestamp) : TaskUpdate where
  hits task := isTask organizationId id task && waitsForDependency task
  set := releaseTo readyStatus now

/-- `RELEASE_TASK_DEPENDENTS_SQL`, its subqueries on a snapshot of the table. -/
def releaseTaskDependentsSql (snapshot : Tasks) (organizationId completedTaskId : Uuid)
    (now : Timestamp) : TaskUpdate where
  hits task := task.organizationId == organizationId
    && (task.parentTaskId == some completedTaskId
      || (arrow task.params "dependency_ids").any (·.hasKey completedTaskId.toText))
    && waitsForDependency task
    && releaseReady snapshot task.organizationId task.params task.parentTaskId
  set := releaseTo .queued now

/-- `RECONCILE_SQL`. -/
def reconcileSql (snapshot : Tasks) (now : Timestamp) : TaskUpdate where
  hits task := waitsForDependency task
    && reconcileReady snapshot task.organizationId task.params task.parentTaskId
  set := releaseTo .queued now

structure UpdateTaskRow where
  status : Option TaskStatus
  priority : Option String
  progress : Option Int
  assignedAgentId : TaskPatchPolicy.AssignedTo
  expected : Option (TaskStatus × Nat)

/-- `patch`; the service never asks it for the blocked columns. -/
def patchSql (organizationId id : Uuid) (update : UpdateTaskRow) (now : Timestamp) :
    TaskUpdate where
  hits task := isTask organizationId id task
    && update.expected.all fun expected =>
      task.status == expected.1 && task.rowVersion == expected.2
  set task := { task with
    status := update.status.getD task.status
    priority := update.priority.getD task.priority
    progress := update.progress.getD task.progress
    assignedAgentId := update.assignedAgentId.getD task.assignedAgentId
    updatedAt := now }

/-- `retry`. -/
def retrySql (organizationId id : Uuid) (expectedStatus : TaskStatus) (expectedRowVersion : Nat)
    (nextStatus : TaskStatus) (nextReason : Option BlockedReason) (nextMetadata : Option Json)
    (now : Timestamp) : TaskUpdate where
  hits task := isTask organizationId id task && task.status == expectedStatus
    && task.rowVersion == expectedRowVersion
  set task := { task with
    status := nextStatus
    assignedAgentId := none
    leaseExpiresAt := none
    lastAssignmentId := none
    failureCode := none
    retryable := false
    startedAt := none
    completedAt := none
    canceledAt := none
    error := none
    progress := 0
    blockedReason := nextReason
    blockedMetadata := nextMetadata
    updatedAt := now }

/-- The inner SELECT of `retire_stale_tasks`, before its ORDER BY and LIMIT. -/
def isStale (organizationId groupId : Uuid) (olderDays : Int) (now : Timestamp) (task : Task) :
    Bool :=
  task.organizationId == organizationId && task.groupId == some groupId
    && (task.status == .backlog || task.status == .queued) && task.progress == 0
    && decide (task.updatedAt < now - olderDays * 86400 * second)

/-- The outer UPDATE of `retire_stale_tasks`: its own WHERE clause names rows by identifier
only. -/
def retireStaleTasksSql (ids : List Uuid) (now : Timestamp) : TaskUpdate where
  hits task := ids.contains task.id
  set task := { task with
    status := .canceled
    canceledAt := some now
    progress := 0
    updatedAt := now }

/-- `CLAIM_TASK_SQL`; the joins with the route, the agent and the participant come as one
condition on the row. -/
def claimTaskSql (organizationId id agentId deliveryId : Uuid) (leaseSecs : Int)
    (joined : Task → Bool) (now : Timestamp) : TaskUpdate where
  hits task := isTask organizationId id task
    && (task.status == .queued || task.status == .blocked)
    && (task.blockedReason == none || task.blockedReason == some .waitingAgent)
    && task.assignedAgentId.isNone && !task.requiresApproval && joined task
    && (arrayItems (arrow task.params "imageAttachmentIds")).length == 0
  set task := { task with
    assignedAgentId := some agentId
    status := .working
    blockedReason := none
    blockedMetadata := none
    startedAt := some (task.startedAt.getD now)
    attempt := task.attempt + 1
    leaseExpiresAt := some (now + leaseSecs * second)
    lastAssignmentId := some deliveryId
    failureCode := none
    retryable := false
    updatedAt := now }

/-- `EXPIRE_WORKING_LEASES_SQL`, for the agents whose lifecycle locks are held. -/
def expireWorkingLeasesSql (agentIds : List Uuid) (busyOwner : Task → Bool) (now : Timestamp) :
    TaskUpdate where
  hits task := task.status == .working && task.assignedAgentId.all agentIds.contains
    && match task.leaseExpiresAt with
      | some lease => decide (lease < now)
      | none => task.assignedAgentId.isNone || !busyOwner task
  set task := { task with
    status := .failed
    error := some (.object [("message", .string ("assigned agent lease expired or lost its "
        ++ "busy participant before the task completed")), ("code", .string "agent_lost")])
    failureCode := some "agent_lost"
    retryable := false
    leaseExpiresAt := none
    completedAt := some now
    updatedAt := now }

/-- `REAP_BLOCKED_TASKS_SQL`. -/
def reapBlockedTasksSql (ttlSecs : Int) (now : Timestamp) : TaskUpdate where
  hits task := task.status == .blocked && task.blockedReason == some .waitingAgent
    && decide (task.updatedAt < now - ttlSecs * second)
  set task := { task with
    status := .canceled
    failureCode := some "waiting_agent_timeout"
    retryable := false
    updatedAt := now }

def isDelivery (organizationId id deliveryId : Uuid) (attempt : Int) (task : Task) : Bool :=
  isTask organizationId id task && task.status == .working
    && task.lastAssignmentId == some deliveryId && (task.attempt : Int) == attempt

/-- The held write of a result that misses its contract. -/
def holdResultSql (organizationId id deliveryId : Uuid) (attempt : Int) (body : Json)
    (now : Timestamp) : TaskUpdate where
  hits := isDelivery organizationId id deliveryId attempt
  set task := { task with
    status := .blocked
    blockedReason := some .waitingVerification
    result := some body
    assignedAgentId := none
    leaseExpiresAt := none
    updatedAt := now }

/-- The write of a result with its own status. -/
def applyResultSql (organizationId id deliveryId : Uuid) (attempt : Int) (status : TaskStatus)
    (body : Json) (now : Timestamp) : TaskUpdate where
  hits := isDelivery organizationId id deliveryId attempt
  set task := { task with
    status
    result := if status = .completed then some body else task.result
    error := if status = .failed then some body else task.error
    progress := if status = .completed then 100 else task.progress
    leaseExpiresAt := none
    retryable := false
    completedAt := some now
    updatedAt := now }

def touchSql (organizationId id : Uuid) (updatedAt : Option Timestamp) : TaskUpdate where
  hits := isTask organizationId id
  set task := { task with updatedAt := updatedAt.getD task.updatedAt }

/-- The foreign key of a deleted agent: `ON DELETE SET NULL`. -/
def clearAgentSql (agentId : Uuid) : TaskUpdate where
  hits task := task.assignedAgentId == some agentId
  set task := { task with assignedAgentId := none }

end Forge.TaskStatements
