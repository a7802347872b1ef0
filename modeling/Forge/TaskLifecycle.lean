import Forge.OrchestrationService

/-! The transactions that end, retry, approve, patch or retire a task, the quarantine of an
agent's work, and the participant operations of the API. -/

namespace Forge.TaskLifecycle

open Forge.DependencyReadiness
open Forge.Library.Identifier
open Forge.Library.JsonDocument
open Forge.OrchestrationDomain
open Forge.OrchestrationService
open Forge.OrchestrationView
open Forge.ParticipantStatements
open Forge.Schema
open Forge.TaskStatements

/-- `release_task_dependents_in_tx`; `missed` are dependents that the statement's snapshot does
not show as ready yet, because another prerequisite commits concurrently. -/
def releaseTaskDependents (db : Db) (organizationId completedTaskId : Uuid) (missed : List Uuid)
    (now : Timestamp) : Db :=
  let sql := releaseTaskDependentsSql db.tasks organizationId completedTaskId now
  let shown : TaskUpdate := { sql with
    hits := fun task => sql.hits task && !missed.contains task.id }
  let tasks := shown.execute db.tasks
  { db with tasks }

/-- `complete_task`, up to the release of the participant. -/
def completeTask (db : Db) (view : View) (organizationId taskId : Uuid) (result : Json)
    (missed : List Uuid) (now : Timestamp) : Except AppError Outcome := do
  let task ← findById (view taskId) organizationId taskId
  TaskLifecyclePolicy.ensureNoActiveDelivery task.status task.lastAssignmentId
  TaskLifecyclePolicy.ensureCanComplete task.status task.blockedReason
  let (tasks, _) ← (setResultSql organizationId taskId .completed result task.rowVersion
    now).executeOne db.tasks OrchestrationRepositoryPolicy.resultConflict
  let db := finishCurrent { db with tasks } organizationId taskId .completed now
  return { db := releaseTaskDependents db organizationId taskId missed now }

/-- `fail_task`, up to the release of the participant; a provider limit blocks the task. -/
def failTask (db : Db) (view : View) (organizationId taskId : Uuid) (error : Json)
    (now : Timestamp) : Except AppError Outcome := do
  let task ← findById (view taskId) organizationId taskId
  TaskLifecyclePolicy.ensureNoActiveDelivery task.status task.lastAssignmentId
  TaskLifecyclePolicy.ensureCanFail task.status
  match QuotaBlockPolicy.metadata error with
  | some metadata =>
      let (tasks, _) ← (markBlockedRetryableSql organizationId taskId .quotaExceeded metadata
        error task.rowVersion now).executeOne db.tasks
          OrchestrationRepositoryPolicy.quotaBlockConflict
      return { db := finishCurrent { db with tasks } organizationId taskId .failed now }
  | none =>
      let (tasks, _) ← (setResultSql organizationId taskId .failed error task.rowVersion
        now).executeOne db.tasks OrchestrationRepositoryPolicy.resultConflict
      return { db := finishCurrent { db with tasks } organizationId taskId .failed now }

/-- `cancel_task`, up to the release of the participant. -/
def cancelTask (db : Db) (view : View) (organizationId taskId : Uuid) (now : Timestamp) :
    Except AppError Outcome := do
  let task ← findById (view taskId) organizationId taskId
  TaskLifecyclePolicy.ensureCanCancel task.status
  let (tasks, _) ← (cancelTaskSql organizationId taskId task.rowVersion now).executeOne db.tasks
    OrchestrationRepositoryPolicy.cancelConflict
  return { db := finishCurrent { db with tasks } organizationId taskId .canceled now }

/-- `retry_task`, up to its release and dispatch steps. -/
def retryTask (db : Db) (view : View) (organizationId taskId : Uuid) (now : Timestamp) :
    Except AppError Outcome := do
  let task ← findById (view taskId) organizationId taskId
  TaskLifecyclePolicy.ensureCanRetry task.status task.blockedReason task.requiresApproval
    task.retryable
  TaskDependencyPolicy.ensureWithinLimit task.params
  let initial ← plannedState view organizationId
    (BlockedTaskPolicy.missingRequiredInputs task.params) task.requiresApproval task.params
    task.parentTaskId
  let (tasks, _) ← (retrySql organizationId taskId task.status task.rowVersion
    initial.initialStatus initial.initialBlockedReason initial.initialBlockedMetadata
    now).executeOne db.tasks OrchestrationRepositoryPolicy.retryConflict
  return { db := { db with tasks } }

/-- `approve_task`, up to its release and dispatch steps. -/
def approveTask (db : Db) (view : View) (scope : TenantScope) (taskId : Uuid)
    (now : Timestamp) : Except AppError Outcome := do
  let task ← findById (view taskId) scope.orgId taskId
  TaskLifecyclePolicy.ensureCanApprove task.status task.blockedReason task.requiresApproval
  TaskDependencyPolicy.ensureWithinLimit task.params
  let release ← plannedState view scope.orgId [] false task.params task.parentTaskId
  let nextStatus :=
    if release.initialStatus = .backlog then .queued else release.initialStatus
  let (tasks, _) ← (approveWaitingTaskSql scope.orgId taskId task.rowVersion scope.userId
    nextStatus release.initialBlockedReason release.initialBlockedMetadata now).executeOne
      db.tasks OrchestrationRepositoryPolicy.approvalConflict
  return { db := { db with tasks } }

/-- The body of `PATCH /tasks/:id`. -/
structure PatchTaskRequest where
  state : Option String
  priority : Option String
  progress : Option Int
  assignedTo : TaskPatchPolicy.AssignedTo

def patchState (state : Option String) : Except AppError (Option TaskStatus) :=
  match state with
  | none => .ok none
  | some raw => (TaskStatusPolicy.validatePatchState raw).map some

def validatePatchPriority (priority : Option String) : Except AppError Unit :=
  match priority with
  | none => .ok ()
  | some value => (TaskPriority.validate value).map fun _ => ()

def currentForGuard (view : View) (organizationId taskId : Uuid) (state : Option TaskStatus)
    (assignedTo : TaskPatchPolicy.AssignedTo) : Except AppError (Option Task) :=
  if TaskPatchPolicy.requiresCurrentTask state assignedTo then do
    let current ← findById (view taskId) organizationId taskId
    TaskPatchPolicy.ensureCurrentAllowsTransition current.status current.blockedReason state
    return some current
  else .ok none

def updateTaskRow (state : Option TaskStatus) (request : PatchTaskRequest)
    (current : Option Task) : UpdateTaskRow where
  status := state
  priority := request.priority
  progress := request.progress
  assignedAgentId := request.assignedTo
  expected := current.map fun task => (task.status, task.rowVersion)

def writePatch (db : Db) (organizationId taskId : Uuid) (state : Option TaskStatus)
    (request : PatchTaskRequest) (current : Option Task) (now : Timestamp) :
    Except AppError Outcome := do
  let absent :=
    if current.isSome then OrchestrationRepositoryPolicy.patchConflict
    else OrchestrationRepositoryPolicy.taskNotFound taskId
  let (tasks, _) ← (patchSql organizationId taskId (updateTaskRow state request current)
    now).executeOne db.tasks absent
  return { db := { db with tasks } }

/-- `update_task`, up to its dispatch step. A transition with a method of its own is handed to
that method, which reads the task again under `later`. -/
def updateTask (fingerprint : String → String) (db : Db) (view later : View) (seen : Db)
    (organizationId taskId : Uuid) (request : PatchTaskRequest) (missed : List Uuid)
    (draws : Draws) (now : Timestamp) : Except AppError Outcome := do
  let state ← patchState request.state
  validatePatchPriority request.priority
  TaskPatchPolicy.validateProgress request.progress
  let current ← currentForGuard view organizationId taskId state request.assignedTo
  match ← TaskPatchPolicy.plan state request.priority request.progress request.assignedTo with
  | .assignToParticipant agentId =>
      assignExistingTaskToParticipant fingerprint db later seen organizationId taskId agentId
        draws now
  | .dispatch => dispatchTask fingerprint db later seen organizationId taskId draws now
  | .complete =>
      completeTask db later organizationId taskId TaskPatchPolicy.manualCompleteResult missed now
  | .fail => failTask db later organizationId taskId TaskPatchPolicy.manualFailureError now
  | .cancel => cancelTask db later organizationId taskId now
  | .unassign =>
      match current with
      | some task =>
          TaskPatchPolicy.ensureCanUnassign task.status
          writePatch db organizationId taskId state request current now
      | none => throw (.internal "assignment guard should have loaded current task")
  | .patch => writePatch db organizationId taskId state request current now

/-- The inner SELECT of `retire_stale_tasks`: the oldest stale rows, at most a batch. -/
def staleTaskIds (snapshot : Tasks) (organizationId groupId : Uuid) (days batch : Int)
    (now : Timestamp) : List Uuid :=
  let stale := snapshot.rows.filter (isStale organizationId groupId days now)
  let oldestFirst := stale.insertionSort fun left right => left.updatedAt ≤ right.updatedAt
  (oldestFirst.take batch.toNat).map fun task => task.id

/-- `retire_stale_tasks`: the inner SELECT reads one snapshot, the outer UPDATE writes the
newest version of the rows it names. -/
def retireStaleTasks (db : Db) (snapshot : Tasks) (organizationId groupId : Uuid)
    (olderThanDays batchLimit : Option Int) (now : Timestamp) : Except AppError Outcome := do
  let (days, batch) ← TaskRetirePolicy.validate olderThanDays batchLimit
  let ids := staleTaskIds snapshot organizationId groupId days batch now
  let tasks := (retireStaleTasksSql ids now).execute db.tasks
  return { db := { db with tasks } }

/-- `INVALIDATE_ACTIVE_WORK_FOR_QUARANTINE_SQL`. -/
def invalidateActiveWorkForQuarantine (db : Db) (organizationId agentId : Uuid)
    (now : Timestamp) : Outcome :=
  let sql := invalidateActiveWorkSql organizationId agentId now
  let failed := fun (taskId : Uuid) => db.tasks.any fun task => task.id == taskId && sql.hits task
  let closed := closeRuns db (fun run => run.organizationId == organizationId
    && run.agentId == agentId && failed run.orchestrationTaskId) .failed now
  let tasks := sql.execute db.tasks
  let outbox := db.outbox.deleteWhere fun row => row.organizationId == organizationId
    && row.publishedAt.isNone && failed row.aggregateId
  { db := { closed with tasks, outbox } }

def ownershipStatus (db : Db) (organizationId agentId : Uuid) : ParticipantStatus :=
  if hasWorkingTask db.tasks organizationId agentId then .busy else .available

/-- `release_if_idle`. -/
def releaseIfIdle (db : Db) (organizationId agentId : Uuid) : Except AppError Outcome := do
  let _ ← findByAgentId db organizationId agentId
  let released := setParticipants db
    (fun p => isParticipant organizationId agentId p
      && !hasWorkingTask db.tasks p.organizationId p.agentId)
    fun p => (if p.status = .offline then .offline else .available, p.lastHeartbeatAt)
  return { db := released }

/-- `register`: an insert or a rename, then the status that ownership gives. -/
def registerParticipant (db : Db) (organizationId agentId : Uuid) (name : String)
    (capabilities : List String) : Except AppError Outcome := do
  ParticipantName.validate name
  let _ ← (agentOf db organizationId agentId).elim (.error (agentNotFound agentId)) .ok
  let status := ownershipStatus db organizationId agentId
  match participantOf db organizationId agentId with
  | some _ =>
      let participants := db.participants.update (isParticipant organizationId agentId)
        (fun p => { p with name, capabilities, status }) fun _ => rfl
      return { db := { db with participants } }
  | none =>
      match db.participants.insert? {
          organizationId, agentId, name, capabilities, status, lastHeartbeatAt := none } with
      | some participants => return { db := { db with participants } }
      | none => throw (.internal "duplicate key value violates unique constraint")

/-- `heartbeat` of the API. -/
def participantHeartbeat (db : Db) (organizationId agentId : Uuid) (now : Timestamp) :
    Except AppError Outcome := do
  let _ ← findByAgentId db organizationId agentId
  let beaten := setParticipants db (isParticipant organizationId agentId) fun p =>
    (if hasWorkingTask db.tasks p.organizationId p.agentId then .busy
      else if p.status = .offline then .available else p.status, some now)
  return { db := beaten }

/-- `update_status`, called with `offline` only. -/
def markParticipantOffline (db : Db) (organizationId agentId : Uuid) : Except AppError Outcome :=
  match participantOf db organizationId agentId with
  | some _ =>
      let offline := setParticipants db (isParticipant organizationId agentId)
        fun p => (.offline, p.lastHeartbeatAt)
      .ok { db := offline }
  | none => .error (OrchestrationRepositoryPolicy.participantNotFound agentId)

/-- `unregister`. -/
def unregisterParticipant (db : Db) (organizationId agentId : Uuid) : Except AppError Outcome :=
  match participantOf db organizationId agentId with
  | some _ =>
      let participants := db.participants.deleteWhere (isParticipant organizationId agentId)
      .ok { db := { db with participants } }
  | none => .error (OrchestrationRepositoryPolicy.participantNotFound agentId)

end Forge.TaskLifecycle
