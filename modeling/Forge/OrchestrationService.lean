import Forge.ParticipantStatements

/-! The transactions of the orchestration service. What a method reads before its transaction
may be stale: `view` gives the table that the read of an identifier saw. -/

namespace Forge.OrchestrationService

open Forge.DependencyReadiness
open Forge.Library.Identifier
open Forge.Library.JsonDocument
open Forge.OrchestrationDomain
open Forge.OrchestrationView
open Forge.ParticipantStatements
open Forge.Schema
open Forge.TaskStatements

structure Issue where
  deliveryId : Uuid
  taskId : Uuid
  agentId : Uuid
  attempt : Nat
deriving DecidableEq

structure Outcome where
  db : Db
  issue : Option Issue := none

structure Draws where
  deliveryId : Uuid
  runId : Uuid
  materialized : Except AppError Unit

abbrev View := Uuid → Tasks

def dependenciesUnresolved (view : View) (organizationId : Uuid) (dependencies : List Uuid) :
    Bool :=
  if dependencies = [] then false
  else TaskDependencyPolicy.unresolved dependencies (dependencies.map fun id =>
    (id, match findById (view id) organizationId id with
      | .ok dependency => dependency.status.text
      | .error _ => "missing"))

def parentStatus (view : View) (organizationId : Uuid) (parentTaskId : Option Uuid) :
    Except AppError (Option String) :=
  match parentTaskId with
  | none => .ok none
  | some parentId =>
      match findById (view parentId) organizationId parentId with
      | .ok parent => .ok (some parent.status.text)
      | .error err => .error (TaskCreationPolicy.mapParentLookupError parentId err)

def plannedState (view : View) (organizationId : Uuid) (missingInputs : List String)
    (requiresApproval : Bool) (params : Option Json) (parentTaskId : Option Uuid) :
    Except AppError TaskCreationInitialState := do
  let dependencies := TaskDependencyPolicy.fromParams params
  let unresolved := dependenciesUnresolved view organizationId dependencies
  let parent ← parentStatus view organizationId parentTaskId
  return TaskCreationPolicy.initialUnassignedState missingInputs requiresApproval parent
    (if unresolved then dependencies else [])

/-- `CreateTaskRow`, with the identifier the database draws. -/
structure CreateTaskRow where
  id : Uuid
  groupId : Option Uuid
  title : String
  description : Option String
  priority : String
  params : Option Json
  parentTaskId : Option Uuid
  initialStatus : TaskStatus
  initialBlockedReason : Option BlockedReason
  initialBlockedMetadata : Option Json
  requiresApproval : Bool
  selfFix : Bool

/-- The inserted row, with the column defaults. -/
def CreateTaskRow.toTask (row : CreateTaskRow) (organizationId : Uuid) (now : Timestamp) : Task where
  id := row.id
  organizationId
  groupId := row.groupId
  title := row.title
  description := row.description
  params := row.params
  parentTaskId := row.parentTaskId
  selfFix := row.selfFix
  createdAt := now
  status := row.initialStatus
  priority := row.priority
  progress := 0
  assignedAgentId := none
  result := none
  error := none
  blockedReason := row.initialBlockedReason
  blockedMetadata := row.initialBlockedMetadata
  requiresApproval := row.requiresApproval
  approvedAt := none
  approvedBy := none
  attempt := 0
  leaseExpiresAt := none
  failureCode := none
  retryable := false
  lastAssignmentId := none
  startedAt := if row.initialStatus = .working then some now else none
  completedAt := none
  canceledAt := none
  updatedAt := now
  rowVersion := 1

/-- `create_in_tx`; no caller inserts an assigned row. -/
def createInTx (db : Db) (organizationId : Uuid) (row : CreateTaskRow) (now : Timestamp) :
    Except AppError (Db × Task) :=
  let task := row.toTask organizationId now
  match db.tasks.insert? task with
  | some tasks => .ok ({ db with tasks }, task)
  | none => .error (.internal "duplicate key value violates unique constraint")

/-- `SIDECAR_IMAGE_INPUT_CAPABILITY`. -/
def sidecarImageInputCapability : String := "image_input"

/-- `resolve_assignment_images`: fails closed, and marks the row when images were written. -/
def resolveAssignmentImages (db : Db) (organizationId : Uuid) (participant : Participant)
    (task : Task) (materialized : Except AppError Unit) : Except AppError Db :=
  if taskImageAttachmentIds task.params = [] then .ok db
  else if ¬participant.capabilities.contains sidecarImageInputCapability then
    .error sidecarImageInputUnsupported
  else
    let tasks := (touchSql organizationId task.id none).execute db.tasks
    materialized.map fun _ => { db with tasks }

/-- What follows a claim in both assignment transactions: the assignment, its run, its images
and its outbox row. -/
def dispatchClaimed (fingerprint : String → String) (db : Db) (organizationId taskId : Uuid)
    (participant : Participant) (agent : Agent) (draws : Draws) (now : Timestamp) :
    Except AppError Outcome := do
  let (tasks, task) ← (assignTaskSql organizationId taskId participant.agentId draws.deliveryId
    defaultAssignmentLeaseSecs now).executeOne db.tasks
      (OrchestrationRepositoryPolicy.taskNotFound taskId)
  let deliveryId ← task.lastAssignmentId.elim (.error (missingLastAssignmentId task.id)) .ok
  let db ← createForAssignment { db with tasks } organizationId task draws.runId
    deliveryId.toText now
  let db ← resolveAssignmentImages db organizationId participant task draws.materialized
  let assignment ← TaskAssignmentPolicy.build fingerprint task agent.runtimeKind agent.hmacSecret
  let db ← insertAssignmentOutbox db organizationId task.id assignment now
  return { db, issue := some ⟨deliveryId, task.id, participant.agentId, task.attempt⟩ }

/-- `assign_to_participant_with_resolved_context`, for the task as the caller read it. -/
def assignToParticipant (fingerprint : String → String) (db : Db) (organizationId : Uuid)
    (task : Task) (agentId : Uuid) (draws : Draws) (now : Timestamp) : Except AppError Outcome := do
  let (db, participant) ← claimForTask db organizationId task agentId now
  ensureTaskPrerequisitesReadyInTx db.tasks organizationId task.params task.parentTaskId
  let agent ← (agentOf db organizationId agentId).elim (.error (agentNotFound agentId)) .ok
  dispatchClaimed fingerprint db organizationId task.id participant agent draws now

/-- `create_task_with_assignee`. -/
def createTaskWithAssignee (fingerprint : String → String) (db : Db) (organizationId : Uuid)
    (row : CreateTaskRow) (agentId : Uuid) (draws : Draws) (now : Timestamp) :
    Except AppError Outcome := do
  let participant ← findByAgentId db organizationId agentId
  let agent ← (agentOf db organizationId agentId).elim (.error (agentNotFound agentId)) .ok
  ensureAvailable participant.name participant.status
  ensureTaskPrerequisitesReadyInTx db.tasks organizationId row.params row.parentTaskId
  let (db, task) ← createInTx db organizationId { row with
    initialStatus := .queued, initialBlockedReason := none, initialBlockedMetadata := none
    requiresApproval := false, selfFix := false } now
  let (db, participant) ← claimForTask db organizationId task agentId now
  dispatchClaimed fingerprint db organizationId task.id participant agent draws now

/-- The body of `POST /tasks`. -/
structure CreateTaskRequest where
  title : Option String
  description : Option String
  params : Option CreateTaskParamsInput
  priority : Option String
  groupId : Option Uuid
  assignedTo : Option Uuid
  parentTaskId : Option Uuid
  requiresApproval : Bool

/-- `create_task`, up to its release step. -/
def createTask (fingerprint : String → String) (db : Db) (view : View) (scope : TenantScope)
    (request : CreateTaskRequest) (taskId : Uuid) (draws : Draws) (now : Timestamp) :
    Except AppError Outcome := do
  let (title, description, params) :=
    createTaskRequestParts request.title request.description request.params
  TaskTitle.validate title
  let priority ← TaskPriority.validate (request.priority.getD "normal")
  TaskCreationPolicy.ensureApprovalTaskIsUnassigned request.requiresApproval request.assignedTo
  if request.assignedTo.isNone ∧ taskImageAttachmentIds params ≠ [] then
    throw imagesRequireAssignedVisionAgent
  let missingInputs := BlockedTaskPolicy.missingRequiredInputs params
  TaskDependencyPolicy.ensureWithinLimit params
  let row : CreateTaskRow := {
    id := taskId, groupId := request.groupId, title, description, priority, params
    parentTaskId := request.parentTaskId, initialStatus := .backlog
    initialBlockedReason := none, initialBlockedMetadata := none
    requiresApproval := request.requiresApproval, selfFix := false }
  match request.assignedTo with
  | some agentId =>
      let unresolved := dependenciesUnresolved view scope.orgId
        (TaskDependencyPolicy.fromParams params)
      let parent ← parentStatus view scope.orgId request.parentTaskId
      TaskCreationPolicy.ensureAssignedTaskCanStart missingInputs parent unresolved
      createTaskWithAssignee fingerprint db scope.orgId row agentId draws now
  | none =>
      let initial ← plannedState view scope.orgId missingInputs request.requiresApproval params
        request.parentTaskId
      let (db, _) ← createInTx db scope.orgId { row with
        initialStatus := initial.initialStatus
        initialBlockedReason := initial.initialBlockedReason
        initialBlockedMetadata := initial.initialBlockedMetadata } now
      return { db }

/-- The insert of `run_due`, one for each claimed schedule. -/
def createRecurringTask (db : Db) (organizationId : Uuid) (groupId : Uuid)
    (title description priority : String) (requiresApproval : Bool) (taskId : Uuid)
    (now : Timestamp) : Except AppError Outcome := do
  let initial := TaskCreationPolicy.initialUnassignedState [] requiresApproval none []
  let (db, _) ← createInTx db organizationId {
    id := taskId, groupId := some groupId, title, description := some description, priority
    params := none, parentTaskId := none, initialStatus := initial.initialStatus
    initialBlockedReason := initial.initialBlockedReason
    initialBlockedMetadata := initial.initialBlockedMetadata, requiresApproval
    selfFix := false } now
  return { db }

/-- The insert of a maintenance request; `source` is the linkage it stores beside the text. -/
def createMaintenanceTask (db : Db) (organizationId groupId : Uuid) (title brief : String)
    (source : Json) (taskId : Uuid) (now : Timestamp) : Except AppError Outcome := do
  let (db, _) ← createInTx db organizationId {
    id := taskId, groupId := some groupId, title, description := some brief
    priority := "normal"
    params := some (.object [("task", .string title), ("message", .string brief),
      ("maintenanceSource", source)])
    parentTaskId := none, initialStatus := .backlog, initialBlockedReason := none
    initialBlockedMetadata := none, requiresApproval := false, selfFix := true } now
  return { db }

/-- `release_ready_dependency_block`, for the task as the caller read it. -/
def releaseReadyDependencyBlock (db : Db) (view : View) (organizationId : Uuid) (task : Task)
    (readyStatus : TaskStatus) (now : Timestamp) : Except AppError Outcome := do
  if task.status ≠ .blocked ∨ task.blockedReason ≠ some .waitingDependency then return { db }
  TaskDependencyPolicy.ensureWithinLimit task.params
  let parent ← parentStatus view organizationId task.parentTaskId
  let unresolved := BlockedTaskPolicy.needsDependencyBlock parent
    || dependenciesUnresolved view organizationId (TaskDependencyPolicy.fromParams task.params)
  if task.requiresApproval ∨ BlockedTaskPolicy.missingRequiredInputs task.params ≠ []
      ∨ unresolved then
    return { db }
  let tasks :=
    (releaseWaitingDependencySql organizationId task.id readyStatus now).execute db.tasks
  return { db := { db with tasks } }

/-- `ensure_task_prerequisites_ready`, on stale reads. -/
def ensureTaskPrerequisitesReady (view : View) (organizationId : Uuid) (task : Task) :
    Except AppError Unit := do
  TaskDependencyPolicy.ensureWithinLimit task.params
  let parent ← parentStatus view organizationId task.parentTaskId
  TaskCreationPolicy.ensureAssignedTaskCanStart
    (BlockedTaskPolicy.missingRequiredInputs task.params) parent
    (dependenciesUnresolved view organizationId (TaskDependencyPolicy.fromParams task.params))

/-- `find_available`: the best available participant on the task's live route. -/
def findAvailable (db : Db) (organizationId taskId : Uuid) (now : Timestamp) :
    Option Participant := do
  let task ← db.tasks.find? (isTask organizationId taskId)
  let project ← liveProject db.routes task
  let candidates := db.participants.rows.filterMap fun participant => do
    let agent ← agentOf db organizationId participant.agentId
    if participant.organizationId == organizationId && participant.status == .available
        && noInteractiveLease agent now && !hasWorkingTask db.tasks organizationId agent.id
        && hasContainerIdentity agent && agent.workspaceId == project.workspaceId
        && hasCapability participant then
      some (participant, agent)
    else none
  let away := fun (entry : Participant × Agent) => entry.2.projectId != some project.id
  let better := fun (left right : Participant × Agent) =>
    if away left ≠ away right then !away left
    else match left.1.lastHeartbeatAt, right.1.lastHeartbeatAt with
      | some l, some r => decide (r ≤ l)
      | some _, none => true
      | none, _ => right.1.lastHeartbeatAt.isNone
  (selectFirst better candidates).map Prod.fst

/-- `count_by_status`: participants on the task's live route, without stale offline rows. -/
def countByStatus (db : Db) (organizationId taskId : Uuid) (now : Timestamp)
    (status : ParticipantStatus) : Nat :=
  match db.tasks.find? (isTask organizationId taskId) with
  | none => 0
  | some task =>
      db.participants.count fun participant =>
        participant.organizationId == organizationId && participant.status == status
          && hasCapability participant
          && (status != .offline || participant.lastHeartbeatAt.any fun beat =>
            decide (now - 24 * 3600 * second < beat))
          && (agentOf db organizationId participant.agentId).any fun agent =>
            (liveProject db.routes task).any fun project => agent.workspaceId == project.workspaceId

/-- `mark_blocked_if_unchanged` with the waiting-agent hint. -/
def markBlockedWaitingAgent (db : Db) (seen : Db) (organizationId : Uuid) (task : Task)
    (now : Timestamp) : Outcome :=
  let count := countByStatus seen organizationId task.id now
  let tasks := (markBlockedIfUnchangedSql organizationId task.id task.status task.rowVersion
    BlockedTaskPolicy.waitingAgentReason
    (BlockedTaskPolicy.waitingAgentMetadata (count .available) (count .busy) (count .offline))
    now).execute db.tasks
  { db := { db with tasks } }

/-- `try_auto_dispatch`, for the task as the caller read it; `seen` is the database that its
participant queries saw. -/
def tryAutoDispatch (fingerprint : String → String) (db : Db) (view : View) (seen : Db)
    (organizationId : Uuid) (task : Task) (draws : Draws) (now : Timestamp) :
    Except AppError Outcome := do
  if ¬BlockedTaskPolicy.canEnterDispatch task.status task.blockedReason then return { db }
  let parent ← parentStatus view organizationId task.parentTaskId
  if BlockedTaskPolicy.needsDependencyBlock parent
      ∨ dependenciesUnresolved view organizationId (TaskDependencyPolicy.fromParams task.params)
  then return { db }
  if taskImageAttachmentIds task.params ≠ [] then
    return markBlockedWaitingAgent db seen organizationId task now
  match findAvailable seen organizationId task.id now with
  | some participant =>
      assignToParticipant fingerprint db organizationId task participant.agentId draws now
  | none => return markBlockedWaitingAgent db seen organizationId task now

/-- `dispatch_task`. -/
def dispatchTask (fingerprint : String → String) (db : Db) (view : View) (seen : Db)
    (organizationId taskId : Uuid) (draws : Draws) (now : Timestamp) :
    Except AppError Outcome := do
  let task ← findById (view taskId) organizationId taskId
  BlockedTaskPolicy.ensureOperatorCanDispatch task.status task.blockedReason
  ensureTaskPrerequisitesReady view organizationId task
  match findAvailable seen organizationId task.id now with
  | some participant =>
      assignToParticipant fingerprint db organizationId task participant.agentId draws now
  | none => throw BlockedTaskPolicy.noAvailableParticipantsError

/-- `assign_existing_task_to_participant`, and its sibling with a previewed context. -/
def assignExistingTaskToParticipant (fingerprint : String → String) (db : Db) (view : View)
    (seen : Db) (organizationId taskId agentId : Uuid) (draws : Draws) (now : Timestamp) :
    Except AppError Outcome := do
  let task ← findById (view taskId) organizationId taskId
  BlockedTaskPolicy.ensureOperatorCanDispatch task.status task.blockedReason
  ensureTaskPrerequisitesReady view organizationId task
  let participant ← findByAgentId seen organizationId agentId
  ensureAvailable participant.name participant.status
  assignToParticipant fingerprint db organizationId task participant.agentId draws now

end Forge.OrchestrationService
