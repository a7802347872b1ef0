import Forge.TaskStatements

/-! Admission of an agent, the live route of a task, and the statements on participants, runs
and the outbox. -/

namespace Forge.ParticipantStatements

open Forge.DependencyReadiness
open Forge.Library.Identifier
open Forge.Library.KeyedTable
open Forge.Library.Text
open Forge.OrchestrationDomain
open Forge.Schema
open Forge.TaskStatements

/-- `DEFAULT_ASSIGNMENT_LEASE_SECS`. -/
def defaultAssignmentLeaseSecs : Int := 900

def hasWorkingTask (tasks : Tasks) (organizationId agentId : Uuid) : Bool :=
  tasks.any fun task => task.organizationId == organizationId
    && task.assignedAgentId == some agentId && task.status == .working

theorem hasWorkingTask_iff {tasks : Tasks} {organizationId agentId : Uuid} :
    hasWorkingTask tasks organizationId agentId = true ↔
      ∃ task ∈ tasks, task.organizationId = organizationId
        ∧ task.assignedAgentId = some agentId ∧ task.status = .working := by
  simp [hasWorkingTask, and_assoc]

theorem hasWorkingTask_eq_false_iff {tasks : Tasks} {organizationId agentId : Uuid} :
    hasWorkingTask tasks organizationId agentId = false ↔
      ∀ task ∈ tasks, task.organizationId = organizationId →
        task.assignedAgentId = some agentId → task.status ≠ .working := by
  rw [← Bool.not_eq_true, hasWorkingTask_iff]
  push Not
  rfl

def hasContainerIdentity (agent : Agent) : Bool :=
  agent.runtimeKind != .container
    || (agent.containerId.isSome && agent.containerImageIdentity.isSome)

def noInteractiveLease (agent : Agent) (now : Timestamp) : Bool :=
  agent.interactiveLeaseExpiresAt.all fun lease => decide (lease ≤ now)

/-- `btrim(capability) <> ''` for some capability. -/
def hasCapability (participant : Participant) : Bool :=
  participant.capabilities.any fun capability =>
    !(strip (· == ' ') capability.toList).isEmpty

def agentOf (db : Db) (organizationId agentId : Uuid) : Option Agent :=
  db.agents.find? fun agent => agent.id == agentId && agent.organizationId == organizationId

def participantOf (db : Db) (organizationId agentId : Uuid) : Option Participant :=
  db.participants.find? fun participant =>
    participant.agentId == agentId && participant.organizationId == organizationId

/-- `agent_work_admission_is_idle_in_tx`. -/
def agentWorkAdmissionIsIdle (db : Db) (organizationId agentId : Uuid) (now : Timestamp) :
    Option Bool :=
  (agentOf db organizationId agentId).map fun agent =>
    noInteractiveLease agent now
      && !(db.participants.any fun participant => participant.organizationId == organizationId
        && participant.agentId == agentId && participant.status == .busy)
      && !hasWorkingTask db.tasks organizationId agentId

def liveProject (routes : Routes) (task : Task) : Option Project := do
  let groupId ← task.groupId
  let group ← routes.groups.find? fun group => group.id == groupId
    && group.organizationId == task.organizationId && group.deletedAt.isNone
  let project ← routes.projects.find? fun project => project.id == group.projectId
    && project.organizationId == task.organizationId && project.deletedAt.isNone
  let _ ← routes.workspaces.find? fun workspace => workspace.id == project.workspaceId
    && workspace.organizationId == task.organizationId && workspace.deletedAt.isNone
  return project

/-- `find_by_agent_id_in_tx`. -/
def findByAgentId (db : Db) (organizationId agentId : Uuid) : Except AppError Participant :=
  match participantOf db organizationId agentId, agentOf db organizationId agentId with
  | some participant, some agent =>
      if hasContainerIdentity agent then .ok participant
      else .error (OrchestrationRepositoryPolicy.participantNotFound agentId)
  | _, _ => .error (OrchestrationRepositoryPolicy.participantNotFound agentId)

/-- `UPDATE participants SET status = … WHERE …`. -/
def setParticipants (db : Db) (hits : Participant → Bool)
    (set : Participant → ParticipantStatus × Option Timestamp) : Db :=
  let participants := db.participants.update hits
    (fun participant => { participant with
      status := (set participant).1, lastHeartbeatAt := (set participant).2 })
    fun _ => rfl
  { db with participants }

theorem mem_setParticipants {db : Db} {hits : Participant → Bool}
    {set : Participant → ParticipantStatus × Option Timestamp} {participant : Participant} :
    participant ∈ (setParticipants db hits set).participants ↔
      ∃ old ∈ db.participants, participant = if hits old then
        { old with status := (set old).1, lastHeartbeatAt := (set old).2 } else old :=
  @Table.mem_update _ _ _ _ _ _ (by intro; rfl) _

def isParticipant (organizationId agentId : Uuid) (participant : Participant) : Bool :=
  participant.agentId == agentId && participant.organizationId == organizationId

/-- `claim_for_task_in_tx`: reserve the participant for the task as the caller read it. -/
def claimForTask (db : Db) (organizationId : Uuid) (expectedTask : Task) (agentId : Uuid)
    (now : Timestamp) : Except AppError (Db × Participant) :=
  let absent := OrchestrationRepositoryPolicy.participantNotFound agentId
  if agentWorkAdmissionIsIdle db organizationId agentId now ≠ some true then .error absent
  else
    let lockedTask := db.tasks.find? fun task => isTask organizationId expectedTask.id task
      && task.status == expectedTask.status && task.blockedReason == expectedTask.blockedReason
      && task.assignedAgentId == expectedTask.assignedAgentId
      && task.rowVersion == expectedTask.rowVersion
    match participantOf db organizationId agentId, agentOf db organizationId agentId,
        lockedTask with
    | some participant, some agent, some task =>
        if hasContainerIdentity agent && participant.status == .available
            && (liveProject db.routes task).any (fun project =>
              agent.workspaceId == project.workspaceId)
            && hasCapability participant then
          .ok (setParticipants db (isParticipant organizationId agentId)
              fun p => (.busy, p.lastHeartbeatAt),
            { participant with status := .busy })
        else .error absent
    | _, _, _ => .error absent

/-- The run of an assignment; the key of a run that exists keeps its row. -/
def createForAssignment (db : Db) (organizationId : Uuid) (task : Task) (runId : Uuid)
    (idempotencyKey : String) (now : Timestamp) : Except AppError Db :=
  match task.assignedAgentId with
  | none => .error (OrchestrationRepositoryPolicy.missingAssignedAgentForTaskRun task.id)
  | some agentId =>
      match agentOf db organizationId agentId with
      | none => .error (OrchestrationRepositoryPolicy.taskRunAgentNotFound agentId)
      | some agent =>
          if !hasContainerIdentity agent then
            .error (OrchestrationRepositoryPolicy.taskRunAgentNotFound agentId)
          else if db.runs.any fun run => run.orchestrationTaskId == task.id
              && run.idempotencyKey == idempotencyKey then
            let runs := db.runs.update
              (fun run => run.orchestrationTaskId == task.id
                && run.idempotencyKey == idempotencyKey)
              (fun run => { run with
                status := if run.finishedAt.isNone then .working else run.status
                updatedAt := now })
              fun _ => rfl
            .ok { db with runs }
          else
            match db.runs.insert? {
                id := runId, organizationId, workspaceId := agent.workspaceId
                orchestrationTaskId := task.id, agentId, idempotencyKey, status := .working
                startedAt := task.startedAt.getD now, finishedAt := none
                createdAt := now, updatedAt := now } with
            | some runs => .ok { db with runs }
            | none => .error (.internal "duplicate key value violates unique constraint")

def closeRuns (db : Db) (hits : TaskRun → Bool) (status : RunStatus) (now : Timestamp) : Db :=
  let runs := db.runs.update (fun run => hits run && run.finishedAt.isNone)
    (fun run => { run with
      status, finishedAt := some (run.finishedAt.getD now), updatedAt := now })
    fun _ => rfl
  { db with runs }

theorem mem_closeRuns {db : Db} {hits : TaskRun → Bool} {status : RunStatus} {now : Timestamp}
    {run : TaskRun} :
    run ∈ (closeRuns db hits status now).runs ↔
      ∃ old ∈ db.runs, run = if hits old && old.finishedAt.isNone then
        { old with status, finishedAt := some (old.finishedAt.getD now), updatedAt := now }
        else old :=
  @Table.mem_update _ _ _ _ _ _ (by intro; rfl) _

/-- `ORDER BY started_at DESC, created_at DESC, id DESC`. -/
def laterRun (left right : TaskRun) : Bool :=
  if left.startedAt ≠ right.startedAt then decide (right.startedAt < left.startedAt)
  else if left.createdAt ≠ right.createdAt then decide (right.createdAt < left.createdAt)
  else decide (right.id.value ≤ left.id.value)

/-- The first row in an order, `ORDER BY … LIMIT 1`. -/
def selectFirst {α : Type} (before : α → α → Bool) : List α → Option α
  | [] => none
  | row :: rest =>
      match selectFirst before rest with
      | none => some row
      | some best => some (if before row best then row else best)

theorem mem_of_selectFirst {α : Type} {before : α → α → Bool} {rows : List α} {first : α}
    (selected : selectFirst before rows = some first) : first ∈ rows := by
  induction rows generalizing first with
  | nil => simp [selectFirst] at selected
  | cons row rest ih =>
      rw [selectFirst] at selected
      split at selected
      case h_1 => cases selected; exact List.mem_cons_self
      case h_2 best found =>
          by_cases earlier : before row best = true
          · simp [earlier] at selected
            simp [selected]
          · simp [earlier] at selected
            exact List.mem_cons_of_mem _ (ih (selected ▸ found))

/-- `finish_current_in_tx`: close the latest unfinished run of the task. -/
def finishCurrent (db : Db) (organizationId taskId : Uuid) (status : RunStatus)
    (now : Timestamp) : Db :=
  let open_ := db.runs.rows.filter fun run => run.organizationId == organizationId
    && run.orchestrationTaskId == taskId && run.finishedAt.isNone
  match selectFirst laterRun open_ with
  | some current => closeRuns db (fun run => run.id == current.id) status now
  | none => db

/-- `insert_assignment_outbox_in_tx`. -/
def insertAssignmentOutbox (db : Db) (organizationId taskId : Uuid) (assignment : TaskAssignment)
    (now : Timestamp) : Except AppError Db :=
  match assignment.deliveryId with
  | none => .error (.internal "assignment missing delivery_id")
  | some deliveryId =>
      match db.outbox.insert? {
          id := deliveryId, organizationId, aggregateId := taskId, payload := assignment
          publishedAt := none, createdAt := now } with
      | some outbox => .ok { db with outbox }
      | none => .error (.internal "insert orchestration assignment outbox row")

end Forge.ParticipantStatements
