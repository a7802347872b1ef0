import Forge.TaskLifecycle
import Forge.InputAgreement

/-! The transactions of the jobs crate on participants and leases: heartbeats, offline sweeps,
lease expiry, orphan reconciliation and the idle self-claim. -/

namespace Forge.ParticipantLiveness

open Forge.DependencyReadiness
open Forge.InputAgreement
open Forge.Library.Identifier
open Forge.Library.JsonDocument
open Forge.OrchestrationDomain
open Forge.OrchestrationService
open Forge.OrchestrationView
open Forge.ParticipantStatements
open Forge.Schema
open Forge.TaskLifecycle
open Forge.TaskStatements

/-- `COALESCE(NULLIF(agent.name, ''), 'agent-' || LEFT(agent.id::text, 8))`. -/
def participantName (agent : Agent) : String :=
  if agent.name = "" then "agent-" ++ String.ofList (agent.id.toText.toList.take 8)
  else agent.name

/-- A sidecar heartbeat: `TOUCH_PARTICIPANT_SQL`, then `INSERT_PARTICIPANT_SQL` on a miss. -/
def sidecarHeartbeat (db : Db) (agentId : Uuid) (capabilities : List String) (now : Timestamp) :
    Except AppError Outcome :=
  match db.agents.find? fun agent => agent.id == agentId with
  | none => .ok { db }
  | some agent =>
      if db.participants.any fun p => p.agentId == agentId then
        let participants := db.participants.update (fun p => p.agentId == agentId)
          (fun p => { p with
            capabilities, name := participantName agent, lastHeartbeatAt := some now
            status :=
              if p.status = .offline then ownershipStatus db p.organizationId p.agentId
              else p.status })
          fun _ => rfl
        .ok { db := { db with participants } }
      else
        match db.participants.insert? {
            organizationId := agent.organizationId, agentId, name := participantName agent
            capabilities, status := ownershipStatus db agent.organizationId agentId
            lastHeartbeatAt := some now } with
        | some participants => .ok { db := { db with participants } }
        | none => .error (.internal "duplicate key value violates unique constraint")

/-- `MARK_STALE_OFFLINE_SQL`. -/
def markStaleOffline (db : Db) (staleAfterSecs : Int) (now : Timestamp) : Outcome :=
  let offline := setParticipants db
    (fun p => p.status != .offline && p.lastHeartbeatAt.all fun beat =>
      decide (beat < now - staleAfterSecs * second))
    fun p => (.offline, p.lastHeartbeatAt)
  { db := offline }

/-- `MARK_OFFLINE_BY_AGENT_IDS_SQL`. -/
def markOfflineByAgentIds (db : Db) (agentIds : List Uuid) : Outcome :=
  let offline := setParticipants db
    (fun p => p.status != .offline && agentIds.contains p.agentId)
    fun p => (.offline, p.lastHeartbeatAt)
  { db := offline }

/-- `reconcile_orphaned_busy_rows`: the candidates, and the recheck before the release. -/
def reconcileOrphanedBusy (db : Db) : Outcome :=
  let orphaned := fun (p : Participant) =>
    p.status == .busy && !hasWorkingTask db.tasks p.organizationId p.agentId
  let candidates := (db.participants.rows.filter fun p =>
    (agentOf db p.organizationId p.agentId).isSome && orphaned p).map Participant.key
  let released := setParticipants db (fun p => candidates.contains p.key && orphaned p)
    fun p => (.available, p.lastHeartbeatAt)
  { db := released }

/-- `RELEASE_PARTICIPANT_AFTER_LEASE_EXPIRY_SQL`, for every owner of an expired task. -/
def releaseAfterLeaseExpiry (db : Db) (owners : List (Uuid × Uuid)) (staleAfterSecs : Int)
    (now : Timestamp) : Db :=
  setParticipants db (fun p => owners.contains p.key) fun p =>
    (if p.status = .offline then .offline
      else if hasWorkingTask db.tasks p.organizationId p.agentId then .busy
      else if p.lastHeartbeatAt.all fun beat => beat < now - staleAfterSecs * second then .offline
      else .available,
    p.lastHeartbeatAt)

/-- `expire_working_leases`. -/
def expireWorkingLeases (db : Db) (staleAfterSecs : Int) (now : Timestamp) : Outcome :=
  let agentIds := (db.tasks.rows.filter fun task => task.status == .working).filterMap
    fun task => task.assignedAgentId
  let busyOwner := fun (task : Task) => db.participants.any fun p =>
    p.organizationId == task.organizationId && some p.agentId == task.assignedAgentId
      && p.status == .busy
  let sql := expireWorkingLeasesSql agentIds busyOwner now
  let expired := db.tasks.rows.filter sql.hits
  let tasks := sql.execute db.tasks
  let closed := closeRuns { db with tasks }
    (fun run => (expired.map fun task => task.id).contains run.orchestrationTaskId) .failed now
  let owners := expired.filterMap fun task =>
    task.assignedAgentId.map fun agentId => (task.organizationId, agentId)
  { db := releaseAfterLeaseExpiry closed owners staleAfterSecs now }

/-- `CASE task.priority WHEN 'urgent' THEN 0 …`. -/
def priorityRank (priority : String) : Nat :=
  if priority = "urgent" then 0
  else if priority = "high" then 1
  else if priority = "normal" then 2
  else if priority = "low" then 3
  else 4

/-- The conditions of `NEXT_DISPATCHABLE_SQL` on a task, for one participant and its agent. -/
def isNextDispatchable (db : Db) (participant : Participant) (agent : Agent) (task : Task) : Bool :=
  task.organizationId == participant.organizationId
    && (liveProject db.routes task).any (fun project => agent.workspaceId == project.workspaceId)
    && (task.status == .queued || task.status == .blocked)
    && (task.blockedReason == none || task.blockedReason == some .waitingAgent)
    && task.assignedAgentId.isNone && !task.requiresApproval
    && nextDispatchableReady db.tasks task.organizationId task.params task.parentTaskId
    && requiredInputsClause task.params
    && participant.status == .available && hasCapability participant
    && (arrayItems (arrow task.params "imageAttachmentIds")).length == 0

def dispatchedBefore (db : Db) (agent : Agent) (left right : Task) : Bool :=
  let away := fun (task : Task) =>
    (liveProject db.routes task).all fun project => agent.projectId != some project.id
  if away left ≠ away right then !away left
  else if priorityRank left.priority ≠ priorityRank right.priority then
    decide (priorityRank left.priority < priorityRank right.priority)
  else decide (left.createdAt ≤ right.createdAt)

/-- `NEXT_DISPATCHABLE_SQL`; `locked` are the rows that `SKIP LOCKED` passes over. -/
def nextDispatchable (db : Db) (participant : Participant) (agent : Agent) (locked : List Uuid) :
    Option Task :=
  selectFirst (dispatchedBefore db agent) (db.tasks.rows.filter fun task =>
    !locked.contains task.id && isNextDispatchable db participant agent task)

/-- `LOCK_PARTICIPANT_SQL`. -/
def lockParticipant (db : Db) (agentId : Uuid) : Option Participant :=
  db.participants.find? fun p =>
    p.agentId == agentId && (agentOf db p.organizationId agentId).any hasContainerIdentity

/-- `claim_next_task_for_participant`. -/
def claimNextTask (fingerprint : String → String) (db : Db) (agentId : Uuid)
    (locked : List Uuid) (draws : Draws) (now : Timestamp) : Except AppError Outcome := do
  let some participant := lockParticipant db agentId | return { db }
  if participant.status ≠ .available
      ∨ ¬(participant.capabilities.any fun capability => !trimIsEmpty capability) then
    return { db }
  if agentWorkAdmissionIsIdle db participant.organizationId agentId now ≠ some true then
    return { db }
  let some agent := agentOf db participant.organizationId agentId | return { db }
  let generation ← TaskAssignmentPolicy.generationFingerprint fingerprint agentId
    agent.runtimeKind agent.hmacSecret
  let some next := nextDispatchable db participant agent locked | return { db }
  let joined := fun (task : Task) =>
    (liveProject db.routes task).any (fun project => agent.workspaceId == project.workspaceId)
      && participant.status == .available && hasCapability participant
  match (claimTaskSql participant.organizationId next.id agentId draws.deliveryId
      defaultAssignmentLeaseSecs joined now).executeOptional db.tasks with
  | none => return { db }
  | some (tasks, task) =>
      let db ← (createForAssignment { db with tasks } participant.organizationId task
        draws.runId draws.deliveryId.toText now).mapError fun _ =>
          .internal ("refusing to dispatch task " ++ task.id.toText
            ++ " without immutable runtime evidence")
      let db := setParticipants db (fun p => p.key == participant.key) fun _ => (.busy, some now)
      let (text, message) := TaskInstruction.fromParams task.title task.description task.params
      let assignment : TaskAssignment := {
        deliveryId := task.lastAssignmentId, attempt := some task.attempt
        leaseExpiresAt := task.leaseExpiresAt, taskId := task.id, agentId
        title := task.title, task := text, message, priority := task.priority
        runtimeKind := some agent.runtimeKind, containerGenerationFingerprint := generation }
      let db ← insertAssignmentOutbox db participant.organizationId task.id assignment now
      return { db, issue := some ⟨draws.deliveryId, task.id, agentId, task.attempt⟩ }

end Forge.ParticipantLiveness
