import Forge.Library.JsonDocument
import Forge.Library.Identifier
import Forge.Library.KeyedTable

/-! The tables of the orchestration schema: tasks, participants, runs, the outbox and the
inbox, with the agents and task routes they refer to. -/

namespace Forge.Schema

open Forge.Library.JsonDocument
open Forge.Library.Identifier
open Forge.Library.KeyedTable

abbrev Timestamp := Int

def second : Int := 1000000

inductive TaskStatus where
  | backlog | queued | working | blocked | completed | failed | canceled
deriving DecidableEq, Repr, Inhabited

namespace TaskStatus

def text : TaskStatus → String
  | backlog => "backlog"
  | queued => "queued"
  | working => "working"
  | blocked => "blocked"
  | completed => "completed"
  | failed => "failed"
  | canceled => "canceled"

/-- `VALID_TASK_STATUSES`. -/
def all : List TaskStatus :=
  [backlog, queued, working, blocked, completed, failed, canceled]

def parse (raw : String) : Option TaskStatus :=
  all.find? fun status => status.text == raw

@[simp] theorem text_eq_completed {status : TaskStatus} :
    status.text = "completed" ↔ status = completed := by
  cases status <;> decide

end TaskStatus

/-- The `blocked_reason` column, a text column without a check. -/
inductive BlockedReason where
  | waitingAgent | waitingDependency | waitingInput | waitingApproval | quotaExceeded
  | waitingVerification
  | other (text : String)
deriving DecidableEq, Repr

namespace BlockedReason

def text : BlockedReason → String
  | waitingAgent => "waiting_agent"
  | waitingDependency => "waiting_dependency"
  | waitingInput => "waiting_input"
  | waitingApproval => "waiting_approval"
  | quotaExceeded => "quota_exceeded"
  | waitingVerification => "waiting_verification"
  | other raw => raw

end BlockedReason

inductive ParticipantStatus where
  | available | busy | offline
deriving DecidableEq, Repr, Inhabited

def ParticipantStatus.text : ParticipantStatus → String
  | available => "available"
  | busy => "busy"
  | offline => "offline"

inductive RunStatus where
  | queued | working | completed | failed | canceled
deriving DecidableEq, Repr, Inhabited

inductive RuntimeKind where
  | container | cli | api
deriving DecidableEq, Repr, Inhabited

/-- The columns of a task that no statement writes after the insert. -/
structure TaskSpec where
  id : Uuid
  organizationId : Uuid
  groupId : Option Uuid
  title : String
  description : Option String
  params : Option Json
  parentTaskId : Option Uuid
  selfFix : Bool
  createdAt : Timestamp

/-- A row of `orchestration_tasks`. -/
structure Task extends TaskSpec where
  status : TaskStatus
  priority : String
  progress : Int
  assignedAgentId : Option Uuid
  result : Option Json
  error : Option Json
  blockedReason : Option BlockedReason
  blockedMetadata : Option Json
  requiresApproval : Bool
  approvedAt : Option Timestamp
  approvedBy : Option Uuid
  attempt : Nat
  leaseExpiresAt : Option Timestamp
  failureCode : Option String
  retryable : Bool
  lastAssignmentId : Option Uuid
  startedAt : Option Timestamp
  completedAt : Option Timestamp
  canceledAt : Option Timestamp
  updatedAt : Timestamp
  rowVersion : Nat

def Task.bumpRowVersion (task : Task) : Task :=
  { task with rowVersion := task.rowVersion + 1 }

@[simp] theorem Task.id_bumpRowVersion (task : Task) : task.bumpRowVersion.id = task.id := rfl

/-- A row of `participants`; its surrogate key stands for `(organization_id, agent_id)`. -/
structure Participant where
  organizationId : Uuid
  agentId : Uuid
  name : String
  capabilities : List String
  status : ParticipantStatus
  lastHeartbeatAt : Option Timestamp
deriving DecidableEq

def Participant.key (participant : Participant) : Uuid × Uuid :=
  (participant.organizationId, participant.agentId)

/-- A row of `task_runs`. -/
structure TaskRun where
  id : Uuid
  organizationId : Uuid
  workspaceId : Uuid
  orchestrationTaskId : Uuid
  agentId : Uuid
  idempotencyKey : String
  status : RunStatus
  startedAt : Timestamp
  finishedAt : Option Timestamp
  createdAt : Timestamp
  updatedAt : Timestamp

/-- The assignment payload that the outbox carries to the sidecar. -/
structure TaskAssignment where
  deliveryId : Option Uuid
  attempt : Option Nat
  leaseExpiresAt : Option Timestamp
  taskId : Uuid
  agentId : Uuid
  title : String
  task : String
  message : String
  priority : String
  runtimeKind : Option RuntimeKind
  containerGenerationFingerprint : Option String
deriving DecidableEq

/-- An assignment row of `orchestration_outbox`. -/
structure OutboxRow where
  id : Uuid
  organizationId : Uuid
  aggregateId : Uuid
  payload : TaskAssignment
  publishedAt : Option Timestamp
  createdAt : Timestamp
deriving DecidableEq

/-- A row of `orchestration_inbox`. -/
structure InboxRow where
  deliveryId : Uuid
  organizationId : Uuid
  taskId : Uuid
deriving DecidableEq

structure Agent where
  id : Uuid
  organizationId : Uuid
  workspaceId : Uuid
  projectId : Option Uuid
  name : String
  runtimeKind : RuntimeKind
  containerId : Option String
  containerImageIdentity : Option Json
  hmacSecret : Option String
  interactiveLeaseExpiresAt : Option Timestamp

structure Group where
  id : Uuid
  organizationId : Uuid
  projectId : Uuid
  deletedAt : Option Timestamp
deriving DecidableEq

structure Project where
  id : Uuid
  organizationId : Uuid
  workspaceId : Uuid
  deletedAt : Option Timestamp
deriving DecidableEq

structure Workspace where
  id : Uuid
  organizationId : Uuid
  deletedAt : Option Timestamp
deriving DecidableEq

structure Routes where
  groups : List Group
  projects : List Project
  workspaces : List Workspace

structure Db where
  tasks : Table Task (fun task => task.id)
  participants : Table Participant Participant.key
  runs : Table TaskRun TaskRun.id
  outbox : Table OutboxRow OutboxRow.id
  inbox : Table InboxRow InboxRow.deliveryId
  agents : Table Agent Agent.id
  routes : Routes

def Db.empty : Db where
  tasks := .empty
  participants := .empty
  runs := .empty
  outbox := .empty
  inbox := .empty
  agents := .empty
  routes := ⟨[], [], []⟩

/-- The error kinds that the service layer answers with. -/
inductive AppError where
  | validation (message : String)
  | notFound (message : String)
  | conflict (message : String)
  | forbidden (message : String)
  | internal (message : String)
deriving DecidableEq, Repr

structure TenantScope where
  orgId : Uuid
  userId : Uuid
deriving DecidableEq

end Forge.Schema
