import Forge.System

/-! The publisher of assignment rows: what it decides about a row under its locks, one turn of
it, and publishers beside the rest of the system. -/

namespace Forge.OutboxPublisher

open Forge.Library.Identifier
open Forge.Library.StateMachine
open Forge.OrchestrationView
open Forge.Schema
open Forge.System

/-- `select_assignment_signing_secret`. -/
def selectAssignmentSigningSecret (runtimeKind : RuntimeKind) (signNonContainer : Bool)
    (storedSecret : Option String) : Except String (Option String) :=
  let storedSecret := storedSecret.filter fun secret => !trimIsEmpty secret
  if runtimeKind = .container then
    match storedSecret with
    | some secret => .ok (some secret)
    | none => .error "container assignment requires a per-container HMAC signing secret"
  else .ok (if signNonContainer then storedSecret else none)

inductive AssignmentRetirementReason where
  | malformedPayload | malformedDeliveryMetadata | taskMissing | taskNotWorking
  | taskLeaseExpired | assignmentNotCurrent | agentMissing | runtimeKindMismatch
  | missingSigningSecret | missingGenerationFingerprint | staleGenerationFingerprint
deriving DecidableEq, Repr

inductive AssignmentPublishDecision where
  | publish (signingSecret : Option String)
  | retire (reason : AssignmentRetirementReason)
deriving DecidableEq, Repr

/-- `assignment_publish_decision`. -/
def assignmentPublishDecision (fingerprint : String → String) (runtimeKind : RuntimeKind)
    (signNonContainer : Bool) (assignment : TaskAssignment) (storedSecret : Option String) :
    Except String AssignmentPublishDecision := do
  if runtimeKind = .container
      ∧ (storedSecret.filter fun secret => !trimIsEmpty secret).isNone then
    return .retire .missingSigningSecret
  else
    let signingSecret ←
      selectAssignmentSigningSecret runtimeKind signNonContainer storedSecret
    if runtimeKind ≠ .container then return .publish signingSecret
    else
      -- the selection returns a secret for a container
      let secret ← signingSecret.elim (.error "container signing selection returns a secret") .ok
      match assignment.containerGenerationFingerprint.filter fun text => !trimIsEmpty text with
      | none => return .retire .missingGenerationFingerprint
      | some enqueued =>
          if enqueued ≠ fingerprint secret then return .retire .staleGenerationFingerprint
          else return .publish signingSecret

structure AssignmentTaskState where
  status : TaskStatus
  lastAssignmentId : Option Uuid
  assignedAgentId : Option Uuid
  leaseCurrent : Bool

/-- The columns that the publisher reads of the task of a row; `NOW()` is the start of its
transaction. -/
def taskState (db : Db) (row : OutboxRow) (now : Timestamp) : Option AssignmentTaskState :=
  (db.tasks.find? fun task => task.id == row.aggregateId
    && task.organizationId == row.organizationId).map fun task => {
      status := task.status
      lastAssignmentId := task.lastAssignmentId
      assignedAgentId := task.assignedAgentId
      leaseCurrent := task.leaseExpiresAt.any fun expires => now < expires }

/-- `assignment_state_retirement_reason`. -/
def assignmentStateRetirementReason (row : OutboxRow) (assignment : TaskAssignment)
    (task : Option AssignmentTaskState) : Option AssignmentRetirementReason :=
  match assignment.deliveryId with
  | none => some .malformedDeliveryMetadata
  | some deliveryId =>
      if assignment.attempt.isNone ∨ assignment.leaseExpiresAt.isNone ∨ deliveryId ≠ row.id
          ∨ assignment.taskId ≠ row.aggregateId then some .malformedDeliveryMetadata
      else match task with
        | none => some .taskMissing
        | some task =>
            if task.status ≠ .working then some .taskNotWorking
            else if task.leaseCurrent = false then some .taskLeaseExpired
            else if task.lastAssignmentId ≠ some deliveryId
                ∨ task.assignedAgentId ≠ some assignment.agentId then some .assignmentNotCurrent
            else none

structure Config where
  signAssignments : Bool
  readable : Uuid → Bool

/-- `serde_json::from_value` of a row's payload. -/
def Config.decode (config : Config) (row : OutboxRow) : Option TaskAssignment :=
  if config.readable row.id then some row.payload else none

/-- `RuntimeKind::as_str`. -/
def kindText : RuntimeKind → String
  | .container => "container"
  | .cli => "cli"
  | .api => "api"

/-- `ASSIGN_SUBJECT_PREFIX`. -/
def assignSubjectPrefix : String := "orchestration.assigned"

def assignSubject (agentId : Uuid) : String :=
  assignSubjectPrefix ++ "." ++ agentId.toText

def assignSubjectKind (kind : RuntimeKind) (agentId : Uuid) : String :=
  assignSubjectPrefix ++ "." ++ kindText kind ++ "." ++ agentId.toText

/-- What one call of `publish_next` comes to, before the sends: nothing (`Ok(false)`), an error,
a retirement, or an assignment to put on both subjects. -/
inductive Turn where
  | skip
  | failed (message : String)
  | retire (row : OutboxRow) (reason : AssignmentRetirementReason)
  | publish (row : OutboxRow) (assignment : TaskAssignment) (kind : RuntimeKind)
      (signingSecret : Option String)

section Decisions

variable (fingerprint : String → String) (config : Config)

/-- The checks on the agent of an assignment, and the decision. -/
def agentTurn (db : Db) (row : OutboxRow) (assignment : TaskAssignment) : Turn :=
  match db.agents.find? fun agent => agent.id == assignment.agentId
      && agent.organizationId == row.organizationId with
  | none => .retire row .agentMissing
  | some agent =>
      if assignment.runtimeKind.any fun enqueued => enqueued ≠ agent.runtimeKind then
        .retire row .runtimeKindMismatch
      else match assignmentPublishDecision fingerprint agent.runtimeKind config.signAssignments
          assignment agent.hmacSecret with
        | .error message => .failed message
        | .ok (.retire reason) => .retire row reason
        | .ok (.publish signingSecret) =>
            .publish row assignment agent.runtimeKind signingSecret

/-- `NEXT_ASSIGNMENT_OUTBOX_SQL`: a given row, if it is an oldest one that waits. -/
def nextAssignment (db : Db) (pick : Uuid) : Option OutboxRow :=
  db.outbox.find? fun row => row.id == pick && row.publishedAt.isNone
    && !db.outbox.any fun other => other.publishedAt.isNone && decide (other.createdAt < row.createdAt)

/-- `LOCK_ASSIGNMENT_OUTBOX_SQL`, when no other transaction holds the row. -/
def lockAssignment (db : Db) (id : Uuid) (held : Bool) : Option OutboxRow :=
  if held then none else db.outbox.find? fun row => row.id == id && row.publishedAt.isNone

/-- `publish_next` up to its sends: `seen` is the database of its first read, `db` the one that
its locks freeze. -/
def publishNext (seen db : Db) (pick : Uuid) (held : Bool) (now : Timestamp) : Turn :=
  match nextAssignment seen pick with
  | none => .skip
  | some candidate =>
      match config.decode candidate with
      | none =>
          match lockAssignment db candidate.id held with
          | none => .skip
          | some row =>
              if (config.decode row).isSome then .skip else .retire row .malformedPayload
      | some candidateAssignment =>
          match lockAssignment db candidate.id held with
          | none => .skip
          | some row =>
              match config.decode row with
              | none => .retire row .malformedPayload
              | some assignment =>
                  if assignment.agentId ≠ candidateAssignment.agentId then
                    .retire row .malformedPayload
                  else match assignmentStateRetirementReason row assignment
                      (taskState db candidate now) with
                    | some reason => .retire row reason
                    | none => agentTurn fingerprint config db row assignment

end Decisions

structure Message where
  subject : String
  assignment : TaskAssignment
  signedWith : Option String
deriving DecidableEq

inductive Send where
  | lost | unacknowledged | acknowledged
deriving DecidableEq, Repr

/-- The messages of consecutive sends, which stop at the first one without an ack, and whether
all got theirs. -/
def sendAll : List (Message × Send) → List Message × Bool
  | [] => ([], true)
  | (_, .lost) :: _ => ([], false)
  | (message, .unacknowledged) :: _ => ([message], false)
  | (message, .acknowledged) :: rest =>
      let (sent, acked) := sendAll rest
      (message :: sent, acked)

structure Relay where
  world : World
  wire : List Message

def Relay.start : Relay := ⟨.start, []⟩

/-- One call of `publish_next`: the row of its first read and how old that read is, whether
another transaction holds the row, its clock, the ends of its sends, and whether its transaction
commits. -/
structure Attempt where
  pick : Uuid
  seen : Nat
  held : Bool
  now : Timestamp
  legacy : Send
  namespaced : Send
  commits : Bool

inductive Action where
  | system (action : System.Action)
  | publish (attempt : Attempt)

section Machine

variable (crypto : Crypto) (config : Config)

def Relay.turn (relay : Relay) (attempt : Attempt) : Turn :=
  publishNext crypto.fingerprint config (relay.world.snapshot attempt.seen) relay.world.db
    attempt.pick attempt.held attempt.now

def Turn.effect (attempt : Attempt) : Turn → List Message × Option OutboxRow
  | .skip | .failed _ => ([], none)
  | .retire row _ => ([], if attempt.commits then some row else none)
  | .publish row assignment kind signingSecret =>
      let (sent, acked) := sendAll
        [(⟨assignSubject assignment.agentId, assignment, signingSecret⟩, attempt.legacy),
          (⟨assignSubjectKind kind assignment.agentId, assignment, signingSecret⟩,
            attempt.namespaced)]
      (sent, if acked && attempt.commits then some row else none)

def sent (relay : Relay) : Action → List Message
  | .system _ => []
  | .publish attempt => ((relay.turn crypto config attempt).effect attempt).1

def marked (relay : Relay) : Action → Option OutboxRow
  | .system _ => none
  | .publish attempt => ((relay.turn crypto config attempt).effect attempt).2

def exec (relay : Relay) (a : Action) : Relay where
  world := match a with
    | .system action => System.exec crypto relay.world action
    | .publish attempt =>
        (marked crypto config relay a).elim relay.world fun row =>
          relay.world.commit (markOutboxPublished relay.world.db row.id attempt.now)
  wire := sent crypto config relay a ++ relay.wire

def isMark : Command → Bool
  | .markOutboxPublished _ => true
  | _ => false

def Allowed (relay : Relay) : Action → Prop
  | .system action => FreshDelivery relay.world action ∧ isMark action.command = false
  | .publish _ => True

instance (relay : Relay) : (a : Action) → Decidable (Allowed relay a)
  | .system action =>
      inferInstanceAs (Decidable (FreshDelivery relay.world action ∧ isMark action.command = false))
  | .publish _ => isTrue trivial

def ReachableRelay (relay : Relay) : Prop :=
  Reachable (exec crypto config) (· = Relay.start) Allowed relay

end Machine

end Forge.OutboxPublisher
