import Forge.TaskLifecycle

/-! The consumer of orchestration results: authentication of a signed message, and the
transaction that applies its result. -/

namespace Forge.ResultConsumer

open Forge.DependencyReadiness
open Forge.Library.Identifier
open Forge.Library.JsonDocument
open Forge.Library.Text
open Forge.OrchestrationService
open Forge.OrchestrationView
open Forge.ParticipantStatements
open Forge.Schema
open Forge.TaskLifecycle
open Forge.TaskStatements

inductive TaskOutcome where
  | completed (stdout : String)
  | failed (stderr : String) (exitCode : Option Int)
deriving DecidableEq

structure TaskResult where
  deliveryId : Option Uuid
  attempt : Option Int
  taskId : Uuid
  agentId : Uuid
  outcome : TaskOutcome
deriving DecidableEq

structure SignedEnvelope where
  payload : Json
  timestamp : Int
  agentId : String
  signature : String

namespace TaskResult

def parseUuid (value : Json) : Option Uuid :=
  value.asStr.bind Uuid.parseStr

def parseI32 (value : Json) : Option Int :=
  value.asI64.filter fun number => -(2 : Int) ^ 31 ≤ number ∧ number < (2 : Int) ^ 31

def optionalField {α : Type} (body : Json) (key : String) (parse : Json → Option α) :
    Option (Option α) :=
  match body.get key with
  | none => some none
  | some .null => some none
  | some value => (parse value).map some

def parseOutcome (value : Json) : Option TaskOutcome := do
  let tag ← (← value.get "status").asStr
  if tag = "completed" then
    let stdout ← (← value.get "stdout").asStr
    return .completed stdout
  else if tag = "failed" then
    let stderr ← (← value.get "stderr").asStr
    let exitCode ← optionalField value "exit_code" parseI32
    return .failed stderr exitCode
  else none

/-- `serde_json::from_value::<TaskResult>`. -/
def fromValue (body : Json) : Option TaskResult := do
  let deliveryId ← optionalField body "delivery_id" parseUuid
  let attempt ← optionalField body "attempt" parseI32
  let taskId ← parseUuid (← body.get "task_id")
  let agentId ← parseUuid (← body.get "agent_id")
  let outcome ← parseOutcome (← body.get "outcome")
  return { deliveryId, attempt, taskId, agentId, outcome }

end TaskResult

namespace ExpectedResult

/-- The `contains` text of a contract document; a sequence is read positionally. -/
def containsOf (document : Json) : Option String :=
  let read := fun (value : Json) =>
    match value with
    | .string text => some text
    | _ => none
  match document with
  | .object _ => (document.get "contains").bind read
  | .array [value] => read value
  | _ => none

/-- `ExpectedResult::from_params`: a missing, malformed or empty contract checks nothing. -/
def fromParams (params : Option Json) : Option String :=
  ((arrow params "expectedResult").bind containsOf).filter fun text => !text.isEmpty

end ExpectedResult

/-- `CompletionVerifier::verify` on the serialized body of a completed result. -/
def verifyCompletion (expected stdout : String) : Bool :=
  let serialized := "\x7b\"stdout\":" ++ Json.quote stdout ++ "\x7d"
  decide (expected.toList <:+: serialized.toList)

inductive HandleError where
  | unauthorized (reason : String)
  | transient (error : AppError)
deriving DecidableEq

def isRuntimeKind (token : List Char) : Bool :=
  let trimmed := (strip isWhitespace token).map Char.toLower
  ["container", "cli", "api"].any fun kind => kind.toList == trimmed

/-- `parse_result_subject_with_prefix`: `prefix.<uuid>` or `prefix.<kind>.<uuid>`. -/
def parseResultSubject (subject subjectPrefix : String) : Option Uuid :=
  let head := subjectPrefix.toList ++ ['.']
  let chars := subject.toList
  if head.isPrefixOf chars then
    match (chars.drop head.length).splitOn '.' with
    | [agent] => Uuid.parseStr (String.ofList agent)
    | [kind, agent] =>
        if isRuntimeKind kind then Uuid.parseStr (String.ofList agent) else none
    | _ => none
  else none

/-- `TIMESTAMP_REPLAY_WINDOW_SECS`. -/
def timestampReplayWindowSecs : Int := 300

def withinReplayWindow (nowSecs timestamp : Int) : Bool :=
  decide ((nowSecs - timestamp).natAbs ≤ timestampReplayWindowSecs.natAbs)

namespace TaskOutcome

def status : TaskOutcome → TaskStatus
  | completed _ => .completed
  | failed .. => .failed

def runStatus : TaskOutcome → RunStatus
  | completed _ => .completed
  | failed .. => .failed

def body : TaskOutcome → Json
  | completed stdout => .object [("stdout", .string stdout)]
  | failed stderr exitCode => .object [("message", .string stderr),
      ("exit_code", (exitCode.map fun code => Json.number code 0).getD .null)]

def missesContract (params : Option Json) : TaskOutcome → Bool
  | completed stdout => (ExpectedResult.fromParams params).any fun expected =>
      !verifyCompletion expected stdout
  | failed .. => false

end TaskOutcome

def resultSql (held : Bool) (organizationId taskId deliveryId : Uuid) (attempt : Int)
    (outcome : TaskOutcome) (now : Timestamp) : TaskUpdate :=
  if held then holdResultSql organizationId taskId deliveryId attempt outcome.body now
  else applyResultSql organizationId taskId deliveryId attempt outcome.status outcome.body now

/-- What follows the guarded UPDATE of a result in its transaction: the dependents of a
completion, the run of the delivery and the participant of the sender. -/
def settleDelivery (db : Db) (organizationId : Uuid) (result : TaskResult) (deliveryId : Uuid)
    (held : Bool) (missed : List Uuid) (now : Timestamp) : Db :=
  let db :=
    if result.outcome.status = .completed ∧ ¬held then
      releaseTaskDependents db organizationId result.taskId missed now
    else db
  let db := closeRuns db (fun run => run.organizationId == organizationId
    && run.orchestrationTaskId == result.taskId
    && run.idempotencyKey == deliveryId.toText) result.outcome.runStatus now
  setParticipants db
    (fun p => isParticipant organizationId result.agentId p
      && !hasWorkingTask db.tasks p.organizationId p.agentId)
    fun p => (if p.status = .offline then .offline else .available, p.lastHeartbeatAt)

def isHeld (tasks : Tasks) (organizationId : Uuid) (result : TaskResult) : Bool :=
  result.outcome.missesContract
    ((tasks.find? (isTask organizationId result.taskId)).bind fun task => task.params)

/-- `SqlxTaskWriter::apply`. -/
def apply (db : Db) (organizationId : Uuid) (result : TaskResult) (missed : List Uuid)
    (now : Timestamp) : Except AppError Outcome := do
  let deliveryId ← result.deliveryId.elim
    (.error (.internal "orchestration result missing delivery_id")) .ok
  let attempt ← result.attempt.elim
    (.error (.internal "orchestration result missing attempt")) .ok
  match db.inbox.insert? { deliveryId, organizationId, taskId := result.taskId } with
  | none => return { db }
  | some inbox =>
      if ¬db.tasks.any fun task => task.id == result.taskId then
        throw (.internal "insert or update on table violates foreign key constraint")
      let held := isHeld db.tasks organizationId result
      match (resultSql held organizationId result.taskId deliveryId attempt result.outcome
          now).executeOptional db.tasks with
      | none => return { db := { db with inbox } }
      | some (tasks, _) =>
          let settled := settleDelivery { db with tasks, inbox } organizationId result deliveryId
            held missed now
          return { db := settled }

section Authentication

-- `SignedEnvelope::verify` under a secret.
variable (verify : String → SignedEnvelope → Bool)

/-- The checks before a result is applied: subject, envelope, replay window, secret, signature
and body. `seen` is the database that the two lookups saw. -/
def authenticate (seen : Db) (subjectPrefix subject : String) (payload : Option SignedEnvelope)
    (nowSecs : Int) : Except HandleError (Uuid × TaskResult) := do
  let subjectAgent ← (parseResultSubject subject subjectPrefix).elim
    (.error (.unauthorized "bad_subject")) .ok
  let envelope ← payload.elim (.error (.unauthorized "envelope_decode_failed")) .ok
  if envelope.agentId ≠ subjectAgent.toText then
    throw (.unauthorized "envelope_agent_mismatch")
  if ¬withinReplayWindow nowSecs envelope.timestamp then
    throw (.unauthorized "timestamp_outside_window")
  let agent := seen.agents.find? fun agent => agent.id == subjectAgent
  let secret ← (agent.bind fun agent => agent.hmacSecret).elim
    (.error (.unauthorized "agent_unknown")) .ok
  if ¬verify secret envelope then throw (.unauthorized "signature_mismatch")
  let result ← (TaskResult.fromValue envelope.payload).elim
    (.error (.unauthorized "bad_payload")) .ok
  if result.agentId ≠ subjectAgent then throw (.unauthorized "payload_agent_mismatch")
  if result.deliveryId.isNone then throw (.unauthorized "missing_delivery_id")
  if result.attempt.isNone then throw (.unauthorized "missing_attempt")
  let participant := seen.participants.find? fun p => p.agentId == result.agentId
  let organizationId ← (participant.map fun p => p.organizationId).elim
    (.error (.unauthorized "participant_missing")) .ok
  return (organizationId, result)

/-- `handle_message_with_subject_prefix`. -/
def handleMessage (db seen : Db) (subjectPrefix subject : String)
    (payload : Option SignedEnvelope) (nowSecs : Int) (missed : List Uuid) (now : Timestamp) :
    Except HandleError Outcome := do
  let (organizationId, result) ← authenticate verify seen subjectPrefix subject payload nowSecs
  (apply db organizationId result missed now).mapError .transient

end Authentication

end Forge.ResultConsumer
