import Forge.HookEvents
import Forge.ResultConsumer

/-! What the event consumer makes of a signed event: its identity, the data that it stores, and
the columns of the agent that it patches. -/

namespace Forge.EventDecoding

open Forge.HookEvents
open Forge.Library.Fallible
open Forge.Library.Identifier
open Forge.Library.JsonDocument
open Forge.OrchestrationView
open Forge.ResultConsumer

structure SignedEventPayload where
  eventType : String
  data : Json

structure SignedEventEnvelope where
  payload : SignedEventPayload
  timestamp : Int
  agentId : String
  signature : String

def SignedEventPayload.toJson (payload : SignedEventPayload) : Json :=
  .object [("event_type", .string payload.eventType), ("data", payload.data)]

def SignedEventEnvelope.ofSigned (message : SignedEnvelope) : Option SignedEventEnvelope := do
  let eventType ← (← message.payload.get "event_type").asStr
  let data ← message.payload.get "data"
  pure ⟨⟨eventType, data⟩, message.timestamp, message.agentId, message.signature⟩

/-- The envelope whose signature `SignedEventEnvelope::verify` checks. -/
def SignedEventEnvelope.toSigned (envelope : SignedEventEnvelope) : SignedEnvelope :=
  ⟨envelope.payload.toJson, envelope.timestamp, envelope.agentId, envelope.signature⟩

structure AgentTarget where
  agentId : Uuid
  organizationId : Uuid
  cliSessionId : Option String
deriving DecidableEq

structure PersistedEvent where
  organizationId : Uuid
  agentId : Uuid
  eventType : String
  payload : Json
  sessionId : Option String
  ingestEventId : String
  generationFingerprint : String
deriving DecidableEq

inductive AgentStatus where
  | working | idle | offline
deriving DecidableEq, Repr

inductive CurrentToolUpdate where
  | set (tool : String)
  | clear
deriving DecidableEq

structure AgentRuntimePatch where
  status : Option AgentStatus
  currentTool : Option CurrentToolUpdate
  cwd : Option String
  lifecycleSequence : Option Int
  interactiveOwnerSession : Option String
deriving DecidableEq

namespace AgentRuntimePatch

def empty : AgentRuntimePatch := ⟨none, none, none, none, none⟩

def isNoop (patch : AgentRuntimePatch) : Bool :=
  patch.status.isNone && patch.currentTool.isNone && patch.cwd.isNone

end AgentRuntimePatch

inductive ServerMessage where
  | event (eventType : String) (eventData : Json) (agentId orgId : String)
  | turnInvalidate (agentId : String) (timestamp : Int)
deriving DecidableEq

inductive ConsumeError where
  | permanent (reason message : String)
  | transient
deriving DecidableEq

structure DecodedEvent where
  persisted : PersistedEvent
  broadcast : ServerMessage
  turnInvalidate : Option ServerMessage
  broadcastSubject : String
  runtimePatch : AgentRuntimePatch
  persistable : Bool
deriving DecidableEq

def maxIngestEventIdLen : Nat := 256

def maxRuntimeStringLen : Nat := 4096

def isPersistable (eventType : String) : Bool :=
  !(eventType == "token_update")

def deriveStatus (eventType : String) : Option AgentStatus :=
  if eventType == "pre_tool_use" || eventType == "user_prompt_submit" then some .working
  else if eventType == "stop" || eventType == "session_end" then some .idle
  else none

/-- The identity of an event; `drawn` is the one it gets when it has neither an identity nor a
signature. -/
def extractIngestEventId (drawn : Uuid) (data : Json) (envelopeSignature : String) :
    Except ConsumeError String :=
  match data.get "id" with
  | some (.string id) =>
      if trimIsEmpty id = false ∧ id.utf8ByteSize ≤ maxIngestEventIdLen then .ok id
      else .error (.permanent "event_id_invalid"
        "event id must be a non-empty string no longer than 256 bytes")
  | none =>
      if trimIsEmpty envelopeSignature then .ok drawn.toText
      else .ok ("legacy:" ++ envelopeSignature)
  | some _ => .error (.permanent "event_id_invalid"
      "event id must be a non-empty string no longer than 256 bytes")

def extractLifecycleSequence (eventType : String) (data : Json) :
    Except ConsumeError (Option Int) :=
  match data.get "lifecycleSequence" with
  | none => .ok none
  | some value =>
      if (deriveStatus eventType).isNone then
        .error (.permanent "lifecycle_sequence_unexpected"
          ("event " ++ eventType ++ " cannot carry lifecycleSequence"))
      else match value.asI64.filter (0 < ·) with
        | some sequence => .ok (some sequence)
        | none => .error (.permanent "lifecycle_sequence_invalid"
            "lifecycleSequence must be a positive signed 64-bit integer")

def extractSessionId (data : Json) : Option String :=
  let reported := (data.get "sessionId").or (data.get "session_id")
  ((reported.bind Json.asStr).map trim).filter fun session =>
    session ≠ "" ∧ session.utf8ByteSize ≤ maxRuntimeStringLen

/-- The data with a type, an organization, a session and a timestamp where they are missing, and
its own identity. -/
def fillEventData (eventType : String) (data : Json) (sessionId : Option String)
    (organizationId : Uuid) (envelopeTimestampSecs : Int) (ingestEventId : String) : Json :=
  let typed := (data.orInsert "type" (.string eventType)).orInsert "orgId"
    (.string organizationId.toText)
  let owned := sessionId.elim typed fun session => typed.orInsert "sessionId" (.string session)
  (owned.orInsert "timestamp" (.number (envelopeTimestampSecs * 1000) 0)).insert "id"
    (.string ingestEventId)

def normalizeEventData (eventType : String) (data : Json) (sessionId : Option String)
    (organizationId : Uuid) (envelopeTimestampSecs : Int) (ingestEventId : String) :
    Except ConsumeError Json :=
  if data.isObject then
    .ok (fillEventData eventType data sessionId organizationId envelopeTimestampSecs ingestEventId)
  else .error (.permanent "payload_not_object" "event payload data must be a JSON object")

def payloadString (data : Json) (key : String) : Option String :=
  ((data.get key).bind Json.asStr).filter fun text =>
    text ≠ "" ∧ text.utf8ByteSize ≤ maxRuntimeStringLen

def deriveRuntimePatch (eventType : String) (data : Json) (lifecycleSequence : Option Int)
    (interactiveOwnerSession : Option String) : AgentRuntimePatch :=
  let status := deriveStatus eventType
  { status
    currentTool :=
      if eventType == "pre_tool_use" then (payloadString data "tool").map .set
      else if eventType == "post_tool_use" || eventType == "stop" || eventType == "session_end"
        then some .clear
      else none
    cwd := payloadString data "cwd"
    lifecycleSequence := status.bind fun _ => lifecycleSequence
    interactiveOwnerSession := status.bind fun _ => interactiveOwnerSession }

def eventTimestampMs (data : Json) (envelopeTimestampSecs : Int) : Int :=
  ((data.get "timestamp").bind Json.asI64).getD (envelopeTimestampSecs * 1000)

/-- The generation is written into the data, and a lifecycle event gets the timestamp that
orders it. -/
def stampEventData (eventType generationFingerprint : String) (timestampMs : Int) (data : Json) :
    Json :=
  let marked := data.insert "containerGenerationFingerprint" (.string generationFingerprint)
  if (deriveStatus eventType).isSome then marked.insert "timestamp" (.number timestampMs 0)
  else marked

/-- The decoded event around its final data. -/
def assembleEvent (target : AgentTarget) (eventType : String) (eventData : Json)
    (timestampMs : Int) (sessionId reportedSessionId : Option String)
    (lifecycleSequence : Option Int) (ingestEventId generationFingerprint : String) :
    DecodedEvent :=
  let persistable := isPersistable eventType
  { broadcastSubject := "broadcast." ++ target.organizationId.toText
    broadcast := .event eventType eventData (sessionId.getD target.agentId.toText)
      target.organizationId.toText
    turnInvalidate :=
      if persistable then some (.turnInvalidate target.agentId.toText timestampMs) else none
    persisted := { organizationId := target.organizationId, agentId := target.agentId, eventType
                   payload := eventData, sessionId, ingestEventId, generationFingerprint }
    runtimePatch :=
      if persistable then
        deriveRuntimePatch eventType eventData lifecycleSequence reportedSessionId
      else .empty
    persistable }

def eventSessionId (target : AgentTarget) (data : Json) : Option String :=
  ((extractSessionId data).or target.cliSessionId).or (some target.agentId.toText)

def decodeEvent (drawn : Uuid) (target : AgentTarget) (envelope : SignedEventEnvelope)
    (generationFingerprint : String) : Except ConsumeError DecodedEvent := do
  let eventType := envelope.payload.eventType
  let data := envelope.payload.data
  let ingestEventId ← extractIngestEventId drawn data envelope.signature
  let reportedSessionId := extractSessionId data
  if (deriveStatus eventType).isSome ∧ reportedSessionId.isNone then
    throw (.permanent "lifecycle_session_missing"
      ("lifecycle hook " ++ eventType ++ " omitted sessionId"))
  else
    let sessionId := eventSessionId target data
    let lifecycleSequence ← extractLifecycleSequence eventType data
    let normalized ← normalizeEventData eventType data sessionId target.organizationId
      envelope.timestamp ingestEventId
    let timestampMs := eventTimestampMs normalized envelope.timestamp
    let eventData := stampEventData eventType generationFingerprint timestampMs normalized
    pure (assembleEvent target eventType eventData timestampMs sessionId reportedSessionId
      lifecycleSequence ingestEventId generationFingerprint)

def storedData (target : AgentTarget) (envelope : SignedEventEnvelope)
    (ingestEventId generationFingerprint : String) : Json :=
  let data := envelope.payload.data
  let normalized := fillEventData envelope.payload.eventType data (eventSessionId target data)
    target.organizationId envelope.timestamp ingestEventId
  stampEventData envelope.payload.eventType generationFingerprint
    (eventTimestampMs normalized envelope.timestamp) normalized

theorem decodeEvent_eq_ok {drawn : Uuid} {target : AgentTarget} {envelope : SignedEventEnvelope}
    {generationFingerprint : String} {decoded : DecodedEvent} :
    decodeEvent drawn target envelope generationFingerprint = .ok decoded ↔
    ∃ ingestEventId lifecycleSequence,
      extractIngestEventId drawn envelope.payload.data envelope.signature = .ok ingestEventId
      ∧ ((deriveStatus envelope.payload.eventType).isSome = true →
        (extractSessionId envelope.payload.data).isSome = true)
      ∧ extractLifecycleSequence envelope.payload.eventType envelope.payload.data
        = .ok lifecycleSequence
      ∧ envelope.payload.data.isObject = true
      ∧ decoded = assembleEvent target envelope.payload.eventType
        (storedData target envelope ingestEventId generationFingerprint)
        (eventTimestampMs (fillEventData envelope.payload.eventType envelope.payload.data
          (eventSessionId target envelope.payload.data) target.organizationId envelope.timestamp
          ingestEventId) envelope.timestamp)
        (eventSessionId target envelope.payload.data) (extractSessionId envelope.payload.data)
        lifecycleSequence ingestEventId generationFingerprint := by
  have session : ∀ {status : Option AgentStatus} {reported : Option String},
      (¬(status.isSome = true ∧ reported.isNone = true))
        ↔ (status.isSome = true → reported.isSome = true) := by
    intro status reported
    cases status <;> cases reported <;> simp
  simp only [decodeEvent, bind_eq_ok, guard_eq_ok, session, normalizeEventData]
  constructor
  · rintro ⟨id, identity, reported, sequence, numbered, normalized, filled, done⟩
    split at filled
    case isTrue object =>
        cases filled
        cases done
        exact ⟨id, sequence, identity, reported, numbered, object, rfl⟩
    case isFalse => cases filled
  · rintro ⟨id, sequence, identity, reported, numbered, object, rfl⟩
    exact ⟨id, identity, reported, sequence, numbered, _, if_pos object, rfl⟩

end Forge.EventDecoding
