import Forge.EventDecoding
import Forge.HookSequencing

/-! When the consumer accepts what the sidecar publishes of a hook event that it accepted. -/

namespace Forge.HookAgreement

open Forge.EventDecoding
open Forge.HookEvents
open Forge.HookSequencing
open Forge.Library.Identifier
open Forge.Library.JsonDocument
open Forge.Library.StateMachine
open Forge.OrchestrationView
open Forge.ResultConsumer

/-- `EventPublisher::publish` at some second, signed by a function of agent, second and inner
payload. -/
def publish (sign : String → Int → Json → String) (agentId eventType : String) (payload : Json)
    (timestamp : Int) : SignedEnvelope :=
  let inner := SignedEventPayload.toJson ⟨eventType, payload⟩
  { payload := inner, timestamp, agentId, signature := sign agentId timestamp inner }

theorem ofSigned_publish (sign : String → Int → Json → String) (agentId eventType : String)
    (payload : Json) (timestamp : Int) :
    SignedEventEnvelope.ofSigned (publish sign agentId eventType payload timestamp)
      = some ⟨⟨eventType, payload⟩, timestamp, agentId,
        sign agentId timestamp (SignedEventPayload.toJson ⟨eventType, payload⟩)⟩ := by
  have type : ((SignedEventPayload.toJson ⟨eventType, payload⟩).get "event_type")
      = some (.string eventType) := by
    rw [SignedEventPayload.toJson, Json.get, lookup_entry, if_pos rfl]
  have data : ((SignedEventPayload.toJson ⟨eventType, payload⟩).get "data") = some payload := by
    rw [SignedEventPayload.toJson, Json.get, lookup_entry, if_neg (by decide), lookup_entry,
      if_pos rfl]
  simp only [SignedEventEnvelope.ofSigned, publish, type, data]
  rfl

theorem deriveStatus_isSome (eventType : String) :
    (deriveStatus eventType).isSome = isLifecycleEvent eventType := by
  unfold deriveStatus isLifecycleEvent opensSession closesSession
  split
  case isTrue opens => simp [opens]
  case isFalse other =>
      rw [Bool.not_eq_true] at other
      split
      case isTrue closes => simp [other, closes]
      case isFalse neither => simp [other, neither]

theorem extractSessionId_eq (data : Json) :
    extractSessionId data
      = (hookSession data).filter fun session => session.utf8ByteSize ≤ maxRuntimeStringLen := by
  rw [extractSessionId, hookSession, Option.filter_filter]
  congr 1
  funext session
  simp

theorem extractIngestEventId_of_ensureEventId {drawn : Uuid} {payload identified : Json}
    (identity : ensureEventId drawn payload = .ok identified) :
    ∃ id, identified.get "id" = some (.string id) ∧ trimIsEmpty id = false
      ∧ id.utf8ByteSize ≤ maxIngestEventIdLen := by
  obtain ⟨object, ⟨-, rfl⟩ | ⟨id, found, visible, short, rfl⟩⟩ := ensureEventId_eq_ok identity
  · refine ⟨drawn.toText, ?_, ?_, ?_⟩
    · rw [Json.get_insert object, if_pos rfl]
    · rw [Bool.eq_false_iff, Ne, trimIsEmpty_iff]
      intro blank
      exact absurd (blank '-' drawn.hyphen_mem_toText) (by decide)
    · have short := drawn.utf8ByteSize_toText_le
      rw [maxIngestEventIdLen]
      omega
  · exact ⟨id, found, visible, short⟩

def ConsumerTakes (eventType : String) (payload : Json) : Prop :=
  if isLifecycleEvent eventType then
    ∀ session ∈ hookSession payload, session.utf8ByteSize ≤ maxRuntimeStringLen
  else payload.get "lifecycleSequence" = none

section Agreement

variable {generation : String} {snapshot : HookStateSnapshot}

theorem extractLifecycleSequence_of_advances {eventType : String} {payload prepared : Json}
    {next : HookStateSnapshot} (lifecycle : isLifecycleEvent eventType = true)
    (current : snapshot.Current generation)
    (advances : Advances snapshot eventType payload next prepared) :
    extractLifecycleSequence eventType prepared
      = .ok (some (snapshot.lastLifecycleSequence + 1)) := by
  have nonneg := current.nonneg
  have status : (deriveStatus eventType).isNone = false := by
    rw [← Option.not_isSome, deriveStatus_isSome, lifecycle]
    rfl
  have number : (Json.number (snapshot.lastLifecycleSequence + 1) 0).asI64.filter
      (fun n => decide (0 < n)) = some (snapshot.lastLifecycleSequence + 1) := by
    rw [HookStateSnapshot.asI64_number (by omega) advances.bounded, Option.filter_some,
      if_pos (decide_eq_true (by omega))]
  rw [extractLifecycleSequence, advances.prepared_eq, Json.get_insert advances.object, if_pos rfl]
  simp only [status, number]
  rfl

/-- What the sidecar accepted, as the consumer sees it: an object with a valid identity, its
session, and its number. -/
structure Acceptable (eventType : String) (payload prepared : Json) : Prop where
  object : prepared.isObject = true
  identity : ∃ id, prepared.get "id" = some (.string id) ∧ trimIsEmpty id = false
    ∧ id.utf8ByteSize ≤ maxIngestEventIdLen
  session : hookSession prepared = hookSession payload
  lifecycle : isLifecycleEvent eventType = true →
    (hookSession payload).isSome = true
      ∧ ∃ sequence, extractLifecycleSequence eventType prepared = .ok sequence
  other : isLifecycleEvent eventType = false →
    prepared.get "lifecycleSequence" = payload.get "lifecycleSequence"

theorem acceptable_of_prepareHookEvent (current : snapshot.Current generation) {drawn : Uuid}
    {persist : Persist} {eventType : String} {payload prepared : Json} {file : HookStateFile}
    (accepted : (prepareHookEvent drawn persist eventType payload ⟨snapshot, file⟩).1
      = .ok prepared) : Acceptable eventType payload prepared := by
  have outcome := outcome_prepareHookEvent drawn persist eventType payload ⟨snapshot, file⟩
  revert accepted outcome
  generalize prepareHookEvent drawn persist eventType payload ⟨snapshot, file⟩ = result
  intro accepted outcome
  cases outcome with
  | rejected err => cases accepted
  | renamed err identity advances unsynced => cases accepted
  | plain identity other =>
      cases accepted
      refine ⟨?_, extractIngestEventId_of_ensureEventId identity,
        hookSession_of_ensureEventId identity, ?_, fun _ => ?_⟩
      · obtain ⟨object, ⟨-, rfl⟩ | ⟨_, -, -, -, rfl⟩⟩ := ensureEventId_eq_ok identity
        · simpa using object
        · exact object
      · intro lifecycle
        rw [lifecycle] at other
        cases other
      · exact get_of_ensureEventId identity (by decide)
  | @numbered identified _ next identity lifecycle advances =>
      cases accepted
      have kept : ∀ key, key ≠ "lifecycleSequence" → prepared.get key = identified.get key := by
        intro key other
        rw [advances.prepared_eq, Json.get_insert advances.object, if_neg other]
      have session : hookSession prepared = hookSession payload := by
        rw [← hookSession_of_ensureEventId identity, hookSession, kept _ (by decide),
          kept _ (by decide)]
        rfl
      refine ⟨?_, ?_, session,
        fun _ => ⟨?_, some (snapshot.lastLifecycleSequence + 1), ?_⟩, fun other => ?_⟩
      · rw [advances.prepared_eq, Json.isObject_insert]
        exact advances.object
      · rw [kept _ (by decide)]
        exact extractIngestEventId_of_ensureEventId identity
      · obtain ⟨found, here, -⟩ := advances.session
        rw [← hookSession_of_ensureEventId identity, here]
        rfl
      · exact extractLifecycleSequence_of_advances lifecycle current advances
      · rw [lifecycle] at other
        cases other

theorem extractIngestEventId_of_acceptable {eventType : String} {payload prepared : Json}
    (acceptable : Acceptable eventType payload prepared) (drawn : Uuid) (signature : String) :
    ∃ id, extractIngestEventId drawn prepared signature = .ok id
      ∧ prepared.get "id" = some (.string id) := by
  obtain ⟨id, found, visible, short⟩ := acceptable.identity
  exact ⟨id, by rw [extractIngestEventId, found]; exact if_pos ⟨visible, short⟩, found⟩

theorem decodeEvent_iff_of_acceptable {eventType : String} {payload prepared : Json}
    (acceptable : Acceptable eventType payload prepared) (drawn : Uuid) (target : AgentTarget)
    (timestamp : Int) (agentId signature fingerprint : String) :
    (∃ decoded, decodeEvent drawn target
        ⟨⟨eventType, prepared⟩, timestamp, agentId, signature⟩ fingerprint = .ok decoded)
      ↔ ConsumerTakes eventType payload := by
  obtain ⟨id, identity, -⟩ := extractIngestEventId_of_acceptable acceptable drawn signature
  have session : extractSessionId prepared = (hookSession payload).filter fun session =>
      session.utf8ByteSize ≤ maxRuntimeStringLen := by
    rw [extractSessionId_eq, acceptable.session]
  simp only [decodeEvent_eq_ok, deriveStatus_isSome, session]
  cases lifecycle : isLifecycleEvent eventType with
  | true =>
      obtain ⟨reported, sequence, numbered⟩ := acceptable.lifecycle lifecycle
      obtain ⟨text, found⟩ := Option.isSome_iff_exists.1 reported
      rw [ConsumerTakes, if_pos lifecycle, found]
      constructor
      · rintro ⟨_, _, _, -, taken, -⟩ _ ⟨⟩
        simpa [Option.filter_some] using taken
      · intro short
        refine ⟨_, id, sequence, identity, fun _ => ?_, numbered, acceptable.object, rfl⟩
        simpa [Option.filter_some] using short
  | false =>
      have numbered := acceptable.other lifecycle
      have status : (deriveStatus eventType).isNone = true := by
        rw [← Option.not_isSome, deriveStatus_isSome, lifecycle]
        rfl
      rw [ConsumerTakes, if_neg (by simp [lifecycle]), ← numbered]
      constructor
      · rintro ⟨_, _, sequence, -, -, taken, -⟩
        rw [extractLifecycleSequence] at taken
        split at taken
        case h_1 absent => exact absent
        case h_2 =>
            rw [if_pos status] at taken
            cases taken
      · intro absent
        refine ⟨_, id, none, identity, nofun, ?_, acceptable.object, rfl⟩
        rw [extractLifecycleSequence, absent]

/-- Whatever hook events, interruptions and restarts came before, what the sidecar publishes of
an accepted hook event is decoded exactly when the session of a lifecycle event is not too long
and any other event carries no sequence number. -/
theorem hook_agreement {sidecar : Sidecar} {drawn : Uuid} {persist : Persist}
    {eventType : String} {payload prepared : Json}
    (reachable : Reachable (exec generation) initial (fun _ _ => True) sidecar)
    (running : sidecar.running = some snapshot)
    (accepted : (prepareHookEvent drawn persist eventType payload ⟨snapshot, sidecar.file⟩).1
      = .ok prepared)
    (sign : String → Int → Json → String) (target : AgentTarget) (timestamp : Int)
    (agentId fingerprint : String) (fresh : Uuid) :
    (∃ envelope decoded,
        SignedEventEnvelope.ofSigned (publish sign agentId eventType prepared timestamp)
          = some envelope
        ∧ decodeEvent fresh target envelope fingerprint = .ok decoded)
      ↔ ConsumerTakes eventType payload := by
  have current := current_of_reachable reachable snapshot running
  have acceptable := acceptable_of_prepareHookEvent current accepted
  rw [ofSigned_publish, ← decodeEvent_iff_of_acceptable acceptable fresh target timestamp agentId
    (sign agentId timestamp (SignedEventPayload.toJson ⟨eventType, prepared⟩)) fingerprint]
  constructor
  · rintro ⟨envelope, decoded, ⟨⟩, taken⟩
    exact ⟨decoded, taken⟩
  · rintro ⟨decoded, taken⟩
    exact ⟨_, decoded, rfl, taken⟩

end Agreement

/-! A finished tool, with and without a sequence number of its own. -/

namespace Sample

open Forge.HookSequencing.Sample

def target : AgentTarget := ⟨default, default, none⟩

def finished (sequence : Option Int) : Json :=
  .object (("id", .string "event") :: sequence.toList.map fun number =>
    ("lifecycleSequence", .number number 0))

def snapshot : HookStateSnapshot := ⟨1, "generation-a", some "session-a", 1⟩

def prepared (sequence : Option Int) : Except HookError Json :=
  (prepareHookEvent default .synced "post_tool_use" (finished sequence)
    ⟨snapshot, (sidecar started).file⟩).1

def published (sequence : Option Int) : SignedEnvelope :=
  publish (fun _ _ _ => "signed") "agent" "post_tool_use" (finished sequence) 0

theorem reachable_started :
    Reachable (exec "generation-a") initial (fun _ _ => True) (sidecar started) :=
  reachable_run ⟨rfl, rfl⟩ (by decide)

theorem running_started : (sidecar started).running = some snapshot := by
  decide +kernel

end Sample

theorem hook_agreement_finished :
    ∃ envelope decoded, SignedEventEnvelope.ofSigned (Sample.published none) = some envelope
      ∧ decodeEvent default Sample.target envelope "generation-a" = .ok decoded := by
  have accepted : Sample.prepared none = .ok (Sample.finished none) := by decide +kernel
  refine (hook_agreement Sample.reachable_started Sample.running_started accepted
    (fun _ _ _ => "signed") Sample.target 0 "agent" "generation-a" default).2 ?_
  rw [ConsumerTakes, if_neg (by decide)]
  rfl

/-- The sidecar accepts a finished tool with a sequence number, and the consumer rejects what it
publishes of it. -/
theorem numbered_tool_is_rejected :
    Sample.prepared (some 1) = .ok (Sample.finished (some 1))
      ∧ ¬∃ envelope decoded,
        SignedEventEnvelope.ofSigned (Sample.published (some 1)) = some envelope
          ∧ decodeEvent default Sample.target envelope "generation-a" = .ok decoded := by
  refine ⟨by decide +kernel, ?_⟩
  have rejected : (SignedEventEnvelope.ofSigned (Sample.published (some 1))).map (fun envelope =>
      decodeEvent default Sample.target envelope "generation-a")
        = some (.error (.permanent "lifecycle_sequence_unexpected"
          "event post_tool_use cannot carry lifecycleSequence")) := by
    decide +kernel
  rintro ⟨envelope, decoded, read, taken⟩
  rw [read, Option.map_some, taken] at rejected
  cases rejected

end Forge.HookAgreement
