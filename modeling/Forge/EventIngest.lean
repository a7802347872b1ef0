import Forge.EventDecoding
import Forge.System

/-! The store of ingested events: one transaction under the lifecycle lock of the agent, and the
consumer that runs it for every signed event. -/

namespace Forge.EventIngest

open Forge.DependencyReadiness
open Forge.EventDecoding
open Forge.Library.Fallible
open Forge.Library.Identifier
open Forge.Library.JsonDocument
open Forge.Library.KeyedTable
open Forge.ResultConsumer
open Forge.Schema
open Forge.System

/-- The columns of `agents` that events read and write. -/
structure AgentRow where
  id : Uuid
  organizationId : Uuid
  hmacSecret : Option String
  cliSessionId : Option String
  status : AgentStatus
  currentTool : Option String
  cwd : Option String
  interactiveOwnerSessionId : Option String
  interactiveLeaseExpiresAt : Option Timestamp
  lifecycleGenerationFingerprint : Option String
  lastLifecycleSequence : Int
  updatedAt : Timestamp
deriving DecidableEq

/-- A row of `events` with an ingest identity. -/
structure EventRow where
  organizationId : Uuid
  agentId : Uuid
  eventType : String
  payload : Json
  sessionId : Option String
  ingestEventId : String
  ingestGenerationFingerprint : String
  lifecycleSequence : Option Int
  ingestApplied : Bool
deriving DecidableEq

def EventRow.key (row : EventRow) : Uuid × String × String :=
  (row.agentId, row.ingestGenerationFingerprint, row.ingestEventId)

def eventKey (event : PersistedEvent) : Uuid × String × String :=
  (event.agentId, event.generationFingerprint, event.ingestEventId)

structure EventDb where
  agents : Table AgentRow AgentRow.id
  participants : Table Participant Participant.key
  tasks : Tasks
  events : Table EventRow EventRow.key

inductive EventIngestOutcome where
  | applied | superseded | duplicateApplied | duplicateSuperseded | staleGeneration
  | agentMissing | agentScopeChanged | eventIdConflict
deriving DecidableEq, Repr

inductive IngestError where
  | failed (message : String)
  | uniqueViolation
deriving DecidableEq, Repr

def AgentRow.hasInteractiveEpoch (agent : AgentRow) (now : Timestamp) : Bool :=
  agent.interactiveLeaseExpiresAt.any fun expires => now < expires

def hasOrchestrationOwner (db : EventDb) (agent : AgentRow) : Bool :=
  (db.participants.any fun p => p.organizationId == agent.organizationId
      && p.agentId == agent.id && p.status == .busy)
    || db.tasks.any fun task => task.organizationId == agent.organizationId
      && task.assignedAgentId == some agent.id && task.status == .working

/-- How a stored event with the same identity compares. -/
def duplicateOutcome (agent : AgentRow) (event : PersistedEvent) (patch : AgentRuntimePatch)
    (duplicate : EventRow) : EventIngestOutcome :=
  let sameEvent := duplicate.eventType == event.eventType
    && duplicate.payload.same event.payload && duplicate.sessionId == event.sessionId
  let duplicateIsStale := duplicate.lifecycleSequence.any fun sequence =>
    let sameSignedGeneration :=
      agent.lifecycleGenerationFingerprint == some event.generationFingerprint
    let legacyMode :=
      agent.lifecycleGenerationFingerprint.isNone && patch.lifecycleSequence.isNone
    (sameSignedGeneration || legacyMode) && decide (sequence < agent.lastLifecycleSequence)
  match sameEvent, duplicate.ingestApplied, duplicateIsStale with
  | true, true, false => .duplicateApplied
  | true, true, true => .duplicateSuperseded
  | true, false, _ => .duplicateSuperseded
  | _, _, _ => .eventIdConflict

def AgentRow.previousSequence (agent : AgentRow) (sameMode : Bool) : Int :=
  if sameMode then agent.lastLifecycleSequence else 0

/-- The lifecycle cursor: whether the event may be applied, its sequence number, and the agent
with its cursor moved. -/
def advanceCursor (agent : AgentRow) (event : PersistedEvent) (patch : AgentRuntimePatch) :
    Except IngestError (Bool × Option Int × AgentRow) :=
  let current := agent.lifecycleGenerationFingerprint == some event.generationFingerprint
  if patch.status.isSome then
    match patch.lifecycleSequence with
    | some sequence =>
        if sequence ≤ agent.previousSequence current then .ok (false, some sequence, agent)
        else .ok (true, some sequence, { agent with
          lifecycleGenerationFingerprint := some event.generationFingerprint
          lastLifecycleSequence := sequence })
    | none =>
        if current then .ok (false, none, agent)
        else
          let previous := agent.previousSequence agent.lifecycleGenerationFingerprint.isNone
          if (2 : Int) ^ 63 ≤ previous + 1 then
            .error (.failed "legacy lifecycle sequence exhausted")
          else .ok (true, some (previous + 1), { agent with
            lifecycleGenerationFingerprint := none
            lastLifecycleSequence := previous + 1 })
  else if patch.lifecycleSequence.isSome then
    .error (.failed "non-lifecycle event carried a lifecycle sequence")
  else .ok (true, none, agent)

def ownerTransitionConflicts (agent : AgentRow) (hasOwner : Bool) (patch : AgentRuntimePatch)
    (now : Timestamp) : Bool :=
  let hasEpoch := agent.hasInteractiveEpoch now
  let ownerSessionMatches := patch.interactiveOwnerSession == agent.interactiveOwnerSessionId
  match patch.status with
  | some .working => !hasOwner && (patch.interactiveOwnerSession.isNone
      || (hasEpoch && agent.interactiveOwnerSessionId.isSome && !ownerSessionMatches))
  | some .idle => hasOwner || !hasEpoch || patch.interactiveOwnerSession.isNone
      || !ownerSessionMatches
  | _ => false

/-- The UPDATE that a patch builds. -/
def patchAgent (hasOwner : Bool) (patch : AgentRuntimePatch) (now : Timestamp)
    (agent : AgentRow) : AgentRow :=
  { agent with
    updatedAt := now
    status := patch.status.getD agent.status
    interactiveOwnerSessionId :=
      if patch.status = some .working ∧ hasOwner = false then patch.interactiveOwnerSession
      else agent.interactiveOwnerSessionId
    interactiveLeaseExpiresAt :=
      if hasOwner then agent.interactiveLeaseExpiresAt
      else match patch.status with
        | some .working => some (now + 120 * second)
        | some .idle => none
        | _ => agent.interactiveLeaseExpiresAt
    currentTool :=
      match patch.currentTool with
      | some (.set tool) => some tool
      | some .clear => none
      | none => agent.currentTool
    cwd := patch.cwd.or agent.cwd }

def receiveNew (agent : AgentRow) (hasOwner : Bool) (event : PersistedEvent)
    (patch : AgentRuntimePatch) (now : Timestamp) :
    Except IngestError (Bool × Option Int × AgentRow) := do
  let (admitted, sequence, advanced) ← advanceCursor agent event patch
  if admitted = false ∨ patch.isNoop = true then pure (admitted, sequence, advanced)
  else if ownerTransitionConflicts agent hasOwner patch now then pure (false, sequence, advanced)
  else pure (true, sequence, patchAgent hasOwner patch now advanced)

def eventRow (event : PersistedEvent) (sequence : Option Int) (applied : Bool) : EventRow where
  organizationId := event.organizationId
  agentId := event.agentId
  eventType := event.eventType
  payload := event.payload.stored
  sessionId := event.sessionId
  ingestEventId := event.ingestEventId
  ingestGenerationFingerprint := event.generationFingerprint
  lifecycleSequence := sequence
  ingestApplied := applied

def replaceAgent (agents : Table AgentRow AgentRow.id) (next : AgentRow) :
    Table AgentRow AgentRow.id :=
  agents.update (fun row => row.id == next.id) (fun row => { next with id := row.id }) fun _ => rfl

/-- `SqlxEventStore::ingest`. -/
def ingest (fingerprint : String → String) (db : EventDb) (event : PersistedEvent)
    (patch : AgentRuntimePatch) (now : Timestamp) :
    Except IngestError (EventDb × EventIngestOutcome) :=
  match db.agents.find? fun agent => agent.id == event.agentId with
  | none => .ok (db, .agentMissing)
  | some agent =>
      if agent.organizationId ≠ event.organizationId then .ok (db, .agentScopeChanged)
      else if agent.hmacSecret.map fingerprint ≠ some event.generationFingerprint then
        .ok (db, .staleGeneration)
      else match db.events.find? fun row => row.key == eventKey event with
        | some duplicate => .ok (db, duplicateOutcome agent event patch duplicate)
        | none => do
            let (applied, sequence, next) ←
              receiveNew agent (hasOrchestrationOwner db agent) event patch now
            let events ← (db.events.insert? (eventRow event sequence applied)).elim
              (.error .uniqueViolation) .ok
            pure ({ db with agents := replaceAgent db.agents next, events },
              if applied then .applied else .superseded)

/-- `parse_events_ingest_subject`. -/
def parseEventsIngestSubject (subject : String) : Option Uuid :=
  parseResultSubject subject "events.ingest"

def broadcastMessages (decoded : DecodedEvent) : List (String × ServerMessage) :=
  (decoded.broadcast :: decoded.turnInvalidate.toList).map fun message =>
    (decoded.broadcastSubject, message)

/-- What `handle` answers after the outcome of an ingest. -/
def reply (decoded : DecodedEvent) : EventIngestOutcome →
    Except ConsumeError (List (String × ServerMessage))
  | .applied | .duplicateApplied => .ok (broadcastMessages decoded)
  | .superseded | .duplicateSuperseded => .ok []
  | .staleGeneration => .error (.permanent "stale_container_generation" ("agent "
      ++ decoded.persisted.agentId.toText ++ " generation changed before event receipt"))
  | .agentMissing => .error (.permanent "agent_disappeared" ("agent "
      ++ decoded.persisted.agentId.toText ++ " disappeared during event receipt"))
  | .agentScopeChanged => .error (.permanent "agent_scope_changed" ("agent "
      ++ decoded.persisted.agentId.toText ++ " organization changed during event receipt"))
  | .eventIdConflict => .error (.permanent "event_id_conflict" ("agent "
      ++ decoded.persisted.agentId.toText ++ " reused an event ID for different content"))

section Consumer

variable (crypto : Crypto)

/-- The part of `handle` before the store: subject, sender, replay window, secret, signature,
agent and data. The secret and the agent are read from two earlier databases. -/
def authenticateEvent (secretSeen targetSeen : EventDb) (subject : String)
    (envelope : SignedEventEnvelope) (drawn : Uuid) (nowSecs : Int) :
    Except ConsumeError DecodedEvent := do
  let agentId ← (parseEventsIngestSubject subject).elim
    (.error (.permanent "bad_subject" ("unsupported event subject " ++ subject))) .ok
  if envelope.agentId ≠ agentId.toText then
    throw (.permanent "envelope_agent_mismatch" ("envelope_agent_mismatch: subject "
      ++ agentId.toText ++ " vs envelope " ++ envelope.agentId))
  else if withinReplayWindow nowSecs envelope.timestamp = false then
    throw (.permanent "timestamp_outside_window" ("timestamp_outside_window: envelope ts "
      ++ toString envelope.timestamp ++ " vs now " ++ toString nowSecs))
  else
    let secret ← ((secretSeen.agents.find? fun agent => agent.id == agentId).bind
        fun agent => agent.hmacSecret).elim
      (.error (.permanent "agent_unknown"
        ("agent_unknown: no hmac_secret for agent " ++ agentId.toText))) .ok
    if crypto.verify secret envelope.toSigned = false then
      throw (.permanent "signature_mismatch" ("signature_mismatch: agent " ++ agentId.toText))
    else
      let agent ← (targetSeen.agents.find? fun agent => agent.id == agentId).elim
        (.error (.permanent "agent_not_found" ("agent " ++ agentId.toText ++ " not found"))) .ok
      decodeEvent drawn ⟨agent.id, agent.organizationId, agent.cliSessionId⟩ envelope
        (crypto.fingerprint secret)

/-- `EventConsumer::handle`: the database after it, and the messages to broadcast. -/
def handle (db secretSeen targetSeen : EventDb) (subject : String)
    (envelope : SignedEventEnvelope) (drawn : Uuid) (now : Timestamp) :
    EventDb × Except ConsumeError (List (String × ServerMessage)) :=
  match authenticateEvent crypto secretSeen targetSeen subject envelope drawn (now / second) with
  | .error err => (db, .error err)
  | .ok decoded =>
      if decoded.persistable then
        match ingest crypto.fingerprint db decoded.persisted decoded.runtimePatch now with
        | .error _ => (db, .error .transient)
        | .ok (after, outcome) => (after, reply decoded outcome)
      else if decoded.runtimePatch.isNoop = false then
        (db, .error (.permanent "non_persisted_runtime_patch" ("event "
          ++ decoded.persisted.eventType
          ++ " cannot mutate Agent state without a durable receipt")))
      else (db, .ok (broadcastMessages decoded))

end Consumer

structure Feed where
  db : EventDb
  past : List EventDb

def EventDb.empty : EventDb := ⟨.empty, .empty, .empty, .empty⟩

namespace Feed

def start : Feed := ⟨.empty, []⟩

def snapshot (feed : Feed) (commitsAgo : Nat) : EventDb :=
  (feed.db :: feed.past).getD commitsAgo feed.db

end Feed

/-- A delivered event, or a change by the rest of the system: of an agent outside its lifecycle
cursor, or of the orchestration tables. -/
inductive Command where
  | receive (subject : String) (envelope : SignedEventEnvelope) (secretAgo targetAgo : Nat)
      (drawn : Uuid)
  | putAgent (row : AgentRow)
  | setWork (participants : Table Participant Participant.key) (tasks : Tasks)

structure Action where
  command : Command
  now : Timestamp

def putAgent (agents : Table AgentRow AgentRow.id) (row : AgentRow) :
    Table AgentRow AgentRow.id :=
  (agents.insert? { row with lifecycleGenerationFingerprint := none
                             lastLifecycleSequence := 0 }).getD
    (agents.update (fun old => old.id == row.id) (fun old => { row with
      id := old.id
      organizationId := old.organizationId
      lifecycleGenerationFingerprint := old.lifecycleGenerationFingerprint
      lastLifecycleSequence := old.lastLifecycleSequence }) fun _ => rfl)

section Machine

variable (crypto : Crypto)

/-- What `handle` makes of a delivery, up to the store. -/
def Feed.authenticated (feed : Feed) (subject : String) (envelope : SignedEventEnvelope)
    (secretAgo targetAgo : Nat) (drawn : Uuid) (now : Timestamp) :
    Except ConsumeError DecodedEvent :=
  authenticateEvent crypto (feed.snapshot secretAgo) (feed.snapshot targetAgo) subject envelope
    drawn (now / second)

def commit (feed : Feed) (a : Action) : EventDb :=
  match a.command with
  | .receive subject envelope secretAgo targetAgo drawn =>
      (handle crypto feed.db (feed.snapshot secretAgo) (feed.snapshot targetAgo) subject envelope
        drawn a.now).1
  | .putAgent row => { feed.db with agents := EventIngest.putAgent feed.db.agents row }
  | .setWork participants tasks => { feed.db with participants, tasks }

def exec (feed : Feed) (a : Action) : Feed :=
  ⟨commit crypto feed a, feed.db :: feed.past⟩

end Machine

/-! What an ingest does. -/

section Steps

variable {fingerprint : String → String} {db : EventDb} {event : PersistedEvent}
  {patch : AgentRuntimePatch} {now : Timestamp}

/-- An ingest either leaves the database as it is, or finds the agent of the event in its
generation and no event with its identity, and stores the event with what becomes of the
agent. -/
inductive Ingested (fingerprint : String → String) (db : EventDb) (event : PersistedEvent)
    (patch : AgentRuntimePatch) (now : Timestamp) : EventDb × EventIngestOutcome → Prop where
  | unchanged {outcome : EventIngestOutcome} (applied : outcome ≠ .applied)
      (superseded : outcome ≠ .superseded) : Ingested fingerprint db event patch now (db, outcome)
  | stored {agent next : AgentRow} {applied : Bool} {sequence : Option Int}
      {events : Table EventRow EventRow.key} (found : agent ∈ db.agents)
      (same : agent.id = event.agentId)
      (organization : agent.organizationId = event.organizationId)
      (generation : agent.hmacSecret.map fingerprint = some event.generationFingerprint)
      (absent : ∀ row ∈ db.events, row.key ≠ eventKey event)
      (received : receiveNew agent (hasOrchestrationOwner db agent) event patch now
        = .ok (applied, sequence, next))
      (inserted : db.events.insert? (eventRow event sequence applied) = some events) :
      Ingested fingerprint db event patch now
        ({ db with agents := replaceAgent db.agents next, events },
          if applied then .applied else .superseded)

theorem duplicateOutcome_cases (agent : AgentRow) (event : PersistedEvent)
    (patch : AgentRuntimePatch) (duplicate : EventRow) :
    duplicateOutcome agent event patch duplicate ≠ .applied
      ∧ duplicateOutcome agent event patch duplicate ≠ .superseded := by
  unfold duplicateOutcome
  dsimp only
  split <;> exact ⟨nofun, nofun⟩

theorem ingested_of_ingest {result : EventDb × EventIngestOutcome}
    (done : ingest fingerprint db event patch now = .ok result) :
    Ingested fingerprint db event patch now result := by
  unfold ingest at done
  split at done
  case h_1 =>
      cases done
      exact .unchanged nofun nofun
  case h_2 agent found =>
      obtain ⟨member, same⟩ := Table.mem_of_find? found
      split at done
      case isTrue =>
          cases done
          exact .unchanged nofun nofun
      case isFalse organization =>
          split at done
          case isTrue =>
              cases done
              exact .unchanged nofun nofun
          case isFalse generation =>
              split at done
              case h_1 duplicate _ =>
                  cases done
                  have outcome := duplicateOutcome_cases agent event patch duplicate
                  exact .unchanged outcome.1 outcome.2
              case h_2 absent =>
                  simp only [bind_eq_ok, elim_eq_ok, pure_eq_ok] at done
                  obtain ⟨⟨applied, sequence, next⟩, received, events, inserted, rfl⟩ := done
                  refine .stored member (by simpa using same) (not_not.1 organization)
                    (not_not.1 generation) ?_ received inserted
                  intro row there
                  simpa using Table.find?_eq_none.1 absent row there

/-- The agent that an event is for, in the organization and the generation of the event. -/
structure Addressed (fingerprint : String → String) (db : EventDb) (event : PersistedEvent)
    (agent : AgentRow) : Prop where
  found : agent ∈ db.agents
  id : agent.id = event.agentId
  organization : agent.organizationId = event.organizationId
  generation : agent.hmacSecret.map fingerprint = some event.generationFingerprint

theorem ingest_duplicate {agent : AgentRow} (addressed : Addressed fingerprint db event agent)
    {row : EventRow} (member : row ∈ db.events) (key : row.key = eventKey event) :
    ingest fingerprint db event patch now = .ok (db, duplicateOutcome agent event patch row) := by
  rw [ingest, Table.find?_key addressed.found addressed.id]
  dsimp only
  rw [if_neg (not_not.2 addressed.organization), if_neg (not_not.2 addressed.generation),
    Table.find?_key member key]

theorem ingest_new {agent next : AgentRow} (addressed : Addressed fingerprint db event agent)
    (absent : ∀ row ∈ db.events, row.key ≠ eventKey event) {applied : Bool}
    {sequence : Option Int} (received : receiveNew agent (hasOrchestrationOwner db agent) event
      patch now = .ok (applied, sequence, next)) :
    ∃ events, (∀ row, row ∈ events ↔ row = eventRow event sequence applied ∨ row ∈ db.events)
      ∧ ingest fingerprint db event patch now
        = .ok ({ db with agents := replaceAgent db.agents next, events },
          if applied then .applied else .superseded) := by
  have free : db.events.insert? (eventRow event sequence applied) ≠ none := by
    intro taken
    obtain ⟨row, there, same⟩ := Table.insert?_eq_none.1 taken
    exact absent row there same
  obtain ⟨events, inserted⟩ := Option.ne_none_iff_exists'.1 free
  have unseen : db.events.find? (fun row => row.key == eventKey event) = none := by
    refine Table.find?_eq_none.2 fun row member => ?_
    rw [beq_eq_false_iff_ne]
    exact absent row member
  refine ⟨events, (Table.insert?_eq_some inserted).2, ?_⟩
  rw [ingest, Table.find?_key addressed.found addressed.id]
  dsimp only
  rw [if_neg (not_not.2 addressed.organization), if_neg (not_not.2 addressed.generation), unseen]
  simp only [bind_eq_ok, elim_eq_ok, pure_eq_ok]
  exact ⟨_, received, events, inserted, rfl⟩

theorem advanceCursor_ne_uniqueViolation (agent : AgentRow) :
    advanceCursor agent event patch ≠ .error .uniqueViolation := by
  intro violated
  unfold advanceCursor at violated
  dsimp only at violated
  split at violated
  · split at violated
    · split at violated <;> cases violated
    · split at violated
      · cases violated
      · split at violated <;> cases violated
  · split at violated <;> cases violated

theorem receiveNew_ne_uniqueViolation (agent : AgentRow) (hasOwner : Bool) :
    receiveNew agent hasOwner event patch now ≠ .error .uniqueViolation := by
  intro violated
  rw [receiveNew] at violated
  cases cursor : advanceCursor agent event patch with
  | error err =>
      rw [cursor] at violated
      cases violated
      exact advanceCursor_ne_uniqueViolation agent cursor
  | ok advanced =>
      rw [cursor] at violated
      rcases advanced with ⟨admitted, sequence, next⟩
      change (if _ then _ else if _ then _ else _ : Except IngestError _) = _ at violated
      split at violated
      · cases violated
      · split at violated <;> cases violated

theorem ingest_ne_uniqueViolation :
    ingest fingerprint db event patch now ≠ .error .uniqueViolation := by
  intro violated
  unfold ingest at violated
  split at violated
  case h_1 => cases violated
  case h_2 agent _ =>
      split at violated
      case isTrue => cases violated
      case isFalse =>
          split at violated
          case isTrue => cases violated
          case isFalse =>
              split at violated
              case h_1 => cases violated
              case h_2 absent =>
                  cases received : receiveNew agent (hasOrchestrationOwner db agent) event patch
                      now with
                  | error err =>
                      rw [received] at violated
                      cases violated
                      exact receiveNew_ne_uniqueViolation agent _ received
                  | ok next =>
                      have free : db.events.insert? (eventRow event next.2.1 next.1) ≠ none := by
                        intro taken
                        obtain ⟨row, there, same⟩ := Table.insert?_eq_none.1 taken
                        have other := Table.find?_eq_none.1 absent row there
                        rw [beq_eq_false_iff_ne] at other
                        exact other same
                      obtain ⟨events, inserted⟩ := Option.ne_none_iff_exists'.1 free
                      rw [received] at violated
                      change (((db.events.insert? (eventRow event next.2.1 next.1)).elim
                        (.error .uniqueViolation) .ok >>= _ : Except IngestError _) = _) at violated
                      rw [inserted] at violated
                      cases violated

theorem advanceCursor_cases {agent next : AgentRow} {admitted : Bool} {sequence : Option Int}
    (moved : advanceCursor agent event patch = .ok (admitted, sequence, next)) :
    next = agent
    ∨ (∃ number, patch.lifecycleSequence = some number
      ∧ agent.previousSequence
        (agent.lifecycleGenerationFingerprint == some event.generationFingerprint) < number
      ∧ next = { agent with
        lifecycleGenerationFingerprint := some event.generationFingerprint
        lastLifecycleSequence := number })
    ∨ (patch.lifecycleSequence = none
      ∧ agent.lifecycleGenerationFingerprint ≠ some event.generationFingerprint
      ∧ next = { agent with
        lifecycleGenerationFingerprint := none
        lastLifecycleSequence :=
          agent.previousSequence agent.lifecycleGenerationFingerprint.isNone + 1 }) := by
  unfold advanceCursor at moved
  dsimp only at moved
  split at moved
  case isTrue =>
      split at moved
      case h_1 number numbered =>
          split at moved
          case isTrue =>
              cases moved
              exact .inl rfl
          case isFalse later =>
              cases moved
              exact .inr (.inl ⟨number, numbered, by omega, rfl⟩)
      case h_2 unnumbered =>
          split at moved
          case isTrue =>
              cases moved
              exact .inl rfl
          case isFalse other =>
              split at moved
              case isTrue => cases moved
              case isFalse =>
                  cases moved
                  exact .inr (.inr ⟨unnumbered, by simpa using other, rfl⟩)
  case isFalse =>
      split at moved
      case isTrue => cases moved
      case isFalse =>
          cases moved
          exact .inl rfl

theorem receiveNew_cases {agent next : AgentRow} {hasOwner applied : Bool}
    {sequence : Option Int}
    (received : receiveNew agent hasOwner event patch now = .ok (applied, sequence, next)) :
    ∃ admitted advanced, advanceCursor agent event patch = .ok (admitted, sequence, advanced)
      ∧ (next = advanced ∨ next = patchAgent hasOwner patch now advanced) := by
  simp only [receiveNew, bind_eq_ok] at received
  obtain ⟨⟨admitted, number, advanced⟩, moved, rest⟩ := received
  dsimp only at rest
  split at rest
  · cases rest
    exact ⟨_, _, moved, .inl rfl⟩
  · split at rest
    · cases rest
      exact ⟨_, _, moved, .inl rfl⟩
    · cases rest
      exact ⟨_, _, moved, .inr rfl⟩

/-- The columns of an agent that no event writes. -/
structure SameAgent (agent next : AgentRow) : Prop where
  id : next.id = agent.id
  organizationId : next.organizationId = agent.organizationId
  hmacSecret : next.hmacSecret = agent.hmacSecret
  cliSessionId : next.cliSessionId = agent.cliSessionId

/-- The cursor of an agent moves forward, in a generation for good. -/
structure CursorForward (generation : String) (agent next : AgentRow) : Prop where
  forward : next.lifecycleGenerationFingerprint = agent.lifecycleGenerationFingerprint →
    agent.lastLifecycleSequence ≤ next.lastLifecycleSequence
  settled : agent.lifecycleGenerationFingerprint = some generation →
    next.lifecycleGenerationFingerprint = some generation

theorem cursorForward_advanceCursor {agent next : AgentRow} {admitted : Bool}
    {sequence : Option Int}
    (moved : advanceCursor agent event patch = .ok (admitted, sequence, next)) :
    SameAgent agent next ∧ CursorForward event.generationFingerprint agent next := by
  rcases advanceCursor_cases moved with rfl | ⟨number, -, later, rfl⟩ | ⟨-, other, rfl⟩
  · exact ⟨⟨rfl, rfl, rfl, rfl⟩, ⟨fun _ => le_refl _, fun same => same⟩⟩
  · refine ⟨⟨rfl, rfl, rfl, rfl⟩, ⟨fun same => ?_, fun _ => rfl⟩⟩
    have current : some event.generationFingerprint = agent.lifecycleGenerationFingerprint := same
    rw [← current, AgentRow.previousSequence, if_pos (beq_self_eq_true _)] at later
    exact later.le
  · refine ⟨⟨rfl, rfl, rfl, rfl⟩, ⟨fun same => ?_, fun current => absurd current other⟩⟩
    have legacy : none = agent.lifecycleGenerationFingerprint := same
    show agent.lastLifecycleSequence ≤ agent.previousSequence _ + 1
    rw [← legacy, AgentRow.previousSequence, Option.isNone_none, if_pos rfl]
    omega

theorem cursorForward_receiveNew {agent next : AgentRow} {hasOwner applied : Bool}
    {sequence : Option Int}
    (received : receiveNew agent hasOwner event patch now = .ok (applied, sequence, next)) :
    SameAgent agent next ∧ CursorForward event.generationFingerprint agent next := by
  obtain ⟨admitted, advanced, moved, rfl | rfl⟩ := receiveNew_cases received
  · exact cursorForward_advanceCursor moved
  · obtain ⟨same, cursor⟩ := cursorForward_advanceCursor moved
    exact ⟨⟨same.id, same.organizationId, same.hmacSecret, same.cliSessionId⟩,
      ⟨cursor.forward, cursor.settled⟩⟩

end Steps

end Forge.EventIngest
