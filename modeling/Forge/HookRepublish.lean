import Forge.EventReceipts
import Forge.HookAgreement

/-! When the consumer recognises a second copy of one hook event, published again from the
sidecar's log under a new timestamp and signature. -/

namespace Forge.HookRepublish

open Forge.EventDecoding
open Forge.EventIngest
open Forge.EventReceipts
open Forge.HookAgreement
open Forge.HookEvents
open Forge.HookSequencing (Sidecar)
open Forge.Library.Fallible
open Forge.Library.Identifier
open Forge.Library.JsonDocument
open Forge.Library.KeyedTable
open Forge.Library.StateMachine
open Forge.Schema
open Forge.System (Crypto)

/-- `wal_record`: what the sidecar appends to its log. -/
def walRecord (eventType : String) (data : Json) : Json :=
  .object [("payload", (SignedEventPayload.toJson ⟨eventType, data⟩))]

/-- What `drain_wal` publishes again: the event type and the data of a record. -/
def drained (record : Json) : String × Json :=
  let payload := (record.get "payload").getD .null
  (((payload.get "event_type").bind Json.asStr).getD "unknown", (payload.get "data").getD .null)

theorem drained_walRecord (eventType : String) (data : Json) :
    drained (walRecord eventType data) = (eventType, data) := by
  have payload : (walRecord eventType data).get "payload"
      = some (SignedEventPayload.toJson ⟨eventType, data⟩) := by
    rw [walRecord, Json.get, lookup_entry, if_pos rfl]
  have type : ((SignedEventPayload.toJson ⟨eventType, data⟩).get "event_type")
      = some (.string eventType) := by
    rw [SignedEventPayload.toJson, Json.get, lookup_entry, if_pos rfl]
  have inner : ((SignedEventPayload.toJson ⟨eventType, data⟩).get "data") = some data := by
    rw [SignedEventPayload.toJson, Json.get, lookup_entry, if_neg (by decide), lookup_entry,
      if_pos rfl]
  simp only [drained, payload, Option.getD_some, type, inner]
  rfl

def defaultField (eventType session : String) (organizationId : Uuid) (timestamp : Int)
    (key : String) : Option Json :=
  if key = "timestamp" then some (.number (timestamp * 1000) 0)
  else if key = "sessionId" then some (.string session)
  else if key = "orgId" then some (.string organizationId.toText)
  else if key = "type" then some (.string eventType)
  else none

section Fields

variable {eventType generation id : String} {organizationId : Uuid} {session : String}
  {data : Json} {timestamp ms : Int}

theorem get_fillEventData (object : data.isObject = true) (key : String) :
    (fillEventData eventType data (some session) organizationId timestamp id).get key
      = if key = "id" then some (.string id)
        else (data.get key).or (defaultField eventType session organizationId timestamp key) := by
  have filled : ∀ (key : String) (value : Json),
      some ((data.get key).getD value) = (data.get key).or (some value) := by
    intro key value
    cases data.get key <;> rfl
  rw [fillEventData, Option.elim_some, Json.get_insert (by simp [object])]
  simp only [Json.get_orInsert, Json.isObject_orInsert, object, String.reduceEq, if_false,
    filled, defaultField]
  by_cases timed : key = "timestamp"
  · simp [timed]
  by_cases owned : key = "sessionId"
  · simp [owned]
  by_cases organized : key = "orgId"
  · simp [organized]
  by_cases typed : key = "type"
  · simp [typed]
  simp [timed, owned, organized, typed]

theorem isObject_fillEventData (object : data.isObject = true) (session : Option String) :
    (fillEventData eventType data session organizationId timestamp id).isObject = true := by
  cases session <;> simp [fillEventData, object]

theorem get_stampEventData (object : data.isObject = true) (key : String) :
    (stampEventData eventType generation ms data).get key
      = if (deriveStatus eventType).isSome = true ∧ key = "timestamp" then some (.number ms 0)
        else if key = "containerGenerationFingerprint" then some (.string generation)
        else data.get key := by
  unfold stampEventData
  split
  case isTrue lifecycle =>
      rw [Json.get_insert (by simp [object]), Json.get_insert object]
      simp [lifecycle]
  case isFalse other =>
      rw [Json.get_insert object]
      simp [other]

theorem isObject_stampEventData (object : data.isObject = true) :
    (stampEventData eventType generation ms data).isObject = true := by
  unfold stampEventData
  split <;> simp [object]

end Fields

def fallbackSession (target : AgentTarget) : String :=
  target.cliSessionId.getD target.agentId.toText

def sessionText (target : AgentTarget) (data : Json) : String :=
  (extractSessionId data).getD (fallbackSession target)

theorem eventSessionId_eq (target : AgentTarget) (data : Json) :
    eventSessionId target data = some (sessionText target data) := by
  rw [eventSessionId, sessionText, fallbackSession]
  cases extractSessionId data <;> cases target.cliSessionId <;> rfl

/-- The stored timestamp comes from the data: a lifecycle event needs one in milliseconds, any
other event any value. -/
def StableTimestamp (eventType : String) (data : Json) : Prop :=
  if isLifecycleEvent eventType then ((data.get "timestamp").bind Json.asI64).isSome = true
  else (data.get "timestamp").isSome = true

def Survives (eventType : String) (data : Json) : Prop :=
  ∀ key value, data.get key = some value → key ≠ "containerGenerationFingerprint" →
    (isLifecycleEvent eventType = true → key ≠ "timestamp") → value.stored.same value = true

section Copies

variable {eventType generation id : String} {data : Json}

theorem eventTimestampMs_eq (object : data.isObject = true) (session : String)
    (organizationId : Uuid) (timestamp : Int) :
    eventTimestampMs (fillEventData eventType data (some session) organizationId timestamp id)
        timestamp
      = ((data.get "timestamp").bind Json.asI64).getD (timestamp * 1000) := by
  rw [eventTimestampMs, get_fillEventData object, if_neg (by decide), defaultField, if_pos rfl]
  cases data.get "timestamp" with
  | some value => rfl
  | none =>
      rw [Option.none_or, Option.bind_some, Option.bind_none, Json.asI64]
      split <;> rfl

theorem get_storedData (object : data.isObject = true) (target : AgentTarget) (timestamp : Int)
    (agentId signature key : String) :
    (storedData target ⟨⟨eventType, data⟩, timestamp, agentId, signature⟩ id generation).get key
      = if isLifecycleEvent eventType = true ∧ key = "timestamp" then
          some (.number (((data.get "timestamp").bind Json.asI64).getD (timestamp * 1000)) 0)
        else if key = "containerGenerationFingerprint" then some (.string generation)
        else if key = "id" then some (.string id)
        else (data.get key).or (defaultField eventType (sessionText target data)
          target.organizationId timestamp key) := by
  simp only [storedData, eventSessionId_eq]
  rw [get_stampEventData (isObject_fillEventData object _), eventTimestampMs_eq object,
    deriveStatus_isSome, get_fillEventData object]

theorem isObject_storedData (object : data.isObject = true) (target : AgentTarget)
    (timestamp : Int) (agentId signature : String) :
    (storedData target ⟨⟨eventType, data⟩, timestamp, agentId, signature⟩ id
      generation).isObject = true :=
  isObject_stampEventData (isObject_fillEventData object _)

theorem stored_number (mantissa : Int) : (Json.number mantissa 0).stored = .number mantissa 0 := by
  simp [Json.stored, Json.storedNumber]

theorem stored_string (text : String) : (Json.string text).stored = .string text := by
  simp only [Json.stored]

theorem map_stored_defaultField (session : String) (organizationId : Uuid) (timestamp : Int)
    (key : String) :
    (defaultField eventType session organizationId timestamp key).map Json.stored
      = defaultField eventType session organizationId timestamp key := by
  unfold defaultField
  split
  · rw [Option.map_some, stored_number]
  · split
    · rw [Option.map_some, stored_string]
    · split
      · rw [Option.map_some, stored_string]
      · split
        · rw [Option.map_some, stored_string]
        · rfl

theorem number_inj_of_canonical {left right : Int}
    (equal : ((some (Json.number left 0)).map Json.stored).map Json.canonical
      = (some (Json.number right 0)).map Json.canonical) : left = right := by
  rw [Option.map_some, stored_number] at equal
  simpa [Json.canonical] using equal

theorem same_storedData_iff (object : data.isObject = true)
    (identity : data.get "id" = some (.string id)) {target₁ target₂ : AgentTarget}
    (organization : target₁.organizationId = target₂.organizationId) (timestamp₁ timestamp₂ : Int)
    (agentId signature₁ signature₂ : String) :
    ((storedData target₁ ⟨⟨eventType, data⟩, timestamp₁, agentId, signature₁⟩ id
          generation).stored.same
        (storedData target₂ ⟨⟨eventType, data⟩, timestamp₂, agentId, signature₂⟩ id generation)
          = true
      ∧ sessionText target₁ data = sessionText target₂ data)
    ↔ (StableTimestamp eventType data ∨ timestamp₁ = timestamp₂)
      ∧ ((extractSessionId data).isSome = true
        ∨ fallbackSession target₁ = fallbackSession target₂)
      ∧ Survives eventType data := by
  rw [Json.same_iff_get (by rw [Json.isObject_stored]; exact isObject_storedData object _ _ _ _)
    (isObject_storedData object _ _ _ _)]
  simp only [Json.get_stored, get_storedData object]
  constructor
  · rintro ⟨fields, session⟩
    refine ⟨?_, ?_, ?_⟩
    · have equal := fields "timestamp"
      rw [StableTimestamp]
      cases lifecycle : isLifecycleEvent eventType with
      | true =>
          rw [if_pos ⟨lifecycle, rfl⟩, if_pos ⟨lifecycle, rfl⟩] at equal
          have number := number_inj_of_canonical equal
          cases reported : (data.get "timestamp").bind Json.asI64 with
          | some ms => exact .inl (by simp)
          | none =>
              rw [reported, Option.getD_none, Option.getD_none] at number
              exact .inr (by omega)
      | false =>
          cases reported : data.get "timestamp" with
          | some value => exact .inl (by simp)
          | none =>
              simp only [lifecycle, reported, Bool.false_eq_true, false_and, if_false,
                String.reduceEq, Option.none_or, defaultField, if_true] at equal
              have number := number_inj_of_canonical equal
              exact .inr (by omega)
    · rw [sessionText, sessionText] at session
      cases reported : extractSessionId data with
      | some text => exact .inl rfl
      | none =>
          rw [reported] at session
          exact .inr session
    · intro key value found other unstamped
      have equal := fields key
      have kept : ¬(isLifecycleEvent eventType = true ∧ key = "timestamp") :=
        fun both => unstamped both.1 both.2
      by_cases named : key = "id"
      · rw [named, identity] at found
        rw [← Option.some.inj found, stored_string]
        exact Json.same_refl _
      · rw [if_neg kept, if_neg other, if_neg named, if_neg kept, if_neg other, if_neg named,
          found, Option.some_or, Option.some_or, Option.map_some, Option.map_some,
          Option.map_some] at equal
        rw [Json.same, beq_iff_eq]
        exact Option.some.inj equal
  · rintro ⟨time, session, survives⟩
    have owner : sessionText target₁ data = sessionText target₂ data := by
      rw [sessionText, sessionText]
      rcases session with reported | same
      · obtain ⟨text, found⟩ := Option.isSome_iff_exists.1 reported
        rw [found, Option.getD_some, Option.getD_some]
      · rw [same]
    refine ⟨fun key => ?_, owner⟩
    by_cases stamped : isLifecycleEvent eventType = true ∧ key = "timestamp"
    · have same : ((data.get "timestamp").bind Json.asI64).getD (timestamp₁ * 1000)
          = ((data.get "timestamp").bind Json.asI64).getD (timestamp₂ * 1000) := by
        rcases time with stable | same
        · rw [StableTimestamp, if_pos stamped.1] at stable
          obtain ⟨ms, found⟩ := Option.isSome_iff_exists.1 stable
          rw [found, Option.getD_some, Option.getD_some]
        · rw [same]
      rw [if_pos stamped, if_pos stamped, same, Option.map_some, stored_number]
    by_cases generated : key = "containerGenerationFingerprint"
    · rw [if_neg stamped, if_pos generated, if_neg stamped, if_pos generated, Option.map_some,
        stored_string]
    by_cases named : key = "id"
    · rw [if_neg stamped, if_neg generated, if_pos named, if_neg stamped, if_neg generated,
        if_pos named, Option.map_some, stored_string]
    rw [if_neg stamped, if_neg generated, if_neg named, if_neg stamped, if_neg generated,
      if_neg named]
    cases found : data.get key with
    | some value =>
        have same := survives key value found generated fun lifecycle timed =>
          stamped ⟨lifecycle, timed⟩
        rw [Json.same, beq_iff_eq] at same
        rw [Option.some_or, Option.some_or, Option.map_some, Option.map_some, Option.map_some,
          same]
    | none =>
        have default : defaultField eventType (sessionText target₁ data) target₁.organizationId
            timestamp₁ key = defaultField eventType (sessionText target₂ data)
              target₂.organizationId timestamp₂ key := by
          rw [owner, organization, defaultField, defaultField]
          by_cases timed : key = "timestamp"
          · rw [if_pos timed, if_pos timed]
            rcases time with stable | same
            · rw [StableTimestamp] at stable
              split at stable
              case isTrue lifecycle => exact absurd ⟨lifecycle, timed⟩ stamped
              case isFalse =>
                  rw [← timed, found] at stable
                  cases stable
            · rw [same]
          · rw [if_neg timed, if_neg timed]
        rw [Option.none_or, Option.none_or, map_stored_defaultField, default]

end Copies

def Recognised (fingerprint : String → String) (db : EventDb) (decoded : DecodedEvent)
    (now : Timestamp) : Prop :=
  ∃ outcome, (outcome = .duplicateApplied ∨ outcome = .duplicateSuperseded)
    ∧ ingest fingerprint db decoded.persisted decoded.runtimePatch now = .ok (db, outcome)

section Ingest

variable {fingerprint : String → String} {db : EventDb} {decoded : DecodedEvent}
  {now : Timestamp}

theorem duplicateOutcome_iff {agent : AgentRow} {event : PersistedEvent}
    {patch : AgentRuntimePatch} {row : EventRow} :
    (duplicateOutcome agent event patch row = .duplicateApplied
        ∨ duplicateOutcome agent event patch row = .duplicateSuperseded)
      ↔ row.eventType = event.eventType ∧ row.payload.same event.payload = true
        ∧ row.sessionId = event.sessionId := by
  have same : (row.eventType == event.eventType && row.payload.same event.payload
      && row.sessionId == event.sessionId) = true ↔ row.eventType = event.eventType
        ∧ row.payload.same event.payload = true ∧ row.sessionId = event.sessionId := by
    simp [and_assoc]
  rw [← same, duplicateOutcome]
  dsimp only
  split <;> simp_all

theorem recognised_iff_of_row {row : EventRow} (member : row ∈ db.events)
    (key : row.key = eventKey decoded.persisted) {agent : AgentRow}
    (addressed : Addressed fingerprint db decoded.persisted agent) :
    Recognised fingerprint db decoded now ↔ row.eventType = decoded.persisted.eventType
      ∧ row.payload.same decoded.persisted.payload = true
      ∧ row.sessionId = decoded.persisted.sessionId := by
  rw [← @duplicateOutcome_iff agent decoded.persisted decoded.runtimePatch row, Recognised,
    ingest_duplicate addressed member key]
  constructor
  · rintro ⟨outcome, duplicate, same⟩
    cases same
    exact duplicate
  · intro duplicate
    exact ⟨_, duplicate, rfl⟩

theorem not_recognised_of_absent
    (absent : ∀ row ∈ db.events, row.key ≠ eventKey decoded.persisted) :
    ¬Recognised fingerprint db decoded now := by
  rintro ⟨outcome, duplicate, done⟩
  have free : db.events.find? (fun row => row.key == eventKey decoded.persisted) = none := by
    refine Table.find?_eq_none.2 fun row member => ?_
    rw [beq_eq_false_iff_ne]
    exact absent row member
  unfold ingest at done
  split at done
  case h_1 =>
      cases done
      simp at duplicate
  case h_2 agent _ =>
      split at done
      case isTrue =>
          cases done
          simp at duplicate
      case isFalse =>
          split at done
          case isTrue =>
              cases done
              simp at duplicate
          case isFalse =>
              rw [free] at done
              simp only [bind_eq_ok, elim_eq_ok, pure_eq_ok, Prod.mk.injEq] at done
              obtain ⟨⟨applied, sequence, next⟩, -, events, -, -, rfl⟩ := done
              cases applied <;> simp at duplicate

theorem stored_of_new {event : PersistedEvent} {patch : AgentRuntimePatch} {after : EventDb}
    {outcome : EventIngestOutcome}
    (received : ingest fingerprint db event patch now = .ok (after, outcome))
    (new : outcome = .applied ∨ outcome = .superseded) :
    (∃ sequence applied, eventRow event sequence applied ∈ after.events)
      ∧ ∃ agent ∈ after.agents, agent.id = event.agentId
        ∧ agent.organizationId = event.organizationId
        ∧ agent.hmacSecret.map fingerprint = some event.generationFingerprint := by
  cases ingested_of_ingest received with
  | unchanged applied superseded =>
      rcases new with rfl | rfl
      · exact absurd rfl applied
      · exact absurd rfl superseded
  | @stored agent next applied sequence events found same organization generation absent receivedNew
      inserted =>
      have kept := (cursorForward_receiveNew receivedNew).1
      refine ⟨⟨sequence, applied, ((Table.insert?_eq_some inserted).2 _).2 (.inl rfl)⟩, next, ?_,
        kept.id.trans same, kept.organizationId.trans organization, by
          rw [kept.hmacSecret, generation]⟩
      refine mem_replaceAgent.2 ⟨agent, found, ?_⟩
      rw [if_pos (beq_iff_eq.2 kept.id.symm), ← kept.id]

end Ingest

section Republish

variable {crypto : Crypto}

theorem stored_of_reaches {feed later : Feed}
    (leads : Reaches (exec crypto) (fun _ _ => True) feed later) {row : EventRow}
    (member : row ∈ feed.db.events) {id organizationId : Uuid}
    (there : ∃ agent ∈ feed.db.agents, agent.id = id ∧ agent.organizationId = organizationId) :
    row ∈ later.db.events
      ∧ ∃ agent ∈ later.db.agents, agent.id = id ∧ agent.organizationId = organizationId := by
  let Stored : Feed → Prop := fun feed => row ∈ feed.db.events
    ∧ ∃ agent ∈ feed.db.agents, agent.id = id ∧ agent.organizationId = organizationId
  refine (@Reaches.stable _ _ _ _ (fun _ => True) Stored (fun _ _ _ _ => trivial) ?_ _ _ leads
    trivial ⟨member, there⟩).2
  intro feed a _ stored _
  exact ⟨events_exec stored.1 a, organization_exec stored.2 a⟩

/-- What two copies of one record must share to be one event: the generation, the timestamp and
the session that are stored, and data that the column keeps. -/
structure SameEvent (eventType : String) (data : Json) (target₁ target₂ : AgentTarget)
    (generation₁ generation₂ : String) (timestamp₁ timestamp₂ : Int) : Prop where
  generation : generation₁ = generation₂
  time : StableTimestamp eventType data ∨ timestamp₁ = timestamp₂
  session : (extractSessionId data).isSome = true
    ∨ fallbackSession target₁ = fallbackSession target₂
  survives : Survives eventType data

theorem persisted_of_copy {eventType : String} {payload prepared : Json}
    (acceptable : Acceptable eventType payload prepared)
    {sign : String → Int → Json → String} {agentId : String} {timestamp : Int}
    {envelope : SignedEventEnvelope}
    (published : SignedEventEnvelope.ofSigned (publish sign agentId
      (drained (walRecord eventType prepared)).1 (drained (walRecord eventType prepared)).2
      timestamp) = some envelope) {fresh : Uuid} {target : AgentTarget} {generation : String}
    {decoded : DecodedEvent} (taken : decodeEvent fresh target envelope generation = .ok decoded) :
    ∃ id, prepared.get "id" = some (.string id) ∧ decoded.persisted = {
      organizationId := target.organizationId
      agentId := target.agentId
      eventType
      payload := storedData target ⟨⟨eventType, prepared⟩, timestamp, agentId,
        sign agentId timestamp (SignedEventPayload.toJson ⟨eventType, prepared⟩)⟩ id generation
      sessionId := some (sessionText target prepared)
      ingestEventId := id
      generationFingerprint := generation } := by
  rw [drained_walRecord, ofSigned_publish] at published
  cases published
  obtain ⟨id, sequence, identity, -, -, -, rfl⟩ := decodeEvent_eq_ok.1 taken
  obtain ⟨id', identity', found⟩ :=
    extractIngestEventId_of_acceptable acceptable fresh
      (sign agentId timestamp (SignedEventPayload.toJson ⟨eventType, prepared⟩))
  obtain rfl : id = id' := Except.ok.inj (identity.symm.trans identity')
  exact ⟨id, found, by rw [assembleEvent, eventSessionId_eq]⟩

/-- Once a copy of a record is stored, a later copy is recognised, whatever happened between,
exactly when both are one event for the consumer. -/
theorem republish_idempotence {generation : String} {sidecar : Sidecar}
    {snapshot : HookStateSnapshot} {drawn : Uuid} {persist : Persist} {eventType : String}
    {payload prepared : Json}
    (reachable : Reachable (HookSequencing.exec generation) HookSequencing.initial
      (fun _ _ => True) sidecar)
    (running : sidecar.running = some snapshot)
    (accepted : (prepareHookEvent drawn persist eventType payload ⟨snapshot, sidecar.file⟩).1
      = .ok prepared)
    {sign₁ sign₂ : String → Int → Json → String} {agentId : String} {timestamp₁ timestamp₂ : Int}
    {envelope₁ envelope₂ : SignedEventEnvelope}
    (published₁ : SignedEventEnvelope.ofSigned (publish sign₁ agentId
      (drained (walRecord eventType prepared)).1 (drained (walRecord eventType prepared)).2
      timestamp₁) = some envelope₁)
    (published₂ : SignedEventEnvelope.ofSigned (publish sign₂ agentId
      (drained (walRecord eventType prepared)).1 (drained (walRecord eventType prepared)).2
      timestamp₂) = some envelope₂)
    {fresh₁ fresh₂ : Uuid} {target₁ target₂ : AgentTarget} {generation₁ generation₂ : String}
    {decoded₁ decoded₂ : DecodedEvent} (agent : target₁.agentId = target₂.agentId)
    (taken₁ : decodeEvent fresh₁ target₁ envelope₁ generation₁ = .ok decoded₁)
    (taken₂ : decodeEvent fresh₂ target₂ envelope₂ generation₂ = .ok decoded₂)
    {db : EventDb} {feed later : Feed} {now₁ now₂ : Timestamp} {outcome : EventIngestOutcome}
    (received : ingest crypto.fingerprint db decoded₁.persisted decoded₁.runtimePatch now₁
      = .ok (feed.db, outcome))
    (new : outcome = .applied ∨ outcome = .superseded)
    (leads : Reaches (exec crypto) (fun _ _ => True) feed later)
    (current : ∃ row ∈ later.db.agents, row.id = target₂.agentId
      ∧ row.organizationId = target₂.organizationId
      ∧ currentGeneration crypto row = some generation₂)
    (first : generation₁ ≠ generation₂ →
      ∀ row ∈ later.db.events, row.key ≠ eventKey decoded₂.persisted) :
    Recognised crypto.fingerprint later.db decoded₂ now₂
      ↔ SameEvent eventType prepared target₁ target₂ generation₁ generation₂ timestamp₁
        timestamp₂ := by
  have acceptable := acceptable_of_prepareHookEvent
    (HookSequencing.current_of_reachable reachable snapshot running) accepted
  obtain ⟨id, identity, persisted₁⟩ := persisted_of_copy acceptable published₁ taken₁
  obtain ⟨id', identity', persisted₂⟩ := persisted_of_copy acceptable published₂ taken₂
  obtain rfl : id = id' := by
    rw [identity] at identity'
    exact Json.string.inj (Option.some.inj identity')
  obtain ⟨⟨sequence, applied, member⟩, stored, there, id₀, organization₀, -⟩ :=
    stored_of_new received new
  obtain ⟨kept, agent₁, found₁, id₁, organization₁⟩ :=
    stored_of_reaches leads member ⟨stored, there, id₀, organization₀⟩
  obtain ⟨agent₂, found₂, id₂, organization₂, secret⟩ := current
  rw [persisted₁] at id₁ organization₁
  change agent₁.id = target₁.agentId at id₁
  change agent₁.organizationId = target₁.organizationId at organization₁
  have organization : target₁.organizationId = target₂.organizationId := by
    rw [← organization₁, ← organization₂,
      Table.eq_of_key_eq found₁ found₂ (id₁.trans (agent.trans id₂.symm))]
  by_cases same : generation₁ = generation₂
  case neg =>
      constructor
      · intro recognised
        exact absurd recognised (not_recognised_of_absent (first same))
      · intro event
        exact absurd event.generation same
  case pos =>
      subst same
      have object := acceptable.object
      have key : (eventRow decoded₁.persisted sequence applied).key
          = eventKey decoded₂.persisted := by
        rw [persisted₁, persisted₂]
        show (target₁.agentId, generation₁, id) = (target₂.agentId, generation₁, id)
        rw [agent]
      have addressed : Addressed crypto.fingerprint later.db decoded₂.persisted agent₂ := by
        rw [persisted₂]
        exact ⟨found₂, id₂, organization₂, secret⟩
      rw [recognised_iff_of_row kept key addressed, persisted₁, persisted₂]
      have fields := @same_storedData_iff eventType generation₁ id prepared object identity target₁
        target₂ organization timestamp₁ timestamp₂ agentId
        (sign₁ agentId timestamp₁ (SignedEventPayload.toJson ⟨eventType, prepared⟩))
        (sign₂ agentId timestamp₂ (SignedEventPayload.toJson ⟨eventType, prepared⟩))
      constructor
      · rintro ⟨-, data, session⟩
        obtain ⟨time, session, survives⟩ := fields.1 ⟨data, Option.some.inj session⟩
        exact ⟨rfl, time, session, survives⟩
      · intro event
        obtain ⟨data, session⟩ := fields.2 ⟨event.time, event.session, event.survives⟩
        exact ⟨rfl, data, congrArg some session⟩

end Republish

/-! A finished tool, published at once and again a second later. -/

namespace Sample

open Forge.HookAgreement.Sample (snapshot reachable_started running_started)
open Forge.HookSequencing.Sample (sidecar started)
open Forge.System.Sample (crypto named)

def payload (timestamp : Option Int) : Json :=
  .object ([("id", .string "event"), ("sessionId", .string "session-a")]
    ++ timestamp.toList.map fun ms => ("timestamp", .number ms 0))

def target : AgentTarget := ⟨named 10, named 1, none⟩

def sign (_ : String) (_ : Int) (_ : Json) : String := "signed"

def envelope (payload : Json) (second : Int) : SignedEventEnvelope :=
  ⟨⟨"post_tool_use", payload⟩, second, "agent", "signed"⟩

def copy (payload : Json) (second : Int) : DecodedEvent :=
  assembleEvent target "post_tool_use" (storedData target (envelope payload second) "event"
      "secret")
    (eventTimestampMs (fillEventData "post_tool_use" payload (some "session-a") (named 1) second
      "event") second) (some "session-a") (some "session-a") none "event" "secret"

def ingested (db : EventDb) (payload : Json) (second : Int) :
    Except IngestError (EventDb × EventIngestOutcome) :=
  ingest crypto.fingerprint db (copy payload second).persisted (copy payload second).runtimePatch 0

def db : EventDb := (EventReceipts.Sample.feed [⟨.putAgent EventReceipts.Sample.agent, 0⟩]).db

def received (payload : Json) : EventDb :=
  ((ingested db payload 0).toOption.map Prod.fst).getD db

def prepared (payload : Json) : Except HookError Json :=
  (prepareHookEvent default .synced "post_tool_use" payload
    ⟨snapshot, (sidecar started).file⟩).1

theorem published (payload : Json) (second : Int) :
    SignedEventEnvelope.ofSigned (publish sign "agent"
      (drained (walRecord "post_tool_use" payload)).1
      (drained (walRecord "post_tool_use" payload)).2 second) = some (envelope payload second) := by
  rw [drained_walRecord, ofSigned_publish]
  rfl

end Sample

theorem republish_idempotence_stamped : ∃ after,
    Sample.ingested Sample.db (Sample.payload (some 5)) 0 = .ok (after, .applied)
      ∧ Recognised System.Sample.crypto.fingerprint after
        (Sample.copy (Sample.payload (some 5)) 1) 0 := by
  have outcome : (Sample.ingested Sample.db (Sample.payload (some 5)) 0).toOption.map Prod.snd
      = some .applied := by decide +kernel
  cases received : Sample.ingested Sample.db (Sample.payload (some 5)) 0 with
  | error err =>
      rw [received] at outcome
      cases outcome
  | ok result =>
      rcases result with ⟨after, found⟩
      rw [received] at outcome
      obtain rfl : found = .applied := Option.some.inj outcome
      refine ⟨after, rfl, ?_⟩
      have accepted : Sample.prepared (Sample.payload (some 5)) = .ok (Sample.payload (some 5)) := by
        decide +kernel
      have same : SameEvent "post_tool_use" (Sample.payload (some 5)) Sample.target Sample.target
          "secret" "secret" 0 1 := by
        refine ⟨rfl, .inl ?_, .inr rfl, ?_⟩
        · rw [StableTimestamp, if_neg (by decide)]
          decide +kernel
        · intro key value found _ _
          have kept : ∀ field ∈ (Sample.payload (some 5)).jsonbEach,
              field.2.stored.same field.2 = true := by decide +kernel
          exact kept (key, value) (Json.mem_jsonbEach_iff.2 found)
      have taken : ∀ second ∈ [0, 1], decodeEvent default Sample.target
          (Sample.envelope (Sample.payload (some 5)) second) "secret"
            = .ok (Sample.copy (Sample.payload (some 5)) second) := by decide +kernel
      let feed : Feed := ⟨after, []⟩
      exact (@republish_idempotence System.Sample.crypto _ _ _ _ _ _ _ _
        HookAgreement.Sample.reachable_started HookAgreement.Sample.running_started accepted _ _ _
        _ _ _ _ (Sample.published _ 0) (Sample.published _ 1) _ _ _ _ _ _ _ _ rfl
        (taken 0 (by decide)) (taken 1 (by decide)) _ feed feed 0 0 _ received (.inl rfl) .refl
        (stored_of_new received (.inl rfl)).2 fun other => absurd rfl other).2 same

/-- A copy of an event without a timestamp conflicts with the first one a second later. -/
theorem restamped_copy_conflicts :
    Sample.prepared (Sample.payload none) = .ok (Sample.payload none)
      ∧ decodeEvent default Sample.target (Sample.envelope (Sample.payload none) 0) "secret"
        = .ok (Sample.copy (Sample.payload none) 0)
      ∧ decodeEvent default Sample.target (Sample.envelope (Sample.payload none) 1) "secret"
        = .ok (Sample.copy (Sample.payload none) 1)
      ∧ (Sample.ingested Sample.db (Sample.payload none) 0).toOption.map Prod.snd = some .applied
      ∧ (Sample.ingested (Sample.received (Sample.payload none)) (Sample.payload none)
        1).toOption.map Prod.snd = some .eventIdConflict := by
  refine ⟨?_, ?_, ?_, ?_, ?_⟩ <;> decide +kernel

end Forge.HookRepublish
