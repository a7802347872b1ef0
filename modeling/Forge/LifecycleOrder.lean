import Forge.EventReceipts
import Forge.HookAgreement
import Forge.Library.Records

/-! What the order of arrival of lifecycle events does to an agent: an abstract mirror that takes
the events above its cursor, the store as a refinement of it, and the runs of both. -/

namespace Forge.LifecycleOrder

open Forge.EventDecoding
open Forge.EventIngest
open Forge.EventReceipts
open Forge.HookAgreement
open Forge.HookEvents
open Forge.Library.Fallible
open Forge.Library.Identifier
open Forge.Library.KeyedTable
open Forge.Library.Records
open Forge.Library.StateMachine
open Forge.Schema

/-- A signed lifecycle event of an agent in one of its generations. -/
structure LifecycleEvent (agentId organizationId : Uuid) (generation : String) where
  persisted : PersistedEvent
  patch : AgentRuntimePatch
  sequence : Int
  status : AgentStatus
  session : String
  agent : persisted.agentId = agentId
  organization : persisted.organizationId = organizationId
  signed : persisted.generationFingerprint = generation
  lifecycle : patch.status = some status
  started : status = .working ∨ status = .idle
  numbered : patch.lifecycleSequence = some sequence
  owned : patch.interactiveOwnerSession = some session

theorem exists_lifecycleEvent {drawn : Uuid} {target : AgentTarget}
    {envelope : SignedEventEnvelope} {generation : String} {decoded : DecodedEvent}
    (taken : decodeEvent drawn target envelope generation = .ok decoded)
    (lifecycle : isLifecycleEvent envelope.payload.eventType = true)
    (numbered : envelope.payload.data.get "lifecycleSequence" ≠ none) :
    ∃ event : LifecycleEvent target.agentId target.organizationId generation,
      event.persisted = decoded.persisted ∧ event.patch = decoded.runtimePatch := by
  obtain ⟨id, sequence, -, reported, counted, -, assembled⟩ := decodeEvent_eq_ok.1 taken
  have isSome : (deriveStatus envelope.payload.eventType).isSome = true := by
    rw [deriveStatus_isSome, lifecycle]
  obtain ⟨status, derived⟩ := Option.isSome_iff_exists.1 isSome
  obtain ⟨session, found⟩ := Option.isSome_iff_exists.1 (reported isSome)
  have persistable : isPersistable envelope.payload.eventType = true := by
    rw [isPersistable, Bool.not_eq_true', beq_eq_false_iff_ne]
    intro other
    rw [other] at lifecycle
    exact absurd lifecycle (by decide)
  obtain ⟨number, positive⟩ : ∃ number, sequence = some number := by
    rw [extractLifecycleSequence] at counted
    split at counted
    case h_1 absent => exact absurd absent numbered
    case h_2 =>
        split at counted
        case isTrue => cases counted
        case isFalse =>
            split at counted
            case h_1 number _ =>
                cases counted
                exact ⟨number, rfl⟩
            case h_2 => cases counted
  have patch : decoded.runtimePatch = deriveRuntimePatch envelope.payload.eventType
      (storedData target envelope id generation) (some number) (some session) := by
    rw [← found, ← positive]
    rw [assembleEvent, persistable] at assembled
    cases assembled
    rfl
  have scope : decoded.persisted.agentId = target.agentId
      ∧ decoded.persisted.organizationId = target.organizationId
      ∧ decoded.persisted.generationFingerprint = generation := by
    cases assembled
    exact ⟨rfl, rfl, rfl⟩
  have started : status = .working ∨ status = .idle := by
    unfold deriveStatus at derived
    split at derived
    · exact .inl (Option.some.inj derived).symm
    · split at derived
      · exact .inr (Option.some.inj derived).symm
      · cases derived
  refine ⟨⟨decoded.persisted, decoded.runtimePatch, number, status, session, scope.1, scope.2.1,
    scope.2.2, ?_, started, ?_, ?_⟩, rfl, rfl⟩
  · rw [patch, deriveRuntimePatch, derived]
  · rw [patch, deriveRuntimePatch, derived]
    rfl
  · rw [patch, deriveRuntimePatch, derived]
    rfl

/-- The columns of an agent that lifecycle events are for. -/
structure Mirror where
  status : AgentStatus
  owner : Option String
  leased : Bool
  generation : Option String
  last : Int
deriving DecidableEq

def mirror (agent : AgentRow) : Mirror where
  status := agent.status
  owner := agent.interactiveOwnerSessionId
  leased := agent.interactiveLeaseExpiresAt.isSome
  generation := agent.lifecycleGenerationFingerprint
  last := agent.lastLifecycleSequence

section Mirrors

variable {agentId organizationId : Uuid} {generation : String}

namespace Mirror

def cursor (generation : String) (m : Mirror) : Int :=
  if m.generation == some generation then m.last else 0

def refuses (m : Mirror) (event : LifecycleEvent agentId organizationId generation) : Bool :=
  if event.status = .working then
    m.leased && m.owner.isSome && m.owner != some event.session
  else !(m.leased && m.owner == some event.session)

def grant (m : Mirror) (event : LifecycleEvent agentId organizationId generation) : Mirror :=
  if event.status = .working then
    { m with status := .working, owner := some event.session, leased := true }
  else { m with status := .idle, leased := false }

/-- The effect of an event, while leases last and no task owns the agent: one above the cursor
moves it, also when it is refused. -/
def take (m : Mirror) (event : LifecycleEvent agentId organizationId generation) : Mirror :=
  if event.sequence ≤ m.cursor generation then m
  else
    let moved := { m with generation := some generation, last := event.sequence }
    if moved.refuses event then moved else moved.grant event

theorem take_late {m : Mirror} {event : LifecycleEvent agentId organizationId generation}
    (late : event.sequence ≤ m.cursor generation) : m.take event = m :=
  if_pos late

theorem cursor_take {m : Mirror} {event : LifecycleEvent agentId organizationId generation}
    (above : m.cursor generation < event.sequence) :
    (m.take event).cursor generation = event.sequence := by
  rw [take, if_neg (by omega)]
  dsimp only
  split
  · simp [cursor]
  · rw [grant]
    split <;> simp [cursor]

theorem follows : Follows (fun event : LifecycleEvent agentId organizationId generation =>
    event.sequence) (cursor generation) take where
  late := fun _ _ late => take_late late
  moves := fun _ _ above => cursor_take above

theorem cursor_le_take (m : Mirror) (event : LifecycleEvent agentId organizationId generation) :
    m.cursor generation ≤ (m.take event).cursor generation
      ∧ event.sequence ≤ (m.take event).cursor generation := by
  rcases lt_or_ge (m.cursor generation) event.sequence with above | late
  · rw [cursor_take above]
    exact ⟨above.le, le_rfl⟩
  · rw [take_late late]
    exact ⟨le_rfl, late⟩

end Mirror

structure Arrival (agentId organizationId : Uuid) (generation : String) where
  event : LifecycleEvent agentId organizationId generation
  now : Timestamp

def deliver (fingerprint : String → String) (db : EventDb)
    (arrival : Arrival agentId organizationId generation) : EventDb :=
  match ingest fingerprint db arrival.event.persisted arrival.event.patch arrival.now with
  | .ok (after, _) => after
  | .error _ => db

def LeasesLast (db : EventDb) (arrival : Arrival agentId organizationId generation) : Prop :=
  ∀ agent ∈ db.agents.rows, agent.id = agentId →
    ∀ expires ∈ agent.interactiveLeaseExpiresAt, arrival.now < expires

instance (db : EventDb) (arrival : Arrival agentId organizationId generation) :
    Decidable (LeasesLast db arrival) :=
  inferInstanceAs (Decidable (∀ agent ∈ db.agents.rows, agent.id = agentId →
    ∀ expires ∈ agent.interactiveLeaseExpiresAt, arrival.now < expires))

/-- The agent is in the generation of the events, no task owns it, and of the events only those
up to its cursor are stored. -/
structure Scene (fingerprint : String → String)
    (events : List (LifecycleEvent agentId organizationId generation)) (db : EventDb)
    (agent : AgentRow) : Prop where
  found : agent ∈ db.agents
  id : agent.id = agentId
  organization : agent.organizationId = organizationId
  secret : agent.hmacSecret.map fingerprint = some generation
  unowned : hasOrchestrationOwner db agent = false
  passed : ∀ event ∈ events, ∀ row ∈ db.events, row.key = eventKey event.persisted →
    event.sequence ≤ (mirror agent).cursor generation

theorem advanceCursor_event (agent : AgentRow)
    (event : LifecycleEvent agentId organizationId generation) :
    advanceCursor agent event.persisted event.patch
      = if event.sequence ≤ (mirror agent).cursor generation then
          .ok (false, some event.sequence, agent)
        else .ok (true, some event.sequence, { agent with
          lifecycleGenerationFingerprint := some generation
          lastLifecycleSequence := event.sequence }) := by
  simp only [advanceCursor, event.lifecycle, event.numbered, event.signed, Option.isSome_some,
    if_true]
  rfl

theorem ownerTransitionConflicts_event {agent : AgentRow}
    (event : LifecycleEvent agentId organizationId generation) {now : Timestamp}
    (lasts : ∀ expires ∈ agent.interactiveLeaseExpiresAt, now < expires) :
    ownerTransitionConflicts agent false event.patch now = (mirror agent).refuses event := by
  have leased : agent.hasInteractiveEpoch now = agent.interactiveLeaseExpiresAt.isSome := by
    rw [AgentRow.hasInteractiveEpoch]
    cases lease : agent.interactiveLeaseExpiresAt with
    | none => rfl
    | some expires => simpa using lasts expires (Option.mem_def.2 lease)
  have symmetric : (some event.session == agent.interactiveOwnerSessionId)
      = (agent.interactiveOwnerSessionId == some event.session) := Bool.beq_comm
  simp only [ownerTransitionConflicts, leased, event.lifecycle, event.owned, symmetric]
  rcases event.started with working | idle
  · simp [working, Mirror.refuses, mirror, bne]
  · simp [idle, Mirror.refuses, mirror, Bool.not_and]

theorem mirror_patchAgent (agent : AgentRow)
    (event : LifecycleEvent agentId organizationId generation) (now : Timestamp) :
    mirror (patchAgent false event.patch now agent) = (mirror agent).grant event := by
  rcases event.started with working | idle
  · simp [mirror, patchAgent, event.lifecycle, event.owned, working, Mirror.grant]
  · simp [mirror, patchAgent, event.lifecycle, idle, Mirror.grant]

theorem receiveNew_mirror {agent : AgentRow}
    (event : LifecycleEvent agentId organizationId generation) {now : Timestamp}
    (lasts : ∀ expires ∈ agent.interactiveLeaseExpiresAt, now < expires) :
    ∃ applied next, receiveNew agent false event.persisted event.patch now
        = .ok (applied, some event.sequence, next)
      ∧ mirror next = (mirror agent).take event := by
  have active : event.patch.isNoop = false := by
    rw [AgentRuntimePatch.isNoop, event.lifecycle]
    rfl
  simp only [receiveNew, advanceCursor_event, bind_eq_ok, active]
  by_cases late : event.sequence ≤ (mirror agent).cursor generation
  · rw [Mirror.take_late late]
    exact ⟨false, agent, ⟨_, if_pos late, rfl⟩, rfl⟩
  · let moved : AgentRow := { agent with
      lifecycleGenerationFingerprint := some generation
      lastLifecycleSequence := event.sequence }
    have taken : (mirror agent).take event = if (mirror moved).refuses event then mirror moved
        else (mirror moved).grant event := if_neg late
    have conflicts : ownerTransitionConflicts moved false event.patch now
        = (mirror moved).refuses event := ownerTransitionConflicts_event event lasts
    rw [taken]
    cases refused : (mirror moved).refuses event with
    | true =>
        refine ⟨false, moved, ⟨_, if_neg late, ?_⟩, rfl⟩
        exact (if_neg (by simp)).trans (if_pos (conflicts.trans refused))
    | false =>
        refine ⟨true, patchAgent false event.patch now moved, ⟨_, if_neg late, ?_⟩, ?_⟩
        · have clear := Bool.eq_false_iff.1 (conflicts.trans refused)
          exact (if_neg (by simp)).trans (if_neg clear)
        · rw [mirror_patchAgent]
          rfl

variable {fingerprint : String → String}
  {events : List (LifecycleEvent agentId organizationId generation)}

def Identified (events : List (LifecycleEvent agentId organizationId generation)) : Prop :=
  ∀ a ∈ events, ∀ b ∈ events, a.persisted.ingestEventId = b.persisted.ingestEventId →
    a.sequence = b.sequence

theorem hasOrchestrationOwner_replace {db : EventDb} {agent next : AgentRow}
    (same : SameAgent agent next) (agents : Table AgentRow AgentRow.id)
    (events : Table EventRow EventRow.key) :
    hasOrchestrationOwner { db with agents, events } next = hasOrchestrationOwner db agent := by
  simp only [hasOrchestrationOwner, same.id, same.organizationId]

theorem scene_deliver {db : EventDb} {agent : AgentRow}
    {arrival : Arrival agentId organizationId generation}
    (scene : Scene fingerprint events db agent) (member : arrival.event ∈ events)
    (identified : Identified events) (lasts : LeasesLast db arrival) :
    ∃ next, Scene fingerprint events (deliver fingerprint db arrival) next
      ∧ mirror next = (mirror agent).take arrival.event := by
  have addressed : Addressed fingerprint db arrival.event.persisted agent := by
    refine ⟨scene.found, ?_, ?_, ?_⟩
    · rw [scene.id, arrival.event.agent]
    · rw [scene.organization, arrival.event.organization]
    · rw [scene.secret, arrival.event.signed]
  by_cases stored : ∃ row ∈ db.events, row.key = eventKey arrival.event.persisted
  · obtain ⟨row, there, key⟩ := stored
    refine ⟨agent, ?_, (Mirror.take_late (scene.passed _ member row there key)).symm⟩
    rw [deliver, ingest_duplicate addressed there key]
    exact scene
  · obtain ⟨applied, next, received, taken⟩ :=
      receiveNew_mirror arrival.event (lasts agent scene.found scene.id)
    have same := (cursorForward_receiveNew received).1
    rw [← scene.unowned] at received
    obtain ⟨rows, grown, ingested⟩ := ingest_new addressed
      (fun row there key => stored ⟨row, there, key⟩) received
    refine ⟨next, ?_, taken⟩
    rw [deliver, ingested]
    constructor
    case found =>
        refine mem_replaceAgent.2 ⟨agent, scene.found, ?_⟩
        rw [if_pos (beq_iff_eq.2 same.id.symm), ← same.id]
    case id => exact same.id.trans scene.id
    case organization => exact same.organizationId.trans scene.organization
    case secret => rw [same.hmacSecret, scene.secret]
    case unowned => exact (hasOrchestrationOwner_replace same _ rows).trans scene.unowned
    case passed =>
        intro event known row there key
        have cursor := Mirror.cursor_le_take (mirror agent) arrival.event
        rw [taken]
        rcases (grown row).1 there with rfl | before
        · have number := identified _ member _ known (congrArg (fun key => key.2.2) key)
          rw [← number]
          exact cursor.2
        · exact (scene.passed event known row before key).trans cursor.1

theorem mirror_run {db : EventDb} {agent : AgentRow}
    {arrivals : List (Arrival agentId organizationId generation)}
    (scene : Scene fingerprint events db agent)
    (known : ∀ arrival ∈ arrivals, arrival.event ∈ events) (identified : Identified events)
    (lasts : AllAllowed (deliver fingerprint) LeasesLast db arrivals) :
    ∃ final, Scene fingerprint events (run (deliver fingerprint) db arrivals) final
      ∧ mirror final = (arrivals.map Arrival.event).foldl Mirror.take (mirror agent) := by
  induction arrivals generalizing db agent with
  | nil => exact ⟨agent, scene, rfl⟩
  | cons arrival rest ih =>
      obtain ⟨next, later, taken⟩ :=
        scene_deliver scene (known arrival List.mem_cons_self) identified lasts.1
      obtain ⟨final, last, taken'⟩ :=
        ih later (fun a member => known a (List.mem_cons_of_mem _ member)) lasts.2
      refine ⟨final, last, ?_⟩
      rw [taken', taken]
      rfl

def InOrder (arrivals : List (Arrival agentId organizationId generation)) : Prop :=
  (arrivals.map Arrival.event).Pairwise fun a b => a.sequence < b.sequence

def Ahead (arrivals : List (Arrival agentId organizationId generation))
    (event : LifecycleEvent agentId organizationId generation) : Prop :=
  ∃ before after, arrivals.map Arrival.event = before ++ event :: after
    ∧ ∀ earlier ∈ before, earlier.sequence < event.sequence

theorem mem_records_arrivals {arrivals : List (Arrival agentId organizationId generation)}
    {top : Int} {event : LifecycleEvent agentId organizationId generation} :
    event ∈ records (fun event => event.sequence) top (arrivals.map Arrival.event)
      ↔ top < event.sequence ∧ Ahead arrivals event := by
  rw [mem_records_iff, Ahead]
  constructor
  · rintro ⟨before, after, split, above, all⟩
    exact ⟨above, before, after, split, all⟩
  · rintro ⟨above, before, after, split, all⟩
    exact ⟨before, after, split, above, all⟩

theorem ahead_of_inOrder {arrivals : List (Arrival agentId organizationId generation)}
    (sorted : InOrder arrivals) {event : LifecycleEvent agentId organizationId generation} :
    Ahead arrivals event ↔ event ∈ arrivals.map Arrival.event := by
  constructor
  · rintro ⟨before, after, split, -⟩
    rw [split]
    exact List.mem_append_right _ List.mem_cons_self
  · intro member
    obtain ⟨before, after, split⟩ := List.append_of_mem member
    refine ⟨before, after, split, fun earlier there => ?_⟩
    rw [InOrder, split] at sorted
    exact (List.pairwise_append.1 sorted).2.2 earlier there event List.mem_cons_self

theorem foldl_take_ahead {arrivals ordered : List (Arrival agentId organizationId generation)}
    (sorted : InOrder ordered)
    (same : ∀ event, event ∈ ordered.map Arrival.event ↔ Ahead arrivals event) (m : Mirror) :
    (arrivals.map Arrival.event).foldl Mirror.take m
      = (ordered.map Arrival.event).foldl Mirror.take m := by
  rw [Mirror.follows.foldl_records m (arrivals.map Arrival.event),
    Mirror.follows.foldl_records m (ordered.map Arrival.event)]
  congr 1
  symm
  refine eq_records (pairwise_records _ _ _) fun event => ?_
  rw [mem_records_arrivals, mem_records_arrivals, ahead_of_inOrder sorted, same]

theorem foldl_take_last (m : Mirror)
    (events : List (LifecycleEvent agentId organizationId generation)) :
    events.foldl Mirror.take m = m
      ∨ ((events.foldl Mirror.take m).generation = some generation
        ∧ m.cursor generation < (events.foldl Mirror.take m).cursor generation) := by
  induction events generalizing m with
  | nil => exact .inl rfl
  | cons event rest ih =>
      rw [List.foldl_cons]
      have forward := Mirror.cursor_le_take m event
      rcases ih (m.take event) with same | ⟨current, higher⟩
      · rw [same]
        rcases lt_or_ge (m.cursor generation) event.sequence with above | late
        · refine .inr ⟨?_, ?_⟩
          · rw [Mirror.take, if_neg (by omega)]
            dsimp only
            split
            · rfl
            · rw [Mirror.grant]
              split <;> rfl
          · omega
        · exact .inl (Mirror.take_late late)
      · exact .inr ⟨current, by omega⟩

theorem last_foldl_take (m : Mirror)
    {left right : List (LifecycleEvent agentId organizationId generation)}
    (same : ∀ n, n ∈ left.map (fun event => event.sequence)
      ↔ n ∈ right.map fun event => event.sequence) :
    (left.foldl Mirror.take m).last = (right.foldl Mirror.take m).last := by
  have cursors : (left.foldl Mirror.take m).cursor generation
      = (right.foldl Mirror.take m).cursor generation := by
    rw [Mirror.follows.cursor_foldl, Mirror.follows.cursor_foldl]
    exact highest_eq_of_numbers _ same
  have last : ∀ m : Mirror, m.generation = some generation → m.cursor generation = m.last := by
    intro m current
    rw [Mirror.cursor, if_pos (beq_iff_eq.2 current)]
  rcases foldl_take_last m left with stays | ⟨current, higher⟩ <;>
    rcases foldl_take_last m right with stays' | ⟨current', higher'⟩
  · rw [stays, stays']
  · rw [stays] at cursors
    omega
  · rw [stays'] at cursors
    omega
  · rw [← last _ current, ← last _ current', cursors]

/-- Two lists of arrivals at one store, no lease over and no task owning the agent. -/
theorem lifecycle_order {db : EventDb} {agent : AgentRow}
    (scene : Scene fingerprint events db agent) (identified : Identified events)
    {arrivals other : List (Arrival agentId organizationId generation)}
    (known : ∀ arrival ∈ arrivals, arrival.event ∈ events)
    (known' : ∀ arrival ∈ other, arrival.event ∈ events)
    (lasts : AllAllowed (deliver fingerprint) LeasesLast db arrivals)
    (lasts' : AllAllowed (deliver fingerprint) LeasesLast db other) :
    ∃ final ∈ (run (deliver fingerprint) db arrivals).agents, final.id = agentId
      ∧ ∃ final' ∈ (run (deliver fingerprint) db other).agents, final'.id = agentId
      ∧ ((∀ n, n ∈ arrivals.map (fun arrival => arrival.event.sequence)
          ↔ n ∈ other.map fun arrival => arrival.event.sequence) →
        final.lastLifecycleSequence = final'.lastLifecycleSequence)
      ∧ (InOrder other → (∀ event, event ∈ other.map Arrival.event ↔ Ahead arrivals event) →
        mirror final = mirror final') := by
  obtain ⟨final, there, reached⟩ := mirror_run scene known identified lasts
  obtain ⟨final', there', reached'⟩ := mirror_run scene known' identified lasts'
  refine ⟨final, there.found, there.id, final', there'.found, there'.id, ?_, ?_⟩
  · intro same
    show (mirror final).last = (mirror final').last
    rw [reached, reached']
    refine last_foldl_take _ fun n => ?_
    simpa using same n
  · intro sorted ahead
    rw [reached, reached']
    exact foldl_take_ahead sorted ahead _

end Mirrors

/-! Session A starts to work and stops, then session B starts to work. -/

namespace Sample

open Forge.System.Sample (named crypto)

abbrev Event := LifecycleEvent (named 10) (named 1) "secret"

def event (eventType id session : String) (number : Int) {status : AgentStatus}
    (derived : deriveStatus eventType = some status)
    (started : status = .working ∨ status = .idle) : Event where
  persisted := ⟨named 1, named 10, eventType, .object [("id", .string id)], some session, id,
    "secret"⟩
  patch := deriveRuntimePatch eventType (.object [("id", .string id)]) (some number) (some session)
  sequence := number
  status := status
  session := session
  agent := rfl
  organization := rfl
  signed := rfl
  lifecycle := derived
  started := started
  numbered := by rw [deriveRuntimePatch, derived]; rfl
  owned := by rw [deriveRuntimePatch, derived]; rfl

def startA : Event :=
  event "user_prompt_submit" "first" "session-a" 1 rfl (.inl rfl)

def stopA : Event :=
  event "stop" "second" "session-a" 2 rfl (.inr rfl)

def startB : Event :=
  event "user_prompt_submit" "third" "session-b" 3 rfl (.inl rfl)

def arrivals (events : List Event) : List (Arrival (named 10) (named 1) "secret") :=
  events.map fun event => ⟨event, 0⟩

def db : EventDb :=
  (EventReceipts.Sample.feed [⟨.putAgent EventReceipts.Sample.agent, 0⟩]).db

theorem scene : Scene crypto.fingerprint [startA, stopA, startB] db EventReceipts.Sample.agent where
  found := by
    show EventReceipts.Sample.agent ∈ db.agents.rows
    decide +kernel
  id := rfl
  organization := rfl
  secret := by decide
  unowned := by decide +kernel
  passed := by
    intro event _ row there
    have empty : db.events.rows = [] := by decide +kernel
    change row ∈ db.events.rows at there
    rw [empty] at there
    cases there

theorem identified : Identified [startA, stopA, startB] := by
  have numbers : ∀ a ∈ [startA, stopA, startB], ∀ b ∈ [startA, stopA, startB],
      a.persisted.ingestEventId = b.persisted.ingestEventId → a.sequence = b.sequence := by
    simp only [List.forall_mem_cons]
    decide
  exact numbers

theorem known (events : List Event) (all : ∀ event ∈ events, event ∈ [startA, stopA, startB]) :
    ∀ arrival ∈ arrivals events, arrival.event ∈ [startA, stopA, startB] := by
  intro arrival member
  obtain ⟨event, there, rfl⟩ := List.mem_map.1 member
  exact all event there

theorem events_arrivals (events : List Event) :
    (arrivals events).map Arrival.event = events := by
  rw [arrivals, List.map_map]
  exact List.map_id events

end Sample

/-- The stop that arrives last has no effect. -/
theorem lifecycle_order_late_stop :
    ∃ final ∈ (run (deliver System.Sample.crypto.fingerprint) Sample.db
        (Sample.arrivals [Sample.startA, Sample.startB, Sample.stopA])).agents,
      ∃ final' ∈ (run (deliver System.Sample.crypto.fingerprint) Sample.db
        (Sample.arrivals [Sample.startA, Sample.startB])).agents,
      mirror final = mirror final' := by
  obtain ⟨final, member, -, final', member', -, -, same⟩ := lifecycle_order Sample.scene
    Sample.identified (Sample.known [Sample.startA, Sample.startB, Sample.stopA] (by simp))
    (Sample.known [Sample.startA, Sample.startB] (by simp)) (by decide +kernel) (by decide +kernel)
  refine ⟨final, member, final', member', same ?_ ?_⟩
  · rw [InOrder, Sample.events_arrivals]
    simp only [List.pairwise_cons]
    decide
  · intro event
    rw [Ahead, Sample.events_arrivals, Sample.events_arrivals]
    constructor
    · intro there
      rcases List.mem_pair.1 there with rfl | rfl
      · exact ⟨[], _, rfl, by simp⟩
      · refine ⟨[Sample.startA], _, rfl, ?_⟩
        simp only [List.forall_mem_singleton]
        decide
    · rintro ⟨before, after, split, all⟩
      rcases before with _ | ⟨first, _ | ⟨second, _ | ⟨third, rest⟩⟩⟩
      · cases split
        exact List.mem_cons_self
      · cases split
        exact List.mem_cons_of_mem _ List.mem_cons_self
      · cases split
        exact absurd (all Sample.startB (List.mem_cons_of_mem _ List.mem_cons_self)) (by decide)
      · cases rest <;> cases split

/-- With the stop of session A before it, session B gets the agent; with the stop after it, not. -/
theorem order_decides_owner :
    ¬∀ (db : EventDb) (agent : AgentRow) (events : List Sample.Event),
      Scene System.Sample.crypto.fingerprint events db agent → Identified events →
      ∀ arrivals other : List (Arrival (System.Sample.named 10) (System.Sample.named 1) "secret"),
        (∀ event, event ∈ arrivals.map Arrival.event ↔ event ∈ events) →
        (∀ event, event ∈ other.map Arrival.event ↔ event ∈ events) → InOrder other →
        AllAllowed (deliver System.Sample.crypto.fingerprint) LeasesLast db arrivals →
        AllAllowed (deliver System.Sample.crypto.fingerprint) LeasesLast db other →
        ∀ final ∈ (run (deliver System.Sample.crypto.fingerprint) db arrivals).agents,
          ∀ final' ∈ (run (deliver System.Sample.crypto.fingerprint) db other).agents,
            final.id = System.Sample.named 10 → final'.id = System.Sample.named 10 →
              final.interactiveOwnerSessionId = final'.interactiveOwnerSessionId := by
  intro same
  obtain ⟨final, member, final', member', id, id', differ⟩ :
      ∃ final ∈ (run (deliver System.Sample.crypto.fingerprint) Sample.db
          (Sample.arrivals [Sample.startA, Sample.startB, Sample.stopA])).agents.rows,
        ∃ final' ∈ (run (deliver System.Sample.crypto.fingerprint) Sample.db
          (Sample.arrivals [Sample.startA, Sample.stopA, Sample.startB])).agents.rows,
        final.id = System.Sample.named 10 ∧ final'.id = System.Sample.named 10
          ∧ final.interactiveOwnerSessionId ≠ final'.interactiveOwnerSessionId := by
    decide +kernel
  refine differ (same Sample.db _ _ Sample.scene Sample.identified _ _ ?_ ?_ ?_
    (by decide +kernel) (by decide +kernel) final member final' member' id id')
  · intro event
    rw [Sample.events_arrivals]
    simp only [List.mem_cons, List.not_mem_nil, or_false]
    rw [or_comm (a := event = Sample.startB)]
  · intro event
    rw [Sample.events_arrivals]
  · rw [InOrder, Sample.events_arrivals]
    simp only [List.pairwise_cons]
    decide

end Forge.LifecycleOrder
