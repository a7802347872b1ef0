import Forge.EventIngest

/-! Every event is received at most once, and moves the lifecycle cursor of its agent forward. -/

namespace Forge.EventReceipts

open Forge.EventDecoding
open Forge.EventIngest
open Forge.Library.Identifier
open Forge.Library.KeyedTable
open Forge.Library.StateMachine
open Forge.Schema
open Forge.System (Crypto)

section Receipts

variable (crypto : Crypto)

def ReachableFeed (feed : Feed) : Prop :=
  Reachable (exec crypto) (· = Feed.start) (fun _ _ => True) feed

def decodedEvent (feed : Feed) (a : Action) : Option DecodedEvent :=
  match a.command with
  | .receive subject envelope secretAgo targetAgo drawn =>
      ((feed.authenticated crypto subject envelope secretAgo targetAgo drawn a.now).toOption).filter
        fun decoded => decoded.persistable
  | _ => none

def changesAgent (key : Uuid × String × String) (feed : Feed) (a : Action) : Bool :=
  (decodedEvent crypto feed a).any (fun decoded => eventKey decoded.persisted == key)
    && decide ((exec crypto feed a).db.agents.rows ≠ feed.db.agents.rows)

def currentGeneration (agent : AgentRow) : Option String :=
  agent.hmacSecret.map crypto.fingerprint

/-- What holds in every feed: one row for an identity, one change of an agent by it, no change by
an event of another generation, and a cursor that moves forward. -/
structure ExactlyOnce (feed : Feed) : Prop where
  oneRow : ∀ key, feed.db.events.count (fun row => row.key == key) ≤ 1
  accepted : ∀ event patch now,
    ingest crypto.fingerprint feed.db event patch now ≠ .error .uniqueViolation
  oneChange : ∀ key actions,
    occurrences (exec crypto) (changesAgent crypto key) feed actions ≤ 1
  stale : ∀ a, ∀ decoded ∈ decodedEvent crypto feed a,
    (∀ agent ∈ feed.db.agents, agent.id = decoded.persisted.agentId →
      currentGeneration crypto agent ≠ some decoded.persisted.generationFingerprint) →
    (exec crypto feed a).db.agents = feed.db.agents
  cursor : ∀ a, ∀ agent ∈ feed.db.agents, ∀ next ∈ (exec crypto feed a).db.agents,
    next.id = agent.id →
      (next.lifecycleGenerationFingerprint = agent.lifecycleGenerationFingerprint →
        agent.lastLifecycleSequence ≤ next.lastLifecycleSequence)
      ∧ (agent.lifecycleGenerationFingerprint = currentGeneration crypto agent →
        (currentGeneration crypto agent).isSome = true →
        next.lifecycleGenerationFingerprint = agent.lifecycleGenerationFingerprint)

end Receipts

section Steps

variable {crypto : Crypto} {feed : Feed} {a : Action}

theorem commit_receive {subject : String} {envelope : SignedEventEnvelope}
    {secretAgo targetAgo : Nat} {drawn : Uuid}
    (command : a.command = .receive subject envelope secretAgo targetAgo drawn) :
    commit crypto feed a = feed.db
    ∨ ∃ decoded outcome, decodedEvent crypto feed a = some decoded
      ∧ ingest crypto.fingerprint feed.db decoded.persisted decoded.runtimePatch a.now
        = .ok (commit crypto feed a, outcome) := by
  simp only [commit, decodedEvent, command, handle, Feed.authenticated]
  split
  case h_1 => exact .inl rfl
  case h_2 decoded authentic =>
      split
      case isTrue persistable =>
          split
          case h_1 => exact .inl rfl
          case h_2 after outcome ingested =>
              refine .inr ⟨decoded, outcome, ?_, ingested⟩
              rw [authentic]
              simp [Except.toOption, persistable]
      case isFalse =>
          split <;> exact .inl rfl

theorem mem_replaceAgent {agents : Table AgentRow AgentRow.id} {next row : AgentRow} :
    row ∈ replaceAgent agents next ↔
      ∃ old ∈ agents, row = if old.id == next.id then { next with id := old.id } else old :=
  @Table.mem_update _ _ _ agents _ (fun old => { next with id := old.id }) (fun _ => rfl) row

theorem mem_replaceAgent_cases {agents : Table AgentRow AgentRow.id} {next row : AgentRow}
    (member : row ∈ replaceAgent agents next) :
    row = next ∨ (row ∈ agents ∧ row.id ≠ next.id) := by
  obtain ⟨old, there, rfl⟩ := mem_replaceAgent.1 member
  split
  case isTrue same =>
      left
      rw [beq_iff_eq.1 same]
  case isFalse other => exact .inr ⟨there, by simpa using other⟩

theorem mem_putAgent {agents : Table AgentRow AgentRow.id} {put row : AgentRow}
    (member : row ∈ putAgent agents put) : row ∈ agents
      ∨ (∃ old ∈ agents, row = { put with
        id := old.id
        organizationId := old.organizationId
        lifecycleGenerationFingerprint := old.lifecycleGenerationFingerprint
        lastLifecycleSequence := old.lastLifecycleSequence })
      ∨ ∀ old ∈ agents, old.id ≠ row.id := by
  unfold putAgent at member
  cases inserted : agents.insert? { put with lifecycleGenerationFingerprint := none
                                             lastLifecycleSequence := 0 } with
  | some grown =>
      rw [inserted] at member
      obtain ⟨fresh, rows⟩ := Table.insert?_eq_some inserted
      rcases (rows row).1 member with rfl | old
      · exact .inr (.inr fresh)
      · exact .inl old
  | none =>
      rw [inserted] at member
      obtain ⟨old, there, rfl⟩ := (@Table.mem_update _ _ _ agents _ (fun old => { put with
        id := old.id
        organizationId := old.organizationId
        lifecycleGenerationFingerprint := old.lifecycleGenerationFingerprint
        lastLifecycleSequence := old.lastLifecycleSequence }) (fun _ => rfl) row).1 member
      split
      · exact .inr (.inl ⟨old, there, rfl⟩)
      · exact .inl there

theorem events_exec {row : EventRow} (member : row ∈ feed.db.events) (a : Action) :
    row ∈ (exec crypto feed a).db.events := by
  show row ∈ (commit crypto feed a).events
  cases command : a.command with
  | receive subject envelope secretAgo targetAgo drawn =>
      rcases @commit_receive crypto feed a _ _ _ _ _ command with same | ⟨decoded, outcome, -, done⟩
      · rw [same]
        exact member
      · generalize commit crypto feed a = after at done
        cases ingested_of_ingest done with
        | unchanged => exact member
        | stored found same organization generation absent received inserted =>
            exact ((Table.insert?_eq_some inserted).2 row).2 (.inr member)
  | putAgent put =>
      rw [commit, command]
      exact member
  | setWork participants tasks =>
      rw [commit, command]
      exact member

theorem organization_exec {id organizationId : Uuid}
    (there : ∃ agent ∈ feed.db.agents, agent.id = id ∧ agent.organizationId = organizationId)
    (a : Action) : ∃ agent ∈ (exec crypto feed a).db.agents,
      agent.id = id ∧ agent.organizationId = organizationId := by
  obtain ⟨agent, member, rfl, rfl⟩ := there
  show ∃ next ∈ (commit crypto feed a).agents, _
  cases command : a.command with
  | receive subject envelope secretAgo targetAgo drawn =>
      rcases @commit_receive crypto feed a _ _ _ _ _ command with same | ⟨_, outcome, -, done⟩
      · rw [same]
        exact ⟨agent, member, rfl, rfl⟩
      · generalize commit crypto feed a = after at done
        cases ingested_of_ingest done with
        | unchanged => exact ⟨agent, member, rfl, rfl⟩
        | @stored old new _ _ _ found id organization generation absent received inserted =>
            have kept := (cursorForward_receiveNew received).1
            refine ⟨_, mem_replaceAgent.2 ⟨agent, member, rfl⟩, ?_⟩
            split
            case isTrue same =>
                obtain rfl : agent = old :=
                  Table.eq_of_key_eq member found ((beq_iff_eq.1 same).trans kept.id)
                exact ⟨rfl, kept.organizationId⟩
            case isFalse => exact ⟨rfl, rfl⟩
  | putAgent put =>
      rw [commit, command]
      show ∃ next ∈ putAgent feed.db.agents put, _
      unfold putAgent
      cases inserted : feed.db.agents.insert? { put with lifecycleGenerationFingerprint := none
                                                         lastLifecycleSequence := 0 } with
      | some grown =>
          exact ⟨agent, ((Table.insert?_eq_some inserted).2 agent).2 (.inr member), rfl, rfl⟩
      | none =>
          refine ⟨_, (@Table.mem_update _ _ _ feed.db.agents _ (fun old => { put with
            id := old.id
            organizationId := old.organizationId
            lifecycleGenerationFingerprint := old.lifecycleGenerationFingerprint
            lastLifecycleSequence := old.lastLifecycleSequence }) (fun _ => rfl) _).2
              ⟨agent, member, rfl⟩, ?_⟩
          split <;> exact ⟨rfl, rfl⟩
  | setWork participants tasks =>
      rw [commit, command]
      exact ⟨agent, member, rfl, rfl⟩

theorem stored_of_changes
    (changed : (exec crypto feed a).db.agents ≠ feed.db.agents) {decoded : DecodedEvent}
    (event : decodedEvent crypto feed a = some decoded) :
    (∃ agent ∈ feed.db.agents, agent.id = decoded.persisted.agentId
      ∧ currentGeneration crypto agent = some decoded.persisted.generationFingerprint)
    ∧ (∀ row ∈ feed.db.events, row.key ≠ eventKey decoded.persisted)
    ∧ ∃ row ∈ (exec crypto feed a).db.events, row.key = eventKey decoded.persisted := by
  change (commit crypto feed a).agents ≠ _ at changed
  show _ ∧ _ ∧ ∃ row ∈ (commit crypto feed a).events, _
  cases command : a.command with
  | receive subject envelope secretAgo targetAgo drawn =>
      rcases @commit_receive crypto feed a _ _ _ _ _ command with same | ⟨other, outcome, found, done⟩
      · rw [same] at changed
        exact absurd rfl changed
      · obtain rfl : decoded = other := Option.some.inj (event.symm.trans found)
        revert changed done
        generalize commit crypto feed a = after
        intro changed done
        cases ingested_of_ingest done with
        | unchanged => exact absurd rfl changed
        | stored member id organization generation absent received inserted =>
            have rows := (Table.insert?_eq_some inserted).2
            exact ⟨⟨_, member, id, generation⟩, absent, _, (rows _).2 (.inl rfl), rfl⟩
  | putAgent put => simp [decodedEvent, command] at event
  | setWork participants tasks => simp [decodedEvent, command] at event

theorem cursor_exec {agent next : AgentRow} (member : agent ∈ feed.db.agents)
    (there : next ∈ (exec crypto feed a).db.agents) (same : next.id = agent.id) :
    (next.lifecycleGenerationFingerprint = agent.lifecycleGenerationFingerprint →
      agent.lastLifecycleSequence ≤ next.lastLifecycleSequence)
    ∧ (agent.lifecycleGenerationFingerprint = currentGeneration crypto agent →
      (currentGeneration crypto agent).isSome = true →
      next.lifecycleGenerationFingerprint = agent.lifecycleGenerationFingerprint) := by
  have stays : next ∈ feed.db.agents → next = agent :=
    fun old => Table.eq_of_key_eq old member same
  change next ∈ (commit crypto feed a).agents at there
  cases command : a.command with
  | receive subject envelope secretAgo targetAgo drawn =>
      rcases @commit_receive crypto feed a _ _ _ _ _ command with unchanged | ⟨_, outcome, -, done⟩
      · rw [unchanged] at there
        rw [stays there]
        exact ⟨fun _ => le_refl _, fun _ _ => rfl⟩
      · revert there done
        generalize commit crypto feed a = after
        intro there done
        cases ingested_of_ingest done with
        | unchanged =>
            rw [stays there]
            exact ⟨fun _ => le_refl _, fun _ _ => rfl⟩
        | @stored old new _ _ _ found id organization generation absent received inserted =>
            obtain ⟨kept, cursor⟩ := cursorForward_receiveNew received
            rcases mem_replaceAgent_cases there with rfl | ⟨old, -⟩
            · obtain rfl : agent = old :=
                Table.eq_of_key_eq member found (same.symm.trans kept.id)
              refine ⟨cursor.forward, fun current _ => ?_⟩
              rw [current, currentGeneration, generation]
              exact cursor.settled (current.trans generation)
            · rw [stays old]
              exact ⟨fun _ => le_refl _, fun _ _ => rfl⟩
  | putAgent put =>
      rw [commit, command] at there
      rcases mem_putAgent there with old | ⟨old, was, rfl⟩ | fresh
      · rw [stays old]
        exact ⟨fun _ => le_refl _, fun _ _ => rfl⟩
      · obtain rfl : old = agent := Table.eq_of_key_eq was member same
        exact ⟨fun _ => le_refl _, fun _ _ => rfl⟩
      · exact absurd same.symm (fresh agent member)
  | setWork participants tasks =>
      rw [commit, command] at there
      rw [stays there]
      exact ⟨fun _ => le_refl _, fun _ _ => rfl⟩

theorem count_key_le_one (events : Table EventRow EventRow.key) (key : Uuid × String × String) :
    events.count (fun row => row.key == key) ≤ 1 := by
  by_cases taken : ∃ row ∈ events, row.key = key
  · obtain ⟨row, member, rfl⟩ := taken
    have only : ∀ other ∈ events, (other.key == row.key) = true → other = row :=
      fun other there same => Table.eq_of_key_eq there member (beq_iff_eq.1 same)
    exact (@Table.count_eq_one _ _ _ events (fun other => other.key == row.key) row member
      (beq_self_eq_true _) only).le
  · refine (Table.count_eq_zero fun row member => ?_).le.trans (by omega)
    rw [beq_eq_false_iff_ne]
    exact fun same => taken ⟨row, member, same⟩

theorem occurrences_changesAgent_le_one (key : Uuid × String × String) (feed : Feed)
    (actions : List Action) :
    occurrences (exec crypto) (changesAgent crypto key) feed actions ≤ 1 := by
  have unfolded : ∀ feed a, changesAgent crypto key feed a = true →
      ∃ decoded, decodedEvent crypto feed a = some decoded ∧ eventKey decoded.persisted = key
        ∧ (exec crypto feed a).db.agents ≠ feed.db.agents := by
    intro feed a changes
    obtain ⟨event, changed⟩ := Bool.and_eq_true_iff.1 changes
    obtain ⟨decoded, found, same⟩ := Option.any_eq_true _ _ |>.1 event
    refine ⟨decoded, found, beq_iff_eq.1 same, fun equal => ?_⟩
    rw [decide_eq_true_iff, equal] at changed
    exact changed rfl
  refine @occurrences_le_one _ _ _ _ (fun feed => ∃ row ∈ feed.db.events, row.key = key) ?_ ?_ ?_
    feed actions
  · rintro feed a ⟨row, member, taken⟩
    rw [Bool.eq_false_iff]
    intro changes
    obtain ⟨decoded, found, rfl, changed⟩ := unfolded feed a changes
    exact (stored_of_changes changed found).2.1 row member taken
  · rintro feed a ⟨row, member, taken⟩
    exact ⟨row, events_exec member a, taken⟩
  · intro feed a changes
    obtain ⟨decoded, found, rfl, changed⟩ := unfolded feed a changes
    exact (stored_of_changes changed found).2.2

/-- Whatever was delivered and changed before. -/
theorem exactly_once_ingest (crypto : Crypto) (feed : Feed) : ExactlyOnce crypto feed := by
  constructor
  case oneRow => exact count_key_le_one feed.db.events
  case accepted => exact fun event patch now => ingest_ne_uniqueViolation
  case oneChange => exact fun key actions => occurrences_changesAgent_le_one key feed actions
  case stale =>
      intro a decoded found stale
      by_contra changed
      obtain ⟨⟨agent, member, same, current⟩, -⟩ := stored_of_changes changed found
      exact stale agent member same current
  case cursor => exact fun a agent member next there same => cursor_exec member there same

end Steps

/-! Two lifecycle events without a sequence number, then the first one with a number, in one
generation. -/

namespace Sample

open Forge.System.Sample (named crypto)

def agent : AgentRow where
  id := named 10
  organizationId := named 1
  hmacSecret := some "secret"
  cliSessionId := none
  status := .idle
  currentTool := none
  cwd := none
  interactiveOwnerSessionId := none
  interactiveLeaseExpiresAt := none
  lifecycleGenerationFingerprint := none
  lastLifecycleSequence := 0
  updatedAt := 0

def prompt (id : String) (sequence : Option Int) : Action where
  command := .receive ("events.ingest." ++ (named 10).toText) {
      payload := ⟨"user_prompt_submit", .object ([("id", .string id),
        ("sessionId", .string "session-a")]
        ++ sequence.toList.map fun number => ("lifecycleSequence", .number number 0))⟩
      timestamp := 0
      agentId := (named 10).toText
      signature := "signed" } 0 0 default
  now := 0

def upgraded : List Action :=
  [⟨.putAgent agent, 0⟩, prompt "first" none, prompt "second" none]

def feed (actions : List Action) : Feed :=
  run (exec crypto) .start actions

end Sample

/-- The first number of a generation replaces the count of the events without one. -/
theorem upgrade_lowers_cursor :
    ¬∀ feed, ReachableFeed System.Sample.crypto feed → ∀ a, ∀ agent ∈ feed.db.agents,
      ∀ next ∈ (exec System.Sample.crypto feed a).db.agents, next.id = agent.id →
        next.hmacSecret = agent.hmacSecret →
          agent.lastLifecycleSequence ≤ next.lastLifecycleSequence := by
  intro forward
  have reachable : ReachableFeed System.Sample.crypto (Sample.feed Sample.upgraded) :=
    reachable_run rfl (by decide)
  obtain ⟨agent, member, next, there, same, secret, lower⟩ :
      ∃ agent ∈ (Sample.feed Sample.upgraded).db.agents.rows,
        ∃ next ∈ (exec System.Sample.crypto (Sample.feed Sample.upgraded)
            (Sample.prompt "third" (some 1))).db.agents.rows,
          next.id = agent.id ∧ next.hmacSecret = agent.hmacSecret
            ∧ next.lastLifecycleSequence < agent.lastLifecycleSequence := by
    decide +kernel
  have kept := forward _ reachable _ agent member next there same secret
  omega

end Forge.EventReceipts
