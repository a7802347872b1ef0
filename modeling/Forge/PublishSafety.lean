import Forge.OutboxPublisher
import Forge.Transactions
import Mathlib.Data.Finset.Card

/-! What publishers put on the wire and what they retire, in any run of them and the rest of the
system. -/

namespace Forge.PublishSafety

open Forge.Changes
open Forge.Library.Identifier
open Forge.Library.KeyedTable
open Forge.Library.StateMachine
open Forge.OrchestrationView
open Forge.OutboxPublisher
open Forge.Schema
open Forge.Soundness
open Forge.System (Crypto World)
open Forge.TaskSteps
open Forge.Transactions

section Decisions

variable (fingerprint : String → String) (config : Config)

/-- The agent of an assignment in a kind, and for a container with a secret whose fingerprint is
the recorded one. -/
structure AgentReady (db : Db) (row : OutboxRow) (agent : Agent) : Prop where
  member : agent ∈ db.agents
  id : agent.id = row.payload.agentId
  organization : agent.organizationId = row.organizationId
  kind : ∀ enqueued ∈ row.payload.runtimeKind, enqueued = agent.runtimeKind
  secret : agent.runtimeKind = .container → ∃ secret, agent.hmacSecret = some secret
    ∧ trimIsEmpty secret = false
    ∧ row.payload.containerGenerationFingerprint = some (fingerprint secret)
    ∧ trimIsEmpty (fingerprint secret) = false

/-- The task of an assignment works under this delivery and agent, within its lease. -/
structure TaskReady (row : OutboxRow) (now : Timestamp) (task : Task) : Prop where
  id : task.id = row.aggregateId
  organization : task.organizationId = row.organizationId
  working : task.status = .working
  lease : ∃ expires, task.leaseExpiresAt = some expires ∧ now < expires
  delivery : task.lastAssignmentId = some row.id
  agent : task.assignedAgentId = some row.payload.agentId

/-- A row that may be put on the wire. -/
structure Publishable (db : Db) (row : OutboxRow) (now : Timestamp) : Prop where
  readable : config.readable row.id = true
  delivery : row.payload.deliveryId = some row.id
  attempt : row.payload.attempt.isSome = true
  lease : row.payload.leaseExpiresAt.isSome = true
  taskId : row.payload.taskId = row.aggregateId
  task : ∃ task ∈ db.tasks, TaskReady row now task
  agent : ∃ agent, AgentReady fingerprint db row agent

end Decisions

section Turns

variable {fingerprint : String → String} {config : Config} {db : Db} {row : OutboxRow}
  {now : Timestamp}

theorem decision_container (sign : Bool) (assignment : TaskAssignment)
    (stored : Option String) :
    assignmentPublishDecision fingerprint .container sign assignment stored
      = .ok (match stored.filter fun secret => !trimIsEmpty secret with
        | none => .retire .missingSigningSecret
        | some secret =>
            match assignment.containerGenerationFingerprint.filter fun text =>
                !trimIsEmpty text with
            | none => .retire .missingGenerationFingerprint
            | some enqueued =>
                if enqueued ≠ fingerprint secret then .retire .staleGenerationFingerprint
                else .publish (some secret)) := by
  rw [assignmentPublishDecision, selectAssignmentSigningSecret]
  cases stored.filter fun secret => !trimIsEmpty secret with
  | none => rfl
  | some secret =>
      show (match assignment.containerGenerationFingerprint.filter _ with
        | none => _
        | some enqueued => _) = Except.ok _
      cases assignment.containerGenerationFingerprint.filter fun text => !trimIsEmpty text with
      | none => rfl
      | some enqueued =>
          dsimp only
          split <;> rfl

theorem decision_other {kind : RuntimeKind} (other : kind ≠ .container) (sign : Bool)
    (assignment : TaskAssignment) (stored : Option String) :
    assignmentPublishDecision fingerprint kind sign assignment stored
      = .ok (.publish (if sign then stored.filter fun secret => !trimIsEmpty secret
        else none)) := by
  rw [assignmentPublishDecision, selectAssignmentSigningSecret, if_neg (fun both => other both.1)]
  simp only [if_neg other, if_pos other]
  rfl

theorem decision_container_iff {sign : Bool} {assignment : TaskAssignment}
    {stored signing : Option String} :
    assignmentPublishDecision fingerprint .container sign assignment stored
        = .ok (.publish signing)
      ↔ ∃ secret, stored = some secret ∧ signing = some secret ∧ trimIsEmpty secret = false
        ∧ assignment.containerGenerationFingerprint = some (fingerprint secret)
        ∧ trimIsEmpty (fingerprint secret) = false := by
  rw [decision_container, Except.ok.injEq]
  constructor
  · intro published
    split at published
    case h_1 => cases published
    case h_2 secret usable =>
        split at published
        case h_1 => cases published
        case h_2 enqueued recorded =>
            split at published
            case isTrue => cases published
            case isFalse current =>
                cases published
                obtain ⟨stored, nonblank⟩ := Option.filter_eq_some_iff.1 usable
                obtain ⟨recorded, nonblank'⟩ := Option.filter_eq_some_iff.1 recorded
                rw [not_not.1 current] at recorded nonblank'
                exact ⟨secret, stored, rfl, by simpa using nonblank, recorded,
                  by simpa using nonblank'⟩
  · rintro ⟨secret, rfl, rfl, nonblank, recorded, nonblank'⟩
    simp [recorded, Option.filter, nonblank, nonblank']

theorem agentTurn_spec (row : OutboxRow) :
    (∃ agent signing, AgentReady fingerprint db row agent
      ∧ (agent.runtimeKind = .container → signing = agent.hmacSecret)
      ∧ agentTurn fingerprint config db row row.payload
        = .publish row row.payload agent.runtimeKind signing)
    ∨ ((¬∃ agent, AgentReady fingerprint db row agent)
      ∧ ∃ reason, agentTurn fingerprint config db row row.payload = .retire row reason) := by
  rw [agentTurn]
  cases found : db.agents.find? fun agent => agent.id == row.payload.agentId
      && agent.organizationId == row.organizationId with
  | none =>
      refine .inr ⟨?_, _, rfl⟩
      rintro ⟨agent, ready⟩
      have other := Table.find?_eq_none.1 found agent ready.member
      simp [ready.id, ready.organization] at other
  | some agent =>
      obtain ⟨member, same⟩ := Table.mem_of_find? found
      simp only [Bool.and_eq_true, beq_iff_eq] at same
      have only : ∀ other, AgentReady fingerprint db row other → other = agent :=
        fun other ready => Table.eq_of_key_eq ready.member member (ready.id.trans same.1.symm)
      by_cases mismatch : (row.payload.runtimeKind.any fun enqueued =>
          enqueued ≠ agent.runtimeKind) = true
      · refine .inr ⟨?_, _, if_pos mismatch⟩
        rintro ⟨other, ready⟩
        obtain rfl := only other ready
        obtain ⟨enqueued, given, differs⟩ := (Option.any_eq_true _ _).1 mismatch
        exact absurd (ready.kind enqueued given) (by simpa using differs)
      · have kind : ∀ enqueued ∈ row.payload.runtimeKind, enqueued = agent.runtimeKind := by
          intro enqueued given
          by_contra differs
          exact mismatch ((Option.any_eq_true _ _).2 ⟨enqueued, given, by simpa using differs⟩)
        simp only [if_neg mismatch]
        by_cases container : agent.runtimeKind = .container
        · cases decided : assignmentPublishDecision fingerprint .container config.signAssignments
              row.payload agent.hmacSecret with
          | error message =>
              rw [decision_container] at decided
              cases decided
          | ok decision =>
              rw [container, decided]
              cases decision with
              | publish signing =>
                  obtain ⟨secret, stored, rfl, secrets⟩ := decision_container_iff.1 decided
                  have ready : AgentReady fingerprint db row agent :=
                    ⟨member, same.1, same.2, kind, fun _ => ⟨secret, stored, secrets⟩⟩
                  refine .inl ⟨agent, _, ready, fun _ => stored.symm, ?_⟩
                  rw [container]
              | retire reason =>
                  refine .inr ⟨?_, reason, rfl⟩
                  rintro ⟨other, ready⟩
                  obtain rfl := only other ready
                  obtain ⟨secret, stored, secrets⟩ := ready.secret container
                  have published : assignmentPublishDecision fingerprint .container
                      config.signAssignments row.payload other.hmacSecret
                        = .ok (.publish (some secret)) :=
                    decision_container_iff.2 ⟨secret, stored, rfl, secrets⟩
                  rw [decided] at published
                  cases published
        · rw [decision_other container]
          exact .inl ⟨agent, _, ⟨member, same.1, same.2, kind, fun is => absurd is container⟩,
            fun is => absurd is container, rfl⟩

theorem taskState_ready_iff {candidate : OutboxRow} (same : SamePost candidate row) :
    (∃ task ∈ db.tasks, TaskReady row now task)
      ↔ ∃ state, taskState db candidate now = some state ∧ state.status = .working
        ∧ state.leaseCurrent = true ∧ state.lastAssignmentId = some row.id
        ∧ state.assignedAgentId = some row.payload.agentId := by
  rw [taskState, ← same.aggregate, ← same.organization]
  constructor
  · rintro ⟨task, member, ready⟩
    have found : db.tasks.find? (fun task => task.id == row.aggregateId
        && task.organizationId == row.organizationId) = some task := by
      cases taken : db.tasks.find? fun task => task.id == row.aggregateId
          && task.organizationId == row.organizationId with
      | none =>
          have other := Table.find?_eq_none.1 taken task member
          simp [ready.id, ready.organization] at other
      | some first =>
          obtain ⟨there, hit⟩ := Table.mem_of_find? taken
          simp only [Bool.and_eq_true, beq_iff_eq] at hit
          rw [Table.eq_of_key_eq there member (hit.1.trans ready.id.symm)]
    obtain ⟨expires, leased, current⟩ := ready.lease
    rw [found]
    exact ⟨_, rfl, ready.working, by simp [leased, current], ready.delivery, ready.agent⟩
  · rintro ⟨state, read, working, current, delivery, agent⟩
    obtain ⟨task, found, rfl⟩ := Option.map_eq_some_iff.1 read
    obtain ⟨member, hit⟩ := Table.mem_of_find? found
    simp only [Bool.and_eq_true, beq_iff_eq] at hit
    obtain ⟨expires, leased, unexpired⟩ := (Option.any_eq_true _ _).1 current
    exact ⟨task, member, hit.1, hit.2, working, ⟨expires, leased, by simpa using unexpired⟩,
      delivery, agent⟩

theorem assignmentStateRetirementReason_eq_none {candidate : OutboxRow}
    (same : SamePost candidate row) :
    assignmentStateRetirementReason row row.payload (taskState db candidate now) = none
      ↔ row.payload.deliveryId = some row.id ∧ row.payload.attempt.isSome = true
        ∧ row.payload.leaseExpiresAt.isSome = true ∧ row.payload.taskId = row.aggregateId
        ∧ ∃ task ∈ db.tasks, TaskReady row now task := by
  rw [taskState_ready_iff same, assignmentStateRetirementReason]
  constructor
  · intro passed
    split at passed
    case h_1 => cases passed
    case h_2 deliveryId delivered =>
        split at passed
        case isTrue => cases passed
        case isFalse wellFormed =>
            simp only [not_or, Option.isNone_iff_eq_none, ne_eq, not_not] at wellFormed
            obtain ⟨attempt, lease, rfl, taskId⟩ := wellFormed
            split at passed
            case h_1 => cases passed
            case h_2 state read =>
                split at passed
                case isTrue => cases passed
                case isFalse working =>
                    split at passed
                    case isTrue => cases passed
                    case isFalse current =>
                        split at passed
                        case isTrue => cases passed
                        case isFalse own =>
                            rw [not_or, not_not, not_not] at own
                            exact ⟨delivered, Option.isSome_iff_ne_none.2 attempt,
                              Option.isSome_iff_ne_none.2 lease, taskId, state, read,
                              not_not.1 working, by simpa using current, own⟩
  · rintro ⟨delivered, attempt, lease, taskId, state, read, working, current, own⟩
    rw [delivered, read]
    simp [Option.isSome_iff_ne_none.1 attempt, Option.isSome_iff_ne_none.1 lease, taskId, working,
      current, own]

/-- The first read of a turn finds a candidate, and its lock the newest version of that row. -/
structure Considers (seen db : Db) (pick : Uuid) (held : Bool) (candidate row : OutboxRow) :
    Prop where
  next : nextAssignment seen pick = some candidate
  free : held = false
  member : row ∈ db.outbox
  id : row.id = candidate.id
  waiting : row.publishedAt = none

theorem publishNext_spec {seen : Db} {pick : Uuid} {held : Bool} {candidate : OutboxRow}
    (considers : Considers seen db pick held candidate row) (same : SamePost candidate row) :
    (Publishable fingerprint config db row now ∧ ∃ agent signing,
      AgentReady fingerprint db row agent
      ∧ (agent.runtimeKind = .container → signing = agent.hmacSecret)
      ∧ publishNext fingerprint config seen db pick held now
        = .publish row row.payload agent.runtimeKind signing)
    ∨ (¬Publishable fingerprint config db row now ∧ ∃ reason,
      publishNext fingerprint config seen db pick held now = .retire row reason) := by
  have locked : lockAssignment db row.id held = some row := by
    rw [lockAssignment, considers.free]
    cases taken : db.outbox.find? fun other => other.id == row.id && other.publishedAt.isNone with
    | none =>
        have other := Table.find?_eq_none.1 taken row considers.member
        simp [considers.waiting] at other
    | some first =>
        obtain ⟨there, hit⟩ := Table.mem_of_find? taken
        simp only [Bool.and_eq_true, beq_iff_eq] at hit
        rw [← Table.eq_of_key_eq there considers.member hit.1]
        rfl
  simp only [publishNext, considers.next, Config.decode, ← considers.id, locked]
  by_cases readable : config.readable row.id = true
  · simp only [if_pos readable, ← same.payload, ne_eq, not_true_eq_false, if_false]
    cases passed : assignmentStateRetirementReason row row.payload
        (taskState db candidate now) with
    | some reason =>
        refine .inr ⟨fun may => ?_, reason, rfl⟩
        have none := (assignmentStateRetirementReason_eq_none same).2
          ⟨may.delivery, may.attempt, may.lease, may.taskId, may.task⟩
        rw [passed] at none
        cases none
    | none =>
        obtain ⟨delivery, attempt, lease, taskId, task⟩ :=
          (assignmentStateRetirementReason_eq_none same).1 passed
        rcases @agentTurn_spec fingerprint config db row with
          ⟨agent, signing, ready, secret, published⟩ | ⟨unready, retired⟩
        · exact .inl ⟨⟨readable, delivery, attempt, lease, taskId, task, agent, ready⟩, agent,
            signing, ready, secret, published⟩
        · exact .inr ⟨fun may => unready may.agent, retired⟩
  · simp only [if_neg readable]
    exact .inr ⟨fun may => readable may.readable, _, rfl⟩

theorem publishNext_eq_skip_or (seen db : Db) (pick : Uuid) (held : Bool) (now : Timestamp) :
    publishNext fingerprint config seen db pick held now = .skip
      ∨ ∃ candidate row, Considers seen db pick held candidate row := by
  cases next : nextAssignment seen pick with
  | none =>
      rw [publishNext, next]
      exact .inl rfl
  | some candidate =>
      cases locked : lockAssignment db candidate.id held with
      | none =>
          rw [publishNext, next]
          dsimp only
          rw [locked]
          split <;> exact .inl rfl
      | some row =>
          rw [lockAssignment] at locked
          split at locked
          case isTrue => cases locked
          case isFalse free =>
              obtain ⟨member, hit⟩ := Table.mem_of_find? locked
              simp only [Bool.and_eq_true, beq_iff_eq, Option.isNone_iff_eq_none] at hit
              exact .inr ⟨candidate, row, next, by simpa using free, member, hit.1, hit.2⟩

end Turns

section Runs

variable {crypto : Crypto} {config : Config} {relay : Relay} {a : Action}

/-- What an action of the relay keeps: the outbox evolves, the world stays sound, and what was
committed before is still in the past. -/
structure Forward (before after : World) : Prop where
  posts : PostHistory (stageOf before) (stageOf after)
  sound : SoundWorld after
  past : ∀ old ∈ after.past, old ∈ before.db :: before.past

theorem forward_commit {gate : Lifecycle → Task → Prop} {w : World}
    {outcome : OrchestrationService.Outcome} (sound : SoundWorld w)
    (carries : AssignmentChanges.Carries gate w.db w.issued outcome) :
    Forward w (w.commit outcome) :=
  ⟨postHistory_of_chain carries, soundWorld_commit sound carries, fun _ member => member⟩

theorem forward_exec (sound : SoundWorld relay.world) (allowed : Allowed relay a) :
    Forward relay.world (exec crypto config relay a).world := by
  have stays : Forward relay.world relay.world :=
    ⟨.refl _, sound, fun _ member => List.mem_cons_of_mem _ member⟩
  cases a with
  | system action =>
      show Forward relay.world (System.exec crypto relay.world action)
      rw [System.exec]
      split
      case h_1 outcome done =>
          exact forward_commit sound (transact_carries sound.sound sound.history allowed.1
            (respects_true relay.world action) done)
      case h_2 => exact stays
  | publish attempt =>
      show Forward relay.world ((marked crypto config relay (.publish attempt)).elim _ _)
      cases marked crypto config relay (.publish attempt) with
      | none => exact stays
      | some row =>
          exact forward_commit sound
            (@carries_markOutboxPublished (fun _ _ => True) relay.world.db relay.world.issued
              attempt.now row.id)

/-- The rows of the databases so far belong to recorded assignments, and those of the current
database are later versions of them. -/
structure Posts (relay : Relay) : Prop where
  sound : SoundWorld relay.world
  issued : ∀ old ∈ relay.world.db :: relay.world.past, ∀ row ∈ old.outbox,
    ∃ issue ∈ relay.world.issued, issue.deliveryId = row.id
  later : ∀ old ∈ relay.world.db :: relay.world.past, ∀ row ∈ old.outbox,
    ∀ current ∈ relay.world.db.outbox, current.id = row.id → SamePost row current

theorem posts_start : Posts Relay.start := by
  refine ⟨soundWorld_start, ?_, ?_⟩ <;>
    simp [Relay.start, World.start, Db.empty]

theorem posts_exec (posts : Posts relay) (allowed : Allowed relay a) :
    Posts (exec crypto config relay a) := by
  have forward := @forward_exec crypto config relay a posts.sound allowed
  constructor
  case sound => exact forward.sound
  case issued =>
      intro old listed row member
      rcases List.mem_cons.1 listed with rfl | earlier
      · obtain ⟨issue, recorded, post⟩ := forward.sound.sound.posts row member
        exact ⟨issue, recorded, post.id.symm⟩
      · obtain ⟨issue, recorded, same⟩ := posts.issued old (forward.past old earlier) row member
        exact ⟨issue, forward.posts.issued issue recorded, same⟩
  case later =>
      intro old listed row member current there same
      rcases List.mem_cons.1 listed with rfl | earlier
      · obtain rfl : current = row := Table.eq_of_key_eq there member same
        exact .refl current
      · rcases forward.posts.origin current there with ⟨previous, was, step⟩ | fresh
        · have before := posts.later old (forward.past old earlier) row member previous was
            (step.id.symm.trans same)
          exact before.trans step
        · obtain ⟨issue, recorded, carried⟩ :=
            posts.issued old (forward.past old earlier) row member
          exact absurd (carried.trans same.symm) (fresh issue recorded)

theorem posts_of_reachable (reachable : ReachableRelay crypto config relay) : Posts relay :=
  Reachable.invariant (fun _ start => start ▸ posts_start)
    (fun _ _ posts allowed => posts_exec posts allowed) reachable

theorem turn_cases (posts : Posts relay) (attempt : Attempt) :
    relay.turn crypto config attempt = .skip
    ∨ ∃ candidate row, Considers (relay.world.snapshot attempt.seen) relay.world.db attempt.pick
        attempt.held candidate row
      ∧ SamePost candidate row
      ∧ ((Publishable crypto.fingerprint config relay.world.db row attempt.now
          ∧ ∃ agent signing, AgentReady crypto.fingerprint relay.world.db row agent
            ∧ (agent.runtimeKind = .container → signing = agent.hmacSecret)
            ∧ relay.turn crypto config attempt
              = .publish row row.payload agent.runtimeKind signing)
        ∨ (¬Publishable crypto.fingerprint config relay.world.db row attempt.now
          ∧ ∃ reason, relay.turn crypto config attempt = .retire row reason)) := by
  rcases @publishNext_eq_skip_or crypto.fingerprint config
      (relay.world.snapshot attempt.seen) relay.world.db attempt.pick attempt.held attempt.now
    with skip | ⟨candidate, row, considers⟩
  · exact .inl skip
  · have same := posts.later _ (snapshot_mem relay.world attempt.seen) candidate
      (Table.mem_of_find? considers.next).1 row considers.member considers.id
    exact .inr ⟨candidate, row, considers, same, publishNext_spec considers same⟩

def waiting (id : Uuid) (relay : Relay) : Bool :=
  relay.world.db.outbox.any fun row => row.id == id && row.publishedAt.isNone

theorem waiting_iff {id : Uuid} : waiting id relay = true ↔
    ∃ row ∈ relay.world.db.outbox, row.id = id ∧ row.publishedAt = none := by
  simp [waiting]

theorem marked_spec (posts : Posts relay) {row : OutboxRow}
    (mark : marked crypto config relay a = some row) :
    ∃ attempt candidate, a = .publish attempt
      ∧ Considers (relay.world.snapshot attempt.seen) relay.world.db attempt.pick attempt.held
        candidate row
      ∧ SamePost candidate row ∧ waiting row.id (exec crypto config relay a) = false := by
  cases a with
  | system action => cases mark
  | publish attempt =>
      obtain ⟨candidate, considers, same⟩ : ∃ candidate,
          Considers (relay.world.snapshot attempt.seen) relay.world.db attempt.pick attempt.held
            candidate row ∧ SamePost candidate row := by
        change ((relay.turn crypto config attempt).effect attempt).2 = some row at mark
        rcases @turn_cases crypto config relay posts attempt with skip | ⟨candidate, other,
          considers, same, ⟨-, agent, signing, -, -, turn⟩ | ⟨-, reason, turn⟩⟩
        · rw [skip] at mark
          cases mark
        · rw [turn, Turn.effect] at mark
          dsimp only at mark
          split at mark
          case isTrue =>
              cases mark
              exact ⟨candidate, considers, same⟩
          case isFalse => cases mark
        · rw [turn, Turn.effect] at mark
          split at mark
          case isTrue =>
              cases mark
              exact ⟨candidate, considers, same⟩
          case isFalse => cases mark
      refine ⟨attempt, candidate, rfl, considers, same, ?_⟩
      rw [Bool.eq_false_iff, Ne, waiting_iff]
      rintro ⟨after, member, id, waits⟩
      change after ∈ ((marked crypto config relay (.publish attempt)).elim _ _ : World).db.outbox
        at member
      rw [mark] at member
      obtain ⟨before, -, rfl⟩ := (@Table.mem_update _ _ _ relay.world.db.outbox _
        (fun row => { row with publishedAt := some attempt.now }) (fun _ => rfl) after).1 member
      split at waits
      case isTrue => cases waits
      case isFalse missed =>
          rw [if_neg missed] at id
          exact missed (by simp [id, waits])

theorem mem_sendAll {sends : List (Message × Send)} {message : Message}
    (member : message ∈ (sendAll sends).1) : ∃ send, (message, send) ∈ sends := by
  induction sends with
  | nil => cases member
  | cons first rest ih =>
      rcases first with ⟨head, send⟩
      cases send with
      | lost => cases member
      | unacknowledged =>
          rcases List.mem_singleton.1 member with rfl
          exact ⟨_, List.mem_cons_self⟩
      | acknowledged =>
          rcases List.mem_cons.1 member with rfl | later
          · exact ⟨_, List.mem_cons_self⟩
          · obtain ⟨send, listed⟩ := ih later
            exact ⟨send, List.mem_cons_of_mem _ listed⟩

theorem sent_spec (posts : Posts relay) {attempt : Attempt} {message : Message}
    (member : message ∈ sent crypto config relay (.publish attempt)) :
    ∃ row ∈ relay.world.db.outbox, row.publishedAt = none ∧ message.assignment = row.payload
      ∧ Publishable crypto.fingerprint config relay.world.db row attempt.now
      ∧ ∃ agent, AgentReady crypto.fingerprint relay.world.db row agent
        ∧ (agent.runtimeKind = .container → message.signedWith = agent.hmacSecret) := by
  change message ∈ ((relay.turn crypto config attempt).effect attempt).1 at member
  rcases @turn_cases crypto config relay posts attempt with skip | ⟨candidate, row,
    considers, same, ⟨publishable, agent, signing, ready, secret, turn⟩ | ⟨-, reason, turn⟩⟩
  · rw [skip] at member
    cases member
  · rw [turn] at member
    obtain ⟨send, listed⟩ := mem_sendAll member
    have shape : message.assignment = row.payload ∧ message.signedWith = signing := by
      simp only [List.mem_cons, Prod.mk.injEq, List.not_mem_nil, or_false] at listed
      rcases listed with ⟨rfl, -⟩ | ⟨rfl, -⟩ <;> exact ⟨rfl, rfl⟩
    exact ⟨row, considers.member, considers.waiting, shape.1, publishable, agent, ready,
      fun container => shape.2.trans (secret container)⟩
  · rw [turn] at member
    cases member

def ahead (row : OutboxRow) (db : Db) : Finset Uuid :=
  ((db.outbox.rows.filter fun other => other.publishedAt.isNone && other.id != row.id
    && decide (other.createdAt ≤ row.createdAt)).map fun other => other.id).toFinset

theorem mem_ahead {row : OutboxRow} {db : Db} {id : Uuid} : id ∈ ahead row db ↔
    ∃ other ∈ db.outbox, other.id = id ∧ other.publishedAt = none ∧ id ≠ row.id
      ∧ other.createdAt ≤ row.createdAt := by
  simp only [ahead, List.mem_toFinset, List.mem_map, List.mem_filter, Bool.and_eq_true,
    Option.isNone_iff_eq_none, bne_iff_ne, decide_eq_true_eq]
  constructor
  · rintro ⟨other, ⟨member, ⟨waits, differs⟩, older⟩, rfl⟩
    exact ⟨other, member, rfl, waits, differs, older⟩
  · rintro ⟨other, member, rfl, waits, differs, older⟩
    exact ⟨other, ⟨member, ⟨waits, differs⟩, older⟩, rfl⟩

section Definitions

variable (crypto : Crypto) (config : Config)

def passesOver (row : OutboxRow) (relay : Relay) (a : Action) : Bool :=
  waiting row.id relay && match a with
    | .system _ => false
    | .publish attempt =>
        ((relay.world.snapshot attempt.seen).outbox.any fun other =>
          other.id == row.id && other.publishedAt.isNone)
        && (marked crypto config relay a).any fun other => other.id != row.id

def overtakers (row : OutboxRow) (relay : Relay) (a : Action) : Nat :=
  ((ahead row (exec crypto config relay a).world.db).filter fun id =>
    relay.world.db.outbox.any (fun other => other.id == id) = false).card

/-- What holds of publishers in any run: only what may be published goes on the wire, a row
ceases to wait once and is not sent any more, a turn that commits is done with the row that it
considers, and at most the rows ahead of a row are marked before it. -/
structure Safe (relay : Relay) : Prop where
  sent : ∀ attempt, ∀ message ∈ sent crypto config relay (.publish attempt),
    ∃ row ∈ relay.world.db.outbox, row.publishedAt = none ∧ message.assignment = row.payload
      ∧ Publishable crypto.fingerprint config relay.world.db row attempt.now
      ∧ ∃ agent, AgentReady crypto.fingerprint relay.world.db row agent
        ∧ (agent.runtimeKind = .container → message.signedWith = agent.hmacSecret)
  once : ∀ id actions, AllAllowed (exec crypto config) Allowed relay actions →
    exits (exec crypto config) (waiting id) relay actions ≤ 1
  passed : ∀ row ∈ relay.world.db.outbox, row.publishedAt ≠ none →
    ∀ later, Reaches (exec crypto config) Allowed relay later →
      waiting row.id later = false
        ∧ ∀ attempt, ∀ message ∈ OutboxPublisher.sent crypto config later (.publish attempt),
          message.assignment.deliveryId ≠ some row.id
  handled : ∀ attempt candidate row, Considers (relay.world.snapshot attempt.seen)
      relay.world.db attempt.pick attempt.held candidate row → attempt.commits = true →
    (¬Publishable crypto.fingerprint config relay.world.db row attempt.now →
      OutboxPublisher.sent crypto config relay (.publish attempt) = []
        ∧ waiting row.id (exec crypto config relay (.publish attempt)) = false)
    ∧ (Publishable crypto.fingerprint config relay.world.db row attempt.now →
      attempt.legacy = .acknowledged → attempt.namespaced = .acknowledged →
      OutboxPublisher.sent crypto config relay (.publish attempt) ≠ []
        ∧ waiting row.id (exec crypto config relay (.publish attempt)) = false)
  progress : ∀ row ∈ relay.world.db.outbox, ∀ actions,
    AllAllowed (exec crypto config) Allowed relay actions →
      occurrences (exec crypto config) (passesOver crypto config row) relay actions
        ≤ (ahead row relay.world.db).card
          + total (exec crypto config) (overtakers crypto config row) relay actions

end Definitions

/-- A delivery that was assigned and does not wait: it never waits again. -/
structure Settled (id : Uuid) (relay : Relay) : Prop where
  posts : Posts relay
  issued : ∃ issue ∈ relay.world.issued, issue.deliveryId = id
  passed : waiting id relay = false

theorem settled_exec {id : Uuid} (settled : Settled id relay) (allowed : Allowed relay a) :
    Settled id (exec crypto config relay a) := by
  have forward := @forward_exec crypto config relay a settled.posts.sound allowed
  obtain ⟨issue, recorded, rfl⟩ := settled.issued
  refine ⟨posts_exec settled.posts allowed, ⟨issue, forward.posts.issued issue recorded, rfl⟩, ?_⟩
  rw [Bool.eq_false_iff, Ne, waiting_iff]
  rintro ⟨row, member, id, waits⟩
  rcases forward.posts.origin row member with ⟨old, was, same⟩ | fresh
  · have waited : waiting issue.deliveryId relay = true :=
      waiting_iff.2 ⟨old, was, same.id.symm.trans id, same.published waits⟩
    rw [settled.passed] at waited
    cases waited
  · exact fresh issue recorded id.symm

theorem once_of_posts (posts : Posts relay) (id : Uuid) {actions : List Action}
    (all : AllAllowed (exec crypto config) Allowed relay actions) :
    exits (exec crypto config) (waiting id) relay actions ≤ 1 := by
  refine @exits_le_one _ _ _ _ _ Posts (Settled id) ?_ ?_ ?_ ?_ _ _ posts all
  · exact fun _ settled => settled.passed
  · exact fun _ _ settled allowed => settled_exec settled allowed
  · exact fun _ _ posts allowed => posts_exec posts allowed
  · intro relay a posts allowed waits passed
    obtain ⟨row, member, rfl, -⟩ := waiting_iff.1 waits
    obtain ⟨issue, recorded, same⟩ := posts.issued _ List.mem_cons_self row member
    have forward := @forward_exec crypto config relay a posts.sound allowed
    exact ⟨posts_exec posts allowed, ⟨issue, forward.posts.issued issue recorded, same⟩, passed⟩

theorem settled_of_published (posts : Posts relay) {row : OutboxRow}
    (member : row ∈ relay.world.db.outbox) (published : row.publishedAt ≠ none) :
    Settled row.id relay := by
  refine ⟨posts, posts.issued _ List.mem_cons_self row member, ?_⟩
  rw [Bool.eq_false_iff, Ne, waiting_iff]
  rintro ⟨other, there, same, waits⟩
  obtain rfl : other = row := Table.eq_of_key_eq there member same
  exact published waits

theorem over_of_settled {id : Uuid} (settled : Settled id relay) {later : Relay}
    (reaches : Reaches (exec crypto config) Allowed relay later) : Settled id later := by
  induction reaches with
  | refl => exact settled
  | tail _ last ih =>
      obtain ⟨action, allowed, rfl⟩ := last
      exact settled_exec ih allowed

theorem not_sent_of_settled {id : Uuid} (settled : Settled id relay) {attempt : Attempt}
    {message : Message} (member : message ∈ sent crypto config relay (.publish attempt)) :
    message.assignment.deliveryId ≠ some id := by
  obtain ⟨row, there, waits, payload, publishable, -⟩ := sent_spec settled.posts member
  rw [payload, publishable.delivery]
  intro same
  have waited : waiting id relay = true :=
    waiting_iff.2 ⟨row, there, Option.some.inj same, waits⟩
  rw [settled.passed] at waited
  cases waited

theorem ahead_exec (posts : Posts relay) (allowed : Allowed relay a) (row : OutboxRow) :
    ahead row (exec crypto config relay a).world.db
      ⊆ ahead row relay.world.db
        ∪ (ahead row (exec crypto config relay a).world.db).filter fun id =>
          relay.world.db.outbox.any (fun other => other.id == id) = false := by
  have forward := @forward_exec crypto config relay a posts.sound allowed
  intro id member
  rw [Finset.mem_union, Finset.mem_filter]
  by_cases known : relay.world.db.outbox.any (fun other => other.id == id) = true
  · obtain ⟨previous, was, same⟩ := Table.any_eq_true.1 known
    obtain ⟨other, there, rfl, waits, differs, older⟩ := mem_ahead.1 member
    left
    rcases forward.posts.origin other there with ⟨old, earlier, step⟩ | fresh
    · exact mem_ahead.2 ⟨old, earlier, step.id.symm, step.published waits, differs,
        step.created ▸ older⟩
    · obtain ⟨issue, recorded, carried⟩ := posts.issued _ List.mem_cons_self previous was
      exact absurd (carried.trans (beq_iff_eq.1 same)) (fresh issue recorded)
  · exact .inr ⟨member, by simpa using known⟩

/-- The version of a row in a relay: one row for its identifier, created when it was. -/
structure Tracks (row : OutboxRow) (relay : Relay) : Prop where
  posts : Posts relay
  issued : ∃ issue ∈ relay.world.issued, issue.deliveryId = row.id
  created : ∀ current ∈ relay.world.db.outbox, current.id = row.id →
    current.createdAt = row.createdAt

theorem tracks_exec {row : OutboxRow} (tracks : Tracks row relay) (allowed : Allowed relay a) :
    Tracks row (exec crypto config relay a) := by
  have forward := @forward_exec crypto config relay a tracks.posts.sound allowed
  obtain ⟨issue, recorded, carried⟩ := tracks.issued
  refine ⟨posts_exec tracks.posts allowed, ⟨issue, forward.posts.issued issue recorded, carried⟩,
    ?_⟩
  intro current member same
  rcases forward.posts.origin current member with ⟨old, was, step⟩ | fresh
  · rw [step.created, tracks.created old was (step.id.symm.trans same)]
  · exact absurd (carried.trans same.symm) (fresh issue recorded)

theorem passesOver_spec {row : OutboxRow} (tracks : Tracks row relay)
    (passed : passesOver crypto config row relay a = true) : ∃ other,
      marked crypto config relay a = some other ∧ other.id ∈ ahead row relay.world.db := by
  cases a with
  | system action => simp [passesOver] at passed
  | publish attempt =>
      simp only [passesOver, Bool.and_eq_true] at passed
      obtain ⟨waits, seen, mark⟩ := passed
      obtain ⟨other, mark, differs⟩ := (Option.any_eq_true _ _).1 mark
      refine ⟨other, mark, ?_⟩
      obtain ⟨attempt, candidate, same, considers, post, -⟩ := marked_spec tracks.posts mark
      cases same
      obtain ⟨current, there, id, -⟩ := waiting_iff.1 waits
      obtain ⟨read, listed, unpublished⟩ := Table.any_eq_true.1 seen
      simp only [Bool.and_eq_true, beq_iff_eq, Option.isNone_iff_eq_none] at unpublished
      have created : read.createdAt = row.createdAt := by
        rw [← tracks.created current there id]
        exact (tracks.posts.later _ (snapshot_mem relay.world attempt.seen) read listed current
          there (id.trans unpublished.1.symm)).created.symm
      have oldest : candidate.createdAt ≤ read.createdAt := by
        by_contra younger
        have first := (Table.mem_of_find? considers.next).2
        simp only [Bool.and_eq_true, Bool.not_eq_true', Table.any_eq_false] at first
        have older := first.2 read listed
        simp only [unpublished.2, Option.isNone_none, Bool.true_and, decide_eq_false_iff_not,
          not_lt] at older
        exact younger older
      refine mem_ahead.2 ⟨other, considers.member, rfl, considers.waiting, by simpa using differs, ?_⟩
      rw [post.created, ← created]
      exact oldest

theorem progress_of_tracks {row : OutboxRow} (tracks : Tracks row relay) {actions : List Action}
    (all : AllAllowed (exec crypto config) Allowed relay actions) :
    occurrences (exec crypto config) (passesOver crypto config row) relay actions
      ≤ (ahead row relay.world.db).card
        + total (exec crypto config) (overtakers crypto config row) relay actions := by
  let potential : Relay → Nat := fun relay => (ahead row relay.world.db).card
  refine @occurrences_le_potential _ _ _ _ _ potential _ (Tracks row) ?_ ?_ ?_ _ _ tracks all
  · exact fun _ _ tracks allowed => tracks_exec tracks allowed
  · intro relay a tracks allowed
    have grows := Finset.card_le_card (@ahead_exec crypto config relay a tracks.posts allowed row)
    exact grows.trans (Finset.card_union_le _ _)
  · intro relay a tracks allowed passed
    obtain ⟨other, mark, member⟩ := passesOver_spec tracks passed
    obtain ⟨-, -, -, considers, -, passed⟩ := marked_spec tracks.posts mark
    have grows : ahead row (exec crypto config relay a).world.db
        ⊆ (ahead row relay.world.db).erase other.id
          ∪ (ahead row (exec crypto config relay a).world.db).filter fun id =>
            relay.world.db.outbox.any (fun other => other.id == id) = false := by
      intro id still
      rcases Finset.mem_union.1 (ahead_exec tracks.posts allowed row still) with before | new
      · refine Finset.mem_union_left _ (Finset.mem_erase.2 ⟨?_, before⟩)
        rintro rfl
        obtain ⟨after, there, id, waits, -⟩ := mem_ahead.1 still
        rw [Bool.eq_false_iff, Ne, waiting_iff] at passed
        exact passed ⟨after, there, id, waits⟩
      · exact Finset.mem_union_right _ new
    have size := (Finset.card_le_card grows).trans (Finset.card_union_le _ _)
    have smaller := Finset.card_erase_add_one member
    show (ahead row (exec crypto config relay a).world.db).card + 1
      ≤ (ahead row relay.world.db).card + overtakers crypto config row relay a
    rw [overtakers]
    omega

theorem not_waiting_of_marked (posts : Posts relay) {row : OutboxRow}
    (mark : marked crypto config relay a = some row) :
    waiting row.id (exec crypto config relay a) = false := by
  obtain ⟨-, -, -, -, -, passed⟩ := marked_spec posts mark
  exact passed

theorem handled_of_posts (posts : Posts relay) {attempt : Attempt} {candidate row : OutboxRow}
    (considers : Considers (relay.world.snapshot attempt.seen) relay.world.db attempt.pick
      attempt.held candidate row) (commits : attempt.commits = true) :
    (¬Publishable crypto.fingerprint config relay.world.db row attempt.now →
      sent crypto config relay (.publish attempt) = []
        ∧ waiting row.id (exec crypto config relay (.publish attempt)) = false)
    ∧ (Publishable crypto.fingerprint config relay.world.db row attempt.now →
      attempt.legacy = .acknowledged → attempt.namespaced = .acknowledged →
      sent crypto config relay (.publish attempt) ≠ []
        ∧ waiting row.id (exec crypto config relay (.publish attempt)) = false) := by
  have same := posts.later _ (snapshot_mem relay.world attempt.seen) candidate
    (Table.mem_of_find? considers.next).1 row considers.member considers.id
  rcases publishNext_spec considers same with
    ⟨publishable, agent, signing, -, -, turn⟩ | ⟨unfit, reason, turn⟩
  · refine ⟨fun unfit => absurd publishable unfit, fun _ legacy namespaced => ?_⟩
    change relay.turn crypto config attempt = _ at turn
    have effect : (relay.turn crypto config attempt).effect attempt = ([
        ⟨assignSubject row.payload.agentId, row.payload, signing⟩,
        ⟨assignSubjectKind agent.runtimeKind row.payload.agentId, row.payload, signing⟩],
        some row) := by
      rw [turn]
      simp [Turn.effect, legacy, namespaced, commits, sendAll]
    refine ⟨?_, not_waiting_of_marked posts (congrArg Prod.snd effect)⟩
    show ((relay.turn crypto config attempt).effect attempt).1 ≠ []
    rw [effect]
    exact List.cons_ne_nil _ _
  · refine ⟨fun _ => ?_, fun publishable => absurd publishable unfit⟩
    change relay.turn crypto config attempt = _ at turn
    have effect : (relay.turn crypto config attempt).effect attempt = ([], some row) := by
      rw [turn]
      simp [Turn.effect, commits]
    exact ⟨congrArg Prod.fst effect, not_waiting_of_marked posts (congrArg Prod.snd effect)⟩

/-- What publishers do in every run of them and the rest of the system. -/
theorem publish_safety (reachable : ReachableRelay crypto config relay) :
    Safe crypto config relay := by
  have posts := posts_of_reachable reachable
  constructor
  case sent => exact fun attempt message member => sent_spec posts member
  case once => exact fun id actions all => once_of_posts posts id all
  case passed =>
      intro row member published later reaches
      have settled := over_of_settled (settled_of_published posts member published) reaches
      exact ⟨settled.passed, fun attempt message sent => not_sent_of_settled settled sent⟩
  case handled =>
      exact fun attempt candidate row considers commits =>
        handled_of_posts posts considers commits
  case progress =>
      intro row member actions all
      refine progress_of_tracks ⟨posts, posts.issued _ List.mem_cons_self row member, ?_⟩ all
      intro current there same
      rw [Table.eq_of_key_eq there member same]

end Runs

/-! An agent claims a task, and a publisher sends the assignment. -/

namespace Sample

open Forge.System.Sample (crypto named day staffed claimed)

def config : Config := ⟨true, fun _ => true⟩

def attempt : Attempt where
  pick := named 30
  seen := 0
  held := false
  now := day
  legacy := .acknowledged
  namespaced := .acknowledged
  commits := true

def actions : List Action :=
  (staffed ++ claimed (named 20) (named 10) 30).map .system ++ [.publish attempt]

def published : Relay :=
  run (exec crypto config) .start actions

end Sample

theorem publish_safety_claimed :
    Sample.published.wire.length = 2
      ∧ Safe System.Sample.crypto Sample.config Sample.published :=
  ⟨by decide +kernel, publish_safety (reachable_run rfl (by decide +kernel))⟩

end Forge.PublishSafety
