import Forge.OrchestratorDiscipline
import Forge.Library.StateMachine

/-! The requests and the spawned dispatches keep to the rules, in whatever order they run. -/

namespace Forge.OrchestratorSafety

open Forge.Library.Identifier
open Forge.Library.Interleaving
open Forge.Library.Interleaving.Attempt hiding call
open Forge.Library.KeyedTable
open Forge.Library.StateMachine
open Forge.Orchestrator
open Forge.OrchestratorChanges
open Forge.OrchestratorDiscipline
open Forge.OrchestratorStore
open Forge.Schema (Timestamp)

variable {services : Services} {state later : World} {request : Nat} {id : Uuid} {choice : Choice}

/-! ## Replies -/

theorem access_ok {α : Type} {result : World × Except StoreError α} {value : α}
    (same : (access state choice result).2 = .ok value) : access state choice result = result := by
  rw [access] at same ⊢
  split at same
  case h_1 => cases same
  case h_2 => rfl

theorem effective {α : Type} {result : World × Except StoreError α} {value : α}
    (same : (noted request (access state choice result)).2 = .ok value) :
    noted request (access state choice result) = result ∧ result.2 = .ok value := by
  have reached : noted request (access state choice result) = access state choice result := by
    generalize access state choice result = called at same ⊢
    obtain ⟨after, found | err⟩ := called
    · cases same
    · rfl
  rw [reached] at same ⊢
  have done := access_ok same
  exact ⟨done, done ▸ same⟩

theorem noted_error {α : Type} {result : World × Except StoreError α} {err : StoreError}
    (same : (noted request result).2 = .error err) :
    Excused ((noted request result).1.past request) := by
  obtain ⟨after, found | value⟩ := result
  · intro wrote
    simp only [noted, World.interrupt, amend_past_self] at wrote ⊢
    rw [wrote, Bool.or_true]
  · cases same

/-- The turn of a request at which it makes a call. -/
inductive Turn (request : Nat) (operation : Op) (state : World)
    (reply : Except StoreError (Answer operation)) (later : World) : Prop
  | mk (before : World) (choice : Choice) (free : Bool)
      (past : before.past request = state.past request)
      (same : (perform before operation choice free).2 = reply)
      (after : RequestRelies request (perform before operation choice free).1 later)
      (live : request < later.requests)

theorem requests_perform (world : World) (operation : Op) (choice : Choice) (free : Bool) :
    (perform world operation choice free).1.requests = world.requests := by
  obtain ⟨middle, effect, done | ⟨whom, _, done⟩⟩ := perform_effect world operation choice free
  · rw [done, requests_of_effect effect]
  · rw [done, ← requests_of_effect effect]
    rfl

theorem safe_turn {operation : Op} (live : request < state.requests)
    (own : ∀ other, owner operation = some other → other = request)
    (may : ∀ before, RequestRelies request state before →
      MayRequest (before.past request) before operation) :
    Safe (rules services) (.request request) (call operation) (Turn request operation state)
      state := by
  refine Safe.mono (Attempt.safe_call fun before relies _ => ?_) ?_
  · exact ⟨live.trans_le (RequestRelies.requests relies), own, may before relies⟩
  · rintro reply later _ ⟨before, choice, free, relies, _, may, _, same, after⟩
    refine .mk before choice free (RequestRelies.past relies) same after ?_
    refine Nat.lt_of_lt_of_le ?_ (RequestRelies.requests after)
    exact (requests_perform before operation choice free).symm ▸ may.1

theorem Turn.onward {operation : Op} {reply : Except StoreError (Answer operation)} {after : World}
    (turn : Turn request operation state reply later) (relies : RequestRelies request later after) :
    Turn request operation state reply after := by
  obtain ⟨before, choice, free, past, same, rely, live⟩ := turn
  exact .mk before choice free past same (rely.trans relies) (live.trans_le relies.requests)

theorem Turn.live {operation : Op} {reply : Except StoreError (Answer operation)}
    (turn : Turn request operation state reply later) : request < later.requests := by
  obtain ⟨before, choice, free, past, same, rely, live⟩ := turn
  exact live

theorem performAssign_refused {orgId : String} {participantId : Uuid} {target : TaskState}
    {now : Timestamp}
    (same : (performAssign state request id orgId participantId target now).2 = .ok false) :
    (performAssign state request id orgId participantId target now).1 = state := by
  rw [performAssign] at same ⊢
  split
  case h_1 hit =>
      rw [hit] at same
      cases same
  case h_2 => rfl

theorem performGetTask_ok {orgId : String} {task : Task}
    (same : (performGetTask state request id orgId).2 = .ok task) :
    HasTask state task.id orgId ∧ (performGetTask state request id orgId).1 =
      state.amend request fun past => { past with read := some task.state } := by
  rw [performGetTask] at same ⊢
  cases found : TaskStore.getById state.db id orgId with
  | error err =>
      rw [found] at same
      cases same
  | ok row =>
      rw [found] at same
      cases same
      refine ⟨?_, rfl⟩
      rw [TaskStore.getById] at found
      split at found
      case h_1 first there =>
          cases found
          obtain ⟨member, wanted⟩ := Table.mem_of_find? there
          obtain ⟨_, org⟩ : task.id = id ∧ task.orgId = orgId := by simpa [Task.isAt] using wanted
          exact ⟨task, member, rfl, org⟩
      case h_2 => cases found

theorem performCreateDispatch_ok {taskId drawn : Uuid} {orgId : String}
    {now : Timestamp}
    (same : (performCreateDispatch state request taskId orgId drawn now).2 = .ok id) :
    ((performCreateDispatch state request taskId orgId drawn now).1.past request).unspawned =
      some id := by
  rw [performCreateDispatch] at same ⊢
  split at same
  case h_1 created =>
      cases same
      simp
  case h_2 => cases same

theorem excused_of_assign {orgId : String} {participantId : Uuid}
    {reply : Except StoreError Bool}
    (turn : Turn request (.assign request id orgId participantId .assigned) state reply later)
    (fresh : (state.past request).wrote = false) (refused : reply ≠ .ok true) :
    Excused (later.past request) := by
  obtain ⟨before, choice, free, past, same, rely, live⟩ := turn
  rw [rely.past]
  cases reply with
  | error err => exact noted_error same
  | ok assigned =>
      obtain ⟨done, same⟩ := effective same
      cases assigned with
      | true => exact absurd rfl refused
      | false =>
          intro wrote
          rw [perform, done, performAssign_refused same, past, fresh] at wrote
          cases wrote

theorem task_of_getTask {orgId : String} {task : Task}
    (turn : Turn request (.getTask request id orgId) state (.ok task) later) :
    (later.past request).read = some task.state ∧ HasTask later task.id orgId := by
  obtain ⟨before, choice, free, past, same, rely, live⟩ := turn
  obtain ⟨done, same⟩ := effective same
  obtain ⟨there, after⟩ := performGetTask_ok same
  rw [perform, done, after] at rely
  refine ⟨?_, rely.tasks there⟩
  rw [rely.past, amend_past_self]

theorem excused_of_getTask {orgId : String} {err : StoreError}
    (turn : Turn request (.getTask request id orgId) state (.error err) later) :
    Excused (later.past request) := by
  obtain ⟨before, choice, free, past, same, rely, live⟩ := turn
  rw [rely.past]
  exact noted_error same

theorem unspawned_of_createDispatch {orgId : String} {taskId : Uuid}
    (turn : Turn request (.createDispatch request taskId orgId) state (.ok id) later) :
    (later.past request).unspawned = some id := by
  obtain ⟨before, choice, free, past, same, rely, live⟩ := turn
  obtain ⟨done, same⟩ := effective same
  rw [rely.past, perform, done]
  exact performCreateDispatch_ok same

theorem excused_of_createDispatch {orgId : String} {taskId : Uuid} {err : StoreError}
    (turn : Turn request (.createDispatch request taskId orgId) state (.error err) later) :
    Excused (later.past request) := by
  obtain ⟨before, choice, free, past, same, rely, live⟩ := turn
  rw [rely.past]
  exact noted_error same

theorem Turn.unowned {operation : Op} {reply : Except StoreError (Answer operation)}
    (turn : Turn request operation state reply later) (unowned : owner operation = none) :
    later.past request = state.past request := by
  obtain ⟨before, choice, free, past, same, rely, live⟩ := turn
  rw [rely.past, ← past]
  obtain ⟨middle, effect, done | ⟨whom, whose, done⟩⟩ :=
    perform_effect before operation choice free
  · rw [done, past_of_effect effect (by rw [unowned]; exact nofun)]
  · cases unowned.symm.trans (owner_of_interrupts whose)

/-! ## Requests -/

/-- What a handler's outcome says when it is answered. -/
structure Answers (request : Nat) (outcome : Except StoreError Response) (later : World) : Prop where
  live : request < later.requests
  excused : (responseOf outcome).isError = true → Excused (later.past request)

theorem Answers.onward {outcome : Except StoreError Response} {after : World}
    (answers : Answers request outcome later) (relies : RequestRelies request later after) :
    Answers request outcome after :=
  ⟨answers.live.trans_le relies.requests, fun isError => relies.past ▸ answers.excused isError⟩

theorem safe_answer {handler : Io Response}
    (safe : Safe (rules services) (.request request) handler (Answers request) state) :
    Safe (rules services) (.request request) (Prog.bind handler (answer request)) (fun _ _ => True)
      state := by
  refine Safe.bind safe fun outcome before _ answers later relies _ => ?_
  have answers := answers.onward relies
  refine ⟨⟨answers.live, fun _ own => (Option.some.inj own).symm, answers.excused⟩, ?_⟩
  exact fun _ _ _ _ _ _ => trivial

theorem safe_responding {handler : Io Response}
    (safe : Safe (rules services) (.request request) handler (Answers request) state) :
    Safe (rules services) (.request request) (responding handler) (Answers request) state := by
  refine safe_observe safe fun outcome before _ answers later relies _ => ?_
  have answers := answers.onward relies
  exact ⟨answers.live, answers.excused⟩

def Fails {α : Type} (request : Nat) (outcome : Except StoreError α) (later : World) : Prop :=
  request < later.requests ∧ ∀ err, outcome = .error err → Excused (later.past request)

theorem safe_storeAssign {orgId : String} {participantId : Uuid} (live : request < state.requests)
    (fresh : state.past request = .none) :
    Safe (rules services) (.request request) (storeAssign request id orgId participantId)
      (Fails request) state := by
  refine safe_bind (safe_turn live (fun _ own => (Option.some.inj own).symm) ?_) ?_ ?_
  · intro before relies
    rw [relies.past, fresh]
    exact ⟨rfl, rfl⟩
  · intro assigned second _ turn
    have wrote : (state.past request).wrote = false := congrArg Past.wrote fresh
    cases assigned with
    | true =>
        intro later relies _
        exact ⟨turn.live.trans_le (RequestRelies.requests relies), nofun⟩
    | false =>
        have excused := excused_of_assign turn wrote (by rintro ⟨⟩)
        refine safe_bind (safe_turn turn.live nofun fun _ _ => trivial) ?_ ?_
        · intro found third _ looked
          have refused : ∀ later, RequestRelies request third later → ∀ err,
              Fails request (.error err : Except StoreError Unit) later := by
            intro later relies err
            refine ⟨looked.live.trans_le relies.requests, fun _ _ => ?_⟩
            rw [relies.past, looked.unowned rfl]
            exact excused
          cases found with
          | true => exact fun later relies _ => refused later relies _
          | false => exact fun later relies _ => refused later relies _
        · intro err third later relies _ looked
          refine ⟨looked.live.trans_le (RequestRelies.requests relies), fun _ _ => ?_⟩
          rw [RequestRelies.past relies, looked.unowned rfl]
          exact excused
  · intro err second later relies _ turn
    have turn := turn.onward relies
    exact ⟨turn.live, fun _ _ => excused_of_assign turn (congrArg Past.wrote fresh) nofun⟩

theorem safe_dispatchTask {req : AssignRequest} {agentProvider : String} {task : Task}
    (live : request < state.requests) (there : HasTask state task.id req.orgId) :
    Safe (rules services) (.request request) (dispatchTask request req agentProvider task)
      (Answers request) state := by
  refine safe_bind (safe_turn live (fun _ own => (Option.some.inj own).symm)
    fun _ relies => relies.tasks there) ?_ ?_
  · intro drawn second _ turn
    refine safe_bind (safe_turn turn.live (fun _ own => (Option.some.inj own).symm) ?_) ?_ ?_
    · intro before relies
      rw [relies.past]
      exact unspawned_of_createDispatch turn
    · intro _ third _ spawned later relies _
      exact ⟨spawned.live.trans_le (RequestRelies.requests relies), nofun⟩
    · rintro err third later _ _ ⟨_, _, _, _, same, _, _⟩
      cases same
  · intro err second later relies _ turn
    have turn := turn.onward relies
    exact ⟨turn.live, fun _ => excused_of_createDispatch turn⟩

theorem safe_assignTask {req : AssignRequest} {participantId : Uuid}
    (live : request < state.requests) (fresh : state.past request = .none) :
    Safe (rules services) (.request request) (assignTask services request req participantId)
      (Answers request) state := by
  refine safe_bind (safe_storeAssign live fresh) ?_ ?_
  · intro _ second _ stored
    refine safe_bind (safe_turn stored.1 (fun _ own => (Option.some.inj own).symm)
      fun _ _ => trivial) ?_ ?_
    · intro task third _ turn
      have there := (task_of_getTask turn).2
      have done : Safe (rules services) (.request request) (pure (.task task none) : Io Response)
          (Answers request) third := by
        intro later relies _
        exact ⟨turn.live.trans_le (RequestRelies.requests relies), nofun⟩
      cases req.agentProvider with
      | none => exact done
      | some agentProvider =>
          dsimp only
          split
          · exact safe_dispatchTask turn.live there
          · exact done
    · intro err third later relies _ turn
      have turn := turn.onward relies
      exact ⟨turn.live, fun _ => excused_of_getTask turn⟩
  · intro err second later relies _ stored
    refine ⟨stored.1.trans_le (RequestRelies.requests relies), fun _ => ?_⟩
    rw [RequestRelies.past relies]
    exact stored.2 err rfl

theorem safe_assign {req : AssignRequest} (live : request < state.requests)
    (fresh : state.past request = .none) :
    Safe (rules services) (.request request) (Orchestrator.assign services request req)
      (Answers request) state := by
  rw [Orchestrator.assign]
  split
  · intro later relies _
    refine ⟨live.trans_le (RequestRelies.requests relies), fun _ wrote => ?_⟩
    rw [RequestRelies.past relies, fresh] at wrote
    cases wrote
  · exact safe_responding (safe_assignTask live fresh)

/-! ## Requests that assign nothing -/

def Unassigning (operation : Op) : Prop := ∀ request id orgId participantId state,
  operation ≠ .assign request id orgId participantId state

theorem wrote_of_effect {operation : Op} {after : World} (effect : Effect state operation after)
    (unassigning : Unassigning operation) :
    (after.past request).wrote = (state.past request).wrote := by
  by_cases own : owner operation = some request
  · cases effect with
    | assign => exact absurd rfl (unassigning _ _ _ _ _)
    | respond =>
        cases own
        simp [World.release]
    | getTask | createDispatch | getReview | applyVerdict | createAudit | spawn =>
        cases own
        simp [World.release]
    | _ => rfl
  · rw [past_of_effect effect own]

theorem wrote_interrupt (world : World) (other : Nat) :
    ((world.interrupt other).past request).wrote = (world.past request).wrote := by
  by_cases same : request = other
  · subst same
    rw [World.interrupt, amend_past_self]
  · rw [past_interrupt world request same]

def Unassigned (request : Nat) (world : World) : Prop :=
  request < world.requests ∧ (world.past request).wrote = false

theorem Unassigned.onward {after : World} (unassigned : Unassigned request later)
    (relies : RequestRelies request later after) : Unassigned request after :=
  ⟨unassigned.1.trans_le relies.requests, relies.past ▸ unassigned.2⟩

theorem Unassigned.perform {operation : Op} (unassigned : Unassigned request state)
    (unassigning : Unassigning operation) (choice : Choice) (free : Bool) :
    Unassigned request (perform state operation choice free).1 := by
  refine ⟨(requests_perform ..).symm ▸ unassigned.1, ?_⟩
  obtain ⟨middle, effect, done | ⟨whom, whose, done⟩⟩ := perform_effect state operation choice free
  · rw [done, wrote_of_effect effect unassigning]
    exact unassigned.2
  · rw [done, wrote_interrupt, wrote_of_effect effect unassigning]
    exact unassigned.2

theorem Unassigned.answers {outcome : Except StoreError Response}
    (unassigned : Unassigned request later) : Answers request outcome later :=
  ⟨unassigned.1, fun _ wrote => absurd (wrote.symm.trans unassigned.2) nofun⟩

theorem safe_unassigned {handler : Io Response}
    (safe : Safe (rules services) (.request request) handler (fun _ _ => True) state)
    (only : handler.Only Unassigning) (now : Unassigned request state) :
    Safe (rules services) (.request request) handler (Answers request) state := by
  refine Safe.mono (Safe.frame safe only ?_ (fun _ _ relies holds => holds.onward relies) now) ?_
  · exact fun later operation choice free _ _ _ unassigning holds =>
      holds.perform unassigning choice free
  · exact fun _ _ _ holds => holds.2.answers

/-- Operations that every request may do at any time. -/
structure Plain (request : Nat) (operation : Op) : Prop where
  own : ∀ other, owner operation = some other → other = request
  may : ∀ past world, MayRequest past world operation
  unassigning : Unassigning operation

theorem safe_plain {handler : Io Response} (only : handler.Only (Plain request))
    (now : Unassigned request state) :
    Safe (rules services) (.request request) handler (Answers request) state := by
  refine Safe.mono (Safe.of_only only ?_ (fun _ _ relies holds => holds.onward relies) now) ?_
  · exact fun later operation _ plain holds => ⟨⟨holds.1, plain.own, plain.may _ _⟩,
      fun choice free => holds.perform plain.unassigning choice free⟩
  · exact fun _ _ _ holds => holds.answers

theorem only_bestEffort {α : Type} {kind : Op → Prop} {io : Io α} (only : io.Only kind) :
    (bestEffort io).Only kind :=
  Only.bind (Only.observe only) fun _ => trivial

theorem only_responding {kind : Op → Prop} {handler : Io Response} (only : handler.Only kind) :
    (responding handler).Only kind :=
  Only.bind (Only.observe only) fun _ => trivial

theorem safe_createTask {task : Task} (now : Unassigned request state) :
    Safe (rules services) (.request request) (Orchestrator.createTask task) (Answers request)
      state :=
  safe_plain (only_responding (Only.bind (Only.call ⟨nofun, fun _ _ => rfl, nofun⟩) fun _ =>
    trivial)) now

theorem safe_createReview {review : CodeReview} (now : Unassigned request state) :
    Safe (rules services) (.request request) (Orchestrator.createReview services request review)
      (Answers request) state := by
  refine safe_plain (Only.bind (Only.observe (Only.call ⟨nofun, fun _ _ => trivial, nofun⟩))
    fun outcome => ?_) now
  cases outcome with
  | error err => exact trivial
  | ok _ =>
      refine Only.bind (only_bestEffort (Only.call ⟨nofun, fun _ _ => trivial, nofun⟩)) fun _ => ?_
      split
      · refine Only.bind (only_bestEffort (Only.call ⟨?_, ?_, nofun⟩)) fun _ => trivial
        · exact fun _ own => (Option.some.inj own).symm
        · exact fun _ _ differs => absurd rfl differs
      · exact trivial

theorem safe_transition {orgId : String} {target : TaskState} (now : Unassigned request state) :
    Safe (rules services) (.request request) (transition request id orgId target)
      (Answers request) state := by
  refine safe_responding (safe_unassigned ?_ ?_ now)
  · refine safe_bind (safe_turn now.1 (fun _ own => (Option.some.inj own).symm)
      fun _ _ => trivial) ?_ fun _ _ _ _ _ _ => trivial
    intro task second _ turn
    split
    case isTrue valid =>
        refine safe_bind (safe_turn turn.live nofun fun before relies => ?_) ?_
          fun _ _ _ _ _ _ => trivial
        · rw [relies.past]
          exact ⟨task.state, (task_of_getTask turn).1, valid⟩
        · exact fun _ _ _ _ _ _ _ => trivial
    case isFalse => exact fun _ _ _ => trivial
  · refine Only.bind (Only.call nofun) fun task => ?_
    split
    · exact Only.bind (Only.call nofun) fun _ => trivial
    · exact trivial

/-! ## Verdicts -/

theorem performGetReview_ok {orgId : String} {review : CodeReview}
    (same : (performGetReview state request id orgId).2 = .ok review) :
    (performGetReview state request id orgId).1 =
      state.amend request fun past => { past with readReview := some review.state } := by
  rw [performGetReview] at same ⊢
  cases found : ReviewStore.getById state.db id orgId with
  | error err =>
      rw [found] at same
      cases same
  | ok row =>
      rw [found] at same
      cases same
      rfl

theorem performVerdict_ok {orgId : String} {verdict : ReviewState} {taskId : Uuid}
    {target : TaskState} {feedback : Option ReviewComment} {now : Timestamp}
    (same : (performVerdict state request id orgId verdict taskId target feedback now).2 =
      .ok ()) :
    (performVerdict state request id orgId verdict taskId target feedback now).1.past request =
      { state.past request with decided := some id } := by
  rw [performVerdict] at same ⊢
  split at same
  case h_1 => simp
  case h_2 => cases same

theorem past_of_getReview {orgId : String} {review : CodeReview}
    (turn : Turn request (.getReview request id orgId) state (.ok review) later) :
    later.past request = { state.past request with readReview := some review.state } := by
  obtain ⟨before, choice, free, past, same, rely, live⟩ := turn
  rw [rely.past, ← past, perform]
  rw [perform] at same
  have done := access_ok same
  rw [done] at same ⊢
  rw [performGetReview_ok same, amend_past_self]

theorem past_of_applyVerdict {orgId : String} {verdict : ReviewState} {taskId : Uuid}
    {target : TaskState} {feedback : Option ReviewComment}
    (turn : Turn request (.applyVerdict request id orgId verdict taskId target feedback) state
      (.ok ()) later) :
    later.past request = { state.past request with decided := some id } := by
  obtain ⟨before, choice, free, past, same, rely, live⟩ := turn
  rw [rely.past, ← past, perform]
  rw [perform] at same
  have done := access_ok same
  rw [done] at same ⊢
  exact performVerdict_ok same

theorem safe_recordVerdictAudit {action : AuditAction} {reviewer : Reviewer}
    {feedback : Option String} (live : request < state.requests)
    (decided : (state.past request).decided = some id)
    (unrecorded : (state.past request).recorded = false) :
    Safe (rules services) (.request request)
      (recordVerdictAudit services request action id reviewer feedback) (fun _ _ => True) state := by
  rw [recordVerdictAudit]
  split
  · refine safe_observe (safe_turn live (fun _ own => (Option.some.inj own).symm) ?_) ?_
    · intro before relies _
      rw [relies.past]
      exact ⟨decided, unrecorded⟩
    · intro outcome later _ _
      cases outcome with
      | ok _ => exact fun _ _ _ => trivial
      | error err => exact fun _ _ _ => trivial
  · exact fun _ _ _ => trivial

theorem safe_commitVerdict {reviewer : Reviewer} {verdict : ReviewState} {taskState : TaskState}
    {feedback : Option String} {review : CodeReview} {read : ReviewState}
    (live : request < state.requests)
    (past : state.past request = { Past.none with readReview := some read })
    (isVerdict : IsVerdict verdict taskState) (can : canTransition read verdict = true) :
    Safe (rules services) (.request request)
      (commitVerdict services request reviewer id verdict taskState feedback review)
      (fun _ _ => True) state := by
  refine safe_observe (safe_turn live (fun _ own => (Option.some.inj own).symm) ?_) ?_
  · intro before relies
    rw [relies.past, past]
    exact ⟨rfl, isVerdict, read, rfl, can⟩
  · intro outcome second _ turn
    cases outcome with
    | error err => exact fun _ _ _ => trivial
    | ok _ =>
        have after := past_of_applyVerdict turn
        rw [past] at after
        dsimp only
        split
        · exact fun _ _ _ => trivial
        · have decided : (second.past request).decided = some id := by rw [after]
          have unrecorded : (second.past request).recorded = false := by rw [after]; rfl
          refine safe_bind (safe_recordVerdictAudit turn.live decided unrecorded) ?_
            fun _ _ _ _ _ _ => trivial
          intro recorded later _ _
          cases recorded with
          | ok _ => exact fun _ _ _ => trivial
          | error _ => exact fun _ _ _ => trivial

theorem safe_applyReviewVerdict {reviewer : Reviewer} {verdict : ReviewState}
    {taskState : TaskState} {feedback : Option String} (live : request < state.requests)
    (fresh : state.past request = .none) (isVerdict : IsVerdict verdict taskState) :
    Safe (rules services) (.request request)
      (applyReviewVerdict services request reviewer id verdict taskState feedback)
      (fun _ _ => True) state := by
  refine safe_observe (safe_turn live (fun _ own => (Option.some.inj own).symm)
    fun _ _ => trivial) ?_
  intro outcome second _ turn
  match outcome with
  | .error .notFound => exact fun _ _ _ => trivial
  | .error (.invalidInput _) => exact fun _ _ _ => trivial
  | .error (.conflict _) => exact fun _ _ _ => trivial
  | .error (.internal _) => exact fun _ _ _ => trivial
  | .ok review =>
      dsimp only
      split
      case isTrue can =>
          split
          · exact fun _ _ _ => trivial
          · refine safe_commitVerdict turn.live ?_ isVerdict can
            rw [past_of_getReview turn, fresh]
      case isFalse => exact fun _ _ _ => trivial

theorem only_applyReviewVerdict {reviewer : Reviewer} {verdict : ReviewState}
    {taskState : TaskState} {feedback : Option String} :
    (applyReviewVerdict services request reviewer id verdict taskState feedback).Only
      Unassigning := by
  refine Only.bind (Only.observe (Only.call nofun)) fun outcome => ?_
  match outcome with
  | .error .notFound => exact trivial
  | .error (.invalidInput _) => exact trivial
  | .error (.conflict _) => exact trivial
  | .error (.internal _) => exact trivial
  | .ok review =>
      dsimp only
      split
      · split
        · exact trivial
        · refine Only.bind (Only.observe (Only.call nofun)) fun applied => ?_
          cases applied with
          | error err => exact trivial
          | ok _ =>
              dsimp only
              split
              · exact trivial
              · refine Only.bind ?_ fun recorded => ?_
                · rw [recordVerdictAudit]
                  split
                  · refine Only.bind (Only.observe (Only.call nofun)) fun audited => ?_
                    cases audited with
                    | ok _ => exact trivial
                    | error _ => exact trivial
                  · exact trivial
                · cases recorded with
                  | ok _ => exact trivial
                  | error _ => exact trivial
      · exact trivial

theorem safe_decideReview {reviewer : Reviewer} {verdict : ReviewState} {taskState : TaskState}
    {feedback : Option String} {illegal : String} (live : request < state.requests)
    (fresh : state.past request = .none) (isVerdict : IsVerdict verdict taskState) :
    Safe (rules services) (.request request)
      (decideReview services request reviewer id verdict taskState feedback illegal)
      (Answers request) state := by
  refine safe_unassigned ?_ ?_ ⟨live, congrArg Past.wrote fresh⟩
  · refine safe_bind (safe_applyReviewVerdict live fresh isVerdict) ?_ fun _ _ _ _ _ _ => trivial
    intro outcome later _ _
    cases outcome with
    | ok _ => exact fun _ _ _ => trivial
    | error _ => exact fun _ _ _ => trivial
  · refine Only.bind only_applyReviewVerdict fun outcome => ?_
    cases outcome with
    | ok _ => exact trivial
    | error _ => exact trivial

theorem safe_request (req : Request) (live : request < state.requests)
    (fresh : state.past request = .none) :
    Safe (rules services) (.request request) (req.program services request) (fun _ _ => True)
      state := by
  have unassigned : Unassigned request state := ⟨live, congrArg Past.wrote fresh⟩
  refine safe_answer ?_
  cases req with
  | createTask task => exact safe_createTask unassigned
  | assign req => exact safe_assign live fresh
  | transition id orgId target => exact safe_transition unassigned
  | createReview review => exact safe_createReview unassigned
  | approve reviewer reviewId => exact safe_decideReview live fresh .approve
  | reject reviewer reviewId feedback =>
      cases feedback with
      | none => exact fun later relies _ => (unassigned.onward relies).answers
      | some feedback => exact safe_decideReview live fresh .reject

/-! ## Spawned dispatches -/

def Going (id : Uuid) (world : World) : Prop := Spawned world id ∧ id ∉ world.gaveUp

theorem Going.onward {after : World} (going : Going id later) (relies : SpawnRelies id later after) :
    Going id after :=
  ⟨relies.spawned going.1, fun gave => going.2 (relies.gaveUp gave)⟩

theorem unspawned_perform {operation : Op} (unowned : owner operation = none) (choice : Choice)
    (free : Bool) (other : Nat) :
    ((perform state operation choice free).1.past other).unspawned =
      (state.past other).unspawned := by
  obtain ⟨middle, effect, done | ⟨whom, whose, done⟩⟩ := perform_effect state operation choice free
  · rw [done, past_of_effect effect (by rw [unowned]; exact nofun)]
  · cases unowned.symm.trans (owner_of_interrupts whose)

theorem hasDispatch_perform {operation : Op} (there : HasDispatch state id) (choice : Choice)
    (free : Bool) : HasDispatch (perform state operation choice free).1 id := by
  obtain ⟨middle, effect, done | ⟨whom, _, done⟩⟩ := perform_effect state operation choice free
  · exact done ▸ dispatches_of_effect effect there
  · have there : HasDispatch middle id := dispatches_of_effect effect there
    exact done ▸ there

theorem Going.perform {operation : Op} (going : Going id state) (may : MaySpawn id state operation)
    (goes : ∀ orgId lastError sessionId,
      operation ≠ .updateDispatch id orgId .failed lastError sessionId)
    (choice : Choice) (free : Bool) : Going id (perform state operation choice free).1 := by
  refine ⟨⟨hasDispatch_perform going.1.1 choice free, fun request => ?_⟩, fun gave => ?_⟩
  · rw [unspawned_perform (owner_of_maySpawn may)]
    exact going.1.2 request
  · have kept : ∀ {after : World}, Effect state operation after → id ∉ after.gaveUp := by
      intro after effect gave
      rcases gaveUp_of_effect effect gave with before | ⟨_, orgId, lastError, sessionId, same⟩
      · exact going.2 before
      · exact goes orgId lastError sessionId same
    obtain ⟨middle, effect, done | ⟨whom, _, done⟩⟩ := perform_effect state operation choice free
    · rw [done] at gave
      exact kept effect gave
    · rw [done] at gave
      exact kept effect gave

section Spawn

variable {job : DispatchJob}

theorem safe_call_going {operation : Op} (going : Going id state)
    (may : ∀ later, Going id later → MaySpawn id later operation)
    (goes : ∀ orgId lastError sessionId,
      operation ≠ .updateDispatch id orgId .failed lastError sessionId) :
    Safe (rules services) (.spawn id) (call operation) (fun _ later => Going id later) state := by
  intro before relies _
  have going := going.onward relies
  refine ⟨⟨going.1, may before going⟩, fun choice free _ later relies _ => ?_⟩
  exact (going.perform (may before going) goes choice free).onward relies

theorem safe_update {status : DispatchStatus} {lastError sessionId : Option String}
    (going : Going job.dispatchId state) (active : status ≠ .failed) :
    Safe (rules services) (.spawn job.dispatchId) (job.update status lastError sessionId)
      (fun _ later => Going job.dispatchId later) state := by
  refine safe_observe (safe_call_going going (fun _ _ => rfl) ?_) ?_
  · rintro _ _ _ ⟨⟩
    exact active rfl
  · exact fun _ _ _ going later relies _ => going.onward relies

theorem safe_fail {err : StoreError} (going : Going job.dispatchId state) :
    Safe (rules services) (.spawn job.dispatchId) (job.fail err) (fun _ _ => True) state := by
  refine safe_observe (fun before relies _ => ?_) fun _ _ _ (_ : True) _ _ _ => trivial
  exact ⟨⟨(going.onward relies).1, rfl⟩, fun _ _ _ _ _ _ => trivial⟩

theorem safe_orFail {α : Type} {io : Io α} {rest : α → Io Unit}
    (first : Safe (rules services) (.spawn job.dispatchId) io
      (fun _ later => Going job.dispatchId later) state)
    (next : ∀ value later, Going job.dispatchId later →
      Safe (rules services) (.spawn job.dispatchId) (rest value) (fun _ _ => True) later) :
    Safe (rules services) (.spawn job.dispatchId) (job.orFail io rest) (fun _ _ => True) state := by
  refine safe_observe first fun outcome later _ going => ?_
  cases outcome with
  | error err => exact safe_fail going
  | ok value => exact next value later going

theorem safe_then {α : Type} {io : Io α} {rest : α → Io Unit}
    (first : Safe (rules services) (.spawn job.dispatchId) io
      (fun _ later => Going job.dispatchId later) state)
    (next : ∀ value later, Going job.dispatchId later →
      Safe (rules services) (.spawn job.dispatchId) (rest value) (fun _ _ => True) later) :
    Safe (rules services) (.spawn job.dispatchId) (io >>= rest : Io Unit) (fun _ _ => True) state :=
  safe_bind first (fun value later _ going => next value later going) fun _ _ _ _ _ _ => trivial

theorem safe_finish (going : Going job.dispatchId state) :
    Safe (rules services) (.spawn job.dispatchId) job.finish (fun _ _ => True) state := by
  refine safe_orFail (safe_call_going going (fun _ going => ⟨rfl, going.2⟩) nofun)
    fun _ _ going => ?_
  exact Safe.mono (safe_update going nofun) fun _ _ _ _ => trivial

theorem safe_persistSession {session : Session} (going : Going job.dispatchId state) :
    Safe (rules services) (.spawn job.dispatchId) (job.persistSession session) (fun _ _ => True)
      state := by
  refine safe_orFail (safe_call_going going (fun _ going => going.2) nofun) fun _ _ going => ?_
  refine safe_then (safe_update going nofun) fun _ _ going => ?_
  exact safe_orFail (safe_call_going going (fun _ _ => trivial) nofun) fun _ _ => safe_finish

theorem safe_run {agentDirectory : Bool} (going : Going job.dispatchId state) :
    Safe (rules services) (.spawn job.dispatchId) (job.run agentDirectory) (fun _ _ => True)
      state := by
  refine safe_then (safe_update going nofun) fun _ _ going => ?_
  refine safe_orFail (safe_call_going going (fun _ _ => trivial) nofun) fun session _ going => ?_
  split
  · refine safe_then (safe_observe (safe_call_going going (fun _ _ => trivial) nofun) ?_)
      fun _ _ => safe_persistSession
    exact fun _ _ _ going later relies _ => going.onward relies
  · exact safe_persistSession going

theorem safe_spawn (going : Going job.dispatchId state) :
    Safe (rules services) (.spawn job.dispatchId) (job.program services) (fun _ _ => True) state :=
  Safe.bind (safe_run going) fun _ _ _ _ _ _ _ => trivial

end Spawn

/-! ## Runs -/

theorem unspawned_release {other : Nat}
    (now : ((state.release request).past other).unspawned = some id) :
    (state.past other).unspawned = some id := by
  by_cases same : other = request
  · subst same
    rw [World.release, amend_past_self] at now
    cases now
  · rwa [World.release, amend_past_of_ne _ _ same] at now

theorem safeStarts : SafeStarts (rules services) := by
  intro actor world operation choice child program sound may _ started
  cases operation with
  | spawn number job =>
      cases started
      obtain ⟨rfl, live⟩ := owner_of_may may rfl
      have unspawned : (world.past number).unspawned = some job.dispatchId := may.2.2
      refine safe_spawn ⟨⟨sound.rows unspawned, fun other now => ?_⟩, sound.kept unspawned⟩
      change ((world.release number).past other).unspawned = _ at now
      obtain rfl := sound.unique unspawned (unspawned_release now)
      rw [World.release, amend_past_self] at now
      cases now
  | _ => cases started

theorem sound_request (sound : Sound state) :
    Sound { state with requests := state.requests + 1 } :=
  ⟨fun later => sound.fresh (Nat.le_of_succ_le later), sound.rows, sound.unique, sound.kept,
    sound.gave⟩

theorem sound_release (sound : Sound state) (request : Nat) : Sound (state.release request) := by
  refine ⟨fun {other} later => ?_, fun now => sound.rows (unspawned_release now),
    fun left right => sound.unique (unspawned_release left) (unspawned_release right),
    fun now => sound.kept (unspawned_release now), sound.gave⟩
  have none := sound.fresh later
  by_cases same : other = request
  · subst same
    rw [World.release, amend_past_self, none]
    rfl
  · rw [World.release, amend_past_of_ne _ _ same]
    exact none

theorem relies_release {other : Actor} (differs : other ≠ .request request) :
    Relies other state (state.release request) := by
  cases other with
  | request number =>
      refine ⟨?_, le_rfl, fun there => there⟩
      exact amend_past_of_ne state _ fun equal => differs (congrArg Actor.request equal)
  | spawn id =>
      refine ⟨fun spawned => ⟨spawned.1, fun number now => ?_⟩, fun gave => gave⟩
      exact spawned.2 number (unspawned_release now)

theorem hasDispatch_reap {ttlSecs : Nat} {locked : List Uuid} {now : Timestamp}
    (there : HasDispatch state id) :
    HasDispatch { state with db := reapStuckDispatches state.db ttlSecs locked now } id := by
  obtain ⟨row, member, rfl⟩ := there
  obtain ⟨later, member, same, _⟩ := dispatches_reap.forward member
  exact ⟨later, member, same⟩

theorem hasTask_reap {orgId : String} {ttlSecs : Nat} {locked : List Uuid} {now : Timestamp}
    (there : HasTask state id orgId) :
    HasTask { state with db := reapStuckDispatches state.db ttlSecs locked now } id orgId := by
  obtain ⟨task, member, rfl, rfl⟩ := there
  obtain ⟨later, member, same, reaped⟩ := tasks_reap.forward member
  exact ⟨later, member, same, reaped.org⟩

theorem good_exec {pool : State} (good : Good (rules services) pool) (action : Action) :
    Good (rules services) (exec services pool action) := by
  have sound : Sound pool.state := good.inv
  cases action with
  | request req =>
      refine Good.put (good.outside (sound_request sound) fun actor => .inr ?_) ?_
      · cases actor with
        | request number => exact ⟨rfl, Nat.le_succ _, fun there => there⟩
        | spawn id => exact ⟨fun spawned => spawned, fun gave => gave⟩
      · exact safe_request req (Nat.lt_succ_self _) (sound.fresh le_rfl)
  | step actor choice => exact good.step safeStarts fun _ _ _ => trivial
  | drop actor =>
      have stopped : Good (rules services) (pool.put actor (.done ())) :=
        good.put fun _ _ _ => trivial
      refine stopped.outside ?_ fun other => ?_
      · cases actor with
        | request number => exact sound_release sound number
        | spawn id => exact sound
      · by_cases same : other = actor
        · subst same
          exact .inl (Function.update_self ..)
        · cases actor with
          | request number => exact .inr (relies_release same)
          | spawn id => exact .inr (Relies.refl other pool.state)
  | reapDispatches ttlSecs locked now =>
      refine good.outside ?_ fun actor => .inr ?_
      · exact ⟨sound.fresh, fun unspawned => hasDispatch_reap (sound.rows unspawned), sound.unique,
          sound.kept, fun gave => hasDispatch_reap (sound.gave gave)⟩
      · cases actor with
        | request number => exact ⟨rfl, le_rfl, hasTask_reap⟩
        | spawn id => exact ⟨fun spawned => ⟨hasDispatch_reap spawned.1, spawned.2⟩, fun gave => gave⟩
  | reapReviews graceSecs limit locked now =>
      refine good.outside ⟨sound.fresh, sound.rows, sound.unique, sound.kept, sound.gave⟩
        fun actor => .inr ?_
      cases actor with
      | request number => exact ⟨rfl, le_rfl, fun there => there⟩
      | spawn id => exact ⟨fun spawned => spawned, fun gave => gave⟩

theorem step_effect (pool : State) (actor : Actor) (choice : Choice) :
    exec services pool (.step actor choice) = pool ∨
      ∃ operation next middle, pool.threads actor = .op operation next ∧
        Effect pool.state operation middle ∧
          ((exec services pool (.step actor choice)).state = middle ∨ ∃ whom,
            owner operation = some whom ∧
              (exec services pool (.step actor choice)).state = middle.interrupt whom) := by
  cases due : pool.threads actor with
  | done value => exact .inl (Pool.step_done due)
  | op operation next =>
      obtain ⟨middle, effect, done⟩ :=
        perform_effect pool.state operation choice (pool.free (machine services) actor operation)
      refine .inr ⟨operation, next, middle, rfl, effect, ?_⟩
      have same : (exec services pool (.step actor choice)).state = _ := Pool.step_state due
      rw [same]
      exact done.imp_right fun ⟨whom, whose, after⟩ => ⟨whom, owner_of_interrupts whose, after⟩

theorem step_db (pool : State) (actor : Actor) (choice : Choice) :
    exec services pool (.step actor choice) = pool ∨
      ∃ operation next middle, pool.threads actor = .op operation next ∧
        Effect pool.state operation middle ∧
          (exec services pool (.step actor choice)).state.db = middle.db := by
  refine (step_effect pool actor choice).imp_right ?_
  rintro ⟨operation, next, middle, due, effect, done | ⟨whom, _, done⟩⟩
  · exact ⟨operation, next, middle, due, effect, congrArg World.db done⟩
  · exact ⟨operation, next, middle, due, effect, (congrArg World.db done).trans rfl⟩

theorem good_start : Good (rules services) start :=
  ⟨⟨fun _ => rfl, nofun, nofun, nofun, nofun⟩, fun _ _ _ _ => trivial⟩

theorem good_of_reachable {allowed : State → Action → Prop} {pool : State}
    (reached : Reachable (exec services) (· = start) allowed pool) : Good (rules services) pool := by
  have keep : ∀ pool action, Good (rules services) pool → allowed pool action →
      Good (rules services) (exec services pool action) :=
    fun _ action good _ => good_exec good action
  exact reached.invariant (fun _ same => same ▸ good_start) keep

theorem stable_of_good {allowed : State → Action → Prop} {before after : State}
    {fact : State → Prop} (good : Good (rules services) before)
    (keep : ∀ pool action, Good (rules services) pool → fact pool → allowed pool action →
      fact (exec services pool action))
    (later : Reaches (exec services) allowed before after) (now : fact before) : fact after := by
  have good_exec : ∀ pool action, Good (rules services) pool → allowed pool action →
      Good (rules services) (exec services pool action) :=
    fun _ action good _ => good_exec good action
  exact (later.stable good_exec keep good now).2

end Forge.OrchestratorSafety
