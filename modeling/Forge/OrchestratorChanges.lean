import Forge.Orchestrator

/-! What one operation of the orchestrator may do to its world. -/

namespace Forge.OrchestratorChanges

open Forge.Library.Identifier
open Forge.Library.KeyedTable
open Forge.Orchestrator
open Forge.OrchestratorStore
open Forge.Schema (Timestamp)

variable {world after : World} {operation : Op} {choice : Choice}

abbrev withDb (world : World) (db : Db) : World := { world with db }

@[simp] theorem amend_past_self (world : World) (request : Nat) (set : Past → Past) :
    (world.amend request set).past request = set (world.past request) := Function.update_self ..

theorem amend_past_of_ne (world : World) {request other : Nat} (set : Past → Past)
    (differs : other ≠ request) : (world.amend request set).past other = world.past other :=
  Function.update_of_ne differs ..

@[simp] theorem credit_past (world : World) (id : Uuid) (assigner : Option Nat) :
    (world.credit id assigner).past = world.past := rfl

/-- What an operation does when it takes effect; an operation without effect is among them. -/
inductive Effect (world : World) : Op → World → Prop
  | same {operation : Op} : Effect world operation world
  | createTask {task : Task} {tasks : Table Task Task.id}
      (inserted : world.db.tasks.insert? task = some tasks) :
      Effect world (.createTask task) (withDb world { world.db with tasks })
  | getTask {request : Nat} {id : Uuid} {orgId : String} {task : Task}
      (found : TaskStore.getById world.db id orgId = .ok task) :
      Effect world (.getTask request id orgId)
        (world.amend request fun past => { past with read := some task.state })
  | assign {request : Nat} {id participantId : Uuid} {orgId : String} {state : TaskState}
      (now : Timestamp) (hit : world.db.tasks.any (TaskStore.assignable id orgId) = true) :
      Effect world (.assign request id orgId participantId state)
        (((withDb world (TaskStore.assign world.db id orgId participantId state now).1).credit id
          (some request)).amend request fun past => { past with wrote := true })
  | createDispatch {request : Nat} {taskId : Uuid} {orgId : String} {row : TaskDispatch}
      {dispatches : Table TaskDispatch TaskDispatch.id}
      (queued : row.taskId = taskId ∧ row.orgId = orgId ∧ row.status = .queued)
      (free : world.db.dispatches.any (TaskStore.activeFor taskId) = false)
      (inserted : world.db.dispatches.insert? row = some dispatches) :
      Effect world (.createDispatch request taskId orgId)
        ((withDb world { world.db with dispatches }).amend request
          fun past => { past with dispatched := some taskId, unspawned := some row.id })
  | updateDispatch {id : Uuid} {orgId : String} {status : DispatchStatus}
      {lastError sessionId : Option String} (now : Timestamp)
      (hit : world.db.dispatches.any (TaskStore.updatable id orgId) = true) :
      Effect world (.updateDispatch id orgId status lastError sessionId)
        { withDb world (TaskStore.updateDispatch world.db id orgId status lastError sessionId
            now).1 with
          gaveUp := if status = .failed then id :: world.gaveUp else world.gaveUp }
  | updateState {id : Uuid} {orgId : String} {state : TaskState} (now : Timestamp)
      (hit : world.db.tasks.any (Task.isAt id orgId) = true) :
      Effect world (.updateState id orgId state)
        ((withDb world (TaskStore.updateState world.db id orgId state now).1).credit id none)
  | setSessionId {id : Uuid} {orgId sessionId : String} (now : Timestamp) :
      Effect world (.setSessionId id orgId sessionId)
        (withDb world (TaskStore.setSessionId world.db id orgId sessionId now).1)
  | setReviewId {id reviewId : Uuid} {orgId : String} (now : Timestamp) :
      Effect world (.setReviewId id orgId reviewId)
        (withDb world (TaskStore.setReviewId world.db id orgId reviewId now).1)
  | createReview {review : CodeReview} {reviews : Table CodeReview CodeReview.id}
      (inserted : world.db.reviews.insert? review = some reviews) :
      Effect world (.createReview review) (withDb world { world.db with reviews })
  | getReview {request : Nat} {id : Uuid} {orgId : String} {review : CodeReview}
      (found : ReviewStore.getById world.db id orgId = .ok review) :
      Effect world (.getReview request id orgId)
        (world.amend request fun past => { past with readReview := some review.state })
  | applyVerdict {request : Nat} {reviewId taskId : Uuid} {orgId : String}
      {newReviewState : ReviewState} {newTaskState : TaskState} {feedback : Option ReviewComment}
      {db : Db} (now : Timestamp)
      (applied : ReviewStore.applyVerdict world.db reviewId orgId newReviewState taskId
        newTaskState feedback now = (db, .ok ())) :
      Effect world
        (.applyVerdict request reviewId orgId newReviewState taskId newTaskState feedback)
        ((({ withDb world db with decisions := reviewId :: world.decisions }).credit taskId
          none).amend request fun past => { past with decided := some reviewId })
  | createAudit {request : Nat} {log : AuditLog} :
      Effect world (.createAudit request log)
        ((withDb world { world.db with auditLogs := log :: world.db.auditLogs }).amend request
          fun past => { past with recorded := true })
  | spawn {request : Nat} {job : DispatchJob} :
      Effect world (.spawn request job) (world.release request)
  | respond {request : Nat} {response : Response} :
      Effect world (.respond request response)
        { world.release request with
          responses := ⟨request, response, world.past request⟩ :: world.responses }

def interrupts : Op → Option Nat
  | .getTask request _ _ => some request
  | .assign request _ _ _ _ => some request
  | .createDispatch request _ _ => some request
  | _ => none

theorem access_state {α : Type} (result : World × Except StoreError α) :
    (access world choice result).1 = world ∨ (access world choice result).1 = result.1 := by
  rw [access]
  split
  · by_cases reached : choice.reached = true
    · exact .inr (if_pos reached)
    · exact .inl (if_neg reached)
  · exact .inr rfl

theorem effect_access {α : Type} {result : World × Except StoreError α}
    (effect : Effect world operation result.1) :
    Effect world operation (access world choice result).1 := by
  rcases access_state result with unchanged | done
  · rw [unchanged]
    exact .same
  · rwa [done]

theorem noted_state {α : Type} (request : Nat) (result : World × Except StoreError α) :
    (noted request result).1 = result.1 ∨ (noted request result).1 = result.1.interrupt request := by
  obtain ⟨world, value | err⟩ := result
  · exact .inr rfl
  · exact .inl rfl

theorem effect_performGetTask {request : Nat} {id : Uuid} {orgId : String} :
    Effect world (.getTask request id orgId) (performGetTask world request id orgId).1 := by
  rw [performGetTask]
  split
  case h_1 task found => exact .getTask found
  case h_2 => exact .same

theorem effect_performGetReview {request : Nat} {id : Uuid} {orgId : String} :
    Effect world (.getReview request id orgId) (performGetReview world request id orgId).1 := by
  rw [performGetReview]
  split
  case h_1 review found => exact .getReview found
  case h_2 => exact .same

theorem effect_performAssign {request : Nat} {id participantId : Uuid} {orgId : String}
    {state : TaskState} (now : Timestamp) :
    Effect world (.assign request id orgId participantId state)
      (performAssign world request id orgId participantId state now).1 := by
  rw [performAssign]
  split
  case h_1 db assigned =>
      have hit : world.db.tasks.any (TaskStore.assignable id orgId) = true :=
        congrArg Prod.snd assigned
      obtain rfl : (TaskStore.assign world.db id orgId participantId state now).1 = db :=
        congrArg Prod.fst assigned
      exact .assign now hit
  case h_2 => exact .same

theorem effect_performCreateDispatch {request : Nat} {taskId : Uuid} {orgId : String} (id : Uuid)
    (now : Timestamp) :
    Effect world (.createDispatch request taskId orgId)
      (performCreateDispatch world request taskId orgId id now).1 := by
  rw [performCreateDispatch]
  split
  case h_1 db drawn created =>
      rw [TaskStore.createDispatch] at created
      split at created
      case isTrue => cases created
      case isFalse free =>
          split at created
          case h_1 dispatches inserted =>
              cases created
              exact .createDispatch ⟨rfl, rfl, rfl⟩ (eq_false_of_ne_true free) inserted
          case h_2 => cases created
  case h_2 => exact .same

theorem effect_performUpdateDispatch {id : Uuid} {orgId : String} {status : DispatchStatus}
    {lastError sessionId : Option String} (now : Timestamp) :
    Effect world (.updateDispatch id orgId status lastError sessionId)
      (performUpdateDispatch world id orgId status lastError sessionId now).1 := by
  rw [performUpdateDispatch]
  split
  case h_1 db updated =>
      obtain rfl : (TaskStore.updateDispatch world.db id orgId status lastError sessionId now).1 =
        db := congrArg Prod.fst updated
      have hit : world.db.dispatches.any (TaskStore.updatable id orgId) = true := by
        have outcome := congrArg Prod.snd updated
        rw [TaskStore.updateDispatch] at outcome
        by_contra miss
        rw [if_neg miss] at outcome
        cases outcome
      exact .updateDispatch now hit
  case h_2 => exact .same

theorem effect_performUpdateState {id : Uuid} {orgId : String} {state : TaskState}
    (now : Timestamp) :
    Effect world (.updateState id orgId state)
      (performUpdateState world id orgId state now).1 := by
  rw [performUpdateState]
  split
  case h_1 db updated =>
      obtain rfl : (TaskStore.updateState world.db id orgId state now).1 = db :=
        congrArg Prod.fst updated
      have hit : world.db.tasks.any (Task.isAt id orgId) = true := by
        have outcome := congrArg Prod.snd updated
        rw [TaskStore.updateState, found, updateTasks] at outcome
        by_contra miss
        rw [if_neg miss] at outcome
        cases outcome
      exact .updateState now hit
  case h_2 => exact .same

theorem effect_performVerdict {request : Nat} {reviewId taskId : Uuid} {orgId : String}
    {newReviewState : ReviewState} {newTaskState : TaskState} {feedback : Option ReviewComment}
    (now : Timestamp) :
    Effect world (.applyVerdict request reviewId orgId newReviewState taskId newTaskState feedback)
      (performVerdict world request reviewId orgId newReviewState taskId newTaskState feedback
        now).1 := by
  rw [performVerdict]
  split
  case h_1 db applied => exact .applyVerdict now applied
  case h_2 => exact .same

theorem effect_noted {α : Type} {request : Nat}
    {result : World × Except StoreError α} (whose : interrupts operation = some request)
    (effect : Effect world operation result.1) : ∃ middle, Effect world operation middle ∧
      ((noted request (access world choice result)).1 = middle ∨ ∃ whom,
        interrupts operation = some whom ∧
          (noted request (access world choice result)).1 = middle.interrupt whom) := by
  refine ⟨_, effect_access effect, (noted_state request _).imp_right fun done => ?_⟩
  exact ⟨request, whose, done⟩

theorem perform_effect (world : World) (operation : Op) (choice : Choice) (free : Bool) :
    ∃ middle, Effect world operation middle ∧
      ((perform world operation choice free).1 = middle ∨ ∃ request,
        interrupts operation = some request ∧
          (perform world operation choice free).1 = middle.interrupt request) := by
  cases operation with
  | createTask task =>
      refine ⟨_, effect_access ?_, .inl rfl⟩
      rw [put, TaskStore.create]
      split
      case h_1 tasks inserted => exact .createTask inserted
      case h_2 => exact .same
  | getTask request id orgId => exact effect_noted rfl effect_performGetTask
  | assign request id orgId participantId state => 
      exact effect_noted rfl (effect_performAssign choice.now)
  | taskExists id orgId => exact ⟨_, effect_access .same, .inl rfl⟩
  | createDispatch request taskId orgId =>
      exact effect_noted rfl (effect_performCreateDispatch choice.id choice.now)
  | updateDispatch id orgId status lastError sessionId =>
      exact ⟨_, effect_access (effect_performUpdateDispatch choice.now), .inl rfl⟩
  | updateState id orgId state =>
      exact ⟨_, effect_access (effect_performUpdateState choice.now), .inl rfl⟩
  | setSessionId id orgId sessionId =>
      exact ⟨_, effect_access (.setSessionId choice.now), .inl rfl⟩
  | setReviewId id orgId reviewId => exact ⟨_, effect_access (.setReviewId choice.now), .inl rfl⟩
  | sessionCreate orgId projectId cliTool name => exact ⟨_, effect_access .same, .inl rfl⟩
  | upsertAgent orgId sessionId agentProvider name => exact ⟨_, effect_access .same, .inl rfl⟩
  | sessionPrompt orgId workspaceId sessionId prompt => exact ⟨_, effect_access .same, .inl rfl⟩
  | createReview review =>
      refine ⟨_, effect_access ?_, .inl rfl⟩
      rw [put, ReviewStore.create]
      split
      case h_1 reviews inserted => exact .createReview inserted
      case h_2 => exact .same
  | getReview request id orgId => exact ⟨_, effect_access effect_performGetReview, .inl rfl⟩
  | applyVerdict request reviewId orgId newReviewState taskId newTaskState feedback =>
      exact ⟨_, effect_access (effect_performVerdict choice.now), .inl rfl⟩
  | createAudit request log => exact ⟨_, effect_access .createAudit, .inl rfl⟩
  | spawn request job => exact ⟨_, .spawn, .inl rfl⟩
  | respond request response => exact ⟨_, .respond, .inl rfl⟩

/-! ## Rows -/

/-- The tasks' states that an operation writes, and what it writes there. -/
def Writes : Op → Task → TaskState → Prop
  | .assign _ id orgId _ state, task, target =>
      TaskStore.assignable id orgId task = true ∧ target = state
  | .updateState id orgId state, task, target => task.isAt id orgId = true ∧ target = state
  | .applyVerdict _ _ orgId _ taskId state _, task, target =>
      task.isAt taskId orgId = true ∧ target = state
  | _, _, _ => False

theorem id_of_isAt {id : Uuid} {orgId : String} {task : Task} (hit : task.isAt id orgId = true) :
    task.id = id := by
  rw [Task.isAt, Bool.and_eq_true_iff] at hit
  exact beq_iff_eq.mp hit.1

theorem id_of_assignable {id : Uuid} {orgId : String} {task : Task}
    (hit : TaskStore.assignable id orgId task = true) : task.id = id :=
  id_of_isAt (Bool.and_eq_true_iff.mp hit).1

theorem id_of_updatable {id : Uuid} {orgId : String} {row : TaskDispatch}
    (hit : TaskStore.updatable id orgId row = true) : row.id = id := by
  rw [TaskStore.updatable, TaskDispatch.isAt, Bool.and_eq_true_iff, Bool.and_eq_true_iff] at hit
  exact beq_iff_eq.mp hit.1.1

structure TaskStep (operation : Op) (task later : Task) : Prop where
  org : later.orgId = task.orgId
  state : later.state = task.state ∨ Writes operation task later.state
  session : later.agentforgeSessionId = task.agentforgeSessionId ∨
    ∃ sessionId, operation = .setSessionId task.id task.orgId sessionId

theorem TaskStep.refl (task : Task) : TaskStep operation task task :=
  ⟨rfl, .inl rfl, .inl rfl⟩

theorem tasks_evolve (effect : Effect world operation after) :
    Table.Evolves (TaskStep operation) (fun task => operation = .createTask task) world.db.tasks
      after.db.tasks := by
  cases effect with
  | createTask inserted => exact Table.Evolves.of_insert .refl rfl inserted
  | assign now hit =>
      apply Table.Evolves.of_update .refl
      · exact fun task _ hit => ⟨rfl, .inr ⟨hit, rfl⟩, .inl rfl⟩
      · exact fun _ => rfl
  | updateState now hit =>
      apply Table.Evolves.of_update .refl
      · exact fun task _ hit => ⟨rfl, .inr ⟨hit, rfl⟩, .inl rfl⟩
      · exact fun _ => rfl
  | setSessionId now =>
      apply Table.Evolves.of_update .refl
      · intro task _ hit
        obtain ⟨rfl, rfl⟩ : task.id = _ ∧ task.orgId = _ := by simpa [Task.isAt] using hit
        exact ⟨rfl, .inl rfl, .inr ⟨_, rfl⟩⟩
      · exact fun _ => rfl
  | setReviewId now =>
      apply Table.Evolves.of_update .refl
      · exact fun task _ _ => ⟨rfl, .inl rfl, .inl rfl⟩
      · exact fun _ => rfl
  | applyVerdict now applied =>
      rw [ReviewStore.applyVerdict] at applied
      split at applied
      · cases applied
        apply Table.Evolves.of_update .refl
        · exact fun task _ hit => ⟨rfl, .inr ⟨hit, rfl⟩, .inl rfl⟩
        · exact fun _ => rfl
      · cases applied
  | _ => exact .refl .refl _

/-- A dispatch keeps its task; only one that has not failed gets another status. -/
structure DispatchStep (operation : Op) (row later : TaskDispatch) : Prop where
  task : later.taskId = row.taskId
  org : later.orgId = row.orgId
  status : later.status = row.status ∨ row.status ≠ .failed ∧ ∃ lastError sessionId,
    operation = .updateDispatch row.id row.orgId later.status lastError sessionId

theorem DispatchStep.refl (row : TaskDispatch) : DispatchStep operation row row :=
  ⟨rfl, rfl, .inl rfl⟩

/-- A new dispatch is the only active one of its task. -/
structure NewDispatch (world : World) (operation : Op) (row : TaskDispatch) : Prop where
  created : ∃ request, operation = .createDispatch request row.taskId row.orgId
  queued : row.status = .queued
  only : ∀ other ∈ world.db.dispatches, other.taskId = row.taskId → other.status.isActive = false

theorem dispatches_evolve (effect : Effect world operation after) :
    Table.Evolves (DispatchStep operation) (NewDispatch world operation) world.db.dispatches
      after.db.dispatches := by
  cases effect with
  | createDispatch queued free inserted =>
      obtain ⟨rfl, rfl, queued⟩ := queued
      refine Table.Evolves.of_insert .refl ⟨⟨_, rfl⟩, queued, fun other member same => ?_⟩ inserted
      have inactive := Table.any_eq_false.mp free other member
      simpa [TaskStore.activeFor, same] using inactive
  | updateDispatch now hit =>
      apply Table.Evolves.of_update .refl
      · intro row _ hit
        obtain ⟨⟨rfl, rfl⟩, active⟩ : (row.id = _ ∧ row.orgId = _) ∧ row.status ≠ .failed := by
          simpa [TaskStore.updatable, TaskDispatch.isAt] using hit
        exact ⟨rfl, rfl, .inr ⟨active, _, _, rfl⟩⟩
      · exact fun _ => rfl
  | applyVerdict now applied =>
      rw [ReviewStore.applyVerdict] at applied
      split at applied
      · cases applied
        exact .refl .refl _
      · cases applied
  | _ => exact .refl .refl _

def ReviewStep (operation : Op) (review later : CodeReview) : Prop :=
  later.state = review.state ∨ ∃ request taskId target feedback, operation =
    .applyVerdict request review.id review.orgId later.state taskId target feedback

theorem reviews_evolve (effect : Effect world operation after) :
    Table.Evolves (ReviewStep operation) (fun review => operation = .createReview review)
      world.db.reviews after.db.reviews := by
  cases effect with
  | createReview inserted => exact Table.Evolves.of_insert (fun _ => .inl rfl) rfl inserted
  | applyVerdict now applied =>
      rw [ReviewStore.applyVerdict] at applied
      split at applied
      · cases applied
        apply Table.Evolves.of_update (fun _ => .inl rfl)
        · intro review _ hit
          obtain ⟨rfl, rfl⟩ : review.id = _ ∧ review.orgId = _ := by
            simpa [CodeReview.isAt] using hit
          exact .inr ⟨_, _, _, _, rfl⟩
        · exact fun _ => rfl
      · cases applied
  | _ => exact .refl (fun _ => .inl rfl) _

/-! ## The reapers -/

variable {db : Db} {ttlSecs : Nat} {locked : List Uuid} {now : Timestamp}

/-- A row of the stuck dispatches has failed afterwards. -/
structure ReapedDispatch (stuck : List TaskDispatch) (row later : TaskDispatch) : Prop where
  task : later.taskId = row.taskId
  org : later.orgId = row.orgId
  status : later.status =
    if stuck.any fun other => other.id == row.id then .failed else row.status

theorem dispatches_reap :
    Table.Evolves (ReapedDispatch (stuckDispatches db ttlSecs locked now)) (fun _ => False)
      db.dispatches (reapStuckDispatches db ttlSecs locked now).dispatches := by
  apply Table.Evolves.of_update_exact
  · exact fun _ => rfl
  · intro row _ miss
    exact ⟨rfl, rfl, by rw [miss]; rfl⟩
  · intro row _ hit
    exact ⟨rfl, rfl, by rw [hit]; rfl⟩

structure ReapedTask (stuck : List TaskDispatch) (task later : Task) : Prop where
  org : later.orgId = task.orgId
  session : later.agentforgeSessionId = task.agentforgeSessionId
  state : later.state = if reconciles stuck task then .pending else task.state

theorem tasks_reap :
    Table.Evolves (ReapedTask (stuckDispatches db ttlSecs locked now)) (fun _ => False) db.tasks
      (reapStuckDispatches db ttlSecs locked now).tasks := by
  apply Table.Evolves.of_update_exact
  · exact fun _ => rfl
  · intro task _ miss
    exact ⟨rfl, rfl, by rw [miss]; rfl⟩
  · intro task _ hit
    exact ⟨rfl, rfl, by rw [hit]; rfl⟩

def ReapedReview (review later : CodeReview) : Prop :=
  later.state = review.state ∧
    (later.escalatedAt = review.escalatedAt ∨ review.state.isTerminal = false)

theorem reviews_reap {graceSecs limit : Nat} :
    Table.Evolves ReapedReview (fun _ => False) db.reviews
      (reapOverdueReviews db graceSecs limit locked now).reviews := by
  apply Table.Evolves.of_update
  · exact fun _ => rfl
  · exact fun _ => ⟨rfl, .inl rfl⟩
  · intro review _ hit
    simp only [Bool.and_eq_true, Bool.not_eq_true'] at hit
    exact ⟨rfl, .inr hit.1.2⟩

end Forge.OrchestratorChanges
