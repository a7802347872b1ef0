import Forge.Library.KeyedTable
import Forge.ParticipantStatements

/-! The orchestrator's tables of tasks, dispatches and reviews, and the statements on them. -/

namespace Forge.OrchestratorStore

open Forge.Library.Identifier
open Forge.Library.KeyedTable
open Forge.ParticipantStatements (selectFirst)
open Forge.Schema (Timestamp second)

/-! ## Tasks and dispatches -/

inductive TaskState where
  | pending | assigned | working | review | completed | failed | changesRequested
deriving DecidableEq, Repr

def validTransitions : TaskState → List TaskState
  | .pending => [.assigned]
  | .assigned => [.working, .pending]
  | .working => [.review, .failed]
  | .review => [.completed, .changesRequested]
  | .changesRequested => [.working]
  | .failed => [.pending]
  | .completed => []

structure Task where
  id : Uuid
  title : String
  description : String
  state : TaskState
  assignedTo : Option Uuid
  reviewId : Option Uuid
  agentforgeSessionId : Option String
  createdBy : String
  orgId : String
  createdAt : Timestamp
  updatedAt : Timestamp
deriving DecidableEq

inductive DispatchStatus where
  | queued | starting | started | failed
deriving DecidableEq, Repr

/-- The statuses of the partial unique index on `task_dispatches`. -/
def DispatchStatus.isActive : DispatchStatus → Bool
  | .failed => false
  | _ => true

structure TaskDispatch where
  id : Uuid
  taskId : Uuid
  orgId : String
  status : DispatchStatus
  attempt : Nat
  lastError : Option String
  sessionId : Option String
  createdAt : Timestamp
  updatedAt : Timestamp
deriving DecidableEq

/-! ## Reviews -/

inductive ReviewState where
  | pending | inReview | approved | changesRequested | rejected
deriving DecidableEq, Repr

def canTransition : ReviewState → ReviewState → Bool
  | .pending, .inReview => true
  | .pending, .approved => true
  | .pending, .changesRequested => true
  | .pending, .rejected => true
  | .inReview, .approved => true
  | .inReview, .changesRequested => true
  | .inReview, .rejected => true
  | _, _ => false

def ReviewState.isTerminal : ReviewState → Bool
  | .pending => false
  | .inReview => false
  | _ => true

structure CodeReview where
  id : Uuid
  taskId : Uuid
  sessionId : String
  diffRef : String
  state : ReviewState
  assignedTo : Option Uuid
  orgId : String
  createdBy : String
  createdAt : Timestamp
  updatedAt : Timestamp
  dueAt : Option Timestamp
  escalatedAt : Option Timestamp
deriving DecidableEq

structure ReviewComment where
  reviewId : Uuid
  authorId : String
  body : String
deriving DecidableEq

inductive AuditAction where
  | reviewCreate | reviewApprove | reviewReject
deriving DecidableEq

structure AuditLog where
  action : AuditAction
  actorId : String
  actorType : String
  resourceId : Uuid
  orgId : String
  feedback : Option String
deriving DecidableEq

/-! ## The database -/

structure Db where
  tasks : Table Task Task.id
  dispatches : Table TaskDispatch TaskDispatch.id
  reviews : Table CodeReview CodeReview.id
  comments : List ReviewComment
  auditLogs : List AuditLog

def Db.empty : Db := ⟨.empty, .empty, .empty, [], []⟩

inductive StoreError where
  | notFound
  | invalidInput (message : String)
  | conflict (message : String)
  | internal (message : String)
deriving DecidableEq

def StoreError.toText : StoreError → String
  | .notFound => "task not found"
  | .invalidInput message => "invalid task request: " ++ message
  | .conflict message => "conflict: " ++ message
  | .internal message => "internal task error: " ++ message

abbrev Result (α : Type) := Db × Except StoreError α

def Task.isAt (id : Uuid) (orgId : String) (task : Task) : Bool :=
  task.id == id && task.orgId == orgId

def TaskDispatch.isAt (id : Uuid) (orgId : String) (dispatch : TaskDispatch) : Bool :=
  dispatch.id == id && dispatch.orgId == orgId

def CodeReview.isAt (id : Uuid) (orgId : String) (review : CodeReview) : Bool :=
  review.id == id && review.orgId == orgId

/-- `UPDATE tasks SET …, updated_at = NOW() WHERE …`, with its number of rows as a test. -/
def updateTasks (db : Db) (hits : Task → Bool) (set : Task → Task)
    (keeps : ∀ task, (set task).id = task.id) : Db × Bool :=
  ({ db with tasks := db.tasks.update hits set keeps }, db.tasks.any hits)

def found (updated : Db × Bool) : Result Unit :=
  (updated.1, if updated.2 then .ok () else .error .notFound)

namespace TaskStore

/-- `create`, with the identifier that the database draws. -/
def create (db : Db) (task : Task) : Result Unit :=
  match db.tasks.insert? task with
  | some tasks => ({ db with tasks }, .ok ())
  | none => (db, .error (.internal "insert task"))

def getById (db : Db) (id : Uuid) (orgId : String) : Except StoreError Task :=
  match db.tasks.find? (Task.isAt id orgId) with
  | some task => .ok task
  | none => .error .notFound

def updateState (db : Db) (id : Uuid) (orgId : String) (state : TaskState) (now : Timestamp) :
    Result Unit :=
  found <| updateTasks db (Task.isAt id orgId)
    (fun task => { task with state, updatedAt := now }) fun _ => rfl

def setSessionId (db : Db) (id : Uuid) (orgId sessionId : String) (now : Timestamp) :
    Result Unit :=
  found <| updateTasks db (Task.isAt id orgId)
    (fun task => { task with agentforgeSessionId := some sessionId, updatedAt := now }) fun _ => rfl

def setReviewId (db : Db) (id : Uuid) (orgId : String) (reviewId : Uuid) (now : Timestamp) :
    Result Unit :=
  found <| updateTasks db (Task.isAt id orgId)
    (fun task => { task with reviewId := some reviewId, updatedAt := now }) fun _ => rfl

/-- The states that `assign` takes a task from. -/
def Redispatchable (state : TaskState) : Bool :=
  state == .pending || state == .failed

/-- The rows of the UPDATE of `assign`. -/
def assignable (id : Uuid) (orgId : String) (task : Task) : Bool :=
  task.isAt id orgId && Redispatchable task.state

def assign (db : Db) (id : Uuid) (orgId : String) (participantId : Uuid) (state : TaskState)
    (now : Timestamp) : Db × Bool :=
  updateTasks db (assignable id orgId)
    (fun task => { task with assignedTo := some participantId, state, updatedAt := now })
      fun _ => rfl

def taskExists (db : Db) (id : Uuid) (orgId : String) : Bool :=
  db.tasks.any (Task.isAt id orgId)

def activeFor (taskId : Uuid) (dispatch : TaskDispatch) : Bool :=
  dispatch.taskId == taskId && dispatch.status.isActive

def createDispatch (db : Db) (taskId : Uuid) (orgId : String) (id : Uuid) (now : Timestamp) :
    Result Uuid :=
  let row : TaskDispatch :=
    { id, taskId, orgId
      status := .queued
      attempt := 1
      lastError := none
      sessionId := none
      createdAt := now
      updatedAt := now }
  if db.dispatches.any (activeFor taskId) then
    (db, .error (.conflict "task already has an active dispatch"))
  else
    match db.dispatches.insert? row with
    | some dispatches => ({ db with dispatches }, .ok id)
    | none => (db, .error (.conflict "task already has an active dispatch"))

/-- The rows of `update_dispatch`. -/
def updatable (id : Uuid) (orgId : String) (dispatch : TaskDispatch) : Bool :=
  dispatch.isAt id orgId && dispatch.status != .failed

def updateDispatch (db : Db) (id : Uuid) (orgId : String) (status : DispatchStatus)
    (lastError sessionId : Option String) (now : Timestamp) : Result Unit :=
  let dispatches := db.dispatches.update (updatable id orgId)
    (fun dispatch =>
      { dispatch with
        status
        lastError := lastError.or dispatch.lastError
        sessionId := sessionId.or dispatch.sessionId
        updatedAt := now }) fun _ => rfl
  ({ db with dispatches },
    if db.dispatches.any (updatable id orgId) then .ok () else .error .notFound)

/-- The dispatch that `get_dispatch` selects. -/
def latestDispatch (db : Db) (taskId : Uuid) (orgId : String) : Option TaskDispatch :=
  db.dispatches.find? fun dispatch => dispatch.taskId == taskId && dispatch.orgId == orgId

end TaskStore

/-! ## The dispatch reaper -/

/-- `WHERE status IN ('queued', 'starting') AND updated_at < NOW() - make_interval(secs => $1)`. -/
def TaskDispatch.isStuck (ttlSecs : Nat) (now : Timestamp) (dispatch : TaskDispatch) : Bool :=
  (dispatch.status == .queued || dispatch.status == .starting)
    && decide (dispatch.updatedAt < now - ttlSecs * second)

/-- The `stuck` rows; `locked` are the ones that `SKIP LOCKED` passes over. -/
def stuckDispatches (db : Db) (ttlSecs : Nat) (locked : List Uuid) (now : Timestamp) :
    List TaskDispatch :=
  ((db.dispatches.rows.filter fun dispatch =>
    dispatch.isStuck ttlSecs now && !locked.contains dispatch.id).insertionSort
      fun left right => left.updatedAt ≤ right.updatedAt).take 1000

/-- The tasks that `reconciled` sets back. -/
def reconciles (stuck : List TaskDispatch) (task : Task) : Bool :=
  task.state == .assigned
    && stuck.any fun dispatch => dispatch.taskId == task.id && dispatch.orgId == task.orgId

/-- `REAP_STUCK_DISPATCHES_SQL`. -/
def reapStuckDispatches (db : Db) (ttlSecs : Nat) (locked : List Uuid) (now : Timestamp) : Db :=
  let stuck := stuckDispatches db ttlSecs locked now
  { db with
    dispatches := db.dispatches.update (fun dispatch => stuck.any fun row => row.id == dispatch.id)
      (fun dispatch =>
        { dispatch with
          status := .failed
          lastError := some "dispatch_timeout"
          updatedAt := now }) fun _ => rfl
    tasks := db.tasks.update (reconciles stuck)
      (fun task => { task with state := .pending, updatedAt := now }) fun _ => rfl }

namespace ReviewStore

def create (db : Db) (review : CodeReview) : Result Unit :=
  match db.reviews.insert? review with
  | some reviews => ({ db with reviews }, .ok ())
  | none => (db, .error (.internal "insert review"))

def getById (db : Db) (id : Uuid) (orgId : String) : Except StoreError CodeReview :=
  match db.reviews.find? (CodeReview.isAt id orgId) with
  | some review => .ok review
  | none => .error .notFound

/-- The transaction of `apply_verdict`: nothing where the review or the task is not found. -/
def applyVerdict (db : Db) (reviewId : Uuid) (orgId : String) (newReviewState : ReviewState)
    (taskId : Uuid) (newTaskState : TaskState) (feedback : Option ReviewComment)
    (now : Timestamp) : Result Unit :=
  if db.reviews.any (CodeReview.isAt reviewId orgId) && db.tasks.any (Task.isAt taskId orgId) then
    ({ db with
       reviews := db.reviews.update (CodeReview.isAt reviewId orgId)
        (fun review => { review with state := newReviewState, updatedAt := now }) fun _ => rfl
       tasks := db.tasks.update (Task.isAt taskId orgId)
        (fun task => { task with state := newTaskState, updatedAt := now }) fun _ => rfl
       comments := feedback.toList ++ db.comments }, .ok ())
  else (db, .error .notFound)

end ReviewStore

/-! ## The escalation reaper -/

def CodeReview.isOverdue (graceSecs : Nat) (now : Timestamp) (review : CodeReview) : Bool :=
  !review.state.isTerminal && review.escalatedAt.isNone
    && review.dueAt.any fun due => due < now - graceSecs * second

def overdueReviews (db : Db) (graceSecs limit : Nat) (locked : List Uuid) (now : Timestamp) :
    List CodeReview :=
  ((db.reviews.rows.filter fun review =>
    review.isOverdue graceSecs now && !locked.contains review.id).insertionSort
      fun left right => left.dueAt.getD 0 ≤ right.dueAt.getD 0).take limit

/-- `REAP_OVERDUE_REVIEWS_SQL`; the outer UPDATE tests the state again. -/
def reapOverdueReviews (db : Db) (graceSecs limit : Nat) (locked : List Uuid) (now : Timestamp) :
    Db :=
  let overdue := overdueReviews db graceSecs limit locked now
  { db with
    reviews := db.reviews.update
      (fun review => overdue.any (fun row => row.id == review.id) && !review.state.isTerminal
        && review.escalatedAt.isNone)
      (fun review => { review with escalatedAt := some now }) fun _ => rfl }

end Forge.OrchestratorStore
