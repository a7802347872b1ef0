import Forge.Library.Interleaving
import Forge.OrchestratorStore

/-! The orchestrator: the requests and the spawned dispatches over its store, the reapers, and the
runs in which these interleave. -/

namespace Forge.Orchestrator

open Forge.Library.Identifier
open Forge.Library.Interleaving
open Forge.OrchestratorStore
open Forge.Schema (Timestamp)

/-! ## Operations -/

structure Session where
  sessionId : String
  workspaceId : String
deriving DecidableEq

/-- What a spawned dispatch takes with it. -/
structure DispatchJob where
  dispatchId : Uuid
  taskId : Uuid
  orgId : String
  title : String
  description : String
  projectId : String
  agentProvider : String
deriving DecidableEq

inductive Response where
  | ok
  | task (task : Task) (dispatchId : Option Uuid)
  | verdict (state : ReviewState)
  | error (status : Nat) (message : String)
deriving DecidableEq

def Response.isError : Response → Bool
  | .error _ _ => true
  | _ => false

/-- The awaited calls; those of a request carry its number where its history depends on them. -/
inductive Op where
  | createTask (task : Task)
  | getTask (request : Nat) (id : Uuid) (orgId : String)
  | assign (request : Nat) (id : Uuid) (orgId : String) (participantId : Uuid) (state : TaskState)
  | taskExists (id : Uuid) (orgId : String)
  | createDispatch (request : Nat) (taskId : Uuid) (orgId : String)
  | updateDispatch (id : Uuid) (orgId : String) (status : DispatchStatus)
      (lastError sessionId : Option String)
  | updateState (id : Uuid) (orgId : String) (state : TaskState)
  | setSessionId (id : Uuid) (orgId sessionId : String)
  | setReviewId (id : Uuid) (orgId : String) (reviewId : Uuid)
  | sessionCreate (orgId projectId cliTool name : String)
  | upsertAgent (orgId sessionId agentProvider name : String)
  | sessionPrompt (orgId workspaceId sessionId prompt : String)
  | createReview (review : CodeReview)
  | getReview (request : Nat) (id : Uuid) (orgId : String)
  | applyVerdict (request : Nat) (reviewId : Uuid) (orgId : String) (newReviewState : ReviewState)
      (taskId : Uuid) (newTaskState : TaskState) (feedback : Option ReviewComment)
  | createAudit (request : Nat) (log : AuditLog)
  | spawn (request : Nat) (job : DispatchJob)
  | respond (request : Nat) (response : Response)

@[reducible] def Answer : Op → Type
  | .getTask _ _ _ => Task
  | .assign _ _ _ _ _ => Bool
  | .taskExists _ _ => Bool
  | .createDispatch _ _ _ => Uuid
  | .sessionCreate _ _ _ _ => Session
  | .getReview _ _ _ => CodeReview
  | _ => Unit

abbrev Io (α : Type) := Attempt Op Answer StoreError α

/-- How a call turns out: the text of its error, whether it took effect all the same, the clock,
the identifier that an insert draws, the session that the MCP server opens. -/
structure Choice where
  error : Option String := none
  reached : Bool := false
  now : Timestamp := 0
  id : Uuid := ⟨0⟩
  session : Session := ⟨"", ""⟩

/-! ## The world -/

/-- What a request did: the states that it read, whether its assignment took effect, whether a
call returned an error after that, the task it created a dispatch for, the dispatch it is about to
spawn, the review it decided, whether that was recorded. -/
structure Past where
  read : Option TaskState
  readReview : Option ReviewState
  wrote : Bool
  interrupted : Bool
  dispatched : Option Uuid
  unspawned : Option Uuid
  decided : Option Uuid
  recorded : Bool

def Past.none : Past := ⟨.none, .none, false, false, .none, .none, .none, false⟩

structure Answered where
  request : Nat
  response : Response
  past : Past

/-- The database, and a history of it: the number of requests so far and what each did, the
request whose assignment a task's state comes from, the dispatches whose spawn recorded a failure,
the reviews that verdicts were passed on, the responses. -/
structure World where
  db : Db
  requests : Nat
  past : Nat → Past
  assigner : Uuid → Option Nat
  gaveUp : List Uuid
  decisions : List Uuid
  responses : List Answered

def World.empty : World := ⟨.empty, 0, fun _ => .none, fun _ => none, [], [], []⟩

namespace World

variable (world : World)

def amend (request : Nat) (set : Past → Past) : World :=
  { world with past := Function.update world.past request (set (world.past request)) }

def credit (id : Uuid) (assigner : Option Nat) : World :=
  { world with assigner := Function.update world.assigner id assigner }

def interrupt (request : Nat) : World :=
  world.amend request fun past => { past with interrupted := past.interrupted || past.wrote }

def release (request : Nat) : World :=
  world.amend request fun past => { past with unspawned := none }

end World

def access {α : Type} (world : World) (choice : Choice) (result : World × Except StoreError α) :
    World × Except StoreError α :=
  match choice.error with
  | some text => (if choice.reached then result.1 else world, .error (.internal text))
  | none => result

def noted {α : Type} (request : Nat) (result : World × Except StoreError α) :
    World × Except StoreError α :=
  match result with
  | (world, .ok value) => (world, .ok value)
  | (world, .error err) => (world.interrupt request, .error err)

def put {α : Type} (world : World) (result : Result α) : World × Except StoreError α :=
  ({ world with db := result.1 }, result.2)

def performGetTask (world : World) (request : Nat) (id : Uuid) (orgId : String) :
    World × Except StoreError Task :=
  match TaskStore.getById world.db id orgId with
  | .ok task => (world.amend request fun past => { past with read := some task.state }, .ok task)
  | .error err => (world, .error err)

def performGetReview (world : World) (request : Nat) (id : Uuid) (orgId : String) :
    World × Except StoreError CodeReview :=
  match ReviewStore.getById world.db id orgId with
  | .ok review =>
      (world.amend request fun past => { past with readReview := some review.state }, .ok review)
  | .error err => (world, .error err)

def performAssign (world : World) (request : Nat) (id : Uuid) (orgId : String)
    (participantId : Uuid) (state : TaskState) (now : Timestamp) :
    World × Except StoreError Bool :=
  match TaskStore.assign world.db id orgId participantId state now with
  | (db, true) =>
      ((({ world with db }).credit id (some request)).amend request
        fun past => { past with wrote := true }, .ok true)
  | (_, false) => (world, .ok false)

def performCreateDispatch (world : World) (request : Nat) (taskId : Uuid) (orgId : String)
    (id : Uuid) (now : Timestamp) : World × Except StoreError Uuid :=
  match TaskStore.createDispatch world.db taskId orgId id now with
  | (db, .ok id) =>
      (({ world with db }).amend request
        fun past => { past with dispatched := some taskId, unspawned := some id }, .ok id)
  | (_, .error err) => (world, .error err)

def performUpdateDispatch (world : World) (id : Uuid) (orgId : String) (status : DispatchStatus)
    (lastError sessionId : Option String) (now : Timestamp) : World × Except StoreError Unit :=
  match TaskStore.updateDispatch world.db id orgId status lastError sessionId now with
  | (db, .ok ()) =>
      ({ world with
         db
         gaveUp := if status = .failed then id :: world.gaveUp else world.gaveUp }, .ok ())
  | (_, .error err) => (world, .error err)

def performUpdateState (world : World) (id : Uuid) (orgId : String) (state : TaskState)
    (now : Timestamp) : World × Except StoreError Unit :=
  match TaskStore.updateState world.db id orgId state now with
  | (db, .ok ()) => (({ world with db }).credit id none, .ok ())
  | (_, .error err) => (world, .error err)

def performVerdict (world : World) (request : Nat) (reviewId : Uuid) (orgId : String)
    (newReviewState : ReviewState) (taskId : Uuid) (newTaskState : TaskState)
    (feedback : Option ReviewComment) (now : Timestamp) : World × Except StoreError Unit :=
  match ReviewStore.applyVerdict world.db reviewId orgId newReviewState taskId newTaskState
      feedback now with
  | (db, .ok ()) =>
      ((({ world with db, decisions := reviewId :: world.decisions }).credit taskId none).amend
        request fun past => { past with decided := some reviewId }, .ok ())
  | (_, .error err) => (world, .error err)

def performAudit (world : World) (request : Nat) (log : AuditLog) :
    World × Except StoreError Unit :=
  (({ world with db := { world.db with auditLogs := log :: world.db.auditLogs } }).amend request
    fun past => { past with recorded := true }, .ok ())

def perform (world : World) :
    (operation : Op) → Choice → Bool → World × Except StoreError (Answer operation)
  | .createTask task, choice, _ => access world choice (put world (TaskStore.create world.db task))
  | .getTask request id orgId, choice, _ =>
      noted request (access world choice (performGetTask world request id orgId))
  | .assign request id orgId participantId state, choice, _ =>
      noted request (access world choice
        (performAssign world request id orgId participantId state choice.now))
  | .taskExists id orgId, choice, _ =>
      access world choice (world, .ok (TaskStore.taskExists world.db id orgId))
  | .createDispatch request taskId orgId, choice, _ =>
      noted request (access world choice
        (performCreateDispatch world request taskId orgId choice.id choice.now))
  | .updateDispatch id orgId status lastError sessionId, choice, _ =>
      access world choice
        (performUpdateDispatch world id orgId status lastError sessionId choice.now)
  | .updateState id orgId state, choice, _ =>
      access world choice (performUpdateState world id orgId state choice.now)
  | .setSessionId id orgId sessionId, choice, _ =>
      access world choice (put world (TaskStore.setSessionId world.db id orgId sessionId choice.now))
  | .setReviewId id orgId reviewId, choice, _ =>
      access world choice (put world (TaskStore.setReviewId world.db id orgId reviewId choice.now))
  | .sessionCreate _ _ _ _, choice, _ => access world choice (world, .ok choice.session)
  | .upsertAgent _ _ _ _, choice, _ => access world choice (world, .ok ())
  | .sessionPrompt _ _ _ _, choice, _ => access world choice (world, .ok ())
  | .createReview review, choice, _ =>
      access world choice (put world (ReviewStore.create world.db review))
  | .getReview request id orgId, choice, _ =>
      access world choice (performGetReview world request id orgId)
  | .applyVerdict request reviewId orgId newReviewState taskId newTaskState feedback, choice, _ =>
      access world choice (performVerdict world request reviewId orgId newReviewState taskId
        newTaskState feedback choice.now)
  | .createAudit request log, choice, _ => access world choice (performAudit world request log)
  | .spawn request _, _, _ => (world.release request, .ok ())
  | .respond request response, _, _ =>
      ({ world.release request with
         responses := ⟨request, response, world.past request⟩ :: world.responses }, .ok ())

/-! ## The spawned dispatch -/

def call (operation : Op) : Io (Answer operation) := Attempt.call operation

def bestEffort {α : Type} (io : Io α) : Io Unit := do
  let _ ← io.observe
  pure ()

namespace DispatchJob

variable (job : DispatchJob)

def update (status : DispatchStatus) (lastError sessionId : Option String) : Io Unit :=
  bestEffort (call (.updateDispatch job.dispatchId job.orgId status lastError sessionId))

def fail (err : StoreError) : Io Unit := job.update .failed (some err.toText) none

def prompt : String :=
  if job.description.isEmpty then job.title else job.title ++ "\n\n" ++ job.description

def orFail {α : Type} (io : Io α) (rest : α → Io Unit) : Io Unit := do
  match ← io.observe with
  | .error err => job.fail err
  | .ok value => rest value

def finish : Io Unit :=
  job.orFail (call (.updateState job.taskId job.orgId .working)) fun _ =>
    job.update .started none none

def sendPrompt (session : Session) : Io Unit :=
  job.orFail (call (.sessionPrompt job.orgId session.workspaceId session.sessionId job.prompt))
    fun _ => job.finish

def persistSession (session : Session) : Io Unit :=
  job.orFail (call (.setSessionId job.taskId job.orgId session.sessionId)) fun _ => do
    job.update .starting none (some session.sessionId)
    job.sendPrompt session

def run (agentDirectory : Bool) : Io Unit := do
  job.update .starting none none
  job.orFail (call (.sessionCreate job.orgId job.projectId job.agentProvider job.title))
    fun session =>
      if agentDirectory then do
        bestEffort (call (.upsertAgent job.orgId session.sessionId job.agentProvider job.title))
        job.persistSession session
      else job.persistSession session

end DispatchJob

/-! ## The requests -/

structure Services where
  outboundMcp : Bool
  agentDirectory : Bool
  auditStore : Bool

def mapError : StoreError → Response
  | .notFound => .error 404 "task not found"
  | .invalidInput message => .error 400 message
  | .conflict message => .error 409 message
  | .internal message => .error 500 message

/-- `PgTaskStore::assign`. -/
def storeAssign (request : Nat) (id : Uuid) (orgId : String) (participantId : Uuid) : Io Unit := do
  if ← call (.assign request id orgId participantId .assigned) then pure ()
  else if ← call (.taskExists id orgId) then
    .fail (.conflict "task is not in a re-dispatchable state (pending or failed)")
  else .fail .notFound

/-- The participant is none where it is blank. -/
structure AssignRequest where
  id : Uuid
  orgId : String
  participantId : Option Uuid
  agentProvider : Option String
  projectId : Option String
deriving DecidableEq

/-- A dispatch of the task is created before it is spawned. -/
def dispatchTask (request : Nat) (req : AssignRequest) (agentProvider : String) (task : Task) :
    Io Response := do
  let dispatchId ← call (.createDispatch request task.id req.orgId)
  call (.spawn request
    { dispatchId
      taskId := task.id
      orgId := req.orgId
      title := task.title
      description := task.description
      projectId := req.projectId.getD ""
      agentProvider })
  pure (.task task (some dispatchId))

def assignTask (services : Services) (request : Nat) (req : AssignRequest) (participantId : Uuid) :
    Io Response := do
  storeAssign request req.id req.orgId participantId
  let task ← call (.getTask request req.id req.orgId)
  match req.agentProvider with
  | some agentProvider =>
      if services.outboundMcp then dispatchTask request req agentProvider task
      else pure (.task task none)
  | none => pure (.task task none)

def responseOf : Except StoreError Response → Response
  | .ok response => response
  | .error err => mapError err

def responding (handler : Io Response) : Io Response := do
  let outcome ← handler.observe
  pure (responseOf outcome)

def assign (services : Services) (request : Nat) (req : AssignRequest) : Io Response :=
  match req.participantId with
  | none => pure (.error 400 "participantId is required")
  | some participantId => responding (assignTask services request req participantId)

def transition (request : Nat) (id : Uuid) (orgId : String) (state : TaskState) : Io Response :=
  responding do
    let task ← call (.getTask request id orgId)
    if state ∈ validTransitions task.state then
      call (.updateState id orgId state)
      pure (.task { task with state } none)
    else pure (.error 409 "invalid transition")

inductive VerdictError where
  | notFound
  | illegalTransition
  | selfApproval
  | review (err : StoreError)
  | audit (message : String)

structure Reviewer where
  orgId : String
  actorId : String
  actorType : String
deriving DecidableEq

def auditAction : ReviewState → Option AuditAction
  | .approved => some .reviewApprove
  | .changesRequested => some .reviewReject
  | .rejected => some .reviewReject
  | _ => none

def recordVerdictAudit (services : Services) (request : Nat) (action : AuditAction)
    (reviewId : Uuid) (reviewer : Reviewer) (feedback : Option String) :
    Io (Except VerdictError Unit) :=
  if services.auditStore then do
    match ← (call (.createAudit request
      { action
        actorId := reviewer.actorId
        actorType := reviewer.actorType
        resourceId := reviewId
        orgId := reviewer.orgId
        feedback })).observe with
    | .ok () => pure (.ok ())
    | .error err => pure (.error (.audit ("audit log failed: " ++ err.toText)))
  else pure (.ok ())

/-- The transaction of a verdict and then its audit record. -/
def commitVerdict (services : Services) (request : Nat) (reviewer : Reviewer) (reviewId : Uuid)
    (verdict : ReviewState) (taskState : TaskState) (feedback : Option String)
    (review : CodeReview) : Io (Except VerdictError ReviewState) := do
  let comment := feedback.map fun body =>
    ({ reviewId, authorId := reviewer.actorId, body } : ReviewComment)
  match ← (call (.applyVerdict request reviewId reviewer.orgId verdict review.taskId taskState
      comment)).observe with
  | .error err => pure (.error (.review err))
  | .ok () =>
      match auditAction verdict with
      | none => pure (.error (.review (.invalidInput "unsupported verdict state")))
      | some action => do
          match ← recordVerdictAudit services request action reviewId reviewer feedback with
          | .ok () => pure (.ok verdict)
          | .error err => pure (.error err)

def applyReviewVerdict (services : Services) (request : Nat) (reviewer : Reviewer)
    (reviewId : Uuid) (verdict : ReviewState) (taskState : TaskState) (feedback : Option String) :
    Io (Except VerdictError ReviewState) := do
  match ← (call (.getReview request reviewId reviewer.orgId)).observe with
  | .error .notFound => pure (.error .notFound)
  | .error err => pure (.error (.review err))
  | .ok review =>
      if canTransition review.state verdict then
        if verdict = .approved ∧ review.createdBy = reviewer.actorId then
          pure (.error .selfApproval)
        else commitVerdict services request reviewer reviewId verdict taskState feedback review
      else pure (.error .illegalTransition)

def mapReviewError : StoreError → Response
  | .notFound => .error 404 "review not found"
  | .invalidInput message => .error 400 message
  | _ => .error 500 "internal review error"

def mapVerdictError (illegal : String) : VerdictError → Response
  | .notFound => .error 404 "review not found"
  | .selfApproval => .error 403 "cannot approve your own review"
  | .review err => mapReviewError err
  | .audit _ => .error 500 "failed to record review audit"
  | .illegalTransition => .error 409 illegal

def decideReview (services : Services) (request : Nat) (reviewer : Reviewer) (reviewId : Uuid)
    (verdict : ReviewState) (taskState : TaskState) (feedback : Option String)
    (illegal : String) : Io Response := do
  match ← applyReviewVerdict services request reviewer reviewId verdict taskState feedback with
  | .ok state => pure (.verdict state)
  | .error err => pure (mapVerdictError illegal err)

def approve (services : Services) (request : Nat) (reviewer : Reviewer) (reviewId : Uuid) :
    Io Response :=
  decideReview services request reviewer reviewId .approved .completed none
    "review cannot be approved from its current state"

def reject (services : Services) (request : Nat) (reviewer : Reviewer) (reviewId : Uuid)
    (feedback : Option String) : Io Response :=
  match feedback with
  | none => pure (.error 400 "feedback is required")
  | some feedback =>
      decideReview services request reviewer reviewId .changesRequested .changesRequested
        (some feedback) "review cannot be rejected from its current state"

/-- The new review becomes the task's, and is recorded, if these calls succeed. -/
def createReview (services : Services) (request : Nat) (review : CodeReview) : Io Response := do
  match ← (call (.createReview { review with state := .pending, escalatedAt := none })).observe with
  | .error err => pure (mapReviewError err)
  | .ok () =>
      bestEffort (call (.setReviewId review.taskId review.orgId review.id))
      if services.auditStore then
        bestEffort (call (.createAudit request
          { action := .reviewCreate
            actorId := review.createdBy
            actorType := "human"
            resourceId := review.id
            orgId := review.orgId
            feedback := none }))
        pure .ok
      else pure .ok

def createTask (task : Task) : Io Response :=
  responding do
    call (.createTask { task with state := .pending, reviewId := none, agentforgeSessionId := none })
    pure .ok

/-- The requests that change tasks and reviews. -/
inductive Request where
  | createTask (task : Task)
  | assign (req : AssignRequest)
  | transition (id : Uuid) (orgId : String) (state : TaskState)
  | createReview (review : CodeReview)
  | approve (reviewer : Reviewer) (reviewId : Uuid)
  | reject (reviewer : Reviewer) (reviewId : Uuid) (feedback : Option String)

def Request.handle (services : Services) (request : Nat) : Request → Io Response
  | .createTask task => Orchestrator.createTask task
  | .assign req => Orchestrator.assign services request req
  | .transition id orgId state => Orchestrator.transition request id orgId state
  | .createReview review => Orchestrator.createReview services request review
  | .approve reviewer reviewId => Orchestrator.approve services request reviewer reviewId
  | .reject reviewer reviewId feedback =>
      Orchestrator.reject services request reviewer reviewId feedback

abbrev Program := Prog Op (fun operation => Except StoreError (Answer operation)) Unit

def answer (request : Nat) (outcome : Except StoreError Response) : Program :=
  .op (.respond request (responseOf outcome)) fun _ => .done ()

def Request.program (services : Services) (request : Nat) (req : Request) : Program :=
  Prog.bind (req.handle services request) (answer request)

def DispatchJob.program (services : Services) (job : DispatchJob) : Program :=
  Prog.bind (job.run services.agentDirectory) fun _ => .done ()

/-! ## Runs -/

inductive Actor where
  | request (number : Nat)
  | spawn (dispatchId : Uuid)
deriving DecidableEq

def machine (services : Services) :
    Machine World Actor Op Choice fun operation => Except StoreError (Answer operation) where
  perform := perform
  starts
    | .spawn _ job => some (.spawn job.dispatchId, job.program services)
    | _ => none

abbrev State := Pool World Actor Op fun operation => Except StoreError (Answer operation)

inductive Action where
  | request (req : Request)
  | step (actor : Actor) (choice : Choice)
  | drop (actor : Actor)
  | reapDispatches (ttlSecs : Nat) (locked : List Uuid) (now : Timestamp)
  | reapReviews (graceSecs limit : Nat) (locked : List Uuid) (now : Timestamp)

def start : State := ⟨.empty, fun _ => .done ()⟩

def World.without (world : World) : Actor → World
  | .request number => world.release number
  | .spawn _ => world

def exec (services : Services) (state : State) : Action → State
  | .request req =>
      let number := state.state.requests
      Pool.put ⟨{ state.state with requests := number + 1 }, state.threads⟩ (.request number)
        (req.program services number)
  | .step actor choice => state.step (machine services) actor choice
  | .drop actor => Pool.put ⟨state.state.without actor, state.threads⟩ actor (.done ())
  | .reapDispatches ttlSecs locked now =>
      ⟨{ state.state with db := reapStuckDispatches state.state.db ttlSecs locked now },
        state.threads⟩
  | .reapReviews graceSecs limit locked now =>
      ⟨{ state.state with db := reapOverdueReviews state.state.db graceSecs limit locked now },
        state.threads⟩

/-! ## A task -/

def theId : Uuid := ⟨7⟩

def theTask : Task where
  id := theId
  title := "title"
  description := ""
  state := .pending
  assignedTo := none
  reviewId := none
  agentforgeSessionId := none
  createdBy := "creator"
  orgId := "org"
  createdAt := 0
  updatedAt := 0

def assigning (agentProvider : Option String) : Request :=
  .assign ⟨theId, "org", some theId, agentProvider, none⟩

def moving (target : TaskState) : Request := .transition theId "org" target

def steps (actor : Actor) (count : Nat) (choice : Choice) : List Action :=
  List.replicate count (.step actor choice)

def serve (number : Nat) (req : Request) (choice : Choice) : List Action :=
  .request req :: steps (.request number) 6 choice

end Forge.Orchestrator
