import Forge.CloneDomain
import Forge.Library.Batch

/-! The tables of project clones, and the transactions of their repository, of the projects', and
of the relay. -/

namespace Forge.CloneRepository

open Forge.CloneDomain
open Forge.JobQueue
open Forge.Library.Batch
open Forge.Library.Identifier
open Forge.Library.KeyedTable
open Forge.ParticipantStatements (selectFirst)
open Forge.Schema (Timestamp)

/-! ## Tables -/

structure Project where
  id : Uuid
  organizationId : Uuid
  workspaceId : Uuid
  workspaceDirName : String
  repositoryUrl : Option String
  cloneStatus : CloneStatus
  deletedAt : Option Timestamp
deriving DecidableEq

def Project.isLive (project : Project) : Bool := project.deletedAt.isNone

structure ProjectCloneAttempt where
  id : Uuid
  organizationId : Uuid
  workspaceId : Uuid
  projectId : Uuid
  attempt : Nat
  repositoryUrl : String
  credentialId : Option Uuid
  status : CloneAttemptStatus
  resolvedBranch : Option String
  headSha : Option String
  bytesCloned : Option Int
  durationMs : Option Int
  containerId : Option String
  workerId : Option String
  jobId : Option Uuid
  leaseExpiresAt : Option Timestamp
  materializedAt : Option Timestamp
  createdAt : Timestamp
deriving DecidableEq

/-- A row of `orchestration_outbox` of the clone aggregate, whose id is the project's. -/
structure CloneOutbox where
  id : Uuid
  payload : CloneOutboxPayload
  publishedAt : Option Timestamp
  createdAt : Timestamp
deriving DecidableEq

abbrev Attempts := Table ProjectCloneAttempt ProjectCloneAttempt.id

structure Db where
  projects : Table Project Project.id
  attempts : Attempts
  outbox : Table CloneOutbox CloneOutbox.id
  jobs : Jobs

def Db.empty : Db := ⟨.empty, .empty, .empty, .empty⟩

structure CloneSuccess where
  resolvedBranch : Option String
  headSha : String
  bytesCloned : Int
  durationMs : Int
deriving DecidableEq

structure ReconcileCandidate where
  id : Uuid
  organizationId : Uuid
  workspaceId : Uuid
  projectId : Uuid
  attempt : Nat
deriving DecidableEq

def reconcileCandidate (row : ProjectCloneAttempt) : ReconcileCandidate where
  id := row.id
  organizationId := row.organizationId
  workspaceId := row.workspaceId
  projectId := row.projectId
  attempt := row.attempt

/-! ## Reads -/

def findAttempt (db : Db) (organizationId projectId : Uuid) (attempt : Nat) :
    Option ProjectCloneAttempt :=
  db.attempts.find? fun row => row.projectId == projectId && row.attempt == attempt
    && row.organizationId == organizationId

def findAttemptById (db : Db) (organizationId attemptId : Uuid) : Option ProjectCloneAttempt :=
  db.attempts.find? fun row => row.id == attemptId && row.organizationId == organizationId

def latestAttemptSummary (db : Db) (organizationId projectId : Uuid) :
    Option ProjectCloneAttempt :=
  selectFirst (fun left right => decide (right.attempt ≤ left.attempt)) (db.attempts.rows.filter
    fun row => row.projectId == projectId && row.organizationId == organizationId)

/-- `ProjectRepository::find_by_id`. -/
def findProject (db : Db) (organizationId projectId : Uuid) : Option Project :=
  db.projects.find? fun project => project.id == projectId
    && project.organizationId == organizationId && project.isLive

def projectIsLive (db : Db) (projectId : Uuid) : Bool :=
  db.projects.any fun project => project.id == projectId && project.isLive

def projectDirName (db : Db) (organizationId projectId : Uuid) : Option String :=
  (findProject db organizationId projectId).map (·.workspaceDirName)

def loadCloneSuccess (db : Db) (attemptId : Uuid) : Option CloneSuccess :=
  (db.attempts.find? (·.id == attemptId)).map fun row =>
    { resolvedBranch := row.resolvedBranch
      headSha := row.headSha.getD ""
      bytesCloned := row.bytesCloned.getD 0
      durationMs := row.durationMs.getD 0 }

def inFlight (status : CloneAttemptStatus) : Bool := status == .queued || status == .cloning

def inFlightAttemptTenants (db : Db) : List Uuid :=
  (db.attempts.rows.filter (inFlight ·.status)).map (·.id)

def distinctAttemptTenants (db : Db) : List (Uuid × Uuid) :=
  (db.attempts.rows.map fun row => (row.organizationId, row.workspaceId)).dedup

/-! ## Transitions of an attempt -/

/-- `set_project_clone_status_tx`: only of a live project. -/
def setProjectCloneStatus (db : Db) (projectId : Uuid) (status : CloneStatus) : Db :=
  { db with
    projects := db.projects.update (fun project => project.id == projectId && project.isLive)
      (fun project => { project with cloneStatus := status }) fun _ => rfl }

def transition (db : Db) (hits : ProjectCloneAttempt → Bool)
    (set : ProjectCloneAttempt → ProjectCloneAttempt) (keeps : ∀ row, (set row).id = row.id)
    (summary : CloneStatus) : Db × Option ProjectCloneAttempt :=
  match db.attempts.find? hits with
  | none => (db, none)
  | some row =>
      (setProjectCloneStatus { db with attempts := db.attempts.update hits set keeps }
        row.projectId summary, some (set row))

def claimable (projectId : Uuid) (attempt : Nat) (row : ProjectCloneAttempt) : Bool :=
  row.projectId == projectId && row.attempt == attempt && row.status == .queued

def claimForCloning (db : Db) (projectId : Uuid) (attempt : Nat) (workerId : String)
    (jobId : Uuid) (leaseExpiresAt : Timestamp) : Db × Option ProjectCloneAttempt :=
  transition db (claimable projectId attempt)
    (fun row => { row with
      status := .cloning
      workerId := some workerId
      jobId := some jobId
      leaseExpiresAt := some leaseExpiresAt })
    (fun _ => rfl) .cloning

/-- The update that makes an attempt ready. -/
def ProjectCloneAttempt.readied (success : CloneSuccess) (now : Timestamp)
    (row : ProjectCloneAttempt) : ProjectCloneAttempt :=
  { row with
    status := .ready
    resolvedBranch := success.resolvedBranch
    headSha := some success.headSha
    bytesCloned := some success.bytesCloned
    durationMs := some success.durationMs
    leaseExpiresAt := none
    materializedAt := row.materializedAt <|> some now }

def finalizable (attemptId : Uuid) (row : ProjectCloneAttempt) : Bool :=
  row.id == attemptId && row.status == .cloning

def forcible (attemptId : Uuid) (row : ProjectCloneAttempt) : Bool :=
  row.id == attemptId && row.materializedAt.isSome

def adoptable (attemptId : Uuid) (row : ProjectCloneAttempt) : Bool :=
  row.id == attemptId && (row.status == .cloning || row.status == .queued || row.status == .ready)

/-- `finalize_ready_tx` with either predicate, and `adopt_published_ready`. -/
def makeReady (db : Db) (hits : ProjectCloneAttempt → Bool) (success : CloneSuccess)
    (now : Timestamp) : Db × Option ProjectCloneAttempt :=
  transition db hits (ProjectCloneAttempt.readied success now) (fun _ => rfl) .ready

def forceReady (db : Db) (attemptId : Uuid) (success : CloneSuccess) (now : Timestamp) :
    Db × Option ProjectCloneAttempt :=
  makeReady db (forcible attemptId) success now

def adoptPublishedReady (db : Db) (attemptId : Uuid) (success : CloneSuccess) (now : Timestamp) :
    Db × Option ProjectCloneAttempt :=
  makeReady db (adoptable attemptId) success now

/-- The writes of `publish_ready_locked` after the rename: the attempt is stamped even where it is
no longer cloning. -/
def publishReady (db : Db) (attemptId : Uuid) (success : CloneSuccess) (now : Timestamp) :
    Db × Bool :=
  match makeReady db (finalizable attemptId) success now with
  | (finalized, some _) => (finalized, true)
  | (_, none) =>
      ({ db with
         attempts := db.attempts.update (·.id == attemptId)
           (fun row => { row with materializedAt := row.materializedAt <|> some now })
           fun _ => rfl }, false)

def openAt (attemptId : Uuid) (row : ProjectCloneAttempt) : Bool :=
  row.id == attemptId && inFlight row.status

def cancelAttempt (db : Db) (attemptId : Uuid) : Db × Option ProjectCloneAttempt :=
  transition db (openAt attemptId)
    (fun row => { row with status := .cancelled, leaseExpiresAt := none }) (fun _ => rfl) .none

def finalizeFailed (db : Db) (attemptId : Uuid) : Db × Option ProjectCloneAttempt :=
  transition db (openAt attemptId)
    (fun row => { row with status := .failed, leaseExpiresAt := none }) (fun _ => rfl) .failed

def setCredentialId (db : Db) (attemptId credentialId : Uuid) : Db :=
  { db with
    attempts := db.attempts.update (·.id == attemptId)
      (fun row => { row with credentialId := some credentialId }) fun _ => rfl }

def setContainerId (db : Db) (attemptId : Uuid) (containerId : String) : Db :=
  { db with
    attempts := db.attempts.update (·.id == attemptId)
      (fun row => { row with containerId := some containerId }) fun _ => rfl }

def leasedBy (attemptId : Uuid) (workerId : String) (row : ProjectCloneAttempt) : Bool :=
  row.id == attemptId && row.workerId == some workerId && row.status == .cloning

def extendLease (db : Db) (attemptId : Uuid) (workerId : String) (leaseExpiresAt : Timestamp) :
    Db :=
  { db with
    attempts := db.attempts.update (leasedBy attemptId workerId)
      (fun row => { row with leaseExpiresAt := some leaseExpiresAt }) fun _ => rfl }

/-! ## Requests for an attempt -/

def CloneOutbox.waitsFor (projectId : Uuid) (attempt : Nat) (row : CloneOutbox) : Bool :=
  row.payload.projectId == projectId && row.publishedAt.isNone && row.payload.attempt == attempt

def newOutbox (id : Uuid) (payload : CloneOutboxPayload) (now : Timestamp) : CloneOutbox where
  id
  payload
  publishedAt := none
  createdAt := now

def insertOutbox (db : Db) (payload : CloneOutboxPayload) (id : Uuid) (now : Timestamp) :
    Option Db :=
  if db.outbox.any (CloneOutbox.waitsFor payload.projectId payload.attempt) then some db
  else (db.outbox.insert? (newOutbox id payload now)).map fun outbox => { db with outbox }

/-- A new attempt. -/
def queuedAttempt (id organizationId workspaceId projectId : Uuid) (attempt : Nat)
    (repositoryUrl : String) (now : Timestamp) : ProjectCloneAttempt where
  id
  organizationId
  workspaceId
  projectId
  attempt
  repositoryUrl
  credentialId := none
  status := .queued
  resolvedBranch := none
  headSha := none
  bytesCloned := none
  durationMs := none
  containerId := none
  workerId := none
  jobId := none
  leaseExpiresAt := none
  materializedAt := none
  createdAt := now

def retryOf (previous : ProjectCloneAttempt) (id : Uuid) (now : Timestamp) :
    ProjectCloneAttempt :=
  queuedAttempt id previous.organizationId previous.workspaceId previous.projectId
    (previous.attempt + 1) previous.repositoryUrl now

def payloadOf (row : ProjectCloneAttempt) (runAfter : Option Timestamp) : CloneOutboxPayload where
  organizationId := row.organizationId
  workspaceId := row.workspaceId
  projectId := row.projectId
  attempt := row.attempt
  runAfter

/-- The transaction of `schedule_retry`: whether the attempt is new; none where it fails. -/
def scheduleRetry (db : Db) (previous : ProjectCloneAttempt) (runAfter : Option Timestamp)
    (id outboxId : Uuid) (now : Timestamp) : Option (Db × Bool) :=
  let next := retryOf previous id now
  if db.attempts.any fun row => row.projectId == next.projectId && row.attempt == next.attempt then
    some (db, false)
  else do
    let attempts ← db.attempts.insert? next
    let db ← insertOutbox { db with attempts } (payloadOf next runAfter) outboxId now
    some (setProjectCloneStatus db next.projectId .queued, true)

/-- `reenqueue_outbox`. -/
def reenqueueOutbox (db : Db) (candidate : ReconcileCandidate) (id : Uuid) (now : Timestamp) :
    Option Db :=
  insertOutbox db
    { organizationId := candidate.organizationId
      workspaceId := candidate.workspaceId
      projectId := candidate.projectId
      attempt := candidate.attempt
      runAfter := none } id now

/-! ## The reconciler's queries -/

def isExpired (now : Timestamp) (row : ProjectCloneAttempt) : Bool :=
  row.status == .cloning && row.leaseExpiresAt.any fun lease => lease < now

/-- The rows of `claim_expired_cloning_for_recovery`; it passes over locked ones. -/
def expiredCloning (db : Db) (limit : Nat) (locked : List Uuid) (now : Timestamp) :
    List ProjectCloneAttempt :=
  batch (fun row => row.leaseExpiresAt.getD 0) limit
    (db.attempts.rows.filter fun row => isExpired now row && !locked.contains row.id)

def claimExpiredCloning (db : Db) (recovererId : String) (recoveryGrace : Timestamp)
    (limit : Nat) (locked : List Uuid) (now : Timestamp) : Db × List ReconcileCandidate :=
  let expired := expiredCloning db limit locked now
  ({ db with
     attempts := db.attempts.update (fun row => expired.any (·.id == row.id))
       (fun row => { row with workerId := some recovererId, leaseExpiresAt := some recoveryGrace })
       fun _ => rfl },
   expired.map reconcileCandidate)

def findMaterializedUnfinalized (db : Db) (limit : Nat) : List ReconcileCandidate :=
  (batch (fun row => row.materializedAt.getD 0) limit (db.attempts.rows.filter
    fun row => row.materializedAt.isSome && row.status != .ready)).map reconcileCandidate

def isOrphaned (db : Db) (olderThan : Timestamp) (row : ProjectCloneAttempt) : Bool :=
  row.status == .queued && decide (row.createdAt < olderThan)
    && !db.jobs.any (fun job => job.uniqueKey == some (jobUniqueKey row.projectId row.attempt))
    && !db.outbox.any (CloneOutbox.waitsFor row.projectId row.attempt)

def orphanedQueued (db : Db) (olderThan : Timestamp) (limit : Nat) : List ProjectCloneAttempt :=
  batch (·.createdAt) limit (db.attempts.rows.filter (isOrphaned db olderThan))

def findOrphanedQueued (db : Db) (olderThan : Timestamp) (limit : Nat) :
    List ReconcileCandidate :=
  (orphanedQueued db olderThan limit).map reconcileCandidate

/-! ## Projects and the relay -/

def dirNameTaken (db : Db) (project : Project) : Bool :=
  db.projects.any fun other => other.workspaceId == project.workspaceId && other.isLive
    && other.workspaceDirName == project.workspaceDirName

/-- What a new project is created with; its name was derived before. -/
structure ProjectCreate where
  id : Uuid
  organizationId : Uuid
  workspaceId : Uuid
  dirName : WorkspaceDirName
  repositoryUrl : Option String
deriving DecidableEq

def ProjectCreate.project (input : ProjectCreate) : Project where
  id := input.id
  organizationId := input.organizationId
  workspaceId := input.workspaceId
  workspaceDirName := input.dirName.value
  repositoryUrl := input.repositoryUrl
  cloneStatus := if input.repositoryUrl.isSome then .queued else .none
  deletedAt := none

def ProjectCreate.attempt (input : ProjectCreate) (url : String) (id : Uuid) (now : Timestamp) :
    ProjectCloneAttempt :=
  queuedAttempt id input.organizationId input.workspaceId input.id 1 url now

/-- `create_with_clone`; none where the transaction rolls back. -/
def createWithClone (db : Db) (input : ProjectCreate) (attemptId outboxId : Uuid)
    (now : Timestamp) : Option Db :=
  if dirNameTaken db input.project then none
  else do
    let projects ← db.projects.insert? input.project
    match input.repositoryUrl with
    | none => some { db with projects }
    | some url =>
        let first := input.attempt url attemptId now
        let attempts ← db.attempts.insert? first
        let outbox ← db.outbox.insert? (newOutbox outboxId (payloadOf first none) now)
        some { db with projects, attempts, outbox }

/-- `ProjectRepository::delete`. -/
def deleteProject (db : Db) (organizationId projectId : Uuid) (now : Timestamp) : Db :=
  { db with
    projects := db.projects.update
      (fun project => project.id == projectId && project.organizationId == organizationId
        && project.isLive)
      (fun project => { project with deletedAt := some now }) fun _ => rfl }

/-- `NEXT_CLONE_OUTBOX_SQL`; it passes over locked rows. -/
def nextCloneOutbox (db : Db) (locked : List Uuid) : Option CloneOutbox :=
  selectFirst (fun left right => decide (left.createdAt ≤ right.createdAt))
    (db.outbox.rows.filter fun row => row.publishedAt.isNone && !locked.contains row.id)

def relayedJob (row : CloneOutbox) (now : Timestamp) : NewJob where
  queue := cloneJobQueue
  payload := row.payload.toValue
  priority := 0
  runAt := some (max (row.payload.runAfter.getD now) now)
  uniqueKey := some (jobUniqueKey row.payload.projectId row.payload.attempt)
  maxAttempts := cloneJobMaxAttempts

def markPublished (db : Db) (id : Uuid) (now : Timestamp) : Db :=
  { db with
    outbox := db.outbox.update (·.id == id)
      (fun row => { row with publishedAt := some now }) fun _ => rfl }

/-- `relay_next_clone_outbox`: a job with the key may exist already. -/
def relayNextCloneOutbox (db : Db) (jobId : Uuid) (locked : List Uuid) (now : Timestamp) : Db :=
  match nextCloneOutbox db locked with
  | none => db
  | some row =>
      match enqueue db.jobs (relayedJob row now) jobId now with
      | some jobs => markPublished { db with jobs } row.id now
      | none =>
          if db.jobs.any (·.uniqueKey == (relayedJob row now).uniqueKey) then
            markPublished db row.id now
          else db

end Forge.CloneRepository
