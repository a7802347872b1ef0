import Forge.CloneRepository
import Forge.Library.Interleaving

/-! The awaited calls of the clone worker, its reconciler and the retry request; and what they do to
the database, the disk and the history of both. -/

namespace Forge.CloneOperations

open Forge.CloneDomain
open Forge.CloneRepository
open Forge.JobQueue (JobEntry Jobs lockJob nextJob)
open Forge.Library.Identifier
open Forge.Library.Interleaving
open Forge.Library.KeyedTable
open Forge.Schema (Timestamp second)

/-! ## The disk -/

inductive Tree where
  | cloned (attemptId : Uuid)
  | foreign
  | empty
deriving DecidableEq

structure TargetPath where
  organizationId : Uuid
  workspaceId : Uuid
  dirName : WorkspaceDirName
deriving DecidableEq

structure StagingDir where
  attemptId : Uuid
  organizationId : Uuid
  workspaceId : Uuid
  repo : Option Tree
deriving DecidableEq

structure Disk where
  staging : Table StagingDir StagingDir.attemptId
  target : TargetPath → Option Tree

namespace Disk

variable (disk : Disk)

/-- `rename` onto nothing or onto an empty directory, and what is renamed. -/
def rename (attemptId : Uuid) (target : TargetPath) : Option (Disk × Tree) :=
  match disk.staging.find? (·.attemptId == attemptId), disk.target target with
  | none, _ => none
  | some _, some (.cloned _) => none
  | some _, some .foreign => none
  | some dir, _ => dir.repo.map fun tree =>
      ({ staging := disk.staging.update (·.attemptId == attemptId)
           (fun dir => { dir with repo := none }) fun _ => rfl
         target := Function.update disk.target target (some tree) }, tree)

def removeStaging (attemptId : Uuid) : Disk :=
  { disk with staging := disk.staging.deleteWhere (·.attemptId == attemptId) }

def prepareStaging (attemptId organizationId workspaceId : Uuid) : Disk :=
  let cleared := disk.removeStaging attemptId
  match cleared.staging.insert? ⟨attemptId, organizationId, workspaceId, none⟩ with
  | some staging => { cleared with staging }
  | none => cleared

def clone (attemptId : Uuid) : Disk :=
  { disk with
    staging := disk.staging.update (·.attemptId == attemptId)
      (fun dir => { dir with repo := some (.cloned attemptId) }) fun _ => rfl }

def stagingOf (organizationId workspaceId : Uuid) : List Uuid :=
  (disk.staging.rows.filter fun dir =>
    dir.organizationId == organizationId && dir.workspaceId == workspaceId).map (·.attemptId)

def place (path : TargetPath) (content : Option Tree) : Disk :=
  { disk with target := Function.update disk.target path content }

end Disk

/-! ## Calls -/

inductive AppError where
  | validation (message : String)
  | conflict (message : String)
  | notFound (message : String)
  | internal (message : String)
deriving DecidableEq

inductive CloneRunOutcome where
  | ready (branch : Option String) (headSha : String) (bytes : Nat)
  | failed
  | timeout
  | tooLarge
deriving DecidableEq

inductive PublishOutcome where
  | published (finalized : Bool)
  | projectGone
  | renameFailed
deriving DecidableEq

/-- A worker has two branches that run in turns: the one that processes jobs, and the one that
reconciles. -/
inductive Actor where
  | worker (id : String)
  | reconciler (id : String)
  | request (number : Nat)
deriving DecidableEq

structure Recovery where
  recovererId : String
  attemptId : Uuid
deriving DecidableEq

/-- The awaited calls; they carry who makes them where the history depends on it. -/
inductive Op where
  | dequeue (workerId : String)
  | completeJob (workerId : String) (jobId : Uuid)
  | failJob (workerId : String) (jobId : Uuid) (errorMessage : String)
  | findAttempt (organizationId projectId : Uuid) (attempt : Nat)
  | findAttemptById (organizationId attemptId : Uuid)
  | latestAttemptSummary (organizationId projectId : Uuid)
  | findProject (organizationId projectId : Uuid)
  | projectIsLive (projectId : Uuid)
  | projectDirName (recovery : Option Recovery) (organizationId projectId : Uuid)
  | loadCloneSuccess (attemptId : Uuid)
  | inFlightAttemptTenants
  | distinctAttemptTenants
  | claimForCloning (workerId : String) (projectId : Uuid) (attempt : Nat) (jobId : Uuid)
      (leaseTtl : Timestamp)
  | setCredentialId (attemptId credentialId : Uuid)
  | setContainerId (attemptId : Uuid) (containerId : String)
  | publishReadyLocked (workerId : String) (attemptId projectId : Uuid) (target : TargetPath)
      (success : CloneSuccess)
  | cancelAttempt (attemptId : Uuid)
  | forceReady (attemptId : Uuid) (success : CloneSuccess)
  | adoptPublishedReady (recovery : Recovery) (success : CloneSuccess)
  | finalizeFailed (actor : Actor) (attemptId : Uuid)
  | scheduleRetry (actor : Actor) (previous : ProjectCloneAttempt) (requester : Option Uuid)
      (delaySecs : Option Nat)
  | findMaterializedUnfinalized (limit : Nat)
  | claimExpiredCloning (recovererId : String) (leaseTtl : Timestamp) (limit : Nat)
  | findOrphanedQueued (grace : Timestamp) (limit : Nat)
  | reenqueueOutbox (candidate : ReconcileCandidate)
  | prepareStaging (attemptId organizationId workspaceId : Uuid)
  | cleanupStaging (attemptId : Uuid)
  | readStaging (organizationId workspaceId : Uuid)
  | symlinkMetadata (recovery : Option Recovery) (target : TargetPath)
  | ensureProjectsRoot (organizationId workspaceId : Uuid)
  | resolveCredential (attemptId : Uuid)
  | run (attemptId : Uuid)
  | sweepOrphans

@[reducible] def Answer : Op → Type
  | .dequeue _ => Option JobEntry
  | .findAttempt _ _ _ => Option ProjectCloneAttempt
  | .findAttemptById _ _ => Option ProjectCloneAttempt
  | .latestAttemptSummary _ _ => Option ProjectCloneAttempt
  | .findProject _ _ => Project
  | .projectIsLive _ => Bool
  | .projectDirName _ _ _ => Option String
  | .loadCloneSuccess _ => Option CloneSuccess
  | .inFlightAttemptTenants => List Uuid
  | .distinctAttemptTenants => List (Uuid × Uuid)
  | .claimForCloning _ _ _ _ _ => Option ProjectCloneAttempt
  | .publishReadyLocked _ _ _ _ _ => PublishOutcome
  | .forceReady _ _ => Bool
  | .adoptPublishedReady _ _ => Bool
  | .scheduleRetry _ _ _ _ => Option Nat
  | .findMaterializedUnfinalized _ => List ReconcileCandidate
  | .claimExpiredCloning _ _ _ => List ReconcileCandidate
  | .findOrphanedQueued _ _ => List ReconcileCandidate
  | .readStaging _ _ => List Uuid
  | .resolveCredential _ => Option Uuid
  | .run _ => CloneRunOutcome × Int
  | _ => Unit

abbrev Io (α : Type) := Attempt Op Answer AppError α

/-- How a call turns out: the text of its error, whether it took effect all the same, whether at
least a rename was done, whether the file system refuses one; the clock, the identifiers that
inserts draw, the rows that others have locked, the credential, and what the container returns. -/
structure Choice where
  error : Option String := none
  reached : Bool := false
  renamed : Bool := false
  refused : Bool := false
  now : Timestamp := 0
  id : Uuid := ⟨0⟩
  outboxId : Uuid := ⟨0⟩
  locked : List Uuid := []
  credential : Option Uuid := none
  outcome : CloneRunOutcome := .timeout
  durationMs : Int := 0

/-! ## The world -/

/-- What an actor did: the job that it dequeued and has not completed or failed; the attempt that it
failed last, and whether that changed its row, up to the retry; the directory that was found for
the attempt that it recovered last. -/
structure Past where
  holding : Option Uuid
  failure : Option (Uuid × Bool)
  found : Option (Uuid × Tree)

def Past.none : Past := ⟨.none, .none, .none⟩

structure Publication where
  attemptId : Uuid
  workerId : String
  target : TargetPath
deriving DecidableEq

/-- A retry: the attempt before it, its number and status at that moment, who asked for it, and the
failure that it answers. -/
structure Retry where
  previousId : Uuid
  attempt : Nat
  status : Option CloneAttemptStatus
  requester : Option Uuid
  failure : Option (Uuid × Bool)
deriving DecidableEq

/-- The database and the disk, and a history of both: the requests, the workers that were launched
and those that run, what every actor did, which worker claimed an attempt, the publications, the
tree for which an attempt became ready, the recoveries that will fail their attempt, the retries. -/
structure World where
  db : Db
  disk : Disk
  requests : Nat
  launched : List String
  running : List String
  past : Actor → Past
  owner : Uuid → Option String
  publications : List Publication
  evidence : Uuid → Option Tree
  givenUp : List Recovery
  retries : List Retry

def World.empty : World where
  db := .empty
  disk := ⟨.empty, fun _ => none⟩
  requests := 0
  launched := []
  running := []
  past _ := .none
  owner _ := none
  publications := []
  evidence _ := none
  givenUp := []
  retries := []

namespace World

variable (world : World)

def amend (actor : Actor) (set : Past → Past) : World :=
  { world with past := Function.update world.past actor (set (world.past actor)) }

def own (attemptId : Uuid) (workerId : String) : World :=
  { world with owner := Function.update world.owner attemptId (some workerId) }

def prove (attemptId : Uuid) (tree : Option Tree) : World :=
  { world with evidence := Function.update world.evidence attemptId tree }

def giveUp : Option Recovery → World
  | none => world
  | some recovery => { world with givenUp := recovery :: world.givenUp }

def settle (ended : Recovery → Bool) : World :=
  { world with givenUp := world.givenUp.filter fun recovery => !ended recovery }

end World

def access {α : Type} (world : World) (choice : Choice) (result : World × Except AppError α) :
    World × Except AppError α :=
  match choice.error with
  | some text => (if choice.reached then result.1 else world, .error (.internal text))
  | none => result

def reading {α : Type} (world : World) (choice : Choice) (answer : α) :
    World × Except AppError α :=
  access world choice (world, .ok answer)

def put {α : Type} (world : World) (db : Db) (answer : α) : World × Except AppError α :=
  ({ world with db }, .ok answer)

def putOr {α : Type} (world : World) (db : Option Db) (answer : α) : World × Except AppError α :=
  match db with
  | some db => put world db answer
  | none => (world, .error (.internal "duplicate key"))

def deciding {α : Type} (recovery : Option Recovery) (goesOn : α → Bool)
    (result : World × Except AppError α) : World × Except AppError α :=
  match result with
  | (world, .ok answer) =>
      (if goesOn answer then world else world.giveUp recovery, .ok answer)
  | (world, .error err) => (world.giveUp recovery, .error err)

/-! ## What the calls do -/

def performDequeue (world : World) (workerId : String) (locked : List Uuid) (now : Timestamp) :
    World × Except AppError (Option JobEntry) :=
  match nextJob world.db.jobs cloneJobQueue locked now with
  | none => (world, .ok none)
  | some job =>
      let locking := lockJob world.db.jobs job.id workerId now
      (({ world with db := { world.db with jobs := locking } }).amend (.worker workerId)
        fun past => { past with holding := some job.id }, .ok (some (job.lock workerId now)))

def performClose (world : World) (workerId : String) (jobs : Jobs) :
    World × Except AppError Unit :=
  (({ world with db := { world.db with jobs } }).amend (.worker workerId)
    fun past => { past with holding := none }, .ok ())

def performFindProject (world : World) (organizationId projectId : Uuid) :
    World × Except AppError Project :=
  match findProject world.db organizationId projectId with
  | some project => (world, .ok project)
  | none => (world, .error (.notFound ("project " ++ projectId.toText)))

def performClaim (world : World) (workerId : String) (projectId : Uuid) (attempt : Nat)
    (jobId : Uuid) (leaseExpiresAt : Timestamp) :
    World × Except AppError (Option ProjectCloneAttempt) :=
  match claimForCloning world.db projectId attempt workerId jobId leaseExpiresAt with
  | (db, some row) => (({ world with db }).own row.id workerId, .ok (some row))
  | (_, none) => (world, .ok none)

/-- The name that `publish_ready_locked` reads under its lock. -/
def liveDirName (db : Db) (projectId : Uuid) : Option String :=
  (db.projects.find? fun project => project.id == projectId && project.isLive).map
    (·.workspaceDirName)

/-- The rename of `publish_ready_locked`. -/
def World.publish (world : World) (disk : Disk) (publication : Publication) : World :=
  { world with disk, publications := publication :: world.publications }

/-- The rename happens inside the transaction, which may fail to commit after it. -/
def performPublish (world : World) (workerId : String) (attemptId projectId : Uuid)
    (target : TargetPath) (success : CloneSuccess) (choice : Choice) :
    World × Except AppError PublishOutcome :=
  if liveDirName world.db projectId = some target.dirName.value then
    match world.disk.rename attemptId target, choice.refused with
    | some (disk, tree), false =>
        let renamed := world.publish disk ⟨attemptId, workerId, target⟩
        let (db, finalized) := publishReady world.db attemptId success choice.now
        let committed := ({ renamed with db }).prove attemptId (some tree)
        match choice.error with
        | none => (committed, .ok (.published finalized))
        | some text =>
            (if choice.reached then committed else if choice.renamed then renamed else world,
              .error (.internal text))
    | _, _ => reading world choice .renameFailed
  else reading world choice .projectGone

def performForce (world : World) (attemptId : Uuid) (success : CloneSuccess) (now : Timestamp) :
    World × Except AppError Bool :=
  match forceReady world.db attemptId success now with
  | (db, some _) => put world db true
  | (_, none) => (world, .ok false)

def performAdopt (world : World) (recovery : Recovery) (success : CloneSuccess)
    (now : Timestamp) : World × Except AppError Bool :=
  match adoptPublishedReady world.db recovery.attemptId success now with
  | (db, some _) =>
      (({ world with db }).prove recovery.attemptId
        ((world.past (.reconciler recovery.recovererId)).found.map Prod.snd), .ok true)
  | (_, none) => (world, .ok false)

def performFail (world : World) (attemptId : Uuid) : World × Except AppError Bool :=
  let (db, hit) := finalizeFailed world.db attemptId
  ({ world with db }, .ok hit.isSome)

def isRecovery (actor : Actor) (attemptId : Uuid) (recovery : Recovery) : Bool :=
  actor == .reconciler recovery.recovererId && recovery.attemptId == attemptId

/-- Whether it succeeds or not, the recovery is over; the failure is noted where the caller, which
is not told whether it changed the row, goes on to retry. -/
def settled (actor : Actor) (attemptId : Uuid) (result : World × Except AppError Bool) :
    World × Except AppError Unit :=
  let ended := result.1.settle (isRecovery actor attemptId)
  match result.2 with
  | .ok hit =>
      (ended.amend actor fun past => { past with failure := some (attemptId, hit) }, .ok ())
  | .error err => (ended, .error err)

def statusOf (db : Db) (attemptId : Uuid) : Option CloneAttemptStatus :=
  (db.attempts.find? (·.id == attemptId)).map (·.status)

def performRetry (world : World) (actor : Actor) (previous : ProjectCloneAttempt)
    (requester : Option Uuid) (runAfter : Option Timestamp) (id outboxId : Uuid)
    (now : Timestamp) : World × Except AppError (Option Nat) :=
  match scheduleRetry world.db previous runAfter id outboxId now with
  | none => (world, .error (.internal "duplicate key"))
  | some (_, false) => (world, .ok none)
  | some (db, true) =>
      ({ world with
         db
         retries :=
           { previousId := previous.id
             attempt := previous.attempt
             status := statusOf world.db previous.id
             requester
             failure := (world.past actor).failure } :: world.retries },
        .ok (some (previous.attempt + 1)))

def answered {α : Type} (actor : Actor) (result : World × Except AppError α) :
    World × Except AppError α :=
  (result.1.amend actor fun past => { past with failure := none }, result.2)

def performLook (world : World) (recovery : Option Recovery) (target : TargetPath) :
    World × Except AppError Unit :=
  match world.disk.target target, recovery with
  | none, _ => (world, .error (.internal "No such file or directory"))
  | some _, none => (world, .ok ())
  | some tree, some recovery =>
      (world.amend (.reconciler recovery.recovererId) fun past =>
        { past with found := some (recovery.attemptId, tree) }, .ok ())

def performRun (world : World) (attemptId : Uuid) (outcome : CloneRunOutcome)
    (durationMs : Int) : World × Except AppError (CloneRunOutcome × Int) :=
  match outcome with
  | .ready _ _ _ => ({ world with disk := world.disk.clone attemptId }, .ok (outcome, durationMs))
  | _ => (world, .ok (outcome, durationMs))

def validDirName (raw : Option String) : Bool :=
  raw.any fun value => (WorkspaceDirName.parse value).isSome

def perform (world : World) :
    (operation : Op) → Choice → Bool → World × Except AppError (Answer operation)
  | .dequeue workerId, choice, _ =>
      access world choice (performDequeue world workerId choice.locked choice.now)
  | .completeJob workerId jobId, choice, _ =>
      access world choice (performClose world workerId (JobQueue.complete world.db.jobs jobId))
  | .failJob workerId jobId errorMessage, choice, _ =>
      access world choice
        (performClose world workerId (JobQueue.fail world.db.jobs jobId errorMessage choice.now))
  | .findAttempt organizationId projectId attempt, choice, _ =>
      reading world choice (findAttempt world.db organizationId projectId attempt)
  | .findAttemptById organizationId attemptId, choice, _ =>
      reading world choice (findAttemptById world.db organizationId attemptId)
  | .latestAttemptSummary organizationId projectId, choice, _ =>
      reading world choice (latestAttemptSummary world.db organizationId projectId)
  | .findProject organizationId projectId, choice, _ =>
      access world choice (performFindProject world organizationId projectId)
  | .projectIsLive projectId, choice, _ => reading world choice (projectIsLive world.db projectId)
  | .projectDirName recovery organizationId projectId, choice, _ =>
      deciding recovery validDirName
        (reading world choice (projectDirName world.db organizationId projectId))
  | .loadCloneSuccess attemptId, choice, _ =>
      reading world choice (loadCloneSuccess world.db attemptId)
  | .inFlightAttemptTenants, choice, _ => reading world choice (inFlightAttemptTenants world.db)
  | .distinctAttemptTenants, choice, _ => reading world choice (distinctAttemptTenants world.db)
  | .claimForCloning workerId projectId attempt jobId leaseTtl, choice, _ =>
      access world choice
        (performClaim world workerId projectId attempt jobId (choice.now + leaseTtl))
  | .setCredentialId attemptId credentialId, choice, _ =>
      access world choice (put world (setCredentialId world.db attemptId credentialId) ())
  | .setContainerId attemptId containerId, choice, _ =>
      access world choice (put world (setContainerId world.db attemptId containerId) ())
  | .publishReadyLocked workerId attemptId projectId target success, choice, _ =>
      performPublish world workerId attemptId projectId target success choice
  | .cancelAttempt attemptId, choice, _ =>
      access world choice (put world (cancelAttempt world.db attemptId).1 ())
  | .forceReady attemptId success, choice, _ =>
      access world choice (performForce world attemptId success choice.now)
  | .adoptPublishedReady recovery success, choice, _ =>
      deciding (some recovery) id
        (access world choice (performAdopt world recovery success choice.now))
  | .finalizeFailed actor attemptId, choice, _ =>
      settled actor attemptId (access world choice (performFail world attemptId))
  | .scheduleRetry actor previous requester delaySecs, choice, _ =>
      let runAfter := delaySecs.map fun secs => choice.now + secs * second
      answered actor (access world choice (performRetry world actor previous requester runAfter
        choice.id choice.outboxId choice.now))
  | .findMaterializedUnfinalized limit, choice, _ =>
      reading world choice (findMaterializedUnfinalized world.db limit)
  | .claimExpiredCloning recovererId leaseTtl limit, choice, _ =>
      let (db, candidates) := claimExpiredCloning world.db recovererId (choice.now + leaseTtl) limit
        choice.locked choice.now
      access world choice (put world db candidates)
  | .findOrphanedQueued grace limit, choice, _ =>
      reading world choice (findOrphanedQueued world.db (choice.now - grace) limit)
  | .reenqueueOutbox candidate, choice, _ =>
      access world choice
        (putOr world (reenqueueOutbox world.db candidate choice.outboxId choice.now) ())
  | .prepareStaging attemptId organizationId workspaceId, choice, _ =>
      access world choice ({ world with
        disk := world.disk.prepareStaging attemptId organizationId workspaceId }, .ok ())
  | .cleanupStaging attemptId, choice, _ =>
      access world choice ({ world with disk := world.disk.removeStaging attemptId }, .ok ())
  | .readStaging organizationId workspaceId, choice, _ =>
      reading world choice (world.disk.stagingOf organizationId workspaceId)
  | .symlinkMetadata recovery target, choice, _ =>
      deciding recovery (fun _ => true) (access world choice (performLook world recovery target))
  | .ensureProjectsRoot _ _, choice, _ => reading world choice ()
  | .resolveCredential _, choice, _ => reading world choice choice.credential
  | .run attemptId, choice, _ =>
      access world choice (performRun world attemptId choice.outcome choice.durationMs)
  | .sweepOrphans, choice, _ => reading world choice ()

end Forge.CloneOperations
