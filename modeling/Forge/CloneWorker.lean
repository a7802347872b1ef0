import Forge.CloneOperations

/-! The clone worker: the processing of a job, the reconciler and the loop around both; the retry
request; and the statements that run beside them. -/

namespace Forge.CloneWorker

open Forge.CloneDomain
open Forge.CloneOperations
open Forge.CloneRepository
open Forge.JobQueue (releaseStaleLocks)
open Forge.Library.Identifier
open Forge.Library.Interleaving
open Forge.Schema (Timestamp second)

structure CloneWorkerConfig where
  leaseTtl : Timestamp
  maxAttempts : Nat
  retryBackoff : Nat
  reconcileInterval : Timestamp

def call (operation : Op) : Io (Answer operation) := Attempt.call operation

def bestEffort {α : Type} (io : Io α) : Io Unit := do
  let _ ← io.observe
  pure ()

def orElse {α β : Type} (io : Io α) (onError : Io β) (rest : α → Io β) : Io β := do
  match ← io.observe with
  | .error _ => onError
  | .ok value => rest value

def forEach {α : Type} (each : α → Io Unit) : List α → Io Unit
  | [] => pure ()
  | item :: rest => do
      each item
      forEach each rest

/-! ## Retries -/

/-- The seconds that `retry_run_after` waits after a failed attempt. -/
def retryDelaySecs (config : CloneWorkerConfig) (failedAttempt : Nat) : Nat :=
  min (max config.retryBackoff 1 * 2 ^ min (failedAttempt - 1) 16) 3600

/-- `schedule_retry_for`: only below the maximum. -/
def scheduleRetryFor (config : CloneWorkerConfig) (actor : Actor)
    (attempt : ProjectCloneAttempt) : Io Unit :=
  if config.maxAttempts ≤ attempt.attempt then pure ()
  else bestEffort (call (.scheduleRetry actor attempt none
    (some (retryDelaySecs config attempt.attempt))))

def projectDirName (recovery : Option Recovery) (organizationId projectId : Uuid) :
    Io WorkspaceDirName := do
  match ← call (.projectDirName recovery organizationId projectId) with
  | none => .fail (.internal "project not found or soft-deleted")
  | some raw =>
      match WorkspaceDirName.parse raw with
      | none => .fail (.internal "invalid workspace_dir_name")
      | some name => pure name

def targetOf (attempt : ProjectCloneAttempt) (name : WorkspaceDirName) : TargetPath where
  organizationId := attempt.organizationId
  workspaceId := attempt.workspaceId
  dirName := name

/-! ## The worker -/

section Worker

variable (config : CloneWorkerConfig) (workerId : String)

def completeJob (jobId : Uuid) : Io Unit :=
  orElse (call (.completeJob workerId jobId))
    (bestEffort (call (.failJob workerId jobId "complete failed; unlocked by clone worker")))
    fun _ => pure ()

/-- `finish_failed_redacted`. -/
def finishFailed (attempt : ProjectCloneAttempt) : Io Unit := do
  call (.finalizeFailed (.worker workerId) attempt.id)
  scheduleRetryFor config (.worker workerId) attempt

def cleanup (attempt : ProjectCloneAttempt) : Io Unit :=
  bestEffort (call (.cleanupStaging attempt.id))

def cleanupAndFail (attempt : ProjectCloneAttempt) : Io Unit := do
  cleanup attempt
  finishFailed config workerId attempt

def force (attempt : ProjectCloneAttempt) (success : CloneSuccess) : Io Unit := do
  let _ ← call (.forceReady attempt.id success)
  pure ()

/-- The end of `finish_ready`. -/
def afterPublish (attempt : ProjectCloneAttempt) (success : CloneSuccess) :
    PublishOutcome → Io Unit
  | .published finalized => do
      cleanup attempt
      if finalized then pure () else force attempt success
  | .projectGone => do
      cleanup attempt
      bestEffort (call (.cancelAttempt attempt.id))
  | .renameFailed => cleanupAndFail config workerId attempt

/-- A directory at the target is not overwritten. -/
def finishReady (attempt : ProjectCloneAttempt) (target : TargetPath) (success : CloneSuccess) :
    Io Unit := do
  match ← (call (.symlinkMetadata none target)).observe with
  | .ok () =>
      if attempt.materializedAt.isSome then do
        cleanup attempt
        force attempt success
      else cleanupAndFail config workerId attempt
  | .error _ =>
      orElse (call (.ensureProjectsRoot attempt.organizationId attempt.workspaceId))
        (cleanupAndFail config workerId attempt) fun _ => do
          let outcome ←
            call (.publishReadyLocked workerId attempt.id attempt.projectId target success)
          afterPublish config workerId attempt success outcome

def successOf (branch : Option String) (headSha : String) (bytes : Nat) (durationMs : Int) :
    CloneSuccess where
  resolvedBranch := branch
  headSha := headSha
  bytesCloned := min bytes (2 ^ 63 - 1)
  durationMs := durationMs

def finish (attempt : ProjectCloneAttempt) (target : TargetPath) :
    CloneRunOutcome × Int → Io Unit
  | (.ready branch headSha bytes, durationMs) =>
      finishReady config workerId attempt target (successOf branch headSha bytes durationMs)
  | _ => cleanupAndFail config workerId attempt

def launch (attempt : ProjectCloneAttempt) (target : TargetPath) : Io Unit := do
  bestEffort (call (.setContainerId attempt.id ("agentforge-clone-" ++ attempt.id.toText)))
  orElse (call (.run attempt.id)) (cleanupAndFail config workerId attempt)
    (finish config workerId attempt target)

def withCredential (attempt : ProjectCloneAttempt) (target : TargetPath) :
    Option Uuid → Io Unit
  | none => launch config workerId attempt target
  | some credentialId =>
      orElse (call (.setCredentialId attempt.id credentialId))
        (cleanupAndFail config workerId attempt) fun _ => launch config workerId attempt target

def stageAndRun (attempt : ProjectCloneAttempt) (target : TargetPath) : Io Unit :=
  orElse (call (.prepareStaging attempt.id attempt.organizationId attempt.workspaceId))
    (finishFailed config workerId attempt) fun _ =>
      orElse (call (.resolveCredential attempt.id)) (cleanupAndFail config workerId attempt)
        (withCredential config workerId attempt target)

def executeClone (attempt : ProjectCloneAttempt) : Io Unit :=
  orElse (projectDirName none attempt.organizationId attempt.projectId)
    (finishFailed config workerId attempt) fun name =>
      stageAndRun config workerId attempt (targetOf attempt name)

def claimAndRun (projectId : Uuid) (attempt : Nat) (jobId : Uuid) : Io Unit := do
  match ← call (.claimForCloning workerId projectId attempt jobId config.leaseTtl) with
  | none => pure ()
  | some claimed => executeClone config workerId claimed

def processAttempt (payload : CloneOutboxPayload) (jobId : Uuid) : Io Unit := do
  match ← call (.findAttempt payload.organizationId payload.projectId payload.attempt) with
  | none => pure ()
  | some row =>
      if row.status.isTerminal then pure ()
      else if ← call (.projectIsLive payload.projectId) then
        claimAndRun config workerId payload.projectId payload.attempt jobId
      else bestEffort (call (.cancelAttempt row.id))

def dequeueAndProcess : Io Unit := do
  match ← call (.dequeue workerId) with
  | none => pure ()
  | some job =>
      match decodeOutboxPayload job.payload with
      | none => completeJob workerId job.id
      | some payload => do
          bestEffort (processAttempt config workerId payload job.id)
          completeJob workerId job.id

end Worker

/-! ## The reconciler -/

section Reconciler

variable (config : CloneWorkerConfig) (recovererId : String)

def scan {α : Type} (query : Io (List α)) (each : α → Io Unit) : Io Unit :=
  orElse query (pure ()) (forEach each)

def loadAttempt (candidate : ReconcileCandidate) : Io (Option ProjectCloneAttempt) :=
  orElse (call (.findAttemptById candidate.organizationId candidate.id)) (pure none) pure

def recoverMaterialized (candidate : ReconcileCandidate) : Io Unit := do
  match ← loadAttempt candidate with
  | none => pure ()
  | some _ =>
      match ← (call (.loadCloneSuccess candidate.id)).observe with
      | .ok (some success) => bestEffort (call (.forceReady candidate.id success))
      | _ => pure ()

def defaultSuccess : CloneSuccess := ⟨none, "", 0, 0⟩

def storedSuccess (stored : Except AppError (Option CloneSuccess)) : CloneSuccess :=
  match stored with
  | .ok (some success) => success
  | _ => defaultSuccess

def adopt (recovery : Recovery) (target : TargetPath) : Io Bool :=
  orElse (call (.symlinkMetadata (some recovery) target)) (pure false) fun _ => do
    let stored ← (call (.loadCloneSuccess recovery.attemptId)).observe
    orElse (call (.adoptPublishedReady recovery (storedSuccess stored))) (pure false) pure

def recoverIfTargetPublished (attempt : ProjectCloneAttempt) : Io Bool :=
  orElse (projectDirName (some ⟨recovererId, attempt.id⟩) attempt.organizationId
    attempt.projectId) (pure false) fun name =>
      adopt ⟨recovererId, attempt.id⟩ (targetOf attempt name)

def failRecovered (candidate : ReconcileCandidate) (attempt : ProjectCloneAttempt) : Io Unit := do
  bestEffort (call (.cleanupStaging candidate.id))
  orElse (call (.finalizeFailed (.reconciler recovererId) candidate.id)) (pure ()) fun _ =>
    scheduleRetryFor config (.reconciler recovererId) attempt

def recoverExpiredCloning (candidate : ReconcileCandidate) : Io Unit := do
  bestEffort (call .sweepOrphans)
  match ← loadAttempt candidate with
  | none => pure ()
  | some attempt =>
      if ← recoverIfTargetPublished recovererId attempt then pure ()
      else failRecovered config recovererId candidate attempt

def reenqueue (candidate : ReconcileCandidate) : Io Unit :=
  bestEffort (call (.reenqueueOutbox candidate))

def reconcileBatch : Nat := 50

def runReconcilerOnce : Io Unit := do
  scan (call (.findMaterializedUnfinalized reconcileBatch)) recoverMaterialized
  scan (call (.claimExpiredCloning recovererId config.leaseTtl reconcileBatch))
    (recoverExpiredCloning config recovererId)
  scan (call (.findOrphanedQueued config.reconcileInterval reconcileBatch)) reenqueue

def sweepRoot (keep : List Uuid) (root : Uuid × Uuid) : Io Unit :=
  orElse (call (.readStaging root.1 root.2)) (pure ()) fun entries =>
    forEach (fun attemptId => bestEffort (call (.cleanupStaging attemptId)))
      (entries.filter fun attemptId => !keep.contains attemptId)

def sweepOrphanStaging : Io Unit :=
  orElse (call .inFlightAttemptTenants) (pure ()) fun keep =>
    scan (call .distinctAttemptTenants) (sweepRoot keep)

def sweepOrphansOnce : Io Unit := do
  bestEffort (call .sweepOrphans)
  sweepOrphanStaging

def reconcile : Io Unit := do
  sweepOrphansOnce
  runReconcilerOnce config recovererId

end Reconciler

/-! ## The retry request -/

def retryOnlyFromFailed (current : CloneAttemptStatus) : AppError :=
  .conflict ("clone retry is only allowed after a failed attempt; the latest attempt is '"
    ++ current.asStr ++ "'")

def retryAlreadyQueued : AppError :=
  .conflict "a clone retry for this project is already queued; wait for it to run"

def noAttemptToRetry : AppError :=
  .conflict "no clone attempt exists for this project yet; there is nothing to retry"

def nothingToClone : AppError :=
  .validation "this project has no git repository configured, so there is nothing to clone"

/-- The retry of `retry_clone`, with the latest attempt. -/
def retryLatest (number : Nat) (organizationId projectId : Uuid)
    (latest : ProjectCloneAttempt) : Io ProjectCloneAttempt :=
  if latest.status = .failed then
    if latest.organizationId = organizationId then do
      match ← call (.scheduleRetry (.request number) latest (some organizationId) none) with
      | none => .fail retryAlreadyQueued
      | some _ =>
          match ← call (.latestAttemptSummary organizationId projectId) with
          | none => .fail noAttemptToRetry
          | some attempt => pure attempt
    else .fail (.notFound ("project " ++ projectId.toText))
  else .fail (retryOnlyFromFailed latest.status)

def retryClone (number : Nat) (organizationId projectId : Uuid) : Io ProjectCloneAttempt := do
  let project ← call (.findProject organizationId projectId)
  if project.repositoryUrl.isNone then .fail nothingToClone
  else
    match ← call (.latestAttemptSummary organizationId projectId) with
    | none => .fail noAttemptToRetry
    | some latest => retryLatest number organizationId projectId latest

/-! ## Runs -/

abbrev Program := Prog Op (fun operation => Except AppError (Answer operation)) Unit

def ending {α : Type} (io : Io α) : Program := Prog.bind io fun _ => .done ()

def machine :
    Machine World Actor Op Choice fun operation => Except AppError (Answer operation) where
  perform := perform
  starts _ := none

abbrev State := Pool World Actor Op fun operation => Except AppError (Answer operation)

/-- What happens: a project is created or deleted, the relay runs once, stale locks are released,
something changes under a projects root, a retry is requested or its client leaves; a worker
starts, goes round its loop, comes to its reconcile tick, is signalled, dies; an actor's next call
returns; a heartbeat extends a lease. -/
inductive Action where
  | create (input : ProjectCreate) (attemptId outboxId : Uuid) (now : Timestamp)
  | delete (organizationId projectId : Uuid) (now : Timestamp)
  | relay (jobId : Uuid) (locked : List Uuid) (now : Timestamp)
  | releaseStaleLocks (timeoutSecs : Nat) (now : Timestamp)
  | occupy (path : TargetPath) (empty : Bool)
  | vacate (path : TargetPath)
  | retry (organizationId projectId : Uuid)
  | leave (number : Nat)
  | launch (workerId : String)
  | iterate (workerId : String)
  | tick (workerId : String)
  | signal (workerId : String) (shutdown : Bool)
  | crash (workerId : String)
  | step (actor : Actor) (choice : Choice)
  | heartbeat (workerId : String) (lease : Timestamp)

def start : State := ⟨.empty, fun _ => .done ()⟩

def isIdle (state : State) (actor : Actor) : Bool := (state.threads actor).isDone

def withWorld (state : State) (world : World) : State := ⟨world, state.threads⟩

def withDb (state : State) (db : Db) : State := withWorld state { state.state with db }

def withDisk (state : State) (disk : Disk) : State := withWorld state { state.state with disk }

def isLooping (state : State) (workerId : String) : Bool :=
  state.state.running.contains workerId && isIdle state (.reconciler workerId)

def drop (state : State) (actor : Actor) : State :=
  (withWorld state (state.state.amend actor fun past => { past with failure := none })).put actor
    (.done ())

def beginReconcile (config : CloneWorkerConfig) (state : State) (workerId : String) : State :=
  state.put (.reconciler workerId) (ending (reconcile config workerId))

def retire (world : World) (workerId : String) : World :=
  { world.settle fun recovery => recovery.recovererId == workerId with
    running := world.running.filter (· ≠ workerId) }

def stop (state : State) (workerId : String) : State :=
  drop (drop (withWorld state (retire state.state workerId)) (.worker workerId))
    (.reconciler workerId)

def heartbeat (state : State) (workerId : String) (lease : Timestamp) : State :=
  match state.threads (.worker workerId) with
  | .op (.run attemptId) _ => withDb state (extendLease state.state.db attemptId workerId lease)
  | _ => state

def register (world : World) (workerId : String) : World :=
  { world with
    launched := workerId :: world.launched
    running := workerId :: world.running }

def enlist (world : World) : World := { world with requests := world.requests + 1 }

def exec (config : CloneWorkerConfig) (state : State) : Action → State
  | .create input attemptId outboxId now =>
      match createWithClone state.state.db input attemptId outboxId now with
      | some db => withDb state db
      | none => state
  | .delete organizationId projectId now =>
      withDb state (deleteProject state.state.db organizationId projectId now)
  | .relay jobId locked now =>
      withDb state (relayNextCloneOutbox state.state.db jobId locked now)
  | .releaseStaleLocks timeoutSecs now =>
      withDb state { state.state.db with
        jobs := releaseStaleLocks state.state.db.jobs timeoutSecs now }
  | .occupy path empty =>
      withDisk state (state.state.disk.place path (some (if empty then .empty else .foreign)))
  | .vacate path => withDisk state (state.state.disk.place path none)
  | .retry organizationId projectId =>
      let number := state.state.requests
      (withWorld state (enlist state.state)).put (.request number)
        (ending (retryClone number organizationId projectId))
  | .leave number => drop state (.request number)
  | .launch workerId =>
      if state.state.launched.contains workerId then state
      else beginReconcile config (withWorld state (register state.state workerId)) workerId
  | .iterate workerId =>
      if isLooping state workerId && isIdle state (.worker workerId) then
        state.put (.worker workerId) (ending (dequeueAndProcess config workerId))
      else state
  | .tick workerId =>
      if isLooping state workerId then
        beginReconcile config (drop state (.worker workerId)) workerId
      else state
  | .signal workerId shutdown =>
      if isLooping state workerId then
        if shutdown then stop state workerId else drop state (.worker workerId)
      else state
  | .crash workerId => stop state workerId
  | .step actor choice => state.step machine actor choice
  | .heartbeat workerId lease => heartbeat state workerId lease

/-! ## A deployment -/

namespace Sample

def named (number : Nat) : Uuid := ⟨Fin.ofNat _ number⟩

def config : CloneWorkerConfig where
  leaseTtl := 900 * second
  maxAttempts := 3
  retryBackoff := 30
  reconcileInterval := 60 * second

def input : ProjectCreate where
  id := named 1
  organizationId := named 2
  workspaceId := named 3
  dirName := ⟨"app", by decide⟩
  repositoryUrl := some "https://host/app.git"

def target : TargetPath := ⟨named 2, named 3, input.dirName⟩

def calls (actor : Actor) (count : Nat) (choice : Choice) : List Action :=
  List.replicate count (.step actor choice)

def started : List Action :=
  [.create input (named 10) (named 11) 0, .relay (named 12) [] 0, .launch "a"]
    ++ calls (.reconciler "a") 7 {}

def cloned : List Action :=
  started ++ [.iterate "a"] ++ calls (.worker "a") 8 {}
    ++ calls (.worker "a") 1 { outcome := .ready none "abc" 5 }

def recovering : List Action :=
  [.launch "b"] ++ calls (.reconciler "b") 9 { now := 1000 * second }

end Sample

end Forge.CloneWorker
