import Forge.CloneWorker

/-! What one call of the clone worker, of its reconciler or of the retry request may do to the
world, and how the rows of attempts and projects change. -/

namespace Forge.CloneChanges

open Forge.CloneDomain
open Forge.CloneOperations
open Forge.CloneRepository
open Forge.JobQueue (JobEntry lockJob)
open Forge.Library.Identifier
open Forge.Library.KeyedTable
open Forge.Schema (Timestamp)

variable {world after : World} {operation : Op} {choice : Choice}

/-! ## Calls -/

abbrev withDb (world : World) (db : Db) : World := { world with db }

abbrev withDisk (world : World) (disk : Disk) : World := { world with disk }

@[simp] theorem amend_past_self (world : World) (actor : Actor) (set : Past → Past) :
    (world.amend actor set).past actor = set (world.past actor) := Function.update_self ..

theorem amend_past_of_ne (world : World) {actor other : Actor} (set : Past → Past)
    (differs : other ≠ actor) : (world.amend actor set).past other = world.past other :=
  Function.update_of_ne differs ..

/-- The retry that `performRetry` notes. -/
def retryEntry (world : World) (actor : Actor) (previous : ProjectCloneAttempt)
    (requester : Option Uuid) : Retry where
  previousId := previous.id
  attempt := previous.attempt
  status := statusOf world.db previous.id
  requester
  failure := (world.past actor).failure

/-- What a call does when it takes effect; a call without effect is among them. -/
inductive Effect (world : World) : Op → World → Prop
  | same {operation : Op} : Effect world operation world
  | dequeue {workerId : String} (jobId : Uuid) (now : Timestamp) :
      Effect world (.dequeue workerId)
        ((withDb world { world.db with jobs := lockJob world.db.jobs jobId workerId now }).amend
          (.worker workerId) fun past => { past with holding := some jobId })
  | completeJob {workerId : String} {jobId : Uuid} :
      Effect world (.completeJob workerId jobId)
        ((withDb world { world.db with jobs := JobQueue.complete world.db.jobs jobId }).amend
          (.worker workerId) fun past => { past with holding := none })
  | failJob {workerId : String} {jobId : Uuid} {errorMessage : String} (now : Timestamp) :
      Effect world (.failJob workerId jobId errorMessage)
        ((withDb world { world.db with
            jobs := JobQueue.fail world.db.jobs jobId errorMessage now }).amend
          (.worker workerId) fun past => { past with holding := none })
  | claim {workerId : String} {projectId jobId : Uuid} {attempt : Nat} {leaseTtl : Timestamp}
      {row : ProjectCloneAttempt} (lease : Timestamp)
      (found : world.db.attempts.find? (claimable projectId attempt) = some row) :
      Effect world (.claimForCloning workerId projectId attempt jobId leaseTtl)
        ((withDb world (claimForCloning world.db projectId attempt workerId jobId lease).1).own
          row.id workerId)
  | setCredentialId {attemptId credentialId : Uuid} :
      Effect world (.setCredentialId attemptId credentialId)
        (withDb world (setCredentialId world.db attemptId credentialId))
  | setContainerId {attemptId : Uuid} {containerId : String} :
      Effect world (.setContainerId attemptId containerId)
        (withDb world (setContainerId world.db attemptId containerId))
  | publish {workerId : String} {attemptId projectId : Uuid} {target : TargetPath}
      {success : CloneSuccess} {disk : Disk} {tree : Tree} (now : Timestamp)
      (live : liveDirName world.db projectId = some target.dirName.value)
      (renamed : world.disk.rename attemptId target = some (disk, tree)) :
      Effect world (.publishReadyLocked workerId attemptId projectId target success)
        ((withDb (world.publish disk ⟨attemptId, workerId, target⟩)
          (publishReady world.db attemptId success now).1).prove attemptId (some tree))
  | rename {workerId : String} {attemptId projectId : Uuid} {target : TargetPath}
      {success : CloneSuccess} {disk : Disk} {tree : Tree}
      (live : liveDirName world.db projectId = some target.dirName.value)
      (renamed : world.disk.rename attemptId target = some (disk, tree)) :
      Effect world (.publishReadyLocked workerId attemptId projectId target success)
        (world.publish disk ⟨attemptId, workerId, target⟩)
  | cancel {attemptId : Uuid} :
      Effect world (.cancelAttempt attemptId) (withDb world (cancelAttempt world.db attemptId).1)
  | force {attemptId : Uuid} {success : CloneSuccess} (now : Timestamp) :
      Effect world (.forceReady attemptId success)
        (withDb world (forceReady world.db attemptId success now).1)
  | adopt {recovery : Recovery} {success : CloneSuccess} {row : ProjectCloneAttempt}
      (now : Timestamp)
      (found : world.db.attempts.find? (adoptable recovery.attemptId) = some row) :
      Effect world (.adoptPublishedReady recovery success)
        ((withDb world (adoptPublishedReady world.db recovery.attemptId success now).1).prove
          recovery.attemptId ((world.past (.reconciler recovery.recovererId)).found.map Prod.snd))
  | settle {actor : Actor} {attemptId : Uuid} :
      Effect world (.finalizeFailed actor attemptId) (world.settle (isRecovery actor attemptId))
  | failUnheard {actor : Actor} {attemptId : Uuid} :
      Effect world (.finalizeFailed actor attemptId)
        ((withDb world (finalizeFailed world.db attemptId).1).settle (isRecovery actor attemptId))
  | fail {actor : Actor} {attemptId : Uuid} :
      Effect world (.finalizeFailed actor attemptId)
        (((withDb world (finalizeFailed world.db attemptId).1).settle
          (isRecovery actor attemptId)).amend actor fun past =>
            { past with failure := some (attemptId, (finalizeFailed world.db attemptId).2.isSome) })
  | retryLost {actor : Actor} {previous : ProjectCloneAttempt} {requester : Option Uuid}
      {delaySecs : Option Nat} :
      Effect world (.scheduleRetry actor previous requester delaySecs)
        (world.amend actor fun past => { past with failure := none })
  | scheduleRetry {actor : Actor} {previous : ProjectCloneAttempt} {requester : Option Uuid}
      {delaySecs : Option Nat} {db : Db} (runAfter : Option Timestamp) (id outboxId : Uuid)
      (now : Timestamp)
      (scheduled : scheduleRetry world.db previous runAfter id outboxId now = some (db, true)) :
      Effect world (.scheduleRetry actor previous requester delaySecs)
        (({ world with
            db
            retries := retryEntry world actor previous requester :: world.retries }).amend actor
          fun past => { past with failure := none })
  | claimExpired {recovererId : String} {leaseTtl : Timestamp} {limit : Nat} (lease : Timestamp)
      (locked : List Uuid) (now : Timestamp) :
      Effect world (.claimExpiredCloning recovererId leaseTtl limit)
        (withDb world (claimExpiredCloning world.db recovererId lease limit locked now).1)
  | reenqueue {candidate : ReconcileCandidate} {db : Db} (id : Uuid) (now : Timestamp)
      (reenqueued : reenqueueOutbox world.db candidate id now = some db) :
      Effect world (.reenqueueOutbox candidate) (withDb world db)
  | prepareStaging {attemptId organizationId workspaceId : Uuid} :
      Effect world (.prepareStaging attemptId organizationId workspaceId)
        (withDisk world (world.disk.prepareStaging attemptId organizationId workspaceId))
  | cleanupStaging {attemptId : Uuid} :
      Effect world (.cleanupStaging attemptId)
        (withDisk world (world.disk.removeStaging attemptId))
  | run {attemptId : Uuid} :
      Effect world (.run attemptId) (withDisk world (world.disk.clone attemptId))
  | look {recovery : Recovery} {target : TargetPath} {tree : Tree}
      (found : world.disk.target target = some tree) :
      Effect world (.symlinkMetadata (some recovery) target)
        (world.amend (.reconciler recovery.recovererId) fun past =>
          { past with found := some (recovery.attemptId, tree) })

def recovers : Op → Option Recovery
  | .projectDirName recovery _ _ => recovery
  | .symlinkMetadata recovery _ => recovery
  | .adoptPublishedReady recovery _ => some recovery
  | _ => none

variable (world choice) in
theorem access_state {α : Type} (result : World × Except AppError α) :
    (access world choice result).1 = world ∨ (access world choice result).1 = result.1 := by
  rw [access]
  split
  · by_cases reached : choice.reached = true
    · exact .inr (if_pos reached)
    · exact .inl (if_neg reached)
  · exact .inr rfl

theorem effect_access {α : Type} {result : World × Except AppError α}
    (effect : Effect world operation result.1) :
    Effect world operation (access world choice result).1 := by
  rcases access_state world choice result with unchanged | done
  · rw [unchanged]
    exact .same
  · rwa [done]

variable (world choice) in
@[simp] theorem reading_state {α : Type} (answer : α) :
    (reading world choice answer).1 = world := by
  rcases access_state world choice (world, .ok answer) with same | same
  · exact same
  · exact same

theorem deciding_state {α : Type} (recovery : Option Recovery) (goesOn : α → Bool)
    (result : World × Except AppError α) :
    (deciding recovery goesOn result).1 = result.1 ∨
      (deciding recovery goesOn result).1 = result.1.giveUp recovery := by
  obtain ⟨world, err | value⟩ := result
  · exact .inr rfl
  · by_cases goes : goesOn value = true
    · exact .inl (if_pos goes)
    · exact .inr (if_neg goes)

theorem effect_performDequeue {workerId : String} {locked : List Uuid} {now : Timestamp} :
    Effect world (.dequeue workerId) (performDequeue world workerId locked now).1 := by
  rw [performDequeue]
  split
  case h_1 => exact .same
  case h_2 job found => exact .dequeue job.id now

section Transition

variable {db : Db} {hits : ProjectCloneAttempt → Bool} {row : ProjectCloneAttempt}
  {set : ProjectCloneAttempt → ProjectCloneAttempt} {keeps : ∀ row, (set row).id = row.id}
  {summary : CloneStatus}

theorem transition_none (missed : db.attempts.find? hits = none) :
    transition db hits set keeps summary = (db, none) := by
  rw [transition, missed]

theorem transition_some (found : db.attempts.find? hits = some row) :
    transition db hits set keeps summary =
      (setProjectCloneStatus { db with attempts := db.attempts.update hits set keeps }
        row.projectId summary, some (set row)) := by
  rw [transition, found]

theorem mem_transition {other : ProjectCloneAttempt} :
    other ∈ (transition db hits set keeps summary).1.attempts ↔
      ∃ old ∈ db.attempts, other = if hits old then set old else old := by
  cases found : db.attempts.find? hits with
  | none =>
      rw [transition_none found]
      have missed := Table.find?_eq_none.mp found
      constructor
      · intro member
        exact ⟨other, member, by rw [missed other member]; rfl⟩
      · rintro ⟨old, member, rfl⟩
        rw [missed old member]
        exact member
  | some row =>
      rw [transition_some found]
      exact @Table.mem_update _ _ _ db.attempts hits set keeps other

variable {success : CloneSuccess} {now : Timestamp}

theorem makeReady_none (missed : db.attempts.find? hits = none) :
    makeReady db hits success now = (db, none) := transition_none missed

theorem makeReady_some (found : db.attempts.find? hits = some row) :
    makeReady db hits success now =
      (setProjectCloneStatus
        { db with
          attempts := db.attempts.update hits (ProjectCloneAttempt.readied success now)
            fun _ => rfl } row.projectId .ready, some (row.readied success now)) :=
  transition_some found

end Transition

theorem effect_performClaim {workerId : String} {projectId jobId : Uuid} {attempt : Nat}
    {leaseTtl lease : Timestamp} :
    Effect world (.claimForCloning workerId projectId attempt jobId leaseTtl)
      (performClaim world workerId projectId attempt jobId lease).1 := by
  cases found : world.db.attempts.find? (claimable projectId attempt) with
  | none =>
      have missed : performClaim world workerId projectId attempt jobId lease =
          (world, .ok none) := by
        rw [performClaim, claimForCloning, transition_none found]
      rw [missed]
      exact .same
  | some row =>
      have hit : (performClaim world workerId projectId attempt jobId lease).1 =
          (withDb world (claimForCloning world.db projectId attempt workerId jobId lease).1).own
            row.id workerId := by
        rw [performClaim, claimForCloning, transition_some found]
      rw [hit]
      exact .claim lease found

theorem effect_performPublish {workerId : String} {attemptId projectId : Uuid}
    {target : TargetPath} {success : CloneSuccess} :
    Effect world (.publishReadyLocked workerId attemptId projectId target success)
      (performPublish world workerId attemptId projectId target success choice).1 := by
  rw [performPublish]
  split
  case isFalse =>
      rw [reading_state]
      exact .same
  case isTrue live =>
      split
      case h_2 =>
          rw [reading_state]
          exact .same
      case h_1 disk tree renamed _ =>
          have published : Effect world (.publishReadyLocked workerId attemptId projectId target
              success) _ := .publish choice.now live renamed
          dsimp only
          split
          · exact published
          · split
            · exact published
            · split
              · exact .rename live renamed
              · exact .same

theorem effect_performForce {attemptId : Uuid} {success : CloneSuccess} {now : Timestamp} :
    Effect world (.forceReady attemptId success) (performForce world attemptId success now).1 := by
  cases found : world.db.attempts.find? (forcible attemptId) with
  | none =>
      have missed : performForce world attemptId success now = (world, .ok false) := by
        rw [performForce, forceReady, makeReady_none found]
      rw [missed]
      exact .same
  | some row =>
      have hit : (performForce world attemptId success now).1 =
          withDb world (forceReady world.db attemptId success now).1 := by
        rw [performForce, forceReady, makeReady_some found]
        rfl
      rw [hit]
      exact .force now

theorem effect_performAdopt {recovery : Recovery} {success : CloneSuccess} {now : Timestamp} :
    Effect world (.adoptPublishedReady recovery success)
      (performAdopt world recovery success now).1 := by
  cases found : world.db.attempts.find? (adoptable recovery.attemptId) with
  | none =>
      have missed : performAdopt world recovery success now = (world, .ok false) := by
        rw [performAdopt, adoptPublishedReady, makeReady_none found]
      rw [missed]
      exact .same
  | some row =>
      have hit : (performAdopt world recovery success now).1 =
          (withDb world (adoptPublishedReady world.db recovery.attemptId success now).1).prove
            recovery.attemptId
            ((world.past (.reconciler recovery.recovererId)).found.map Prod.snd) := by
        rw [performAdopt, adoptPublishedReady, makeReady_some found]
      rw [hit]
      exact .adopt now found

theorem effect_settled {actor : Actor} {attemptId : Uuid} :
    Effect world (.finalizeFailed actor attemptId)
      (settled actor attemptId (access world choice (performFail world attemptId))).1 := by
  rw [access]
  split
  · by_cases reached : choice.reached = true
    · rw [if_pos reached]
      exact .failUnheard
    · rw [if_neg reached]
      exact .settle
  · exact .fail

theorem effect_answered {actor : Actor} {previous : ProjectCloneAttempt}
    {requester : Option Uuid} {delaySecs : Option Nat} {runAfter : Option Timestamp}
    {id outboxId : Uuid} {now : Timestamp} :
    Effect world (.scheduleRetry actor previous requester delaySecs)
      (answered actor (access world choice
        (performRetry world actor previous requester runAfter id outboxId now))).1 := by
  rw [answered]
  rcases access_state world choice
    (performRetry world actor previous requester runAfter id outboxId now) with same | done
  · rw [same]
    exact .retryLost
  · rw [done, performRetry]
    split
    case h_1 => exact .retryLost
    case h_2 => exact .retryLost
    case h_3 db scheduled => exact .scheduleRetry runAfter id outboxId now scheduled

theorem effect_performLook {recovery : Option Recovery} {target : TargetPath} :
    Effect world (.symlinkMetadata recovery target) (performLook world recovery target).1 := by
  cases found : world.disk.target target with
  | none =>
      simp only [performLook, found]
      exact .same
  | some tree =>
      cases recovery with
      | none =>
          simp only [performLook, found]
          exact .same
      | some recovery =>
          simp only [performLook, found]
          exact .look found

theorem effect_performRun {attemptId : Uuid} {outcome : CloneRunOutcome} {durationMs : Int} :
    Effect world (.run attemptId) (performRun world attemptId outcome durationMs).1 := by
  cases outcome with
  | ready branch headSha bytes => exact .run
  | _ => exact .same

theorem effect_putOr {candidate : ReconcileCandidate} {id : Uuid} {now : Timestamp} :
    Effect world (.reenqueueOutbox candidate)
      (putOr world (reenqueueOutbox world.db candidate id now) ()).1 := by
  cases reenqueued : reenqueueOutbox world.db candidate id now with
  | none => exact .same
  | some db => exact .reenqueue id now reenqueued

theorem perform_effect (world : World) (operation : Op) (choice : Choice) (free : Bool) :
    ∃ middle, Effect world operation middle ∧
      ((perform world operation choice free).1 = middle ∨
        (perform world operation choice free).1 = middle.giveUp (recovers operation)) := by
  have plain : ∀ {operation : Op} {free : Bool},
      Effect world operation (perform world operation choice free).1 →
        ∃ middle, Effect world operation middle ∧
          ((perform world operation choice free).1 = middle ∨
            (perform world operation choice free).1 = middle.giveUp (recovers operation)) :=
    fun effect => ⟨_, effect, .inl rfl⟩
  cases operation with
  | dequeue => exact plain (effect_access effect_performDequeue)
  | completeJob => exact plain (effect_access .completeJob)
  | failJob => exact plain (effect_access (.failJob choice.now))
  | claimForCloning => exact plain (effect_access effect_performClaim)
  | setCredentialId => exact plain (effect_access .setCredentialId)
  | setContainerId => exact plain (effect_access .setContainerId)
  | publishReadyLocked => exact plain effect_performPublish
  | cancelAttempt => exact plain (effect_access .cancel)
  | forceReady => exact plain (effect_access effect_performForce)
  | finalizeFailed => exact plain effect_settled
  | scheduleRetry => exact plain effect_answered
  | claimExpiredCloning => exact plain (effect_access (.claimExpired _ _ choice.now))
  | reenqueueOutbox => exact plain (effect_access effect_putOr)
  | prepareStaging => exact plain (effect_access .prepareStaging)
  | cleanupStaging => exact plain (effect_access .cleanupStaging)
  | run => exact plain (effect_access effect_performRun)
  | findProject organizationId projectId =>
      refine plain (effect_access ?_)
      rw [performFindProject]
      split
      · exact .same
      · exact .same
  | projectDirName recovery organizationId projectId =>
      have unchanged := reading_state world choice
        (projectDirName world.db organizationId projectId)
      have decided := deciding_state recovery validDirName
        (reading world choice (projectDirName world.db organizationId projectId))
      rw [unchanged] at decided
      exact ⟨world, .same, decided⟩
  | symlinkMetadata recovery target =>
      exact ⟨_, effect_access effect_performLook, deciding_state recovery (fun _ => true) _⟩
  | adoptPublishedReady recovery success =>
      exact ⟨_, effect_access effect_performAdopt, deciding_state (some recovery) id _⟩
  | findAttempt | findAttemptById | latestAttemptSummary | projectIsLive | loadCloneSuccess
  | inFlightAttemptTenants | distinctAttemptTenants | findMaterializedUnfinalized
  | findOrphanedQueued | readStaging | ensureProjectsRoot | resolveCredential | sweepOrphans =>
      refine plain ?_
      rw [perform, reading_state]
      exact .same

/-! ## Rows -/

/-- What a statement does to the row of an attempt. -/
inductive AttemptStep : ProjectCloneAttempt → ProjectCloneAttempt → Prop
  | stay (row : ProjectCloneAttempt) : AttemptStep row row
  | claim {row : ProjectCloneAttempt} (workerId : String) (jobId : Uuid) (lease : Timestamp)
      (queued : row.status = .queued) :
      AttemptStep row { row with
        status := .cloning
        workerId := some workerId
        jobId := some jobId
        leaseExpiresAt := some lease }
  | ready {row : ProjectCloneAttempt} (success : CloneSuccess) (now : Timestamp) :
      AttemptStep row (row.readied success now)
  | stamp {row : ProjectCloneAttempt} (now : Timestamp) :
      AttemptStep row { row with materializedAt := row.materializedAt <|> some now }
  | close {row : ProjectCloneAttempt} (status : CloneAttemptStatus)
      (flying : inFlight row.status = true) (ended : status = .failed ∨ status = .cancelled) :
      AttemptStep row { row with status, leaseExpiresAt := none }
  | note {row : ProjectCloneAttempt} (credentialId : Option Uuid) (containerId : Option String) :
      AttemptStep row { row with credentialId, containerId }
  | lease {row : ProjectCloneAttempt} (workerId : Option String) (lease : Timestamp) :
      AttemptStep row { row with workerId, leaseExpiresAt := some lease }

/-- One attempt, whatever became of it. -/
structure SameAttempt (before after : ProjectCloneAttempt) : Prop where
  id : after.id = before.id
  organizationId : after.organizationId = before.organizationId
  workspaceId : after.workspaceId = before.workspaceId
  projectId : after.projectId = before.projectId
  attempt : after.attempt = before.attempt

namespace AttemptStep

variable {before after : ProjectCloneAttempt}

theorem same (step : AttemptStep before after) : SameAttempt before after := by
  cases step <;> exact ⟨rfl, rfl, rfl, rfl, rfl⟩

theorem queued (step : AttemptStep before after) (queued : after.status = .queued) :
    before.status = .queued := by
  cases step with
  | claim => cases queued
  | ready => cases queued
  | close status _ ended =>
      rcases ended with rfl | rfl
      · cases queued
      · cases queued
  | _ => exact queued

theorem ended (step : AttemptStep before after) (ended : before.status.isTerminal = true) :
    after.status.isTerminal = true := by
  cases step with
  | claim _ _ _ queued =>
      rw [queued] at ended
      cases ended
  | ready => rfl
  | close status _ closed =>
      rcases closed with rfl | rfl
      · rfl
      · rfl
  | _ => exact ended

end AttemptStep

/-- What a statement does to the row of a project. -/
structure ProjectStep (before after : Project) : Prop where
  id : after.id = before.id
  organizationId : after.organizationId = before.organizationId
  workspaceId : after.workspaceId = before.workspaceId
  workspaceDirName : after.workspaceDirName = before.workspaceDirName
  live : after.isLive = true → before.isLive = true

theorem ProjectStep.refl (project : Project) : ProjectStep project project :=
  ⟨rfl, rfl, rfl, rfl, fun live => live⟩

/-- No attempt and no project is gone, and which attempts are new. -/
structure Onward (born : ProjectCloneAttempt → Prop) (before after : Db) : Prop where
  attempts : Table.Evolves AttemptStep born before.attempts after.attempts
  projects : Table.Evolves ProjectStep (fun _ => True) before.projects after.projects

def IsRetry (previous row : ProjectCloneAttempt) : Prop := ∃ id now, row = retryOf previous id now

def Born : Op → ProjectCloneAttempt → Prop
  | .scheduleRetry _ previous _ _ => IsRetry previous
  | _ => fun _ => False

section Statements

variable {db : Db} {born : ProjectCloneAttempt → Prop}

theorem Onward.refl (db : Db) : Onward born db db :=
  ⟨.refl AttemptStep.stay _, .refl ProjectStep.refl _⟩

variable (db) in
theorem projects_setProjectCloneStatus (projectId : Uuid) (status : CloneStatus) :
    Table.Evolves ProjectStep (fun _ => True) db.projects
      (setProjectCloneStatus db projectId status).projects := by
  apply Table.Evolves.of_update ProjectStep.refl
  · exact fun project _ _ => ⟨rfl, rfl, rfl, rfl, fun live => live⟩
  · exact fun _ => rfl

theorem onward_update {hits : ProjectCloneAttempt → Bool}
    {set : ProjectCloneAttempt → ProjectCloneAttempt} (keeps : ∀ row, (set row).id = row.id)
    (sets : ∀ row, hits row = true → AttemptStep row (set row)) :
    Onward born db { db with attempts := db.attempts.update hits set keeps } := by
  refine ⟨?_, .refl ProjectStep.refl _⟩
  apply Table.Evolves.of_update AttemptStep.stay
  · exact fun row _ => sets row
  · exact keeps

theorem onward_transition {hits : ProjectCloneAttempt → Bool}
    {set : ProjectCloneAttempt → ProjectCloneAttempt} {keeps : ∀ row, (set row).id = row.id}
    {summary : CloneStatus} (sets : ∀ row, hits row = true → AttemptStep row (set row)) :
    Onward born db (transition db hits set keeps summary).1 := by
  cases found : db.attempts.find? hits with
  | none =>
      rw [transition_none found]
      exact .refl db
  | some row =>
      rw [transition_some found]
      exact ⟨(onward_update keeps sets).attempts, projects_setProjectCloneStatus _ row.projectId summary⟩

theorem onward_claim {projectId jobId : Uuid} {attempt : Nat} {workerId : String}
    {lease : Timestamp} :
    Onward born db (claimForCloning db projectId attempt workerId jobId lease).1 := by
  refine onward_transition fun row hit => .claim workerId jobId lease ?_
  simp only [claimable, Bool.and_eq_true, beq_iff_eq] at hit
  exact hit.2

theorem onward_makeReady {hits : ProjectCloneAttempt → Bool} {success : CloneSuccess}
    {now : Timestamp} : Onward born db (makeReady db hits success now).1 :=
  onward_transition fun _ _ => .ready success now

theorem onward_publish {attemptId : Uuid} {success : CloneSuccess} {now : Timestamp} :
    Onward born db (publishReady db attemptId success now).1 := by
  cases found : db.attempts.find? (finalizable attemptId) with
  | none =>
      rw [publishReady, makeReady_none found]
      exact onward_update (by exact fun _ => rfl) fun _ _ => .stamp now
  | some row =>
      rw [publishReady, makeReady_some found]
      have step : Onward born db (makeReady db (finalizable attemptId) success now).1 :=
        onward_makeReady
      rwa [makeReady_some found] at step

theorem inFlight_of_openAt {attemptId : Uuid} {row : ProjectCloneAttempt}
    (hit : openAt attemptId row = true) : inFlight row.status = true := by
  simp only [openAt, Bool.and_eq_true] at hit
  exact hit.2

theorem onward_cancel {attemptId : Uuid} : Onward born db (cancelAttempt db attemptId).1 :=
  onward_transition fun _ hit => .close .cancelled (inFlight_of_openAt hit) (.inr rfl)

theorem onward_fail {attemptId : Uuid} : Onward born db (finalizeFailed db attemptId).1 :=
  onward_transition fun _ hit => .close .failed (inFlight_of_openAt hit) (.inl rfl)

theorem onward_setCredentialId {attemptId credentialId : Uuid} :
    Onward born db (setCredentialId db attemptId credentialId) :=
  onward_update (by exact fun _ => rfl) fun row _ => .note (some credentialId) row.containerId

theorem onward_setContainerId {attemptId : Uuid} {containerId : String} :
    Onward born db (setContainerId db attemptId containerId) :=
  onward_update (by exact fun _ => rfl) fun row _ => .note row.credentialId (some containerId)

theorem onward_extendLease {attemptId : Uuid} {workerId : String} {lease : Timestamp} :
    Onward born db (extendLease db attemptId workerId lease) :=
  onward_update (by exact fun _ => rfl) fun row _ => .lease row.workerId lease

theorem onward_claimExpired {recovererId : String} {lease now : Timestamp} {limit : Nat}
    {locked : List Uuid} : Onward born db (claimExpiredCloning db recovererId lease limit locked now).1 :=
  onward_update (by exact fun _ => rfl) fun _ _ => .lease (some recovererId) lease

theorem insertOutbox_cases {payload : CloneOutboxPayload} {id : Uuid} {now : Timestamp} {next : Db}
    (inserted : insertOutbox db payload id now = some next) :
    next = db ∨ ∃ outbox, db.outbox.insert? (newOutbox id payload now) = some outbox ∧
      next = { db with outbox } := by
  rw [insertOutbox] at inserted
  split at inserted
  · exact .inl (Option.some.inj inserted).symm
  · obtain ⟨outbox, grown, rfl⟩ := Option.map_eq_some_iff.mp inserted
    exact .inr ⟨outbox, grown, rfl⟩

theorem onward_insertOutbox {payload : CloneOutboxPayload} {id : Uuid} {now : Timestamp}
    {next : Db} (inserted : insertOutbox db payload id now = some next) : Onward born db next := by
  rcases insertOutbox_cases inserted with rfl | ⟨outbox, _, rfl⟩
  · exact .refl next
  · exact ⟨.refl AttemptStep.stay _, .refl ProjectStep.refl _⟩

theorem onward_reenqueue {candidate : ReconcileCandidate} {id : Uuid} {now : Timestamp} {next : Db}
    (reenqueued : reenqueueOutbox db candidate id now = some next) : Onward born db next :=
  onward_insertOutbox reenqueued

theorem scheduleRetry_new {previous : ProjectCloneAttempt} {runAfter : Option Timestamp}
    {id outboxId : Uuid} {now : Timestamp} {next : Db}
    (scheduled : scheduleRetry db previous runAfter id outboxId now = some (next, true)) :
    (∀ row ∈ db.attempts, row.projectId = previous.projectId →
        row.attempt ≠ previous.attempt + 1) ∧
      ∃ attempts middle, db.attempts.insert? (retryOf previous id now) = some attempts ∧
        insertOutbox { db with attempts } (payloadOf (retryOf previous id now) runAfter) outboxId
          now = some middle ∧
        next = setProjectCloneStatus middle previous.projectId .queued := by
  rw [scheduleRetry] at scheduled
  split at scheduled
  case isTrue => cases scheduled
  case isFalse absent =>
      constructor
      · intro row member project number
        refine absent (Table.any_eq_true.mpr ⟨row, member, ?_⟩)
        simp [retryOf, queuedAttempt, project, number]
      · simp only [Option.bind_eq_bind, Option.bind_eq_some_iff, Option.some.injEq,
          Prod.mk.injEq] at scheduled
        obtain ⟨attempts, inserted, middle, requested, rfl, -⟩ := scheduled
        exact ⟨attempts, middle, inserted, requested, rfl⟩

theorem onward_scheduleRetry {previous : ProjectCloneAttempt} {runAfter : Option Timestamp}
    {id outboxId : Uuid} {now : Timestamp} {next : Db}
    (scheduled : scheduleRetry db previous runAfter id outboxId now = some (next, true)) :
    Onward (IsRetry previous) db next := by
  obtain ⟨-, attempts, middle, inserted, requested, rfl⟩ := scheduleRetry_new scheduled
  have grown : Table.Evolves AttemptStep (IsRetry previous) db.attempts attempts :=
    .of_insert AttemptStep.stay ⟨id, now, rfl⟩ inserted
  have kept : middle.attempts = attempts ∧ middle.projects = db.projects := by
    rcases insertOutbox_cases requested with rfl | ⟨outbox, _, rfl⟩
    · exact ⟨rfl, rfl⟩
    · exact ⟨rfl, rfl⟩
  have summed := projects_setProjectCloneStatus middle previous.projectId .queued
  rw [kept.2] at summed
  exact ⟨by rw [← kept.1] at grown; exact grown, summed⟩

theorem onward_effect (effect : Effect world operation after) :
    Onward (Born operation) world.db after.db := by
  cases effect with
  | claim => exact onward_claim
  | setCredentialId => exact onward_setCredentialId
  | setContainerId => exact onward_setContainerId
  | publish => exact onward_publish
  | cancel => exact onward_cancel
  | force => exact onward_makeReady
  | adopt => exact onward_makeReady
  | failUnheard => exact onward_fail
  | fail => exact onward_fail
  | scheduleRetry _ _ _ _ scheduled => exact onward_scheduleRetry scheduled
  | claimExpired => exact onward_claimExpired
  | reenqueue _ _ reenqueued => exact onward_reenqueue reenqueued
  | dequeue | completeJob | failJob =>
      exact ⟨.refl AttemptStep.stay _, .refl ProjectStep.refl _⟩
  | _ => exact .refl _

end Statements

/-! ## Beside the calls -/

section Outside

variable {db : Db} {born : ProjectCloneAttempt → Prop}

theorem createWithClone_cases {input : ProjectCreate} {attemptId outboxId : Uuid}
    {now : Timestamp} {next : Db}
    (created : createWithClone db input attemptId outboxId now = some next) :
    ∃ projects, db.projects.insert? input.project = some projects ∧
      ((input.repositoryUrl = none ∧ next = { db with projects }) ∨
        ∃ url attempts outbox, input.repositoryUrl = some url ∧
          db.attempts.insert? (input.attempt url attemptId now) = some attempts ∧
          db.outbox.insert? (newOutbox outboxId (payloadOf (input.attempt url attemptId now) none)
            now) = some outbox ∧
          next = { db with projects, attempts, outbox }) := by
  rw [createWithClone] at created
  split at created
  case isTrue => cases created
  case isFalse =>
      obtain ⟨projects, inserted, rest⟩ := Option.bind_eq_some_iff.mp created
      refine ⟨projects, inserted, ?_⟩
      cases given : input.repositoryUrl with
      | none =>
          rw [given] at rest
          exact .inl ⟨rfl, (Option.some.inj rest).symm⟩
      | some url =>
          rw [given] at rest
          simp only [Option.bind_eq_bind, Option.bind_eq_some_iff, Option.some.injEq] at rest
          obtain ⟨attempts, first, outbox, request, rfl⟩ := rest
          exact .inr ⟨url, attempts, outbox, rfl, first, request, rfl⟩

def IsFirst (input : ProjectCreate) (row : ProjectCloneAttempt) : Prop :=
  ∃ url id now, row = input.attempt url id now

theorem onward_create {input : ProjectCreate} {attemptId outboxId : Uuid} {now : Timestamp}
    {next : Db} (created : createWithClone db input attemptId outboxId now = some next) :
    Onward (IsFirst input) db next := by
  obtain ⟨projects, inserted, ⟨-, rfl⟩ | ⟨url, attempts, outbox, -, first, -, rfl⟩⟩ :=
    createWithClone_cases created
  · exact ⟨.refl AttemptStep.stay _, .of_insert ProjectStep.refl trivial inserted⟩
  · exact ⟨.of_insert AttemptStep.stay ⟨url, attemptId, now, rfl⟩ first,
      .of_insert ProjectStep.refl trivial inserted⟩

theorem onward_delete {organizationId projectId : Uuid} {now : Timestamp} :
    Onward born db (deleteProject db organizationId projectId now) := by
  refine ⟨.refl AttemptStep.stay _, ?_⟩
  apply Table.Evolves.of_update ProjectStep.refl
  · exact fun project _ _ => ⟨rfl, rfl, rfl, rfl, nofun⟩
  · exact fun _ => rfl

variable (db) in
theorem relay_cases (jobId : Uuid) (locked : List Uuid) (now : Timestamp) :
    relayNextCloneOutbox db jobId locked now = db ∨
      ∃ row ∈ db.outbox, row.publishedAt = none ∧
        ((∃ jobs, JobQueue.enqueue db.jobs (relayedJob row now) jobId now = some jobs ∧
            relayNextCloneOutbox db jobId locked now = markPublished { db with jobs } row.id now) ∨
          (db.jobs.any (·.uniqueKey == (relayedJob row now).uniqueKey) = true ∧
            relayNextCloneOutbox db jobId locked now = markPublished db row.id now)) := by
  cases next : nextCloneOutbox db locked with
  | none =>
      rw [relayNextCloneOutbox, next]
      exact .inl rfl
  | some row =>
      have listed := ParticipantStatements.mem_of_selectFirst next
      obtain ⟨member, waits⟩ := List.mem_filter.mp listed
      have unpublished : row.publishedAt = none := by
        simp only [Bool.and_eq_true, Option.isNone_iff_eq_none] at waits
        exact waits.1
      cases queued : JobQueue.enqueue db.jobs (relayedJob row now) jobId now with
      | some jobs =>
          refine .inr ⟨row, member, unpublished, .inl ⟨jobs, queued, ?_⟩⟩
          simp only [relayNextCloneOutbox, next, queued]
      | none =>
          by_cases known : db.jobs.any (·.uniqueKey == (relayedJob row now).uniqueKey) = true
          · refine .inr ⟨row, member, unpublished, .inr ⟨known, ?_⟩⟩
            simp only [relayNextCloneOutbox, next, queued, known, if_true]
          · refine .inl ?_
            simp only [relayNextCloneOutbox, next, queued, if_neg known]

theorem onward_relay {jobId : Uuid} {locked : List Uuid} {now : Timestamp} :
    Onward born db (relayNextCloneOutbox db jobId locked now) := by
  rcases relay_cases db jobId locked now with same | ⟨row, -, -, ⟨jobs, -, same⟩ | ⟨-, same⟩⟩
  · rw [same]
    exact .refl db
  · rw [same]
    exact ⟨.refl AttemptStep.stay _, .refl ProjectStep.refl _⟩
  · rw [same]
    exact ⟨.refl AttemptStep.stay _, .refl ProjectStep.refl _⟩

end Outside

end Forge.CloneChanges
