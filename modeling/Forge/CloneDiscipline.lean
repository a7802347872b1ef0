import Forge.CloneChanges

/-! What the worker, its reconciler and a retry request may do, and that every call leaves alone
what the others rely upon. -/

namespace Forge.CloneDiscipline

open Forge.CloneChanges
open Forge.CloneOperations
open Forge.CloneRepository
open Forge.CloneWorker
open Forge.Library.Identifier
open Forge.Library.Interleaving
open Forge.Library.KeyedTable

variable {config : CloneWorkerConfig} {world after : World} {operation : Op} {db next : Db}
  {actor other : Actor} {id : Uuid} {workerId : String}

/-! ## Later rows -/

/-- The same attempt, not earlier in its life. -/
structure Later (before after : ProjectCloneAttempt) : Prop where
  same : SameAttempt before after
  queued : after.status = .queued → before.status = .queued
  ended : before.status.isTerminal = true → after.status.isTerminal = true

theorem Later.refl (row : ProjectCloneAttempt) : Later row row :=
  ⟨⟨rfl, rfl, rfl, rfl, rfl⟩, fun queued => queued, fun ended => ended⟩

theorem Later.trans {first second third : ProjectCloneAttempt} (left : Later first second)
    (right : Later second third) : Later first third where
  same := {
    id := right.same.id.trans left.same.id
    organizationId := right.same.organizationId.trans left.same.organizationId
    workspaceId := right.same.workspaceId.trans left.same.workspaceId
    projectId := right.same.projectId.trans left.same.projectId
    attempt := right.same.attempt.trans left.same.attempt }
  queued := fun queued => left.queued (right.queued queued)
  ended := fun ended => right.ended (left.ended ended)

theorem later_of_step {before after : ProjectCloneAttempt} (step : AttemptStep before after) :
    Later before after :=
  ⟨step.same, step.queued, step.ended⟩

theorem ProjectStep.trans {first second third : Project} (left : ProjectStep first second)
    (right : ProjectStep second third) : ProjectStep first third where
  id := right.id.trans left.id
  organizationId := right.organizationId.trans left.organizationId
  workspaceId := right.workspaceId.trans left.workspaceId
  workspaceDirName := right.workspaceDirName.trans left.workspaceDirName
  live := fun live => left.live (right.live live)

/-- Every attempt and every project is still there. -/
structure Follows (before after : Db) : Prop where
  attempts : ∀ row ∈ before.attempts, ∃ later ∈ after.attempts, Later row later
  projects : ∀ project ∈ before.projects, ∃ later ∈ after.projects, ProjectStep project later

theorem Follows.refl (db : Db) : Follows db db :=
  ⟨fun row member => ⟨row, member, .refl row⟩, fun project member => ⟨project, member, .refl project⟩⟩

theorem Follows.trans {first second third : Db} (left : Follows first second)
    (right : Follows second third) : Follows first third := by
  constructor
  · intro row member
    obtain ⟨middle, there, first⟩ := left.attempts row member
    obtain ⟨last, found, second⟩ := right.attempts middle there
    exact ⟨last, found, first.trans second⟩
  · intro project member
    obtain ⟨middle, there, first⟩ := left.projects project member
    obtain ⟨last, found, second⟩ := right.projects middle there
    exact ⟨last, found, ProjectStep.trans first second⟩

theorem follows_of_onward {born : ProjectCloneAttempt → Prop} (onward : Onward born db next) :
    Follows db next := by
  constructor
  · intro row member
    obtain ⟨later, there, -, step⟩ := onward.attempts.forward member
    exact ⟨later, there, later_of_step step⟩
  · intro project member
    obtain ⟨later, there, -, step⟩ := onward.projects.forward member
    exact ⟨later, there, step⟩

/-! ## Lasting facts -/

def Known (db : Db) (row : ProjectCloneAttempt) : Prop := ∃ current ∈ db.attempts, Later row current

def HasNumber (db : Db) (projectId : Uuid) (attempt : Nat) : Prop :=
  ∃ row ∈ db.attempts, row.projectId = projectId ∧ row.attempt = attempt

def Left (db : Db) (id : Uuid) : Prop := ∃ row ∈ db.attempts, row.id = id ∧ row.status ≠ .queued

def Ended (db : Db) (id : Uuid) : Prop :=
  ∃ row ∈ db.attempts, row.id = id ∧ row.status.isTerminal = true

def Dead (db : Db) (id : Uuid) : Prop :=
  ∃ row ∈ db.attempts, row.id = id ∧
    ∃ project ∈ db.projects, project.id = row.projectId ∧ project.isLive = false

def IsOf (db : Db) (id organizationId projectId : Uuid) : Prop :=
  ∃ row ∈ db.attempts, row.id = id ∧ row.organizationId = organizationId ∧ row.projectId = projectId

/-- The directory is the one of the project of the attempt. -/
def Aims (db : Db) (id : Uuid) (target : TargetPath) : Prop :=
  ∃ row ∈ db.attempts, row.id = id ∧ target.organizationId = row.organizationId ∧
    target.workspaceId = row.workspaceId ∧
      ∃ project ∈ db.projects, project.id = row.projectId ∧
        project.workspaceDirName = target.dirName.value

section Lasting

variable (follows : Follows db next)
include follows

theorem Known.onward {row : ProjectCloneAttempt} (known : Known db row) : Known next row := by
  obtain ⟨current, member, later⟩ := known
  obtain ⟨last, there, step⟩ := follows.attempts current member
  exact ⟨last, there, later.trans step⟩

theorem HasNumber.onward {projectId : Uuid} {attempt : Nat} (has : HasNumber db projectId attempt) :
    HasNumber next projectId attempt := by
  obtain ⟨row, member, project, number⟩ := has
  obtain ⟨last, there, step⟩ := follows.attempts row member
  exact ⟨last, there, step.same.projectId.trans project, step.same.attempt.trans number⟩

theorem Left.onward (left : Left db id) : Left next id := by
  obtain ⟨row, member, same, claimed⟩ := left
  obtain ⟨last, there, step⟩ := follows.attempts row member
  exact ⟨last, there, step.same.id.trans same, fun queued => claimed (step.queued queued)⟩

theorem Ended.onward (ended : Ended db id) : Ended next id := by
  obtain ⟨row, member, same, closed⟩ := ended
  obtain ⟨last, there, step⟩ := follows.attempts row member
  exact ⟨last, there, step.same.id.trans same, step.ended closed⟩

theorem Dead.onward (dead : Dead db id) : Dead next id := by
  obtain ⟨row, member, same, project, listed, key, deleted⟩ := dead
  obtain ⟨last, there, step⟩ := follows.attempts row member
  obtain ⟨later, found, moved⟩ := follows.projects project listed
  refine ⟨last, there, step.same.id.trans same, later, found, ?_, ?_⟩
  · exact moved.id.trans (key.trans step.same.projectId.symm)
  · exact Bool.eq_false_iff.mpr fun live => Bool.eq_false_iff.mp deleted (moved.live live)

theorem Aims.onward {target : TargetPath} (aims : Aims db id target) : Aims next id target := by
  obtain ⟨row, member, same, organization, workspace, project, listed, key, name⟩ := aims
  obtain ⟨last, there, step⟩ := follows.attempts row member
  obtain ⟨later, found, moved⟩ := follows.projects project listed
  refine ⟨last, there, step.same.id.trans same, ?_, ?_, later, found, ?_, ?_⟩
  · exact organization.trans step.same.organizationId.symm
  · exact workspace.trans step.same.workspaceId.symm
  · exact moved.id.trans (key.trans step.same.projectId.symm)
  · exact moved.workspaceDirName.trans name

end Lasting

/-! ## The rules -/

def Owns (world : World) (workerId : String) (id : Uuid) : Prop := world.owner id = some workerId

def Unpublished (world : World) (id : Uuid) : Prop :=
  ∀ publication ∈ world.publications, publication.attemptId ≠ id

/-- A retry after a failure that the actor recorded. -/
structure MayRetry (config : CloneWorkerConfig) (world : World) (actor : Actor)
    (previous : ProjectCloneAttempt) : Prop where
  known : Known world.db previous
  ended : Ended world.db previous.id
  below : previous.attempt < config.maxAttempts
  failed : ∃ hit, (world.past actor).failure = some (previous.id, hit)

def MayWork (config : CloneWorkerConfig) (world : World) (workerId : String) : Op → Prop
  | .dequeue worker => worker = workerId
  | .completeJob worker _ => worker = workerId
  | .failJob worker _ _ => worker = workerId
  | .claimForCloning worker _ _ _ _ => worker = workerId
  | .publishReadyLocked worker id projectId target _ => worker = workerId ∧
      Owns world workerId id ∧ (∃ organizationId, IsOf world.db id organizationId projectId) ∧
        Aims world.db id target
  | .cancelAttempt id => Dead world.db id
  | .finalizeFailed actor id => actor = .worker workerId ∧ Owns world workerId id ∧
      Unpublished world id
  | .scheduleRetry actor previous requester _ => actor = .worker workerId ∧ requester = none ∧
      MayRetry config world actor previous
  | .projectDirName recovery _ _ => recovery = none
  | .symlinkMetadata recovery _ => recovery = none
  | .adoptPublishedReady _ _ => False
  | .claimExpiredCloning _ _ _ => False
  | .reenqueueOutbox _ => False
  | _ => True

def MayReconcile (config : CloneWorkerConfig) (world : World) (recovererId : String) : Op → Prop
  | .projectDirName recovery organizationId projectId => ∃ id,
      recovery = some ⟨recovererId, id⟩ ∧ Left world.db id ∧
        IsOf world.db id organizationId projectId
  | .symlinkMetadata recovery target => ∃ id,
      recovery = some ⟨recovererId, id⟩ ∧ Left world.db id ∧ Aims world.db id target
  | .adoptPublishedReady recovery _ => recovery.recovererId = recovererId ∧
      Left world.db recovery.attemptId ∧
        ∃ tree, (world.past (.reconciler recovererId)).found = some (recovery.attemptId, tree)
  | .finalizeFailed actor id => actor = .reconciler recovererId ∧ Left world.db id ∧
      ⟨recovererId, id⟩ ∈ world.givenUp
  | .scheduleRetry actor previous requester _ => actor = .reconciler recovererId ∧
      requester = none ∧ MayRetry config world actor previous
  | .claimExpiredCloning recoverer _ _ => recoverer = recovererId
  | .reenqueueOutbox candidate => HasNumber world.db candidate.projectId candidate.attempt
  | .dequeue _ => False
  | .completeJob _ _ => False
  | .failJob _ _ _ => False
  | .claimForCloning _ _ _ _ _ => False
  | .publishReadyLocked _ _ _ _ _ => False
  | .cancelAttempt _ => False
  | _ => True

def MayRequest (world : World) (number : Nat) : Op → Prop
  | .findProject _ _ => True
  | .latestAttemptSummary _ _ => True
  | .scheduleRetry actor previous requester _ => actor = .request number ∧ requester.isSome ∧
      Known world.db previous ∧ Ended world.db previous.id
  | _ => False

def May (config : CloneWorkerConfig) (actor : Actor) (world : World) : Op → Prop :=
  match actor with
  | .worker workerId => MayWork config world workerId
  | .reconciler recovererId => MayReconcile config world recovererId
  | .request number => MayRequest world number

/-- What an actor relies upon while it waits for its turn. -/
structure Relies (actor : Actor) (before after : World) : Prop where
  follows : Follows before.db after.db
  past : after.past actor = before.past actor
  owner : ∀ id workerId, Owns before workerId id → Owns after workerId id
  unpublished : ∀ id workerId, actor = .worker workerId → Owns before workerId id →
    Unpublished before id → Unpublished after id
  givenUp : ∀ recovery, actor = .reconciler recovery.recovererId → recovery ∈ before.givenUp →
    recovery ∈ after.givenUp

theorem Relies.refl (actor : Actor) (world : World) : Relies actor world world :=
  ⟨.refl world.db, rfl, fun _ _ owns => owns, fun _ _ _ _ fresh => fresh, fun _ _ given => given⟩

theorem Relies.trans {first second third : World} (left : Relies actor first second)
    (right : Relies actor second third) : Relies actor first third where
  follows := left.follows.trans right.follows
  past := right.past.trans left.past
  owner := fun id workerId owns => right.owner id workerId (left.owner id workerId owns)
  unpublished := fun id workerId self owns fresh => right.unpublished id workerId self
    (left.owner id workerId owns) (left.unpublished id workerId self owns fresh)
  givenUp := fun recovery self given => right.givenUp recovery self
    (left.givenUp recovery self given)

/-- Claimed attempts are not queued any more; attempts belong to projects of their organization;
the worker that claimed an attempt publishes it. -/
structure Sound (world : World) : Prop where
  owned : ∀ {id workerId}, Owns world workerId id → Left world.db id
  rooted : ∀ row ∈ world.db.attempts, ∃ project ∈ world.db.projects,
    project.id = row.projectId ∧ project.organizationId = row.organizationId
  published : ∀ publication ∈ world.publications,
    Owns world publication.workerId publication.attemptId

/-! ## What stays -/

def concerns : Op → Option Actor
  | .dequeue workerId => some (.worker workerId)
  | .completeJob workerId _ => some (.worker workerId)
  | .failJob workerId _ _ => some (.worker workerId)
  | .finalizeFailed actor _ => some actor
  | .scheduleRetry actor _ _ _ => some actor
  | .symlinkMetadata (some recovery) _ => some (.reconciler recovery.recovererId)
  | _ => none

theorem past_of_effect (effect : Effect world operation after)
    (differs : concerns operation ≠ some actor) : after.past actor = world.past actor := by
  have apart : ∀ {subject}, concerns operation = some subject → actor ≠ subject := by
    rintro _ concern rfl
    exact differs concern
  cases effect with
  | dequeue | completeJob | failJob | fail | retryLost | scheduleRetry | look =>
      exact amend_past_of_ne _ _ (apart rfl)
  | _ => rfl

theorem actor_of_concerns (may : May config actor world operation)
    (concern : concerns operation = some other) : other = actor := by
  cases actor with
  | worker workerId =>
      cases operation with
      | dequeue | completeJob | failJob =>
          cases concern
          exact congrArg Actor.worker may
      | finalizeFailed | scheduleRetry =>
          cases concern
          exact may.1
      | symlinkMetadata recovery target =>
          cases may
          cases concern
      | _ => cases concern
  | reconciler recovererId =>
      cases operation with
      | finalizeFailed | scheduleRetry =>
          cases concern
          exact may.1
      | symlinkMetadata recovery target =>
          obtain ⟨id, rfl, -⟩ := may
          exact (Option.some.inj concern).symm
      | dequeue | completeJob | failJob => cases may
      | _ => cases concern
  | request number =>
      cases operation with
      | scheduleRetry =>
          cases concern
          exact may.1
      | findProject | latestAttemptSummary => cases concern
      | _ => cases may

theorem owner_of_effect (sound : Sound world) (effect : Effect world operation after)
    (owns : Owns world workerId id) : Owns after workerId id := by
  cases effect with
  | @claim worker projectId jobId attempt leaseTtl row lease found =>
      obtain ⟨member, hit⟩ := Table.mem_of_find? found
      have queued : row.status = .queued := by
        simp only [claimable, Bool.and_eq_true, beq_iff_eq] at hit
        exact hit.2
      have differs : id ≠ row.id := by
        rintro rfl
        obtain ⟨current, there, same, claimed⟩ := sound.owned owns
        rw [Table.eq_of_key_eq there member same] at claimed
        exact claimed queued
      exact (Function.update_of_ne differs ..).trans owns
  | _ => exact owns

theorem follows_of_effect (effect : Effect world operation after) : Follows world.db after.db :=
  follows_of_onward (onward_effect effect)

theorem publications_of_effect (effect : Effect world operation after) :
    after.publications = world.publications ∨
      ∃ worker attemptId projectId target success,
        operation = .publishReadyLocked worker attemptId projectId target success ∧
          after.publications = ⟨attemptId, worker, target⟩ :: world.publications := by
  cases effect with
  | publish => exact .inr ⟨_, _, _, _, _, rfl, rfl⟩
  | rename => exact .inr ⟨_, _, _, _, _, rfl, rfl⟩
  | _ => exact .inl rfl

theorem givenUp_of_effect (effect : Effect world operation after) :
    after.givenUp = world.givenUp ∨ ∃ subject attemptId,
      operation = .finalizeFailed subject attemptId ∧
        after.givenUp = world.givenUp.filter fun recovery =>
          !isRecovery subject attemptId recovery := by
  cases effect with
  | settle => exact .inr ⟨_, _, rfl, rfl⟩
  | failUnheard => exact .inr ⟨_, _, rfl, rfl⟩
  | fail => exact .inr ⟨_, _, rfl, rfl⟩
  | _ => exact .inl rfl

theorem owns_of_publish {worker : String} {attemptId projectId : Uuid} {target : TargetPath}
    {success : CloneSuccess}
    (may : May config actor world (.publishReadyLocked worker attemptId projectId target success)) :
    actor = .worker worker ∧ Owns world worker attemptId := by
  cases actor with
  | worker workerId =>
      obtain ⟨rfl, owns, -⟩ := may
      exact ⟨rfl, owns⟩
  | _ => cases may

theorem known_of_retry {previous : ProjectCloneAttempt} {subject : Actor} {requester : Option Uuid}
    {delaySecs : Option Nat}
    (may : May config actor world (.scheduleRetry subject previous requester delaySecs)) :
    Known world.db previous ∧ Ended world.db previous.id := by
  cases actor with
  | worker workerId => exact ⟨may.2.2.known, may.2.2.ended⟩
  | reconciler recovererId => exact ⟨may.2.2.known, may.2.2.ended⟩
  | request number => exact may.2.2

theorem rooted_of_effect (sound : Sound world) (may : May config actor world operation)
    (effect : Effect world operation after) : ∀ row ∈ after.db.attempts,
      ∃ project ∈ after.db.projects, project.id = row.projectId ∧
        project.organizationId = row.organizationId := by
  intro row member
  have onward := onward_effect effect
  have origin : ∃ old ∈ world.db.attempts, row.projectId = old.projectId ∧
      row.organizationId = old.organizationId := by
    rcases onward.attempts.origin row member with ⟨old, was, -, step⟩ | ⟨born, -⟩
    · exact ⟨old, was, step.same.projectId, step.same.organizationId⟩
    · cases operation with
      | scheduleRetry subject previous requester delaySecs =>
          obtain ⟨drawn, now, rfl⟩ := born
          obtain ⟨current, there, later⟩ := (known_of_retry may).1
          exact ⟨current, there, later.same.projectId.symm, later.same.organizationId.symm⟩
      | _ => cases born
  obtain ⟨old, was, sameProject, sameOrganization⟩ := origin
  obtain ⟨project, listed, key, organization⟩ := sound.rooted old was
  obtain ⟨later, there, -, step⟩ := onward.projects.forward listed
  refine ⟨later, there, ?_, ?_⟩
  · exact step.id.trans (key.trans sameProject.symm)
  · exact step.organizationId.trans (organization.trans sameOrganization.symm)

theorem owned_of_effect (sound : Sound world) (effect : Effect world operation after)
    (owns : Owns after workerId id) : Left after.db id := by
  have before : ∀ {workerId}, Owns world workerId id → Left after.db id :=
    fun owns => (sound.owned owns).onward (follows_of_effect effect)
  cases effect with
  | @claim worker projectId jobId attempt leaseTtl row lease found =>
      by_cases same : id = row.id
      · subst same
        obtain ⟨member, hit⟩ := Table.mem_of_find? found
        refine ⟨{ row with
          status := .cloning
          workerId := some worker
          jobId := some jobId
          leaseExpiresAt := some lease }, ?_, rfl, nofun⟩
        exact mem_transition.mpr ⟨row, member, by rw [hit]; rfl⟩
      · exact before ((Function.update_of_ne same ..).symm.trans owns)
  | _ => exact before owns

theorem Sound.effect (sound : Sound world) (may : May config actor world operation)
    (effect : Effect world operation after) : Sound after := by
  refine ⟨owned_of_effect sound effect, rooted_of_effect sound may effect, ?_⟩
  intro publication listed
  rcases publications_of_effect effect with same | ⟨worker, id, projectId, target, success, rfl, same⟩
  · rw [same] at listed
    exact owner_of_effect sound effect (sound.published publication listed)
  · rw [same] at listed
    rcases List.mem_cons.mp listed with rfl | before
    · exact owner_of_effect sound effect (owns_of_publish may).2
    · exact owner_of_effect sound effect (sound.published publication before)

theorem relies_of_effect (sound : Sound world) (differs : actor ≠ other)
    (may : May config actor world operation) (effect : Effect world operation after) :
    Relies other world after where
  follows := follows_of_effect effect
  past := past_of_effect effect fun concern => differs (actor_of_concerns may concern).symm
  owner _ _ owns := owner_of_effect sound effect owns
  unpublished := by
    rintro id workerId rfl owns fresh publication listed
    rcases publications_of_effect effect with same | ⟨worker, drawn, projectId, target, success, rfl, same⟩
    · rw [same] at listed
      exact fresh publication listed
    · rw [same] at listed
      rcases List.mem_cons.mp listed with rfl | before
      · rintro rfl
        obtain ⟨rfl, own⟩ := owns_of_publish may
        have equal : worker = workerId := Option.some.inj (own.symm.trans owns)
        exact differs (congrArg Actor.worker equal)
      · exact fresh publication before
  givenUp := by
    rintro recovery rfl given
    rcases givenUp_of_effect effect with same | ⟨subject, id, rfl, same⟩
    · rwa [same]
    · rw [same]
      refine List.mem_filter.mpr ⟨given, ?_⟩
      have apart : subject ≠ .reconciler recovery.recovererId := by
        rintro rfl
        exact differs (actor_of_concerns may rfl).symm
      simp [isRecovery, apart]

/-! ## Recoveries that are given up -/

@[simp] theorem giveUp_db (world : World) (recovery : Option Recovery) :
    (world.giveUp recovery).db = world.db := by
  cases recovery <;> rfl

@[simp] theorem giveUp_past (world : World) (recovery : Option Recovery) :
    (world.giveUp recovery).past = world.past := by
  cases recovery <;> rfl

@[simp] theorem giveUp_owner (world : World) (recovery : Option Recovery) :
    (world.giveUp recovery).owner = world.owner := by
  cases recovery <;> rfl

@[simp] theorem giveUp_publications (world : World) (recovery : Option Recovery) :
    (world.giveUp recovery).publications = world.publications := by
  cases recovery <;> rfl

theorem mem_giveUp {recovery : Option Recovery} {given : Recovery} :
    given ∈ (world.giveUp recovery).givenUp ↔ recovery = some given ∨ given ∈ world.givenUp := by
  cases recovery with
  | none => simp [World.giveUp]
  | some recovery =>
      rw [World.giveUp, List.mem_cons, Option.some.injEq]
      exact or_congr_left eq_comm

theorem Sound.giveUp (sound : Sound world) (recovery : Option Recovery) :
    Sound (world.giveUp recovery) := by
  cases recovery with
  | none => exact sound
  | some recovery => exact ⟨sound.owned, sound.rooted, sound.published⟩

theorem relies_giveUp (actor : Actor) (world : World) (recovery : Option Recovery) :
    Relies actor world (world.giveUp recovery) := by
  cases recovery with
  | none => exact .refl actor world
  | some recovery =>
      exact ⟨.refl world.db, rfl, fun _ _ owns => owns, fun _ _ _ _ fresh => fresh,
        fun _ _ given => List.mem_cons_of_mem _ given⟩

/-- Calls fail, or fail with effect, as they like. -/
def rules (config : CloneWorkerConfig) : Discipline machine where
  Inv := Sound
  allowed _ _ _ _ _ := True
  may := May config
  rely := Relies
  refl := Relies.refl
  trans := Relies.trans
  keeps := by
    intro actor world operation choice free sound may _
    obtain ⟨middle, effect, done | done⟩ := perform_effect world operation choice free
    · exact done ▸ sound.effect may effect
    · exact done ▸ (sound.effect may effect).giveUp (recovers operation)
  spares := by
    intro actor other world operation choice free differs sound may _
    obtain ⟨middle, effect, done | done⟩ := perform_effect world operation choice free
    · exact done ▸ relies_of_effect sound differs may effect
    · exact done ▸ (relies_of_effect sound differs may effect).trans
        (relies_giveUp other middle (recovers operation))

end Forge.CloneDiscipline
