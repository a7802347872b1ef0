import Forge.CloneSafety
import Mathlib.Data.List.Perm.Subperm

/-! The life of the attempts of a project in any run: the changes of their status, their numbers,
the retries behind them, and what a worker publishes under the projects root. -/

namespace Forge.CloneAttempts

open Forge.CloneChanges hiding withDb withDisk
open Forge.CloneDiscipline
open Forge.CloneDomain
open Forge.CloneDomain.CloneAttemptStatus
open Forge.CloneOperations
open Forge.CloneRepository
open Forge.CloneSafety
open Forge.CloneWorker
open Forge.Library.Identifier
open Forge.Library.Interleaving
open Forge.Library.KeyedTable
open Forge.Library.StateMachine
open Forge.Schema (Timestamp)

variable {config : CloneWorkerConfig} {world after : World} {pool : State} {actor : Actor}
  {operation : Op} {db next : Db} {before row : ProjectCloneAttempt} {id : Uuid}
  {published : List Publication}

/-! ## Moves -/

def Published (published : List Publication) (id : Uuid) : Prop :=
  ∃ publication ∈ published, publication.attemptId = id

/-- What a call may do to the status and the stamp of an attempt, given the publications after
it. -/
inductive Move (published : List Publication) :
    Op → ProjectCloneAttempt → ProjectCloneAttempt → Prop
  | keep {operation : Op} {before after : ProjectCloneAttempt}
      (status : after.status = before.status)
      (stamp : after.materializedAt = before.materializedAt) : Move published operation before after
  | claim {workerId : String} {projectId jobId : Uuid} {attempt : Nat} {leaseTtl : Timestamp}
      {before after : ProjectCloneAttempt} (queued : before.status = .queued)
      (cloning : after.status = .cloning) (stamp : after.materializedAt = before.materializedAt) :
      Move published (.claimForCloning workerId projectId attempt jobId leaseTtl) before after
  | publish {workerId : String} {attemptId projectId : Uuid} {target : TargetPath}
      {success : CloneSuccess} {before after : ProjectCloneAttempt}
      (listed : Published published before.id)
      (ready : after.status = before.status ∨ before.status = .cloning ∧ after.status = .ready) :
      Move published (.publishReadyLocked workerId attemptId projectId target success) before after
  | cancel {attemptId : Uuid} {before after : ProjectCloneAttempt}
      (flying : inFlight before.status = true) (cancelled : after.status = .cancelled)
      (stamp : after.materializedAt = before.materializedAt) :
      Move published (.cancelAttempt attemptId) before after
  | fail {actor : Actor} {attemptId : Uuid} {before after : ProjectCloneAttempt}
      (mine : before.id = attemptId) (flying : inFlight before.status = true)
      (failed : after.status = .failed) (stamp : after.materializedAt = before.materializedAt) :
      Move published (.finalizeFailed actor attemptId) before after
  | force {attemptId : Uuid} {success : CloneSuccess} {before after : ProjectCloneAttempt}
      (stamped : before.materializedAt.isSome = true) (ready : after.status = .ready) :
      Move published (.forceReady attemptId success) before after
  | adopt {recovery : Recovery} {success : CloneSuccess} {before after : ProjectCloneAttempt}
      (mine : before.id = recovery.attemptId)
      (within : before.status = .cloning ∨ before.status = .queued ∨ before.status = .ready)
      (ready : after.status = .ready) :
      Move published (.adoptPublishedReady recovery success) before after

theorem Move.stay (row : ProjectCloneAttempt) : Move published operation row row := .keep rfl rfl

section Statements

variable {step : ProjectCloneAttempt → ProjectCloneAttempt → Prop}
  {born : ProjectCloneAttempt → Prop}

theorem evolves_update {hits : ProjectCloneAttempt → Bool}
    {set : ProjectCloneAttempt → ProjectCloneAttempt} (keeps : ∀ row, (set row).id = row.id)
    (stay : ∀ row, step row row) (sets : ∀ row, hits row = true → step row (set row)) :
    Table.Evolves step born db.attempts (db.attempts.update hits set keeps) :=
  .of_update stay fun row _ => sets row

theorem evolves_transition {hits : ProjectCloneAttempt → Bool}
    {set : ProjectCloneAttempt → ProjectCloneAttempt} {keeps : ∀ row, (set row).id = row.id}
    {summary : CloneStatus} (stay : ∀ row, step row row)
    (sets : ∀ row, hits row = true → step row (set row)) :
    Table.Evolves step born db.attempts (transition db hits set keeps summary).1.attempts := by
  cases found : db.attempts.find? hits with
  | none =>
      rw [transition_none found]
      exact .refl stay _
  | some row =>
      rw [transition_some found]
      exact evolves_update keeps stay sets

theorem moves_publish {workerId : String} {attemptId projectId : Uuid} {target : TargetPath}
    {success given : CloneSuccess} {now : Timestamp} (listed : Published published attemptId) :
    Table.Evolves (Move published (.publishReadyLocked workerId attemptId projectId target given))
      born db.attempts (publishReady db attemptId success now).1.attempts := by
  cases found : db.attempts.find? (finalizable attemptId) with
  | none =>
      rw [publishReady, makeReady_none found]
      refine evolves_update (by exact fun _ => rfl) Move.stay fun row hit => .publish ?_ (.inl rfl)
      rwa [beq_iff_eq.mp hit]
  | some row =>
      have step : Table.Evolves
          (Move published (.publishReadyLocked workerId attemptId projectId target given)) born
          db.attempts (makeReady db (finalizable attemptId) success now).1.attempts := by
        refine evolves_transition Move.stay fun row hit => ?_
        simp only [finalizable, Bool.and_eq_true, beq_iff_eq] at hit
        exact .publish (by rwa [hit.1]) (.inr ⟨hit.2, rfl⟩)
      rw [publishReady, makeReady_some found]
      rwa [makeReady_some found] at step

end Statements

theorem insert_of_scheduleRetry {previous : ProjectCloneAttempt} {runAfter : Option Timestamp}
    {outboxId : Uuid} {now : Timestamp}
    (scheduled : scheduleRetry db previous runAfter id outboxId now = some (next, true)) :
    (∀ row ∈ db.attempts, row.projectId = previous.projectId →
        row.attempt ≠ previous.attempt + 1) ∧
      db.attempts.insert? (retryOf previous id now) = some next.attempts := by
  obtain ⟨absent, attempts, middle, inserted, requested, rfl⟩ := scheduleRetry_new scheduled
  refine ⟨absent, ?_⟩
  rcases insertOutbox_cases requested with rfl | ⟨outbox, -, rfl⟩
  · exact inserted
  · exact inserted

theorem moves_effect (effect : Effect world operation after) :
    Table.Evolves (Move after.publications operation) (Born operation) world.db.attempts
      after.db.attempts := by
  cases effect with
  | claim lease found =>
      refine evolves_transition Move.stay fun row hit => .claim ?_ rfl rfl
      simp only [claimable, Bool.and_eq_true, beq_iff_eq] at hit
      exact hit.2
  | setCredentialId | setContainerId | claimExpired =>
      exact evolves_update (by exact fun _ => rfl) Move.stay fun row _ => .keep rfl rfl
  | publish => exact moves_publish ⟨_, List.mem_cons_self, rfl⟩
  | cancel =>
      exact evolves_transition Move.stay fun row hit => .cancel (inFlight_of_openAt hit) rfl rfl
  | force =>
      refine evolves_transition Move.stay fun row hit => .force ?_ rfl
      simp only [forcible, Bool.and_eq_true] at hit
      exact hit.2
  | adopt =>
      refine evolves_transition Move.stay fun row hit => .adopt ?_ ?_ rfl
      · simp only [adoptable, Bool.and_eq_true, beq_iff_eq] at hit
        exact hit.1
      · simp only [adoptable, Bool.and_eq_true, Bool.or_eq_true, beq_iff_eq] at hit
        tauto
  | failUnheard | fail =>
      refine evolves_transition Move.stay fun row hit => .fail ?_ (inFlight_of_openAt hit) rfl rfl
      simp only [openAt, Bool.and_eq_true, beq_iff_eq] at hit
      exact hit.1
  | scheduleRetry _ id _ now scheduled =>
      exact .of_insert Move.stay ⟨id, now, rfl⟩ (insert_of_scheduleRetry scheduled).2
  | reenqueue _ _ reenqueued =>
      rcases insertOutbox_cases reenqueued with rfl | ⟨outbox, -, rfl⟩
      · exact .refl Move.stay _
      · exact .refl Move.stay _
  | _ => exact .refl Move.stay _

/-! ## Beside the calls -/

/-- Neither the status nor the stamp changes. -/
structure Quiet (before after : ProjectCloneAttempt) : Prop where
  same : SameAttempt before after
  status : after.status = before.status
  stamp : after.materializedAt = before.materializedAt

theorem Quiet.stay (row : ProjectCloneAttempt) : Quiet row row :=
  ⟨⟨rfl, rfl, rfl, rfl, rfl⟩, rfl, rfl⟩

/-- The first attempt of a project, as it is inserted. -/
structure IsNew (row : ProjectCloneAttempt) : Prop where
  attempt : row.attempt = 1
  blank : row.materializedAt = none

def Action.isStep : Action → Bool
  | .step _ _ => true
  | _ => false

/-- What happens beside the calls: no status changes, nothing is published or staged, and nothing is
noted as a retry. -/
structure Beside (before after : World) : Prop where
  attempts : Table.Evolves Quiet IsNew before.db.attempts after.db.attempts
  publications : after.publications = before.publications
  staging : after.disk.staging = before.disk.staging
  retries : after.retries = before.retries

theorem beside_of_db (db : Db)
    (attempts : Table.Evolves Quiet IsNew world.db.attempts db.attempts) :
    Beside world { world with db } :=
  ⟨attempts, rfl, rfl, rfl⟩

theorem Beside.refl (world : World) : Beside world world :=
  beside_of_db world.db (.refl Quiet.stay _)

theorem beside_exec (action : Action) (beside : Action.isStep action = false) :
    Beside pool.state (exec config pool action).state := by
  have nothing : Table.Evolves Quiet IsNew pool.state.db.attempts pool.state.db.attempts :=
    .refl Quiet.stay _
  cases action with
  | create input attemptId outboxId now =>
      rw [exec]
      split
      case h_1 db created =>
          obtain ⟨projects, -, ⟨-, rfl⟩ | ⟨url, attempts, outbox, -, first, -, rfl⟩⟩ :=
            createWithClone_cases created
          · exact beside_of_db _ nothing
          · exact beside_of_db _ (.of_insert Quiet.stay ⟨rfl, rfl⟩ first)
      case h_2 => exact .refl _
  | relay jobId locked now =>
      refine beside_of_db (relayNextCloneOutbox pool.state.db jobId locked now) ?_
      rcases relay_cases pool.state.db jobId locked now with
        same | ⟨row, -, -, ⟨jobs, -, same⟩ | ⟨-, same⟩⟩
      · rw [same]
        exact nothing
      · rw [same]
        exact nothing
      · rw [same]
        exact nothing
  | launch | iterate | tick =>
      rw [exec]
      split
      · exact ⟨nothing, rfl, rfl, rfl⟩
      · exact ⟨nothing, rfl, rfl, rfl⟩
  | signal =>
      rw [exec]
      split
      · split
        · exact ⟨nothing, rfl, rfl, rfl⟩
        · exact ⟨nothing, rfl, rfl, rfl⟩
      · exact .refl _
  | heartbeat workerId lease =>
      rw [exec, heartbeat]
      split
      · exact beside_of_db _ (evolves_update (by exact fun _ => rfl) Quiet.stay fun row _ =>
          ⟨⟨rfl, rfl, rfl, rfl, rfl⟩, rfl, rfl⟩)
      · exact .refl _
  | step => cases beside
  | _ => exact ⟨nothing, rfl, rfl, rfl⟩

/-! ## Stamps -/

def Stamped (world : World) : Prop :=
  ∀ row ∈ world.db.attempts, row.materializedAt.isSome = true →
    row.status = .ready ∨ Published world.publications row.id

theorem published_of_effect (effect : Effect world operation after)
    (listed : Published world.publications id) : Published after.publications id := by
  obtain ⟨publication, member, same⟩ := listed
  rcases publications_of_effect effect with kept | ⟨_, _, _, _, _, -, grown⟩
  · exact ⟨publication, kept ▸ member, same⟩
  · exact ⟨publication, grown ▸ List.mem_cons_of_mem _ member, same⟩

theorem Stamped.effect (stamped : Stamped world) (effect : Effect world operation after) :
    Stamped after := by
  intro row member marked
  rcases (moves_effect effect).origin row member with ⟨before, was, same, move⟩ | ⟨born, -⟩
  · have earlier : before.materializedAt.isSome = true → before.status = .ready ∨
        Published after.publications row.id := fun marked =>
      (stamped before was marked).imp_right fun listed => same ▸ published_of_effect effect listed
    cases move with
    | keep status stamp => exact (earlier (stamp ▸ marked)).imp_left status.trans
    | claim queued _ stamp =>
        refine .inr ((earlier (stamp ▸ marked)).resolve_left fun ready => ?_)
        cases queued.symm.trans ready
    | publish listed => exact .inr (same ▸ listed)
    | cancel flying _ stamp | fail _ flying _ stamp =>
        refine .inr ((earlier (stamp ▸ marked)).resolve_left fun ready => ?_)
        rw [ready] at flying
        cases flying
    | force _ ready => exact .inl ready
    | adopt _ _ ready => exact .inl ready
  · cases operation with
    | scheduleRetry =>
        obtain ⟨drawn, now, rfl⟩ := born
        cases marked
    | _ => cases born

theorem stamped_exec (stamped : Stamped pool.state) (action : Action) :
    Stamped (exec config pool action).state := by
  cases beside : Action.isStep action with
  | false =>
      have still := @beside_exec config pool action beside
      intro row member marked
      rw [still.publications]
      rcases still.attempts.origin row member with
        ⟨before, was, key, quiet⟩ | ⟨⟨-, blank⟩, -⟩
      · rw [quiet.stamp] at marked
        rw [quiet.status, ← key]
        exact stamped before was marked
      · rw [blank] at marked
        cases marked
  | true =>
      cases action with
      | step actor choice =>
          rcases @step_effect config pool actor choice with
            same | ⟨operation, next, middle, -, effect, done | done⟩
          · rwa [same]
          · rw [done]
            exact stamped.effect effect
          · rw [done, Stamped, giveUp_db, giveUp_publications]
            exact stamped.effect effect
      | _ => cases beside

/-! ## Edges -/

/-- One change of the status of an attempt: none, an edge of the state machine, or the promotion of
an attempt that was failed or cancelled after the worker that claimed it had published it. -/
inductive StatusChange (world : World) (before after : ProjectCloneAttempt) : Prop
  | same (same : after.status = before.status)
  | edge (legal : tryTransition before.status after.status = true)
  | promotion (ended : before.status = .failed ∨ before.status = .cancelled)
      (ready : after.status = .ready) (publication : Publication)
      (listed : publication ∈ world.publications) (mine : publication.attemptId = before.id)
      (owned : Owns world publication.workerId before.id)

theorem not_queued (left : Left db id) (member : row ∈ db.attempts) (same : row.id = id) :
    row.status ≠ .queued := by
  obtain ⟨current, there, key, claimed⟩ := left
  rwa [Table.eq_of_key_eq member there (same.trans key.symm)]

theorem left_of_fail {subject : Actor} {attemptId : Uuid} (sound : Sound world)
    (may : May config actor world (.finalizeFailed subject attemptId)) :
    Left world.db attemptId := by
  cases actor with
  | worker => exact sound.owned may.2.1
  | reconciler => exact may.2.1
  | request => cases may

theorem left_of_adopt {recovery : Recovery} {success : CloneSuccess}
    (may : May config actor world (.adoptPublishedReady recovery success)) :
    Left world.db recovery.attemptId := by
  cases actor with
  | reconciler => exact may.2.1
  | worker | request => cases may

theorem change_of_published (sound : Sound world) (member : before ∈ world.db.attempts)
    (listed : Published world.publications before.id) {after : ProjectCloneAttempt}
    (ready : after.status = .ready) : StatusChange world before after := by
  obtain ⟨publication, there, mine⟩ := listed
  have owned : Owns world publication.workerId before.id := mine ▸ sound.published publication there
  have claimed := not_queued (sound.owned owned) member rfl
  cases status : before.status with
  | queued => exact absurd status claimed
  | cloning => exact .edge (by rw [status, ready]; rfl)
  | ready => exact .same (ready.trans status.symm)
  | failed => exact .promotion (.inl status) ready publication there mine owned
  | cancelled => exact .promotion (.inr status) ready publication there mine owned

theorem change_of_move (sound : Sound world) (stamped : Stamped world)
    (may : May config actor world operation) (member : before ∈ world.db.attempts)
    {after : ProjectCloneAttempt} (move : Move published operation before after) :
    StatusChange world before after := by
  cases move with
  | keep status => exact .same status
  | claim queued cloning => exact .edge (by rw [queued, cloning]; rfl)
  | publish _ moved =>
      rcases moved with same | ⟨cloning, ready⟩
      · exact .same same
      · exact .edge (by rw [cloning, ready]; rfl)
  | cancel flying cancelled =>
      rw [inFlight, Bool.or_eq_true, beq_iff_eq, beq_iff_eq] at flying
      rcases flying with queued | cloning
      · exact .edge (by rw [queued, cancelled]; rfl)
      · exact .edge (by rw [cloning, cancelled]; rfl)
  | fail mine flying failed =>
      have claimed := not_queued (left_of_fail sound may) member mine
      rw [inFlight, Bool.or_eq_true, beq_iff_eq, beq_iff_eq] at flying
      exact .edge (by rw [flying.resolve_left claimed, failed]; rfl)
  | force marked ready =>
      rcases stamped before member marked with already | listed
      · exact .same (ready.trans already.symm)
      · exact change_of_published sound member listed ready
  | adopt mine opened ready =>
      have claimed := not_queued (left_of_adopt may) member mine
      rcases opened with cloning | queued | already
      · exact .edge (by rw [cloning, ready]; rfl)
      · exact absurd queued claimed
      · exact .same (ready.trans already.symm)

def Lawful (before after : World) : Prop :=
  ∀ row ∈ before.db.attempts, ∀ later ∈ after.db.attempts, later.id = row.id →
    StatusChange before row later

theorem step_of_evolves {step : ProjectCloneAttempt → ProjectCloneAttempt → Prop}
    {born : ProjectCloneAttempt → Prop} {old new : Attempts} {later : ProjectCloneAttempt}
    (evolves : Table.Evolves step born old new) (member : row ∈ old) (there : later ∈ new)
    (same : later.id = row.id) : step row later := by
  obtain ⟨found, listed, key, moved⟩ := evolves.forward member
  rwa [Table.eq_of_key_eq there listed (same.trans key.symm)]

theorem lawful_exec (good : Good (rules config) pool) (stamped : Stamped pool.state)
    (action : Action) : Lawful pool.state (exec config pool action).state := by
  intro row member later there same
  cases beside : Action.isStep action with
  | false =>
      have quiet := (@beside_exec config pool action beside).attempts
      exact .same (step_of_evolves quiet member there same).status
  | true =>
      cases action with
      | step actor choice =>
          rcases @step_effect config pool actor choice with
            still | ⟨operation, next, middle, due, effect, done⟩
          · rw [still] at there
            exact .same (congrArg _ (Table.eq_of_key_eq there member same))
          · have moved : later ∈ middle.db.attempts := by
              rcases done with done | done
              · rwa [done] at there
              · rwa [done, giveUp_db] at there
            exact change_of_move good.inv stamped (good.may due) member
              (step_of_evolves (moves_effect effect) member moved same)
      | _ => cases beside

theorem stamped_run (config : CloneWorkerConfig) (actions : List Action) :
    Good (rules config) (run (exec config) start actions) ∧
      Stamped (run (exec config) start actions).state := by
  have reached : Reachable (exec config) (· = start) (fun _ _ => True)
      (run (exec config) start actions) :=
    reachable_run rfl (allAllowed_of_forall (fun _ _ _ => trivial) start)
  have keep : ∀ pool action, Good (rules config) pool → Stamped pool.state → True →
      Stamped (exec config pool action).state :=
    fun _ action _ stamped _ => stamped_exec stamped action
  have first : Stamped start.state := fun row member => absurd member (Table.not_mem_empty row)
  exact ⟨good_of_reachable reached,
    @invariant_of_reachable _ _ _ (fun pool => Stamped pool.state) keep first reached⟩

/-- No two attempts of a project have one number, and an attempt that is not the first comes after
one that has ended. -/
structure Numbered (attempts : Attempts) : Prop where
  apart : ∀ left ∈ attempts, ∀ right ∈ attempts, left.projectId = right.projectId →
    left.attempt = right.attempt → left.id = right.id
  linked : ∀ row ∈ attempts, row.attempt = 1 ∨ ∃ previous ∈ attempts,
    previous.projectId = row.projectId ∧ previous.attempt + 1 = row.attempt ∧
      previous.status.isTerminal = true

theorem Numbered.onward {old new : Attempts} (numbered : Numbered old)
    (evolves : Table.Evolves AttemptStep (fun _ => False) old new) : Numbered new := by
  have origin : ∀ row ∈ new, ∃ before ∈ old, before.id = row.id ∧ AttemptStep before row :=
    fun row member => (evolves.origin row member).resolve_right fun born => born.1
  constructor
  · intro left hl right hr project number
    obtain ⟨first, was, key, step⟩ := origin left hl
    obtain ⟨second, been, key', step'⟩ := origin right hr
    rw [← key, ← key']
    refine numbered.apart first was second been ?_ ?_
    · exact step.same.projectId.symm.trans (project.trans step'.same.projectId)
    · exact step.same.attempt.symm.trans (number.trans step'.same.attempt)
  · intro row member
    obtain ⟨before, was, -, step⟩ := origin row member
    rcases numbered.linked before was with first | ⟨previous, there, project, number, ended⟩
    · exact .inl (step.same.attempt.trans first)
    · obtain ⟨later, found, -, moved⟩ := evolves.forward there
      refine .inr ⟨later, found, ?_, ?_, moved.ended ended⟩
      · exact moved.same.projectId.trans (project.trans step.same.projectId.symm)
      · rw [moved.same.attempt, number, step.same.attempt]

theorem Numbered.insert {old new : Attempts} (numbered : Numbered old)
    (inserted : old.insert? row = some new)
    (absent : ∀ other ∈ old, other.projectId = row.projectId → other.attempt ≠ row.attempt)
    (linked : row.attempt = 1 ∨ ∃ previous ∈ old, previous.projectId = row.projectId ∧
      previous.attempt + 1 = row.attempt ∧ previous.status.isTerminal = true) :
    Numbered new := by
  obtain ⟨-, members⟩ := Table.insert?_eq_some inserted
  have grows : ∀ {other}, other ∈ old → other ∈ new := fun listed => (members _).mpr (.inr listed)
  constructor
  · intro left hl right hr project number
    rcases (members left).mp hl with rfl | first
    · rcases (members right).mp hr with rfl | second
      · rfl
      · exact absurd number.symm (absent right second project.symm)
    · rcases (members right).mp hr with rfl | second
      · exact absurd number (absent left first project)
      · exact numbered.apart left first right second project number
  · intro other member
    rcases (members other).mp member with rfl | was
    · exact linked.imp_right fun ⟨previous, there, rest⟩ => ⟨previous, grows there, rest⟩
    · exact (numbered.linked other was).imp_right
        fun ⟨previous, there, rest⟩ => ⟨previous, grows there, rest⟩

theorem Numbered.effect (numbered : Numbered world.db.attempts)
    (may : May config actor world operation) (effect : Effect world operation after) :
    Numbered after.db.attempts := by
  have onward := onward_effect effect
  cases effect with
  | same => exact numbered
  | retryLost => exact numbered
  | @scheduleRetry subject previous requester delaySecs db runAfter id outboxId now scheduled =>
      obtain ⟨absent, inserted⟩ := insert_of_scheduleRetry scheduled
      obtain ⟨⟨current, there, later⟩, ended⟩ := known_of_retry may
      obtain ⟨closed, listed, key, terminal⟩ := ended
      have same : closed = current := Table.eq_of_key_eq listed there (key.trans later.same.id.symm)
      exact numbered.insert inserted absent (.inr ⟨current, there, later.same.projectId,
        congrArg (· + 1) later.same.attempt, same ▸ terminal⟩)
  | _ => exact numbered.onward onward.attempts

theorem numbered_exec (numbered : Numbered pool.state.db.attempts)
    (good : Good (rules config) pool) (action : Action) :
    Numbered (exec config pool action).state.db.attempts := by
  cases action with
  | create input attemptId outboxId now =>
      rw [exec]
      split
      case h_1 db created =>
          obtain ⟨projects, fresh, ⟨-, rfl⟩ | ⟨url, attempts, outbox, -, first, -, rfl⟩⟩ :=
            createWithClone_cases created
          · exact numbered
          · refine numbered.insert first (fun other member project => ?_) (.inl rfl)
            obtain ⟨root, listed, key, -⟩ := good.inv.rooted other member
            exact absurd (key.trans project) ((Table.insert?_eq_some fresh).1 root listed)
      case h_2 => exact numbered
  | relay jobId locked now =>
      exact numbered.onward onward_relay.attempts
  | launch | iterate | tick =>
      rw [exec]
      split
      · exact numbered
      · exact numbered
  | signal =>
      rw [exec]
      split
      · split
        · exact numbered
        · exact numbered
      · exact numbered
  | heartbeat workerId lease =>
      rw [exec, heartbeat]
      split
      · exact numbered.onward onward_extendLease.attempts
      · exact numbered
  | step actor choice =>
      rcases @step_effect config pool actor choice with
        same | ⟨operation, next, middle, due, effect, done | done⟩
      · rwa [same]
      · rw [done]
        exact numbered.effect (good.may due) effect
      · rw [done, giveUp_db]
        exact numbered.effect (good.may due) effect
  | _ => exact numbered

theorem perm_range' {numbers : List Nat} (distinct : numbers.Nodup)
    (linked : ∀ n ∈ numbers, n = 1 ∨ ∃ m ∈ numbers, m + 1 = n) :
    numbers.Perm (List.range' 1 numbers.length) := by
  have below : ∀ n ∈ numbers, ∀ m, 1 ≤ m → m ≤ n → m ∈ numbers := by
    intro n
    induction n with
    | zero => exact fun _ m positive small => absurd (positive.trans small) (by omega)
    | succ n ih =>
        intro member m positive small
        rcases Nat.lt_or_eq_of_le small with less | rfl
        · rcases linked (n + 1) member with one | ⟨previous, there, next⟩
          · omega
          · obtain rfl := Nat.succ.inj next
            exact ih there m positive (Nat.lt_succ_iff.mp less)
        · exact member
  have positive : ∀ n ∈ numbers, 1 ≤ n := by
    intro n member
    rcases linked n member with rfl | ⟨m, -, rfl⟩
    · exact Nat.le_refl 1
    · exact Nat.le_add_left 1 m
  have bounded : numbers ⊆ List.range' 1 numbers.length := by
    intro n member
    have all : List.range' 1 n ⊆ numbers := fun m inside => by
      rw [List.mem_range'_1] at inside
      exact below n member m inside.1 (by omega)
    have count := (List.Nodup.subperm (List.nodup_range' 1) all).length_le
    rw [List.length_range'] at count
    exact List.mem_range'_1.mpr ⟨positive n member, by omega⟩
  refine (distinct.subperm bounded).perm_of_length_le ?_
  rw [List.length_range']

def attemptsOf (db : Db) (projectId : Uuid) : List ProjectCloneAttempt :=
  db.attempts.rows.filter fun row => row.projectId == projectId

theorem mem_attemptsOf {projectId : Uuid} :
    row ∈ attemptsOf db projectId ↔ row ∈ db.attempts ∧ row.projectId = projectId := by
  rw [attemptsOf, List.mem_filter, beq_iff_eq]
  rfl

theorem numbers_perm (numbered : Numbered db.attempts) (projectId : Uuid) :
    ((attemptsOf db projectId).map (·.attempt)).Perm
      (List.range' 1 (attemptsOf db projectId).length) := by
  have distinct : ((attemptsOf db projectId).map (·.attempt)).Nodup := by
    refine List.Nodup.map_on ?_ (db.attempts.distinct.of_map.filter _)
    intro left first right second same
    obtain ⟨hl, project⟩ := mem_attemptsOf.mp first
    obtain ⟨hr, project'⟩ := mem_attemptsOf.mp second
    exact Table.eq_of_key_eq hl hr
      (numbered.apart left hl right hr (project.trans project'.symm) same)
  have counted := perm_range' distinct fun n member => ?_
  · rwa [List.length_map] at counted
  · obtain ⟨row, listed, rfl⟩ := List.mem_map.mp member
    obtain ⟨there, rfl⟩ := mem_attemptsOf.mp listed
    rcases numbered.linked row there with first | ⟨previous, was, project, next, -⟩
    · exact .inl first
    · exact .inr ⟨previous.attempt,
        List.mem_map_of_mem (mem_attemptsOf.mpr ⟨was, project⟩), next⟩

theorem ended_of_lower (numbered : Numbered db.attempts) {projectId : Uuid}
    (member : row ∈ attemptsOf db projectId)
    (lower : row.attempt < (attemptsOf db projectId).length) : row.status.isTerminal = true := by
  obtain ⟨there, project⟩ := mem_attemptsOf.mp member
  have counted := numbers_perm numbered projectId
  have above : row.attempt + 1 ∈ (attemptsOf db projectId).map (·.attempt) :=
    counted.mem_iff.mpr (List.mem_range'_1.mpr ⟨Nat.le_add_left 1 _, by omega⟩)
  obtain ⟨higher, listed, number⟩ := List.mem_map.mp above
  obtain ⟨found, same⟩ := mem_attemptsOf.mp listed
  have positive : row.attempt ≠ 0 := by
    have inside := counted.mem_iff.mp (List.mem_map_of_mem (f := (·.attempt)) member)
    exact Nat.one_le_iff_ne_zero.mp (List.mem_range'_1.mp inside).1
  rcases numbered.linked higher found with first | ⟨previous, was, project', next, ended⟩
  · exact absurd (number.symm.trans first) (by omega)
  · have key := numbered.apart previous was row there (project'.trans (same.trans project.symm))
      (by omega)
    exact Table.eq_of_key_eq was there key ▸ ended

theorem numbered_run (config : CloneWorkerConfig) (actions : List Action) :
    Numbered (run (exec config) start actions).state.db.attempts := by
  have reached : Reachable (exec config) (· = start) (fun _ _ => True)
      (run (exec config) start actions) :=
    reachable_run rfl (allAllowed_of_forall (fun _ _ _ => trivial) start)
  have keep : ∀ pool action, Good (rules config) pool → Numbered pool.state.db.attempts → True →
      Numbered (exec config pool action).state.db.attempts :=
    fun _ action good numbered _ => numbered_exec numbered good action
  have first : Numbered start.state.db.attempts :=
    ⟨fun left hl => absurd hl (Table.not_mem_empty left),
      fun row member => absurd member (Table.not_mem_empty row)⟩
  exact @invariant_of_reachable _ _ _ (fun pool => Numbered pool.state.db.attempts) keep first
    reached

/-- In every run the attempts of a project are numbered from 1 without a gap, and all but the last
have ended. -/
theorem attempts_numbered (config : CloneWorkerConfig) (actions : List Action)
    (projectId : Uuid) :
    ((attemptsOf (run (exec config) start actions).state.db projectId).map (·.attempt)).Perm
        (List.range' 1 (attemptsOf (run (exec config) start actions).state.db projectId).length) ∧
      ∀ row ∈ attemptsOf (run (exec config) start actions).state.db projectId,
        row.attempt < (attemptsOf (run (exec config) start actions).state.db projectId).length →
          row.status.isTerminal = true :=
  ⟨numbers_perm (numbered_run config actions) projectId,
    fun _ member lower => ended_of_lower (numbered_run config actions) member lower⟩

end Forge.CloneAttempts
