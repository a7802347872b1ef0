import Forge.CloneAttempts

/-! What the history of the clone worker tells: how many attempts a project gets, and what is
renamed to which directory. -/

namespace Forge.CloneHistory

open Forge.CloneAttempts
open Forge.CloneChanges hiding withDb withDisk
open Forge.CloneDiscipline
open Forge.CloneDomain
open Forge.CloneOperations
open Forge.CloneRepository
open Forge.CloneSafety
open Forge.CloneWorker
open Forge.Library.Identifier
open Forge.Library.Interleaving
open Forge.Library.KeyedTable
open Forge.Library.StateMachine

variable {config : CloneWorkerConfig} {world after : World} {pool : State} {actor : Actor}
  {operation : Op} {db next : Db} {row : ProjectCloneAttempt} {id : Uuid}

/-! ## Retries -/

/-- A retry was of an attempt that had ended; unless a user asked for it, the attempt was below the
maximum, and had just been failed by the actor that retried it. -/
structure Justified (config : CloneWorkerConfig) (retry : Retry) : Prop where
  ended : retry.status.any CloneAttemptStatus.isTerminal = true
  below : retry.requester = none → retry.attempt < config.maxAttempts
  failed : retry.requester = none → ∃ hit, retry.failure = some (retry.previousId, hit)

def Retry.isOf (db : Db) (projectId : Uuid) (retry : Retry) : Bool :=
  db.attempts.any fun row => row.id == retry.previousId && row.projectId == projectId

def Accounted (world : World) : Prop :=
  ∀ row ∈ world.db.attempts, row.attempt = 1 ∨ ∃ retry ∈ world.retries,
    retry.attempt + 1 = row.attempt ∧ Retry.isOf world.db row.projectId retry = true

theorem isOf_onward {step : ProjectCloneAttempt → ProjectCloneAttempt → Prop}
    {born : ProjectCloneAttempt → Prop} {retry : Retry} {projectId : Uuid}
    (evolves : Table.Evolves step born db.attempts next.attempts)
    (same : ∀ {row later}, step row later → SameAttempt row later)
    (isOf : Retry.isOf db projectId retry = true) : Retry.isOf next projectId retry = true := by
  obtain ⟨row, member, holds⟩ := Table.any_eq_true.mp isOf
  obtain ⟨later, there, -, moved⟩ := evolves.forward member
  refine Table.any_eq_true.mpr ⟨later, there, ?_⟩
  rwa [(same moved).id, (same moved).projectId]

theorem retries_of_effect (effect : Effect world operation after) :
    after.retries = world.retries ∨ ∃ subject previous requester delaySecs,
      operation = .scheduleRetry subject previous requester delaySecs ∧
        after.retries = retryEntry world subject previous requester :: world.retries := by
  cases effect with
  | scheduleRetry => exact .inr ⟨_, _, _, _, rfl, rfl⟩
  | _ => exact .inl rfl

theorem statusOf_eq (member : row ∈ db.attempts) : statusOf db row.id = some row.status := by
  rw [statusOf, Table.find?_key member rfl]
  rfl

theorem justified_entry {subject : Actor} {previous : ProjectCloneAttempt}
    {requester : Option Uuid} {delaySecs : Option Nat}
    (may : May config actor world (.scheduleRetry subject previous requester delaySecs)) :
    Justified config (retryEntry world subject previous requester) := by
  have automatic : requester = none → MayRetry config world subject previous := by
    rintro rfl
    cases actor with
    | worker => exact may.2.2
    | reconciler => exact may.2.2
    | request => cases may.2.1
  constructor
  · obtain ⟨closed, listed, key, terminal⟩ := (known_of_retry may).2
    have known : statusOf world.db previous.id = some closed.status := key ▸ statusOf_eq listed
    rw [retryEntry, known]
    exact terminal
  · exact fun alone => (automatic alone).below
  · exact fun alone => (automatic alone).failed

theorem justified_effect (justified : ∀ retry ∈ world.retries, Justified config retry)
    (may : May config actor world operation) (effect : Effect world operation after) :
    ∀ retry ∈ after.retries, Justified config retry := by
  rcases retries_of_effect effect with same | ⟨_, _, _, _, rfl, grown⟩
  · rwa [same]
  · rw [grown]
    exact List.forall_mem_cons.mpr ⟨justified_entry may, justified⟩

theorem accounted_effect (accounted : Accounted world) (may : May config actor world operation)
    (effect : Effect world operation after) : Accounted after := by
  have onward := onward_effect effect
  have grows : ∀ {retry}, retry ∈ world.retries → retry ∈ after.retries := by
    intro retry listed
    rcases retries_of_effect effect with same | ⟨_, _, _, _, -, grown⟩
    · rwa [same]
    · exact grown ▸ List.mem_cons_of_mem _ listed
  intro row member
  rcases onward.attempts.origin row member with ⟨before, was, -, step⟩ | ⟨born, fresh⟩
  · rw [step.same.attempt, step.same.projectId]
    refine (accounted before was).imp_right fun ⟨retry, listed, number, isOf⟩ => ?_
    exact ⟨retry, grows listed, number, isOf_onward onward.attempts AttemptStep.same isOf⟩
  · cases effect with
    | scheduleRetry =>
        obtain ⟨drawn, now, rfl⟩ := born
        obtain ⟨current, there, later⟩ := (known_of_retry may).1
        refine .inr ⟨_, List.mem_cons_self, rfl, isOf_onward onward.attempts AttemptStep.same ?_⟩
        refine Table.any_eq_true.mpr ⟨current, there, ?_⟩
        simp [retryEntry, retryOf, queuedAttempt, later.same.id, later.same.projectId]
    | same => exact absurd rfl (fresh row member)
    | retryLost => exact absurd rfl (fresh row member)
    | _ => cases born

/-- What the history says about the retries. -/
structure Recorded (config : CloneWorkerConfig) (world : World) : Prop where
  justified : ∀ retry ∈ world.retries, Justified config retry
  accounted : Accounted world

theorem recorded_effect (recorded : Recorded config world)
    (may : May config actor world operation) (effect : Effect world operation after) :
    Recorded config after :=
  ⟨justified_effect recorded.justified may effect, accounted_effect recorded.accounted may effect⟩

theorem recorded_exec (recorded : Recorded config pool.state) (good : Good (rules config) pool)
    (action : Action) : Recorded config (exec config pool action).state := by
  cases beside : Action.isStep action with
  | true =>
      cases action with
      | step actor choice =>
          rcases @step_effect config pool actor choice with
            same | ⟨operation, next, middle, due, effect, done | done⟩
          · rwa [same]
          · rw [done]
            exact recorded_effect recorded (good.may due) effect
          · have later := recorded_effect recorded (good.may due) effect
            rw [done]
            cases recovers operation with
            | none => exact later
            | some recovery => exact ⟨later.justified, later.accounted⟩
      | _ => cases beside
  | false =>
      have still := @beside_exec config pool action beside
      refine ⟨by rw [still.retries]; exact recorded.justified, fun row member => ?_⟩
      rw [still.retries]
      rcases still.attempts.origin row member with ⟨before, was, -, quiet⟩ | ⟨new, -⟩
      · rw [quiet.same.attempt, quiet.same.projectId]
        refine (recorded.accounted before was).imp_right fun ⟨retry, listed, number, isOf⟩ => ?_
        exact ⟨retry, listed, number, isOf_onward still.attempts Quiet.same isOf⟩
      · exact .inl new.attempt

def userRetries (world : World) (projectId : Uuid) : List Retry :=
  world.retries.filter fun retry =>
    retry.requester.isSome && Retry.isOf world.db projectId retry

theorem asked_of_beyond (recorded : Recorded config world) {projectId : Uuid}
    (member : row ∈ attemptsOf world.db projectId)
    (beyond : max 1 config.maxAttempts < row.attempt) :
    row.attempt ∈ (userRetries world projectId).map (·.attempt + 1) := by
  obtain ⟨there, rfl⟩ := mem_attemptsOf.mp member
  rcases recorded.accounted row there with first | ⟨retry, listed, number, isOf⟩
  · omega
  · refine List.mem_map.mpr ⟨retry, List.mem_filter.mpr ⟨listed, ?_⟩, number⟩
    rw [isOf, Bool.and_true]
    cases asked : retry.requester with
    | some requester => rfl
    | none =>
        have below := (recorded.justified retry listed).below asked
        omega

theorem length_attemptsOf_le (recorded : Recorded config world)
    (numbered : Numbered world.db.attempts) (projectId : Uuid) :
    (attemptsOf world.db projectId).length
      ≤ max 1 config.maxAttempts + (userRetries world projectId).length := by
  have counted := numbers_perm numbered projectId
  generalize count : (attemptsOf world.db projectId).length = total at counted
  have beyond : List.range' (max 1 config.maxAttempts + 1) (total - max 1 config.maxAttempts) ⊆
      (userRetries world projectId).map (·.attempt + 1) := by
    intro number inside
    rw [List.mem_range'_1] at inside
    have listed : number ∈ (attemptsOf world.db projectId).map (·.attempt) :=
      counted.mem_iff.mpr (List.mem_range'_1.mpr (by omega))
    obtain ⟨row, member, rfl⟩ := List.mem_map.mp listed
    exact asked_of_beyond recorded member (by omega)
  have bound := (List.Nodup.subperm (List.nodup_range' 1) beyond).length_le
  rw [List.length_range', List.length_map] at bound
  omega

theorem recorded_run (config : CloneWorkerConfig) (actions : List Action) :
    Recorded config (run (exec config) start actions).state := by
  have reached : Reachable (exec config) (· = start) (fun _ _ => True)
      (run (exec config) start actions) :=
    reachable_run rfl (allAllowed_of_forall (fun _ _ _ => trivial) start)
  have keep : ∀ pool action, Good (rules config) pool → Recorded config pool.state → True →
      Recorded config (exec config pool action).state :=
    fun _ action good recorded _ => recorded_exec recorded good action
  have first : Recorded config start.state :=
    ⟨fun retry listed => absurd listed List.not_mem_nil,
      fun row member => absurd member (Table.not_mem_empty row)⟩
  exact @invariant_of_reachable _ _ _ (fun pool => Recorded config pool.state) keep first reached

def Staged (staging : Table StagingDir StagingDir.attemptId) : Prop :=
  ∀ dir ∈ staging, ∀ tree, dir.repo = some tree → tree = .cloned dir.attemptId

section Staging

variable {disk renamed : Disk} {target : TargetPath} {tree : Tree}

theorem staged_update {set : StagingDir → StagingDir}
    (keeps : ∀ dir, (set dir).attemptId = dir.attemptId) (staged : Staged disk.staging)
    (own : ∀ dir tree, (set dir).repo = some tree → tree = .cloned id) :
    Staged (disk.staging.update (·.attemptId == id) set keeps) := by
  intro dir member tree held
  obtain ⟨old, was, key, ⟨hit, rfl⟩ | ⟨-, rfl⟩⟩ := Table.mem_update_cases member
  · rw [keeps, beq_iff_eq.mp hit]
    exact own old tree held
  · exact staged dir was tree held

theorem rename_eq (staged : Staged disk.staging)
    (moved : disk.rename id target = some (renamed, tree)) :
    tree = .cloned id ∧ (disk.target target = none ∨ disk.target target = some .empty) ∧
      renamed.target = Function.update disk.target target (some (.cloned id)) ∧
      Staged renamed.staging := by
  rw [Disk.rename] at moved
  split at moved
  case h_1 => cases moved
  case h_2 => cases moved
  case h_3 => cases moved
  case h_4 dir found occupied foreign =>
      obtain ⟨held, filled, same⟩ := Option.map_eq_some_iff.mp moved
      obtain ⟨rfl, rfl⟩ := Prod.mk.inj same
      obtain ⟨member, key⟩ := Table.mem_of_find? found
      obtain rfl : dir.attemptId = id := beq_iff_eq.mp key
      obtain rfl := staged dir member held filled
      refine ⟨rfl, ?_, rfl, staged_update (by exact fun _ => rfl) staged fun _ _ => nofun⟩
      cases there : disk.target target with
      | none => exact .inl rfl
      | some tree =>
          cases tree with
          | cloned other => exact absurd there (occupied other)
          | foreign => exact absurd there foreign
          | empty => exact .inr rfl

theorem staged_delete {hits : StagingDir → Bool} (staged : Staged disk.staging) :
    Staged (disk.staging.deleteWhere hits) :=
  fun dir member => staged dir (Table.mem_deleteWhere.mp member).1

theorem staged_prepare {organizationId workspaceId : Uuid} (staged : Staged disk.staging) :
    Staged (disk.prepareStaging id organizationId workspaceId).staging := by
  have cleared : Staged (disk.removeStaging id).staging := staged_delete staged
  rw [Disk.prepareStaging]
  split
  case h_1 staging inserted =>
      intro dir member tree held
      rcases ((Table.insert?_eq_some inserted).2 dir).mp member with rfl | was
      · cases held
      · exact cleared dir was tree held
  case h_2 => exact cleared

end Staging

/-- What a call publishes: nothing, and no directory under the projects roots changes; or what was
cloned for an attempt that the worker had claimed, to the directory of the live project of the
attempt, where there was nothing. -/
inductive Publishes (before after : World) : Prop
  | nothing (publications : after.publications = before.publications)
      (target : after.disk.target = before.disk.target)
  | own (publication : Publication)
      (publications : after.publications = publication :: before.publications)
      (claimed : Owns before publication.workerId publication.attemptId)
      (aims : Aims before.db publication.attemptId publication.target)
      (live : ∃ row ∈ before.db.attempts, row.id = publication.attemptId ∧
        liveDirName before.db row.projectId = some publication.target.dirName.value)
      (free : before.disk.target publication.target = none ∨
        before.disk.target publication.target = some .empty)
      (target : after.disk.target = Function.update before.disk.target publication.target
        (some (.cloned publication.attemptId)))

theorem publishes_of_rename {workerId : String} {attemptId projectId : Uuid}
    {target : TargetPath} {success : CloneSuccess} {disk : Disk} {tree : Tree}
    (may : May config actor world (.publishReadyLocked workerId attemptId projectId target success))
    (staged : Staged world.disk.staging)
    (live : liveDirName world.db projectId = some target.dirName.value)
    (renamed : world.disk.rename attemptId target = some (disk, tree))
    (publications : after.publications = ⟨attemptId, workerId, target⟩ :: world.publications)
    (same : after.disk = disk) : Publishes world after := by
  obtain ⟨-, free, moved, -⟩ := rename_eq staged renamed
  cases actor with
  | worker =>
      obtain ⟨rfl, owns, ⟨organizationId, row, there, key, -, rfl⟩, aims⟩ := may
      exact .own _ publications owns aims ⟨row, there, key, live⟩ free (same ▸ moved)
  | reconciler | request => cases may

theorem publishes_effect (staged : Staged world.disk.staging)
    (may : May config actor world operation) (effect : Effect world operation after) :
    Publishes world after ∧ Staged after.disk.staging := by
  cases effect with
  | publish _ live renamed | rename live renamed =>
      exact ⟨publishes_of_rename may staged live renamed rfl rfl, (rename_eq staged renamed).2.2.2⟩
  | prepareStaging =>
      refine ⟨.nothing rfl ?_, staged_prepare staged⟩
      show (Disk.prepareStaging _ _ _ _).target = _
      rw [Disk.prepareStaging]
      split
      · rfl
      · rfl
  | cleanupStaging => exact ⟨.nothing rfl rfl, staged_delete staged⟩
  | run =>
      refine ⟨.nothing rfl rfl, staged_update (by exact fun _ => rfl) staged fun _ _ same => ?_⟩
      exact (Option.some.inj same).symm
  | _ => exact ⟨.nothing rfl rfl, staged⟩

theorem publishes_step (good : Good (rules config) pool) (staged : Staged pool.state.disk.staging)
    (choice : Choice) :
    Publishes pool.state (exec config pool (.step actor choice)).state ∧
      Staged (exec config pool (.step actor choice)).state.disk.staging := by
  rcases @step_effect config pool actor choice with
    same | ⟨operation, next, middle, due, effect, done | done⟩
  · rw [same]
    exact ⟨.nothing rfl rfl, staged⟩
  · rw [done]
    exact publishes_effect staged (good.may due) effect
  · have both := publishes_effect staged (good.may due) effect
    rw [done]
    cases recovers operation with
    | none => exact both
    | some recovery =>
        refine ⟨?_, both.2⟩
        cases both.1 with
        | nothing publications target => exact .nothing publications target
        | own publication publications claimed aims live free target =>
            exact .own publication publications claimed aims live free target

end Forge.CloneHistory
