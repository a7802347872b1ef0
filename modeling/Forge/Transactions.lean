import Forge.LivenessChanges
import Forge.System

/-! Every transaction of the system as a chain of parts, and the invariant of every world that
runs reach. -/

namespace Forge.Transactions

open Forge.AssignmentChanges
open Forge.Changes
open Forge.DependencyReadiness
open Forge.Library.Fallible
open Forge.Library.Identifier
open Forge.Library.JsonDocument
open Forge.Library.KeyedTable
open Forge.Library.StateMachine
open Forge.LifecycleChanges
open Forge.LivenessChanges
open Forge.OrchestrationDomain
open Forge.OrchestrationService
open Forge.ParticipantStatements
open Forge.Schema
open Forge.Soundness
open Forge.System
open Forge.TaskLifecycle
open Forge.TaskStatements
open Forge.TaskSteps

section Environment

variable {gate : Lifecycle → Task → Prop} {db : Db} {issued : List Issue} {now : Timestamp}
  {outcome : Outcome}

theorem carries_reconcileDependencies :
    Carries gate db issued (System.reconcileDependencies db now) := by
  refine .single (.move (.of_rewrite fun row member hit => ?_))
  simp only [reconcileSql, Bool.and_eq_true] at hit
  exact .release .queued now hit.1 (.inr rfl)

theorem carries_reapBlockedTasks {ttlSecs : Int}
    (allowed : ∀ row ∈ db.tasks, (reapBlockedTasksSql ttlSecs now).hits row = true →
      gate .reap row) : Carries gate db issued (System.reapBlockedTasks db ttlSecs now) := by
  refine .single (.move (.of_rewrite fun row member hit => ?_))
  have granted := allowed row member hit
  simp only [reapBlockedTasksSql, Bool.and_eq_true, beq_iff_eq] at hit
  exact .reap ttlSecs now hit.1.1 hit.1.2 granted

theorem carries_markOutboxPublished {id : Uuid} :
    Carries gate db issued (System.markOutboxPublished db id now) := by
  refine .single (.move (.of_others rfl .unchanged
    (.of_update (by intro; rfl) fun row hit => ?_) .same .same))
  simp only [Bool.and_eq_true, Option.isNone_iff_eq_none] at hit
  exact ⟨rfl, rfl, rfl, rfl, rfl, fun _ => hit.2⟩

theorem carries_touchTask {organizationId taskId : Uuid} {stamps : Bool} :
    Carries gate db issued (System.touchTask db organizationId taskId stamps now) :=
  .single (.move (.of_rewrite fun _ _ _ => .touch _ _ _))

theorem carries_purgeFinishedRuns {days : Int} :
    Carries gate db issued (System.purgeFinishedRuns db days now) := by
  rw [System.purgeFinishedRuns]
  split
  · exact .refl
  · refine .single (.move (.of_others rfl (.of_delete ?_) .same .same .same))
    intro task there working run _ owner _
    by_contra taken
    simp only [Bool.not_eq_false, Table.any_eq_true, Bool.and_eq_true, Bool.or_eq_true,
      beq_iff_eq] at taken
    obtain ⟨other, member, ⟨id, ended⟩, -⟩ := taken
    obtain rfl : other = task := Table.eq_of_key_eq member there (id.trans owner)
    rcases ended with (h | h) | h <;> simp [working] at h

theorem carries_putAgent {agent : Agent} (done : System.putAgent db agent = some outcome) :
    Carries gate db issued outcome := by
  rw [System.putAgent] at done
  split at done <;> obtain rfl := Option.some.inj done
  case h_1 agents inserted =>
      exact .single (.move (.of_others rfl .unchanged .same .same (.of_insert inserted)))
  case h_2 =>
      refine .single (.move (.of_others rfl .unchanged .same .same
        (.of_update (by intro; rfl) fun old hit => ?_)))
      simp only [Bool.and_eq_true, beq_iff_eq] at hit
      exact hit.2.symm

theorem carries_setRoutes {routes : Routes} :
    Carries gate db issued { db := { db with routes } } :=
  .single (.move (.of_others rfl .unchanged .same .same .same))

theorem carries_deleteAgent {organizationId agentId : Uuid} (sound : Sound ⟨db, issued⟩)
    (done : System.deleteAgent db organizationId agentId now = some outcome) :
    Carries gate db issued outcome := by
  rw [System.deleteAgent] at done
  split at done
  case isFalse => cases done
  case isTrue admitted =>
      obtain rfl := Option.some.inj done
      obtain ⟨idle, found, known, rfl, rfl⟩ := idle_of_admission admitted
      have unowned : ∀ task ∈ db.tasks, task.status = .working →
          task.assignedAgentId ≠ some found.id := by
        intro task member working assigned
        obtain ⟨agent, known', id, organization⟩ := sound.workers task member working _ assigned
        obtain rfl : agent = found := Table.eq_of_key_eq known' known id
        exact hasWorkingTask_eq_false_iff.1 idle task member organization.symm assigned working
      have detach : Moves gate ⟨db, issued⟩ ⟨cascade db found.id, issued⟩ := by
        refine .of_others rfl (.of_delete ?_) .same .of_delete .same
        intro task member working run _ _ assigned
        by_contra taken
        simp only [Bool.not_eq_false, beq_iff_eq] at taken
        exact unowned task member working (taken ▸ assigned)
      have clear : Moves gate ⟨cascade db found.id, issued⟩ ⟨{ cascade db found.id with
          tasks := (clearAgentSql found.id).execute db.tasks }, issued⟩ := by
        refine .of_rewrite fun task member hit => ?_
        simp only [clearAgentSql, beq_iff_eq] at hit
        exact .clearAgent found.id fun working => unowned task member working hit
      refine .head (.move detach) (.head (.move clear)
        (.single (.move (.of_others rfl .unchanged .same .same (.of_delete ?_)))))
      intro agent _ hit
      simp only [Bool.and_eq_true, beq_iff_eq] at hit
      constructor
      · intro task there _ assigned
        obtain ⟨old, member, rfl⟩ := (TaskUpdate.mem_execute _).1 there
        by_cases cleared : (clearAgentSql found.id).hits old = true
        · rw [if_pos cleared] at assigned
          cases assigned
        · rw [if_neg cleared, hit.1] at assigned
          exact cleared (by simp [clearAgentSql, assigned])
      · intro participant member same
        have kept := (Table.mem_deleteWhere.1 member).2
        simp [same, hit.1] at kept

end Environment

/-- The result write of `complete_task` under the version that it read. -/
def completeWrite (view : View) (organizationId taskId : Uuid) (result : Json) (now : Timestamp) :
    Option (Lifecycle × TaskUpdate) :=
  (findById (view taskId) organizationId taskId).toOption.map fun read =>
    (.complete, setResultSql organizationId taskId .completed result read.rowVersion now)

/-- The write of `cancel_task` under the version that it read. -/
def cancelWrite (view : View) (organizationId taskId : Uuid) (now : Timestamp) :
    Option (Lifecycle × TaskUpdate) :=
  (findById (view taskId) organizationId taskId).toOption.map fun read =>
    (.cancel, cancelTaskSql organizationId taskId read.rowVersion now)

/-- The write of a patch by its plan, of a state patch where it has no method of its own. -/
def patchWrite (later : View) (organizationId taskId : Uuid) (request : PatchTaskRequest)
    (now : Timestamp) : Option TaskStatus × Option Task × TaskPatchAction →
      Option (Lifecycle × TaskUpdate)
  | (_, _, .complete) =>
      completeWrite later organizationId taskId TaskPatchPolicy.manualCompleteResult now
  | (_, _, .cancel) => cancelWrite later organizationId taskId now
  | (some status, current, .patch) =>
      some (.patch,
        patchSql organizationId taskId (updateTaskRow (some status) request current) now)
  | _ => none

/-- The lifecycle statement that an action comes to, under what it read. -/
def lifecycleWrite (w : World) (a : Action) : Option (Lifecycle × TaskUpdate) :=
  match a.command with
  | .completeTask organizationId taskId result =>
      completeWrite (w.view a.reads) organizationId taskId result a.now
  | .cancelTask organizationId taskId => cancelWrite (w.view a.reads) organizationId taskId a.now
  | .updateTask organizationId taskId request =>
      (patchPlan (w.view a.reads) organizationId taskId request).toOption.bind
        (patchWrite (w.view a.later) organizationId taskId request a.now)
  | .retireStaleTasks organizationId groupId days batch =>
      (TaskRetirePolicy.validate days batch).toOption.map fun valid =>
        (.retire, retireStaleTasksSql (staleTaskIds (w.snapshot a.seen).tasks organizationId
          groupId valid.1 valid.2 a.now) a.now)
  | .reapBlockedTasks ttlSecs => some (.reap, reapBlockedTasksSql ttlSecs a.now)
  | _ => none

/-- The rows that an action's lifecycle statement matches meet the gate. -/
structure Respects (gate : Lifecycle → Task → Prop) (w : World) (a : Action) : Prop where
  write : ∀ kind statement, lifecycleWrite w a = some (kind, statement) → kind ≠ .approve →
    ∀ row ∈ w.db.tasks, statement.hits row = true → gate kind row
  approve : ∀ scope taskId, a.command = .approveTask scope taskId → ∀ row ∈ w.db.tasks,
    row.id = taskId → row.status = .blocked → row.blockedReason = some .waitingApproval →
      gate .approve row

theorem respects_true (w : World) (a : Action) : Respects (fun _ _ => True) w a :=
  ⟨fun _ _ _ _ _ _ _ => trivial, fun _ _ _ _ _ _ _ _ => trivial⟩

def retires (w : World) (a : Action) (row : Task) : Bool :=
  match lifecycleWrite w a with
  | some (.retire, statement) => statement.hits row
  | _ => false

def RetirementSpares (status : TaskStatus) (w : World) (a : Action) : Prop :=
  ∀ task ∈ w.db.tasks.rows, retires w a task = true → task.status ≠ status

instance (status : TaskStatus) (w : World) (a : Action) :
    Decidable (RetirementSpares status w a) :=
  inferInstanceAs (Decidable (∀ task ∈ w.db.tasks.rows, _))

theorem respects_retirementSpares {status : TaskStatus} {w : World} {a : Action}
    (spares : RetirementSpares status w a) :
    Respects (fun kind task => kind = .retire → task.status ≠ status) w a := by
  constructor
  · rintro kind statement written - row member hit rfl
    exact spares row member (by simpa [retires, written] using hit)
  · intro scope taskId command row member id blocked waits same
    cases same

def History (w : World) : Prop :=
  ∀ old ∈ w.past, ∀ read ∈ old.tasks, ∃ row ∈ w.db.tasks, row.id = read.id ∧ Later read row

def stageOf (w : World) : Stage := ⟨w.db, w.issued⟩

theorem snapshot_mem (w : World) (commitsAgo : Nat) : w.snapshot commitsAgo ∈ w.db :: w.past := by
  rw [World.snapshot, List.getD_eq_getElem?_getD]
  cases found : (w.db :: w.past)[commitsAgo]? with
  | none => exact List.mem_cons_self
  | some db => exact List.mem_of_getElem? found

theorem trails_of_history {w : World} (history : History w) (commitsAgo : Uuid → Nat) :
    Trails (w.view commitsAgo) w.db.tasks := by
  intro id read seen
  rcases List.mem_cons.1 (snapshot_mem w (commitsAgo id)) with current | past
  · exact ⟨read, by rw [← current]; exact seen, rfl, .inl rfl⟩
  · exact history _ past read seen

section Execution

variable {crypto : Crypto} {gate : Lifecycle → Task → Prop} {w : World} {a : Action}
  {outcome : Outcome}

theorem transact_carries (sound : Sound (stageOf w)) (history : History w)
    (fresh : FreshDelivery w a) (respects : Respects gate w a)
    (done : transact crypto w a = some outcome) : Carries gate w.db w.issued outcome := by
  have trails := trails_of_history history
  rw [transact] at done
  cases command : a.command with
  | createTask scope request taskId =>
      rw [command] at done
      exact carries_createTask sound fresh (toOption_eq_some.1 done)
  | createRecurringTask organizationId groupId title description priority approval taskId =>
      rw [command] at done
      exact carries_createRecurringTask (toOption_eq_some.1 done)
  | createMaintenanceTask organizationId groupId title brief source taskId =>
      rw [command] at done
      exact carries_createMaintenanceTask (toOption_eq_some.1 done)
  | releaseReadyDependencyBlock organizationId taskId toQueued =>
      rw [command] at done
      obtain ⟨task, -, done⟩ := Option.bind_eq_some_iff.1 done
      refine carries_releaseReadyDependencyBlock ?_ (toOption_eq_some.1 done)
      cases toQueued
      · exact .inl rfl
      · exact .inr rfl
  | tryAutoDispatch organizationId taskId =>
      rw [command] at done
      obtain ⟨task, found, done⟩ := Option.bind_eq_some_iff.1 done
      exact carries_tryAutoDispatch sound fresh (trails a.reads) (toOption_eq_some.1 found)
        (toOption_eq_some.1 done)
  | dispatchTask organizationId taskId =>
      rw [command] at done
      exact carries_dispatchTask sound fresh (trails a.reads) (toOption_eq_some.1 done)
  | assignTask organizationId taskId agentId =>
      rw [command] at done
      exact carries_assignExistingTask sound fresh (trails a.reads) (toOption_eq_some.1 done)
  | updateTask organizationId taskId request =>
      rw [command] at done
      refine carries_updateTask sound fresh (trails a.reads) (trails a.later) ?_ ?_ ?_
        (toOption_eq_some.1 done)
      · intro state current plan read found
        refine respects.write .complete _ ?_ (by simp)
        simp [lifecycleWrite, command, plan, patchWrite, completeWrite, found, Except.toOption]
      · intro state current plan read found
        refine respects.write .cancel _ ?_ (by simp)
        simp [lifecycleWrite, command, plan, patchWrite, cancelWrite, found, Except.toOption]
      · intro state current plan given
        obtain ⟨status, rfl⟩ := Option.isSome_iff_exists.1 given
        refine respects.write .patch _ ?_ (by simp)
        simp [lifecycleWrite, command, plan, patchWrite, Except.toOption]
  | completeTask organizationId taskId result =>
      rw [command] at done
      refine carries_completeTask sound (trails a.reads) (fun read found => ?_)
        (toOption_eq_some.1 done)
      refine respects.write .complete _ ?_ (by simp)
      simp [lifecycleWrite, command, completeWrite, found, Except.toOption]
  | failTask organizationId taskId error =>
      rw [command] at done
      exact absurd (toOption_eq_some.1 done) (failTask_refused sound (trails a.reads))
  | cancelTask organizationId taskId =>
      rw [command] at done
      refine carries_cancelTask (trails a.reads) (fun read found => ?_) (toOption_eq_some.1 done)
      refine respects.write .cancel _ ?_ (by simp)
      simp [lifecycleWrite, command, cancelWrite, found, Except.toOption]
  | retryTask organizationId taskId =>
      rw [command] at done
      exact carries_retryTask (trails a.reads) (toOption_eq_some.1 done)
  | approveTask scope taskId =>
      rw [command] at done
      refine carries_approveTask (trails a.reads) ?_ (toOption_eq_some.1 done)
      intro read lane reason metadata found row member hit
      simp only [approveWaitingTaskSql, Bool.and_eq_true, isTask_iff, beq_iff_eq] at hit
      exact respects.approve scope taskId command row member hit.1.1.1.1.1 hit.1.1.1.2 hit.1.1.2
  | retireStaleTasks organizationId groupId days batch =>
      rw [command] at done
      refine carries_retireStaleTasks ?_ (toOption_eq_some.1 done)
      intro validDays validBatch valid
      refine respects.write .retire _ ?_ (by simp)
      simp [lifecycleWrite, command, valid, Except.toOption]
  | quarantine organizationId agentId =>
      rw [command] at done
      exact Option.some.inj done ▸ carries_quarantine
  | releaseIfIdle organizationId agentId =>
      rw [command] at done
      exact carries_releaseIfIdle (toOption_eq_some.1 done)
  | registerParticipant organizationId agentId name capabilities =>
      rw [command] at done
      exact carries_registerParticipant (toOption_eq_some.1 done)
  | participantHeartbeat organizationId agentId =>
      rw [command] at done
      exact carries_participantHeartbeat (toOption_eq_some.1 done)
  | markParticipantOffline organizationId agentId =>
      rw [command] at done
      exact carries_markParticipantOffline (toOption_eq_some.1 done)
  | unregisterParticipant organizationId agentId =>
      rw [command] at done
      exact carries_unregisterParticipant (toOption_eq_some.1 done)
  | sidecarHeartbeat agentId capabilities =>
      rw [command] at done
      exact carries_sidecarHeartbeat (toOption_eq_some.1 done)
  | markStaleOffline staleAfterSecs =>
      rw [command] at done
      exact Option.some.inj done ▸ carries_markStaleOffline
  | markOfflineByAgentIds agentIds =>
      rw [command] at done
      exact Option.some.inj done ▸ carries_markOfflineByAgentIds
  | reconcileOrphanedBusy =>
      rw [command] at done
      exact Option.some.inj done ▸ carries_reconcileOrphanedBusy
  | expireWorkingLeases staleAfterSecs =>
      rw [command] at done
      exact Option.some.inj done ▸ carries_expireWorkingLeases
  | claimNextTask agentId locked =>
      rw [command] at done
      exact carries_claimNextTask sound fresh (toOption_eq_some.1 done)
  | reconcileDependencies =>
      rw [command] at done
      exact Option.some.inj done ▸ carries_reconcileDependencies
  | reapBlockedTasks ttlSecs =>
      rw [command] at done
      refine Option.some.inj done ▸ carries_reapBlockedTasks (respects.write .reap _ ?_ (by simp))
      simp [lifecycleWrite, command]
  | handleResult subjectPrefix subject payload =>
      rw [command] at done
      obtain ⟨⟨organizationId, result⟩, -, done⟩ := bind_eq_ok.1 (toOption_eq_some.1 done)
      exact carries_apply (mapError_eq_ok.1 done)
  | markOutboxPublished id =>
      rw [command] at done
      exact Option.some.inj done ▸ carries_markOutboxPublished
  | touchTask organizationId taskId stamps =>
      rw [command] at done
      exact Option.some.inj done ▸ carries_touchTask
  | purgeFinishedRuns days =>
      rw [command] at done
      exact Option.some.inj done ▸ carries_purgeFinishedRuns
  | putAgent agent =>
      rw [command] at done
      exact carries_putAgent done
  | deleteAgent organizationId agentId =>
      rw [command] at done
      exact carries_deleteAgent sound done
  | setRoutes routes =>
      rw [command] at done
      exact Option.some.inj done ▸ carries_setRoutes

theorem exec_changes (crypto : Crypto) (sound : Sound (stageOf w)) (history : History w)
    (fresh : FreshDelivery w a) (respects : Respects gate w a) :
    Relation.ReflTransGen (Change gate) (stageOf w) (stageOf (exec crypto w a)) := by
  rw [exec]
  split
  case h_1 outcome done => exact transact_carries sound history fresh respects done
  case h_2 => exact .refl

theorem later_of_changes {before after : Stage} (sound : Sound before)
    (chain : Relation.ReflTransGen (Change gate) before after) :
    Table.Evolves Later (fun _ => True) before.db.tasks after.db.tasks :=
  evolves_of_chain (fun _ => .inl rfl) Later.trans (fun _ _ _ _ _ _ _ step => step.later) chain
    sound

end Execution

/-- The invariant of every world that runs reach. -/
structure SoundWorld (w : World) : Prop where
  sound : Sound (stageOf w)
  history : History w

section Reachability

variable {crypto : Crypto} {condition : World → Action → Prop} {w : World} {a : Action}

theorem soundWorld_start : SoundWorld World.start :=
  ⟨sound_empty, by simp [History, World.start]⟩

theorem soundWorld_commit {gate : Lifecycle → Task → Prop} {outcome : Outcome}
    (sound : SoundWorld w) (carries : Carries gate w.db w.issued outcome) :
    SoundWorld (w.commit outcome) := by
  have later := later_of_changes sound.sound carries
  refine ⟨sound_of_chain carries sound.sound, ?_⟩
  intro old past read seen
  obtain ⟨row, there, id, first⟩ : ∃ row ∈ w.db.tasks, row.id = read.id ∧ Later read row := by
    rcases List.mem_cons.1 past with rfl | past
    · exact ⟨read, seen, rfl, .inl rfl⟩
    · exact sound.history old past read seen
  obtain ⟨next, there', id', second⟩ := later.forward there
  exact ⟨next, there', id'.trans id, first.trans second⟩

theorem soundWorld_exec (sound : SoundWorld w) (fresh : FreshDelivery w a) :
    SoundWorld (exec crypto w a) := by
  rw [exec]
  split
  case h_1 outcome done =>
      exact soundWorld_commit sound
        (transact_carries sound.sound sound.history fresh (respects_true w a) done)
  case h_2 => exact sound

theorem soundWorld_of_reachable (reachable : ReachableWhen crypto condition w) :
    SoundWorld w :=
  reachable.invariant (fun _ start => start ▸ soundWorld_start)
    fun _ _ sound allowed => soundWorld_exec sound allowed.1

theorem reachable_induction {gate : Lifecycle → Task → Prop} {P : Stage → Prop}
    (start : P (stageOf .start)) (keep : ∀ s t, Sound s → Change gate s t → P s → P t)
    (respects : ∀ w a, condition w a → Respects gate w a)
    (reachable : ReachableWhen crypto condition w) : P (stageOf w) := by
  let Inv : World → Prop := fun w => SoundWorld w ∧ P (stageOf w)
  have begin : ∀ s, s = World.start → Inv s := fun s initial =>
    initial ▸ ⟨soundWorld_start, start⟩
  have step : ∀ s a, Inv s → FreshDelivery s a ∧ condition s a → Inv (exec crypto s a) := by
    rintro s a ⟨sound, holds⟩ ⟨fresh, allowed⟩
    have chain := exec_changes crypto sound.sound sound.history fresh
      (respects s a allowed)
    exact ⟨soundWorld_exec sound fresh, (chain_induction keep chain sound.sound holds).2⟩
  exact (Reachable.invariant begin step reachable).2

end Reachability

end Forge.Transactions
