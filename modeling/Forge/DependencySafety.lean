import Forge.Transactions

/-! Dependency safety: a task that works or is completed has all its prerequisites completed,
and completed tasks stay completed, as long as no retirement takes one. -/

namespace Forge.DependencySafety

open Forge.Changes
open Forge.DependencyReadiness
open Forge.Library.Identifier
open Forge.Library.JsonDocument
open Forge.Library.KeyedTable
open Forge.OrchestrationView
open Forge.ReadinessAgreement
open Forge.Schema
open Forge.Soundness
open Forge.System
open Forge.TaskSteps
open Forge.TaskStatements
open Forge.Transactions

def Started (task : Task) : Prop :=
  task.status = .working ∨ task.status = .completed
    ∨ task.status = .blocked ∧ task.blockedReason = some .waitingVerification

section Steps

variable {gate : Lifecycle → Task → Prop} {before after : Task}

theorem not_started_of_planned {spec : TaskSpec} {requiresApproval : Bool} {task : Task}
    (planned : Planned spec requiresApproval task.status task.blockedReason) : ¬Started task := by
  generalize status_eq : task.status = status at planned
  generalize reason_eq : task.blockedReason = reason at planned
  cases planned with
  | ready _ start => rcases start with rfl | rfl <;> simp [Started, status_eq]
  | _ => simp [Started, status_eq, reason_eq]

theorem started_of_rewrite (rewritten : Rewrite gate before after) (started : Started after) :
    Started before := by
  cases rewritten with
  | touch => exact started
  | clearAgent => exact started
  | patch organizationId id update now unassigns lane =>
      cases given : update.status with
      | some status =>
          obtain ⟨start, -⟩ := lane status given
          have same : ((patchSql organizationId id update now).apply before).status = status := by
            simp [TaskUpdate.apply, patchSql, Task.bumpRowVersion, given]
          rcases start with rfl | rfl <;> simp [Started, same] at started
      | none =>
          simpa [Started, TaskUpdate.apply, patchSql, Task.bumpRowVersion, given] using started
  | release lane now waits start =>
      rcases start with rfl | rfl <;>
        simp [Started, releaseTo, Task.bumpRowVersion] at started
  | block =>
      simp [Started, TaskUpdate.apply, markBlockedIfUnchangedSql, Task.bumpRowVersion] at started
  | approve _ _ _ _ _ _ _ _ planned => exact absurd started (not_started_of_planned planned)
  | retry _ _ _ _ _ _ _ planned => exact absurd started (not_started_of_planned planned)
  | complete _ _ _ _ _ blocked held => exact .inr (.inr ⟨blocked, held⟩)
  | cancel => simp [Started, TaskUpdate.apply, cancelTaskSql, Task.bumpRowVersion] at started
  | reap => simp [Started, TaskUpdate.apply, reapBlockedTasksSql, Task.bumpRowVersion] at started
  | retire => simp [Started, TaskUpdate.apply, retireStaleTasksSql, Task.bumpRowVersion] at started

theorem started_of_move (moved : TaskMove gate before after) (started : Started after) :
    Started before := by
  cases moved with
  | stay same => exact same ▸ started
  | rewrite rewritten => exact started_of_rewrite rewritten started
  | settle working => exact .inl working

theorem keeps_completed_of_rewrite (rewritten : Rewrite gate before after)
    (spared : ¬gate .retire before) (done : before.status = .completed) :
    after.status = .completed := by
  cases rewritten with
  | touch => exact done
  | clearAgent => exact done
  | patch organizationId id update now unassigns lane =>
      cases given : update.status with
      | some status =>
          obtain ⟨-, movable, -⟩ := lane status given
          rcases movable with h | h | ⟨h, -⟩ <;> simp [done] at h
      | none => simpa [TaskUpdate.apply, patchSql, Task.bumpRowVersion, given] using done
  | release lane now waits =>
      have blocked := (waitsForDependency_iff.1 waits).1
      simp [done] at blocked
  | block _ _ _ _ _ _ enters =>
      obtain ⟨lane, -⟩ := BlockedTaskPolicy.canEnterDispatch_iff.1 enters
      simp [done] at lane
  | approve _ _ _ _ _ _ blocked => simp [done] at blocked
  | retry _ _ _ _ _ _ ended => simp [done] at ended
  | complete => rfl
  | cancel _ _ _ _ _ unfinished => exact absurd done unfinished
  | reap _ _ blocked => simp [done] at blocked
  | retire _ _ allowed => exact absurd allowed spared

theorem keeps_completed_of_step {tasks : Tasks} (step : TaskStep gate tasks before after)
    (spared : ¬gate .retire before) (done : before.status = .completed) :
    after.status = .completed := by
  cases step with
  | move moved =>
      cases moved with
      | stay same => rw [same, done]
      | rewrite rewritten => exact keeps_completed_of_rewrite rewritten spared done
      | settle working => simp [done] at working
  | assign _ _ assigned => rcases assigned.lane with h | h <;> simp [done] at h

end Steps

section Runs

variable {gate : Lifecycle → Task → Prop} {before after : Stage}

def Admitted (stage : Stage) : Prop :=
  ∀ task ∈ stage.db.tasks, Started task →
    prerequisitesReady stage.db.tasks task.organizationId task.params task.parentTaskId = true

theorem isCompleted_of_change (spares : ∀ task, gate .retire task → task.status ≠ .completed)
    (change : Change gate before after) {organizationId id : Uuid}
    (done : isCompleted before.db.tasks organizationId id = true) :
    isCompleted after.db.tasks organizationId id = true := by
  obtain ⟨task, member, rfl, rfl, status⟩ := isCompleted_iff.1 done
  obtain ⟨next, there, same, step⟩ := change.evolves.forward member
  have organization := congrArg TaskSpec.organizationId step.spec
  have still := keeps_completed_of_step step (fun retired => spares task retired status) status
  exact isCompleted_iff.2 ⟨next, there, same, organization, still⟩

theorem admitted_of_change (spares : ∀ task, gate .retire task → task.status ≠ .completed)
    (change : Change gate before after) (admitted : Admitted before) : Admitted after := by
  intro task member started
  rcases change.evolves.origin task member with ⟨earlier, was, -, step⟩ | ⟨born, -⟩
  · have ready : prerequisitesReady before.db.tasks earlier.organizationId earlier.params
        earlier.parentTaskId = true := by
      cases step with
      | move moved => exact admitted earlier was (started_of_move moved started)
      | assign _ _ assigned => exact assigned.ready
    rw [step.spec]
    exact prerequisitesReady_mono (fun _ => isCompleted_of_change spares change) ready
  · exact absurd started (not_started_of_planned born.planned)

end Runs

/-- The parent and every listed dependency of a task that works or is completed are completed. -/
def PrerequisitesDone (w : World) : Prop :=
  ∀ task ∈ w.db.tasks, task.status = .working ∨ task.status = .completed →
    (∀ parentId, task.parentTaskId = some parentId →
      isCompleted w.db.tasks task.organizationId parentId = true)
    ∧ ∀ item ∈ arrayItems (arrow task.params "dependency_ids"), ∃ id,
      item = .string id.toText ∧ isCompleted w.db.tasks task.organizationId id = true

section Safety

variable {crypto : Crypto} {w : World}

theorem admitted_of_reachable (reachable : ReachableWhen crypto (RetirementSpares .completed) w) :
    Admitted (stageOf w) := by
  refine reachable_induction ?_ (fun s t _ change => admitted_of_change ?_ change)
    (fun w a => respects_retirementSpares) reachable
  · intro task member
    exact absurd member (Table.not_mem_empty task)
  · exact fun task spared => spared rfl

theorem completed_stays {later : World} {organizationId id : Uuid} (sound : SoundWorld w)
    (reaches : ReachesWhen crypto (RetirementSpares .completed) w later)
    (done : isCompleted w.db.tasks organizationId id = true) :
    isCompleted later.db.tasks organizationId id = true := by
  let P : Stage → Prop := fun stage => isCompleted stage.db.tasks organizationId id = true
  have keep : ∀ s a, SoundWorld s → P (stageOf s) →
      FreshDelivery s a ∧ RetirementSpares .completed s a → P (stageOf (exec crypto s a)) := by
    intro s a sound holds allowed
    have chain := exec_changes crypto sound.sound sound.history allowed.1
      (respects_retirementSpares allowed.2)
    exact (@chain_induction _ _ _ P (fun _ _ _ change =>
      isCompleted_of_change (fun _ spared => spared rfl) change) chain sound.sound holds).2
  exact (reaches.stable (fun s a sound allowed => soundWorld_exec sound allowed.1) keep sound
    done).2

theorem listed_completed {tasks : Tasks} {task : Task}
    (canonical : CanonicalDependencies task.params)
    (ready : prerequisitesReady tasks task.organizationId task.params task.parentTaskId = true) :
    ∀ item ∈ arrayItems (arrow task.params "dependency_ids"), ∃ id,
      item = .string id.toText ∧ isCompleted tasks task.organizationId id = true := by
  have done := (prerequisitesReady_iff.1 ready).2
  intro item member
  rcases canonical with missing | ⟨ids, few, stored⟩
  · simp [missing, arrayItems] at member
  · rw [fromParams_of_canonical few stored] at done
    simp only [stored, arrayItems, Option.bind_some, Json.asArray, Option.getD_some,
      List.mem_map] at member
    obtain ⟨id, listed, rfl⟩ := member
    exact ⟨id, rfl, done id listed⟩

/-- In a run whose retirements name no completed task, the prerequisites of working and completed
tasks are completed, and what is completed stays completed. -/
theorem dependency_safety (reachable : ReachableWhen crypto (RetirementSpares .completed) w) :
    PrerequisitesDone w
    ∧ ∀ later, ReachesWhen crypto (RetirementSpares .completed) w later →
        ∀ organizationId id, isCompleted w.db.tasks organizationId id = true →
          isCompleted later.db.tasks organizationId id = true := by
  have sound := soundWorld_of_reachable reachable
  constructor
  · intro task member status
    have ready := admitted_of_reachable reachable task member (by
      rcases status with h | h
      · exact .inl h
      · exact .inr (.inl h))
    refine ⟨fun parentId declared => ?_,
      listed_completed (sound.sound.rows task member).canonical ready⟩
    have parent := (prerequisitesReady_iff.1 ready).1
    rwa [declared, parentClause] at parent
  · intro later reaches organizationId id done
    exact completed_stays sound reaches done

end Safety

def childClaimed : List Action :=
  Sample.staffed ++ Sample.claimed (Sample.named 20) (Sample.named 10) 30
    ++ [Sample.report (Sample.named 20) (Sample.named 10) 30 1,
      Sample.create (Sample.named 21) (some (Sample.named 20)) false,
      Sample.queue (Sample.named 21),
      Sample.act Sample.day 31 (.claimNextTask (Sample.named 10) [])]

def childWorld : World := runFrom Sample.crypto .start childClaimed

def retireParent : Action :=
  { Sample.act Sample.day 0
      (.retireStaleTasks Sample.organization Sample.group (some 1) none) with seen := 5 }

theorem childWorld_evaluated :
    AllMeet Sample.crypto (RetirementSpares .completed) .start childClaimed
      ∧ (childWorld.db.tasks.rows.map fun task => (task.status, task.parentTaskId))
        = [(.working, some (Sample.named 20)), (.completed, none)]
      ∧ FreshDelivery childWorld retireParent
      ∧ isCompleted childWorld.db.tasks Sample.organization (Sample.named 20) = true
      ∧ isCompleted (exec Sample.crypto childWorld retireParent).db.tasks Sample.organization
        (Sample.named 20) = false
      ∧ ∃ task ∈ (exec Sample.crypto childWorld retireParent).db.tasks.rows,
        task.status = .working ∧ task.parentTaskId = some (Sample.named 20)
          ∧ task.organizationId = Sample.organization := by
  decide +kernel

theorem reachable_childWorld :
    ReachableWhen Sample.crypto (RetirementSpares .completed) childWorld :=
  reachableWhen_run childWorld_evaluated.1

/-- The claimed child has its parent completed, in that run and in what may follow it. -/
theorem dependency_safety_childWorld :
    (childWorld.db.tasks.rows.map fun task => (task.status, task.parentTaskId))
        = [(.working, some (Sample.named 20)), (.completed, none)]
      ∧ PrerequisitesDone childWorld :=
  ⟨childWorld_evaluated.2.1, (dependency_safety reachable_childWorld).1⟩

/-- The retirement cancels the completed parent under the working child. -/
theorem retirement_breaks_dependency_safety :
    (¬∀ w, ReachableWorld Sample.crypto w → PrerequisitesDone w)
    ∧ ¬∀ w, ReachableWorld Sample.crypto w → ∀ a, FreshDelivery w a → ∀ organizationId id,
        isCompleted w.db.tasks organizationId id = true →
          isCompleted (exec Sample.crypto w a).db.tasks organizationId id = true := by
  have reachable := reachable_childWorld.anyRun
  obtain ⟨-, -, fresh, done, lost, child, member, working, parent, organization⟩ :=
    childWorld_evaluated
  constructor
  · intro safe
    have after := safe _ (reachable.step ⟨fresh, trivial⟩)
    have still := (after child member (.inl working)).1 _ parent
    rw [organization, lost] at still
    exact absurd still Bool.false_ne_true
  · intro stable
    have still := stable childWorld reachable retireParent fresh _ _ done
    rw [lost] at still
    exact absurd still Bool.false_ne_true

end Forge.DependencySafety
