import Forge.Transactions

/-! Blocked reasons: a task has a reason exactly while it is blocked, as long as no completion,
cancellation, patch, reaper or retirement takes a blocked task. -/

namespace Forge.BlockedReasons

open Forge.Changes
open Forge.DependencyReadiness
open Forge.Library.KeyedTable
open Forge.OrchestrationView
open Forge.Schema
open Forge.System
open Forge.TaskSteps
open Forge.TaskStatements
open Forge.Transactions

def lifecycleHits (w : World) (a : Action) (row : Task) : Bool :=
  match lifecycleWrite w a with
  | some (_, statement) => statement.hits row
  | none => false

def SparesBlocked (w : World) (a : Action) : Prop :=
  ∀ task ∈ w.db.tasks.rows, lifecycleHits w a task = true → task.status ≠ .blocked

instance (w : World) (a : Action) : Decidable (SparesBlocked w a) :=
  inferInstanceAs (Decidable (∀ task ∈ w.db.tasks.rows, _))

/-- A row outside `blocked` has no reason. -/
def Unreasoned (task : Task) : Prop :=
  task.status ≠ .blocked → task.blockedReason = none

theorem respects_sparesBlocked {w : World} {a : Action} (spares : SparesBlocked w a) :
    Respects (fun kind task => kind ≠ .approve → task.status ≠ .blocked) w a := by
  constructor
  · intro kind statement written _ row member hit _
    exact spares row member (by simpa [lifecycleHits, written] using hit)
  · intro scope taskId command row member id blocked waits other
    exact absurd rfl other

section Steps

variable {gate : Lifecycle → Task → Prop} {tasks : Tasks} {before after : Task}

theorem unreasoned_of_planned {spec : TaskSpec} {requiresApproval : Bool} {task : Task}
    (planned : Planned spec requiresApproval task.status task.blockedReason) :
    Unreasoned task := by
  intro unblocked
  generalize status_eq : task.status = status at planned unblocked
  generalize reason_eq : task.blockedReason = reason at planned
  cases planned with
  | ready => rfl
  | _ => exact absurd rfl unblocked

theorem unreasoned_of_kept (unblocked : before.status ≠ .blocked) (clean : Unreasoned before)
    (reason : after.blockedReason = before.blockedReason) : Unreasoned after :=
  fun _ => reason.trans (clean unblocked)

theorem unreasoned_of_rewrite
    (spares : ∀ kind, kind ≠ .approve → gate kind before → before.status ≠ .blocked)
    (rewritten : Rewrite gate before after) (clean : Unreasoned before) : Unreasoned after := by
  cases rewritten with
  | touch => exact clean
  | clearAgent => exact clean
  | patch organizationId id update now unassigns lane =>
      cases given : update.status with
      | some status =>
          obtain ⟨-, -, allowed⟩ := lane status given
          exact unreasoned_of_kept (spares .patch (by simp) allowed) clean rfl
      | none =>
          intro unblocked
          refine clean ?_
          simpa [TaskUpdate.apply, patchSql, Task.bumpRowVersion, given] using unblocked
  | release => exact fun _ => rfl
  | block => exact fun unblocked => absurd rfl unblocked
  | approve _ _ _ _ _ _ _ _ planned => exact unreasoned_of_planned planned
  | retry _ _ _ _ _ _ _ planned => exact unreasoned_of_planned planned
  | complete _ _ _ _ _ _ _ allowed =>
      exact unreasoned_of_kept (spares .complete (by simp) allowed) clean rfl
  | cancel _ _ _ _ _ _ allowed =>
      exact unreasoned_of_kept (spares .cancel (by simp) allowed) clean rfl
  | reap _ _ _ _ allowed => exact unreasoned_of_kept (spares .reap (by simp) allowed) clean rfl
  | retire _ _ allowed => exact unreasoned_of_kept (spares .retire (by simp) allowed) clean rfl

theorem unreasoned_of_settle (settled : Settle before after) (working : before.status = .working)
    (clean : Unreasoned before) : Unreasoned after := by
  have unblocked : before.status ≠ .blocked := by simp [working]
  cases settled with
  | hold => exact fun unblocked => absurd rfl unblocked
  | _ => exact unreasoned_of_kept unblocked clean rfl

theorem unreasoned_of_step
    (spares : ∀ kind, kind ≠ .approve → gate kind before → before.status ≠ .blocked)
    (step : TaskStep gate tasks before after) (clean : Unreasoned before) : Unreasoned after := by
  cases step with
  | move moved =>
      cases moved with
      | stay same => exact same ▸ clean
      | rewrite rewritten => exact unreasoned_of_rewrite spares rewritten clean
      | settle working settled => exact unreasoned_of_settle settled working clean
  | assign _ _ assigned =>
      obtain ⟨now, rfl⟩ := assigned.result
      exact fun _ => rfl

end Steps

section Runs

variable {crypto : Crypto} {w : World}

theorem unreasoned_of_reachable (reachable : ReachableWhen crypto SparesBlocked w) :
    ∀ task ∈ w.db.tasks, Unreasoned task := by
  let P : Stage → Prop := fun stage => ∀ task ∈ stage.db.tasks, Unreasoned task
  have start : P (stageOf .start) := fun task member => absurd member (Table.not_mem_empty task)
  refine reachable_induction start ?_ (fun w a => respects_sparesBlocked) reachable
  intro s t _ change clean
  exact change.evolves.preserves (fun row born => unreasoned_of_planned born.planned)
    (fun _ _ _ _ step => unreasoned_of_step (fun _ other spared => spared other) step) clean

/-- In a run whose lifecycle statements take no blocked task, a task is blocked exactly when it
has a reason, and its reason is one of the domain's. -/
theorem blocked_iff_reason (reachable : ReachableWhen crypto SparesBlocked w) :
    ∀ task ∈ w.db.tasks, (task.status = .blocked ↔ task.blockedReason.isSome = true)
      ∧ ∀ reason, task.blockedReason = some reason →
        BlockedTaskPolicy.isValidReason reason = true := by
  have sound := soundWorld_of_reachable reachable
  intro task member
  have inv := sound.sound.rows task member
  refine ⟨⟨inv.reasoned, fun reasoned => ?_⟩, inv.known⟩
  by_contra unblocked
  have none := unreasoned_of_reachable reachable task member unblocked
  simp [none] at reasoned

end Runs

def approvalPending : List Action :=
  [Sample.create (Sample.named 20) none true, Sample.create (Sample.named 21) none false,
    Sample.queue (Sample.named 21)]

def pendingWorld : World := runFrom Sample.crypto .start approvalPending

theorem reachable_pendingWorld : ReachableWhen Sample.crypto SparesBlocked pendingWorld :=
  reachableWhen_run (by decide +kernel)

theorem blocked_iff_reason_pending :
    (pendingWorld.db.tasks.rows.map fun task => (task.status, task.blockedReason))
        = [(.queued, none), (.blocked, some .waitingApproval)]
      ∧ ∀ task ∈ pendingWorld.db.tasks,
        (task.status = .blocked ↔ task.blockedReason.isSome = true)
        ∧ ∀ reason, task.blockedReason = some reason →
          BlockedTaskPolicy.isValidReason reason = true :=
  ⟨by decide +kernel, blocked_iff_reason reachable_pendingWorld⟩

/-- Canceling the task that waits leaves it `canceled` with the reason `waiting_approval`. -/
theorem cancel_keeps_reason :
    ¬∀ w, ReachableWorld Sample.crypto w → ∀ task ∈ w.db.tasks,
      (task.status = .blocked ↔ task.blockedReason.isSome = true) := by
  intro consistent
  let cancel := Sample.act 0 0 (.cancelTask Sample.organization (Sample.named 20))
  have fresh : FreshDelivery pendingWorld cancel := by decide +kernel
  have after := consistent _ (reachable_pendingWorld.anyRun.step ⟨fresh, trivial⟩)
  obtain ⟨task, member, status, reason⟩ : ∃ task ∈
      (exec Sample.crypto pendingWorld cancel).db.tasks.rows,
      task.status = .canceled ∧ task.blockedReason = some .waitingApproval := by
    decide +kernel
  have blocked := (after task member).2 (by simp [reason])
  simp [status] at blocked

end Forge.BlockedReasons
