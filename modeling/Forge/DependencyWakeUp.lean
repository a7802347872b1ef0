import Forge.Transactions

/-! No lost wake-up: one reconcile tick releases every task whose prerequisites are completed. -/

namespace Forge.DependencyWakeUp

open Forge.DependencyReadiness
open Forge.Library.JsonDocument
open Forge.OrchestrationDomain
open Forge.ReadinessAgreement
open Forge.Schema
open Forge.System
open Forge.TaskSteps
open Forge.TaskStatements
open Forge.Transactions

section Tick

variable {crypto : Crypto} {w : World} {a : Action} {now : Timestamp} {tasks : Tasks}

theorem waitsForDependency_of_reason {task : Task} (inv : RowInvariant task)
    (blocked : task.status = .blocked) (waits : task.blockedReason = some .waitingDependency) :
    waitsForDependency task = true := by
  have free := inv.free_of_reason (by simp [blocked]) (by simp [waits]) (by simp [waits])
  exact waitsForDependency_iff.2 ⟨blocked, waits, inv.idle (.inr (.inr blocked)), free⟩

theorem declares_of_reason {task : Task} (inv : RowInvariant task)
    (blocked : task.status = .blocked) (waits : task.blockedReason = some .waitingDependency) :
    task.parentTaskId.isSome = true ∨ arrayItems (arrow task.params "dependency_ids") ≠ [] := by
  refine (inv.declared blocked waits).imp_right fun declared empty => declared ?_
  simp [TaskDependencyPolicy.fromParams, empty]

theorem isCompleted_of_reconcile {organizationId id : Library.Identifier.Uuid}
    (done : isCompleted ((reconcileSql tasks now).execute tasks) organizationId id = true) :
    isCompleted tasks organizationId id = true := by
  obtain ⟨task, member, same, organization, status⟩ := isCompleted_iff.1 done
  obtain ⟨old, was, rfl⟩ := (TaskUpdate.mem_execute _).1 member
  by_cases hit : (reconcileSql tasks now).hits old = true
  · rw [if_pos hit] at status
    cases status
  · rw [if_neg hit] at same organization status
    exact isCompleted_iff.2 ⟨old, was, same, organization, status⟩

theorem unready_of_missed {task : Task} (inv : RowInvariant task)
    (blocked : task.status = .blocked) (waits : task.blockedReason = some .waitingDependency)
    (missed : ¬(reconcileSql tasks now).hits task = true) :
    prerequisitesReady tasks task.organizationId task.params task.parentTaskId = false := by
  by_contra ready
  have release := releaseReady_of_prerequisitesReady inv.canonical (by simpa using ready)
  have reconcile := reconcileReady_iff.2 ⟨release, declares_of_reason inv blocked waits⟩
  have waiting := waitsForDependency_of_reason inv blocked waits
  exact missed (by simp [reconcileSql, waiting, reconcile])

/-- After a reconcile tick on any world that runs reach, no task is blocked for a dependency
while its parent and all its declared dependencies are completed in its organization. -/
theorem no_lost_wake_up (reachable : ReachableWorld crypto w)
    (tick : a.command = .reconcileDependencies) :
    ∀ task ∈ (exec crypto w a).db.tasks, task.status = .blocked →
      task.blockedReason = some .waitingDependency →
        ¬((∀ parentId, task.parentTaskId = some parentId →
            isCompleted (exec crypto w a).db.tasks task.organizationId parentId = true)
          ∧ ∀ id ∈ TaskDependencyPolicy.fromParams task.params,
            isCompleted (exec crypto w a).db.tasks task.organizationId id = true) := by
  have written : (exec crypto w a).db.tasks = (reconcileSql w.db.tasks a.now).execute w.db.tasks := by
    simp [exec, transact, tick, World.commit, System.reconcileDependencies]
  have sound := soundWorld_of_reachable reachable
  rw [written]
  rintro task member blocked waits ⟨parent, dependencies⟩
  obtain ⟨old, was, rfl⟩ := (TaskUpdate.mem_execute _).1 member
  by_cases hit : (reconcileSql w.db.tasks a.now).hits old = true
  · rw [if_pos hit] at blocked
    cases blocked
  · rw [if_neg hit] at blocked waits parent dependencies
    have unready := unready_of_missed (sound.sound.rows old was) blocked waits hit
    have ready : prerequisitesReady w.db.tasks old.organizationId old.params old.parentTaskId
        = true := by
      refine prerequisitesReady_iff.2 ⟨?_, fun id declared =>
        isCompleted_of_reconcile (dependencies id declared)⟩
      cases declared : old.parentTaskId with
      | none => rfl
      | some parentId => exact isCompleted_of_reconcile (parent parentId declared)
    exact absurd (ready.symm.trans unready) Bool.noConfusion

end Tick

def childMissed : List Action :=
  Sample.staffed ++ [Sample.create (Sample.named 20) none false,
    Sample.create (Sample.named 21) (some (Sample.named 20)) false, Sample.queue (Sample.named 20),
    Sample.act Sample.day 30 (.claimNextTask (Sample.named 10) []),
    { Sample.report (Sample.named 20) (Sample.named 10) 30 1 with missed := [Sample.named 21] }]

def missedWorld : World := runFrom Sample.crypto .start childMissed

def tick : Action := Sample.act Sample.day 0 .reconcileDependencies

theorem missedWorld_evaluated :
    AllMeet Sample.crypto (fun _ _ => True) .start childMissed
      ∧ (missedWorld.db.tasks.rows.map fun task => (task.status, task.blockedReason))
        = [(.blocked, some .waitingDependency), (.completed, none)]
      ∧ ((exec Sample.crypto missedWorld tick).db.tasks.rows.map fun task => task.status)
        = [.queued, .completed] := by
  decide +kernel

/-- The child is still blocked after the completion; the tick queues it. -/
theorem no_lost_wake_up_missed :
    (missedWorld.db.tasks.rows.map fun task => (task.status, task.blockedReason))
        = [(.blocked, some .waitingDependency), (.completed, none)]
      ∧ ((exec Sample.crypto missedWorld tick).db.tasks.rows.map fun task => task.status)
        = [.queued, .completed]
      ∧ ∀ task ∈ (exec Sample.crypto missedWorld tick).db.tasks, task.status = .blocked →
        task.blockedReason = some .waitingDependency →
          ¬((∀ parentId, task.parentTaskId = some parentId → isCompleted
              (exec Sample.crypto missedWorld tick).db.tasks task.organizationId parentId = true)
            ∧ ∀ id ∈ TaskDependencyPolicy.fromParams task.params, isCompleted
              (exec Sample.crypto missedWorld tick).db.tasks task.organizationId id = true) :=
  ⟨missedWorld_evaluated.2.1, missedWorld_evaluated.2.2,
    no_lost_wake_up (reachableWhen_run missedWorld_evaluated.1) rfl⟩

end Forge.DependencyWakeUp
