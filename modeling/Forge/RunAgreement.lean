import Forge.Transactions

/-! Agreement of tasks, runs and outbox: a task has an open run exactly while it works, as long
as no retirement takes a working task. -/

namespace Forge.RunAgreement

open Forge.Changes
open Forge.Library.Identifier
open Forge.Library.KeyedTable
open Forge.Schema
open Forge.Soundness
open Forge.System
open Forge.Transactions

def unfinishedRuns (db : Db) (taskId : Uuid) : Nat :=
  db.runs.count fun run => run.orchestrationTaskId == taskId && run.finishedAt.isNone

/-- The run and the outbox row of the current assignment of a task: each carries its delivery
and its agent, and no other outbox row carries the delivery. -/
def AssignmentRecorded (db : Db) (task : Task) : Prop :=
  ∃ agentId deliveryId, task.assignedAgentId = some agentId
    ∧ task.lastAssignmentId = some deliveryId
    ∧ (∃ run ∈ db.runs, run.finishedAt = none ∧ run.orchestrationTaskId = task.id
      ∧ run.agentId = agentId ∧ run.idempotencyKey = deliveryId.toText)
    ∧ ∃ row ∈ db.outbox, row.aggregateId = task.id ∧ row.payload.agentId = agentId
      ∧ row.payload.deliveryId = some deliveryId
      ∧ ∀ other ∈ db.outbox, other.payload.deliveryId = some deliveryId → other = row

section Agreement

variable {crypto : Crypto} {w : World}

theorem runsClosed_of_reachable
    (reachable : ReachableWhen crypto (RetirementSpares .working) w) : RunsClosed (stageOf w) := by
  have start : RunsClosed (stageOf .start) := fun run member =>
    absurd member (Table.not_mem_empty run)
  exact reachable_induction start
    (fun s t _ change => runsClosed_of_change (fun task spared => spared rfl) change)
    (fun w a => respects_retirementSpares) reachable

theorem unfinishedRuns_eq (sound : Sound (stageOf w)) (closed : RunsClosed (stageOf w))
    {task : Task} (member : task ∈ w.db.tasks) :
    unfinishedRuns w.db task.id = if task.status = .working then 1 else 0 := by
  have owned : ∀ run ∈ w.db.runs, run.orchestrationTaskId = task.id → run.finishedAt = none →
      task.status = .working ∧ OwnRun task run := by
    intro run there owner unfinished
    obtain ⟨owning, was, working, own⟩ := closed run there unfinished
    obtain rfl : owning = task := Table.eq_of_key_eq was member (own.taskId.symm.trans owner)
    exact ⟨working, own⟩
  split
  case isTrue working =>
      obtain ⟨run, there, unfinished, own⟩ := sound.running task member working
      refine Table.count_eq_one there (by simp [own.taskId, unfinished]) fun other there' open' => ?_
      simp only [Bool.and_eq_true, beq_iff_eq, Option.isNone_iff_eq_none] at open'
      obtain ⟨-, own'⟩ := owned other there' open'.1 open'.2
      obtain ⟨deliveryId, delivery, key⟩ := own.key
      obtain ⟨deliveryId', delivery', key'⟩ := own'.key
      rw [delivery, Option.some.injEq] at delivery'
      exact sound.runsOnce other there' run there (by rw [key, key', delivery'])
  case isFalse idle =>
      refine Table.count_eq_zero fun run there => ?_
      by_contra open'
      simp only [Bool.not_eq_false, Bool.and_eq_true, beq_iff_eq,
        Option.isNone_iff_eq_none] at open'
      exact idle (owned run there open'.1 open'.2).1

theorem assignmentRecorded (sound : Sound (stageOf w)) {task : Task} (member : task ∈ w.db.tasks)
    (working : task.status = .working) : AssignmentRecorded w.db task := by
  obtain ⟨assigned, delivered⟩ := (sound.rows task member).owned working
  obtain ⟨agentId, agent⟩ := Option.isSome_iff_exists.1 assigned
  obtain ⟨deliveryId, delivery⟩ := Option.isSome_iff_exists.1 delivered
  obtain ⟨run, there, unfinished, own⟩ := sound.running task member working
  obtain ⟨row, posted, post⟩ := sound.posted task member working agentId deliveryId agent delivery
  refine ⟨agentId, deliveryId, agent, delivery, ⟨run, there, unfinished, own.taskId, ?_, ?_⟩,
    row, posted, post.aggregate, post.agent, post.delivery, ?_⟩
  · have same := own.agent
    rw [agent, Option.some.injEq] at same
    exact same.symm
  · obtain ⟨deliveryId', delivery', key⟩ := own.key
    rw [delivery, Option.some.injEq] at delivery'
    rw [key, delivery']
  · intro other posted' carries
    obtain ⟨issue, -, post'⟩ := sound.posts other posted'
    have same := post'.delivery.symm.trans carries
    rw [Option.some.injEq] at same
    exact Table.eq_of_key_eq posted' posted (by rw [post'.id, post.id, same])

/-- In a run whose retirements name no working task: a task has one unfinished run when it works
and none otherwise, the run and exactly one outbox row carry its assignment, and an action that
takes a task out of `working` leaves none of its runs open. -/
theorem run_agreement (reachable : ReachableWhen crypto (RetirementSpares .working) w) :
    (∀ task ∈ w.db.tasks,
      unfinishedRuns w.db task.id = if task.status = .working then 1 else 0)
    ∧ (∀ task ∈ w.db.tasks, task.status = .working → AssignmentRecorded w.db task)
    ∧ ∀ a, FreshDelivery w a → RetirementSpares .working w a → ∀ task ∈ w.db.tasks,
        task.status = .working → ∀ next ∈ (exec crypto w a).db.tasks, next.id = task.id →
          next.status ≠ .working → unfinishedRuns (exec crypto w a).db task.id = 0 := by
  have sound := soundWorld_of_reachable reachable
  refine ⟨fun task => unfinishedRuns_eq sound.sound (runsClosed_of_reachable reachable),
    fun task => assignmentRecorded sound.sound, ?_⟩
  intro a fresh spares task _ _ next there id left
  have after : ReachableWhen crypto (RetirementSpares .working) (exec crypto w a) :=
    reachable.step ⟨fresh, spares⟩
  have sound' := soundWorld_of_reachable after
  rw [← id, unfinishedRuns_eq sound'.sound (runsClosed_of_reachable after) there, if_neg left]

end Agreement

def claimedWorld : World :=
  runFrom Sample.crypto .start
    (Sample.staffed ++ Sample.claimed (Sample.named 20) (Sample.named 10) 30)

theorem reachable_claimedWorld :
    ReachableWhen Sample.crypto (RetirementSpares .working) claimedWorld :=
  reachableWhen_run (by decide +kernel)

theorem run_agreement_claimed :
    (claimedWorld.db.tasks.rows.map fun task => task.status) = [.working]
      ∧ ∀ task ∈ claimedWorld.db.tasks,
        unfinishedRuns claimedWorld.db task.id = if task.status = .working then 1 else 0 :=
  ⟨by decide +kernel, (run_agreement reachable_claimedWorld).1⟩

def retireClaimed : Action :=
  { Sample.act Sample.day 0
      (.retireStaleTasks Sample.organization Sample.group (some 1) none) with seen := 1 }

/-- The retirement cancels the working task and leaves its run open. -/
theorem retirement_leaves_run_open :
    ¬∀ w, ReachableWorld Sample.crypto w → ∀ task ∈ w.db.tasks,
      unfinishedRuns w.db task.id = if task.status = .working then 1 else 0 := by
  intro agreement
  have fresh : FreshDelivery claimedWorld retireClaimed := by decide +kernel
  have after := agreement _ (reachable_claimedWorld.anyRun.step ⟨fresh, trivial⟩)
  obtain ⟨task, member, canceled, opened⟩ :
      ∃ task ∈ (exec Sample.crypto claimedWorld retireClaimed).db.tasks.rows,
        task.status = .canceled
          ∧ unfinishedRuns (exec Sample.crypto claimedWorld retireClaimed).db task.id = 1 := by
    decide +kernel
  have closed := after task member
  simp [opened, canceled] at closed

end Forge.RunAgreement
