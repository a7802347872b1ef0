import Forge.Transactions

/-! The approval gate: no task that still asks for an approval is dispatched, and only the
approval of a waiting task takes the request back. -/

namespace Forge.ApprovalGate

open Forge.Library.Identifier
open Forge.Library.KeyedTable
open Forge.Schema
open Forge.Soundness
open Forge.System
open Forge.TaskSteps
open Forge.Transactions

section Steps

variable {gate : Lifecycle → Task → Prop} {before after : Task}

theorem keeps_approval_of_rewrite (rewritten : Rewrite gate before after)
    (closed : ¬gate .approve before) : after.requiresApproval = before.requiresApproval := by
  cases rewritten with
  | approve _ _ _ _ _ _ _ _ _ allowed => exact absurd allowed closed
  | _ => rfl

theorem keeps_approval_of_settle (settled : Settle before after) :
    after.requiresApproval = before.requiresApproval := by
  cases settled <;> rfl

theorem keeps_approval_of_step {tasks : DependencyReadiness.Tasks}
    (step : TaskStep gate tasks before after) (closed : ¬gate .approve before) :
    after.requiresApproval = before.requiresApproval := by
  cases step with
  | move moved =>
      cases moved with
      | stay same => rw [same]
      | rewrite rewritten => exact keeps_approval_of_rewrite rewritten closed
      | settle _ settled => exact keeps_approval_of_settle settled
  | assign _ _ assigned =>
      obtain ⟨now, rfl⟩ := assigned.result
      rfl

end Steps

def Approves (w : World) (a : Action) (taskId : Uuid) : Prop :=
  ∃ task ∈ w.db.tasks, task.id = taskId ∧ task.status = .blocked
    ∧ task.blockedReason = some .waitingApproval
    ∧ ∃ scope, a.command = .approveTask scope taskId

section Gate

variable {crypto : Crypto} {w : World} {a : Action}

theorem respects_approves : Respects (fun kind task => kind = .approve → Approves w a task.id)
    w a := by
  constructor
  · intro kind statement _ other row _ _ same
    exact absurd same other
  · intro scope taskId command row member id blocked waits _
    exact ⟨row, member, rfl, blocked, waits, scope, by rw [id, command]⟩

theorem keeps_approval_of_exec (crypto : Crypto) (sound : SoundWorld w) (fresh : FreshDelivery w a) :
    Table.Evolves (fun row next => next.id = row.id
        ∧ (row.requiresApproval = true → next.requiresApproval = true ∨ Approves w a row.id))
      (fun _ => True) w.db.tasks (exec crypto w a).db.tasks := by
  refine evolves_of_chain (fun task => ⟨rfl, .inl⟩) ?_ ?_
    (exec_changes crypto sound.sound sound.history fresh respects_approves) sound.sound
  · rintro first second third ⟨id, keeps⟩ ⟨id', keeps'⟩
    refine ⟨id'.trans id, fun required => ?_⟩
    rcases keeps required with required | approves
    · exact (keeps' required).imp_right fun approves => id ▸ approves
    · exact .inr approves
  · intro s t _ _ row _ next step
    refine ⟨congrArg TaskSpec.id step.spec, fun required => ?_⟩
    by_cases approves : Approves w a row.id
    · exact .inr approves
    · exact .inl ((keeps_approval_of_step step fun gate => approves (gate rfl)).trans required)

/-- A task that asks for an approval is in none of the dispatch states, and an action that takes
the request back is the approval of that task, from `blocked` with the reason
`waiting_approval`. -/
theorem approval_gate (reachable : ReachableWorld crypto w) :
    (∀ task ∈ w.db.tasks, task.requiresApproval = true →
      task.status ≠ .queued ∧ task.status ≠ .backlog ∧ task.status ≠ .working
        ∧ task.status ≠ .completed)
    ∧ ∀ a, FreshDelivery w a → ∀ task ∈ w.db.tasks, task.requiresApproval = true →
        ∀ next ∈ (exec crypto w a).db.tasks, next.id = task.id →
          next.requiresApproval = false →
            task.status = .blocked ∧ task.blockedReason = some .waitingApproval
              ∧ ∃ scope, a.command = .approveTask scope task.id := by
  have sound := soundWorld_of_reachable reachable
  constructor
  · intro task member required
    rcases (sound.sound.rows task member).gated required with status | ⟨status, -⟩ <;>
      simp [status]
  · intro a fresh task member required next there id cleared
    obtain ⟨next', there', id', -, keeps⟩ :=
      (keeps_approval_of_exec crypto sound fresh).forward member
    obtain rfl : next' = next := Table.eq_of_key_eq there' there (id'.trans id.symm)
    rcases keeps required with still | ⟨waiting, was, same, blocked, waits, command⟩
    · exact absurd (still.symm.trans cleared) Bool.false_ne_true.symm
    · obtain rfl : waiting = task := Table.eq_of_key_eq was member same
      exact ⟨blocked, waits, command⟩

end Gate

def approvalWorld : World :=
  runFrom Sample.crypto .start [Sample.create (Sample.named 20) none true]

/-- The approval clears the request, and by the gate nothing else could have. -/
theorem approval_gate_approved :
    (∀ next ∈ (exec Sample.crypto approvalWorld
        (Sample.act 0 0 (.approveTask Sample.scope (Sample.named 20)))).db.tasks,
      next.requiresApproval = false)
    ∧ ∀ a, FreshDelivery approvalWorld a → ∀ task ∈ approvalWorld.db.tasks,
        task.requiresApproval = true → ∀ next ∈ (exec Sample.crypto approvalWorld a).db.tasks,
          next.id = task.id → next.requiresApproval = false →
            task.status = .blocked ∧ task.blockedReason = some .waitingApproval
              ∧ ∃ scope, a.command = .approveTask scope task.id :=
  ⟨by decide +kernel, (approval_gate (reachableWhen_run (by decide +kernel))).2⟩

end Forge.ApprovalGate
