import Forge.RunAgreement

/-! Retirement and live work: which rows the outer UPDATE takes, and that it spares what works
exactly when no row its inner SELECT named has started meanwhile. -/

namespace Forge.RetirementSafety

open Forge.Library.Identifier
open Forge.Library.KeyedTable
open Forge.OrchestrationDomain
open Forge.ParticipantStatements
open Forge.RunAgreement
open Forge.Schema
open Forge.System
open Forge.TaskStatements
open Forge.Transactions

def IsRetirement (a : Action) : Prop :=
  ∃ organizationId groupId days batch,
    a.command = .retireStaleTasks organizationId groupId days batch

/-- A working row is not canceled, and a row that the retirement writes leaves no unfinished run
and no busy participant whose work it was. -/
structure TakesNoLiveWork (before after : World) (a : Action) : Prop where
  live : ∀ task ∈ before.db.tasks, task.status = .working →
    ∀ next ∈ after.db.tasks, next.id = task.id → next.status ≠ .canceled
  runs : ∀ task ∈ before.db.tasks, retires before a task = true →
    unfinishedRuns after.db task.id = 0
  busy : ∀ task ∈ before.db.tasks, retires before a task = true →
    ∀ participant ∈ after.db.participants, participant.status = .busy →
      participant.organizationId = task.organizationId →
      task.assignedAgentId = some participant.agentId →
        hasWorkingTask before.db.tasks participant.organizationId participant.agentId
          = hasWorkingTask after.db.tasks participant.organizationId participant.agentId

section Retirements

variable (crypto : Crypto) {w : World} {a : Action}

theorem exec_retirement (retirement : IsRetirement a) :
    (∀ task, task ∈ (exec crypto w a).db.tasks ↔ ∃ old ∈ w.db.tasks,
      task = if retires w a old then (retireStaleTasksSql [] a.now).apply old else old)
    ∧ (exec crypto w a).db.participants = w.db.participants := by
  obtain ⟨organizationId, groupId, days, batch, command⟩ := retirement
  rw [exec, transact, command]
  cases valid : TaskRetirePolicy.validate days batch with
  | error err =>
      have none : ∀ old, retires w a old = false := by
        simp [retires, lifecycleWrite, command, valid, Except.toOption]
      simp [TaskLifecycle.retireStaleTasks, valid, bind, Except.bind, Except.toOption, none]
  | ok bounds =>
      have named : ∀ old, retires w a old = (TaskLifecycle.staleTaskIds (w.snapshot a.seen).tasks
          organizationId groupId bounds.1 bounds.2 a.now).contains old.id := by
        intro old
        simp [retires, lifecycleWrite, command, valid, Except.toOption, retireStaleTasksSql]
      simp only [TaskLifecycle.retireStaleTasks, valid, bind, Except.bind, pure, Except.pure,
        Except.toOption, World.commit, named, and_true]
      exact fun task => TaskUpdate.mem_execute _

theorem status_retired (now : Timestamp) (task : Task) :
    ((retireStaleTasksSql [] now).apply task).status = .canceled := rfl

theorem working_iff_of_spared (retirement : IsRetirement a)
    (spares : RetirementSpares .working w a) {task : Task} (working : task.status = .working) :
    task ∈ (exec crypto w a).db.tasks ↔ task ∈ w.db.tasks := by
  rw [(exec_retirement crypto retirement).1]
  constructor
  · rintro ⟨old, member, rfl⟩
    by_cases taken : retires w a old = true
    · rw [if_pos taken, status_retired] at working
      cases working
    · rwa [if_neg taken]
  · intro member
    have kept : ¬retires w a task = true := fun taken => spares task member taken working
    exact ⟨task, member, by rw [if_neg kept]⟩

theorem hasWorkingTask_of_spared (retirement : IsRetirement a)
    (spares : RetirementSpares .working w a) (organizationId agentId : Uuid) :
    hasWorkingTask w.db.tasks organizationId agentId
      = hasWorkingTask (exec crypto w a).db.tasks organizationId agentId := by
  rw [Bool.eq_iff_iff, hasWorkingTask_iff, hasWorkingTask_iff]
  refine exists_congr fun task => ?_
  constructor
  · rintro ⟨member, organization, assigned, working⟩
    exact ⟨(working_iff_of_spared crypto retirement spares working).2 member, organization, assigned,
      working⟩
  · rintro ⟨member, organization, assigned, working⟩
    exact ⟨(working_iff_of_spared crypto retirement spares working).1 member, organization, assigned,
      working⟩

variable {crypto}

theorem takesNoLiveWork_of_spared
    (reachable : ReachableWhen crypto (RetirementSpares .working) w) (fresh : FreshDelivery w a)
    (retirement : IsRetirement a) (spares : RetirementSpares .working w a) :
    TakesNoLiveWork w (exec crypto w a) a := by
  have after : ReachableWhen crypto (RetirementSpares .working) (exec crypto w a) :=
    reachable.step ⟨fresh, spares⟩
  constructor
  case live =>
      intro task member working next there same canceled
      have kept := (working_iff_of_spared crypto retirement spares working).2 member
      obtain rfl : next = task := Table.eq_of_key_eq there kept same
      rw [working] at canceled
      cases canceled
  case runs =>
      intro task member taken
      have there : (retireStaleTasksSql [] a.now).apply task ∈ (exec crypto w a).db.tasks :=
        ((exec_retirement crypto retirement).1 _).2 ⟨task, member, by rw [if_pos taken]⟩
      have closed := unfinishedRuns_eq (soundWorld_of_reachable after).sound
        (runsClosed_of_reachable after) there
      rwa [status_retired, if_neg (by decide), TaskUpdate.id_apply] at closed
  case busy =>
      intro task _ _ participant _ _ _ _
      exact hasWorkingTask_of_spared crypto retirement spares _ _

/-- In a run whose retirements name no working task, a further retirement takes no live work
exactly when it names no working task either. -/
theorem retirement_safety (reachable : ReachableWhen crypto (RetirementSpares .working) w)
    (fresh : FreshDelivery w a) (retirement : IsRetirement a) :
    TakesNoLiveWork w (exec crypto w a) a ↔ RetirementSpares .working w a := by
  constructor
  · intro safe task member taken working
    have there := ((exec_retirement crypto retirement).1 _).2
      ⟨task, member, (if_pos taken).symm⟩
    exact safe.live task member working _ there (TaskUpdate.id_apply _ task)
      (status_retired a.now task)
  · exact takesNoLiveWork_of_spared reachable fresh retirement

end Retirements

def retireIdle : Action :=
  Sample.act (2 * Sample.day) 0
    (.retireStaleTasks Sample.organization Sample.group (some 1) none)

def idleWorld : World :=
  runFrom Sample.crypto .start
    (Sample.staffed ++ Sample.claimed (Sample.named 20) (Sample.named 10) 30
      ++ [Sample.create (Sample.named 21) none false, Sample.queue (Sample.named 21)])

theorem reachable_idleWorld :
    ReachableWhen Sample.crypto (RetirementSpares .working) idleWorld :=
  reachableWhen_run (by decide +kernel)

/-- It retires the idle task and leaves the working one alone. -/
theorem retirement_safety_idle :
    ((exec Sample.crypto idleWorld retireIdle).db.tasks.rows.map fun task => task.status)
        = [.canceled, .working]
      ∧ TakesNoLiveWork idleWorld (exec Sample.crypto idleWorld retireIdle) retireIdle :=
  ⟨by decide +kernel, (retirement_safety reachable_idleWorld (by decide +kernel)
    ⟨_, _, _, _, rfl⟩).2 (by decide +kernel)⟩

/-- The retirement that selected a task before its claim cancels it while it works. -/
theorem retirement_takes_live_work :
    ¬∀ w, ReachableWorld Sample.crypto w → ∀ a, FreshDelivery w a → IsRetirement a →
      TakesNoLiveWork w (exec Sample.crypto w a) a := by
  intro safe
  have fresh : FreshDelivery claimedWorld retireClaimed := by decide +kernel
  have taken := safe _ reachable_claimedWorld.anyRun _ fresh ⟨_, _, _, _, rfl⟩
  obtain ⟨task, member, working, next, there, same, canceled⟩ :
      ∃ task ∈ claimedWorld.db.tasks.rows, task.status = .working
        ∧ ∃ next ∈ (exec Sample.crypto claimedWorld retireClaimed).db.tasks.rows,
          next.id = task.id ∧ next.status = .canceled := by decide +kernel
  exact taken.live task member working next there same canceled

end Forge.RetirementSafety
