import Forge.AssignmentChanges

/-! The transactions that end, retry, approve, patch or retire a task, as chains of parts. -/

namespace Forge.LifecycleChanges

open Forge.AssignmentChanges
open Forge.Changes
open Forge.DependencyReadiness
open Forge.Library.Fallible
open Forge.Library.Identifier
open Forge.Library.JsonDocument
open Forge.Library.KeyedTable
open Forge.OrchestrationDomain
open Forge.OrchestrationService
open Forge.ParticipantStatements
open Forge.Schema
open Forge.Soundness
open Forge.TaskLifecycle
open Forge.TaskStatements
open Forge.TaskSteps

section Parts

variable {gate : Lifecycle → Task → Prop} {db : Db} {issued : List Issue} {now : Timestamp}

theorem moves_finishCurrent {organizationId taskId : Uuid} {status : RunStatus}
    (idle : ∀ task ∈ db.tasks, task.id = taskId → task.status ≠ .working) :
    Moves gate ⟨db, issued⟩ ⟨finishCurrent db organizationId taskId status now, issued⟩ := by
  rw [finishCurrent]
  split
  case h_2 => exact .of_others rfl .unchanged .same .same .same
  case h_1 current selected =>
      have listed := mem_of_selectFirst selected
      rw [List.mem_filter] at listed
      obtain ⟨member, holds⟩ := listed
      simp only [Bool.and_eq_true, beq_iff_eq] at holds
      refine .of_others rfl (.of_close ?_ ?_) .same .same .same
      · intro task there working run member' owner _
        by_contra hit
        simp only [Bool.not_eq_false, beq_iff_eq] at hit
        obtain rfl : run = current := Table.eq_of_key_eq member' member hit
        exact idle task there (owner.symm.trans holds.1.2) working
      · intro before was working after there id left
        obtain rfl : after = before := Table.eq_of_key_eq there was id
        exact absurd working left

theorem moves_releaseTaskDependents {organizationId completedTaskId : Uuid}
    {missed : List Uuid} :
    Moves gate ⟨db, issued⟩
      ⟨releaseTaskDependents db organizationId completedTaskId missed now, issued⟩ := by
  refine .of_rewrite fun task member hit => ?_
  simp only [releaseTaskDependentsSql, Bool.and_eq_true] at hit
  exact .release .queued now hit.1.1.2 (.inr rfl)

theorem carries_finish {statement : TaskUpdate} {organizationId taskId : Uuid}
    {status : RunStatus} {tasks : Tasks} {returned : Task} {absent : AppError}
    (written : statement.executeOne db.tasks absent = .ok (tasks, returned))
    (each : ∀ task ∈ db.tasks, statement.hits task = true →
      task.id = taskId ∧ Rewrite gate task (statement.apply task))
    (ends : ∀ task, (statement.apply task).status ≠ .working) :
    Carries gate db issued
      { db := finishCurrent { db with tasks } organizationId taskId status now } := by
  obtain ⟨row, member, hit, rfl, -⟩ := statement.executeOne_ok written
  refine .head (.move (.of_rewrite fun task there matched => (each task there matched).2))
    (.single (.move (moves_finishCurrent fun task there id => ?_)))
  rw [statement.eq_of_mem_execute member there (id.trans (each row member hit).1.symm),
    if_pos hit]
  exact ends row

end Parts

section Policies

variable {status : TaskStatus} {reason : Option BlockedReason}

theorem ensureNoActiveDelivery_ok {delivery : Option Uuid}
    (allowed : TaskLifecyclePolicy.ensureNoActiveDelivery status delivery = .ok ()) :
    status = .working → delivery.isSome = false := by
  intro working
  rw [TaskLifecyclePolicy.ensureNoActiveDelivery] at allowed
  split at allowed
  case isTrue => cases allowed
  case isFalse inactive =>
      by_contra active
      exact inactive ⟨working, Bool.eq_true_of_not_eq_false active⟩

theorem ensureCanCancel_ok (allowed : TaskLifecyclePolicy.ensureCanCancel status = .ok ()) :
    status ≠ .working ∧ status ≠ .completed ∧ status ≠ .failed := by
  rw [TaskLifecyclePolicy.ensureCanCancel] at allowed
  split_ifs at allowed with working ended
  exact ⟨working, fun h => ended (.inl h), fun h => ended (.inr h)⟩

theorem ensureCanRetry_ok {requiresApproval retryable : Bool}
    (allowed : TaskLifecyclePolicy.ensureCanRetry status reason requiresApproval retryable
      = .ok ()) : status = .failed ∨ status = .canceled ∨ status = .blocked := by
  rw [TaskLifecyclePolicy.ensureCanRetry] at allowed
  split_ifs at allowed with waits ended
  exact ended.imp_right (Or.imp_right And.left)

theorem promote_planned {spec : TaskSpec} {requiresApproval : Bool}
    (planned : Planned spec requiresApproval status reason) :
    Planned spec requiresApproval (if status = .backlog then .queued else status) reason := by
  cases planned with
  | ready free start => rcases start with rfl | rfl <;> exact .ready free (.inr rfl)
  | input => exact .input
  | approval required => exact .approval required
  | dependency free declared => exact .dependency free declared

end Policies

section Lifecycle

variable {gate : Lifecycle → Task → Prop} {db : Db} {issued : List Issue} {view : View}
  {organizationId taskId : Uuid} {outcome : Outcome} {now : Timestamp}

theorem undelivered_of_read (sound : Sound ⟨db, issued⟩) {task : Task}
    (member : task ∈ db.tasks)
    (allowed : TaskLifecyclePolicy.ensureNoActiveDelivery task.status task.lastAssignmentId
      = .ok ()) : task.status ≠ .working := by
  intro working
  have delivered := ((sound.rows task member).owned working).2
  rw [ensureNoActiveDelivery_ok allowed working] at delivered
  cases delivered

theorem carries_completeTask {result : Json} {missed : List Uuid} (sound : Sound ⟨db, issued⟩)
    (trails : Trails view db.tasks)
    (allowed : ∀ read, findById (view taskId) organizationId taskId = .ok read →
      ∀ row ∈ db.tasks, (setResultSql organizationId taskId .completed result read.rowVersion
        now).hits row = true → gate .complete row)
    (done : completeTask db view organizationId taskId result missed now = .ok outcome) :
    Carries gate db issued outcome := by
  rw [completeTask] at done
  obtain ⟨read, found, done⟩ := bind_eq_ok.1 done
  obtain ⟨⟨⟩, inactive, done⟩ := bind_eq_ok.1 done
  obtain ⟨-, -, done⟩ := bind_eq_ok.1 done
  obtain ⟨⟨tasks, returned⟩, written, done⟩ := bind_eq_ok.1 done
  obtain rfl := pure_eq_ok.1 done
  obtain ⟨seen, named, -⟩ := findById_ok found
  refine (carries_finish written (fun row member hit => ?_) fun _ => by simp [
    TaskUpdate.apply, setResultSql, Task.bumpRowVersion]).tail (.move moves_releaseTaskDependents)
  have granted := allowed read found row member hit
  simp only [setResultSql, Bool.and_eq_true, isTask_iff, beq_iff_eq] at hit
  obtain ⟨⟨⟨same, -⟩, version⟩, open_⟩ := hit
  obtain rfl := trails.row_eq seen member (same.trans named.symm) version
  have idle := undelivered_of_read sound member inactive
  have held : row.status = .blocked ∧ row.blockedReason = some .waitingVerification := by
    simpa [idle] using open_
  exact ⟨same, .complete organizationId taskId result row.rowVersion now held.1 held.2 granted⟩

theorem failTask_refused {error : Json} (sound : Sound ⟨db, issued⟩)
    (trails : Trails view db.tasks) :
    failTask db view organizationId taskId error now ≠ .ok outcome := by
  intro done
  rw [failTask] at done
  obtain ⟨read, found, done⟩ := bind_eq_ok.1 done
  obtain ⟨⟨⟩, inactive, done⟩ := bind_eq_ok.1 done
  obtain ⟨-, -, done⟩ := bind_eq_ok.1 done
  obtain ⟨seen, named, -⟩ := findById_ok found
  have idle : ∀ row ∈ db.tasks, row.id = taskId → row.rowVersion = read.rowVersion →
      row.status ≠ .working := by
    intro row member same version
    obtain rfl := trails.row_eq seen member (same.trans named.symm) version
    exact undelivered_of_read sound member inactive
  split at done
  case h_1 metadata limited =>
      obtain ⟨⟨tasks, returned⟩, written, -⟩ := bind_eq_ok.1 done
      obtain ⟨row, member, hit, -, -⟩ := TaskUpdate.executeOne_ok _ written
      simp only [markBlockedRetryableSql, Bool.and_eq_true, isTask_iff, beq_iff_eq] at hit
      exact idle row member hit.1.1.1 hit.2 hit.1.2
  case h_2 =>
      obtain ⟨⟨tasks, returned⟩, written, -⟩ := bind_eq_ok.1 done
      obtain ⟨row, member, hit, -, -⟩ := TaskUpdate.executeOne_ok _ written
      simp only [setResultSql, Bool.and_eq_true, isTask_iff, beq_iff_eq] at hit
      exact idle row member hit.1.1.1 hit.1.2 (by simpa using hit.2)

theorem carries_cancelTask (trails : Trails view db.tasks)
    (allowed : ∀ read, findById (view taskId) organizationId taskId = .ok read →
      ∀ row ∈ db.tasks, (cancelTaskSql organizationId taskId read.rowVersion now).hits row
        = true → gate .cancel row)
    (done : cancelTask db view organizationId taskId now = .ok outcome) :
    Carries gate db issued outcome := by
  rw [cancelTask] at done
  obtain ⟨read, found, done⟩ := bind_eq_ok.1 done
  obtain ⟨⟨⟩, open_, done⟩ := bind_eq_ok.1 done
  obtain ⟨⟨tasks, returned⟩, written, done⟩ := bind_eq_ok.1 done
  obtain rfl := pure_eq_ok.1 done
  obtain ⟨seen, named, -⟩ := findById_ok found
  refine carries_finish written (fun row member hit => ?_) fun _ => by
    simp [TaskUpdate.apply, cancelTaskSql, Task.bumpRowVersion]
  have granted := allowed read found row member hit
  simp only [cancelTaskSql, Bool.and_eq_true, isTask_iff, beq_iff_eq] at hit
  obtain ⟨⟨⟨⟨same, -⟩, version⟩, -⟩, -⟩ := hit
  obtain rfl := trails.row_eq seen member (same.trans named.symm) version
  obtain ⟨idle, unfinished, -⟩ := ensureCanCancel_ok open_
  exact ⟨same, .cancel organizationId taskId row.rowVersion now idle unfinished granted⟩

theorem carries_executeOne {statement : TaskUpdate} {tasks : Tasks} {returned : Task}
    {absent : AppError}
    (written : statement.executeOne db.tasks absent = .ok (tasks, returned))
    (each : ∀ task ∈ db.tasks, statement.hits task = true →
      Rewrite gate task (statement.apply task)) :
    Carries gate db issued { db := { db with tasks } } := by
  obtain ⟨row, member, hit, rfl, -⟩ := statement.executeOne_ok written
  exact .single (.move (.of_rewrite each))

theorem carries_retryTask (trails : Trails view db.tasks)
    (done : retryTask db view organizationId taskId now = .ok outcome) :
    Carries gate db issued outcome := by
  rw [retryTask] at done
  obtain ⟨read, found, done⟩ := bind_eq_ok.1 done
  obtain ⟨⟨⟩, ended, done⟩ := bind_eq_ok.1 done
  obtain ⟨-, -, done⟩ := bind_eq_ok.1 done
  obtain ⟨initial, plan, done⟩ := bind_eq_ok.1 done
  obtain ⟨⟨tasks, returned⟩, written, done⟩ := bind_eq_ok.1 done
  obtain rfl := pure_eq_ok.1 done
  obtain ⟨seen, named, -⟩ := findById_ok found
  refine carries_executeOne written fun row member hit => ?_
  simp only [retrySql, Bool.and_eq_true, isTask_iff, beq_iff_eq] at hit
  obtain ⟨⟨⟨same, -⟩, -⟩, version⟩ := hit
  obtain rfl := trails.row_eq seen member (same.trans named.symm) version
  exact .retry organizationId taskId row.status row.rowVersion _ now (ensureCanRetry_ok ended)
    (And.left (plannedState_ok plan))

theorem carries_approveTask {scope : TenantScope} (trails : Trails view db.tasks)
    (allowed : ∀ read lane reason metadata,
      findById (view taskId) scope.orgId taskId = .ok read → ∀ row ∈ db.tasks,
        (approveWaitingTaskSql scope.orgId taskId read.rowVersion scope.userId lane reason
          metadata now).hits row = true → gate .approve row)
    (done : approveTask db view scope taskId now = .ok outcome) :
    Carries gate db issued outcome := by
  rw [approveTask] at done
  obtain ⟨read, found, done⟩ := bind_eq_ok.1 done
  obtain ⟨-, -, done⟩ := bind_eq_ok.1 done
  obtain ⟨-, -, done⟩ := bind_eq_ok.1 done
  obtain ⟨release, plan, done⟩ := bind_eq_ok.1 done
  obtain ⟨⟨tasks, returned⟩, written, done⟩ := bind_eq_ok.1 done
  obtain rfl := pure_eq_ok.1 done
  obtain ⟨seen, named, -⟩ := findById_ok found
  refine carries_executeOne written fun row member hit => ?_
  have granted := allowed read _ _ _ found row member hit
  simp only [approveWaitingTaskSql, Bool.and_eq_true, isTask_iff, beq_iff_eq] at hit
  obtain ⟨⟨⟨⟨⟨same, -⟩, blocked⟩, waits⟩, -⟩, version⟩ := hit
  obtain rfl := trails.row_eq seen member (same.trans named.symm) version
  exact .approve scope.orgId taskId row.rowVersion scope.userId _ now blocked waits
    (promote_planned (And.left (plannedState_ok plan))) granted

end Lifecycle

section Patches

variable {state : Option TaskStatus} {priority : Option String} {progress : Option Int}
  {assignedTo : TaskPatchPolicy.AssignedTo}

theorem plan_patch
    (planned : TaskPatchPolicy.plan state priority progress assignedTo = .ok .patch) :
    assignedTo = none ∧ ∀ status, state = some status →
      status = .backlog ∨ status = .queued ∨ status = .blocked := by
  unfold TaskPatchPolicy.plan at planned
  split_ifs at planned with mixed moved
  rcases assignedTo with _ | target
  · refine ⟨rfl, fun status given => ?_⟩
    subst given
    cases status <;> simp at planned ⊢
  · rw [not_and, not_not] at moved
    rcases moved rfl with rfl | rfl <;> rcases target with _ | agentId <;> simp at planned

theorem plan_unassign
    (planned : TaskPatchPolicy.plan state priority progress assignedTo = .ok .unassign) :
    state = none ∧ assignedTo = some none := by
  unfold TaskPatchPolicy.plan at planned
  split_ifs at planned with mixed moved
  rcases state with _ | status
  · rcases assignedTo with _ | _ | agentId <;> simp at planned ⊢
  · cases status <;> rcases assignedTo with _ | _ | agentId <;> simp at planned

theorem movable_of_patch {task : Task} {status : TaskStatus}
    (lane : status = .backlog ∨ status = .queued ∨ status = .blocked)
    (allowed : TaskPatchPolicy.ensureCurrentAllowsTransition task.status task.blockedReason
      (some status) = .ok ()) : (status = .backlog ∨ status = .queued) ∧ Movable task := by
  rw [TaskPatchPolicy.ensureCurrentAllowsTransition] at allowed
  split_ifs at allowed with terminal blocks working free canceled held
  · have start : status = .backlog ∨ status = .queued := by
      rcases lane with h | h | h
      · exact .inl h
      · exact .inr h
      · exact absurd (congrArg some h) blocks
    refine ⟨start, ?_⟩
    cases current : task.status with
    | backlog => exact .inl current
    | queued => exact .inr (.inl current)
    | blocked => exact .inr (.inr ⟨current, free.resolve_left (by simp [current])⟩)
    | working => rcases start with rfl | rfl <;> simp [current] at working
    | completed => rcases start with rfl | rfl <;> simp [current] at terminal
    | failed => rcases start with rfl | rfl <;> simp [current] at terminal
    | canceled => rcases start with rfl | rfl <;> simp [current] at terminal
  · cases canceled
    simp at lane
  · obtain ⟨-, next, given, resolves⟩ := held
    cases given
    rcases lane with rfl | rfl | rfl <;>
      simp [TaskPatchPolicy.verificationHoldResolutions] at resolves

end Patches

section Update

variable {gate : Lifecycle → Task → Prop} {db : Db} {issued : List Issue} {view later : View}
  {organizationId taskId : Uuid} {outcome : Outcome} {now : Timestamp}
  {request : PatchTaskRequest} {state : Option TaskStatus} {current : Option Task}

theorem currentForGuard_ok {assignedTo : TaskPatchPolicy.AssignedTo}
    (guarded : currentForGuard view organizationId taskId state assignedTo = .ok current)
    (required : state.isSome = true ∨ assignedTo.isSome = true) :
    ∃ read, current = some read ∧ findById (view taskId) organizationId taskId = .ok read
      ∧ TaskPatchPolicy.ensureCurrentAllowsTransition read.status read.blockedReason state
        = .ok () := by
  rw [currentForGuard, if_pos (by simpa [TaskPatchPolicy.requiresCurrentTask] using required)]
    at guarded
  obtain ⟨read, found, guarded⟩ := bind_eq_ok.1 guarded
  obtain ⟨⟨⟩, allowed, guarded⟩ := bind_eq_ok.1 guarded
  exact ⟨read, (pure_eq_ok.1 guarded).symm, found, allowed⟩

theorem carries_writePatch
    (each : ∀ row ∈ db.tasks, (patchSql organizationId taskId
      (updateTaskRow state request current) now).hits row = true →
        Rewrite gate row ((patchSql organizationId taskId
          (updateTaskRow state request current) now).apply row))
    (done : writePatch db organizationId taskId state request current now = .ok outcome) :
    Carries gate db issued outcome := by
  rw [writePatch] at done
  obtain ⟨⟨tasks, returned⟩, written, done⟩ := bind_eq_ok.1 done
  obtain rfl := pure_eq_ok.1 done
  exact carries_executeOne written each

theorem carries_patch (trails : Trails view db.tasks)
    (guarded : currentForGuard view organizationId taskId state request.assignedTo
      = .ok current)
    (planned : TaskPatchPolicy.plan state request.priority request.progress request.assignedTo
      = .ok .patch)
    (allowed : state.isSome = true → ∀ row ∈ db.tasks,
      (patchSql organizationId taskId (updateTaskRow state request current) now).hits row
        = true → gate .patch row)
    (done : writePatch db organizationId taskId state request current now = .ok outcome) :
    Carries gate db issued outcome := by
  obtain ⟨unassigned, lanes⟩ := plan_patch planned
  refine carries_writePatch (fun row member hit => ?_) done
  refine .patch organizationId taskId _ now (.inl unassigned) fun status given => ?_
  have stated : state = some status := given
  obtain ⟨read, rfl, found, transition⟩ := currentForGuard_ok guarded (.inl (by simp [stated]))
  obtain ⟨seen, named, -⟩ := findById_ok found
  have granted := allowed (by simp [stated]) row member hit
  simp only [patchSql, updateTaskRow, Bool.and_eq_true, isTask_iff, Option.map_some,
    Option.all_some, beq_iff_eq] at hit
  obtain ⟨⟨same, -⟩, -, version⟩ := hit
  obtain rfl := trails.row_eq seen member (same.trans named.symm) version
  obtain ⟨start, movable⟩ := movable_of_patch (lanes status stated) (stated ▸ transition)
  exact ⟨start, movable, granted⟩

theorem carries_unassign (trails : Trails view db.tasks) {read : Task}
    (guarded : currentForGuard view organizationId taskId state request.assignedTo
      = .ok (some read))
    (planned : TaskPatchPolicy.plan state request.priority request.progress request.assignedTo
      = .ok .unassign)
    (idle : TaskPatchPolicy.ensureCanUnassign read.status = .ok ())
    (done : writePatch db organizationId taskId state request (some read) now = .ok outcome) :
    Carries gate db issued outcome := by
  obtain ⟨stateless, cleared⟩ := plan_unassign planned
  refine carries_writePatch (fun row member hit => ?_) done
  obtain ⟨read', same', found, -⟩ := currentForGuard_ok guarded (.inr (by simp [cleared]))
  obtain rfl := Option.some.inj same'
  obtain ⟨seen, named, -⟩ := findById_ok found
  simp only [patchSql, updateTaskRow, Bool.and_eq_true, isTask_iff, Option.map_some,
    Option.all_some, beq_iff_eq] at hit
  obtain ⟨⟨same, -⟩, -, version⟩ := hit
  obtain rfl := trails.row_eq seen member (same.trans named.symm) version
  refine .patch organizationId taskId _ now (.inr ⟨cleared, fun working => ?_⟩)
    fun status given => ?_
  · rw [TaskPatchPolicy.ensureCanUnassign, if_pos working] at idle
    cases idle
  · exact absurd (stateless.symm.trans given) (by simp)

def patchPlan (view : View) (organizationId taskId : Uuid) (request : PatchTaskRequest) :
    Except AppError (Option TaskStatus × Option Task × TaskPatchAction) := do
  let state ← patchState request.state
  validatePatchPriority request.priority
  TaskPatchPolicy.validateProgress request.progress
  let current ← currentForGuard view organizationId taskId state request.assignedTo
  let action ← TaskPatchPolicy.plan state request.priority request.progress request.assignedTo
  return (state, current, action)

theorem carries_updateTask {fingerprint : String → String} {seen : Db} {missed : List Uuid}
    {draws : Draws} (sound : Sound ⟨db, issued⟩)
    (fresh : ∀ issue ∈ issued, issue.deliveryId ≠ draws.deliveryId)
    (trails : Trails view db.tasks) (laterTrails : Trails later db.tasks)
    (completes : ∀ state current,
      patchPlan view organizationId taskId request = .ok (state, current, .complete) → ∀ read,
      findById (later taskId) organizationId taskId = .ok read → ∀ row ∈ db.tasks,
        (setResultSql organizationId taskId .completed TaskPatchPolicy.manualCompleteResult
          read.rowVersion now).hits row = true → gate .complete row)
    (cancels : ∀ state current,
      patchPlan view organizationId taskId request = .ok (state, current, .cancel) → ∀ read,
      findById (later taskId) organizationId taskId = .ok read → ∀ row ∈ db.tasks,
        (cancelTaskSql organizationId taskId read.rowVersion now).hits row = true →
          gate .cancel row)
    (patches : ∀ state current,
      patchPlan view organizationId taskId request = .ok (state, current, .patch) →
      state.isSome = true → ∀ row ∈ db.tasks,
        (patchSql organizationId taskId (updateTaskRow state request current) now).hits row
          = true → gate .patch row)
    (done : updateTask fingerprint db view later seen organizationId taskId request missed draws
      now = .ok outcome) : Carries gate db issued outcome := by
  rw [updateTask] at done
  obtain ⟨state, parsed, done⟩ := bind_eq_ok.1 done
  obtain ⟨⟨⟩, priority, done⟩ := bind_eq_ok.1 done
  obtain ⟨⟨⟩, progress, done⟩ := bind_eq_ok.1 done
  obtain ⟨current, guarded, done⟩ := bind_eq_ok.1 done
  obtain ⟨action, planned, done⟩ := bind_eq_ok.1 done
  have plan : patchPlan view organizationId taskId request = .ok (state, current, action) :=
    bind_eq_ok.2 ⟨state, parsed, bind_eq_ok.2 ⟨(), priority, bind_eq_ok.2 ⟨(), progress,
      bind_eq_ok.2 ⟨current, guarded, bind_eq_ok.2 ⟨action, planned, rfl⟩⟩⟩⟩⟩
  cases action with
  | assignToParticipant agentId => exact carries_assignExistingTask sound fresh laterTrails done
  | dispatch => exact carries_dispatchTask sound fresh laterTrails done
  | complete =>
      exact carries_completeTask sound laterTrails (completes state current plan) done
  | fail => exact absurd done (failTask_refused sound laterTrails)
  | cancel => exact carries_cancelTask laterTrails (cancels state current plan) done
  | unassign =>
      cases current with
      | none => cases done
      | some read =>
          obtain ⟨⟨⟩, idle, done⟩ := bind_eq_ok.1 done
          exact carries_unassign trails guarded planned idle done
  | patch => exact carries_patch trails guarded planned (patches state current plan) done

end Update

end Forge.LifecycleChanges
