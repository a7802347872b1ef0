import Forge.ReadinessAgreement
import Forge.TaskStatements

/-! What one statement does to a task row: a rewrite that neither starts nor settles an
assignment, the end of an assignment, or its start. -/

namespace Forge.TaskSteps

open Forge.DependencyReadiness
open Forge.Library.Identifier
open Forge.Library.JsonDocument
open Forge.OrchestrationDomain
open Forge.OrchestrationView
open Forge.ReadinessAgreement
open Forge.Schema
open Forge.TaskStatements

inductive Lifecycle where
  | approve | complete | cancel | patch | reap | retire
deriving DecidableEq

def DeclaresPrerequisites (task : TaskSpec) : Prop :=
  task.parentTaskId.isSome = true ∨ TaskDependencyPolicy.fromParams task.params ≠ []

def Movable (task : Task) : Prop :=
  task.status = .backlog ∨ task.status = .queued
    ∨ task.status = .blocked ∧ BlockedTaskPolicy.reasonAllowsDispatch task.blockedReason = true

/-- The states that a plan for a task without an assignee leads to. -/
inductive Planned (task : TaskSpec) (requiresApproval : Bool) :
    TaskStatus → Option BlockedReason → Prop
  | input : Planned task requiresApproval .blocked (some .waitingInput)
  | approval (required : requiresApproval = true) :
      Planned task requiresApproval .blocked (some .waitingApproval)
  | dependency (free : requiresApproval = false) (declared : DeclaresPrerequisites task) :
      Planned task requiresApproval .blocked (some .waitingDependency)
  | ready {lane : TaskStatus} (free : requiresApproval = false)
      (start : lane = .backlog ∨ lane = .queued) : Planned task requiresApproval lane none

/-- A row as an insert leaves it. -/
structure Born (task : Task) : Prop where
  planned : Planned task.toTaskSpec task.requiresApproval task.status task.blockedReason
  unassigned : task.assignedAgentId = none
  undelivered : task.lastAssignmentId = none
  attempt : task.attempt = 0
  canonical : CanonicalDependencies task.params

section Steps

variable (gate : Lifecycle → Task → Prop)

/-- The statements that keep a working row working and every other row from it, apart from a
retirement. -/
inductive Rewrite : Task → Task → Prop
  | touch {task : Task} (organizationId id : Uuid) (updatedAt : Option Timestamp) :
      Rewrite task ((touchSql organizationId id updatedAt).apply task)
  | clearAgent {task : Task} (agentId : Uuid) (idle : task.status ≠ .working) :
      Rewrite task ((clearAgentSql agentId).apply task)
  | patch {task : Task} (organizationId id : Uuid) (update : UpdateTaskRow) (now : Timestamp)
      (unassigns : update.assignedAgentId = none
        ∨ update.assignedAgentId = some none ∧ task.status ≠ .working)
      (lane : ∀ status, update.status = some status →
        (status = .backlog ∨ status = .queued) ∧ Movable task ∧ gate .patch task) :
      Rewrite task ((patchSql organizationId id update now).apply task)
  | release {task : Task} (lane : TaskStatus) (now : Timestamp)
      (waits : waitsForDependency task = true) (start : lane = .backlog ∨ lane = .queued) :
      Rewrite task (releaseTo lane now task).bumpRowVersion
  | block {task : Task} (organizationId id : Uuid) (status : TaskStatus) (version : Nat)
      (metadata : Json) (now : Timestamp)
      (enters : BlockedTaskPolicy.canEnterDispatch task.status task.blockedReason = true) :
      Rewrite task ((markBlockedIfUnchangedSql organizationId id status version .waitingAgent
        metadata now).apply task)
  | approve {task : Task} {lane : TaskStatus} {reason : Option BlockedReason}
      (organizationId id : Uuid) (version : Nat) (approvedBy : Uuid) (metadata : Option Json)
      (now : Timestamp) (blocked : task.status = .blocked)
      (waits : task.blockedReason = some .waitingApproval)
      (planned : Planned task.toTaskSpec false lane reason) (allowed : gate .approve task) :
      Rewrite task ((approveWaitingTaskSql organizationId id version approvedBy lane reason
        metadata now).apply task)
  | retry {task : Task} {lane : TaskStatus} {reason : Option BlockedReason}
      (organizationId id : Uuid) (status : TaskStatus) (version : Nat) (metadata : Option Json)
      (now : Timestamp)
      (ended : task.status = .failed ∨ task.status = .canceled ∨ task.status = .blocked)
      (planned : Planned task.toTaskSpec task.requiresApproval lane reason) :
      Rewrite task ((retrySql organizationId id status version lane reason metadata
        now).apply task)
  | complete {task : Task} (organizationId id : Uuid) (body : Json) (version : Nat)
      (now : Timestamp) (blocked : task.status = .blocked)
      (held : task.blockedReason = some .waitingVerification) (allowed : gate .complete task) :
      Rewrite task ((setResultSql organizationId id .completed body version now).apply task)
  | cancel {task : Task} (organizationId id : Uuid) (version : Nat) (now : Timestamp)
      (idle : task.status ≠ .working) (unfinished : task.status ≠ .completed)
      (allowed : gate .cancel task) :
      Rewrite task ((cancelTaskSql organizationId id version now).apply task)
  | reap {task : Task} (ttlSecs : Int) (now : Timestamp) (blocked : task.status = .blocked)
      (waits : task.blockedReason = some .waitingAgent) (allowed : gate .reap task) :
      Rewrite task ((reapBlockedTasksSql ttlSecs now).apply task)
  | retire {task : Task} (ids : List Uuid) (now : Timestamp) (allowed : gate .retire task) :
      Rewrite task ((retireStaleTasksSql ids now).apply task)

/-- The statements that end an assignment. -/
inductive Settle : Task → Task → Prop
  | result {task : Task} {status : TaskStatus} (organizationId id deliveryId : Uuid)
      (attempt : Int) (body : Json) (now : Timestamp)
      (ended : status = .completed ∨ status = .failed) :
      Settle task ((applyResultSql organizationId id deliveryId attempt status body now).apply
        task)
  | hold {task : Task} (organizationId id deliveryId : Uuid) (attempt : Int) (body : Json)
      (now : Timestamp) :
      Settle task ((holdResultSql organizationId id deliveryId attempt body now).apply task)
  | quarantine {task : Task} (organizationId agentId : Uuid) (now : Timestamp) :
      Settle task ((invalidateActiveWorkSql organizationId agentId now).apply task)
  | expire {task : Task} (agentIds : List Uuid) (busyOwner : Task → Bool) (now : Timestamp) :
      Settle task ((expireWorkingLeasesSql agentIds busyOwner now).apply task)

/-- The statements that start an assignment; both set the same columns. -/
structure Assign (tasks : Tasks) (agentId deliveryId : Uuid) (before after : Task) : Prop where
  result : ∃ now, after = (assignTaskSql before.organizationId before.id agentId deliveryId
    900 now).apply before
  lane : before.status = .queued ∨ before.status = .blocked
  reason : before.blockedReason = none ∨ before.blockedReason = some .waitingAgent
    ∨ before.blockedReason = some .waitingVerification
  ready : prerequisitesReady tasks before.organizationId before.params before.parentTaskId
    = true

inductive TaskMove (before after : Task) : Prop
  | stay (same : after = before)
  | rewrite (rewritten : Rewrite gate before after)
  | settle (working : before.status = .working) (settled : Settle before after)

inductive TaskStep (tasks : Tasks) (before after : Task) : Prop
  | move (moved : TaskMove gate before after)
  | assign (agentId deliveryId : Uuid) (assigned : Assign tasks agentId deliveryId before after)

end Steps

/-- What holds of every row by itself. -/
structure RowInvariant (task : Task) : Prop where
  canonical : CanonicalDependencies task.params
  gated : task.requiresApproval = true → task.status = .canceled
    ∨ task.status = .blocked ∧ (task.blockedReason = some .waitingApproval
      ∨ task.blockedReason = some .waitingInput)
  owned : task.status = .working →
    task.assignedAgentId.isSome = true ∧ task.lastAssignmentId.isSome = true
  idle : task.status = .backlog ∨ task.status = .queued ∨ task.status = .blocked →
    task.assignedAgentId = none
  reasoned : task.status = .blocked → task.blockedReason.isSome = true
  known : ∀ reason, task.blockedReason = some reason →
    BlockedTaskPolicy.isValidReason reason = true
  declared : task.status = .blocked → task.blockedReason = some .waitingDependency →
    DeclaresPrerequisites task.toTaskSpec

section Rows

variable {gate : Lifecycle → Task → Prop} {tasks : Tasks} {before after : Task}

theorem Rewrite.spec (rewritten : Rewrite gate before after) :
    after.toTaskSpec = before.toTaskSpec := by
  cases rewritten <;> rfl

theorem Settle.spec (settled : Settle before after) : after.toTaskSpec = before.toTaskSpec := by
  cases settled <;> rfl

theorem Assign.spec {agentId deliveryId : Uuid}
    (assigned : Assign tasks agentId deliveryId before after) :
    after.toTaskSpec = before.toTaskSpec := by
  obtain ⟨now, rfl⟩ := assigned.result
  rfl

theorem TaskMove.spec (move : TaskMove gate before after) :
    after.toTaskSpec = before.toTaskSpec := by
  cases move with
  | stay same => rw [same]
  | rewrite rewritten => exact rewritten.spec
  | settle _ settled => exact settled.spec

theorem TaskStep.spec (step : TaskStep gate tasks before after) :
    after.toTaskSpec = before.toTaskSpec := by
  cases step with
  | move moved => exact moved.spec
  | assign _ _ assigned => exact assigned.spec

theorem RowInvariant.of_planned {task : Task} (canonical : CanonicalDependencies task.params)
    (unassigned : task.assignedAgentId = none)
    (planned : Planned task.toTaskSpec task.requiresApproval task.status task.blockedReason) :
    RowInvariant task := by
  generalize status_eq : task.status = status at planned
  generalize reason_eq : task.blockedReason = reason at planned
  generalize approval_eq : task.requiresApproval = approval at planned
  have known : reason = none ∨ reason = some .waitingInput ∨ reason = some .waitingApproval
      ∨ reason = some .waitingDependency := by
    cases planned <;> simp
  refine ⟨canonical, ?_, ?_, fun _ => unassigned, ?_, ?_, ?_⟩
  · intro required
    cases planned with
    | input => exact .inr ⟨status_eq, .inr reason_eq⟩
    | approval => exact .inr ⟨status_eq, .inl reason_eq⟩
    | dependency free => simp [approval_eq, free] at required
    | ready free => simp [approval_eq, free] at required
  · intro working
    cases planned with
    | ready _ start => rcases start with rfl | rfl <;> simp [status_eq] at working
    | _ => simp [status_eq] at working
  · intro blocked
    cases planned with
    | ready _ start => rcases start with rfl | rfl <;> simp [status_eq] at blocked
    | _ => simp [reason_eq]
  · rintro given found
    rw [reason_eq] at found
    rcases known with h | h | h | h <;> cases h ▸ found <;> decide
  · intro _ waits
    rw [reason_eq] at waits
    cases planned with
    | dependency _ declared => exact declared
    | _ => simp at waits

theorem Born.rowInvariant {task : Task} (born : Born task) : RowInvariant task :=
  .of_planned born.canonical born.unassigned born.planned

theorem Planned.status_ne_working {spec : TaskSpec} {requiresApproval : Bool}
    {status : TaskStatus} {reason : Option BlockedReason}
    (planned : Planned spec requiresApproval status reason) : status ≠ .working := by
  cases planned with
  | ready _ start => rcases start with rfl | rfl <;> simp
  | _ => simp

theorem Born.status_ne_working {task : Task} (born : Born task) : task.status ≠ .working :=
  born.planned.status_ne_working

theorem RowInvariant.of_ended (inv : RowInvariant before)
    (spec : after.toTaskSpec = before.toTaskSpec)
    (reason : after.blockedReason = before.blockedReason)
    (ended : after.status = .completed ∨ after.status = .failed ∨ after.status = .canceled)
    (free : after.requiresApproval = true → after.status = .canceled) : RowInvariant after := by
  refine ⟨?_, fun required => .inl (free required), ?_, ?_, ?_, ?_, ?_⟩
  · have params : after.params = before.params := congrArg TaskSpec.params spec
    exact params ▸ inv.canonical
  · intro working
    rcases ended with h | h | h <;> simp [h] at working
  · intro lane
    rcases ended with h | h | h <;> simp [h] at lane
  · intro blocked
    rcases ended with h | h | h <;> simp [h] at blocked
  · exact reason ▸ inv.known
  · intro blocked
    rcases ended with h | h | h <;> simp [h] at blocked

/-- Outside `canceled` and a wait for input or approval, no approval is asked for. -/
theorem RowInvariant.free_of_status (inv : RowInvariant before)
    (alive : before.status ≠ .canceled) (unblocked : before.status ≠ .blocked) :
    before.requiresApproval = false := by
  by_contra required
  rcases inv.gated (by simpa using required) with h | ⟨h, -⟩
  · exact alive h
  · exact unblocked h

theorem RowInvariant.free_of_reason (inv : RowInvariant before)
    (alive : before.status ≠ .canceled)
    (approval : before.blockedReason ≠ some .waitingApproval)
    (input : before.blockedReason ≠ some .waitingInput) : before.requiresApproval = false := by
  by_contra required
  rcases inv.gated (by simpa using required) with h | ⟨-, h | h⟩
  · exact alive h
  · exact approval h
  · exact input h

theorem RowInvariant.free_of_movable (inv : RowInvariant before) (movable : Movable before) :
    before.requiresApproval = false := by
  rcases movable with lane | lane | ⟨blocked, allows⟩
  · exact inv.free_of_status (by simp [lane]) (by simp [lane])
  · exact inv.free_of_status (by simp [lane]) (by simp [lane])
  · rcases BlockedTaskPolicy.reasonAllowsDispatch_iff.1 allows with h | h <;>
      exact inv.free_of_reason (by simp [blocked]) (by simp [h]) (by simp [h])

theorem RowInvariant.of_lane (inv : RowInvariant before)
    (spec : after.toTaskSpec = before.toTaskSpec)
    (reason : after.blockedReason = before.blockedReason ∨ after.blockedReason = none)
    (lane : after.status = .backlog ∨ after.status = .queued)
    (free : after.requiresApproval = false) (unassigned : after.assignedAgentId = none) :
    RowInvariant after := by
  have params : after.params = before.params := congrArg TaskSpec.params spec
  refine ⟨params ▸ inv.canonical, ?_, ?_, fun _ => unassigned, ?_, ?_, ?_⟩
  · intro required
    simp [free] at required
  · intro working
    rcases lane with h | h <;> simp [h] at working
  · intro blocked
    rcases lane with h | h <;> simp [h] at blocked
  · intro given found
    rcases reason with same | cleared
    · exact inv.known given (same ▸ found)
    · simp [cleared] at found
  · intro blocked
    rcases lane with h | h <;> simp [h] at blocked

theorem RowInvariant.unassigned_of_movable (inv : RowInvariant before)
    (movable : Movable before) : before.assignedAgentId = none := by
  rcases movable with lane | lane | ⟨blocked, -⟩
  · exact inv.idle (.inl lane)
  · exact inv.idle (.inr (.inl lane))
  · exact inv.idle (.inr (.inr blocked))

theorem waitsForDependency_iff {task : Task} :
    waitsForDependency task = true ↔ task.status = .blocked
      ∧ task.blockedReason = some .waitingDependency ∧ task.assignedAgentId = none
      ∧ task.requiresApproval = false := by
  simp [waitsForDependency, and_assoc]

theorem Rewrite.rowInvariant (inv : RowInvariant before)
    (rewritten : Rewrite gate before after) : RowInvariant after := by
  have spec := rewritten.spec
  cases rewritten with
  | touch => exact ⟨inv.canonical, inv.gated, inv.owned, inv.idle, inv.reasoned, inv.known,
      inv.declared⟩
  | clearAgent agentId idle =>
      exact ⟨inv.canonical, inv.gated, fun working => absurd working idle, fun _ => rfl,
        inv.reasoned, inv.known, inv.declared⟩
  | patch organizationId id update now unassigns lane =>
      cases given : update.status with
      | some status =>
          obtain ⟨start, movable, -⟩ := lane status given
          have unassigned := inv.unassigned_of_movable movable
          refine inv.of_lane spec (.inl rfl) ?_ (inv.free_of_movable movable) ?_
          · simpa [TaskUpdate.apply, patchSql, Task.bumpRowVersion, given] using start
          · rcases unassigns with kept | ⟨cleared, -⟩ <;>
              simp [TaskUpdate.apply, patchSql, Task.bumpRowVersion, *]
      | none =>
          have status : ((patchSql organizationId id update now).apply before).status
              = before.status := by
            simp [TaskUpdate.apply, patchSql, Task.bumpRowVersion, given]
          refine ⟨inv.canonical, ?_, ?_, ?_, ?_, inv.known, ?_⟩ <;> rw [status]
          · exact inv.gated
          · intro working
            rcases unassigns with kept | ⟨-, idle⟩
            · simpa [TaskUpdate.apply, patchSql, Task.bumpRowVersion, kept] using
                inv.owned working
            · exact absurd working idle
          · intro lane
            rcases unassigns with kept | ⟨cleared, -⟩
            · simpa [TaskUpdate.apply, patchSql, Task.bumpRowVersion, kept] using inv.idle lane
            · simp [TaskUpdate.apply, patchSql, Task.bumpRowVersion, cleared]
          · exact inv.reasoned
          · exact inv.declared
  | release lane now waits start =>
      obtain ⟨-, -, unassigned, free⟩ := waitsForDependency_iff.1 waits
      exact inv.of_lane spec (.inr rfl) start free unassigned
  | block organizationId id status version metadata now enters =>
      have movable : Movable before := by
        obtain ⟨lane, -⟩ := BlockedTaskPolicy.canEnterDispatch_iff.1 enters
        rcases lane with queued | blocked
        · exact .inr (.inl queued)
        · simp only [BlockedTaskPolicy.canEnterDispatch, Bool.and_eq_true] at enters
          exact .inr (.inr ⟨blocked, enters.2⟩)
      have free := inv.free_of_movable movable
      refine ⟨inv.canonical, ?_, ?_, fun _ => inv.unassigned_of_movable movable, fun _ => rfl,
        ?_, ?_⟩
      · intro required
        exact absurd (free.symm.trans required) Bool.false_ne_true
      · intro working
        cases working
      · intro reason found
        cases found
        decide
      · intro _ waits
        cases waits
  | approve organizationId id version approvedBy metadata now blocked waits planned allowed =>
      exact .of_planned inv.canonical (inv.idle (.inr (.inr blocked))) planned
  | retry organizationId id status version metadata now ended planned =>
      exact .of_planned inv.canonical rfl planned
  | complete organizationId id body version now blocked held allowed =>
      refine inv.of_ended spec rfl (.inl rfl) fun required => ?_
      have free := inv.free_of_reason (by simp [blocked]) (by simp [held]) (by simp [held])
      exact absurd (free.symm.trans required) Bool.false_ne_true
  | cancel => exact inv.of_ended spec rfl (.inr (.inr rfl)) fun _ => rfl
  | reap => exact inv.of_ended spec rfl (.inr (.inr rfl)) fun _ => rfl
  | retire => exact inv.of_ended spec rfl (.inr (.inr rfl)) fun _ => rfl

theorem Settle.rowInvariant (inv : RowInvariant before) (working : before.status = .working)
    (settled : Settle before after) : RowInvariant after := by
  have free := inv.free_of_status (by simp [working]) (by simp [working])
  have spec := settled.spec
  cases settled with
  | result organizationId id deliveryId attempt body now ended =>
      refine inv.of_ended spec rfl (ended.imp_right .inl) fun required => ?_
      exact absurd (free.symm.trans required) Bool.false_ne_true
  | hold =>
      refine ⟨inv.canonical, ?_, ?_, fun _ => rfl, fun _ => rfl, ?_, ?_⟩
      · intro required
        exact absurd (free.symm.trans required) Bool.false_ne_true
      · intro working
        cases working
      · intro reason found
        cases found
        decide
      · intro _ waits
        cases waits
  | quarantine =>
      refine inv.of_ended spec rfl (.inr (.inl rfl)) fun required => ?_
      exact absurd (free.symm.trans required) Bool.false_ne_true
  | expire =>
      refine inv.of_ended spec rfl (.inr (.inl rfl)) fun required => ?_
      exact absurd (free.symm.trans required) Bool.false_ne_true

section Assigned

variable {agentId deliveryId : Uuid} (assigned : Assign tasks agentId deliveryId before after)

include assigned

theorem Assign.status : after.status = .working := by
  obtain ⟨now, rfl⟩ := assigned.result
  rfl

theorem Assign.agent : after.assignedAgentId = some agentId := by
  obtain ⟨now, rfl⟩ := assigned.result
  rfl

theorem Assign.delivery : after.lastAssignmentId = some deliveryId := by
  obtain ⟨now, rfl⟩ := assigned.result
  rfl

theorem Assign.attempt : after.attempt = before.attempt + 1 := by
  obtain ⟨now, rfl⟩ := assigned.result
  rfl

theorem Assign.id : after.id = before.id :=
  congrArg TaskSpec.id assigned.spec

theorem Assign.organization : after.organizationId = before.organizationId :=
  congrArg TaskSpec.organizationId assigned.spec

theorem Assign.idle : before.status ≠ .working := by
  rcases assigned.lane with h | h <;> simp [h]

end Assigned

theorem Assign.free {agentId deliveryId : Uuid} (inv : RowInvariant before)
    (assigned : Assign tasks agentId deliveryId before after) :
    before.requiresApproval = false := by
  rcases assigned.lane with queued | blocked
  · exact inv.free_of_status (by simp [queued]) (by simp [queued])
  · rcases assigned.reason with h | h | h <;>
      exact inv.free_of_reason (by simp [blocked]) (by simp [h]) (by simp [h])

theorem Assign.rowInvariant {agentId deliveryId : Uuid} (inv : RowInvariant before)
    (assigned : Assign tasks agentId deliveryId before after) : RowInvariant after := by
  have free := assigned.free inv
  obtain ⟨now, rfl⟩ := assigned.result
  refine ⟨inv.canonical, ?_, fun _ => ⟨rfl, rfl⟩, ?_, ?_, ?_, ?_⟩
  · intro required
    exact absurd (free.symm.trans required) Bool.false_ne_true
  · intro lane
    rcases lane with h | h | h <;> cases h
  · intro blocked
    cases blocked
  · intro reason found
    cases found
  · intro blocked
    cases blocked

theorem TaskMove.rowInvariant (inv : RowInvariant before)
    (move : TaskMove gate before after) : RowInvariant after := by
  cases move with
  | stay same => exact same ▸ inv
  | rewrite rewritten => exact rewritten.rowInvariant inv
  | settle working settled => exact settled.rowInvariant inv working

end Rows

def Later (before after : Task) : Prop :=
  after = before
    ∨ after.toTaskSpec = before.toTaskSpec ∧ before.rowVersion < after.rowVersion

theorem Later.trans {first second third : Task} (one : Later first second)
    (two : Later second third) : Later first third := by
  rcases one with rfl | ⟨spec, more⟩
  · exact two
  · rcases two with rfl | ⟨spec', more'⟩
    · exact .inr ⟨spec, more⟩
    · exact .inr ⟨spec'.trans spec, more.trans more'⟩

theorem Later.eq_of_version {before after : Task} (later : Later before after)
    (same : after.rowVersion = before.rowVersion) : after = before := by
  rcases later with rfl | ⟨-, more⟩
  · rfl
  · exact absurd same more.ne'

/-- The part of a working row that only the end of its assignment changes. -/
structure SameWork (before after : Task) : Prop where
  spec : after.toTaskSpec = before.toTaskSpec
  working : before.status = .working
  still : after.status = .working
  agent : after.assignedAgentId = before.assignedAgentId
  delivery : after.lastAssignmentId = before.lastAssignmentId
  attempt : after.attempt = before.attempt

theorem SameWork.id {before after : Task} (same : SameWork before after) :
    after.id = before.id :=
  congrArg TaskSpec.id same.spec

theorem SameWork.organization {before after : Task} (same : SameWork before after) :
    after.organizationId = before.organizationId :=
  congrArg TaskSpec.organizationId same.spec

section Work

variable {gate : Lifecycle → Task → Prop} {tasks : Tasks} {before after : Task}

theorem Rewrite.later (rewritten : Rewrite gate before after) : Later before after := by
  refine .inr ⟨rewritten.spec, ?_⟩
  cases rewritten <;> exact Nat.lt_succ_self _

theorem TaskMove.later (move : TaskMove gate before after) : Later before after := by
  cases move with
  | stay same => exact .inl same
  | rewrite rewritten => exact rewritten.later
  | settle _ settled =>
      refine .inr ⟨settled.spec, ?_⟩
      cases settled <;> exact Nat.lt_succ_self _

theorem TaskStep.later (step : TaskStep gate tasks before after) : Later before after := by
  cases step with
  | move moved => exact moved.later
  | assign _ _ assigned =>
      refine .inr ⟨assigned.spec, ?_⟩
      obtain ⟨now, rfl⟩ := assigned.result
      exact Nat.lt_succ_self _

theorem Rewrite.sameWork (rewritten : Rewrite gate before after)
    (still : after.status = .working) : SameWork before after := by
  have spec := rewritten.spec
  cases rewritten with
  | touch => exact ⟨spec, still, still, rfl, rfl, rfl⟩
  | clearAgent agentId idle => exact absurd still idle
  | patch organizationId id update now unassigns lane =>
      cases given : update.status with
      | some status =>
          have same : status = .working := by
            simpa [TaskUpdate.apply, patchSql, Task.bumpRowVersion, given] using still
          obtain ⟨start, -⟩ := lane status given
          rcases start with rfl | rfl <;> cases same
      | none =>
          have working : before.status = .working := by
            simpa [TaskUpdate.apply, patchSql, Task.bumpRowVersion, given] using still
          rcases unassigns with kept | ⟨-, idle⟩
          · refine ⟨spec, working, still, ?_, rfl, rfl⟩
            simp [TaskUpdate.apply, patchSql, Task.bumpRowVersion, kept]
          · exact absurd working idle
  | release lane now waits start =>
      rcases start with rfl | rfl <;> cases still
  | block => cases still
  | approve _ _ _ _ _ _ _ _ planned => exact absurd still planned.status_ne_working
  | retry _ _ _ _ _ _ _ planned => exact absurd still planned.status_ne_working
  | complete => cases still
  | cancel => cases still
  | reap => cases still
  | retire => cases still

theorem Settle.status (settled : Settle before after) :
    after.status = .completed ∨ after.status = .failed
      ∨ after.status = .blocked ∧ after.blockedReason = some .waitingVerification := by
  cases settled with
  | result _ _ _ _ _ _ ended => exact ended.imp_right .inl
  | hold => exact .inr (.inr ⟨rfl, rfl⟩)
  | quarantine => exact .inr (.inl rfl)
  | expire => exact .inr (.inl rfl)

theorem Settle.status_ne_working (settled : Settle before after) :
    after.status ≠ .working := by
  rcases settled.status with h | h | ⟨h, -⟩ <;> simp [h]

theorem TaskMove.sameWork (move : TaskMove gate before after)
    (still : after.status = .working) : SameWork before after := by
  cases move with
  | stay same => exact same ▸ ⟨rfl, same ▸ still, same ▸ still, rfl, rfl, rfl⟩
  | rewrite rewritten => exact rewritten.sameWork still
  | settle _ settled => exact absurd still settled.status_ne_working

theorem Rewrite.keeps_working (rewritten : Rewrite gate before after)
    (working : before.status = .working) : after.status = .working ∨ gate .retire before := by
  cases rewritten with
  | touch => exact .inl working
  | clearAgent agentId idle => exact absurd working idle
  | patch organizationId id update now unassigns lane =>
      cases given : update.status with
      | some status =>
          obtain ⟨-, movable, -⟩ := lane status given
          rcases movable with h | h | ⟨h, -⟩ <;> simp [working] at h
      | none =>
          left
          simpa [TaskUpdate.apply, patchSql, Task.bumpRowVersion, given] using working
  | release lane now waits =>
      have blocked := (waitsForDependency_iff.1 waits).1
      simp [working] at blocked
  | block _ _ _ _ _ _ enters =>
      obtain ⟨lane, -⟩ := BlockedTaskPolicy.canEnterDispatch_iff.1 enters
      simp [working] at lane
  | approve _ _ _ _ _ _ blocked => simp [working] at blocked
  | retry _ _ _ _ _ _ ended => simp [working] at ended
  | complete _ _ _ _ _ blocked => simp [working] at blocked
  | cancel _ _ _ _ idle => exact absurd working idle
  | reap _ _ blocked => simp [working] at blocked
  | retire _ _ allowed => exact .inr allowed

theorem TaskMove.attempt (move : TaskMove gate before after) :
    after.attempt = before.attempt := by
  cases move with
  | stay same => rw [same]
  | rewrite rewritten => cases rewritten <;> rfl
  | settle _ settled => cases settled <;> rfl

end Work

end Forge.TaskSteps
