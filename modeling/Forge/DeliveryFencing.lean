import Forge.ResultMessages

/-! Delivery fencing: deliveries are fresh, attempts grow, a delivery works in one interval only,
and the result of a delivery that is not its task's current one changes neither tasks nor runs. -/

namespace Forge.DeliveryFencing

open Forge.Changes
open Forge.DependencyReadiness
open Forge.Library.Identifier
open Forge.Library.KeyedTable
open Forge.Library.StateMachine
open Forge.LivenessChanges
open Forge.OrchestrationService
open Forge.ResultConsumer
open Forge.ResultMessages
open Forge.Schema
open Forge.Soundness
open Forge.System
open Forge.TaskSteps
open Forge.Transactions

/-- A working row keeps the work of its earlier row, or was assigned since, under a delivery that
was not issued before and with a greater attempt. -/
def WorkFollows (first : Stage) (row : Task) : Prop :=
  (∃ earlier ∈ first.db.tasks, SameWork earlier row)
    ∨ (∃ deliveryId, row.lastAssignmentId = some deliveryId
        ∧ ∀ issue ∈ first.issued, issue.deliveryId ≠ deliveryId)
      ∧ ∀ earlier ∈ first.db.tasks, earlier.id = row.id → earlier.attempt < row.attempt

/-- What a stage may become in one transaction, as far as deliveries go. -/
structure Follows (first last : Stage) : Prop where
  attempts : Table.Evolves (fun row next => row.attempt ≤ next.attempt) (fun _ => True)
    first.db.tasks last.db.tasks
  issued : ∀ issue ∈ first.issued, issue ∈ last.issued
  works : ∀ row ∈ last.db.tasks, row.status = .working → WorkFollows first row

section Parts

variable {gate : Lifecycle → Task → Prop} {first before after : Stage}

theorem attempt_le_of_step {tasks : Tasks} {row next : Task}
    (step : TaskStep gate tasks row next) : row.attempt ≤ next.attempt := by
  cases step with
  | move moved => exact moved.attempt.ge
  | assign _ _ assigned => exact assigned.attempt ▸ Nat.le_succ _

theorem attempts_of_change (change : Change gate before after) :
    Table.Evolves (fun row next : Task => row.attempt ≤ next.attempt) (fun _ => True)
      before.db.tasks after.db.tasks :=
  change.evolves.mono (fun _ _ _ _ => attempt_le_of_step) fun _ _ => trivial

theorem issued_of_change (change : Change gate before after) :
    ∀ issue ∈ before.issued, issue ∈ after.issued := by
  cases change with
  | move moved => exact fun issue was => moved.issued ▸ was
  | start _ _ _ started => exact fun issue was => started.issued ▸ List.mem_cons_of_mem _ was

theorem WorkFollows.trans {row next : Task} (follows : WorkFollows first row)
    (same : SameWork row next) : WorkFollows first next := by
  refine follows.imp ?_ ?_
  · rintro ⟨earlier, was, work⟩
    exact ⟨earlier, was, same.spec.trans work.spec, work.working, same.still,
      same.agent.trans work.agent, same.delivery.trans work.delivery,
      same.attempt.trans work.attempt⟩
  · rintro ⟨⟨deliveryId, delivery, fresh⟩, more⟩
    refine ⟨⟨deliveryId, same.delivery.trans delivery, fresh⟩, fun earlier was id => ?_⟩
    rw [same.attempt]
    exact more earlier was (id.trans same.id)

theorem follows_of_change (change : Change gate before after) (follows : Follows first before) :
    Follows first after := by
  refine ⟨follows.attempts.trans Nat.le_trans (fun _ _ => trivial) (attempts_of_change change),
    fun issue was => issued_of_change change issue (follows.issued issue was), ?_⟩
  intro row member working
  cases change with
  | move moved =>
      obtain ⟨earlier, was, same⟩ := moved.work member working
      exact (follows.works earlier was same.working).trans same
  | start task agentId deliveryId started =>
      obtain ⟨assigned, assign, rows⟩ := started.mem_tasks
      rcases (rows row).1 member with rfl | ⟨was, -⟩
      · refine .inr ⟨⟨deliveryId, assign.delivery, fun issue was =>
          started.fresh issue (follows.issued issue was)⟩, fun earlier was id => ?_⟩
        obtain ⟨next, there, id', bound⟩ := follows.attempts.forward was
        obtain rfl : next = task :=
          Table.eq_of_key_eq there started.member (id'.trans (id.trans assign.id))
        rw [assign.attempt]
        exact Nat.lt_succ_of_le bound
      · exact follows.works row was working

theorem Follows.refl (stage : Stage) : Follows stage stage :=
  ⟨.refl (fun row => Nat.le_refl row.attempt) _, fun _ was => was, fun row member working =>
    .inl ⟨row, member, rfl, working, working, rfl, rfl, rfl⟩⟩

end Parts

section Transactions

variable {crypto : Crypto} {w : World} {a : Action}

theorem follows_of_exec (crypto : Crypto) (sound : SoundWorld w) (fresh : FreshDelivery w a) :
    Follows (stageOf w) (stageOf (exec crypto w a)) :=
  (chain_induction (fun _ _ _ => follows_of_change)
    (exec_changes crypto sound.sound sound.history fresh (respects_true w a)) sound.sound
    (.refl (stageOf w))).2

def worksUnder (deliveryId : Uuid) (w : World) : Bool :=
  w.db.tasks.any fun task => task.status == .working && task.lastAssignmentId == some deliveryId

theorem worksUnder_iff {deliveryId : Uuid} :
    worksUnder deliveryId w = true ↔
      ∃ task ∈ w.db.tasks, task.status = .working ∧ task.lastAssignmentId = some deliveryId := by
  simp [worksUnder]

/-- The delivery was issued, and no task works under it any more. -/
structure Over (deliveryId : Uuid) (w : World) : Prop where
  sound : SoundWorld w
  issued : ∃ issue ∈ w.issued, issue.deliveryId = deliveryId
  off : worksUnder deliveryId w = false

theorem issued_of_worksUnder (sound : SoundWorld w) {deliveryId : Uuid}
    (works : worksUnder deliveryId w = true) :
    ∃ issue ∈ w.issued, issue.deliveryId = deliveryId := by
  obtain ⟨task, member, working, delivery⟩ := worksUnder_iff.1 works
  obtain ⟨assigned, -⟩ := (sound.sound.rows task member).owned working
  obtain ⟨agentId, agent⟩ := Option.isSome_iff_exists.1 assigned
  exact ⟨_, sound.sound.current task member working agentId deliveryId agent delivery, rfl⟩

theorem over_of_exec {deliveryId : Uuid} (ended : Over deliveryId w)
    (fresh : FreshDelivery w a) : Over deliveryId (exec crypto w a) := by
  have follows := follows_of_exec crypto ended.sound fresh
  obtain ⟨issue, was, same⟩ := ended.issued
  refine ⟨soundWorld_exec ended.sound fresh, ⟨issue, follows.issued issue was, same⟩, ?_⟩
  by_contra works
  obtain ⟨task, member, working, delivery⟩ := worksUnder_iff.1 (by simpa using works)
  rcases follows.works task member working with ⟨earlier, there, work⟩ | ⟨⟨drawn, new, unused⟩, -⟩
  · have still : worksUnder deliveryId w = true :=
      worksUnder_iff.2 ⟨earlier, there, work.working, work.delivery.symm.trans delivery⟩
    exact absurd (still.symm.trans ended.off) Bool.noConfusion
  · have drawn_eq : drawn = deliveryId := Option.some.inj (new.symm.trans delivery)
    exact unused issue was (same.trans drawn_eq.symm)

/-- Over any run a delivery takes its task out of `working` at most once. -/
theorem departs_at_most_once (sound : SoundWorld w) (deliveryId : Uuid) {actions : List Action}
    (all : AllMeet crypto (fun _ _ => True) w actions) :
    exits (exec crypto) (worksUnder deliveryId) w actions ≤ 1 := by
  have ends : ∀ s a, SoundWorld s → FreshDelivery s a ∧ True →
      worksUnder deliveryId s = true → worksUnder deliveryId (exec crypto s a) = false →
        Over deliveryId (exec crypto s a) := by
    intro s a inv allowed works ceased
    obtain ⟨issue, was, same⟩ := issued_of_worksUnder inv works
    exact ⟨soundWorld_exec inv allowed.1,
      ⟨issue, (follows_of_exec crypto inv allowed.1).issued issue was, same⟩, ceased⟩
  exact exits_le_one (fun _ ended => ended.off)
    (fun _ _ ended allowed => over_of_exec ended allowed.1)
    (fun _ _ inv allowed => soundWorld_exec inv allowed.1) ends sound all

end Transactions

section Results

variable {crypto : Crypto} {w : World} {a : Action} {organizationId : Uuid} {result : TaskResult}

def Stale (w : World) (result : TaskResult) : Prop :=
  ∀ task ∈ w.db.tasks, task.id = result.taskId → task.lastAssignmentId ≠ result.deliveryId

theorem stale_result_changes_nothing (reports : Reports crypto w a organizationId result)
    (stale : Stale w result) :
    (exec crypto w a).db.tasks = w.db.tasks ∧ (exec crypto w a).db.runs = w.db.runs := by
  obtain ⟨deliveryId, attempt, computed, delivery, -, applied, after⟩ := reports.applied
  rw [after]
  cases applied with
  | duplicate => exact ⟨rfl, rfl⟩
  | unknown => exact ⟨rfl, rfl⟩
  | recorded => exact ⟨rfl, rfl⟩
  | settled inbox inserted row member hit =>
      obtain ⟨id, -, -, current, -⟩ := isDelivery_iff.1 hit
      exact absurd (current.trans delivery.symm) (stale row member id)

/-- The fencing of deliveries in a world and in every run from it. -/
structure Fenced (crypto : Crypto) (w : World) : Prop where
  unique : (w.issued.map Issue.deliveryId).Nodup
  ascending : w.issued.Pairwise fun newer older =>
    newer.taskId = older.taskId → older.attempt < newer.attempt
  recorded : ∀ task ∈ w.db.tasks, task.status = .working → ∃ issue ∈ w.issued,
    issue.taskId = task.id ∧ task.lastAssignmentId = some issue.deliveryId
      ∧ issue.attempt = task.attempt
  assigned : ∀ a, FreshDelivery w a → ∀ task ∈ w.db.tasks, ∀ next ∈ (exec crypto w a).db.tasks,
    next.id = task.id → next.status = .working →
      SameWork task next
        ∨ (∃ deliveryId, next.lastAssignmentId = some deliveryId
            ∧ ∀ issue ∈ w.issued, issue.deliveryId ≠ deliveryId)
          ∧ task.attempt < next.attempt
  departs : ∀ deliveryId actions, AllMeet crypto (fun _ _ => True) w actions →
    exits (exec crypto) (worksUnder deliveryId) w actions ≤ 1
  stale : ∀ a organizationId result, Reports crypto w a organizationId result → Stale w result →
    (exec crypto w a).db.tasks = w.db.tasks ∧ (exec crypto w a).db.runs = w.db.runs

theorem delivery_fencing (reachable : ReachableWorld crypto w) : Fenced crypto w := by
  have sound := soundWorld_of_reachable reachable
  constructor
  case unique => exact sound.sound.fresh
  case ascending => exact sound.sound.order
  case recorded =>
      intro task member working
      obtain ⟨assigned, delivered⟩ := (sound.sound.rows task member).owned working
      obtain ⟨agentId, agent⟩ := Option.isSome_iff_exists.1 assigned
      obtain ⟨deliveryId, delivery⟩ := Option.isSome_iff_exists.1 delivered
      exact ⟨_, sound.sound.current task member working agentId deliveryId agent delivery, rfl,
        delivery, rfl⟩
  case assigned =>
      intro a fresh task member next there id working
      have follows := follows_of_exec crypto sound fresh
      rcases follows.works next there working with ⟨earlier, was, same⟩ | ⟨new, more⟩
      · obtain rfl : earlier = task := Table.eq_of_key_eq was member (same.id.symm.trans id)
        exact .inl same
      · exact .inr ⟨new, more task member id.symm⟩
  case departs => exact fun deliveryId actions => departs_at_most_once sound deliveryId
  case stale => exact fun a organizationId result => stale_result_changes_nothing

end Results

def reclaimed : List Action :=
  Sample.staffed ++ Sample.claimed (Sample.named 20) (Sample.named 10) 30
    ++ [Sample.act (Sample.day + 901 * second) 0 (.expireWorkingLeases 5000),
      Sample.act 0 0 (.retryTask Sample.organization (Sample.named 20)),
      Sample.queue (Sample.named 20),
      Sample.act Sample.day 31 (.claimNextTask (Sample.named 10) [])]

def reclaimedWorld : World := runFrom Sample.crypto .start reclaimed

/-- The second delivery runs as the second attempt. -/
theorem delivery_fencing_reclaimed :
    (reclaimedWorld.db.tasks.rows.map fun task => (task.lastAssignmentId, task.attempt))
        = [(some (Sample.named 31), 2)]
      ∧ Fenced Sample.crypto reclaimedWorld :=
  ⟨by decide +kernel, delivery_fencing (reachableWhen_run (by decide +kernel))⟩

end Forge.DeliveryFencing
