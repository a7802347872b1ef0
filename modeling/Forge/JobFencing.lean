import Forge.JobQueue

/-! Fencing of the job queue: dead and completed jobs are final in every run, and while releases
only take abandoned locks, a worker owns what it processes and the retry budget holds. -/

namespace Forge.JobFencing

open Forge.JobQueue
open Forge.Library.Identifier
open Forge.Library.KeyedTable
open Forge.Library.StateMachine
open Forge.ParticipantStatements
open Forge.Schema

def ReachablePool (condition : Pool → Action → Prop) : Pool → Prop :=
  Reachable exec (· = Pool.empty) fun pool a => FreshId pool a ∧ condition pool a

def Leads : Pool → Pool → Prop :=
  Reaches exec FreshId

/-- What a statement does to a row. -/
inductive JobMove (before : JobEntry) : JobEntry → Prop
  | stay : JobMove before before
  | lock (workerId : String) (now : Timestamp) (pending : before.status = .pending) :
      JobMove before (before.lock workerId now)
  | fail (message : String) (now : Timestamp) :
      JobMove before ((before.failed message now).getD before)
  | release (running : before.status = .running) : JobMove before before.release

section Steps

variable {pool : Pool} {a : Action}

theorem nextJob_spec {jobs : Jobs} {queue : String} {locked : List Uuid} {now : Timestamp}
    {job : JobEntry} (next : nextJob jobs queue locked now = some job) :
    job ∈ jobs ∧ job.status = .pending := by
  obtain ⟨member, claimable⟩ := List.mem_filter.1 (mem_of_selectFirst next)
  simp only [Bool.and_eq_true, beq_iff_eq] at claimable
  exact ⟨member, claimable.1.1.2⟩

theorem mem_enqueue {jobs grown : Jobs} {new : NewJob} {id : Uuid} {now : Timestamp}
    (added : enqueue jobs new id now = some grown) :
    ∀ job, job ∈ grown ↔ job = new.entry id now ∨ job ∈ jobs := by
  rw [enqueue] at added
  split at added
  · cases added
  · exact (Table.insert?_eq_some added).2

theorem close_cases (pool : Pool) (claim : Claim) (jobs : Jobs) :
    pool.close claim jobs = pool
    ∨ claim ∈ pool.processing
      ∧ pool.close claim jobs = { pool with jobs, processing := pool.processing.erase claim } := by
  rw [Pool.close]
  split
  case isTrue held => exact .inr ⟨held, rfl⟩
  case isFalse => exact .inl rfl

theorem moves (pool : Pool) (a : Action) : ∀ next ∈ (exec pool a).jobs,
    (∃ job ∈ pool.jobs, job.id = next.id ∧ JobMove job next)
    ∨ ∃ new id, a.operation = .enqueue new id ∧ next = new.entry id a.now := by
  intro next there
  have stays : next ∈ pool.jobs → ∃ job ∈ pool.jobs, job.id = next.id ∧ JobMove job next :=
    fun member => ⟨next, member, rfl, .stay⟩
  rw [exec] at there
  cases operation : a.operation with
  | enqueue new id =>
      simp only [operation] at there
      cases added : enqueue pool.jobs new id a.now with
      | none =>
          rw [added] at there
          exact .inl (stays there)
      | some jobs =>
          rw [added] at there
          rcases (mem_enqueue added next).1 there with born | member
          · exact .inr ⟨new, id, rfl, born⟩
          · exact .inl (stays member)
  | dequeue queue workerId locked =>
      refine .inl ?_
      simp only [operation] at there
      cases found : nextJob pool.jobs queue locked a.now with
      | none =>
          rw [found] at there
          exact stays there
      | some job =>
          rw [found] at there
          obtain ⟨old, member, rfl⟩ := mem_lockJob.1 there
          obtain ⟨listed, pending⟩ := nextJob_spec found
          by_cases hit : (old.id == job.id) = true
          · obtain rfl : old = job := Table.eq_of_key_eq member listed (by simpa using hit)
            exact ⟨old, member, by simp [JobEntry.lock],
              by simpa using JobMove.lock workerId a.now pending⟩
          · exact ⟨old, member, by rw [if_neg hit], by rw [if_neg hit]; exact .stay⟩
  | complete claim =>
      refine .inl ?_
      simp only [operation] at there
      rcases close_cases pool claim (complete pool.jobs claim.jobId) with same | ⟨-, closed⟩
      · exact stays (same ▸ there)
      · rw [closed] at there
        exact stays (Table.mem_deleteWhere.1 there).1
  | fail claim message =>
      refine .inl ?_
      simp only [operation] at there
      rcases close_cases pool claim (fail pool.jobs claim.jobId message a.now) with
        same | ⟨-, closed⟩
      · exact stays (same ▸ there)
      · rw [closed] at there
        obtain ⟨old, member, rfl⟩ := mem_fail.1 there
        by_cases hit : (old.id == claim.jobId) = true
        · rw [if_pos hit]
          exact ⟨old, member, (JobEntry.id_failed message a.now old).symm, .fail message a.now⟩
        · rw [if_neg hit]
          exact ⟨old, member, rfl, .stay⟩
  | abandon claim =>
      refine .inl ?_
      simp only [operation] at there
      rcases close_cases pool claim pool.jobs with same | ⟨-, closed⟩
      · exact stays (same ▸ there)
      · rw [closed] at there
        exact stays there
  | releaseStaleLocks timeoutSecs =>
      refine .inl ?_
      simp only [operation] at there
      obtain ⟨old, member, rfl⟩ := mem_releaseStaleLocks.1 there
      by_cases stale : old.isStale timeoutSecs a.now = true
      · rw [if_pos stale]
        simp only [JobEntry.isStale, Bool.and_eq_true, beq_iff_eq] at stale
        exact ⟨old, member, rfl, .release stale.1⟩
      · rw [if_neg stale]
        exact ⟨old, member, rfl, .stay⟩

theorem enqueued_close (pool : Pool) (claim : Claim) (jobs : Jobs) :
    (pool.close claim jobs).enqueued = pool.enqueued := by
  rw [Pool.close]
  split <;> rfl

theorem enqueued_exec (pool : Pool) (a : Action) : ∀ id ∈ pool.enqueued,
    id ∈ (exec pool a).enqueued := by
  intro id known
  rw [exec]
  cases a.operation with
  | enqueue new fresh =>
      dsimp only
      split
      · exact List.mem_cons_of_mem _ known
      · exact known
  | dequeue =>
      dsimp only
      split <;> exact known
  | complete => simpa only [enqueued_close] using known
  | fail => simpa only [enqueued_close] using known
  | abandon => simpa only [enqueued_close] using known
  | releaseStaleLocks => exact known

end Steps

def Exhausted (job : JobEntry) : Prop :=
  job.status = .dead ∧ job.maxAttempts ≤ job.attempts

theorem exhausted_of_move {before after : JobEntry} (move : JobMove before after)
    (exhausted : Exhausted before) : Exhausted after := by
  obtain ⟨dead, spent⟩ := exhausted
  cases move with
  | stay => exact ⟨dead, spent⟩
  | lock _ _ pending => rw [dead] at pending; cases pending
  | release running => rw [dead] at running; cases running
  | fail message now =>
      rcases before.failed_cases message now with same | ⟨runAt, next⟩
      · rw [same]
        exact ⟨dead, spent⟩
      · have last : before.maxAttempts ≤ before.attempts + 1 := by omega
        rw [next]
        exact ⟨if_pos last, by push_cast; exact last⟩

/-- Rows have enqueued identifiers, and a dead row has no attempt left. -/
structure Recorded (pool : Pool) : Prop where
  known : ∀ job ∈ pool.jobs, job.id ∈ pool.enqueued
  dead : ∀ job ∈ pool.jobs, job.status = .dead → job.maxAttempts ≤ job.attempts

section Finality

variable {pool : Pool} {a : Action}

theorem recorded_empty : Recorded Pool.empty :=
  ⟨fun job member => absurd member (Table.not_mem_empty job),
    fun job member => absurd member (Table.not_mem_empty job)⟩

theorem enqueued_of_mem (recorded : Recorded pool) {job : JobEntry}
    (member : job ∈ (exec pool a).jobs) : job.id ∈ (exec pool a).enqueued := by
  rcases moves pool a job member with ⟨old, was, same, -⟩ | ⟨new, id, operation, rfl⟩
  · rw [← same]
    exact enqueued_exec pool a _ (recorded.known old was)
  · rw [exec] at member ⊢
    simp only [operation] at member ⊢
    cases added : enqueue pool.jobs new id a.now with
    | none =>
        rw [added] at member
        exact recorded.known _ member
    | some jobs => exact List.mem_cons_self

theorem recorded_exec (recorded : Recorded pool) : Recorded (exec pool a) := by
  refine ⟨fun job member => enqueued_of_mem recorded member, fun next there dead => ?_⟩
  rcases moves pool a next there with ⟨old, was, -, move⟩ | ⟨new, id, -, rfl⟩
  · cases move with
    | stay => exact recorded.dead _ was dead
    | lock => cases dead
    | release => cases dead
    | fail message now =>
        rcases old.failed_cases message now with same | ⟨runAt, next⟩
        · rw [same] at dead ⊢
          exact recorded.dead old was dead
        · rw [next] at dead ⊢
          by_contra left
          have fewer : ¬old.maxAttempts ≤ old.attempts + 1 := by push_cast at left; exact left
          simp [fewer] at dead
  · cases dead

def Final (id : Uuid) (pool : Pool) : Prop :=
  id ∈ pool.enqueued ∧ ∀ job ∈ pool.jobs, job.id = id → Exhausted job

theorem final_exec {id : Uuid} (fresh : FreshId pool a) (final : Final id pool) :
    Final id (exec pool a) := by
  refine ⟨enqueued_exec pool a id final.1, fun next there same => ?_⟩
  rcases moves pool a next there with ⟨old, was, id_eq, move⟩ | ⟨new, other, operation, rfl⟩
  · exact exhausted_of_move move (final.2 old was (id_eq.trans same))
  · subst same
    exact absurd final.1 (fresh _ (by simp [operation, Operation.draws]; rfl))

theorem absent_exec {id : Uuid} (fresh : FreshId pool a)
    (absent : id ∈ pool.enqueued ∧ ∀ job ∈ pool.jobs, job.id ≠ id) :
    id ∈ (exec pool a).enqueued ∧ ∀ job ∈ (exec pool a).jobs, job.id ≠ id := by
  refine ⟨enqueued_exec pool a id absent.1, fun next there same => ?_⟩
  rcases moves pool a next there with ⟨old, was, id_eq, -⟩ | ⟨new, other, operation, rfl⟩
  · exact absent.2 old was (id_eq.trans same)
  · subst same
    exact absurd absent.1 (fresh _ (by simp [operation, Operation.draws]; rfl))

end Finality

def Holds (jobs : Jobs) (claim : Claim) : Prop :=
  ∃ job ∈ jobs, job.id = claim.jobId ∧ job.status = .running
    ∧ job.lockedBy = some claim.workerId ∧ job.lockedAt = some claim.lockedAt

/-- The attempts of a job stay within its budget, a first one always being granted. -/
structure WithinBudget (job : JobEntry) : Prop where
  spent : (job.attempts : Int) ≤ max 1 job.maxAttempts
  left : job.status ≠ .dead → job.attempts = 0 ∨ (job.attempts : Int) < job.maxAttempts

/-- Every worker holds the lock of what it processes, no two process one job, and no job has
more attempts than its budget. -/
structure Fenced (pool : Pool) : Prop where
  held : ∀ claim ∈ pool.processing, Holds pool.jobs claim
  single : (pool.processing.map Claim.jobId).Nodup
  budget : ∀ job ∈ pool.jobs, WithinBudget job

section Fencing

variable {pool : Pool} {a : Action}

theorem Holds.kept {jobs after : Jobs} {claim : Claim} (holds : Holds jobs claim)
    (same : ∀ job ∈ jobs, job.id = claim.jobId → job.status = .running → job ∈ after) :
    Holds after claim := by
  obtain ⟨job, member, id, running, owner⟩ := holds
  exact ⟨job, same job member id running, id, running, owner⟩

theorem withinBudget_entry (new : NewJob) (id : Uuid) (now : Timestamp) :
    WithinBudget (new.entry id now) :=
  ⟨by simp [NewJob.entry], fun _ => .inl rfl⟩

theorem withinBudget_failed {job : JobEntry} (budget : WithinBudget job)
    (running : job.status = .running) (message : String) (now : Timestamp) :
    WithinBudget ((job.failed message now).getD job) := by
  have left := budget.left (by rw [running]; decide)
  rcases job.failed_cases message now with same | ⟨runAt, next⟩
  · rwa [same]
  · rw [next]
    constructor
    · push_cast
      omega
    · intro alive
      by_cases last : job.maxAttempts ≤ job.attempts + 1
      · exact absurd (if_pos last) alive
      · push_cast
        omega

theorem erase_claim (single : (pool.processing.map Claim.jobId).Nodup) {claim other : Claim}
    (held : claim ∈ pool.processing) (member : other ∈ pool.processing.erase claim) :
    other ∈ pool.processing ∧ other.jobId ≠ claim.jobId := by
  obtain ⟨different, was⟩ := (single.of_map _).mem_erase_iff.1 member
  exact ⟨was, fun same => different (List.inj_on_of_nodup_map single was held same)⟩

theorem fenced_close (fenced : Fenced pool) {claim : Claim} {jobs : Jobs}
    (others : ∀ job ∈ pool.jobs, job.id ≠ claim.jobId → job ∈ jobs)
    (budget : claim ∈ pool.processing → ∀ job ∈ jobs, WithinBudget job) :
    Fenced (pool.close claim jobs) := by
  rcases close_cases pool claim jobs with same | ⟨held, closed⟩
  · rwa [same]
  · rw [closed]
    constructor
    case held =>
        intro other member
        obtain ⟨was, different⟩ := erase_claim fenced.single held member
        exact (fenced.held other was).kept fun job there id _ =>
          others job there (id.symm ▸ different)
    case single => exact fenced.single.sublist (List.erase_sublist.map _)
    case budget => exact budget held

theorem fenced_exec (fenced : Fenced pool) (spares : OnlyAbandoned pool a) :
    Fenced (exec pool a) := by
  rw [exec]
  cases operation : a.operation with
  | enqueue new id =>
      cases added : enqueue pool.jobs new id a.now with
      | none => simpa only [added] using fenced
      | some jobs =>
          simp only [added]
          refine ⟨fun claim member => (fenced.held claim member).kept fun job there _ _ =>
            (mem_enqueue added job).2 (.inr there), fenced.single, fun job there => ?_⟩
          rcases (mem_enqueue added job).1 there with rfl | was
          · exact withinBudget_entry new id a.now
          · exact fenced.budget job was
  | dequeue queue workerId locked =>
      cases found : nextJob pool.jobs queue locked a.now with
      | none => simpa only [found] using fenced
      | some job =>
          simp only [found]
          obtain ⟨listed, pending⟩ := nextJob_spec found
          have unheld : ∀ claim ∈ pool.processing, claim.jobId ≠ job.id := by
            intro claim member same
            obtain ⟨other, there, id, running, -⟩ := fenced.held claim member
            obtain rfl : other = job := Table.eq_of_key_eq there listed (id.trans same)
            rw [pending] at running
            cases running
          constructor
          case held =>
              intro claim member
              rcases List.mem_cons.1 member with rfl | was
              · exact ⟨job.lock workerId a.now, mem_lockJob.2 ⟨job, listed, by simp⟩, rfl, rfl,
                  rfl, rfl⟩
              · refine (fenced.held claim was).kept fun other there id _ => ?_
                have miss : other.id ≠ job.id := fun same => unheld claim was (id.symm.trans same)
                exact mem_lockJob.2 ⟨other, there, by simp [miss]⟩
          case single =>
              refine List.nodup_cons.2 ⟨fun taken => ?_, fenced.single⟩
              obtain ⟨claim, was, same⟩ := List.mem_map.1 taken
              exact unheld claim was same
          case budget =>
              intro next there
              obtain ⟨old, was, rfl⟩ := mem_lockJob.1 there
              have budget := fenced.budget old was
              by_cases hit : (old.id == job.id) = true
              · obtain rfl : old = job := Table.eq_of_key_eq was listed (by simpa using hit)
                rw [if_pos hit]
                exact ⟨budget.spent, fun _ => budget.left (by rw [pending]; decide)⟩
              · rwa [if_neg hit]
  | complete claim =>
      refine fenced_close fenced (fun job there different => ?_) fun _ job there => ?_
      · exact Table.mem_deleteWhere.2 ⟨there, by simpa using different⟩
      · exact fenced.budget job (Table.mem_deleteWhere.1 there).1
  | fail claim message =>
      refine fenced_close fenced (fun job there different => ?_) fun held next there => ?_
      · exact mem_fail.2 ⟨job, there, by simp [different]⟩
      · obtain ⟨old, was, rfl⟩ := mem_fail.1 there
        by_cases hit : (old.id == claim.jobId) = true
        · obtain ⟨job, listed, id, running, -⟩ := fenced.held claim held
          obtain rfl : old = job := Table.eq_of_key_eq was listed (by rw [id]; simpa using hit)
          rw [if_pos hit]
          exact withinBudget_failed (fenced.budget old was) running message a.now
        · rw [if_neg hit]
          exact fenced.budget old was
  | abandon claim =>
      exact fenced_close fenced (fun job there _ => there) fun _ => fenced.budget
  | releaseStaleLocks timeoutSecs =>
      constructor
      case held =>
          intro claim member
          refine (fenced.held claim member).kept fun job there id _ => ?_
          have fresh := spares timeoutSecs (by rw [operation]; rfl) claim member job there id
          exact mem_releaseStaleLocks.2 ⟨job, there, by simp [fresh]⟩
      case single => exact fenced.single
      case budget =>
          intro next there
          obtain ⟨old, was, rfl⟩ := mem_releaseStaleLocks.1 there
          have budget := fenced.budget old was
          split
          case isTrue stale =>
              simp only [JobEntry.isStale, Bool.and_eq_true, beq_iff_eq] at stale
              exact ⟨budget.spent, fun _ => budget.left (by rw [stale.1]; decide)⟩
          case isFalse => exact budget

end Fencing

/-- A job that was completed has no row any more, and a job that was dead is still dead or gone. -/
structure KeepsFinal (pool later : Pool) : Prop where
  completed : ∀ id ∈ pool.enqueued, (∀ job ∈ pool.jobs, job.id ≠ id) →
    ∀ job ∈ later.jobs, job.id ≠ id
  dead : ∀ job ∈ pool.jobs, job.status = .dead →
    ∀ next ∈ later.jobs, next.id = job.id → next.status = .dead

section Runs

variable {pool : Pool}

theorem recorded_of_reachable {condition : Pool → Action → Prop}
    (reachable : ReachablePool condition pool) : Recorded pool :=
  reachable.invariant (fun _ start => start ▸ recorded_empty) fun _ _ recorded _ =>
    recorded_exec recorded

theorem fenced_empty : Fenced Pool.empty :=
  ⟨nofun, List.nodup_nil, fun job member => absurd member (Table.not_mem_empty job)⟩

theorem keepsFinal_of_leads {later : Pool} (recorded : Recorded pool)
    (leads : Leads pool later) : KeepsFinal pool later := by
  have keep : ∀ s a, Recorded s → FreshId s a → Recorded (exec s a) :=
    fun _ _ inv _ => recorded_exec inv
  constructor
  · intro id known absent
    exact (leads.stable keep (fun _ _ _ gone fresh => absent_exec fresh gone) recorded
      ⟨known, absent⟩).2.2
  · intro job member dead next there same
    have start : Final job.id pool := by
      refine ⟨recorded.known job member, fun other there id => ?_⟩
      obtain rfl : other = job := Table.eq_of_key_eq there member id
      exact ⟨dead, recorded.dead other there dead⟩
    exact ((leads.stable keep (fun _ _ _ final fresh => final_exec fresh final) recorded
      start).2.2 next there same).1

/-- While releases only take abandoned locks, workers hold what they process and no job exceeds
its budget; in every run, completed and dead jobs are final. -/
theorem job_fencing :
    (∀ pool, ReachablePool OnlyAbandoned pool → Fenced pool)
    ∧ ∀ pool, ReachablePool (fun _ _ => True) pool → ∀ later, Leads pool later →
      KeepsFinal pool later := by
  constructor
  · intro pool reachable
    exact reachable.invariant (fun _ start => start ▸ fenced_empty) fun _ _ fenced allowed =>
      fenced_exec fenced allowed.2
  · intro pool reachable later leads
    exact keepsFinal_of_leads (recorded_of_reachable reachable) leads

end Runs

/-! A job with one attempt that a second worker dequeues after the first one's lock was
released. -/

namespace Sample

def job : NewJob where
  queue := "clone"
  payload := .null
  priority := 0
  runAt := none
  uniqueKey := none
  maxAttempts := 1

def late : Timestamp := 1801 * second

def dequeued : List Action :=
  [⟨.enqueue job default, 0⟩, ⟨.dequeue "clone" "first" [], 0⟩]

def reacquired : List Action :=
  dequeued ++ [⟨.releaseStaleLocks 1800, late⟩, ⟨.dequeue "clone" "second" [], late⟩]

def first : Claim := ⟨"first", default, 0⟩

def second : Claim := ⟨"second", default, late⟩

def pool (actions : List Action) : Pool :=
  run exec .empty actions

end Sample

theorem job_fencing_dequeued :
    (Sample.pool Sample.dequeued).processing = [Sample.first]
      ∧ Fenced (Sample.pool Sample.dequeued) :=
  ⟨by decide, job_fencing.1 _ (reachable_run rfl (by decide))⟩

def LateIsNoOp (pool : Pool) : Prop :=
  ∀ claim ∈ pool.processing, ∀ job ∈ pool.jobs, job.id = claim.jobId →
    job.lockedBy ≠ some claim.workerId → ∀ now, job ∈ (exec pool ⟨.complete claim, now⟩).jobs
      ∧ ∀ message, job ∈ (exec pool ⟨.fail claim message, now⟩).jobs

/-- The first worker's late complete deletes the job that the second one processes, and when both
fail, the job has two attempts of one. -/
theorem late_worker_changes_job :
    (¬∀ pool, ReachablePool (fun _ _ => True) pool → LateIsNoOp pool)
    ∧ ¬∀ pool, ReachablePool (fun _ _ => True) pool →
      ∀ job ∈ pool.jobs, (job.attempts : Int) ≤ job.maxAttempts := by
  constructor
  · intro noOp
    have reachable : ReachablePool (fun _ _ => True) (Sample.pool Sample.reacquired) :=
      reachable_run rfl (by decide)
    obtain ⟨job, member, id, other⟩ : ∃ job ∈ (Sample.pool Sample.reacquired).jobs.rows,
        job.id = Sample.first.jobId ∧ job.lockedBy ≠ some Sample.first.workerId := by decide
    have kept := (noOp _ reachable Sample.first (by decide) job member id other Sample.late).1
    have gone : ∀ row ∈ (exec (Sample.pool Sample.reacquired)
        ⟨.complete Sample.first, Sample.late⟩).jobs.rows, False := by decide
    exact gone job kept
  · intro budget
    have reachable : ReachablePool (fun _ _ => True) (Sample.pool (Sample.reacquired
        ++ [⟨.fail Sample.first "", Sample.late⟩, ⟨.fail Sample.second "", Sample.late⟩])) :=
      reachable_run rfl (by decide)
    obtain ⟨job, member, attempts, most⟩ : ∃ job ∈ (Sample.pool (Sample.reacquired
        ++ [⟨.fail Sample.first "", Sample.late⟩,
          ⟨.fail Sample.second "", Sample.late⟩])).jobs.rows,
        job.attempts = 2 ∧ job.maxAttempts = 1 := by decide
    have within := budget _ reachable job member
    rw [attempts, most] at within
    omega

end Forge.JobFencing
