import Forge.Library.StateMachine
import Forge.ParticipantStatements

/-! The job queue: enqueue, dequeue, complete, fail and the release of stale locks, each one
statement, and the workers that poll it. -/

namespace Forge.JobQueue

open Forge.Library.Identifier
open Forge.Library.JsonDocument
open Forge.Library.KeyedTable
open Forge.ParticipantStatements
open Forge.Schema

inductive JobStatus where
  | pending | running | dead
deriving DecidableEq, Repr

/-- A row of `job_queue`. -/
structure JobEntry where
  id : Uuid
  queue : String
  payload : Json
  status : JobStatus
  priority : Int
  runAt : Timestamp
  attempts : Nat
  maxAttempts : Int
  lockedBy : Option String
  lockedAt : Option Timestamp
  uniqueKey : Option String
  errorMessage : Option String
  createdAt : Timestamp

abbrev Jobs := Table JobEntry JobEntry.id

/-- What a caller of `enqueue` passes. -/
structure NewJob where
  queue : String
  payload : Json
  priority : Int
  runAt : Option Timestamp
  uniqueKey : Option String
  maxAttempts : Int

def NewJob.entry (job : NewJob) (id : Uuid) (now : Timestamp) : JobEntry where
  id
  queue := job.queue
  payload := job.payload
  status := .pending
  priority := job.priority
  runAt := job.runAt.getD now
  attempts := 0
  maxAttempts := job.maxAttempts
  lockedBy := none
  lockedAt := none
  uniqueKey := job.uniqueKey
  errorMessage := none
  createdAt := now

/-- `enqueue`: nothing when the unique key is taken. -/
def enqueue (jobs : Jobs) (job : NewJob) (id : Uuid) (now : Timestamp) : Option Jobs :=
  if job.uniqueKey.isSome ∧ jobs.any (fun old => old.uniqueKey == job.uniqueKey) then none
  else jobs.insert? (job.entry id now)

/-- `ORDER BY priority DESC, created_at ASC`. -/
def dequeuedBefore (left right : JobEntry) : Bool :=
  if left.priority ≠ right.priority then decide (right.priority < left.priority)
  else decide (left.createdAt ≤ right.createdAt)

/-- The inner SELECT of `dequeue`; `locked` are the rows that `SKIP LOCKED` passes over. -/
def nextJob (jobs : Jobs) (queue : String) (locked : List Uuid) (now : Timestamp) :
    Option JobEntry :=
  selectFirst dequeuedBefore (jobs.rows.filter fun job =>
    job.queue == queue && job.status == .pending && decide (job.runAt ≤ now)
      && !locked.contains job.id)

def JobEntry.lock (workerId : String) (now : Timestamp) (job : JobEntry) : JobEntry :=
  { job with status := .running, lockedBy := some workerId, lockedAt := some now }

/-- The UPDATE of `dequeue` on the row that its SELECT locked. -/
def lockJob (jobs : Jobs) (id : Uuid) (workerId : String) (now : Timestamp) : Jobs :=
  jobs.update (fun job => job.id == id) (JobEntry.lock workerId now) fun _ => rfl

theorem mem_lockJob {jobs : Jobs} {id : Uuid} {workerId : String} {now : Timestamp}
    {job : JobEntry} : job ∈ lockJob jobs id workerId now ↔
      ∃ old ∈ jobs, job = if old.id == id then old.lock workerId now else old :=
  @Table.mem_update _ _ _ jobs _ (JobEntry.lock workerId now) (fun _ => rfl) job

/-- `complete`. -/
def complete (jobs : Jobs) (id : Uuid) : Jobs :=
  jobs.deleteWhere fun job => job.id == id

/-- `now() + make_interval(secs => power(2, attempts + 1))`, an error past the largest
interval. -/
def retryAt (attempts : Nat) (now : Timestamp) : Option Timestamp :=
  if attempts + 1 < 44 then some (now + 2 ^ (attempts + 1) * second) else none

/-- The row that `fail` leaves; none where its arithmetic overflows and the statement errors. -/
def JobEntry.failed (errorMessage : String) (now : Timestamp) (job : JobEntry) :
    Option JobEntry :=
  let exhausted := decide (job.maxAttempts ≤ job.attempts + 1)
  if 2 ^ 31 ≤ job.attempts + 1 then none
  else (if exhausted then some job.runAt else retryAt job.attempts now).map fun runAt =>
    { job with
      attempts := job.attempts + 1
      status := if exhausted then .dead else .pending
      errorMessage := some errorMessage
      lockedBy := none
      lockedAt := none
      runAt }

/-- The row after `fail`: unchanged, or one attempt further and dead exactly when that was the
last one. -/
theorem JobEntry.failed_cases (errorMessage : String) (now : Timestamp) (job : JobEntry) :
    (job.failed errorMessage now).getD job = job ∨
    ∃ runAt, (job.failed errorMessage now).getD job = { job with
      attempts := job.attempts + 1
      status := if job.maxAttempts ≤ job.attempts + 1 then .dead else .pending
      errorMessage := some errorMessage
      lockedBy := none
      lockedAt := none
      runAt } := by
  rw [JobEntry.failed]
  split
  · exact .inl rfl
  · by_cases exhausted : job.maxAttempts ≤ job.attempts + 1
    · exact .inr ⟨job.runAt, by simp [exhausted]⟩
    · cases retryAt job.attempts now with
      | none => exact .inl (by simp [exhausted])
      | some runAt => exact .inr ⟨runAt, by simp [exhausted]⟩

theorem JobEntry.id_failed (errorMessage : String) (now : Timestamp) (job : JobEntry) :
    ((job.failed errorMessage now).getD job).id = job.id := by
  rcases job.failed_cases errorMessage now with same | ⟨runAt, next⟩
  · rw [same]
  · rw [next]

/-- `fail`. -/
def fail (jobs : Jobs) (id : Uuid) (errorMessage : String) (now : Timestamp) : Jobs :=
  jobs.update (fun job => job.id == id) (fun job => (job.failed errorMessage now).getD job)
    (JobEntry.id_failed errorMessage now)

theorem mem_fail {jobs : Jobs} {id : Uuid} {errorMessage : String} {now : Timestamp}
    {job : JobEntry} : job ∈ fail jobs id errorMessage now ↔
      ∃ old ∈ jobs, job = if old.id == id then (old.failed errorMessage now).getD old else old :=
  @Table.mem_update _ _ _ _ _ _ (JobEntry.id_failed errorMessage now) _

/-- The rows of `release_stale_locks`. -/
def JobEntry.isStale (timeoutSecs : Nat) (now : Timestamp) (job : JobEntry) : Bool :=
  job.status == .running && job.lockedAt.any fun since => since < now - timeoutSecs * second

def JobEntry.release (job : JobEntry) : JobEntry :=
  { job with status := .pending, lockedBy := none, lockedAt := none }

/-- `release_stale_locks`. -/
def releaseStaleLocks (jobs : Jobs) (timeoutSecs : Nat) (now : Timestamp) : Jobs :=
  jobs.update (JobEntry.isStale timeoutSecs now) JobEntry.release fun _ => rfl

theorem mem_releaseStaleLocks {jobs : Jobs} {timeoutSecs : Nat} {now : Timestamp}
    {job : JobEntry} : job ∈ releaseStaleLocks jobs timeoutSecs now ↔
      ∃ old ∈ jobs, job = if old.isStale timeoutSecs now then old.release else old :=
  @Table.mem_update _ _ _ jobs _ JobEntry.release (fun _ => rfl) job

structure Claim where
  workerId : String
  jobId : Uuid
  lockedAt : Timestamp
deriving DecidableEq

structure Pool where
  jobs : Jobs
  processing : List Claim
  enqueued : List Uuid

def Pool.empty : Pool := ⟨.empty, [], []⟩

/-- The statements that run, in any order: `poll_once` dequeues, then completes or fails what it
dequeued, or is gone before it does. -/
inductive Operation where
  | enqueue (job : NewJob) (id : Uuid)
  | dequeue (queue workerId : String) (locked : List Uuid)
  | complete (claim : Claim)
  | fail (claim : Claim) (errorMessage : String)
  | abandon (claim : Claim)
  | releaseStaleLocks (timeoutSecs : Nat)

structure Action where
  operation : Operation
  now : Timestamp

def Pool.close (pool : Pool) (claim : Claim) (jobs : Jobs) : Pool :=
  if claim ∈ pool.processing then
    { pool with jobs, processing := pool.processing.erase claim }
  else pool

def exec (pool : Pool) (a : Action) : Pool :=
  match a.operation with
  | .enqueue job id =>
      match JobQueue.enqueue pool.jobs job id a.now with
      | some jobs => { pool with jobs, enqueued := id :: pool.enqueued }
      | none => pool
  | .dequeue queue workerId locked =>
      match nextJob pool.jobs queue locked a.now with
      | some job => { pool with
          jobs := lockJob pool.jobs job.id workerId a.now
          processing := ⟨workerId, job.id, a.now⟩ :: pool.processing }
      | none => pool
  | .complete claim => pool.close claim (JobQueue.complete pool.jobs claim.jobId)
  | .fail claim message => pool.close claim (JobQueue.fail pool.jobs claim.jobId message a.now)
  | .abandon claim => pool.close claim pool.jobs
  | .releaseStaleLocks timeoutSecs =>
      { pool with jobs := JobQueue.releaseStaleLocks pool.jobs timeoutSecs a.now }

def Operation.draws : Operation → Option Uuid
  | .enqueue _ id => some id
  | _ => none

def Operation.releases : Operation → Option Nat
  | .releaseStaleLocks timeoutSecs => some timeoutSecs
  | _ => none

/-- `gen_random_uuid` does not repeat the identifier of an earlier job. -/
def FreshId (pool : Pool) (a : Action) : Prop :=
  ∀ id ∈ a.operation.draws, id ∉ pool.enqueued

instance (pool : Pool) (a : Action) : Decidable (FreshId pool a) :=
  inferInstanceAs (Decidable (∀ id ∈ a.operation.draws, id ∉ pool.enqueued))

/-- A release finds no lock stale whose worker still processes the job: the timeout exceeds the
longest run of a job. -/
def OnlyAbandoned (pool : Pool) (a : Action) : Prop :=
  ∀ timeoutSecs ∈ a.operation.releases, ∀ claim ∈ pool.processing, ∀ job ∈ pool.jobs.rows,
    job.id = claim.jobId → job.isStale timeoutSecs a.now = false

instance (pool : Pool) (a : Action) : Decidable (OnlyAbandoned pool a) :=
  inferInstanceAs (Decidable (∀ timeoutSecs ∈ a.operation.releases, _))

end Forge.JobQueue
