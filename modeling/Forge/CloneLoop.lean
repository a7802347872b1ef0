import Forge.CloneSafety

/-! The loop of the clone worker: what becomes of a job that it dequeued. -/

namespace Forge.CloneLoop

open Forge.CloneChanges hiding withDb withDisk
open Forge.CloneDiscipline
open Forge.CloneDomain
open Forge.CloneOperations
open Forge.CloneRepository
open Forge.CloneSafety
open Forge.CloneWorker
open Forge.JobQueue (JobEntry)
open Forge.Library.Identifier
open Forge.Library.Interleaving
open Forge.Library.Interleaving.Attempt hiding call
open Forge.Library.Interleaving.Prog (Tracks)
open Forge.Library.StateMachine

variable {config : CloneWorkerConfig} {workerId : String} {pool : State}

/-! ## The job that a program holds -/

def close (jobId : Uuid) (held : Option Uuid) : Option Uuid :=
  if held = some jobId then none else held

def note (held : Option Uuid) : (operation : Op) → Except AppError (Answer operation) → Option Uuid
  | .dequeue _, .ok (some job) => some job.id
  | .completeJob _ jobId, .ok _ => close jobId held
  | .failJob _ jobId _, _ => close jobId held
  | _, _ => held

/-- Whatever the replies, the program does not end before the job that it holds was completed or
failed. -/
def Closes (program : Program) (held : Option Uuid) : Prop :=
  Tracks note (fun _ later => later = none) program held

def handles : Op → Bool
  | .dequeue _ => false
  | .completeJob _ _ => false
  | .failJob _ _ _ => false
  | _ => true

theorem note_of_handles {held : Option Uuid} {operation : Op}
    {reply : Except AppError (Answer operation)} (apart : handles operation = true) :
    note held operation reply = held := by
  cases operation with
  | dequeue | completeJob | failJob => cases apart
  | _ => rfl

abbrev Handling {α : Type} (io : Io α) : Prop := io.Only fun operation => handles operation = true

section Programs

variable {row : ProjectCloneAttempt} {target : TargetPath} {success : CloneSuccess} {jobId : Uuid}
  {projectId : Uuid} {attempt : Nat}

theorem only_orElse {α β : Type} {io : Io α} {onError : Io β} {rest : α → Io β}
    (first : Handling io) (errors : Handling onError) (values : ∀ value, Handling (rest value)) :
    Handling (orElse io onError rest) := by
  refine Only.bind (Only.observe first) fun outcome => ?_
  cases outcome with
  | error err => exact errors
  | ok value => exact values value

theorem only_bestEffort {α : Type} {io : Io α} (only : Handling io) : Handling (bestEffort io) :=
  Only.bind (Only.observe only) fun _ => trivial

theorem handling_call {operation : Op} (apart : handles operation = true) :
    Handling (call operation) :=
  Only.call apart

theorem handling_finishFailed : Handling (finishFailed config workerId row) := by
  refine Only.bind (handling_call rfl) fun _ => ?_
  rw [scheduleRetryFor]
  split
  · exact Only.pure ()
  · exact only_bestEffort (handling_call rfl)

theorem handling_cleanup : Handling (cleanup row) := only_bestEffort (handling_call rfl)

theorem handling_cleanupAndFail : Handling (cleanupAndFail config workerId row) :=
  Only.bind handling_cleanup fun _ => handling_finishFailed

theorem handling_force : Handling (force row success) :=
  Only.bind (handling_call rfl) fun _ => Only.pure ()

theorem handling_afterPublish {outcome : PublishOutcome} :
    Handling (afterPublish config workerId row success outcome) := by
  cases outcome with
  | published finalized =>
      refine Only.bind handling_cleanup fun _ => ?_
      split
      · exact Only.pure ()
      · exact handling_force
  | projectGone => exact Only.bind handling_cleanup fun _ => only_bestEffort (handling_call rfl)
  | renameFailed => exact handling_cleanupAndFail

theorem handling_finishReady : Handling (finishReady config workerId row target success) := by
  refine Only.bind (Only.observe (handling_call rfl)) fun outcome => ?_
  cases outcome with
  | ok _ =>
      dsimp only
      split
      · exact Only.bind handling_cleanup fun _ => handling_force
      · exact handling_cleanupAndFail
  | error _ =>
      refine only_orElse (handling_call rfl) handling_cleanupAndFail fun _ => ?_
      exact Only.bind (handling_call rfl) fun _ => handling_afterPublish

theorem handling_finish {outcome : CloneRunOutcome × Int} :
    Handling (finish config workerId row target outcome) := by
  obtain ⟨outcome, durationMs⟩ := outcome
  cases outcome with
  | ready => exact handling_finishReady
  | _ => exact handling_cleanupAndFail

theorem handling_launch : Handling (launch config workerId row target) :=
  Only.bind (only_bestEffort (handling_call rfl)) fun _ =>
    only_orElse (handling_call rfl) handling_cleanupAndFail fun _ => handling_finish

theorem handling_withCredential {credential : Option Uuid} :
    Handling (withCredential config workerId row target credential) := by
  cases credential with
  | none => exact handling_launch
  | some credentialId =>
      exact only_orElse (handling_call rfl) handling_cleanupAndFail fun _ => handling_launch

theorem handling_stageAndRun : Handling (stageAndRun config workerId row target) :=
  only_orElse (handling_call rfl) handling_finishFailed fun _ =>
    only_orElse (handling_call rfl) handling_cleanupAndFail fun _ => handling_withCredential

theorem handling_executeClone : Handling (executeClone config workerId row) := by
  refine only_orElse ?_ handling_finishFailed fun _ => handling_stageAndRun
  rw [projectDirName_eq]
  exact ⟨rfl, fun _ => trivial⟩

theorem handling_claimAndRun : Handling (claimAndRun config workerId projectId attempt jobId) := by
  refine Only.bind (handling_call rfl) fun claimed => ?_
  cases claimed with
  | none => exact Only.pure ()
  | some claimed => exact handling_executeClone

theorem handling_processAttempt {payload : CloneOutboxPayload} :
    Handling (processAttempt config workerId payload jobId) := by
  refine Only.bind (handling_call rfl) fun found => ?_
  cases found with
  | none => exact Only.pure ()
  | some row =>
      dsimp only
      split
      · exact Only.pure ()
      · refine Only.bind (handling_call rfl) fun live => ?_
        cases live with
        | true => exact handling_claimAndRun
        | false => exact only_bestEffort (handling_call rfl)

end Programs

/-! ## The end of a job -/

theorem tracks_handling {α : Type} {io : Io α} (only : Handling io) (held : Option Uuid) :
    Prog.Tracks note (fun _ later => later = held) io held :=
  Tracks.of_only only fun _ _ _ apart => note_of_handles apart

theorem tracks_bestEffort {α : Type} {io : Io α} {held : Option Uuid} {last : Option Uuid → Prop}
    (first : Prog.Tracks note (fun _ later => last later) io held) :
    Prog.Tracks note (fun outcome later => outcome = .ok () ∧ last later) (bestEffort io) held := by
  have observed : Prog.Tracks note
      (fun outcome later => (∃ inner, outcome = .ok inner) ∧ last later) (observe io) held :=
    Tracks.bind first fun outcome later holds => ⟨⟨outcome, rfl⟩, holds⟩
  refine Tracks.bind observed ?_
  rintro _ later ⟨⟨inner, rfl⟩, holds⟩
  exact ⟨rfl, holds⟩

theorem close_self (jobId : Uuid) : close jobId (some jobId) = none := if_pos rfl

theorem tracks_completeJob {jobId : Uuid} :
    Prog.Tracks note (fun _ later => later = none) (completeJob workerId jobId) (some jobId) := by
  intro reply
  cases reply with
  | ok _ => exact close_self jobId
  | error _ => exact fun _ => close_self jobId

def serveJob (config : CloneWorkerConfig) (workerId : String) (job : JobEntry) : Io Unit :=
  match decodeOutboxPayload job.payload with
  | none => completeJob workerId job.id
  | some payload => do
      bestEffort (processAttempt config workerId payload job.id)
      completeJob workerId job.id

theorem closes_dequeueAndProcess :
    Closes (ending (dequeueAndProcess config workerId)) none := by
  have whole : Prog.Tracks note (fun _ later => later = none)
      (dequeueAndProcess config workerId) none := by
    intro reply
    match reply with
    | .error _ => exact rfl
    | .ok none => exact rfl
    | .ok (some job) =>
        show Prog.Tracks note _ (serveJob config workerId job) (some job.id)
        rw [serveJob]
        cases decodeOutboxPayload job.payload with
        | none => exact tracks_completeJob
        | some payload =>
            refine Tracks.bind
              (tracks_bestEffort (tracks_handling handling_processAttempt (some job.id))) ?_
            rintro _ _ ⟨rfl, rfl⟩
            exact tracks_completeJob
  exact Tracks.bind whole fun _ _ done => done

/-! ## One job at a time -/

/-- The program of a worker that serves a job: it takes no other one, and closes no other one. -/
def Serves (workerId : String) (jobId : Uuid) : Op → Prop
  | .dequeue _ => False
  | .completeJob worker id => worker = workerId ∧ id = jobId
  | .failJob worker id _ => worker = workerId ∧ id = jobId
  | _ => True

theorem serves_of_handles {jobId : Uuid} {operation : Op} (apart : handles operation = true) :
    Serves workerId jobId operation := by
  cases operation with
  | dequeue | completeJob | failJob => cases apart
  | _ => trivial

theorem only_serves {α : Type} {jobId : Uuid} {program : Prog Op
      (fun operation => Except AppError (Answer operation)) α}
    (only : program.Only fun operation => handles operation = true) :
    program.Only (Serves workerId jobId) := by
  induction program with
  | done value => trivial
  | op operation next ih => exact ⟨serves_of_handles only.1, fun reply => ih reply (only.2 reply)⟩

theorem serves_completeJob {jobId : Uuid} :
    (completeJob workerId jobId).Only (Serves workerId jobId) :=
  ⟨⟨rfl, rfl⟩, fun reply => by
    cases reply with
    | ok _ => trivial
    | error _ => exact ⟨⟨rfl, rfl⟩, fun _ => trivial⟩⟩

/-- The program serves the job that is held, if any, or is about to dequeue. -/
inductive Bound (workerId : String) : Program → Option Uuid → Prop
  | serving {program : Program} {held : Option Uuid} (jobId : Uuid)
      (only : program.Only (Serves workerId jobId)) (mine : ∀ id, held = some id → id = jobId) :
      Bound workerId program held
  | waiting {next : Except AppError (Option JobEntry) → Program}
      (rest : ∀ reply, ∃ jobId, (next reply).Only (Serves workerId jobId) ∧
        ∀ id, note none (.dequeue workerId) reply = some id → id = jobId) :
      Bound workerId (.op (.dequeue workerId) next) none

theorem bound_dequeueAndProcess :
    Bound workerId (ending (dequeueAndProcess config workerId)) none := by
  refine .waiting fun reply => ?_
  match reply with
  | .error _ => exact ⟨⟨0⟩, trivial, nofun⟩
  | .ok none => exact ⟨⟨0⟩, trivial, nofun⟩
  | .ok (some job) =>
      refine ⟨job.id, ?_, fun id same => (Option.some.inj same).symm⟩
      refine Prog.Only.bind (show (serveJob config workerId job).Only _ from ?_) fun _ => trivial
      rw [serveJob]
      cases decodeOutboxPayload job.payload with
      | none => exact serves_completeJob
      | some payload =>
          exact Only.bind (only_serves (only_bestEffort handling_processAttempt))
            fun _ => serves_completeJob

/-- The program closes the job that it has in hand, and touches no other one; the worker still holds
that job, unless it was not told that it had completed it. -/
structure Busy (workerId : String) (program : Program) (holding held : Option Uuid) : Prop where
  closes : Closes program held
  bound : Bound workerId program held
  holds : ∀ id, held = some id → holding = some id ∨ holding = none

theorem busy_done {value : Unit} {holding : Option Uuid} :
    Busy workerId (.done value) holding none :=
  ⟨rfl, .serving ⟨0⟩ trivial nofun, nofun⟩

theorem busy_begin {holding : Option Uuid} :
    Busy workerId (ending (dequeueAndProcess config workerId)) holding none :=
  ⟨closes_dequeueAndProcess, bound_dequeueAndProcess, nofun⟩

/-! ## Calls -/

section Calls

variable {world : World} {operation : Op} {held : Option Uuid} {id : Uuid}

theorem held_of_note {reply : Except AppError (Answer operation)}
    (apart : ∀ worker, operation ≠ .dequeue worker) (same : note held operation reply = some id) :
    held = some id := by
  have closed : ∀ done, close done held = some id → held = some id := by
    intro done same
    rw [close] at same
    split at same
    · cases same
    · exact same
  cases operation with
  | dequeue worker => exact absurd rfl (apart worker)
  | completeJob =>
      cases reply with
      | ok => exact closed _ same
      | error => exact same
  | failJob => exact closed _ same
  | _ => exact same

theorem holding_perform (apart : ∀ worker, operation ≠ .dequeue worker) (choice : Choice)
    (free : Bool) (actor : Actor) :
    ((perform world operation choice free).1.past actor).holding = (world.past actor).holding ∨
      ((perform world operation choice free).1.past actor).holding = none := by
  have amended : ∀ (world : World) (other : Actor) (set : Past → Past),
      (∀ past, (set past).holding = past.holding ∨ (set past).holding = none) →
        ((world.amend other set).past actor).holding = (world.past actor).holding ∨
          ((world.amend other set).past actor).holding = none := by
    intro world other set keeps
    by_cases same : actor = other
    · subst same
      rw [amend_past_self]
      exact keeps _
    · rw [amend_past_of_ne world set same]
      exact .inl rfl
  obtain ⟨middle, effect, done⟩ := perform_effect world operation choice free
  have kept : (middle.past actor).holding = (world.past actor).holding ∨
      (middle.past actor).holding = none := by
    cases effect with
    | dequeue => exact absurd rfl (apart _)
    | completeJob | failJob => exact amended _ _ _ fun _ => .inr rfl
    | fail | retryLost | scheduleRetry | look => exact amended _ _ _ fun _ => .inl rfl
    | _ => exact .inl rfl
  rcases done with same | same
  · rwa [same]
  · rwa [same, giveUp_past]

theorem holding_dequeue {choice : Choice} {free : Bool}
    (taken : note none (.dequeue workerId) (perform world (.dequeue workerId) choice free).2
      = some id) :
    ((perform world (.dequeue workerId) choice free).1.past (.worker workerId)).holding
      = some id := by
  rw [perform, access] at taken ⊢
  split at taken
  case h_1 => cases taken
  case h_2 =>
      rw [performDequeue] at taken ⊢
      split at taken
      case h_1 => cases taken
      case h_2 job found =>
          obtain rfl := Option.some.inj taken
          rw [amend_past_self]
          rfl

theorem Bound.next {next : Except AppError (Answer operation) → Program}
    (bound : Bound workerId (.op operation next) held)
    (reply : Except AppError (Answer operation)) :
    Bound workerId (next reply) (note held operation reply) := by
  cases bound with
  | serving jobId only mine =>
      refine .serving jobId (only.2 reply) fun id same => mine id (held_of_note ?_ same)
      rintro worker rfl
      exact only.1
  | waiting rest =>
      obtain ⟨jobId, only, mine⟩ := rest reply
      exact .serving jobId only mine

theorem Busy.next {next : Except AppError (Answer operation) → Program}
    (busy : Busy workerId (.op operation next) (world.past (.worker workerId)).holding held)
    (choice : Choice) (free : Bool) :
    Busy workerId (next (perform world operation choice free).2)
      ((perform world operation choice free).1.past (.worker workerId)).holding
      (note held operation (perform world operation choice free).2) where
  closes := busy.closes _
  bound := busy.bound.next _
  holds := by
    intro id same
    have others : (∀ worker, operation ≠ .dequeue worker) →
        ((perform world operation choice free).1.past (.worker workerId)).holding = some id ∨
          ((perform world operation choice free).1.past (.worker workerId)).holding = none := by
      intro apart
      have mine := busy.holds id (held_of_note apart same)
      rcases holding_perform apart choice free (.worker workerId) with still | gone
      · rwa [still]
      · exact .inr gone
    cases operation with
    | dequeue worker =>
        cases busy.bound with
        | serving _ only => cases only.1
        | waiting => exact .inl (holding_dequeue same)
    | _ => exact others fun _ => nofun

end Calls

/-! ## Runs -/

/-- The worker's program closes the one job that it has in hand, and the worker still holds it
unless it was not told that the job is closed. -/
def Serving (pool : State) (workerId : String) : Prop :=
  ∃ held, Busy workerId (pool.threads (.worker workerId))
    (pool.state.past (.worker workerId)).holding held

section Runs

variable {after : State} {actor : Actor}

theorem serving_of_same (serving : Serving pool workerId)
    (threads : after.threads (.worker workerId) = pool.threads (.worker workerId))
    (holding : (after.state.past (.worker workerId)).holding
      = (pool.state.past (.worker workerId)).holding) : Serving after workerId := by
  rwa [Serving, threads, holding]

theorem serving_put (serving : Serving pool workerId) (program : Program)
    (other : actor ≠ .worker workerId) : Serving (pool.put actor program) workerId := by
  refine serving_of_same serving ?_ rfl
  rw [Pool.threads_put, if_neg other.symm]

theorem serving_own {program : Program} {held : Option Uuid}
    (busy : Busy workerId program (pool.state.past (.worker workerId)).holding held) :
    Serving (pool.put (.worker workerId) program) workerId := by
  refine ⟨held, ?_⟩
  rwa [Pool.threads_put, if_pos rfl]

theorem serving_drop (serving : Serving pool workerId) (actor : Actor) :
    Serving (drop pool actor) workerId := by
  by_cases same : actor = .worker workerId
  · subst same
    refine ⟨none, ?_⟩
    rw [drop_threads, if_pos rfl]
    exact busy_done
  · refine serving_of_same serving ?_ ?_
    · rw [drop_threads, if_neg (Ne.symm same)]
    · have kept := amend_past_of_ne pool.state (fun past => { past with failure := none })
        (Ne.symm same)
      exact congrArg Past.holding kept

theorem step_put {operation : Op} {next : Except AppError (Answer operation) → Program}
    (due : pool.threads actor = .op operation next) (choice : Choice) :
    let result := perform pool.state operation choice (pool.free machine actor operation)
    pool.step machine actor choice
      = (⟨result.1, pool.threads⟩ : State).put actor (next result.2) := by
  rw [Pool.step, due]
  rfl

theorem serving_step (good : Good (rules config) pool) (serving : Serving pool workerId)
    (choice : Choice) : Serving (pool.step machine actor choice) workerId := by
  cases due : pool.threads actor with
  | done value => rwa [Pool.step_done due]
  | op operation next =>
      rw [step_put due]
      by_cases same : actor = .worker workerId
      · subst same
        obtain ⟨held, busy⟩ := serving
        rw [due] at busy
        exact serving_own (busy.next choice (pool.free machine (.worker workerId) operation))
      · have apart : concerns operation ≠ some (.worker workerId) := fun concern =>
          same (actor_of_concerns (good.may due) concern).symm
        have kept := @past_perform pool.state _ _ apart choice (pool.free machine actor operation)
        generalize perform pool.state operation choice (pool.free machine actor operation) = result
          at kept ⊢
        have moved : Serving ⟨result.1, pool.threads⟩ workerId :=
          serving_of_same serving rfl (congrArg Past.holding kept)
        exact serving_put moved _ same

theorem request_ne {number : Nat} : Actor.request number ≠ .worker workerId := by
  intro same
  cases same

theorem reconciler_ne {other : String} : Actor.reconciler other ≠ .worker workerId := by
  intro same
  cases same

theorem serving_exec (good : Good (rules config) pool) (serving : Serving pool workerId)
    (action : Action) : Serving (exec config pool action) workerId := by
  have stopped : ∀ other, Serving (stop pool other) workerId := fun other =>
    serving_drop (serving_drop (serving_of_same serving rfl rfl) _) _
  cases action with
  | create =>
      rw [exec]
      split
      · exact serving_of_same serving rfl rfl
      · exact serving
  | retry => exact serving_put (serving_of_same serving rfl rfl) _ request_ne
  | leave => exact serving_drop serving _
  | launch other =>
      rw [exec]
      split
      · exact serving
      · exact serving_put (serving_of_same serving rfl rfl) _ reconciler_ne
  | iterate other =>
      rw [exec]
      split
      · by_cases same : other = workerId
        · subst same
          exact serving_own busy_begin
        · exact serving_put serving _ fun equal => same (Actor.worker.inj equal)
      · exact serving
  | tick other =>
      rw [exec]
      split
      · exact serving_put (serving_drop serving _) _ reconciler_ne
      · exact serving
  | signal other shutdown =>
      rw [exec]
      split
      · split
        · exact stopped other
        · exact serving_drop serving _
      · exact serving
  | crash other => exact stopped other
  | step actor choice => exact serving_step good serving choice
  | heartbeat other lease =>
      rw [exec, heartbeat]
      split
      · exact serving_of_same serving rfl rfl
      · exact serving
  | _ => exact serving_of_same serving rfl rfl

end Runs

end Forge.CloneLoop
