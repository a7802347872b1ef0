import Forge.OrchestratorSafety

/-! The states of the orchestrator's tasks: every change is one of the state machine's as long as
an unguarded write does not come too late. -/

namespace Forge.TaskEdges

open Forge.Library.Identifier
open Forge.Library.Interleaving
open Forge.Library.KeyedTable
open Forge.Library.StateMachine
open Forge.Orchestrator
open Forge.OrchestratorChanges
open Forge.OrchestratorDiscipline
open Forge.OrchestratorSafety
open Forge.OrchestratorStore

variable {services : Services} {state : State} {action : Action}

/-- The transitions of the endpoint, and those of an assignment, the reaper and a verdict. -/
def Edge (state target : TaskState) : Prop :=
  target ∈ validTransitions state ∨
    (TaskStore.Redispatchable state = true ∧ target = .assigned) ∨
    (state = .assigned ∧ target = .pending) ∨
    (state = .review ∧ (target = .completed ∨ target = .changesRequested))

instance (state target : TaskState) : Decidable (Edge state target) :=
  inferInstanceAs (Decidable (_ ∨ _))

def Lawful (before after : Db) : Prop :=
  ∀ task ∈ before.tasks.rows, ∀ later ∈ after.tasks.rows, later.id = task.id →
    later.state = task.state ∨ Edge task.state later.state

instance (before after : Db) : Decidable (Lawful before after) :=
  inferInstanceAs (Decidable (∀ _ ∈ before.tasks.rows, _))

/-! ## The condition -/

def seen (world : World) : Actor → Option TaskState
  | .request number => (world.past number).read
  | .spawn _ => none

def Fits (seen : Option TaskState) (target : TaskState) (task : Task) : Prop :=
  seen = some task.state ∨ target = task.state ∨ target ∈ validTransitions task.state

instance (seen : Option TaskState) (target : TaskState) (task : Task) :
    Decidable (Fits seen target task) :=
  inferInstanceAs (Decidable (_ ∨ _))

/-- The writes of an operation without a guard of its own come in time. -/
def InTime (actor : Actor) (world : World) : Op → Prop
  | .updateState id orgId target => ∀ task ∈ world.db.tasks.rows, task.isAt id orgId = true →
      Fits (seen world actor) target task
  | .applyVerdict _ _ orgId _ taskId target _ =>
      ∀ task ∈ world.db.tasks.rows, task.isAt taskId orgId = true → Fits none target task
  | _ => True

instance (actor : Actor) (world : World) : DecidablePred (InTime actor world)
  | .updateState _ _ _ => inferInstanceAs (Decidable (∀ _ ∈ world.db.tasks.rows, _))
  | .applyVerdict _ _ _ _ _ _ _ => inferInstanceAs (Decidable (∀ _ ∈ world.db.tasks.rows, _))
  | .createTask _ => isTrue trivial
  | .getTask _ _ _ => isTrue trivial
  | .assign _ _ _ _ _ => isTrue trivial
  | .taskExists _ _ => isTrue trivial
  | .createDispatch _ _ _ => isTrue trivial
  | .updateDispatch _ _ _ _ _ => isTrue trivial
  | .setSessionId _ _ _ => isTrue trivial
  | .setReviewId _ _ _ => isTrue trivial
  | .sessionCreate _ _ _ _ => isTrue trivial
  | .upsertAgent _ _ _ _ => isTrue trivial
  | .sessionPrompt _ _ _ _ => isTrue trivial
  | .createReview _ => isTrue trivial
  | .getReview _ _ _ => isTrue trivial
  | .createAudit _ _ => isTrue trivial
  | .spawn _ _ => isTrue trivial
  | .respond _ _ => isTrue trivial

def Timely (state : State) : Action → Prop
  | .step actor _ =>
      match state.threads actor with
      | .done _ => True
      | .op operation _ => InTime actor state.state operation
  | _ => True

instance (state : State) : DecidablePred (Timely state)
  | .step actor _ => by
      rw [Timely]
      exact match state.threads actor with
      | .done _ => isTrue trivial
      | .op operation _ => inferInstanceAs (Decidable (InTime actor state.state operation))
  | .request _ => isTrue trivial
  | .drop _ => isTrue trivial
  | .reapDispatches _ _ _ => isTrue trivial
  | .reapReviews _ _ _ _ => isTrue trivial

/-! ## The edges -/

theorem edge_of_fits {target : TaskState} {task : Task} (fits : Fits none target task) :
    target = task.state ∨ Edge task.state target := by
  rcases fits with none | same | valid
  · cases none
  · exact .inl same
  · exact .inr (.inl valid)

theorem edge_of_writes {actor : Actor} {world : World} {operation : Op} {task : Task}
    {target : TaskState} (may : May actor world operation) (inTime : InTime actor world operation)
    (member : task ∈ world.db.tasks) (writes : Writes operation task target) :
    target = task.state ∨ Edge task.state target := by
  cases operation with
  | assign request id orgId participantId state =>
      obtain ⟨hit, rfl⟩ := writes
      have redispatchable : TaskStore.Redispatchable task.state = true :=
        (Bool.and_eq_true_iff.mp hit).2
      cases actor with
      | request number =>
          obtain ⟨rfl, _⟩ := may.2.2
          exact .inr (.inr (.inl ⟨redispatchable, rfl⟩))
      | spawn id => cases may.2
  | updateState id orgId state =>
      obtain ⟨hit, rfl⟩ := writes
      rcases inTime task member hit with read | fits
      · cases actor with
        | request number =>
            obtain ⟨checked, found, valid⟩ := may.2.2
            cases found.symm.trans read
            exact .inr (.inl valid)
        | spawn id => cases read
      · exact edge_of_fits (.inr fits)
  | applyVerdict request reviewId orgId verdict taskId state feedback =>
      obtain ⟨hit, rfl⟩ := writes
      exact edge_of_fits (inTime task member hit)
  | _ => cases writes

def Moves (task later : Task) : Prop := later.state = task.state ∨ Edge task.state later.state

theorem evolves_exec (good : Good (rules services) state) (timely : Timely state action) :
    Table.Evolves Moves (fun _ => True) state.state.db.tasks
      (exec services state action).state.db.tasks := by
  have same : Table.Evolves Moves (fun _ => True) state.state.db.tasks state.state.db.tasks :=
    .refl (fun _ => .inl rfl) _
  cases action with
  | step actor choice =>
      rcases step_db state actor choice with idle | ⟨operation, next, middle, due, effect, after⟩
      · rw [idle]
        exact same
      · rw [after]
        rw [Timely, due] at timely
        refine (tasks_evolve effect).mono (fun task member later _ step => ?_) fun _ _ => trivial
        exact step.state.elim .inl (edge_of_writes (good.may due) timely member)
  | reapDispatches ttlSecs locked now =>
      refine tasks_reap.mono (fun task _ later _ reaped => ?_) fun _ _ => trivial
      rw [Moves, reaped.state]
      split
      case isTrue hit =>
          have assigned : task.state = .assigned := by
            simpa using (Bool.and_eq_true_iff.mp hit).1
          exact .inr (.inr (.inr (.inl ⟨assigned, rfl⟩)))
      case isFalse => exact .inl rfl
  | request req => exact same
  | drop actor => cases actor <;> exact same
  | reapReviews graceSecs limit locked now => exact same

/-! ## Runs -/

abbrev Reached (services : Services) (state : State) : Prop :=
  Reachable (exec services) (· = start) Timely state

def Completed (id : Uuid) (db : Db) : Prop :=
  ∃ task ∈ db.tasks.rows, task.id = id ∧ task.state = .completed

instance (id : Uuid) (db : Db) : Decidable (Completed id db) :=
  inferInstanceAs (Decidable (∃ _ ∈ db.tasks.rows, _))

theorem completed_exec {id : Uuid} (good : Good (rules services) state)
    (timely : Timely state action) (completed : Completed id state.state.db) :
    Completed id (exec services state action).state.db := by
  obtain ⟨task, member, rfl, completed⟩ := completed
  obtain ⟨later, there, same, moves⟩ := (evolves_exec good timely).forward member
  refine ⟨later, there, same, ?_⟩
  have stuck : ∀ target, ¬Edge .completed target := by
    intro target
    cases target <;> decide
  rw [Moves, completed] at moves
  exact moves.resolve_right (stuck later.state)

/-! ## Runs of one task -/

def bare : Services := ⟨false, false, false⟩

def reviewing : List Action :=
  serve 0 (.createTask theTask) {} ++ serve 1 (assigning none) {} ++ serve 2 (moving .working) {}
    ++ serve 3 (moving .review) {}

def checking : List Action := .request (moving .changesRequested) :: steps (.request 4) 1 {}

/-- However requests, spawned dispatches and the reapers interleave, as long as the unguarded
writes come in time: every change of a task's state is an edge, and a completed task stays so. -/
theorem task_edges (services : Services) {state : State} (reached : Reached services state) :
    (∀ action, Timely state action →
      Lawful state.state.db (exec services state action).state.db) ∧
    ∀ after, Reaches (exec services) Timely state after → ∀ id, Completed id state.state.db →
      Completed id after.state.db := by
  have good := good_of_reachable reached
  refine ⟨fun action timely task member later there same => ?_, fun after later id completed => ?_⟩
  · obtain ⟨next, present, key, moves⟩ := (evolves_exec good timely).forward member
    obtain rfl := Table.eq_of_key_eq there present (same.trans key.symm)
    exact moves
  · have keep : ∀ pool action, Good (rules services) pool → Completed id pool.state.db →
        Timely pool action → Completed id (exec services pool action).state.db :=
      fun _ _ good completed timely => completed_exec good timely completed
    exact stable_of_good good keep later completed

/-- A review comes to its end. -/
theorem task_edges_completing :
    Lawful (run (exec bare) start reviewing).state.db
        (exec bare (run (exec bare) start reviewing) (.request (moving .completed))).state.db ∧
      Completed theId (run (exec bare) (run (exec bare) start
        (reviewing ++ serve 4 (moving .completed) {})) (serve 5 (moving .working) {})).state.db :=
  ⟨(task_edges bare (reachable_run rfl (by decide +kernel))).1 _ (by decide +kernel),
    (task_edges bare (reachable_run rfl (by decide +kernel))).2 _
      (reaches_run (by decide +kernel)) theId (by decide +kernel)⟩

/-- The task completes between the check and the write of another request. -/
theorem leaves_completed :
    Completed theId
        (run (exec bare) start (reviewing ++ checking ++ serve 5 (moving .completed) {})).state.db ∧
      ¬Completed theId (exec bare
        (run (exec bare) start (reviewing ++ checking ++ serve 5 (moving .completed) {}))
          (.step (.request 4) {})).state.db ∧
      ¬Lawful
        (run (exec bare) start (reviewing ++ checking ++ serve 5 (moving .completed) {})).state.db
        (exec bare
          (run (exec bare) start (reviewing ++ checking ++ serve 5 (moving .completed) {}))
            (.step (.request 4) {})).state.db := by
  decide +kernel

end Forge.TaskEdges
