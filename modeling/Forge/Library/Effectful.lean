/-! Operations on a state that may fail and keep what they did before, with rules of pre- and
postconditions: one for each way operations are put together. -/

namespace Forge.Library.Effectful

abbrev Effect (State Failure : Type) :=
  ExceptT Failure (StateM State)

variable {State Failure α β : Type}

def perform (operation : Effect State Failure α) (state : State) : Except Failure α × State :=
  operation.run.run state

def act (step : State → α × State) : Effect State Failure α :=
  ExceptT.lift step

def attempt (operation : Effect State Failure α) : Effect State Failure (Except Failure α) :=
  ExceptT.lift operation.run

/-- From a state of the precondition, an operation leads to its postcondition, one for a value and
one for a failure. -/
def Meets (pre : State → Prop) (operation : Effect State Failure α) (post : α → State → Prop)
    (failed : Failure → State → Prop) : Prop :=
  ∀ state, pre state →
    match perform operation state with
    | (.ok value, after) => post value after
    | (.error failure, after) => failed failure after

variable {pre pre' : State → Prop} {post post' middle : α → State → Prop}
  {last : β → State → Prop} {failed failed' : Failure → State → Prop}
  {operation : Effect State Failure α} {next : α → Effect State Failure β}

theorem perform_bind (operation : Effect State Failure α) (next : α → Effect State Failure β)
    (state : State) :
    perform (operation >>= next) state =
      match perform operation state with
      | (.ok value, after) => perform (next value) after
      | (.error failure, after) => (.error failure, after) := by
  unfold perform ExceptT.run StateT.run
  simp only [bind, ExceptT.bind, ExceptT.mk, StateT.bind, ExceptT.bindCont]
  rcases operation state with ⟨result, after⟩
  cases result with
  | ok value => rfl
  | error failure => rfl

theorem meets_pure {value : α} (holds : ∀ state, pre state → post value state) :
    Meets pre (pure value : Effect State Failure α) post failed :=
  holds

theorem meets_throw {failure : Failure} (holds : ∀ state, pre state → failed failure state) :
    Meets pre (throw failure : Effect State Failure α) post failed :=
  holds

theorem meets_act {step : State → α × State}
    (holds : ∀ state, pre state → post (step state).1 (step state).2) :
    Meets pre (act step : Effect State Failure α) post failed :=
  holds

theorem Meets.bind (first : Meets pre operation middle failed)
    (rest : ∀ value, Meets (middle value) (next value) last failed) :
    Meets pre (operation >>= next) last failed := by
  intro state holds
  have hfirst := first state holds
  rw [perform_bind]
  rcases hperformed : perform operation state with ⟨result, after⟩
  rw [hperformed] at hfirst
  cases result with
  | ok value => exact rest value after hfirst
  | error failure => exact hfirst

theorem Meets.weaken (meets : Meets pre operation post failed)
    (hpre : ∀ state, pre' state → pre state)
    (hpost : ∀ value state, post value state → post' value state)
    (hfailed : ∀ failure state, failed failure state → failed' failure state) :
    Meets pre' operation post' failed' := by
  intro state holds
  have hmeets := meets state (hpre state holds)
  rcases hperformed : perform operation state with ⟨result, after⟩
  rw [hperformed] at hmeets
  cases result with
  | ok value => exact hpost value after hmeets
  | error failure => exact hfailed failure after hmeets

theorem Meets.attempt (meets : Meets pre operation post failed) :
    Meets pre (attempt operation) (fun result state =>
      match result with
      | .ok value => post value state
      | .error failure => failed failure state) failed' := by
  intro state holds
  have hmeets := meets state holds
  have hsame : perform (Effectful.attempt operation) state =
      (.ok (perform operation state).1, (perform operation state).2) := rfl
  rw [hsame]
  rcases hperformed : perform operation state with ⟨result, after⟩
  rw [hperformed] at hmeets
  cases result with
  | ok value => exact hmeets
  | error failure => exact hmeets

end Forge.Library.Effectful
