import Forge.MainSafety
import Forge.Library.StateMachine

/-! Runs of the sidecar, and at most one execution: once a result is stored or a delivery is
marked completed, the CLI is not started again for it. -/

namespace Forge.AtMostOnce

open Forge.AssignmentInbox
open Forge.DeliveryChanges
open Forge.InboxDiscipline
open Forge.Library.Identifier
open Forge.Library.Interleaving
open Forge.Library.StateMachine
open Forge.MainSafety
open Forge.Schema
open Forge.TaskSafety

variable {crashes : Bool} {sidecar : Sidecar} {state : State} {action : Action} {id : Uuid}

/-! ## The runs -/

/-- No message is for a delivery whose tombstone expired, or whose pending file is of another
agent or generation. -/
def Expected (sidecar : Sidecar) (inbox : Inbox) : Except String TaskAssignment → Prop
  | .error _ => True
  | .ok assignment => ∀ id, assignment.deliveryId = some id →
      (inbox id).purged = false ∧ ¬Stale sidecar (inbox id)

/-- The runs considered, with or without crashes. -/
def Undisturbed (crashes : Bool) (sidecar : Sidecar) (state : State) : Action → Prop
  | .step actor _ =>
      match state.threads actor with
      | .done _ => True
      | .op operation _ =>
          Considered crashes state.state operation (state.free machine actor operation)
  | .message payload => Expected sidecar state.state payload
  | .replay => True
  | .kill => crashes = true
  | .powerLoss _ => crashes = true

instance {inbox : Inbox} : DecidablePred (Expected sidecar inbox)
  | .error _ => isTrue trivial
  | .ok assignment =>
      inferInstanceAs (Decidable (∀ id ∈ assignment.deliveryId, _ ∧ _))

instance : DecidablePred (Undisturbed crashes sidecar state)
  | .message payload => inferInstanceAs (Decidable (Expected sidecar state.state payload))
  | .replay => isTrue trivial
  | .kill => inferInstanceAs (Decidable (crashes = true))
  | .powerLoss _ => inferInstanceAs (Decidable (crashes = true))
  | .step actor _ => by
      rw [Undisturbed]
      exact match state.threads actor with
      | .done _ => isTrue trivial
      | .op operation _ => inferInstanceAs (Decidable (Considered crashes _ operation _))

def RunsCli (state : State) (id : Uuid) : Prop :=
  ∃ actor assignment next, state.threads actor = .op (.runCli assignment) next ∧
    assignment.deliveryId = some id

/-! ## Every program is safe -/

theorem safeStarts : SafeStarts (rules crashes sidecar) := by
  intro actor inbox operation choice child program _ may considered started
  cases operation with
  | tryStart work =>
      obtain ⟨id, named, same⟩ := Option.map_eq_some_iff.mp started
      cases same
      refine safe_task ?_
      cases work with
      | assigned assignment =>
          have lives := may id named
          refine ⟨named, lives.2, ?_⟩
          rintro (present | purged)
          · cases present.symm.trans (considered.1 rfl id named)
          · cases purged.symm.trans lives.1
      | stored result => exact ⟨named, may id named⟩
  | _ => cases started

theorem good_started {inbox : Inbox} (inv : ∀ id, Sound crashes sidecar (inbox id)) :
    Good (rules crashes sidecar) (started inbox) :=
  ⟨inv, fun _ _ _ _ => trivial⟩

theorem good_exec (good : Good (rules crashes sidecar) state)
    (undisturbed : Undisturbed crashes sidecar state action) :
    Good (rules crashes sidecar) (exec sidecar state action) := by
  cases action with
  | step actor choice =>
      refine good.step safeStarts fun operation next due => ?_
      rw [Undisturbed, due] at undisturbed
      exact undisturbed
  | message payload =>
      refine good.begin (safe_onMessage ?_)
      rintro assignment rfl
      exact undisturbed
  | replay => exact good.begin safe_onReplay
  | kill => exact good_started good.inv
  | powerLoss pick =>
      have counts : crashes = true := undisturbed
      subst counts
      exact good_started fun id => (good.inv id).restore (pick id)

theorem not_runsCli (good : Good (rules crashes sidecar) state)
    (finished : (state.state id).finished = true) : ¬RunsCli state id := by
  rintro ⟨actor, assignment, next, due, named⟩
  obtain ⟨other, same, fresh⟩ := good.may due
  obtain rfl : id = other := Option.some.inj (named.symm.trans same)
  rw [finished] at fresh
  cases fresh

theorem step_change (good : Good (rules crashes sidecar) state) {actor : Actor} {choice : Choice}
    (undisturbed : Undisturbed crashes sidecar state (.step actor choice)) (id : Uuid) :
    ∃ operation, Change crashes sidecar actor operation (state.state id)
      ((exec sidecar state (.step actor choice)).state id) := by
  cases due : state.threads actor with
  | done value =>
      refine ⟨.now, ?_⟩
      have same : exec sidecar state (.step actor choice) = state := by
        rw [exec, Pool.step, due]
      rw [same]
      exact .same
  | op operation next =>
      refine ⟨operation, ?_⟩
      rw [Undisturbed, due] at undisturbed
      have change := perform_change choice (good.may due) undisturbed id
      have same : (exec sidecar state (.step actor choice)).state =
          (perform state.state operation choice (state.free machine actor operation)).1 := by
        rw [exec, Pool.step, due]
        dsimp only
        split <;> rfl
      rw [same]
      exact change

/-! ## A delivery -/

def runningCli (state : State) (id : Uuid) : Bool :=
  match state.threads (.task id) with
  | .op (.runCli assignment) _ => assignment.deliveryId = some id
  | _ => false

theorem runsCli_of_running (running : runningCli state id = true) : RunsCli state id := by
  rw [runningCli] at running
  split at running
  case h_1 assignment next due => exact ⟨.task id, assignment, next, due, of_decide_eq_true running⟩
  case h_2 => cases running

def Uncrashed : Action → Prop
  | .kill => False
  | .powerLoss _ => False
  | _ => True

instance : DecidablePred Uncrashed
  | .kill => isFalse not_false
  | .powerLoss _ => isFalse not_false
  | .step _ _ => isTrue trivial
  | .message _ => isTrue trivial
  | .replay => isTrue trivial

def theSidecar : Sidecar where
  agentId := Uuid.toText ⟨1⟩
  containerGenerationFingerprint := none

def theId : Uuid := ⟨7⟩

def theAssignment : TaskAssignment where
  deliveryId := some theId
  attempt := some 1
  leaseExpiresAt := some 0
  taskId := ⟨2⟩
  agentId := ⟨1⟩
  title := ""
  task := ""
  message := ""
  priority := ""
  runtimeKind := none
  containerGenerationFingerprint := none

def empty : State := started fun _ => .opened none none none

def steps (actor : Actor) (count : Nat) (choice : Choice) : List Action :=
  List.replicate count (.step actor choice)

def accepting : List Action := .message (.ok theAssignment) :: steps .main 10 {}

def executing : List Action := steps (.task theId) 24 {}

def expiring : List Action :=
  .replay :: steps .main 2 {} ++ steps .main 1 { clock := completedTombstoneMaxAge }
    ++ steps .main 20 { names := [theId] } ++ accepting ++ steps (.task theId) 1 {}

def listing : List Action := .replay :: steps .main 1 {} ++ steps .main 3 { names := [theId] }

def rescheduling : List Action := steps .main 1 {} ++ steps (.task theId) 1 {}

/-! ## At most once -/

def Opened (state : State) : Prop :=
  ∃ (pending : ∀ id, Option (PendingFile id)) (result : ∀ id, Option (ResultFile id))
    (completed : Uuid → Option Timestamp),
    state = started fun id => .opened (pending id) (result id) (completed id)

theorem finished_of_change {actor : Actor} {operation : Op} {delivery after : Delivery id}
    (change : Change crashes sidecar actor operation delivery after)
    (finished : delivery.finished = true) : after.finished = true := by
  cases change with
  | linkResult => rfl
  | linkTombstone => rfl
  | sync dir => cases dir <;> exact finished
  | unlinkCompleted => exact finished
  | _ => exact finished

theorem good_of_opened (opened : Opened state) : Good (rules false sidecar) state := by
  obtain ⟨pending, result, completed, rfl⟩ := opened
  exact good_started fun id => .opened (pending id) (result id) (completed id)

theorem finished_exec (good : Good (rules false sidecar) state)
    (undisturbed : Undisturbed false sidecar state action)
    (finished : (state.state id).finished = true) :
    ((exec sidecar state action).state id).finished = true := by
  cases action with
  | step actor choice =>
      obtain ⟨operation, change⟩ := step_change good undisturbed id
      exact finished_of_change change finished
  | message payload =>
      rw [exec, Pool.begin]
      split <;> exact finished
  | replay =>
      rw [exec, Pool.begin]
      split <;> exact finished
  | kill => cases undisturbed
  | powerLoss pick => cases undisturbed

end Forge.AtMostOnce
