import Forge.Library.StateMachine
import Forge.WorkflowRun

/-! The requests that start and cancel a workflow, the runs the engine accepts for it, and the
status in the database that all of them write. -/

namespace Forge.WorkflowRequests

open Forge.WorkflowRun

/-- What a start request has read of the workflow: its status, and how many ends of runs were
written by then. -/
structure Reading where
  status : WorkflowStatus
  ends : Nat
deriving DecidableEq, Repr

/-- The next step of a start request: `get_by_id`, `reset_nodes`, the nodes and their layers,
the engine's start, `set_temporal_ids`, `update_status`. -/
inductive StartStep where
  | read
  | reset (reading : Reading)
  | nodes (reading : Reading)
  | engine (reading : Reading)
  | ids (reading : Reading) (run : Nat)
  | running (reading : Reading) (run : Nat)
  | concluded
deriving DecidableEq, Repr

/-- The next step of a cancel request: `get_by_id`, the engine's cancellation of the run,
`update_status`. -/
inductive CancelStep where
  | read
  | engine (run : Nat)
  | cancelled (run : Nat)
  | concluded
deriving DecidableEq, Repr

/-- `result` is the status with which the run goes to its finalisation. What its request read,
whether that request wrote `running`, and the end that was written for the run, with its number
among the ends, are history. -/
structure EngineRun where
  isOpen : Bool
  result : Option WorkflowStatus
  reading : Reading
  startWritten : Bool
  ended : Option (WorkflowStatus × Nat)
deriving DecidableEq, Repr

/-- The runs the engine accepted are numbered from `0`. -/
structure World where
  status : WorkflowStatus
  temporalRun : Option Nat
  runs : Nat → EngineRun
  accepted : Nat
  starts : Nat → StartStep
  cancels : Nat → CancelStep
  ends : Nat

inductive Outcome where
  | ok
  | failed (reached : Bool)
deriving DecidableEq, Repr

def Outcome.reached : Outcome → Bool
  | ok => true
  | failed reached => reached

/-- A request takes its next step; a run decides its result; an attempt of its finalisation
writes; a run is closed. -/
inductive Action where
  | start (request : Nat) (outcome : Outcome)
  | cancel (request : Nat) (outcome : Outcome)
  | decide (run : Nat) (success : Bool)
  | finalize (run : Nat)
  | close (run : Nat)
deriving DecidableEq, Repr

namespace World

variable (world : World)

def setRun (index : Nat) (run : EngineRun) : World :=
  { world with runs := Function.update world.runs index run }

def setStart (request : Nat) (step : StartStep) : World :=
  { world with starts := Function.update world.starts request step }

def setCancel (request : Nat) (step : CancelStep) : World :=
  { world with cancels := Function.update world.cancels request step }

/-- `update_status` with the status in which a run ends. -/
def writeEnd (index : Nat) (status : WorkflowStatus) : World :=
  let run := world.runs index
  if run.ended.map Prod.fst = some status then { world with status }
  else
    { world with
      status
      ends := world.ends + 1
      runs := Function.update world.runs index
        { run with ended := some (status, world.ends + 1) } }

/-- `update_status` with `running`, by the request that started the run. -/
def writeRunning (index : Nat) : World :=
  { world with
    status := .running
    runs := Function.update world.runs index { world.runs index with startWritten := true } }

def accept (reading : Reading) : World :=
  { world with
    runs := fun index =>
      if index = world.accepted then ⟨true, none, reading, false, none⟩
      else { world.runs index with isOpen := false }
    accepted := world.accepted + 1 }

def setTemporalIds (index : Nat) : World :=
  { world with temporalRun := some index }

def call (effect : World → World) (outcome : Outcome) (settle : Bool → World → World) : World :=
  settle (outcome = .ok) (if outcome.reached then effect world else world)

/-- `start_workflow`. The cancellation of a run whose ids or status were not written only asks
it to stop. -/
def start (request : Nat) (outcome : Outcome) : World :=
  match world.starts request with
  | .read =>
      if outcome = .ok then
        let reading : Reading := ⟨world.status, world.ends⟩
        world.setStart request <|
          if world.status = .failed then .reset reading
          else if world.status = .draft then .nodes reading
          else .concluded
      else world.setStart request .concluded
  | .reset reading =>
      world.setStart request (if outcome = .ok then .nodes reading else .concluded)
  | .nodes reading =>
      world.setStart request (if outcome = .ok then .engine reading else .concluded)
  | .engine reading =>
      world.call (accept · reading) outcome fun ok after =>
        after.setStart request (if ok then .ids reading world.accepted else .concluded)
  | .ids reading run =>
      world.call (setTemporalIds · run) outcome fun ok after =>
        after.setStart request (if ok then .running reading run else .concluded)
  | .running _ run =>
      world.call (writeRunning · run) outcome fun _ after => after.setStart request .concluded
  | .concluded => world

/-- `cancel_workflow`. The engine refuses to cancel a run that is closed. -/
def cancel (request : Nat) (outcome : Outcome) : World :=
  match world.cancels request with
  | .read =>
      world.setCancel request <|
        match outcome, world.temporalRun with
        | .ok, some run => .engine run
        | _, _ => .concluded
  | .engine run =>
      world.setCancel request <|
        if outcome = .ok ∧ (world.runs run).isOpen then .cancelled run else .concluded
  | .cancelled run =>
      world.call (writeEnd · run .cancelled) outcome fun _ after => after.setCancel request .concluded
  | .concluded => world

end World

def resultOf (success : Bool) : WorkflowStatus :=
  if success then .completed else .failed

def exec (world : World) : Action → World
  | .start request outcome => world.start request outcome
  | .cancel request outcome => world.cancel request outcome
  | .decide index success =>
      let run := world.runs index
      if run.isOpen ∧ run.result = none then
        world.setRun index { run with result := some (resultOf success) }
      else world
  | .finalize index =>
      match (world.runs index).result with
      | some status => world.writeEnd index status
      | none => world
  | .close index => world.setRun index { world.runs index with isOpen := false }

def created : World where
  status := .draft
  temporalRun := none
  runs := fun _ => ⟨false, none, ⟨.draft, 0⟩, false, none⟩
  accepted := 0
  starts := fun _ => .read
  cancels := fun _ => .read
  ends := 0

end Forge.WorkflowRequests
