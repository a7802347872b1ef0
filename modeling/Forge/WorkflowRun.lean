import Forge.Library.StateMachine
import Forge.WorkflowDag
import Mathlib.Data.List.Dedup
import Mathlib.Logic.Function.Basic

/-! A run of a workflow on the engine: the loop over the layers, the futures of the nodes of a
layer, the signals of human reviews, and the writes to the status of the workflow. -/

namespace Forge.WorkflowRun

open Forge.WorkflowDag

inductive WorkflowStatus where
  | draft | running | completed | failed | cancelled | paused
deriving DecidableEq, Repr

inductive NodeStatus where
  | pending | running | completed | failed | skipped
deriving DecidableEq, Repr

def NodeStatus.asStr : NodeStatus → String
  | pending => "pending"
  | running => "running"
  | completed => "completed"
  | failed => "failed"
  | skipped => "skipped"

inductive Decision where
  | approve | reject
deriving DecidableEq, Repr

/-- `condition` is the text under that key of the node's configuration. -/
structure WorkflowNode where
  id : String
  name : String
  nodeType : NodeType
  dependsOn : List String
  condition : Option String
deriving DecidableEq, Repr

structure Graph where
  nodes : List WorkflowNode
  distinct : (nodes.map WorkflowNode.id).Nodup

def WorkflowNode.request (node : WorkflowNode) : NodeRequest where
  name := some node.name
  dependsOn := node.dependsOn

/-- `workflow_layers`. -/
def workflowLayers (iteration : Iteration) (graph : Graph) :
    Except WorkflowError (List (List String)) :=
  validateDag iteration (graph.nodes.map WorkflowNode.request)

structure GateEvaluation where
  passed : Bool
  reason : String
  invalid : Bool
deriving DecidableEq, Repr

/-- `evaluate_gate_condition`, on the results in the order in which the map is iterated. -/
def evaluateGateCondition (condition : Option String)
    (depResults : List (String × NodeStatus)) : GateEvaluation :=
  let condition := condition.getD "all_success"
  if condition = "all_success" then
    match depResults.find? fun result => result.2 ≠ .completed with
    | some (name, status) =>
        ⟨false, "dependency \"" ++ name ++ "\" has status \"" ++ status.asStr
          ++ "\" (expected completed)", false⟩
    | none => ⟨true, "all dependencies completed successfully", false⟩
  else if condition = "any_success" then
    match depResults.find? fun result => result.2 = .completed with
    | some (name, _) => ⟨true, "dependency \"" ++ name ++ "\" completed successfully", false⟩
    | none => ⟨false, "no dependencies completed successfully", false⟩
  else ⟨false, "unknown gate condition: \"" ++ condition ++ "\"", true⟩

/-- How far the future of a node is: it waits for its activity, for a decision or the activity of
a review, for the end of the activity after a decision; or it is ready with a status or an
error. -/
inductive Phase where
  | working
  | reviewing
  | decided (decision : Decision)
  | done (status : NodeStatus)
  | error
deriving DecidableEq, Repr

structure NodeFuture where
  node : WorkflowNode
  depResults : List (String × NodeStatus)
  phase : Phase
deriving DecidableEq, Repr

def NodeFuture.isReady (future : NodeFuture) : Bool :=
  match future.phase with
  | .done _ => true
  | .error => true
  | _ => false

/-- Where the workflow function is: in a layer, with the layers after it, at the finalisation,
which has written the status or not, or at its end. -/
inductive Stage where
  | running (layers : List (List String))
  | finalizing (status : WorkflowStatus) (written : Bool)
  | ended
deriving DecidableEq, Repr

/-- The run with the status of the workflow in the database (`row`), and whether the request that
started the run has written it yet. `scheduled` lists the nodes whose work was started. -/
structure Run where
  status : String → NodeStatus
  pendingReviews : List (String × Decision)
  waitingReviews : List String
  futures : List NodeFuture
  stage : Stage
  row : WorkflowStatus
  startWritten : Bool
  scheduled : List String

section Layers

variable (graph : Graph) (run : Run)

/-- The first poll of a node's future: its activity is scheduled, and a review takes a decision
that has come already or waits for one. -/
def Run.poll (node : WorkflowNode) (depResults : List (String × NodeStatus)) : Run :=
  let run := { run with scheduled := run.scheduled ++ [node.name] }
  match node.nodeType with
  | .agentTask => { run with futures := run.futures ++ [⟨node, depResults, .working⟩] }
  | .gate => { run with futures := run.futures ++ [⟨node, depResults, .working⟩] }
  | .humanReview =>
      match run.pendingReviews.lookup node.id with
      | some decision =>
          { run with
            pendingReviews := run.pendingReviews.filter fun entry => entry.1 ≠ node.id
            futures := run.futures ++ [⟨node, depResults, .decided decision⟩] }
      | none =>
          { run with
            waitingReviews := node.id :: run.waitingReviews
            futures := run.futures ++ [⟨node, depResults, .reviewing⟩] }

def beginNode (run : Run) (name : String) : Run :=
  match graph.nodes.find? fun node => node.name = name with
  | none => run
  | some node =>
      let depResults := node.dependsOn.dedup.map fun dep => (dep, run.status dep)
      if depResults.any fun result => result.2 ≠ .completed then
        { run with status := Function.update run.status node.name .skipped }
      else run.poll node depResults

def Run.anyFailed : Bool :=
  graph.nodes.any fun node => run.status node.name = .failed

def proceed : List (List String) → Run → Run
  | [], run => { run with stage := .finalizing .completed false }
  | layer :: rest, run =>
      let begun := layer.foldl (beginNode graph) { run with stage := .running rest }
      if begun.futures.isEmpty then
        if begun.anyFailed graph then { begun with stage := .finalizing .failed false }
        else proceed rest begun
      else begun

def settle : List NodeFuture → (String → NodeStatus) → Option (String → NodeStatus)
  | [], status => some status
  | future :: rest, status =>
      match future.phase with
      | .done result => settle rest (Function.update status future.node.name result)
      | _ => none

/-- A layer of which every future is ready is over; an error ends the run at once. -/
def Run.advance : Run :=
  match run.stage with
  | .running layers =>
      if run.futures.all NodeFuture.isReady then
        match settle run.futures run.status with
        | none => { run with stage := .ended }
        | some status =>
            let run := { run with status, futures := [] }
            if run.anyFailed graph then { run with stage := .finalizing .failed false }
            else proceed graph layers run
      else run
  | _ => run

/-- `run_orchestrator_workflow` up to the first thing it waits for. -/
def opening (layers : List (List String)) (row : WorkflowStatus) : Run :=
  proceed graph layers ⟨fun _ => .pending, [], [], [], .running layers, row, false, []⟩

end Layers

/-- What happens to a run: the activity of a node ends, well or not; a decision is signalled; an
attempt of the finalisation writes the status; the finalisation ends; the request that started
the run writes `running`. -/
inductive Event where
  | activity (name : String) (success : Bool)
  | signal (nodeId : String) (decision : Decision)
  | finalizeWrite
  | finalizeEnd (success : Bool)
  | startWrite
deriving DecidableEq, Repr

def Decision.status : Decision → NodeStatus
  | approve => .completed
  | reject => .failed

/-- What the end of its activity means to a future. -/
def NodeFuture.resolve (future : NodeFuture) (success : Bool) : NodeFuture :=
  match future.phase with
  | .working =>
      let passed := match future.node.nodeType with
        | .gate => (evaluateGateCondition future.node.condition future.depResults).passed
        | _ => true
      { future with phase := .done (if success && passed then .completed else .failed) }
  | .reviewing => { future with phase := .error }
  | .decided decision => { future with phase := .done decision.status }
  | _ => future

def NodeFuture.decide (future : NodeFuture) (nodeId : String) (decision : Decision) : NodeFuture :=
  if future.node.id = nodeId ∧ future.phase = .reviewing then
    { future with phase := .decided decision }
  else future

section Events

variable (graph : Graph) (run : Run)

/-- `dispatch_signal`. -/
def Run.signal (nodeId : String) (decision : Decision) : Run :=
  let buffered := { run with
    waitingReviews := run.waitingReviews.filter (· ≠ nodeId)
    pendingReviews := (nodeId, decision) :: run.pendingReviews.filter fun entry =>
      entry.1 ≠ nodeId }
  if nodeId ∈ run.waitingReviews
      ∧ run.futures.any fun future => future.node.id = nodeId ∧ future.phase = .reviewing then
    { run with
      waitingReviews := run.waitingReviews.filter (· ≠ nodeId)
      futures := run.futures.map fun future => future.decide nodeId decision }
  else buffered

def exec : Event → Run
  | .activity name success =>
      match run.stage with
      | .running _ =>
          Run.advance graph { run with
            futures := run.futures.map fun future =>
              if future.node.name = name then future.resolve success else future }
      | _ => run
  | .signal nodeId decision =>
      match run.stage with
      | .ended => run
      | _ => run.signal nodeId decision
  | .finalizeWrite =>
      match run.stage with
      | .finalizing status _ => { run with row := status, stage := .finalizing status true }
      | _ => run
  | .finalizeEnd success =>
      match run.stage with
      | .finalizing _ written => if success && !written then run else { run with stage := .ended }
      | _ => run
  | .startWrite =>
      if run.startWritten then run else { run with row := .running, startWritten := true }

end Events

end Forge.WorkflowRun
