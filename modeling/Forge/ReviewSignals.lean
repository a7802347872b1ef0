import Forge.WorkflowRun

/-! The requests that signal the decision of a human review: they signal the run and write the row
of the node, which the activity of the review writes too. -/

namespace Forge.ReviewSignals

open Forge.WorkflowRun

inductive Outcome where
  | ok
  | failed (reached : Bool)
deriving DecidableEq, Repr

def Outcome.reached : Outcome → Bool
  | ok => true
  | failed reached => reached

/-- Where a request stands: before the checks of the service, before the signal, before the write
of the row, past it, or at its end without one. `awaited` tells whether the node awaited its review
when it was signalled. -/
inductive Step where
  | received
  | checked
  | signalled (awaited : Bool)
  | written (awaited : Bool)
  | concluded
deriving DecidableEq, Repr

structure SignalRequest where
  nodeId : Option String
  decision : Option Decision
  step : Step
deriving DecidableEq, Repr

/-- The run, the signals that the engine accepted and did not dispatch yet, the status of every
node in the database by its id, the nodes whose review activity has begun, and the requests. -/
structure World where
  run : Run
  inbox : List (String × Decision)
  rows : String → NodeStatus
  begun : List String
  requests : List SignalRequest

/-- An event of the run; the dispatch of the next signal; the first write of the activity of a
review; a write of the activity of another node; a request comes in or takes its next step. -/
inductive Action where
  | event (event : Event)
  | dispatch
  | reviewBegins (nodeId : String) (outcome : Outcome)
  | otherWrites (nodeId : String) (status : NodeStatus)
  | request (nodeId : Option String) (decision : Option Decision)
  | step (i : Nat) (outcome : Outcome)
deriving DecidableEq, Repr

def awaits (run : Run) (nodeId : String) : Bool :=
  run.futures.any fun future =>
    future.node.id = nodeId && future.node.nodeType = .humanReview && future.phase = .reviewing

section Actions

variable (graph : Graph) (world : World)

namespace World

def setStep (i : Nat) (request : SignalRequest) (step : Step) : World :=
  { world with requests := world.requests.set i { request with step } }

/-- `update_node_status`. -/
def writeRow (nodeId : String) (status : NodeStatus) (outcome : Outcome) : World :=
  if outcome.reached then { world with rows := Function.update world.rows nodeId status }
  else world

def signal (nodeId : String) (decision : Decision) (outcome : Outcome) : World :=
  if outcome.reached && world.run.stage ≠ .ended then
    { world with inbox := world.inbox ++ [(nodeId, decision)] }
  else world

/-- `signal_workflow`, first of the service, then of the runtime. -/
def advance (i : Nat) (request : SignalRequest) (outcome : Outcome) : World :=
  match request.step, request.nodeId, request.decision with
  | .received, some nodeId, some _ =>
      world.setStep i request
        (if outcome = .ok && graph.nodes.any fun node => node.id = nodeId then .checked else .concluded)
  | .received, _, _ => world.setStep i request .concluded
  | .checked, some nodeId, some decision =>
      (world.signal nodeId decision outcome).setStep i request
        (if outcome = .ok && world.run.stage ≠ .ended then .signalled (awaits world.run nodeId)
          else .concluded)
  | .signalled awaited, some nodeId, some decision =>
      (world.writeRow nodeId decision.status outcome).setStep i request (.written awaited)
  | _, _, _ => world

def exec : Action → World
  | .event event =>
      match event with
      -- decisions come from the inbox
      | .signal _ _ => world
      | event => { world with run := WorkflowRun.exec graph world.run event }
  | .dispatch =>
      match world.inbox with
      | (nodeId, decision) :: inbox =>
          if world.run.stage = .ended then world
          else
            { world with
              run := WorkflowRun.exec graph world.run (.signal nodeId decision)
              inbox }
      | [] => world
  | .reviewBegins nodeId outcome =>
      if nodeId ∉ world.begun ∧ ∃ node ∈ graph.nodes,
          node.id = nodeId ∧ node.nodeType = .humanReview ∧ node.name ∈ world.run.scheduled then
        { world.writeRow nodeId .running outcome with begun := nodeId :: world.begun }
      else world
  | .otherWrites nodeId status =>
      if ∃ node ∈ graph.nodes, node.id = nodeId ∧ node.nodeType ≠ .humanReview then
        world.writeRow nodeId status .ok
      else world
  | .request nodeId decision =>
      { world with requests := world.requests ++ [⟨nodeId, decision, .received⟩] }
  | .step i outcome =>
      match world.requests[i]? with
      | some request => world.advance graph i request outcome
      | none => world

end World

end Actions

end Forge.ReviewSignals
