import Forge.Library.Identifier
import Forge.Library.JsonDocument
import Mathlib.Data.List.Sort

/-! The turns of a chat as they are projected from the events of an agent. -/

namespace Forge.TurnProjection

open Forge.Library.Identifier
open Forge.Library.JsonDocument

structure TurnProjectionEvent where
  id : Uuid
  eventType : String
  payload : Json
  sessionId : Option String
  createdAtMs : Int64

inductive StepStatus where
  | pending | complete | error | timeout
deriving DecidableEq

inductive TurnStatus where
  | complete | error | thinking | toolUse | interrupted
deriving DecidableEq

inductive TurnType where
  | user | assistant | system
deriving DecidableEq

structure StepMetadata where
  filePath : Option String
  command : Option String
  language : Option String
deriving DecidableEq

structure TurnStep where
  id : String
  toolName : String
  input : String
  output : Option String
  hasFullContent : Bool
  success : Option Bool
  durationMs : Option Int64
  startedAt : Int64
  status : StepStatus
  isSubagent : Bool
  metadata : Option StepMetadata
deriving DecidableEq

structure Turn where
  id : String
  sessionId : String
  sequence : Nat
  turnType : TurnType
  status : TurnStatus
  prompt : Option String
  images : Option (List String)
  thinking : Option String
  response : Option String
  steps : List TurnStep
  cliTool : Option String
  startedAt : Int64
  completedAt : Option Int64
  durationMs : Option Int64
  rawEventCount : Nat
  isFavorite : Option Bool
deriving DecidableEq

structure BuildTurnsResult where
  turns : List Turn
  unknownEventTypeCount : Nat
  deduplicatedEventCount : Nat

structure BuildContext where
  turns : List Turn
  currentTurn : Option Nat
  sequence : Nat
  unknownEventTypeCount : Nat

def maxInputPreview : Nat := 200

def maxOutputPreview : Nat := 500

def interruptedAfterMs : Int64 := 120000

section Payloads

def camelToSnake (input : String) : String :=
  String.ofList (input.toList.flatMap fun c => if c.isUpper then ['_', c.toLower] else [c])

def payloadValue (payload : Json) (camel : String) : Option Json :=
  (payload.get camel).or (payload.get (camelToSnake camel))

def payloadStr (payload : Json) (camel : String) : Option String :=
  (payloadValue payload camel).bind Json.asStr

def payloadBool (payload : Json) (camel : String) : Option Bool :=
  (payloadValue payload camel).bind fun
    | .bool value => some value
    | _ => none

def payloadI64 (payload : Json) (camel : String) : Option Int64 :=
  ((payloadValue payload camel).bind Json.asI64).map Int64.ofInt

def payloadStringArray (payload : Json) (camel : String) : Option (List String) := do
  let strings := (← (← payloadValue payload camel).asArray).filterMap Json.asStr
  if strings = [] then none else some strings

/-- `stringify_value`, with the printer of other values. -/
def stringifyValue (print : Json → String) : Json → String
  | .null => ""
  | .string text => text
  | other => print other

def truncateText (text : String) (maxLen : Nat) : String :=
  if text.toList.length ≤ maxLen then text
  else String.ofList (text.toList.take maxLen) ++ "..."

def extractStepMetadata (tool : String) (input : Json) : Option StepMetadata :=
  let field := payloadStr input
  if tool ∈ ["Read", "Write", "Edit", "Glob"] then
    ((field "filePath").or (field "file_path")).map fun filePath => ⟨some filePath, none, none⟩
  else if tool = "Bash" then (field "command").map fun command => ⟨none, some command, none⟩
  else if tool = "Grep" then
    (field "pattern").map fun pattern => ⟨none, some ("grep: " ++ pattern), none⟩
  else none

end Payloads

section Turns

/-- `create_turn`. -/
def createTurn (event : TurnProjectionEvent) (id : String) (sequence : Nat) (turnType : TurnType)
    (status : TurnStatus) (cliTool : Option String) : Turn where
  id := id
  sessionId := event.sessionId.getD ""
  sequence := sequence
  turnType := turnType
  status := status
  prompt := none
  images := none
  thinking := none
  response := none
  steps := []
  cliTool := cliTool
  startedAt := event.createdAtMs
  completedAt := none
  durationMs := none
  rawEventCount := 1
  isFavorite := none

def TurnStatus.isTerminal : TurnStatus → Bool
  | .complete => true
  | .error => true
  | _ => false

def finalizeTurn (timestamp : Int64) (turn : Turn) : Turn :=
  { turn with
    status := if turn.status = .thinking ∨ turn.status = .toolUse then .complete else turn.status
    steps := turn.steps.map fun step =>
      if step.status = .pending then { step with status := .timeout } else step
    completedAt := some timestamp
    durationMs := some (timestamp - turn.startedAt) }

def lastActivityTime (turn : Turn) (fallback : Int64) : Int64 :=
  match turn.steps.getLast? with
  | some step => step.startedAt + step.durationMs.getD 0
  | none => if turn.startedAt > 0 then turn.startedAt else fallback

def assistantId (event : TurnProjectionEvent) : String :=
  event.id.toText ++ "-assistant"

end Turns

namespace BuildContext

variable (context : BuildContext)

def changeCurrent (holds : Turn → Bool) (change : Turn → Turn) : BuildContext :=
  match context.currentTurn with
  | none => context
  | some index =>
      { context with
        turns := context.turns.modify index fun turn =>
          if holds turn then change turn else turn }

/-- `current_assistant_mut`. -/
def changeAssistant (change : Turn → Turn) : BuildContext :=
  context.changeCurrent (fun turn => turn.turnType = .assistant) change

def hasAssistant : Bool :=
  (context.currentTurn.bind (context.turns[·]?)).any fun turn => turn.turnType = .assistant

/-- `finalize_open_current_turn`. -/
def finalizeOpenCurrentTurn (timestamp : Int64) : BuildContext :=
  context.changeCurrent (fun turn => !turn.status.isTerminal) (finalizeTurn timestamp)

def push (turn : Nat → Turn) (current : Bool) : BuildContext :=
  { context with
    turns := context.turns ++ [turn (context.sequence + 1)]
    sequence := context.sequence + 1
    currentTurn := if current then some context.turns.length else none }

end BuildContext

section Handlers

variable (print : Json → String) (context : BuildContext) (event : TurnProjectionEvent)

def handlePromptSubmit : BuildContext :=
  let cliTool := payloadStr event.payload "cliTool"
  let closed := context.finalizeOpenCurrentTurn event.createdAtMs
  let asked := closed.push (fun sequence =>
    { createTurn event event.id.toText sequence .user .complete cliTool with
      prompt := payloadStr event.payload "prompt"
      images := payloadStringArray event.payload "images"
      completedAt := some event.createdAtMs
      durationMs := some 0 }) false
  asked.push (fun sequence =>
    createTurn event (assistantId event) sequence .assistant .thinking cliTool) true

/-- The step of a tool that is about to be used. -/
def toolStep : TurnStep :=
  let tool := (payloadStr event.payload "tool").getD "unknown"
  let toolInput := (payloadValue event.payload "toolInput").getD .null
  { id := (payloadStr event.payload "toolUseId").getD event.id.toText
    toolName := tool
    input := truncateText (stringifyValue print toolInput) maxInputPreview
    output := none
    hasFullContent := true
    success := none
    durationMs := none
    startedAt := event.createdAtMs
    status := .pending
    isSubagent := tool = "Task" || tool = "dispatch_agent"
    metadata := extractStepMetadata tool toolInput }

def handlePreToolUse : BuildContext :=
  let opened := if context.hasAssistant then context
    else context.push (fun sequence => createTurn event (assistantId event) sequence .assistant
      .toolUse (payloadStr event.payload "cliTool")) true
  opened.changeAssistant fun turn =>
    { turn with
      status := .toolUse
      thinking := turn.thinking.or (payloadStr event.payload "assistantText")
      steps := turn.steps ++ [toolStep print event]
      rawEventCount := turn.rawEventCount + 1 }

def answeredStep (step : TurnStep) : TurnStep :=
  let output := (payloadValue event.payload "toolResponse").getD .null
  let success := (payloadBool event.payload "success").getD true
  { step with
    output := some (truncateText (stringifyValue print output) maxOutputPreview)
    success := some success
    durationMs := payloadI64 event.payload "duration"
    status := if success then .complete else .error }

def changeStep (id : String) (change : TurnStep → TurnStep) : List TurnStep → List TurnStep
  | [] => []
  | step :: rest => if step.id = id then change step :: rest else step :: changeStep id change rest

def handlePostToolUse : BuildContext :=
  context.changeAssistant fun turn =>
    { turn with
      steps := match payloadStr event.payload "toolUseId" with
        | none => turn.steps
        | some toolUseId => changeStep toolUseId (answeredStep print event) turn.steps
      rawEventCount := turn.rawEventCount + 1 }

def handleStop : BuildContext :=
  context.changeAssistant fun turn =>
    finalizeTurn event.createdAtMs
      { turn with response := (payloadStr event.payload "response").or turn.response }

def pushSystem (context : BuildContext) (response : String) : BuildContext :=
  context.push (fun sequence =>
    { createTurn event event.id.toText sequence .system .complete none with
      response := some response
      completedAt := some event.createdAtMs
      durationMs := some 0 }) false

def handleSessionStart : BuildContext :=
  pushSystem event (context.finalizeOpenCurrentTurn event.createdAtMs)
    ("Session " ++ (payloadStr event.payload "source").getD "startup")

def handleSessionEnd : BuildContext :=
  let closed := context.changeCurrent (fun turn => !turn.status.isTerminal) fun turn =>
    finalizeTurn event.createdAtMs { turn with status := .interrupted }
  pushSystem event closed ("Session ended: " ++ (payloadStr event.payload "reason").getD "other")

def processEvent : BuildContext :=
  match event.eventType with
  | "user_prompt_submit" => handlePromptSubmit context event
  | "pre_tool_use" => handlePreToolUse print context event
  | "post_tool_use" => handlePostToolUse print context event
  | "stop" => handleStop context event
  | "session_start" => handleSessionStart context event
  | "session_end" => handleSessionEnd context event
  | "subagent_stop" | "notification" | "pre_compact" | "terminal_output" | "text_stream" =>
      context.changeAssistant fun turn => { turn with rawEventCount := turn.rawEventCount + 1 }
  | _ => context

end Handlers

def isKnownEventType (eventType : String) : Bool :=
  eventType ∈ ["user_prompt_submit", "pre_tool_use", "post_tool_use", "stop", "subagent_stop",
    "session_start", "session_end", "notification", "pre_compact", "terminal_output",
    "text_stream"]

def eventLe (left right : TurnProjectionEvent) : Bool :=
  decide (left.createdAtMs.toInt < right.createdAtMs.toInt
    ∨ left.createdAtMs = right.createdAtMs ∧ left.id.value ≤ right.id.value)

def dedupe : List Uuid → List TurnProjectionEvent → List TurnProjectionEvent
  | _, [] => []
  | seen, event :: rest =>
      if event.id ∈ seen then dedupe seen rest else event :: dedupe (event.id :: seen) rest

section Build

variable (print : Json → String)

def step (context : BuildContext) (event : TurnProjectionEvent) : BuildContext :=
  if isKnownEventType event.eventType then processEvent print context event
  else { context with unknownEventTypeCount := context.unknownEventTypeCount + 1 }

def interrupt (nowMs : Int64) (context : BuildContext) : BuildContext :=
  context.changeCurrent
    (fun turn => turn.turnType = .assistant && !turn.status.isTerminal
      && decide (nowMs - lastActivityTime turn nowMs > interruptedAfterMs))
    fun turn => finalizeTurn (lastActivityTime turn nowMs) { turn with status := .interrupted }

def sorted (events : List TurnProjectionEvent) : List TurnProjectionEvent :=
  dedupe [] (events.insertionSort fun left right => eventLe left right)

def buildTurns (events : List TurnProjectionEvent) (nowMs : Int64) : BuildTurnsResult :=
  let deduped := sorted events
  let context := (deduped.foldl (step print) ⟨[], none, 0, 0⟩)
  let closed := interrupt nowMs context
  { turns := closed.turns
    unknownEventTypeCount := closed.unknownEventTypeCount
    deduplicatedEventCount := events.length - deduped.length }

end Build

end Forge.TurnProjection
