import Forge.Library.JsonText
import Forge.Library.Relay
import Forge.OrchestrationView

/-! The streams of the three model providers: what each parser makes of the payloads of its
events. -/

namespace Forge.LlmStreams

open Forge.Library.JsonDocument
open Forge.Library.JsonText
open Forge.Library.Relay
open Forge.Library.Text
open Forge.OrchestrationView (isWhitespace)

inductive LlmError where
  | http (message : String)
  | api (status : UInt16) (message : String)
  | parse (message : String)
  | notConfigured (message : String)
  | notImplemented (message : String)
deriving DecidableEq

inductive StreamDelta where
  | text (text : String)
  | usage (inputTokens outputTokens : UInt32)
  | done (finishReason : String)
deriving DecidableEq

abbrev Payloads := List (Except LlmError String)

abbrev Deltas := List (Except LlmError StreamDelta)

def trim (text : String) : String := String.ofList (strip isWhitespace text.toList)

/-- `serde_json::from_str`. -/
def fromStr (text : String) : Option Json := readDocument text.toList

/-- `as u32`. -/
def asU32 (count : Nat) : UInt32 := .ofNat count

def pointerStr (v : Json) (tokens : List String) : Option String :=
  (pointer v tokens).bind Json.asStr

def pointerU64 (v : Json) (tokens : List String) : Option Nat :=
  (pointer v tokens).bind asU64

namespace OpenAi

structure State where
  finishReason : Option String
  inputTokens : UInt32
  outputTokens : UInt32
  doneEmitted : Bool

def content (v : Json) : Option String :=
  (pointerStr v ["choices", "0", "delta", "content"]).filter fun content => content ≠ ""

def usage (v : Json) : Option Json :=
  (field v "usage").filter fun usage => usage matches .object _

def tokens (usage : Json) (name : String) : Option Nat := (field usage name).bind asU64

/-- What a frame changes of what is kept. -/
def keep (state : State) (v : Json) : State :=
  let named := match pointerStr v ["choices", "0", "finish_reason"] with
    | some finish => { state with finishReason := some finish }
    | none => state
  match usage v with
  | some usage =>
      { named with
        inputTokens := asU32 ((tokens usage "prompt_tokens").getD 0)
        outputTokens := asU32 ((tokens usage "completion_tokens").getD 0) }
  | none => named

def step (state : State) (payload : String) : State × List StreamDelta :=
  let payload := trim payload
  if payload = "[DONE]" then
    ({ state with finishReason := none, doneEmitted := true },
      [.usage state.inputTokens state.outputTokens, .done (state.finishReason.getD "stop")])
  else if payload = "" then (state, [])
  else match fromStr payload with
    | none => (state, [])
    | some v => (keep state v, (content v).toList.map .text)

def close (state : State) : List StreamDelta :=
  if state.doneEmitted then []
  else [.usage state.inputTokens state.outputTokens,
    .done (state.finishReason.getD "interrupted")]

def loop : Loop State String StreamDelta := ⟨step, close⟩

def start : State := ⟨none, 0, 0, false⟩

end OpenAi

def parseOpenaiSse (payloads : Payloads) : Deltas := run OpenAi.loop OpenAi.start payloads

namespace Anthropic

structure State where
  inputTokens : UInt32
  doneEmitted : Bool

def kind (v : Json) : Option String := (field v "type").bind Json.asStr

def step (state : State) (payload : String) : State × List StreamDelta :=
  if payload = "" then (state, [])
  else match fromStr payload with
    | none => (state, [])
    | some v =>
        match kind v with
        | some "message_start" =>
            ({ state with
              inputTokens := ((pointerU64 v ["message", "usage", "input_tokens"]).map asU32).getD
                state.inputTokens }, [])
        | some "content_block_delta" =>
            (state, (pointerStr v ["delta", "text"]).toList.map .text)
        | some "message_delta" =>
            let finish := (pointerStr v ["delta", "stop_reason"]).getD "stop"
            let outputTokens := asU32 ((pointerU64 v ["usage", "output_tokens"]).getD 0)
            ({ state with doneEmitted := true },
              [.usage state.inputTokens outputTokens, .done finish])
        | _ => (state, [])

def close (state : State) : List StreamDelta :=
  if state.doneEmitted then [] else [.usage state.inputTokens 0, .done "interrupted"]

def loop : Loop State String StreamDelta := ⟨step, close⟩

def start : State := ⟨0, false⟩

end Anthropic

def parseAnthropicSse (payloads : Payloads) : Deltas :=
  run Anthropic.loop Anthropic.start payloads

namespace Gemini

structure State where
  doneEmitted : Bool

def parts (v : Json) : List String :=
  (((pointer v ["candidates", "0", "content", "parts"]).bind Json.asArray).getD []).filterMap
    fun part => (field part "text").bind Json.asStr

def step (state : State) (payload : String) : State × List StreamDelta :=
  if payload = "" then (state, [])
  else match fromStr (trim payload) with
    | none => (state, [])
    | some v =>
        let texts := ((parts v).filter fun text => text ≠ "").map .text
        match pointerStr v ["candidates", "0", "finishReason"] with
        | none => (state, texts)
        | some finish =>
            let pt := asU32 ((pointerU64 v ["usageMetadata", "promptTokenCount"]).getD 0)
            let ct := asU32 ((pointerU64 v ["usageMetadata", "candidatesTokenCount"]).getD 0)
            ({ state with doneEmitted := true }, texts ++ [.usage pt ct, .done finish])

def close (state : State) : List StreamDelta :=
  if state.doneEmitted then [] else [.usage 0 0, .done "interrupted"]

def loop : Loop State String StreamDelta := ⟨step, close⟩

def start : State := ⟨false⟩

end Gemini

def parseGeminiSse (payloads : Payloads) : Deltas := run Gemini.loop Gemini.start payloads

end Forge.LlmStreams
