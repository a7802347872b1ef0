import Forge.LlmStreams
import Mathlib.Logic.Function.Basic

/-! The provider streams of prompts: the loop that relays a response until it ends or is cancelled,
and the map of the streams in flight with a cancel handle for each agent. -/

namespace Forge.PromptStreams

open Forge.Library.Identifier
open Forge.LlmStreams

/-- `SseFrame`, without its first frame. -/
inductive SseFrame where
  | delta (text : String)
  | messageStop (tokensIn tokensOut : UInt32) (finishReason : String)
  | error (code message : String) (retryable : Bool)
deriving DecidableEq

/-- `MAX_ASSISTANT_OUTPUT_BYTES`. -/
def maxAssistantOutputBytes : Nat := 1024 * 1024

/-- What the loop waits for beside its cancel handle: the deadline of the stream, the idle timeout,
the end of the response, or an item of it. An error comes with its code, its message and whether
it is retryable. -/
inductive Next where
  | deadline
  | idle
  | ended
  | item (delta : StreamDelta)
  | failed (code message : String) (retryable : Bool)
deriving DecidableEq

structure AssistantRow where
  content : String
  tokensIn : UInt32
  tokensOut : UInt32
  finishReason : String
deriving DecidableEq

structure Generator where
  buffer : String
  tokensIn : UInt32
  tokensOut : UInt32
  finishReason : String
  errored : Bool
  cancelled : Bool
  finished : Bool
  persisted : Option AssistantRow
deriving DecidableEq

namespace Generator

def start : Generator :=
  ⟨"", 0, 0, "stop", false, false, false, none⟩

variable (generator : Generator)

/-- The end of the loop: the partial response is persisted, and a complete one is announced. -/
def finalize : Generator × List SseFrame :=
  let persistReason :=
    if generator.errored then "error"
    else if generator.cancelled then "interrupted"
    else generator.finishReason
  ({ generator with
      finished := true
      persisted :=
        if generator.buffer = "" then none
        else some ⟨generator.buffer, generator.tokensIn, generator.tokensOut, persistReason⟩ },
    if generator.errored || generator.cancelled then []
    else [.messageStop generator.tokensIn generator.tokensOut generator.finishReason])

def abort (code message : String) (retryable : Bool) : Generator × List SseFrame :=
  let (after, frames) := { generator with errored := true, finishReason := "error" }.finalize
  (after, .error code message retryable :: frames)

/-- One turn of the loop. The cancel handle comes first. -/
def poll (woken : Bool) (next : Next) : Generator × List SseFrame :=
  if generator.finished then (generator, [])
  else if woken then
    { generator with cancelled := true, finishReason := "interrupted" }.finalize
  else
    match next with
    | .deadline =>
        generator.abort "stream_duration_exceeded"
          "The model response took too long. Please try a smaller request." false
    | .idle => generator.abort "timeout" "provider stopped responding — try again" true
    | .ended => generator.finalize
    | .item (.text text) =>
        if maxAssistantOutputBytes - generator.buffer.utf8ByteSize < text.utf8ByteSize then
          generator.abort "response_size_exceeded"
            "The model response is too large. Please ask for a smaller response." false
        else ({ generator with buffer := generator.buffer ++ text }, [.delta text])
    | .item (.usage inputTokens outputTokens) =>
        ({ generator with tokensIn := inputTokens, tokensOut := outputTokens }, [])
    | .item (.done reason) => { generator with finishReason := reason }.finalize
    | .failed code message retryable => generator.abort code message retryable

end Generator

inductive Receiver where
  | waiting
  | signalled
  | orphaned
deriving DecidableEq, Repr

def Receiver.woken : Receiver → Bool
  | .waiting => false
  | _ => true

/-- Where `send_prompt` and its stream stand: in `PromptService::stream`; with a stream that is not
registered; with one that was handed out; or at the end, by an error or the drop of the stream. -/
inductive Stage where
  | building
  | built
  | running (receiver : Receiver) (generator : Generator)
  | concluded
deriving DecidableEq

def Stage.isRunning : Stage → Bool
  | .running _ _ => true
  | _ => false

def Stage.waits : Stage → Bool
  | .running .waiting _ => true
  | _ => false

structure Prompt where
  agentId : Uuid
  stage : Stage
deriving DecidableEq

inductive Action where
  | prompt (agentId : Uuid)
  | build (i : Nat) (succeeds : Bool)
  | register (i : Nat)
  | poll (i : Nat) (next : Next)
  | interrupt (agentId : Uuid)
  | drop (i : Nat)
deriving DecidableEq

/-- The prompts in the order in which they were sent, and for each agent the prompt whose sender
`inflight_prompts` holds. -/
structure World where
  prompts : List Prompt
  inflight : Uuid → Option Nat

namespace World

variable (world : World)

def setStage (i : Nat) (agentId : Uuid) (stage : Stage) : World :=
  { world with prompts := world.prompts.set i ⟨agentId, stage⟩ }

def wake (receiver : Receiver) (i : Nat) : World :=
  match world.prompts[i]? with
  | some ⟨agentId, .running .waiting generator⟩ =>
      world.setStage i agentId (.running receiver generator)
  | _ => world

def unregister (agentId : Uuid) : World :=
  { world with inflight := Function.update world.inflight agentId none }

def remove (agentId : Uuid) (receiver : Receiver) : World :=
  match world.inflight agentId with
  | some i => (world.unregister agentId).wake receiver i
  | none => world

/-- `register_inflight_stream`: a busy agent refuses the stream. -/
def register (i : Nat) (agentId : Uuid) : World :=
  if (world.inflight agentId).isSome then world.setStage i agentId .concluded
  else
    { world.setStage i agentId (.running .waiting .start) with
      inflight := Function.update world.inflight agentId (some i) }

def exec : Action → World
  | .prompt agentId => { world with prompts := world.prompts ++ [⟨agentId, .building⟩] }
  | .build i succeeds =>
      match world.prompts[i]? with
      | some ⟨agentId, .building⟩ =>
          world.setStage i agentId (if succeeds then .built else .concluded)
      | _ => world
  | .register i =>
      match world.prompts[i]? with
      | some ⟨agentId, .built⟩ => world.register i agentId
      | _ => world
  | .poll i next =>
      match world.prompts[i]? with
      | some ⟨agentId, .running receiver generator⟩ =>
          world.setStage i agentId
            (.running receiver (generator.poll receiver.woken next).1)
      | _ => world
  | .interrupt agentId => world.remove agentId .signalled
  | .drop i =>
      match world.prompts[i]? with
      | some ⟨agentId, .running _ _⟩ =>
          -- the guard of the stream removes whatever the map holds for the agent
          (world.setStage i agentId .concluded).remove agentId .orphaned
      | _ => world

end World

end Forge.PromptStreams
