import Forge.Library.JsonObject
import Forge.PromptRequests

/-! The bodies that the three provider adapters build from a chat request. -/

namespace Forge.ProviderBodies

open Forge.Library.JsonDocument
open Forge.PromptRequests (ChatMessage ContentBlock MessageContent)

structure ChatRequest where
  model : String
  messages : List ChatMessage
  maxTokens : Option UInt32
  temperature : Option (Int × Nat)

def count (tokens : UInt32) : Json := .number tokens.toNat 0

def temperatureValue (temperature : Int × Nat) : Json := .number temperature.1 temperature.2

/-- `body[key] = value`, if there is one. -/
def setSome (body : Json) (key : String) (value : Option Json) : Json :=
  match value with
  | some value => body.insert key value
  | none => body

/-- The loop that takes the system messages out: the text of a system message, and every other
message in the shape of its provider. -/
def splitMessages (render : ChatMessage → Json) (messages : List ChatMessage) :
    Option String × List Json :=
  messages.foldl (fun (systemText, rest) m =>
    if m.role = "system" then (some m.content.toTextLossy, rest)
    else (systemText, rest ++ [render m])) (none, [])

namespace Anthropic

def anthropicBlock : ContentBlock → Json
  | .text text => .object [("type", .string "text"), ("text", .string text)]
  | .image mediaType data => .object [("type", .string "image"), ("source", .object
      [("type", .string "base64"), ("media_type", .string mediaType), ("data", .string data)])]

def anthropicContent : MessageContent → Json
  | .text text => .string text
  | .blocks blocks => .array (blocks.map anthropicBlock)

def splitSystem : List ChatMessage → Option String × List Json :=
  splitMessages fun m =>
    .object [("role", .string m.role), ("content", anthropicContent m.content)]

def withOptions (request : ChatRequest) (systemText : Option String) (body : Json) : Json :=
  setSome (setSome body "system" (systemText.map .string)) "temperature"
    (request.temperature.map temperatureValue)

def streamBody (request : ChatRequest) : Json :=
  let (systemText, messages) := splitSystem request.messages
  withOptions request systemText (.object [("model", .string request.model),
    ("messages", .array messages), ("max_tokens", count (request.maxTokens.getD 4096)),
    ("stream", .bool true)])

def chatBody (request : ChatRequest) : Json :=
  let (systemText, messages) := splitSystem request.messages
  withOptions request systemText (.object [("model", .string request.model),
    ("max_tokens", count (request.maxTokens.getD 4096)), ("messages", .array messages)])

end Anthropic

namespace Gemini

def geminiPart : ContentBlock → Json
  | .text text => .object [("text", .string text)]
  | .image mediaType data => .object [("inline_data", .object
      [("mime_type", .string mediaType), ("data", .string data)])]

def geminiParts : MessageContent → List Json
  | .text text => [.object [("text", .string text)]]
  | .blocks blocks => blocks.map geminiPart

def splitSystemInstruction : List ChatMessage → Option String × List Json :=
  splitMessages fun m =>
    .object [("role", .string (if m.role = "assistant" then "model" else "user")),
      ("parts", .array (geminiParts m.content))]

def streamBody (request : ChatRequest) : Json :=
  let (systemText, contents) := splitSystemInstruction request.messages
  setSome (.object [("contents", .array contents)]) "systemInstruction"
    (systemText.map fun sys => .object [("parts", .array [.object [("text", .string sys)]])])

end Gemini

namespace OpenAi

def dataUrl (mediaType data : String) : String := "data:" ++ mediaType ++ ";base64," ++ data

def openaiBlock : ContentBlock → Json
  | .text text => .object [("type", .string "text"), ("text", .string text)]
  | .image mediaType data => .object [("type", .string "image_url"),
      ("image_url", .object [("url", .string (dataUrl mediaType data))])]

def openaiContent : MessageContent → Json
  | .text text => .string text
  | .blocks blocks => .array (blocks.map openaiBlock)

def openaiMessage (message : ChatMessage) : Json :=
  .object [("role", .string message.role), ("content", openaiContent message.content)]

def openaiMessages (messages : List ChatMessage) : List Json := messages.map openaiMessage

def withOptions (request : ChatRequest) (body : Json) : Json :=
  setSome (setSome body "max_tokens" (request.maxTokens.map count)) "temperature"
    (request.temperature.map temperatureValue)

def streamBody (request : ChatRequest) : Json :=
  withOptions request (.object [("model", .string request.model),
    ("messages", .array (openaiMessages request.messages)), ("stream", .bool true),
    ("stream_options", .object [("include_usage", .bool true)])])

def chatBody (request : ChatRequest) : Json :=
  withOptions request (.object [("model", .string request.model),
    ("messages", .array (openaiMessages request.messages))])

end OpenAi

section Split

variable {render : ChatMessage → Json}

def isSystem (m : ChatMessage) : Bool := m.role = "system"

theorem splitMessages_eq (messages : List ChatMessage) :
    splitMessages render messages =
      ((messages.filter isSystem).getLast?.map fun m => m.content.toTextLossy,
        (messages.filter fun m => !isSystem m).map render) := by
  induction messages using List.reverseRecOn with
  | nil => rfl
  | append_singleton front m ih =>
      unfold splitMessages at ih ⊢
      rw [List.foldl_append, ih, List.filter_append, List.filter_append]
      by_cases system : m.role = "system"
      · simp [system, isSystem]
      · simp [system, isSystem]

theorem get_setSome {body : Json} (object : body.isObject = true) (key other : String)
    (value : Option Json) :
    (setSome body key value).get other =
      if other = key then value.or (body.get other) else body.get other := by
  cases value with
  | none => simp [setSome]
  | some value => simpa [setSome] using Json.get_insert object key other value

@[simp] theorem isObject_setSome (body : Json) (key : String) (value : Option Json) :
    (setSome body key value).isObject = body.isObject := by
  cases value with
  | none => rfl
  | some value => exact Json.isObject_insert body key value

end Split

end Forge.ProviderBodies
