import Forge.Library.Base64
import Forge.PromptHistory
import Forge.PromptStreams

/-! `send_prompt`: the checks before the prompt is stored, the ones behind it, and the stream that
is handed out, with what each of its turns emits and stores. -/

namespace Forge.PromptRequests

open Forge.Library.Identifier
open Forge.LlmStreams
open Forge.PromptHistory
open Forge.PromptStreams
open Forge.SelfFixDomain (AppError)

structure Agent where
  workspaceId : Uuid
  cliTool : Option String
  provider : Option String
  model : Option String
  systemPrompt : Option String

structure Attachment where
  kind : String
  workspaceId : Option Uuid
  storagePath : String
  contentType : String

structure UserLlmConfigSecret where
  encryptedApiKey : String
  baseUrl : Option String

structure LlmProviderCredential where
  apiKey : String
  baseUrl : Option String

structure LlmProviderBuildConfig where
  providerKey : String
  apiKey : String
  baseUrl : Option String

inductive ContentBlock where
  | text (text : String)
  | image (mediaType data : String)
deriving DecidableEq

inductive MessageContent where
  | text (text : String)
  | blocks (blocks : List ContentBlock)
deriving DecidableEq

def ContentBlock.text? : ContentBlock → Option String
  | .text value => some value
  | .image _ _ => none

def MessageContent.toTextLossy : MessageContent → String
  | .text value => value
  | .blocks members => "\n".intercalate (members.filterMap ContentBlock.text?)

structure ChatMessage where
  role : String
  content : MessageContent
deriving DecidableEq

structure ChatRequest where
  model : String
  messages : List ChatMessage
  maxTokens : Nat
deriving DecidableEq

/-- A row of `agent_messages`. -/
structure AgentMessage where
  id : Uuid
  organizationId : Uuid
  agentId : Uuid
  role : String
  content : String
  tokensIn : Option Int32
  tokensOut : Option Int32
  model : Option String
  finishReason : Option String
deriving DecidableEq

structure Request where
  orgId : Uuid
  agentId : Uuid
  content : String
  images : Option (List String)

/-- What the stores and the services beside the prompt answer in one run. The agent is read twice;
a provider that is not in time has no answer. -/
structure Answers where
  authorizeAgentAction : AppResult Unit
  findById : AppResult Agent
  sendSidecarPrompt : AppResult Unit
  attachment : Uuid → AppResult Attachment
  getBytes : String → AppResult (List UInt8)
  promptId : Uuid
  insertPrompt : AppResult Unit
  list : AppResult Unit
  findByIdAgain : AppResult Agent
  findDefaultSecret : AppResult (Option UserLlmConfigSecret)
  encryptionKey : Option (List UInt8)
  decryptBase64 : List UInt8 → String → Except String String
  providerBaseUrlAllowed : String → Option String → Bool
  buildWithConfig : LlmProviderBuildConfig → Except LlmError Unit
  stream : Option (Except LlmError Unit)
  busy : Bool
  messageId : Uuid
  insertMessage : AppResult Unit

def llmErrorText : LlmError → String
  | .http message => "HTTP error: " ++ message
  | .api status message => "API error: " ++ toString status.toNat ++ " - " ++ message
  | .parse message => "Parse error: " ++ message
  | .notConfigured message => "Provider not configured: " ++ message
  | .notImplemented message => "Not implemented: " ++ message

section Checks

def plainTextAgentPrompt (content : String) (images : Option (List String)) : AppResult Unit :=
  if trim content = "" then .error (.validation "prompt content is required")
  else if (images.getD []).all fun id => (Uuid.parseStr (trim id)).isSome then .ok ()
  else .error (.validation "prompt image must be an attachment UUID")

/-- `PromptContent::parse`. -/
def promptContent (value : String) : AppResult String :=
  if trim value = "" then .error (.validation "prompt content is required") else .ok (trim value)

def requiredModel (model : Option String) : AppResult String :=
  model.elim (.error (.validation "agent has no model configured")) .ok

def requiredProvider (provider : Option String) : AppResult String :=
  provider.elim (.error (.validation "agent has no provider configured")) .ok

def ensureNotBusy (isBusy : Bool) : AppResult Unit :=
  if isBusy then .error (.conflict "agent_busy") else .ok ()

def streamStartTimedOut : AppError :=
  .unavailable "provider did not begin streaming before the timeout — try again"

def streamConstructionFailed (err : LlmError) : AppError :=
  let unavailable := .unavailable "provider connection failed — try again"
  match err with
  | .http _ => unavailable
  | .api status _ =>
      if 500 ≤ status ∧ status ≤ 599 then unavailable else .internal (llmErrorText err)
  | _ => .internal (llmErrorText err)

def ensureProviderBaseUrlAllowed (allowed : Bool) : AppResult Unit :=
  if allowed then .ok ()
  else .error (.validation
    "provider base URL host is not allowed (private, loopback, or metadata address)")

end Checks

section Images

def maxInstructionImages : Nat := 8

def openaiVisionPrefixes : List String := ["gpt-4o", "gpt-4-turbo", "gpt-4.1", "gpt-5"]

def toAsciiLowercase (text : String) : String := String.ofList (text.toList.map Char.toLower)

def modelSupportsImage (provider model : String) : Bool :=
  let provider := toAsciiLowercase (trim provider)
  let model := toAsciiLowercase (trim model)
  if provider = "anthropic" ∨ provider = "google" ∨ provider = "gemini" then true
  else if provider = "openai" then
    openaiVisionPrefixes.any fun family => decide (family.toList <+: model.toList)
  else false

variable (answers : Answers)

def resolveImage (agent : Agent) (id : String) : AppResult ContentBlock := do
  let uuid ← (Uuid.parseStr (trim id)).elim
    (.error (.validation "image attachment id must be a UUID")) .ok
  let attachment ← answers.attachment uuid
  if attachment.kind ≠ "image" then
    .error (.validation ("attachment " ++ uuid.toText ++ " is not an image"))
  else if attachment.workspaceId ≠ some agent.workspaceId then
    .error (.notFound ("image " ++ uuid.toText))
  else do
    let bytes ← answers.getBytes attachment.storagePath
    .ok (.image attachment.contentType (String.ofList (Forge.Library.Base64.encode bytes)))

def resolveImageBlocks (agent : Agent) (model : String) (imageIds : List String) :
    AppResult (List ContentBlock) := do
  let provider ← agent.provider.elim
    (.error (.validation "agent has no provider for image input")) .ok
  if ¬modelSupportsImage provider model then
    .error (.validation ("model '" ++ model ++ "' on provider '" ++ provider
      ++ "' does not support image input"))
  else if imageIds.length > maxInstructionImages then
    .error (.validation ("at most " ++ toString maxInstructionImages
      ++ " images may be attached to one instruction"))
  else imageIds.mapM (resolveImage answers agent)

def imageBlocks (agent : Agent) (model : String) (images : List String) :
    AppResult (List ContentBlock) :=
  if images ≠ [] then resolveImageBlocks answers agent model images else .ok []

end Images

section Stream

variable (request : Request) (answers : Answers)

/-- `MessageRepository::list`: the newest messages of the agent, in the order they were stored. -/
def list (history : List AgentMessage) (limit : Nat) : List AgentMessage :=
  ((history.filter fun message =>
    message.organizationId = request.orgId ∧ message.agentId = request.agentId).reverse.take
      limit).reverse

def buildHistory (allMsgs : List AgentMessage) (systemPrompt model : String) :
    AppResult (List ChatMessage) := do
  let kept ← (promptContextPolicy model).selectHistory
    (allMsgs.map fun message => ⟨message.role, message.content⟩) systemPrompt
  .ok (kept.map fun message => ⟨message.role, .text message.content⟩)

def attachImages (imageBlocks : List ContentBlock) : List ChatMessage → List ChatMessage
  | [] => []
  | [last] =>
      if imageBlocks = [] then [last]
      else [{ last with content := .blocks (.text last.content.toTextLossy :: imageBlocks) }]
  | message :: rest => message :: attachImages imageBlocks rest

def chatRequest (model systemPrompt : String) (history : List ChatMessage) : ChatRequest where
  model := model
  messages :=
    if systemPrompt = "" then history else ⟨"system", .text systemPrompt⟩ :: history
  maxTokens := (promptContextPolicy model).outputTokenBudget

/-- `UserLlmConfigKeyResolver::resolve`. -/
def resolve (provider : String) : AppResult LlmProviderCredential := do
  let secret ← answers.findDefaultSecret
  if provider = "ollama" then .ok ⟨"", secret.bind UserLlmConfigSecret.baseUrl⟩
  else do
    let secret ← secret.elim
      (.error (.validation ("no API key configured for provider '" ++ provider
        ++ "' — add one in LLM settings"))) .ok
    let key ← answers.encryptionKey.elim
      (.error (.internal "LLM_ENCRYPTION_KEY not configured")) .ok
    let apiKey ← (answers.decryptBase64 key secret.encryptedApiKey).mapError fun err =>
      .internal ("decrypt api_key failed: " ++ err)
    .ok ⟨apiKey, secret.baseUrl⟩

def reach : AppResult Unit := do
  let agent ← answers.findByIdAgain
  let providerName ← requiredProvider agent.provider
  let credential ← resolve answers providerName
  ensureProviderBaseUrlAllowed (answers.providerBaseUrlAllowed providerName credential.baseUrl)
  let config := ⟨providerName, credential.apiKey, credential.baseUrl⟩
  (answers.buildWithConfig config).mapError fun err => .validation (llmErrorText err)

def startStream : AppResult Unit :=
  match answers.stream with
  | some result => result.mapError streamConstructionFailed
  | none => .error streamStartTimedOut

structure Stream where
  messageId : Uuid
  model : String
  request : ChatRequest

/-- `PromptService::stream` from the list of the messages on. -/
def converse (model : String) (systemPrompt : Option String) (imageBlocks : List ContentBlock)
    (history : List AgentMessage) : AppResult Stream := do
  answers.list
  let sys := systemPrompt.getD ""
  let selected ← buildHistory (list request history 1000) sys model
  let req := chatRequest model sys (attachImages imageBlocks selected)
  reach answers
  startStream answers
  .ok ⟨answers.messageId, model, req⟩

def promptRow (content : String) : AgentMessage where
  id := answers.promptId
  organizationId := request.orgId
  agentId := request.agentId
  role := "user"
  content := content
  tokensIn := none
  tokensOut := none
  model := none
  finishReason := none

/-- `PromptService::stream`, with the messages it leaves behind. -/
def stream (model : String) (systemPrompt : Option String) (imageBlocks : List ContentBlock)
    (history : List AgentMessage) : AppResult Stream × List AgentMessage :=
  match promptContent request.content with
  | .error err => (.error err, history)
  | .ok content =>
      match answers.insertPrompt with
      | .error err => (.error err, history)
      | .ok () =>
          let stored := history ++ [promptRow request answers content]
          (converse request answers model systemPrompt imageBlocks stored, stored)

inductive AgentPromptDispatch where
  | sidecar
  | providerStream (frames : Stream)

/-- Where the checks of `send_prompt` before the stream lead. -/
inductive Plan where
  | sidecar
  | provider (model : String) (systemPrompt : Option String) (imageBlocks : List ContentBlock)

def plan : AppResult Plan := do
  answers.authorizeAgentAction
  plainTextAgentPrompt request.content request.images
  let agent ← answers.findById
  let images := request.images.getD []
  match agent.cliTool with
  | some _ =>
      if images ≠ [] then
        .error (.validation ("images are not supported for a CLI agent's quick message; "
          ++ "attach them to a task instead"))
      else do
        answers.sendSidecarPrompt
        .ok .sidecar
  | none => do
      let model ← requiredModel agent.model
      let imageBlocks ← imageBlocks answers agent model images
      .ok (.provider model agent.systemPrompt imageBlocks)

/-- `register_inflight_stream`. -/
def register (frames : Stream) : AppResult AgentPromptDispatch := do
  ensureNotBusy answers.busy
  .ok (.providerStream frames)

def sendPrompt (history : List AgentMessage) :
    AppResult AgentPromptDispatch × List AgentMessage :=
  match plan request answers with
  | .error err => (.error err, history)
  | .ok .sidecar => (.ok .sidecar, history)
  | .ok (.provider model systemPrompt imageBlocks) =>
      let (frames, stored) := stream request answers model systemPrompt imageBlocks history
      (frames.bind (register answers), stored)

end Stream

section Polls

/-- `SseFrame`. -/
inductive StreamFrame where
  | messageStart (messageId : Uuid) (model : String)
  | relayed (frame : SseFrame)
deriving DecidableEq

structure Turn where
  woken : Bool
  next : Next

inductive Effect where
  | emit (frame : StreamFrame)
  | insert (row : AssistantRow)
deriving DecidableEq

def isError : SseFrame → Bool
  | .error _ _ _ => true
  | _ => false

/-- A turn of the loop. An error is emitted before the partial response is stored, and the end of
a response behind it. -/
def turnEffects (generator : Generator) (turn : Turn) : List Effect :=
  let (after, frames) := generator.poll turn.woken turn.next
  let row := if generator.finished then none else after.persisted
  (frames.filter isError).map (fun frame => .emit (.relayed frame))
    ++ row.toList.map .insert
    ++ (frames.filter fun frame => !isError frame).map fun frame => .emit (.relayed frame)

def relay (generator : Generator) : List Turn → List Effect
  | [] => []
  | turn :: rest =>
      turnEffects generator turn ++ relay (generator.poll turn.woken turn.next).1 rest

def Stream.effects (frames : Stream) (turns : List Turn) : List Effect :=
  .emit (.messageStart frames.messageId frames.model) :: relay .start turns

variable (request : Request) (answers : Answers)

/-- `as i32`. -/
def asI32 (count : UInt32) : Int32 := count.toInt32

def assistantRow (frames : Stream) (row : AssistantRow) : AgentMessage where
  id := frames.messageId
  organizationId := request.orgId
  agentId := request.agentId
  role := "assistant"
  content := row.content
  tokensIn := some (asI32 row.tokensIn)
  tokensOut := some (asI32 row.tokensOut)
  model := some frames.model
  finishReason := some row.finishReason

def Effect.frame? : Effect → Option StreamFrame
  | .emit frame => some frame
  | .insert _ => none

def Effect.row? : Effect → Option AssistantRow
  | .emit _ => none
  | .insert row => some row

def persisted (frames : Stream) (effects : List Effect) : List AgentMessage :=
  match answers.insertMessage with
  | .ok () => (effects.filterMap Effect.row?).map (assistantRow request frames)
  | .error _ => []

end Polls

end Forge.PromptRequests
