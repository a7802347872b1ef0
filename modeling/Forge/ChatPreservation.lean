import Forge.PromptTranscript
import Forge.ProviderBodies

/-! When the bodies of the three providers carry the conversation of a chat request. -/

namespace Forge.ChatPreservation

open Forge.Library.JsonDocument
open Forge.PromptRequests (ChatMessage ContentBlock MessageContent)
open Forge.ProviderBodies

section Conversations

inductive Speaker where
  | user | assistant
deriving DecidableEq

structure Image where
  mediaType : String
  data : String
deriving DecidableEq

inductive Piece (ι : Type) where
  | text (text : String)
  | image (image : ι)
deriving DecidableEq

structure Turn (ι : Type) where
  speaker : Speaker
  pieces : List (Piece ι)
deriving DecidableEq

variable {ι κ : Type}

def Piece.map (picture : ι → κ) : Piece ι → Piece κ
  | .text said => .text said
  | .image shown => .image (picture shown)

def Turn.map (picture : ι → κ) (turn : Turn ι) : Turn κ :=
  ⟨turn.speaker, turn.pieces.map (Piece.map picture)⟩

def piece : ContentBlock → Piece Image
  | .text text => .text text
  | .image mediaType data => .image ⟨mediaType, data⟩

def pieces : MessageContent → List (Piece Image)
  | .text text => [.text text]
  | .blocks blocks => blocks.map piece

def speaker (role : String) : Speaker := if role = "assistant" then .assistant else .user

def turn (m : ChatMessage) : Turn Image := ⟨speaker m.role, pieces m.content⟩

def conversation (messages : List ChatMessage) : List (Turn Image) :=
  (messages.filter fun m => !isSystem m).map turn

def texts : MessageContent → List String
  | .text text => [text]
  | .blocks blocks => blocks.filterMap ContentBlock.text?

def systemTexts (messages : List ChatMessage) : List String :=
  (messages.filter isSystem).flatMap fun m => texts m.content

def Spoken (messages : List ChatMessage) : Prop :=
  ∀ m ∈ messages, m.role = "system" ∨ m.role = "user" ∨ m.role = "assistant"

end Conversations

section Readers

def str (document : Json) (key : String) : Option String := (document.get key).bind Json.asStr

def items (document : Json) (key : String) : Option (List Json) :=
  (document.get key).bind Json.asArray

def readSpeaker (assistant : String) (role : String) : Option Speaker :=
  if role = assistant then some .assistant else if role = "user" then some .user else none

def readContent {ι : Type} (readPart : Json → Option (Piece ι)) : Json → Option (List (Piece ι))
  | .string text => some [.text text]
  | .array parts => parts.mapM readPart
  | _ => none

structure Shape (ι : Type) where
  picture : Image → ι
  turns : Json → Option (List (Turn ι))
  systems : Json → List String

def readMessage {ι : Type} (readPart : Json → Option (Piece ι)) (message : Json) :
    Option (Turn ι) := do
  let speaker ← readSpeaker "assistant" (← str message "role")
  let pieces ← readContent readPart (← message.get "content")
  return ⟨speaker, pieces⟩

namespace Anthropic

def readPart (part : Json) : Option (Piece Image) := do
  match ← str part "type" with
  | "text" => return .text (← str part "text")
  | "image" =>
      let source ← part.get "source"
      return .image ⟨← str source "media_type", ← str source "data"⟩
  | _ => none

def messages : Shape Image where
  picture := id
  turns body := do (← items body "messages").mapM (readMessage readPart)
  systems body := (str body "system").toList

end Anthropic

namespace Gemini

def readPart (part : Json) : Option (Piece Image) :=
  match str part "text" with
  | some text => some (.text text)
  | none => do
      let image ← part.get "inline_data"
      return .image ⟨← str image "mime_type", ← str image "data"⟩

def readTurn (content : Json) : Option (Turn Image) := do
  let speaker ← readSpeaker "model" (← str content "role")
  let pieces ← (← items content "parts").mapM readPart
  return ⟨speaker, pieces⟩

def contents : Shape Image where
  picture := id
  turns body := do (← items body "contents").mapM readTurn
  systems body :=
    (((body.get "systemInstruction").bind fun sys => items sys "parts").getD []).filterMap
      fun part => str part "text"

end Gemini

namespace OpenAi

def readPart (part : Json) : Option (Piece String) := do
  match ← str part "type" with
  | "text" => return .text (← str part "text")
  | "image_url" => return .image (← str (← part.get "image_url") "url")
  | _ => none

def ofSystem (message : Json) : Bool := str message "role" = some "system"

def shownTexts : Json → List String
  | .string text => [text]
  | .array parts => parts.filterMap fun part => str part "text"
  | _ => []

def messages : Shape String where
  picture image := OpenAi.dataUrl image.mediaType image.data
  turns body := do
    ((← items body "messages").filter fun message => !ofSystem message).mapM
      (readMessage readPart)
  systems body :=
    (((items body "messages").getD []).filter ofSystem).flatMap fun message =>
      ((message.get "content").map shownTexts).getD []

end OpenAi

end Readers

section Statements

/-- A body says what the messages say, and shows every text of the system messages. -/
structure Carries {ι : Type} (shape : Shape ι) (messages : List ChatMessage) (body : Json) :
    Prop where
  turns : shape.turns body = some ((conversation messages).map (Turn.map shape.picture))
  systems : ∀ text ∈ systemTexts messages, ∃ shown ∈ shape.systems body,
    text.toList <:+: shown.toList

/-- The conversation reaches each of the providers. -/
structure Preserved (request : ChatRequest) : Prop where
  anthropicStream : Carries Anthropic.messages request.messages (Anthropic.streamBody request)
  anthropicChat : Carries Anthropic.messages request.messages (Anthropic.chatBody request)
  gemini : Carries Gemini.contents request.messages (Gemini.streamBody request)
  openaiStream : Carries OpenAi.messages request.messages (OpenAi.streamBody request)
  openaiChat : Carries OpenAi.messages request.messages (OpenAi.chatBody request)

def Restated (messages : List ChatMessage) : Prop :=
  ∀ text ∈ systemTexts messages, ∃ last ∈ (messages.filter isSystem).getLast?,
    text.toList <:+: last.content.toTextLossy.toList

end Statements

section Turns

variable {ι : Type}

theorem mapM_rendered {α β : Type} {render : α → Json} {read : Json → Option β} {view : α → β}
    {list : List α} (each : ∀ one ∈ list, read (render one) = some (view one)) :
    (list.map render).mapM read = some (list.map view) := by
  induction list with
  | nil => rfl
  | cons one rest ih =>
      have first := each one List.mem_cons_self
      have others := ih fun other member => each other (List.mem_cons_of_mem _ member)
      simp [List.mapM_cons, first, others]

theorem readPart_anthropicBlock (block : ContentBlock) :
    Anthropic.readPart (Anthropic.anthropicBlock block) = some (piece block) := by
  cases block with
  | text text => rfl
  | image mediaType data => rfl

theorem readPart_geminiPart (block : ContentBlock) :
    Gemini.readPart (Gemini.geminiPart block) = some (piece block) := by
  cases block with
  | text text => rfl
  | image mediaType data => rfl

theorem readPart_openaiBlock (block : ContentBlock) :
    OpenAi.readPart (OpenAi.openaiBlock block) =
      some ((piece block).map OpenAi.messages.picture) := by
  cases block with
  | text text => rfl
  | image mediaType data => rfl

theorem readContent_anthropicContent (content : MessageContent) :
    readContent Anthropic.readPart (Anthropic.anthropicContent content) =
      some (pieces content) := by
  cases content with
  | text text => rfl
  | blocks blocks => exact mapM_rendered fun block _ => readPart_anthropicBlock block

theorem readParts_geminiParts (content : MessageContent) :
    (Gemini.geminiParts content).mapM Gemini.readPart = some (pieces content) := by
  cases content with
  | text text => rfl
  | blocks blocks => exact mapM_rendered fun block _ => readPart_geminiPart block

theorem readContent_openaiContent (content : MessageContent) :
    readContent OpenAi.readPart (OpenAi.openaiContent content) =
      some ((pieces content).map (Piece.map OpenAi.messages.picture)) := by
  cases content with
  | text text => rfl
  | blocks blocks =>
      rw [pieces, List.map_map]
      exact mapM_rendered fun block _ => readPart_openaiBlock block

theorem readSpeaker_role {role : String} (spoken : role = "user" ∨ role = "assistant") :
    readSpeaker "assistant" role = some (speaker role) := by
  rcases spoken with rfl | rfl
  · rfl
  · rfl

theorem readSpeaker_model {role : String} (spoken : role = "user" ∨ role = "assistant") :
    readSpeaker "model" (if role = "assistant" then "model" else "user") =
      some (speaker role) := by
  rcases spoken with rfl | rfl
  · rfl
  · rfl

theorem readMessage_object {readPart : Json → Option (Piece ι)} {role : String} {content : Json}
    {parts : List (Piece ι)} (spoken : role = "user" ∨ role = "assistant")
    (read : readContent readPart content = some parts) :
    readMessage readPart (.object [("role", .string role), ("content", content)]) =
      some ⟨speaker role, parts⟩ := by
  have named : str (.object [("role", .string role), ("content", content)]) "role" = some role :=
    rfl
  have found : Json.get (.object [("role", .string role), ("content", content)]) "content"
      = some content := rfl
  simp only [readMessage, named, found, bind, Option.bind, readSpeaker_role spoken, read]
  rfl

theorem readTurn_object {m : ChatMessage} (spoken : m.role = "user" ∨ m.role = "assistant") :
    Gemini.readTurn (.object
      [("role", .string (if m.role = "assistant" then "model" else "user")),
        ("parts", .array (Gemini.geminiParts m.content))]) = some (turn m) := by
  unfold Gemini.readTurn
  generalize named : (if m.role = "assistant" then "model" else "user") = role
  have speaks := readSpeaker_model spoken
  rw [named] at speaks
  have label : str (.object [("role", .string role),
      ("parts", .array (Gemini.geminiParts m.content))]) "role" = some role := rfl
  have found : items (.object [("role", .string role),
      ("parts", .array (Gemini.geminiParts m.content))]) "parts"
        = some (Gemini.geminiParts m.content) := rfl
  simp only [label, found, bind, Option.bind, speaks, readParts_geminiParts]
  rfl

theorem spoken_of_kept {messages : List ChatMessage} (spoken : Spoken messages) {m : ChatMessage}
    (kept : m ∈ messages.filter fun m => !isSystem m) :
    m.role = "user" ∨ m.role = "assistant" := by
  obtain ⟨member, other⟩ := List.mem_filter.1 kept
  rcases spoken m member with system | speaks
  · simp [isSystem, system] at other
  · exact speaks

end Turns

section Bodies

variable {request : ChatRequest}

theorem map_id (turns : List (Turn Image)) : turns.map (Turn.map id) = turns := by
  have pieces : Piece.map (id : Image → Image) = id := by
    funext piece
    cases piece with
    | text text => rfl
    | image image => rfl
  have same : Turn.map (id : Image → Image) = id := by
    funext turn
    simp [Turn.map, pieces]
  rw [same, List.map_id]

theorem anthropic_turns (spoken : Spoken request.messages) {body : Json}
    (messages : body.get "messages" =
      some (.array (Anthropic.splitSystem request.messages).2)) :
    Anthropic.messages.turns body =
      some ((conversation request.messages).map (Turn.map Anthropic.messages.picture)) := by
  have listed : items body "messages" = some (Anthropic.splitSystem request.messages).2 := by
    rw [items, messages]
    rfl
  simp only [Anthropic.messages, listed, bind, Option.bind, map_id]
  rw [Anthropic.splitSystem, splitMessages_eq]
  exact mapM_rendered fun m kept =>
    readMessage_object (spoken_of_kept spoken kept) (readContent_anthropicContent m.content)

theorem get_withOptions (systemText : Option String) {body : Json}
    (object : body.isObject = true) :
    (Anthropic.withOptions request systemText body).get "messages" = body.get "messages" ∧
      (Anthropic.withOptions request systemText body).get "system" =
        (systemText.map .string).or (body.get "system") := by
  have field (other : String) := @get_setSome (setSome body "system"
    (systemText.map .string)) (by simpa using object) "temperature" other
      (request.temperature.map temperatureValue)
  simp only [get_setSome object] at field
  exact ⟨field "messages", field "system"⟩

theorem anthropic_systems {body : Json}
    (system : body.get "system" =
      (Anthropic.splitSystem request.messages).1.map .string) :
    Anthropic.messages.systems body =
      ((request.messages.filter isSystem).getLast?.map fun m => m.content.toTextLossy).toList := by
  rw [Anthropic.splitSystem, splitMessages_eq] at system
  dsimp only [Anthropic.messages, str]
  rw [system]
  cases (request.messages.filter isSystem).getLast? with
  | none => rfl
  | some last => rfl

theorem restated_iff {shown : List String}
    (last : shown =
      ((request.messages.filter isSystem).getLast?.map fun m => m.content.toTextLossy).toList) :
    (∀ text ∈ systemTexts request.messages, ∃ said ∈ shown, text.toList <:+: said.toList) ↔
      Restated request.messages := by
  subst last
  unfold Restated
  cases (request.messages.filter isSystem).getLast? with
  | none => simp
  | some last => simp

theorem anthropic_carries_iff (spoken : Spoken request.messages) {body : Json}
    (messages : body.get "messages" =
      some (.array (Anthropic.splitSystem request.messages).2))
    (system : body.get "system" =
      (Anthropic.splitSystem request.messages).1.map .string) :
    Carries Anthropic.messages request.messages body ↔ Restated request.messages := by
  rw [← restated_iff (anthropic_systems system)]
  exact ⟨Carries.systems, fun systems => ⟨anthropic_turns spoken messages, systems⟩⟩

theorem gemini_fields (request : ChatRequest) :
    items (Gemini.streamBody request) "contents" =
        some (Gemini.splitSystemInstruction request.messages).2 ∧
      Gemini.contents.systems (Gemini.streamBody request) =
        (Gemini.splitSystemInstruction request.messages).1.toList := by
  unfold Gemini.streamBody
  obtain ⟨systemText, contents⟩ := Gemini.splitSystemInstruction request.messages
  cases systemText with
  | none => exact ⟨rfl, rfl⟩
  | some sys => exact ⟨rfl, rfl⟩

theorem gemini_carries_iff (spoken : Spoken request.messages) :
    Carries Gemini.contents request.messages (Gemini.streamBody request) ↔
      Restated request.messages := by
  obtain ⟨contents, systems⟩ := gemini_fields request
  rw [Gemini.splitSystemInstruction, splitMessages_eq] at contents systems
  rw [← restated_iff systems]
  refine ⟨Carries.systems, fun systems => ⟨?_, systems⟩⟩
  simp only [Gemini.contents, contents, bind, Option.bind, map_id]
  exact mapM_rendered fun m kept => readTurn_object (spoken_of_kept spoken kept)

theorem ofSystem_openaiMessage (m : ChatMessage) :
    OpenAi.ofSystem (OpenAi.openaiMessage m) = isSystem m := by
  have named : str (OpenAi.openaiMessage m) "role" = some m.role := rfl
  simp [OpenAi.ofSystem, named, isSystem]

theorem shownTexts_openaiContent (content : MessageContent) :
    OpenAi.shownTexts (OpenAi.openaiContent content) = texts content := by
  cases content with
  | text text => rfl
  | blocks blocks =>
      have each (block : ContentBlock) :
          str (OpenAi.openaiBlock block) "text" = block.text? := by
        cases block with
        | text text => rfl
        | image mediaType data => rfl
      simp [OpenAi.shownTexts, OpenAi.openaiContent, texts, List.filterMap_map, each]

theorem openai_messages {body : Json} (object : body.isObject = true) :
    (OpenAi.withOptions request body).get "messages" = body.get "messages" := by
  have field := @get_setSome (setSome body "max_tokens" (request.maxTokens.map count))
    (by simpa using object) "temperature" "messages" (request.temperature.map temperatureValue)
  simp only [get_setSome object] at field
  exact field

theorem openai_carries (spoken : Spoken request.messages) {body : Json}
    (messages : body.get "messages" =
      some (.array (OpenAi.openaiMessages request.messages))) :
    Carries OpenAi.messages request.messages body := by
  have listed : items body "messages" = some (OpenAi.openaiMessages request.messages) := by
    rw [items, messages]
    rfl
  have kept : (OpenAi.openaiMessages request.messages).filter
      (fun message => !OpenAi.ofSystem message) =
        (request.messages.filter fun m => !isSystem m).map OpenAi.openaiMessage := by
    rw [OpenAi.openaiMessages, List.filter_map]
    simp [Function.comp_def, ofSystem_openaiMessage]
  have systems : (OpenAi.openaiMessages request.messages).filter OpenAi.ofSystem =
      (request.messages.filter isSystem).map OpenAi.openaiMessage := by
    rw [OpenAi.openaiMessages, List.filter_map]
    simp [Function.comp_def, ofSystem_openaiMessage]
  constructor
  · simp only [OpenAi.messages, listed, bind, Option.bind, kept, conversation, List.map_map]
    exact mapM_rendered fun m kept =>
      readMessage_object (spoken_of_kept spoken kept) (readContent_openaiContent m.content)
  · intro text member
    refine ⟨text, ?_, List.infix_rfl⟩
    obtain ⟨m, there, inside⟩ := List.mem_flatMap.1 member
    simp only [OpenAi.messages, listed, Option.getD_some, systems]
    refine List.mem_flatMap.2 ⟨_, List.mem_map_of_mem there, ?_⟩
    rw [← shownTexts_openaiContent] at inside
    exact inside

theorem anthropicStream_iff (spoken : Spoken request.messages) :
    Carries Anthropic.messages request.messages (Anthropic.streamBody request) ↔
      Restated request.messages :=
  anthropic_carries_iff spoken (get_withOptions _ rfl).1
    ((get_withOptions _ rfl).2.trans (Option.or_none ..))

theorem anthropicChat_iff (spoken : Spoken request.messages) :
    Carries Anthropic.messages request.messages (Anthropic.chatBody request) ↔
      Restated request.messages :=
  anthropic_carries_iff spoken (get_withOptions _ rfl).1
    ((get_withOptions _ rfl).2.trans (Option.or_none ..))

theorem preserved_of_restated (spoken : Spoken request.messages)
    (restated : Restated request.messages) : Preserved request where
  anthropicStream := (anthropicStream_iff spoken).2 restated
  anthropicChat := (anthropicChat_iff spoken).2 restated
  gemini := (gemini_carries_iff spoken).2 restated
  openaiStream := openai_carries spoken (openai_messages rfl)
  openaiChat := openai_carries spoken (openai_messages rfl)

end Bodies

section Single

variable {messages : List ChatMessage}

theorem infix_intercalate {separator text : String} {list : List String} (member : text ∈ list) :
    text.toList <:+: (separator.intercalate list).toList := by
  induction list with
  | nil => cases member
  | cons first rest ih =>
      by_cases empty : rest = []
      · subst empty
        obtain rfl := List.mem_singleton.1 member
        simp
      · rw [String.intercalate_cons_of_ne_nil empty, String.toList_append, String.toList_append]
        rcases List.mem_cons.1 member with rfl | later
        · exact ⟨[], _, by rw [List.nil_append, List.append_assoc]⟩
        · exact (ih later).trans (List.suffix_append _ _).isInfix

theorem infix_toTextLossy {text : String} {content : MessageContent}
    (member : text ∈ texts content) : text.toList <:+: content.toTextLossy.toList := by
  cases content with
  | text said =>
      obtain rfl := List.mem_singleton.1 member
      exact List.infix_rfl
  | blocks blocks => exact infix_intercalate member

theorem restated_of_single (single : (messages.filter isSystem).length ≤ 1) :
    Restated messages := by
  intro text member
  obtain ⟨m, there, inside⟩ := List.mem_flatMap.1 member
  have only : messages.filter isSystem = [m] := by
    obtain ⟨one, same⟩ := List.length_eq_one_iff.1
      (Nat.le_antisymm single (List.length_pos_of_mem there))
    rw [same] at there ⊢
    rw [List.mem_singleton.1 there]
  exact ⟨m, by rw [only]; rfl, infix_toTextLossy inside⟩

end Single

section Prompts

open Forge.Library.Fallible (bind_eq_ok)
open Forge.PromptHistory
open Forge.PromptTranscript (converse_eq_ok)
open Forge.PromptRequests (AgentMessage Answers Request Stream attachImages buildHistory chatRequest
  converse list)

def ofPrompt (request : PromptRequests.ChatRequest) : ChatRequest :=
  ⟨request.model, request.messages, some (.ofNat request.maxTokens), none⟩

theorem roles_attachImages (blocks : List ContentBlock) (messages : List ChatMessage) :
    (attachImages blocks messages).map ChatMessage.role = messages.map ChatMessage.role := by
  induction messages with
  | nil => rfl
  | cons m rest ih =>
      cases rest with
      | nil =>
          rw [attachImages]
          split
          · rfl
          · rfl
      | cons next later =>
          rw [attachImages, List.map_cons, ih, List.map_cons]
          · rfl
          · exact List.cons_ne_nil _ _

theorem roles_buildHistory {rows : List AgentMessage} {systemPrompt model : String}
    {selected : List ChatMessage} (built : buildHistory rows systemPrompt model = .ok selected)
    {role : String} (member : role ∈ selected.map ChatMessage.role) :
    ∃ row ∈ rows, row.role = role := by
  obtain ⟨kept, selects, rendered⟩ := bind_eq_ok.1 built
  cases rendered
  obtain ⟨_, rendered, rfl⟩ := List.mem_map.1 member
  obtain ⟨message, inside, rfl⟩ := List.mem_map.1 rendered
  obtain ⟨row, stored, rfl⟩ := List.mem_map.1
    ((PromptContextPolicy.selectHistory_sound selects).1.subset inside)
  exact ⟨row, stored, rfl⟩

theorem mem_list {request : Request} {history : List AgentMessage} {limit : Nat}
    {row : AgentMessage} (member : row ∈ list request history limit) : row ∈ history :=
  (List.mem_filter.1 (List.mem_reverse.1 (List.mem_of_mem_take (List.mem_reverse.1 member)))).1

/-- What a prompt sends has one system message at most, so no adapter loses a part of it. The rows
of the table have one of two roles. -/
theorem prompt_preserved {request : Request} {answers : Answers} {model : String}
    {systemPrompt : Option String} {blocks : List ContentBlock} {history : List AgentMessage}
    {frames : Stream} (checked : ∀ row ∈ history, row.role = "user" ∨ row.role = "assistant")
    (conversed : converse request answers model systemPrompt blocks history = .ok frames) :
    Preserved (ofPrompt frames.request) := by
  obtain ⟨-, -, -, selected, built, rfl⟩ := converse_eq_ok.1 conversed
  have roles : ∀ m ∈ attachImages blocks selected, m.role = "user" ∨ m.role = "assistant" := by
    intro m member
    have named : m.role ∈ selected.map ChatMessage.role :=
      roles_attachImages blocks selected ▸ List.mem_map_of_mem member
    obtain ⟨row, listed, same⟩ := roles_buildHistory built named
    exact same ▸ checked row (mem_list listed)
  have plain : (attachImages blocks selected).filter isSystem = [] := by
    refine List.filter_eq_nil_iff.2 fun m member => ?_
    rcases roles m member with user | assistant
    · simp [isSystem, user]
    · simp [isSystem, assistant]
  have messages : (chatRequest model (systemPrompt.getD "") (attachImages blocks selected)).messages
      = if systemPrompt.getD "" = "" then attachImages blocks selected
        else ⟨"system", .text (systemPrompt.getD "")⟩ :: attachImages blocks selected := rfl
  apply preserved_of_restated
  · intro m member
    change m ∈ (chatRequest model _ _).messages at member
    rw [messages] at member
    split at member
    · exact .inr (roles m member)
    · rcases List.mem_cons.1 member with rfl | later
      · exact .inl rfl
      · exact .inr (roles m later)
  · apply restated_of_single
    change ((chatRequest model _ _).messages.filter isSystem).length ≤ 1
    rw [messages]
    split
    · rw [plain]
      exact Nat.zero_le 1
    · rw [List.filter_cons, plain]
      split
      · exact Nat.le_refl 1
      · exact Nat.zero_le 1

end Prompts

/-- The three adapters send the conversation of a request exactly when the last system message
holds the texts of all of them. -/
theorem preserved_iff (request : ChatRequest) (spoken : Spoken request.messages) :
    Preserved request ↔ Restated request.messages :=
  ⟨fun preserved => (anthropicStream_iff spoken).1 preserved.anthropicStream,
    preserved_of_restated spoken⟩

def briefed : ChatRequest where
  model := "gpt-4o"
  messages := [⟨"system", .text "be terse"⟩, ⟨"user", .blocks [.text "what is this",
    .image "image/png" "QUJD"]⟩]
  maxTokens := none
  temperature := none

theorem briefed_preserved : Preserved briefed := by
  refine (preserved_iff briefed ?_).2 (restated_of_single (by decide))
  unfold Spoken
  decide

def instructedTwice : ChatRequest where
  model := "claude-sonnet-4-6"
  messages := [⟨"system", .text "be terse"⟩, ⟨"system", .text "be polite"⟩, ⟨"user", .text "hi"⟩]
  maxTokens := none
  temperature := none

theorem instructedTwice_loses : ¬Preserved instructedTwice := by
  intro preserved
  obtain ⟨shown, member, inside⟩ :=
    preserved.anthropicStream.systems "be terse" (by decide)
  obtain rfl : shown = "be polite" := List.mem_singleton.1 member
  revert inside
  decide

end Forge.ChatPreservation
