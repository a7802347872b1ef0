import Forge.Library.Fallible
import Forge.PromptRequests

/-! What a run of `send_prompt` leaves behind: the messages that were stored when it fails, and the
frames and the stored response when it hands out a stream. -/

namespace Forge.PromptTranscript

open Forge.Library.Fallible
open Forge.Library.Identifier
open Forge.LlmStreams
open Forge.PromptHistory
open Forge.PromptRequests
open Forge.PromptStreams
open Forge.SelfFixDomain (AppError)

section Course

inductive Ending where
  | interrupted
  | errored
  | completed (finishReason : String)

def Ending.reason : Ending → String
  | .interrupted => "interrupted"
  | .errored => "error"
  | .completed finishReason => finishReason

def text (turn : Turn) : Option String :=
  match turn.next with
  | .item (.text text) => some text
  | _ => none

def usage (turn : Turn) : Option (UInt32 × UInt32) :=
  match turn.next with
  | .item (.usage inputTokens outputTokens) => some (inputTokens, outputTokens)
  | _ => none

/-- How a turn ends the response when so many bytes of it were relayed. A response that ends
without a reason has stopped. -/
def ending (relayed : Nat) (turn : Turn) : Option Ending :=
  if turn.woken then some .interrupted
  else
    match turn.next with
    | .deadline | .idle | .failed _ _ _ => some .errored
    | .ended => some (.completed "stop")
    | .item (.done reason) => some (.completed reason)
    | .item (.text text) =>
        if maxAssistantOutputBytes - relayed < text.utf8ByteSize then some .errored else none
    | .item (.usage _ _) => none

def size (turn : Turn) : Nat := ((text turn).map String.utf8ByteSize).getD 0

def passed (relayed : Nat) : List Turn → List Turn
  | [] => []
  | turn :: rest =>
      if (ending relayed turn).isSome then [] else turn :: passed (relayed + size turn) rest

def conclusion (relayed : Nat) : List Turn → Option Ending
  | [] => none
  | turn :: rest => (ending relayed turn).or (conclusion (relayed + size turn) rest)

def texts (turns : List Turn) : List String := turns.filterMap text

def lastUsage (before : UInt32 × UInt32) (turns : List Turn) : UInt32 × UInt32 :=
  (turns.filterMap usage).getLast?.getD before

end Course

section Runs

structure Run where
  request : Request
  answers : Answers
  history : List AgentMessage
  turns : List Turn
  /-- After how many effects the stream is dropped, if it is not polled on. -/
  dropped : Option Nat

def emitted (effects : List Effect) : List StreamFrame := effects.filterMap Effect.frame?

def delta : StreamFrame → Option String
  | .relayed (.delta text) => some text
  | _ => none

def toFrame (text : String) : StreamFrame := .relayed (.delta text)

namespace Run

variable (run : Run)

def sent : AppResult AgentPromptDispatch × List AgentMessage :=
  sendPrompt run.request run.answers run.history

def effects (frames : Stream) : List Effect :=
  match run.dropped with
  | none => frames.effects run.turns
  | some count => (frames.effects run.turns).take count

def replies (frames : Stream) : List AgentMessage :=
  persisted run.request run.answers frames (run.effects frames)

def usage : UInt32 × UInt32 := lastUsage (0, 0) (passed 0 run.turns)

end Run

/-- The frames behind the deltas. -/
def Closes : Option Ending → List StreamFrame → Prop
  | none, frames => frames = []
  | some .interrupted, frames => frames = []
  | some .errored, frames =>
      ∃ code message retryable, frames = [.relayed (.error code message retryable)]
  | some (.completed finishReason), frames =>
      ∃ tokensIn tokensOut, frames = [.relayed (.messageStop tokensIn tokensOut finishReason)]

/-- A start, deltas, and how the response ended; less of it when the stream is dropped. -/
def Framed (run : Run) (frames : Stream) : Prop :=
  ∃ (said : List String) (closing : List StreamFrame),
    Closes (conclusion 0 run.turns) closing ∧
    emitted (run.effects frames)
      <+: .messageStart frames.messageId frames.model :: (said.map toFrame ++ closing) ∧
    (run.dropped = none →
      emitted (run.effects frames)
        = .messageStart frames.messageId frames.model :: (said.map toFrame ++ closing))

/-- A stored response is the one that was emitted. -/
structure Agrees (run : Run) (frames : Stream) (ending : Ending) (message : AgentMessage) :
    Prop where
  id : (emitted (run.effects frames)).head? = some (.messageStart message.id frames.model)
  content : message.content = String.join ((emitted (run.effects frames)).filterMap delta)
  tokensIn : message.tokensIn.map Int32.toInt = some (run.usage.1.toNat : Int)
  tokensOut : message.tokensOut.map Int32.toInt = some (run.usage.2.toNat : Int)
  reason : message.finishReason = some ending.reason

/-- A request that fails has stored nothing; the frames of a stream are in order, and a stream that
is polled to its end has stored what it emitted. -/
structure Promised (run : Run) : Prop where
  atomic : ∀ err, run.sent.1 = .error err → run.sent.2 = run.history
  framed : ∀ frames, run.sent.1 = .ok (.providerStream frames) → Framed run frames
  agrees : ∀ frames, run.sent.1 = .ok (.providerStream frames) →
    run.dropped = none → ∀ ending, conclusion 0 run.turns = some ending →
      run.answers.insertMessage = .ok () →
        ∀ message ∈ run.replies frames, Agrees run frames ending message

/-- The prompt passes every check before it is stored, and is stored. -/
structure Submitted (request : Request) (answers : Answers) (agent : Agent) (model : String) :
    Prop where
  authorized : answers.authorizeAgentAction = .ok ()
  worded : trim request.content ≠ ""
  identified : ∀ id ∈ request.images.getD [], (Uuid.parseStr (trim id)).isSome = true
  found : answers.findById = .ok agent
  direct : agent.cliTool = none
  configured : agent.model = some model
  pictured : ∃ blocks, imageBlocks answers agent model (request.images.getD []) = .ok blocks
  inserted : answers.insertPrompt = .ok ()

/-- Nothing refuses the prompt any more. -/
structure Unrefused (request : Request) (answers : Answers) (agent : Agent) (model : String) :
    Prop where
  listed : answers.list = .ok ()
  fits : estimateTokens (agent.systemPrompt.getD "") + estimateTokens (trim request.content)
    ≤ (promptContextPolicy model).left
  reached : ∃ again name credential, answers.findByIdAgain = .ok again ∧
    again.provider = some name ∧ resolve answers name = .ok credential ∧
      answers.providerBaseUrlAllowed name credential.baseUrl = true ∧
        answers.buildWithConfig ⟨name, credential.apiKey, credential.baseUrl⟩ = .ok ()
  started : answers.stream = some (.ok ())
  idle : answers.busy = false

def Counted (run : Run) : Prop :=
  run.dropped = none → (conclusion 0 run.turns).isSome = true →
    run.answers.insertMessage = .ok () → (∃ text ∈ texts (passed 0 run.turns), text ≠ "") →
      run.usage.1.toNat < 2 ^ 31 ∧ run.usage.2.toNat < 2 ^ 31

end Runs

section Loop

def running (buffer : String) (usage : UInt32 × UInt32) : Generator :=
  ⟨buffer, usage.1, usage.2, "stop", false, false, false, none⟩

def saved (buffer : String) (usage : UInt32 × UInt32) (reason : String) : List Effect :=
  if buffer = "" then [] else [.insert ⟨buffer, usage.1, usage.2, reason⟩]

/-- What the loop does at its end. -/
def Concludes (buffer : String) (usage : UInt32 × UInt32) : Option Ending → List Effect → Prop
  | none, effects => effects = []
  | some .interrupted, effects => effects = saved buffer usage "interrupted"
  | some .errored, effects => ∃ code message retryable,
      effects = .emit (.relayed (.error code message retryable)) :: saved buffer usage "error"
  | some (.completed reason), effects =>
      effects = saved buffer usage reason
        ++ [.emit (.relayed (.messageStop usage.1 usage.2 reason))]

variable {buffer : String} {counts : UInt32 × UInt32} {turn : Turn}

theorem poll_passed (goes : ending buffer.utf8ByteSize turn = none) :
    (running buffer counts).poll turn.woken turn.next =
      (running (buffer ++ (text turn).getD "") ((usage turn).getD counts),
        (text turn).toList.map .delta) := by
  obtain ⟨woken, next⟩ := turn
  cases woken with
  | true => simp [ending] at goes
  | false =>
      rcases next with _ | _ | _ | (said | ⟨inputTokens, outputTokens⟩ | reason) | _ <;>
        simp [ending] at goes
      · simp [Generator.poll, running, text, usage, Nat.not_lt.2 goes]
      · simp [Generator.poll, running, text, usage]

theorem turnEffects_passed (goes : ending buffer.utf8ByteSize turn = none) :
    turnEffects (running buffer counts) turn =
      (text turn).toList.map fun said => .emit (toFrame said) := by
  unfold turnEffects
  rw [poll_passed goes]
  cases text turn with
  | none => rfl
  | some said => rfl

theorem turnEffects_aborted {code message : String} {retryable : Bool}
    (aborts : (running buffer counts).poll turn.woken turn.next =
      (running buffer counts).abort code message retryable) :
    Concludes buffer counts (some .errored) (turnEffects (running buffer counts) turn) ∧
      ((running buffer counts).poll turn.woken turn.next).1.finished = true := by
  refine ⟨⟨code, message, retryable, ?_⟩, by rw [aborts]; rfl⟩
  unfold turnEffects
  rw [aborts]
  by_cases empty : buffer = "" <;>
    simp [Generator.abort, Generator.finalize, running, saved, List.filter, isError, empty]

theorem turnEffects_finalized {generator : Generator} {reason : String}
    (same : generator = { running buffer counts with finishReason := reason })
    (finalizes : (running buffer counts).poll turn.woken turn.next = generator.finalize) :
    Concludes buffer counts (some (.completed reason)) (turnEffects (running buffer counts) turn) ∧
      ((running buffer counts).poll turn.woken turn.next).1.finished = true := by
  subst same
  refine ⟨?_, by rw [finalizes]; rfl⟩
  unfold turnEffects
  rw [finalizes]
  by_cases empty : buffer = "" <;>
    simp [Generator.finalize, running, Concludes, saved, isError, empty]

theorem turnEffects_ended {ended : Ending}
    (stops : ending buffer.utf8ByteSize turn = some ended) :
    Concludes buffer counts (some ended) (turnEffects (running buffer counts) turn) ∧
      ((running buffer counts).poll turn.woken turn.next).1.finished = true := by
  obtain ⟨woken, next⟩ := turn
  cases woken with
  | true =>
      cases stops
      by_cases empty : buffer = "" <;>
        simp [turnEffects, Generator.poll, Generator.finalize, running, Concludes, saved, empty]
  | false =>
      cases next with
      | deadline => cases stops; exact turnEffects_aborted rfl
      | idle => cases stops; exact turnEffects_aborted rfl
      | ended => cases stops; exact turnEffects_finalized rfl rfl
      | failed code message retryable => cases stops; exact turnEffects_aborted rfl
      | item delta =>
          cases delta with
          | usage inputTokens outputTokens => cases stops
          | done reason => cases stops; exact turnEffects_finalized rfl rfl
          | text said =>
              simp only [ending, Bool.false_eq_true, if_false,
                Option.ite_none_right_eq_some] at stops
              obtain ⟨full, same⟩ := stops
              cases same
              exact turnEffects_aborted (if_pos full)

theorem join_texts_cons (turn : Turn) (rest : List Turn) :
    String.join (texts (turn :: rest)) = (text turn).getD "" ++ String.join (texts rest) := by
  cases said : text turn with
  | none => simp [texts, said]
  | some said' => simp [texts, said]

theorem lastUsage_cons (counts : UInt32 × UInt32) (turn : Turn) (rest : List Turn) :
    lastUsage counts (turn :: rest) = lastUsage ((usage turn).getD counts) rest := by
  cases counted : usage turn with
  | none => simp [lastUsage, counted]
  | some counts' => simp [lastUsage, counted, List.getLast?_cons]

theorem relay_finished {generator : Generator} (finished : generator.finished = true)
    (turns : List Turn) : relay generator turns = [] := by
  induction turns generalizing generator with
  | nil => rfl
  | cons turn rest ih =>
      have idle : generator.poll turn.woken turn.next = (generator, []) := if_pos finished
      simp [relay, turnEffects, idle, finished, ih finished]

theorem relay_running (buffer : String) (counts : UInt32 × UInt32) (turns : List Turn) :
    ∃ closing,
      relay (running buffer counts) turns =
          (texts (passed buffer.utf8ByteSize turns)).map (fun said => .emit (toFrame said))
            ++ closing ∧
        Concludes (buffer ++ String.join (texts (passed buffer.utf8ByteSize turns)))
          (lastUsage counts (passed buffer.utf8ByteSize turns))
          (conclusion buffer.utf8ByteSize turns) closing := by
  induction turns generalizing buffer counts with
  | nil => exact ⟨[], rfl, rfl⟩
  | cons turn rest ih =>
      cases stops : ending buffer.utf8ByteSize turn with
      | some ended =>
          obtain ⟨concludes, finished⟩ := @turnEffects_ended buffer counts turn ended stops
          have none : passed buffer.utf8ByteSize (turn :: rest) = [] := by simp [passed, stops]
          have first : conclusion buffer.utf8ByteSize (turn :: rest) = some ended := by
            simp [conclusion, stops]
          rw [none, first]
          refine ⟨turnEffects (running buffer counts) turn, ?_, ?_⟩
          · simp [relay, relay_finished finished, texts]
          · simpa [texts, lastUsage] using concludes
      | none =>
          obtain ⟨closing, relays, concludes⟩ :=
            ih (buffer ++ (text turn).getD "") ((usage turn).getD counts)
          have grown : (buffer ++ (text turn).getD "").utf8ByteSize
              = buffer.utf8ByteSize + size turn := by
            cases said : text turn with
            | none => simp [size, said]
            | some said' => simp [size, said]
          have more : passed buffer.utf8ByteSize (turn :: rest)
              = turn :: passed (buffer.utf8ByteSize + size turn) rest := by simp [passed, stops]
          have later : conclusion buffer.utf8ByteSize (turn :: rest)
              = conclusion (buffer.utf8ByteSize + size turn) rest := by simp [conclusion, stops]
          rw [grown] at relays concludes
          rw [more, later]
          refine ⟨closing, ?_, ?_⟩
          · rw [relay, turnEffects_passed stops, poll_passed stops, relays]
            cases said : text turn with
            | none => simp [texts, said]
            | some said' => simp [texts, said]
          · rw [String.append_assoc] at concludes
            simpa [join_texts_cons, lastUsage_cons] using concludes

end Loop

section Requests

variable {request : Request} {answers : Answers} {agent : Agent} {model : String}

theorem plainTextAgentPrompt_eq_ok {content : String} {images : Option (List String)} :
    plainTextAgentPrompt content images = .ok () ↔
      trim content ≠ "" ∧ ∀ id ∈ images.getD [], (Uuid.parseStr (trim id)).isSome = true := by
  unfold plainTextAgentPrompt
  split
  · rename_i blank
    exact iff_of_false nofun fun passes => passes.1 blank
  · rename_i worded
    rw [← List.all_eq_true]
    split
    · rename_i identified
      exact iff_of_true rfl ⟨worded, identified⟩
    · rename_i strange
      exact iff_of_false nofun fun passes => strange passes.2

theorem plan_eq_provider {systemPrompt : Option String} {blocks : List ContentBlock} :
    plan request answers = .ok (.provider model systemPrompt blocks) ↔
      answers.authorizeAgentAction = .ok () ∧
        plainTextAgentPrompt request.content request.images = .ok () ∧
          ∃ agent, answers.findById = .ok agent ∧ agent.cliTool = none ∧
            agent.model = some model ∧ agent.systemPrompt = systemPrompt ∧
              imageBlocks answers agent model (request.images.getD []) = .ok blocks := by
  simp only [plan, bind_eq_ok]
  constructor
  · rintro ⟨⟨⟩, authorized, ⟨⟩, worded, agent, found, rest⟩
    refine ⟨authorized, worded, agent, found, ?_⟩
    cases direct : agent.cliTool with
    | some tool =>
        simp only [direct] at rest
        split at rest
        · cases rest
        · obtain ⟨-, -, rest⟩ := bind_eq_ok.1 rest
          cases rest
    | none =>
        simp only [direct] at rest
        obtain ⟨named, configured, rest⟩ := bind_eq_ok.1 rest
        obtain ⟨blocks', pictured, rest⟩ := bind_eq_ok.1 rest
        cases rest
        exact ⟨rfl, elim_eq_ok.1 configured, rfl, pictured⟩
  · rintro ⟨authorized, worded, agent, found, direct, configured, rfl, pictured⟩
    refine ⟨(), authorized, (), worded, agent, found, ?_⟩
    simp only [direct, bind_eq_ok]
    exact ⟨model, elim_eq_ok.2 configured, blocks, pictured, rfl⟩

def stored (request : Request) (answers : Answers) (history : List AgentMessage) :
    List AgentMessage :=
  history ++ [promptRow request answers (trim request.content)]

theorem sendPrompt_of_submitted (submitted : Submitted request answers agent model)
    (history : List AgentMessage) :
    ∃ blocks, sendPrompt request answers history =
      ((converse request answers model agent.systemPrompt blocks
          (stored request answers history)).bind (register answers),
        stored request answers history) := by
  obtain ⟨blocks, pictured⟩ := submitted.pictured
  have planned : plan request answers = .ok (.provider model agent.systemPrompt blocks) :=
    plan_eq_provider.2 ⟨submitted.authorized,
      plainTextAgentPrompt_eq_ok.2 ⟨submitted.worded, submitted.identified⟩, agent,
      submitted.found, submitted.direct, submitted.configured, rfl, pictured⟩
  have worded : promptContent request.content = .ok (trim request.content) :=
    if_neg submitted.worded
  refine ⟨blocks, ?_⟩
  simp only [sendPrompt, planned, stream, worded, submitted.inserted, stored]

theorem sendPrompt_of_not_submitted
    (refused : ∀ agent model, ¬Submitted request answers agent model)
    (history : List AgentMessage) :
    (sendPrompt request answers history).2 = history ∧
      ∀ frames, (sendPrompt request answers history).1 ≠ .ok (.providerStream frames) := by
  cases planned : plan request answers with
  | error err => simp [sendPrompt, planned]
  | ok next =>
      cases next with
      | sidecar => simp [sendPrompt, planned]
      | provider model systemPrompt blocks =>
          obtain ⟨authorized, passes, agent, found, direct, configured, -, pictured⟩ :=
            plan_eq_provider.1 planned
          obtain ⟨worded, identified⟩ := plainTextAgentPrompt_eq_ok.1 passes
          have content : promptContent request.content = .ok (trim request.content) :=
            if_neg worded
          cases inserted : answers.insertPrompt with
          | error err =>
              simp only [sendPrompt, planned, stream, content, inserted, true_and]
              exact nofun
          | ok value =>
              exact absurd ⟨authorized, worded, identified, found, direct, configured,
                ⟨blocks, pictured⟩, inserted⟩ (refused agent model)

theorem list_stored (history : List AgentMessage) :
    ∃ earlier, list request (stored request answers history) 1000 =
      earlier ++ [promptRow request answers (trim request.content)] := by
  refine ⟨list request history 999, ?_⟩
  simp [list, stored, promptRow]

theorem buildHistory_isOk (earlier : List AgentMessage) (newest : AgentMessage)
    (systemPrompt : String) :
    (∃ selected, buildHistory (earlier ++ [newest]) systemPrompt model = .ok selected) ↔
      estimateTokens systemPrompt + estimateTokens newest.content
        ≤ (promptContextPolicy model).left := by
  refine Iff.trans ?_ (PromptContextPolicy.selectHistory_isOk
    (earlier.map fun message => ⟨message.role, message.content⟩) ⟨newest.role, newest.content⟩)
  simp only [buildHistory, List.map_append, List.map_cons, List.map_nil, bind_eq_ok]
  constructor
  · rintro ⟨_, kept, selects, -⟩
    exact ⟨kept, selects⟩
  · rintro ⟨kept, selects⟩
    exact ⟨_, kept, selects, rfl⟩

theorem startStream_eq_ok : startStream answers = .ok () ↔ answers.stream = some (.ok ()) := by
  unfold startStream
  cases answers.stream with
  | none => exact iff_of_false nofun nofun
  | some result => rw [mapError_eq_ok, Option.some_inj]

theorem reach_eq_ok :
    reach answers = .ok () ↔ ∃ again name credential, answers.findByIdAgain = .ok again ∧
      again.provider = some name ∧ resolve answers name = .ok credential ∧
        answers.providerBaseUrlAllowed name credential.baseUrl = true ∧
          answers.buildWithConfig ⟨name, credential.apiKey, credential.baseUrl⟩ = .ok () := by
  have allowed {answer : Bool} :
      ensureProviderBaseUrlAllowed answer = .ok () ↔ answer = true := by
    cases answer with
    | false => exact iff_of_false nofun nofun
    | true => exact iff_of_true rfl rfl
  simp only [reach, requiredProvider, bind_eq_ok, elim_eq_ok, mapError_eq_ok]
  constructor
  · rintro ⟨again, found, name, named, credential, resolved, ⟨⟩, host, built⟩
    exact ⟨again, name, credential, found, named, resolved, allowed.1 host, built⟩
  · rintro ⟨again, name, credential, found, named, resolved, host, built⟩
    exact ⟨again, found, name, named, credential, resolved, (), allowed.2 host, built⟩

theorem converse_eq_ok {systemPrompt : Option String} {blocks : List ContentBlock}
    {messages : List AgentMessage} {frames : Stream} :
    converse request answers model systemPrompt blocks messages = .ok frames ↔
      answers.list = .ok () ∧ reach answers = .ok () ∧ answers.stream = some (.ok ()) ∧
        ∃ selected,
          buildHistory (list request messages 1000) (systemPrompt.getD "") model
            = .ok selected ∧
          ⟨answers.messageId, model, chatRequest model (systemPrompt.getD "")
            (attachImages blocks selected)⟩ = frames := by
  rw [← startStream_eq_ok]
  simp only [converse, bind_eq_ok, Except.ok.injEq]
  constructor
  · rintro ⟨⟨⟩, listed, selected, built, ⟨⟩, reached, ⟨⟩, started, same⟩
    exact ⟨listed, reached, started, selected, built, same⟩
  · rintro ⟨listed, reached, started, selected, built, same⟩
    exact ⟨(), listed, selected, built, (), reached, (), started, same⟩

theorem register_eq_ok {frames frames' : Stream} :
    register answers frames = .ok (.providerStream frames') ↔
      answers.busy = false ∧ frames = frames' := by
  cases busy : answers.busy with
  | true => simp [register, ensureNotBusy, busy, bind, Except.bind]
  | false => simp [register, ensureNotBusy, busy, bind, Except.bind]

theorem handedOut_iff {blocks : List ContentBlock} {history : List AgentMessage}
    {frames : Stream} :
    (converse request answers model agent.systemPrompt blocks
        (stored request answers history)).bind (register answers)
          = .ok (.providerStream frames) ↔
      answers.busy = false ∧
        converse request answers model agent.systemPrompt blocks
          (stored request answers history) = .ok frames := by
  refine bind_eq_ok.trans ⟨?_, ?_⟩
  · rintro ⟨frames', conversed, registered⟩
    obtain ⟨idle, rfl⟩ := register_eq_ok.1 registered
    exact ⟨idle, conversed⟩
  · rintro ⟨idle, conversed⟩
    exact ⟨frames, conversed, register_eq_ok.2 ⟨idle, rfl⟩⟩

theorem converse_isOk (blocks : List ContentBlock) (history : List AgentMessage) :
    (∃ frames, (converse request answers model agent.systemPrompt blocks
        (stored request answers history)).bind (register answers)
          = .ok (.providerStream frames)) ↔ Unrefused request answers agent model := by
  obtain ⟨earlier, newest⟩ := @list_stored request answers history
  have room := @buildHistory_isOk model earlier
    (promptRow request answers (trim request.content)) (agent.systemPrompt.getD "")
  simp only [handedOut_iff, converse_eq_ok, newest]
  constructor
  · rintro ⟨frames, idle, listed, reached, started, selected, built, -⟩
    exact ⟨listed, room.1 ⟨selected, built⟩, reach_eq_ok.1 reached, started, idle⟩
  · intro unrefused
    obtain ⟨selected, built⟩ := room.2 unrefused.fits
    exact ⟨_, unrefused.idle, unrefused.listed, reach_eq_ok.2 unrefused.reached,
      unrefused.started, selected, built, rfl⟩

end Requests

section Stored

variable {run : Run} {frames : Stream} {buffer : String} {counts : UInt32 × UInt32}
  {ended : Option Ending} {closing : List Effect}

theorem emitted_saved (buffer : String) (counts : UInt32 × UInt32) (reason : String) :
    emitted (saved buffer counts reason) = [] := by
  unfold saved
  split
  · rfl
  · rfl

theorem closes_of_concludes (concludes : Concludes buffer counts ended closing) :
    Closes ended (emitted closing) := by
  cases ended with
  | none => cases concludes; rfl
  | some ended =>
      cases ended with
      | interrupted => cases concludes; exact emitted_saved _ _ _
      | errored =>
          obtain ⟨code, message, retryable, rfl⟩ := concludes
          exact ⟨code, message, retryable, congrArg _ (emitted_saved _ _ _)⟩
      | completed reason =>
          cases concludes
          refine ⟨counts.1, counts.2, ?_⟩
          rw [emitted, List.filterMap_append, ← emitted, emitted_saved]
          rfl

theorem rows_of_concludes {ended : Ending}
    (concludes : Concludes buffer counts (some ended) closing) :
    closing.filterMap Effect.row? =
      if buffer = "" then [] else [⟨buffer, counts.1, counts.2, ended.reason⟩] := by
  have rows (reason : String) : (saved buffer counts reason).filterMap Effect.row? =
      if buffer = "" then [] else [⟨buffer, counts.1, counts.2, reason⟩] := by
    unfold saved
    split
    · rfl
    · rfl
  cases ended with
  | interrupted => cases concludes; exact rows _
  | errored =>
      obtain ⟨code, message, retryable, rfl⟩ := concludes
      exact rows _
  | completed reason =>
      cases concludes
      rw [List.filterMap_append, rows]
      exact List.append_nil _

theorem deltas_of_closes {frames : List StreamFrame} (closes : Closes ended frames) :
    frames.filterMap delta = [] := by
  cases ended with
  | none => cases closes; rfl
  | some ended =>
      cases ended with
      | interrupted => cases closes; rfl
      | errored => obtain ⟨code, message, retryable, rfl⟩ := closes; rfl
      | completed reason => obtain ⟨tokensIn, tokensOut, rfl⟩ := closes; rfl

theorem effects_of_polled (run : Run) (frames : Stream) :
    ∃ closing,
      frames.effects run.turns = .emit (.messageStart frames.messageId frames.model) ::
        ((texts (passed 0 run.turns)).map (fun said => .emit (toFrame said)) ++ closing) ∧
      Concludes (String.join (texts (passed 0 run.turns))) run.usage (conclusion 0 run.turns)
        closing := by
  obtain ⟨closing, relays, concludes⟩ := relay_running "" (0, 0) run.turns
  rw [String.empty_append] at concludes
  exact ⟨closing, congrArg _ relays, concludes⟩

theorem emitted_polled {turns : List Turn} {texts : List String}
    (effects : frames.effects turns = .emit (.messageStart frames.messageId frames.model) ::
      (texts.map (fun said => .emit (toFrame said)) ++ closing)) :
    emitted (frames.effects turns) = .messageStart frames.messageId frames.model ::
      (texts.map toFrame ++ emitted closing) := by
  have deltas : (texts.map fun said => Effect.emit (toFrame said)).filterMap Effect.frame?
      = texts.map toFrame := by
    rw [List.filterMap_map, ← List.filterMap_eq_map]
    rfl
  have rest := congrArg (· ++ emitted closing) deltas
  rw [effects]
  refine congrArg (StreamFrame.messageStart frames.messageId frames.model :: ·) ?_
  rw [← rest]
  exact List.filterMap_append

theorem framed (run : Run) (frames : Stream) : Framed run frames := by
  obtain ⟨closing, effects, concludes⟩ := effects_of_polled run frames
  have polled := emitted_polled effects
  refine ⟨texts (passed 0 run.turns), emitted closing, closes_of_concludes concludes, ?_, ?_⟩
  · rw [← polled]
    unfold Run.effects
    split
    · exact List.prefix_rfl
    · exact (List.take_prefix _ _).filterMap _
  · intro kept
    rw [← polled, Run.effects, kept]

theorem toInt_asI32 (count : UInt32) :
    (asI32 count).toInt = (count.toNat : Int) ↔ count.toNat < 2 ^ 31 := by
  have bounded : count.toNat < 2 ^ 32 := count.toNat_lt
  have value : (asI32 count).toInt = count.toBitVec.toInt := rfl
  have same : count.toBitVec.toNat = count.toNat := rfl
  rw [value, BitVec.toInt_eq_toNat_cond, same]
  split
  · omega
  · omega

theorem join_eq_empty {texts : List String} :
    String.join texts = "" ↔ ∀ said ∈ texts, said = "" := by
  induction texts with
  | nil => simp
  | cons said rest ih => simp [ih]

theorem replies_polled {ended : Ending} (polled : run.dropped = none)
    (ends : conclusion 0 run.turns = some ended)
    (inserts : run.answers.insertMessage = .ok ()) :
    run.replies frames =
      if String.join (texts (passed 0 run.turns)) = "" then []
      else [assistantRow run.request frames
        ⟨String.join (texts (passed 0 run.turns)), run.usage.1, run.usage.2, ended.reason⟩] := by
  obtain ⟨closing, effects, concludes⟩ := effects_of_polled run frames
  rw [ends] at concludes
  have rows : (run.effects frames).filterMap Effect.row? = closing.filterMap Effect.row? := by
    have silent : (texts (passed 0 run.turns)).filterMap
        (Effect.row? ∘ fun said => .emit (toFrame said)) = [] :=
      List.filterMap_eq_nil_iff.2 fun said member => rfl
    rw [Run.effects, polled]
    dsimp only
    rw [effects, List.filterMap_cons_none rfl, List.filterMap_append, List.filterMap_map, silent,
      List.nil_append]
  rw [Run.replies, persisted, inserts]
  dsimp only
  rw [rows, rows_of_concludes concludes]
  split
  · rfl
  · rfl

theorem deltas_polled (polled : run.dropped = none) :
    (emitted (run.effects frames)).filterMap delta = texts (passed 0 run.turns) := by
  obtain ⟨closing, effects, concludes⟩ := effects_of_polled run frames
  have frame : (texts (passed 0 run.turns)).filterMap (delta ∘ toFrame)
      = texts (passed 0 run.turns) := List.filterMap_some
  rw [Run.effects, polled]
  dsimp only
  rw [emitted_polled effects, List.filterMap_cons_none rfl, List.filterMap_append,
    List.filterMap_map, frame, deltas_of_closes (closes_of_concludes concludes), List.append_nil]

theorem agrees_iff {ended : Ending} (polled : run.dropped = none)
    (ends : conclusion 0 run.turns = some ended)
    (inserts : run.answers.insertMessage = .ok ()) :
    (∀ message ∈ run.replies frames, Agrees run frames ended message) ↔
      ((∃ said ∈ texts (passed 0 run.turns), said ≠ "") →
        run.usage.1.toNat < 2 ^ 31 ∧ run.usage.2.toNat < 2 ^ 31) := by
  have spoken : (∃ said ∈ texts (passed 0 run.turns), said ≠ "") ↔
      String.join (texts (passed 0 run.turns)) ≠ "" := by
    rw [Ne, join_eq_empty]
    simp
  rw [replies_polled polled ends inserts, spoken]
  split
  · rename_i empty
    exact iff_of_true nofun fun some => absurd empty some
  · rename_i some
    rw [List.forall_mem_singleton]
    constructor
    · intro agrees _
      exact ⟨(toInt_asI32 _).1 (Option.some.inj agrees.tokensIn),
        (toInt_asI32 _).1 (Option.some.inj agrees.tokensOut)⟩
    · intro counted
      obtain ⟨smallIn, smallOut⟩ := counted some
      exact {
        id := by
          rw [Run.effects, polled]
          rfl
        content := by
          rw [deltas_polled polled]
          rfl
        tokensIn := congrArg _ ((toInt_asI32 _).2 smallIn)
        tokensOut := congrArg _ ((toInt_asI32 _).2 smallOut)
        reason := rfl }

theorem unrefused_of_atomic {agent : Agent} {model : String}
    (submitted : Submitted run.request run.answers agent model)
    (atomic : ∀ err, run.sent.1 = .error err → run.sent.2 = run.history) :
    Unrefused run.request run.answers agent model := by
  obtain ⟨blocks, sent⟩ := sendPrompt_of_submitted submitted run.history
  have grown : stored run.request run.answers run.history ≠ run.history :=
    fun same => List.cons_ne_nil _ _ (List.append_right_eq_self.1 same)
  rw [← Run.sent] at sent
  cases outcome : run.sent.1 with
  | error err =>
      have kept := atomic err outcome
      rw [sent] at kept
      exact absurd kept grown
  | ok dispatch =>
      rw [sent] at outcome
      cases dispatch with
      | sidecar =>
          obtain ⟨frames, -, registered⟩ := bind_eq_ok.1 outcome
          obtain ⟨_, -, wrong⟩ := bind_eq_ok.1 registered
          cases wrong
      | providerStream frames => exact (converse_isOk blocks run.history).1 ⟨frames, outcome⟩

/-- A run keeps its promise exactly when a prompt that is stored meets no refusal and the counts
of its response fit the columns. -/
theorem promised_iff (run : Run) :
    Promised run ↔ ∀ agent model, Submitted run.request run.answers agent model →
      Unrefused run.request run.answers agent model ∧ Counted run := by
  constructor
  · intro promised agent model submitted
    have unrefused := unrefused_of_atomic submitted promised.atomic
    refine ⟨unrefused, fun polled concluded inserts => ?_⟩
    obtain ⟨blocks, sent⟩ := sendPrompt_of_submitted submitted run.history
    obtain ⟨frames, handed⟩ := (converse_isOk blocks run.history).2 unrefused
    obtain ⟨ending, ends⟩ := Option.isSome_iff_exists.1 concluded
    exact (agrees_iff polled ends inserts).1
      (promised.agrees frames ((congrArg Prod.fst sent).trans handed) polled ending ends inserts)
  · intro undisturbed
    by_cases some : ∃ agent model, Submitted run.request run.answers agent model
    · obtain ⟨agent, model, submitted⟩ := some
      obtain ⟨unrefused, counted⟩ := undisturbed agent model submitted
      obtain ⟨blocks, sent⟩ := sendPrompt_of_submitted submitted run.history
      obtain ⟨frames, handed⟩ := (converse_isOk blocks run.history).2 unrefused
      have outcome : run.sent.1 = .ok (.providerStream frames) :=
        (congrArg Prod.fst sent).trans handed
      refine ⟨fun err failed => ?_, fun frames _ => framed run frames,
        fun frames _ polled ending ends inserts => (agrees_iff polled ends inserts).2
          (counted polled (by rw [ends]; rfl) inserts)⟩
      rw [outcome] at failed
      cases failed
    · obtain ⟨kept, streamless⟩ := sendPrompt_of_not_submitted
        (fun agent model submitted => some ⟨agent, model, submitted⟩) run.history
      exact ⟨fun _ _ => kept, fun frames handed => absurd handed (streamless frames),
        fun frames handed => absurd handed (streamless frames)⟩

/-- An agent of which the user has no key for the provider. -/
def unkeyed : Run where
  request := ⟨⟨1⟩, ⟨2⟩, "hello", none⟩
  answers := {
    authorizeAgentAction := .ok ()
    findById := .ok ⟨⟨3⟩, none, some "openai", some "gpt-4o", none⟩
    sendSidecarPrompt := .ok ()
    attachment := fun _ => .error (.notFound "attachment not found")
    getBytes := fun _ => .ok []
    promptId := ⟨4⟩
    insertPrompt := .ok ()
    list := .ok ()
    findByIdAgain := .ok ⟨⟨3⟩, none, some "openai", some "gpt-4o", none⟩
    findDefaultSecret := .ok none
    encryptionKey := none
    decryptBase64 := fun _ _ => .error "no key"
    providerBaseUrlAllowed := fun _ _ => true
    buildWithConfig := fun _ => .ok ()
    stream := some (.ok ())
    busy := false
    messageId := ⟨5⟩
    insertMessage := .ok () }
  history := []
  turns := []
  dropped := none

theorem unkeyed_stores_prompt : ¬Promised unkeyed := by
  intro promised
  have kept := promised.atomic (.validation
    "no API key configured for provider 'openai' — add one in LLM settings") rfl
  exact List.cons_ne_nil _ _ kept

end Stored

end Forge.PromptTranscript
