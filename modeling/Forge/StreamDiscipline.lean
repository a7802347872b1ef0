import Forge.LlmStreams

/-! When the stream of a provider is texts and then a failure, or texts and then the usage and the
end, with the texts and the counts that its payloads carry. -/

namespace Forge.StreamDiscipline

open Forge.Library.JsonDocument
open Forge.Library.Relay
open Forge.LlmStreams

/-- What the payloads of a provider mean. -/
structure Vocabulary where
  finishes : String → Bool
  fragments : String → List String
  /-- Whether empty fragments are passed on. -/
  keepsEmpty : Bool
  input : String → Option Nat
  output : String → Option Nat

namespace Vocabulary

variable (vocabulary : Vocabulary) (payloads : Payloads)

def finisher : Option String :=
  match ending vocabulary.finishes payloads with
  | .finished item _ => some item
  | _ => none

def said : List String :=
  heard vocabulary.finishes payloads ++ (vocabulary.finisher payloads).toList

def Fails : Prop := ∃ failure, ending vocabulary.finishes payloads = .failed failure

def spoken (payload : String) : List String :=
  (vocabulary.fragments payload).filter fun text => vocabulary.keepsEmpty || text ≠ ""

def latest (counts : List (Option Nat)) : Nat := (counts.filterMap id).getLast?.getD 0

/-- The contract of the streams. -/
def Disciplined (deltas : Deltas) : Prop :=
  ∃ texts : List String,
    String.join texts = String.join ((vocabulary.said payloads).flatMap vocabulary.fragments)
    ∧ ((∃ failure, deltas = texts.map (fun text => .ok (.text text)) ++ [.error failure])
      ∨ ∃ inputTokens outputTokens reason,
        deltas = texts.map (fun text => .ok (.text text))
          ++ [.ok (.usage inputTokens outputTokens), .ok (.done reason)]
        ∧ inputTokens.toNat = latest ((vocabulary.said payloads).map vocabulary.input)
        ∧ outputTokens.toNat = latest ((vocabulary.said payloads).map vocabulary.output))

def Silent (payload : String) : Prop :=
  vocabulary.finishes payload = false ∧ vocabulary.spoken payload = []

def Quiet : Prop :=
  ∀ item behind, ending vocabulary.finishes payloads = .finished item behind →
    ∀ later ∈ behind, ∃ payload, later = .ok payload ∧ vocabulary.Silent payload

end Vocabulary

/-- How a parser goes about its payloads, with the counts and the reason that it ends with. -/
structure Conduct {σ : Type} (loop : Loop σ String StreamDelta) (vocabulary : Vocabulary)
    (done : σ → Bool) (counts : σ → Option String → UInt32 × UInt32)
    (reason : σ → Option String → String) : Prop where
  hears : ∀ state payload, vocabulary.finishes payload = false →
    (loop.step state payload).2 = (vocabulary.spoken payload).map .text
  finishes : ∀ state payload, vocabulary.finishes payload = true →
    (loop.step state payload).2 = (vocabulary.spoken payload).map .text
      ++ [.usage (counts state (some payload)).1 (counts state (some payload)).2,
        .done (reason state (some payload))]
  done_step : ∀ state payload,
    done (loop.step state payload).1 = (done state || vocabulary.finishes payload)
  closes : ∀ state, loop.close state = if done state then [] else
    [.usage (counts state none).1 (counts state none).2, .done (reason state none)]

namespace Conduct

variable {σ : Type} {loop : Loop σ String StreamDelta} {vocabulary : Vocabulary} {done : σ → Bool}
  {counts : σ → Option String → UInt32 × UInt32} {reason : σ → Option String → String}

theorem done_after (conduct : Conduct loop vocabulary done counts reason) {items : List String}
    {state : σ} (fresh : done state = false)
    (others : ∀ item ∈ items, vocabulary.finishes item = false) :
    done (after loop state items) = false := by
  induction items generalizing state with
  | nil => exact fresh
  | cons item rest ih =>
      refine ih ?_ fun other member => others other (.tail _ member)
      rw [conduct.done_step, fresh, others item (.head _)]
      rfl

theorem step_eq_nil_iff (conduct : Conduct loop vocabulary done counts reason) (state : σ)
    (payload : String) : (loop.step state payload).2 = [] ↔ vocabulary.Silent payload := by
  cases finishing : vocabulary.finishes payload with
  | false => simp [conduct.hears state payload finishing, Vocabulary.Silent, finishing]
  | true => simp [conduct.finishes state payload finishing, Vocabulary.Silent, finishing]

theorem join_spoken (vocabulary : Vocabulary) (payloads : List String) :
    String.join (payloads.flatMap vocabulary.spoken)
      = String.join (payloads.flatMap vocabulary.fragments) := by
  have one : ∀ texts : List String, String.join (texts.filter fun text =>
      vocabulary.keepsEmpty || text ≠ "") = String.join texts := by
    intro texts
    induction texts with
    | nil => rfl
    | cons text rest ih =>
        rw [List.filter_cons]
        split
        case isTrue => rw [String.join_cons, String.join_cons, ih]
        case isFalse empty =>
            have blank : text = "" := by
              by_contra some_
              exact empty (by simp [some_])
            rw [String.join_cons, ih, blank, String.empty_append]
  induction payloads with
  | nil => rfl
  | cons payload rest ih =>
      rw [List.flatMap_cons, List.flatMap_cons, String.join_append, String.join_append, ih]
      exact congrArg (· ++ _) (one _)

def isText : Except LlmError StreamDelta → Bool
  | .ok (.text _) => true
  | _ => false

theorem disciplined_end_iff {payloads : Payloads} {texts : List String}
    {inputTokens outputTokens : UInt32} {finishReason : String} {more : Deltas}
    (whole : String.join texts
      = String.join ((vocabulary.said payloads).flatMap vocabulary.fragments)) :
    vocabulary.Disciplined payloads (texts.map (fun text => .ok (.text text))
        ++ .ok (.usage inputTokens outputTokens) :: .ok (.done finishReason) :: more)
      ↔ more = []
        ∧ inputTokens.toNat = Vocabulary.latest ((vocabulary.said payloads).map vocabulary.input)
        ∧ outputTokens.toNat
          = Vocabulary.latest ((vocabulary.said payloads).map vocabulary.output) := by
  have plain : ∀ texts : List String,
      ∀ item ∈ texts.map (fun text => (.ok (.text text) : Except LlmError StreamDelta)),
        isText item = true := by
    intro texts item member
    obtain ⟨text, -, rfl⟩ := List.mem_map.1 member
    rfl
  constructor
  · rintro ⟨others, -, ⟨failure, same⟩ | ⟨input, output, named, same, inputs, outputs⟩⟩
    · obtain ⟨-, first, -⟩ := append_inj (plain texts) (plain others) rfl rfl same
      cases first
    · obtain ⟨-, first, rest⟩ := append_inj (plain texts) (plain others) rfl rfl same
      cases first
      cases rest
      exact ⟨rfl, inputs, outputs⟩
  · rintro ⟨rfl, inputs, outputs⟩
    exact ⟨texts, whole, .inr ⟨_, _, _, rfl, inputs, outputs⟩⟩

theorem disciplined_iff (conduct : Conduct loop vocabulary done counts reason) (start : σ)
    (fresh : done start = false) (payloads : Payloads) :
    vocabulary.Disciplined payloads (run loop start payloads) ↔
      vocabulary.Quiet payloads ∧ (¬ vocabulary.Fails payloads →
        (counts (after loop start (heard vocabulary.finishes payloads))
          (vocabulary.finisher payloads)).1.toNat
            = Vocabulary.latest ((vocabulary.said payloads).map vocabulary.input)
        ∧ (counts (after loop start (heard vocabulary.finishes payloads))
          (vocabulary.finisher payloads)).2.toNat
            = Vocabulary.latest ((vocabulary.said payloads).map vocabulary.output)) := by
  have shape := run_eq (fun payload => (vocabulary.spoken payload).map StreamDelta.text) start
    payloads conduct.hears
  have before : ((heard vocabulary.finishes payloads).flatMap
      fun payload => (vocabulary.spoken payload).map StreamDelta.text).map
        (Except.ok : StreamDelta → Except LlmError StreamDelta)
      = ((heard vocabulary.finishes payloads).flatMap vocabulary.spoken).map
        fun text => .ok (.text text) := by
    rw [List.map_flatMap, List.map_flatMap]
    exact congrArg (List.flatMap · _) (funext fun payload => by rw [List.map_map]; rfl)
  have open_ := conduct.done_after fresh fun item =>
    @not_finishes_of_heard _ _ vocabulary.finishes payloads item
  rw [shape, before]
  generalize after loop start (heard vocabulary.finishes payloads) = state at open_ ⊢
  cases ends : ending vocabulary.finishes payloads with
  | failed failure =>
      have said : vocabulary.said payloads = heard vocabulary.finishes payloads := by
        rw [Vocabulary.said, Vocabulary.finisher, ends]
        exact List.append_nil _
      refine iff_of_true ⟨_, ?_, .inl ⟨failure, rfl⟩⟩ ⟨?_, fun works => ?_⟩
      · rw [said, join_spoken]
      · intro item behind finished
        rw [ends] at finished
        cases finished
      · exact absurd ⟨failure, ends⟩ works
  | closed =>
      have none_ : vocabulary.finisher payloads = none := by rw [Vocabulary.finisher, ends]
      have said : vocabulary.said payloads = heard vocabulary.finishes payloads := by
        rw [Vocabulary.said, none_]
        exact List.append_nil _
      rw [last, conduct.closes, open_, if_neg Bool.false_ne_true, List.map_cons, List.map_cons,
        List.map_nil, disciplined_end_iff (by rw [said, join_spoken]), none_]
      constructor
      · rintro ⟨-, right⟩
        refine ⟨fun item behind finished => ?_, fun _ => right⟩
        rw [ends] at finished
        cases finished
      · rintro ⟨-, right⟩
        refine ⟨rfl, right ?_⟩
        rintro ⟨failure, fails⟩
        rw [ends] at fails
        cases fails
  | finished item behind =>
      have some_ : vocabulary.finisher payloads = some item := by rw [Vocabulary.finisher, ends]
      have said : vocabulary.said payloads = heard vocabulary.finishes payloads ++ [item] := by
        rw [Vocabulary.said, some_]
        rfl
      have finishing := finishes_of_ending ends
      have silent : run loop (loop.step state item).1 behind = []
          ↔ ∀ later ∈ behind, ∃ payload, later = .ok payload ∧ vocabulary.Silent payload := by
        refine @run_eq_nil_iff _ _ _ _ loop (fun state => done state = true) _
          (fun state item now => ?_) (fun state item _ => conduct.step_eq_nil_iff state item)
          (fun state now => ?_) _ ?_ behind
        · rw [conduct.done_step, now]
          rfl
        · rw [conduct.closes, now, if_pos rfl]
        · rw [conduct.done_step, finishing, Bool.or_true]
      have texts : ((heard vocabulary.finishes payloads).flatMap vocabulary.spoken).map
            (fun text => (.ok (.text text) : Except LlmError StreamDelta))
          ++ last loop state (.finished item behind)
          = ((vocabulary.said payloads).flatMap vocabulary.spoken).map
              (fun text => .ok (.text text))
            ++ .ok (.usage (counts state (some item)).1 (counts state (some item)).2)
              :: .ok (.done (reason state (some item)))
              :: run loop (loop.step state item).1 behind := by
        rw [last, conduct.finishes state item finishing, said]
        simp
      rw [texts, disciplined_end_iff (by rw [join_spoken]), silent, some_]
      constructor
      · rintro ⟨quiet, right⟩
        refine ⟨fun other others same => ?_, fun _ => right⟩
        rw [ends] at same
        cases same
        exact quiet
      · rintro ⟨quiet, right⟩
        refine ⟨quiet item behind ends, right ?_⟩
        rintro ⟨failure, fails⟩
        rw [ends] at fails
        cases fails

end Conduct

section Counts

variable {σ γ β : Type} {loop : Loop σ String StreamDelta}

theorem value_after {value : σ → β} {read : String → Option γ} {take : γ → β} {items : List String}
    {state : σ} (steps : ∀ state, ∀ item ∈ items,
      value (loop.step state item).1 = (read item).elim (value state) take) :
    value (after loop state items) = ((items.filterMap read).getLast?).elim (value state) take := by
  induction items generalizing state with
  | nil => rfl
  | cons item rest ih =>
      have goes := @ih (loop.step state item).1 fun state other member =>
        steps state other (.tail _ member)
      refine goes.trans ?_
      rw [steps state item (.head _), List.filterMap_cons]
      cases read item with
      | none => rfl
      | some said =>
          rw [List.getLast?_cons]
          cases (rest.filterMap read).getLast? <;> rfl

theorem getLast?_filterMap {items : List β} {read : β → Option γ} {last : β} {found : γ}
    (ends : items.getLast? = some last) (reads : read last = some found) :
    (items.filterMap read).getLast? = some found := by
  obtain ⟨front, rfl⟩ := List.getLast?_eq_some_iff.1 ends
  rw [List.filterMap_append, List.filterMap_cons_some reads, List.filterMap_nil]
  exact List.getLast?_concat ..

theorem latest_map (items : List String) (count : String → Option Nat) :
    Vocabulary.latest (items.map count) = (items.filterMap count).getLast?.getD 0 := by
  rw [Vocabulary.latest, List.filterMap_map]
  rfl

theorem toNat_asU32 (count : Nat) : (asU32 count).toNat = count % 2 ^ 32 := UInt32.toNat_ofNat'

def Fits (read : Option Nat) (reported : Nat) : Prop :=
  match read with
  | some count => count < 2 ^ 32
  | none => reported = 0

theorem fits_iff {read : Option Nat} {reported : Nat} (same : ∀ count ∈ read, reported = count) :
    (asU32 (read.getD 0)).toNat = reported ↔ Fits read reported := by
  rw [toNat_asU32]
  cases read with
  | none =>
      show 0 % 2 ^ 32 = reported ↔ reported = 0
      omega
  | some count =>
      obtain rfl := same count rfl
      show reported % 2 ^ 32 = reported ↔ reported < 2 ^ 32
      omega

theorem latest_said (vocabulary : Vocabulary) (payloads : Payloads) (count : String → Option Nat) :
    Vocabulary.latest ((vocabulary.said payloads).map count)
      = ((vocabulary.finisher payloads).bind count).getD
        (Vocabulary.latest ((heard vocabulary.finishes payloads).map count)) := by
  rw [latest_map, latest_map, Vocabulary.said, List.filterMap_append]
  cases vocabulary.finisher payloads with
  | none => exact congrArg (fun counts => counts.getLast?.getD 0) (List.append_nil _)
  | some payload =>
      cases stated : count payload with
      | none =>
          rw [Option.toList_some, List.filterMap_cons_none stated, List.filterMap_nil,
            List.append_nil, Option.bind_some, stated]
          rfl
      | some found =>
          rw [Option.toList_some, List.filterMap_cons_some stated, List.filterMap_nil,
            List.getLast?_concat, Option.bind_some, stated]
          rfl

theorem finisher_count_iff (vocabulary : Vocabulary) (payloads : Payloads)
    (count : String → Option Nat) :
    (asU32 (((vocabulary.finisher payloads).bind count).getD 0)).toNat
        = Vocabulary.latest ((vocabulary.said payloads).map count)
      ↔ Fits ((vocabulary.finisher payloads).bind count)
        (Vocabulary.latest ((heard vocabulary.finishes payloads).map count)) := by
  rw [latest_said]
  cases stated : (vocabulary.finisher payloads).bind count with
  | none => exact fits_iff nofun
  | some found =>
      rw [fits_iff fun other same => by cases same; rfl]
      exact Iff.rfl

end Counts

theorem trim_empty : trim "" = "" := rfl

theorem fromStr_closing : fromStr "" = none ∧ fromStr "[DONE]" = none := by
  simp only [← Option.isNone_iff_eq_none]
  decide +kernel

namespace OpenAi

open Forge.LlmStreams.OpenAi

def usageOf (payload : String) : Option Json := (fromStr (trim payload)).bind usage

def stated (name : String) (payload : String) : Option Nat :=
  (usageOf payload).bind fun usage => tokens usage name

def vocabulary : Vocabulary where
  finishes payload := decide (trim payload = "[DONE]")
  fragments payload := ((fromStr (trim payload)).bind fun v =>
    pointerStr v ["choices", "0", "delta", "content"]).toList
  keepsEmpty := false
  input := stated "prompt_tokens"
  output := stated "completion_tokens"

theorem vocabulary_counts : vocabulary.input = stated "prompt_tokens"
    ∧ vocabulary.output = stated "completion_tokens" := by
  simp only [vocabulary, and_self]

theorem finishes_eq (payload : String) :
    vocabulary.finishes payload = decide (trim payload = "[DONE]") := by
  simp only [vocabulary]

theorem finishes_iff {payload : String} :
    vocabulary.finishes payload = true ↔ trim payload = "[DONE]" := by
  rw [finishes_eq, decide_eq_true_iff]

theorem ne_of_not_finishes {payload : String} (goes : vocabulary.finishes payload = false) :
    trim payload ≠ "[DONE]" :=
  mt finishes_iff.2 (Bool.eq_false_iff.1 goes)

theorem keep_spec (state : State) (v : Json) :
    (keep state v).doneEmitted = state.doneEmitted
      ∧ (keep state v).inputTokens = (usage v).elim state.inputTokens
        (fun usage => asU32 ((tokens usage "prompt_tokens").getD 0))
      ∧ (keep state v).outputTokens = (usage v).elim state.outputTokens
        (fun usage => asU32 ((tokens usage "completion_tokens").getD 0)) := by
  unfold keep
  cases pointerStr v ["choices", "0", "finish_reason"] <;> cases usage v <;> exact ⟨rfl, rfl, rfl⟩

theorem step_of_other {payload : String} (other : trim payload ≠ "[DONE]") (state : State) :
    (step state payload).1 = (fromStr (trim payload)).elim state (keep state) := by
  simp only [step, other, if_false]
  by_cases empty : trim payload = ""
  · rw [if_pos empty, empty, fromStr_closing.1]
    rfl
  · rw [if_neg empty]
    cases fromStr (trim payload) <;> rfl

theorem conduct : Conduct loop vocabulary State.doneEmitted
    (fun state _ => (state.inputTokens, state.outputTokens))
    (fun state finisher => state.finishReason.getD
      (if finisher.isSome then "stop" else "interrupted")) where
  hears state payload goes := by
    have other : trim payload ≠ "[DONE]" := ne_of_not_finishes goes
    show (step state payload).2 = _
    simp only [step, other, if_false, Vocabulary.spoken, vocabulary]
    by_cases empty : trim payload = ""
    · rw [if_pos empty, empty, fromStr_closing.1]
      rfl
    · rw [if_neg empty]
      cases fromStr (trim payload) with
      | none => rfl
      | some v =>
          simp only [content, Option.bind_some]
          cases pointerStr v ["choices", "0", "delta", "content"] with
          | none => rfl
          | some text =>
              by_cases blank : text = "" <;> simp [Option.filter, blank]
  finishes state payload ends := by
    have done : trim payload = "[DONE]" := finishes_iff.1 ends
    show (step state payload).2 = _
    simp only [step, done, if_true, Vocabulary.spoken, vocabulary, fromStr_closing.2]
    rfl
  done_step state payload := by
    show (step state payload).1.doneEmitted = (state.doneEmitted || vocabulary.finishes payload)
    rw [finishes_eq]
    by_cases done : trim payload = "[DONE]"
    · simp [step, done]
    · rw [step_of_other done, decide_eq_false done, Bool.or_false]
      cases fromStr (trim payload) with
      | none => rfl
      | some v => exact (keep_spec state v).1
  closes state := rfl

def lastUsage (payloads : Payloads) : Option Json :=
  ((heard vocabulary.finishes payloads).filterMap usageOf).getLast?

def lastCount (name : String) (payloads : Payloads) : Option Nat :=
  (lastUsage payloads).bind fun usage => tokens usage name

def reported (name : String) (payloads : Payloads) : Nat :=
  Vocabulary.latest ((heard vocabulary.finishes payloads).map (stated name))

def Counted (payloads : Payloads) : Prop :=
  Fits (lastCount "prompt_tokens" payloads) (reported "prompt_tokens" payloads)
    ∧ Fits (lastCount "completion_tokens" payloads) (reported "completion_tokens" payloads)

theorem usageOf_finisher {payloads : Payloads} :
    ∀ payload ∈ vocabulary.finisher payloads, usageOf payload = none := by
  intro payload member
  have done : trim payload = "[DONE]" := by
    rw [Vocabulary.finisher] at member
    split at member
    case h_1 item behind ends =>
        cases member
        have finishing : vocabulary.finishes payload = true := finishes_of_ending ends
        exact finishes_iff.1 finishing
    case h_2 => cases member
  rw [usageOf, done, fromStr_closing.2]
  rfl

theorem reported_said (name : String) (payloads : Payloads) :
    Vocabulary.latest ((vocabulary.said payloads).map (stated name)) = reported name payloads := by
  have said : (vocabulary.said payloads).filterMap (stated name)
      = (heard vocabulary.finishes payloads).filterMap (stated name) := by
    rw [Vocabulary.said, List.filterMap_append]
    cases finishing : vocabulary.finisher payloads with
    | none => exact List.append_nil _
    | some payload =>
        have silent : stated name payload = none := by
          rw [stated, usageOf_finisher payload finishing]
          rfl
        rw [Option.toList_some, List.filterMap_cons_none silent, List.filterMap_nil,
          List.append_nil]
  rw [reported, latest_map, latest_map, said]

theorem count_iff (name : String) (payloads : Payloads) :
    (asU32 ((lastCount name payloads).getD 0)).toNat
      = Vocabulary.latest ((vocabulary.said payloads).map (stated name))
      ↔ Fits (lastCount name payloads) (reported name payloads) := by
  rw [reported_said]
  refine fits_iff fun count member => ?_
  obtain ⟨usage, last, stated_⟩ := Option.bind_eq_some_iff.1 member
  have found := @getLast?_filterMap _ _ _ (fun usage => tokens usage name) _ _ last stated_
  rw [List.filterMap_filterMap] at found
  rw [reported, latest_map]
  exact congrArg (·.getD 0) found

theorem disciplined (payloads : Payloads) :
    vocabulary.Disciplined payloads (parseOpenaiSse payloads)
      ↔ vocabulary.Quiet payloads ∧ (¬ vocabulary.Fails payloads → Counted payloads) := by
  rw [parseOpenaiSse, conduct.disciplined_iff start rfl]
  have steps : ∀ state, ∀ item ∈ heard vocabulary.finishes payloads,
      (loop.step state item).1 = (fromStr (trim item)).elim state (keep state) :=
    fun state item member => by
      have goes : vocabulary.finishes item = false := not_finishes_of_heard member
      exact step_of_other (ne_of_not_finishes goes) state
  have inputs : (after loop start (heard vocabulary.finishes payloads)).inputTokens
      = (lastUsage payloads).elim 0 fun usage => asU32 ((tokens usage "prompt_tokens").getD 0) := by
    refine @value_after _ _ _ loop State.inputTokens usageOf _ _ start fun state item member => ?_
    rw [steps state item member, usageOf]
    cases fromStr (trim item) with
    | none => rfl
    | some v => exact (keep_spec state v).2.1
  have outputs : (after loop start (heard vocabulary.finishes payloads)).outputTokens
      = (lastUsage payloads).elim 0
        fun usage => asU32 ((tokens usage "completion_tokens").getD 0) := by
    refine @value_after _ _ _ loop State.outputTokens usageOf _ _ start fun state item member => ?_
    rw [steps state item member, usageOf]
    cases fromStr (trim item) with
    | none => rfl
    | some v => exact (keep_spec state v).2.2
  have last : ∀ name, (lastUsage payloads).elim (0 : UInt32)
      (fun usage => asU32 ((tokens usage name).getD 0))
      = asU32 ((lastCount name payloads).getD 0) := by
    intro name
    rw [lastCount]
    cases lastUsage payloads <;> rfl
  refine and_congr Iff.rfl (imp_congr Iff.rfl (and_congr ?_ ?_))
  · dsimp only
    rw [inputs, last, vocabulary_counts.1, count_iff]
  · dsimp only
    rw [outputs, last, vocabulary_counts.2, count_iff]

end OpenAi

namespace Gemini

open Forge.LlmStreams.Gemini

def finishReason (payload : String) : Option String :=
  (fromStr (trim payload)).bind fun v => pointerStr v ["candidates", "0", "finishReason"]

def stated (name : String) (payload : String) : Option Nat :=
  (fromStr (trim payload)).bind fun v => pointerU64 v ["usageMetadata", name]

def vocabulary : Vocabulary where
  finishes payload := (finishReason payload).isSome
  fragments payload := ((fromStr (trim payload)).map parts).getD []
  keepsEmpty := false
  input := stated "promptTokenCount"
  output := stated "candidatesTokenCount"

theorem vocabulary_counts : vocabulary.input = stated "promptTokenCount"
    ∧ vocabulary.output = stated "candidatesTokenCount" := by
  simp only [vocabulary, and_self]

theorem step_blank {payload : String} (unread : fromStr (trim payload) = none) (state : State) :
    step state payload = (state, []) := by
  unfold step
  split
  · rfl
  · rw [unread]

theorem step_read {payload : String} {v : Json} (read : fromStr (trim payload) = some v)
    (state : State) : step state payload =
      match pointerStr v ["candidates", "0", "finishReason"] with
      | none => (state, ((parts v).filter fun text => text ≠ "").map .text)
      | some finish => (⟨true⟩, ((parts v).filter fun text => text ≠ "").map .text
          ++ [.usage (asU32 ((stated "promptTokenCount" payload).getD 0))
            (asU32 ((stated "candidatesTokenCount" payload).getD 0)), .done finish]) := by
  unfold step
  split
  case isTrue empty =>
      rw [empty, trim_empty, fromStr_closing.1] at read
      cases read
  case isFalse =>
      cases finish : pointerStr v ["candidates", "0", "finishReason"] with
      | none => simp only [read, finish]
      | some reason => simp only [read, finish, stated, Option.bind_some]

theorem conduct : Conduct loop vocabulary State.doneEmitted
    (fun _ finisher => (asU32 ((finisher.bind (stated "promptTokenCount")).getD 0),
      asU32 ((finisher.bind (stated "candidatesTokenCount")).getD 0)))
    (fun _ finisher => (finisher.bind finishReason).getD "interrupted") where
  hears state payload goes := by
    simp only [vocabulary, Option.isSome_eq_false_iff, Option.isNone_iff_eq_none] at goes
    show (step state payload).2 = _
    simp only [Vocabulary.spoken, vocabulary]
    cases read : fromStr (trim payload) with
    | none =>
        rw [step_blank read]
        rfl
    | some v =>
        rw [finishReason, read, Option.bind_some] at goes
        rw [step_read read, goes]
        simp
  finishes state payload ends := by
    simp only [vocabulary] at ends
    obtain ⟨finish, named⟩ := Option.isSome_iff_exists.1 ends
    show (step state payload).2 = _
    simp only [Vocabulary.spoken, vocabulary, Option.bind_some, named]
    obtain ⟨v, read, here⟩ := Option.bind_eq_some_iff.1 named
    rw [step_read read, here, read]
    simp
  done_step state payload := by
    simp only [vocabulary]
    show (step state payload).1.doneEmitted = _
    cases read : fromStr (trim payload) with
    | none =>
        rw [step_blank read, finishReason, read]
        exact (Bool.or_false _).symm
    | some v =>
        rw [step_read read, finishReason, read, Option.bind_some]
        cases pointerStr v ["candidates", "0", "finishReason"] with
        | none => exact (Bool.or_false _).symm
        | some finish => exact (Bool.or_true _).symm
  closes state := rfl

def Counted (payloads : Payloads) : Prop :=
  ∀ name ∈ ["promptTokenCount", "candidatesTokenCount"],
    Fits ((vocabulary.finisher payloads).bind (stated name))
      (Vocabulary.latest ((heard vocabulary.finishes payloads).map (stated name)))

theorem disciplined (payloads : Payloads) :
    vocabulary.Disciplined payloads (parseGeminiSse payloads)
      ↔ vocabulary.Quiet payloads ∧ (¬ vocabulary.Fails payloads → Counted payloads) := by
  rw [parseGeminiSse, conduct.disciplined_iff start rfl]
  dsimp only
  rw [vocabulary_counts.1, vocabulary_counts.2, finisher_count_iff, finisher_count_iff]
  simp [Counted]

end Gemini

namespace Anthropic

open Forge.LlmStreams.Anthropic

def ofKind {α : Type} (name : String) (read : Json → Option α) (payload : String) : Option α :=
  (fromStr payload).bind fun v => if kind v = some name then read v else none

def startCount (name : String) : String → Option Nat :=
  ofKind "message_start" fun v => pointerU64 v ["message", "usage", name]

def deltaCount (name : String) : String → Option Nat :=
  ofKind "message_delta" fun v => pointerU64 v ["usage", name]

def stated (name : String) (payload : String) : Option Nat :=
  (startCount name payload).or (deltaCount name payload)

def isFinal (payload : String) : Bool :=
  (ofKind "message_delta" some payload).isSome

def vocabulary : Vocabulary where
  finishes := isFinal
  fragments payload := (ofKind "content_block_delta"
    (fun v => pointerStr v ["delta", "text"]) payload).toList
  keepsEmpty := true
  input := stated "input_tokens"
  output := stated "output_tokens"

theorem vocabulary_counts : vocabulary.input = stated "input_tokens"
    ∧ vocabulary.output = stated "output_tokens" := by
  simp only [vocabulary, and_self]

theorem ofKind_of_read {α : Type} {name : String} {read : Json → Option α} {payload : String}
    {v : Json} (parsed : fromStr payload = some v) :
    ofKind name read payload = if kind v = some name then read v else none := by
  rw [ofKind, parsed, Option.bind_some]

theorem ofKind_of_unread {α : Type} {name : String} {read : Json → Option α} {payload : String}
    (parsed : fromStr payload = none) : ofKind name read payload = none := by
  rw [ofKind, parsed, Option.bind_none]

theorem step_blank {payload : String} (unread : fromStr payload = none) (state : State) :
    step state payload = (state, []) := by
  unfold step
  split
  · rfl
  · rw [unread]

theorem step_read {payload : String} {v : Json} (read : fromStr payload = some v)
    (state : State) :
    (step state payload).1.inputTokens
        = (startCount "input_tokens" payload).elim state.inputTokens asU32
      ∧ (step state payload).1.doneEmitted = (state.doneEmitted || isFinal payload)
      ∧ (step state payload).2 = (vocabulary.spoken payload).map .text ++
        if isFinal payload then
          [.usage state.inputTokens (asU32 ((deltaCount "output_tokens" payload).getD 0)),
            .done (((ofKind "message_delta"
              (fun v => pointerStr v ["delta", "stop_reason"]) payload)).getD "stop")]
        else [] := by
  simp only [startCount, isFinal, deltaCount, Vocabulary.spoken, vocabulary, ofKind_of_read read]
  unfold step
  split
  case isTrue empty =>
      rw [empty, fromStr_closing.1] at read
      cases read
  case isFalse =>
      rw [read]
      dsimp only
      split
      case h_1 named =>
          rw [named]
          cases pointerU64 v ["message", "usage", "input_tokens"] <;> simp
      case h_2 named =>
          rw [named]
          simp
      case h_3 named =>
          rw [named]
          simp
      case h_4 start_ delta final =>
          have others : kind v ≠ some "message_start" ∧ kind v ≠ some "content_block_delta"
              ∧ kind v ≠ some "message_delta" := ⟨start_, delta, final⟩
          simp [others.1, others.2.1, others.2.2]

theorem outputs_of_unread {payload : String} (unread : fromStr payload = none) :
    isFinal payload = false ∧ vocabulary.spoken payload = []
      ∧ ∀ name, startCount name payload = none := by
  simp [isFinal, Vocabulary.spoken, vocabulary, startCount, ofKind_of_unread unread]

theorem conduct : Conduct loop vocabulary State.doneEmitted
    (fun state finisher => (state.inputTokens,
      asU32 ((finisher.bind (deltaCount "output_tokens")).getD 0)))
    (fun _ finisher => finisher.elim "interrupted" fun payload =>
      (ofKind "message_delta" (fun v => pointerStr v ["delta", "stop_reason"]) payload).getD
        "stop") where
  hears state payload goes := by
    have unfinished : isFinal payload = false := goes
    show (step state payload).2 = _
    cases read : fromStr payload with
    | none => rw [step_blank read, (outputs_of_unread read).2.1, List.map_nil]
    | some v => simp [(step_read read state).2.2, unfinished]
  finishes state payload ends := by
    have final : isFinal payload = true := ends
    show (step state payload).2 = _
    cases read : fromStr payload with
    | none =>
        rw [(outputs_of_unread read).1] at final
        cases final
    | some v => simp [(step_read read state).2.2, final]
  done_step state payload := by
    show (step state payload).1.doneEmitted = (state.doneEmitted || isFinal payload)
    cases read : fromStr payload with
    | none => simp [step_blank read, (outputs_of_unread read).1]
    | some v => exact (step_read read state).2.1
  closes state := rfl

/-- A finishing payload that reports a count repeats, up to 32 bits, the one before it, which
otherwise fits. -/
def Repeats (again : Option Nat) (reported : Nat) : Prop :=
  match again with
  | some count => reported % 2 ^ 32 = count
  | none => reported < 2 ^ 32

def reported (name : String) (payloads : Payloads) : Nat :=
  Vocabulary.latest ((heard vocabulary.finishes payloads).map (stated name))

def Counted (payloads : Payloads) : Prop :=
  Repeats ((vocabulary.finisher payloads).bind (stated "input_tokens"))
      (reported "input_tokens" payloads)
    ∧ Fits ((vocabulary.finisher payloads).bind (stated "output_tokens"))
      (reported "output_tokens" payloads)

theorem startCount_of_final {payload : String} (final : isFinal payload = true) (name : String) :
    startCount name payload = none := by
  obtain ⟨v, held⟩ := Option.isSome_iff_exists.1 final
  obtain ⟨w, read, named⟩ := Option.bind_eq_some_iff.1 held
  split at named
  case isFalse => cases named
  case isTrue kind_ =>
      rw [startCount, ofKind_of_read read, kind_]
      exact if_neg (by decide)

theorem stated_of_heard {payload : String} (goes : isFinal payload = false) (name : String) :
    stated name payload = startCount name payload := by
  have none_ : deltaCount name payload = none := by
    rw [isFinal, Option.isSome_eq_false_iff, Option.isNone_iff_eq_none] at goes
    cases read : fromStr payload with
    | none => exact ofKind_of_unread read
    | some v =>
        rw [ofKind_of_read read] at goes
        rw [deltaCount, ofKind_of_read read]
        split at goes
        case isTrue => cases goes
        case isFalse other => exact if_neg other
  rw [stated, none_, Option.or_none]

theorem finisher_delta (name : String) (payloads : Payloads) :
    (vocabulary.finisher payloads).bind (deltaCount name)
      = (vocabulary.finisher payloads).bind (stated name) := by
  cases finishing : vocabulary.finisher payloads with
  | none => rfl
  | some payload =>
      rw [Vocabulary.finisher] at finishing
      split at finishing
      case h_2 => cases finishing
      case h_1 item behind ends =>
          cases finishing
          have final : isFinal payload = true := finishes_of_ending ends
          rw [Option.bind_some, Option.bind_some, stated, startCount_of_final final, Option.none_or]

theorem inputs_after (payloads : Payloads) :
    (after loop start (heard vocabulary.finishes payloads)).inputTokens
      = asU32 (reported "input_tokens" payloads) := by
  have kept := @value_after _ _ _ loop State.inputTokens (startCount "input_tokens") asU32
    (heard vocabulary.finishes payloads) start fun state item _ => by
      show (step state item).1.inputTokens = _
      cases read : fromStr item with
      | none => rw [step_blank read, (outputs_of_unread read).2.2, Option.elim_none]
      | some v => exact (step_read read state).1
  have same : (heard vocabulary.finishes payloads).filterMap (startCount "input_tokens")
      = (heard vocabulary.finishes payloads).filterMap (stated "input_tokens") := by
    refine List.filterMap_congr ?_
    intro item member
    have goes : isFinal item = false := not_finishes_of_heard member
    exact (stated_of_heard goes _).symm
  rw [kept, same, reported, latest_map]
  cases ((heard vocabulary.finishes payloads).filterMap (stated "input_tokens")).getLast? <;> rfl

theorem input_iff (payloads : Payloads) :
    (asU32 (reported "input_tokens" payloads)).toNat
        = Vocabulary.latest ((vocabulary.said payloads).map (stated "input_tokens"))
      ↔ Repeats ((vocabulary.finisher payloads).bind (stated "input_tokens"))
        (reported "input_tokens" payloads) := by
  rw [latest_said, toNat_asU32, reported]
  cases (vocabulary.finisher payloads).bind (stated "input_tokens") with
  | some count => exact Iff.rfl
  | none =>
      rw [Option.getD_none, Repeats]
      omega

theorem disciplined (payloads : Payloads) :
    vocabulary.Disciplined payloads (parseAnthropicSse payloads)
      ↔ vocabulary.Quiet payloads ∧ (¬ vocabulary.Fails payloads → Counted payloads) := by
  rw [parseAnthropicSse, conduct.disciplined_iff start rfl]
  dsimp only
  rw [vocabulary_counts.1, vocabulary_counts.2, inputs_after, input_iff, finisher_delta,
    finisher_count_iff]
  exact Iff.rfl

end Anthropic

end Forge.StreamDiscipline
