import Forge.Library.MachineInt
import Forge.TurnOrder

/-! What holds of the turns of any events: how they are numbered and named, when they are closed,
and where their steps come from. -/

namespace Forge.TurnInvariants

open Forge.Library.JsonDocument
open Forge.Library.Identifier
open Forge.Library.MachineInt (Fits)
open Forge.TurnOrder
open Forge.TurnProjection

section Invariant

def Open (turn : Turn) : Prop := turn.status = .thinking ∨ turn.status = .toolUse

instance (turn : Turn) : Decidable (Open turn) := inferInstanceAs (Decidable (_ ∨ _))

def Closed (turn : Turn) : Prop := turn.status = .complete ∨ turn.status = .interrupted

def Records (print : Json → String) (event : TurnProjectionEvent) (step : TurnStep) : Prop :=
  event.eventType = "pre_tool_use" ∧ step.id = (toolStep print event).id
    ∧ step.startedAt = event.createdAtMs

def Begins (event : TurnProjectionEvent) (turn : Turn) : Prop :=
  turn.startedAt = event.createdAtMs ∧ turn.sessionId = event.sessionId.getD ""

structure Sound (print : Json → String) (past : List TurnProjectionEvent) (turn : Turn) :
    Prop where
  noError : turn.status ≠ .error
  completed : Closed turn → turn.completedAt.isSome
  settled : Closed turn → ∀ step ∈ turn.steps, step.status ≠ .pending
  thinking : turn.status = .thinking → turn.completedAt = none
  assistant : Open turn → turn.turnType = .assistant
  begun : ∃ event ∈ past, Begins event turn
  steps : ∀ step ∈ turn.steps,
    turn.startedAt ≤ step.startedAt ∧ ∃ event ∈ past, Records print event step

def Timely (turn : Turn) : Prop := ∀ time, turn.completedAt = some time → turn.startedAt ≤ time

/-- The invariant of the fold: only the current turn can be open. -/
structure Kept (print : Json → String) (past : List TurnProjectionEvent)
    (context : BuildContext) : Prop where
  sound : ∀ turn ∈ context.turns, Sound print past turn ∧ Timely turn
  current : ∀ index turn, context.turns[index]? = some turn → Open turn →
    context.currentTurn = some index
  numbered : context.turns.map (fun turn => turn.sequence) = List.range' 1 context.turns.length
  counted : context.sequence = context.turns.length

end Invariant

section Turns

variable {print : Json → String} {past more : List TurnProjectionEvent} {turn : Turn}

theorem Sound.mono (sound : Sound print past turn) (within : past ⊆ more) :
    Sound print more turn where
  __ := sound
  begun :=
    let ⟨event, member, begins⟩ := sound.begun
    ⟨event, within member, begins⟩
  steps step inside :=
    let ⟨later, event, member, records⟩ := sound.steps step inside
    ⟨later, event, within member, records⟩

theorem closed_of_not_open (noError : turn.status ≠ .error) (idle : ¬ Open turn) : Closed turn := by
  cases status : turn.status with
  | complete => exact .inl status
  | interrupted => exact .inr status
  | error => exact absurd status noError
  | thinking => exact absurd (.inl status) idle
  | toolUse => exact absurd (.inr status) idle

theorem not_closed_of_open (busy : Open turn) : ¬ Closed turn := by
  rintro (closed | closed)
  · rcases busy with busy | busy <;> exact nomatch closed.symm.trans busy
  · rcases busy with busy | busy <;> exact nomatch closed.symm.trans busy

theorem not_open_finalizeTurn (time : Int64) (turn : Turn) : ¬ Open (finalizeTurn time turn) := by
  unfold Open finalizeTurn
  dsimp only
  split
  case isTrue => nofun
  case isFalse idle => exact idle

theorem mem_steps_finalizeTurn {time : Int64} {step : TurnStep}
    (member : step ∈ (finalizeTurn time turn).steps) :
    step.status ≠ .pending
      ∧ ∃ old ∈ turn.steps, step.id = old.id ∧ step.startedAt = old.startedAt := by
  obtain ⟨old, inside, rfl⟩ := List.mem_map.1 member
  split
  case isTrue => exact ⟨nofun, old, inside, rfl, rfl⟩
  case isFalse known => exact ⟨known, old, inside, rfl, rfl⟩

theorem Sound.finalize (sound : Sound print past turn) {status : TurnStatus}
    (noError : status ≠ .error) (response : Option String) (time : Int64) :
    Sound print past (finalizeTurn time { turn with status := status, response := response }) where
  noError := by
    unfold finalizeTurn
    dsimp only
    split
    case isTrue => nofun
    case isFalse => exact noError
  completed _ := rfl
  settled _ _ member := (mem_steps_finalizeTurn member).1
  thinking busy := absurd (.inl busy) (not_open_finalizeTurn time _)
  assistant busy := absurd busy (not_open_finalizeTurn time _)
  begun := sound.begun
  steps step member := by
    obtain ⟨-, old, inside, named, timed⟩ := mem_steps_finalizeTurn member
    obtain ⟨later, event, given, kind, same, began⟩ := sound.steps old inside
    exact ⟨timed ▸ later, event, given, kind, named.trans same, timed.trans began⟩

theorem timely_finalizeTurn {time : Int64} (later : turn.startedAt ≤ time) :
    Timely (finalizeTurn time turn) := by
  rintro _ ⟨⟩
  exact later

theorem mem_changeStep {id : String} {change : TurnStep → TurnStep} {steps : List TurnStep}
    {step : TurnStep} (member : step ∈ changeStep id change steps) :
    step ∈ steps ∨ ∃ old ∈ steps, step = change old := by
  induction steps with
  | nil => exact .inl member
  | cons first rest ih =>
      rw [changeStep] at member
      split at member
      · rcases List.mem_cons.1 member with rfl | later
        · exact .inr ⟨first, .head _, rfl⟩
        · exact .inl (.tail _ later)
      · rcases List.mem_cons.1 member with rfl | later
        · exact .inl (.head _)
        · rcases ih later with same | ⟨old, inside, changed⟩
          · exact .inl (.tail _ same)
          · exact .inr ⟨old, .tail _ inside, changed⟩

variable {event : TurnProjectionEvent}

theorem Sound.useTool (sound : Sound print past turn) (member : event ∈ past)
    (kind : event.eventType = "pre_tool_use") (mine : turn.turnType = .assistant)
    (later : turn.startedAt ≤ event.createdAtMs) (thinking : Option String) (count : Nat) :
    Sound print past { turn with
      status := .toolUse, thinking := thinking, steps := turn.steps ++ [toolStep print event],
      rawEventCount := count } where
  noError := nofun
  completed closed := absurd closed (not_closed_of_open (.inr rfl))
  settled closed := absurd closed (not_closed_of_open (.inr rfl))
  thinking := nofun
  assistant _ := mine
  begun := sound.begun
  steps step inside := by
    rcases List.mem_append.1 inside with old | new
    · exact sound.steps step old
    · rw [List.mem_singleton.1 new]
      exact ⟨later, event, member, kind, rfl, rfl⟩

theorem Sound.answer (sound : Sound print past turn) (event : TurnProjectionEvent) (count : Nat) :
    Sound print past { turn with
      steps := match payloadStr event.payload "toolUseId" with
        | none => turn.steps
        | some toolUseId => changeStep toolUseId (answeredStep print event) turn.steps
      rawEventCount := count } := by
  have known : ∀ step ∈ (match payloadStr event.payload "toolUseId" with
      | none => turn.steps
      | some toolUseId => changeStep toolUseId (answeredStep print event) turn.steps),
      step ∈ turn.steps ∨ ∃ old ∈ turn.steps, step = answeredStep print event old := by
    intro step member
    split at member
    · exact .inl member
    · exact mem_changeStep member
  have answered : ∀ old, (answeredStep print event old).status ≠ .pending := by
    intro old
    unfold answeredStep
    dsimp only
    split <;> nofun
  refine { sound with settled := ?_, steps := ?_ }
  · intro closed step member
    rcases known step member with same | ⟨old, -, rfl⟩
    · exact sound.settled closed step same
    · exact answered old
  · intro step member
    rcases known step member with same | ⟨old, inside, rfl⟩
    · exact sound.steps step same
    · exact sound.steps old inside

end Turns

section Contexts

variable {print : Json → String} {past more : List TurnProjectionEvent} {context : BuildContext}
  {holds : Turn → Bool} {change : Turn → Turn}

theorem Kept.mono (kept : Kept print past context) (within : past ⊆ more) :
    Kept print more context where
  __ := kept
  sound turn member := ⟨(kept.sound turn member).1.mono within, (kept.sound turn member).2⟩

theorem turn_of_changeCurrent {index : Nat} {turn : Turn}
    (there : (context.changeCurrent holds change).turns[index]? = some turn) :
    (context.turns[index]? = some turn ∧ (context.currentTurn = some index → ¬ holds turn)) ∨
      ∃ old, context.turns[index]? = some old ∧ context.currentTurn = some index ∧ holds old
        ∧ turn = change old := by
  unfold BuildContext.changeCurrent at there
  split at there
  case h_1 none => exact .inl ⟨there, fun same => nomatch none.symm.trans same⟩
  case h_2 current here =>
      rw [List.getElem?_modify] at there
      split at there
      case isFalse other =>
          rw [id_map'] at there
          exact .inl ⟨there, fun same => absurd (Option.some.inj (here.symm.trans same)) other⟩
      case isTrue same =>
          obtain ⟨old, found, changed⟩ := Option.map_eq_some_iff.1 there
          split at changed
          case isTrue held => exact .inr ⟨old, found, same ▸ here, held, changed.symm⟩
          case isFalse other =>
              obtain rfl := changed
              exact .inl ⟨found, fun _ => other⟩

theorem currentTurn_changeCurrent :
    (context.changeCurrent holds change).currentTurn = context.currentTurn := by
  unfold BuildContext.changeCurrent
  split
  · rfl
  · rfl

theorem map_sequence_changeCurrent (keeps : ∀ turn, (change turn).sequence = turn.sequence) :
    (context.changeCurrent holds change).turns.map (fun turn => turn.sequence) =
      context.turns.map fun turn => turn.sequence := by
  unfold BuildContext.changeCurrent
  split
  · rfl
  · refine List.ext_getElem? fun index => ?_
    rw [List.getElem?_map, List.getElem?_map, List.getElem?_modify]
    split
    · rw [Option.map_eq_map, Option.map_map]
      refine congrArg (Option.map · _) (funext fun turn => ?_)
      rw [Function.comp_apply]
      split
      · exact keeps turn
      · rfl
    · rw [id_map']

theorem Kept.changeCurrent (kept : Kept print past context)
    (keeps : ∀ turn, (change turn).sequence = turn.sequence)
    (sound : ∀ turn ∈ context.turns, Sound print past turn → Timely turn → holds turn →
      Sound print past (change turn) ∧ Timely (change turn)) :
    Kept print past (context.changeCurrent holds change) where
  sound turn member := by
    obtain ⟨index, there⟩ := List.getElem?_of_mem member
    rcases turn_of_changeCurrent there with ⟨same, -⟩ | ⟨old, found, -, held, rfl⟩
    · exact kept.sound turn (List.mem_of_getElem? same)
    · have inside := List.mem_of_getElem? found
      exact sound old inside (kept.sound old inside).1 (kept.sound old inside).2 held
  current index turn there busy := by
    rw [currentTurn_changeCurrent]
    rcases turn_of_changeCurrent there with ⟨same, -⟩ | ⟨-, -, here, -⟩
    · exact kept.current index turn same busy
    · exact here
  numbered := by
    have lengths := congrArg List.length (@map_sequence_changeCurrent context holds change keeps)
    rw [List.length_map, List.length_map] at lengths
    rw [map_sequence_changeCurrent keeps, lengths, kept.numbered]
  counted := by
    have lengths := congrArg List.length (@map_sequence_changeCurrent context holds change keeps)
    rw [List.length_map, List.length_map] at lengths
    rw [lengths, ← kept.counted]
    unfold BuildContext.changeCurrent
    split
    · rfl
    · rfl

theorem Kept.idle (kept : Kept print past context) (closes : ∀ turn, ¬ Open (change turn))
    (others : ∀ turn, ¬ holds turn → ¬ Open turn) :
    ∀ turn ∈ (context.changeCurrent holds change).turns, ¬ Open turn := by
  intro turn member busy
  obtain ⟨index, there⟩ := List.getElem?_of_mem member
  rcases turn_of_changeCurrent there with ⟨same, unheld⟩ | ⟨old, -, -, -, rfl⟩
  · exact others turn (unheld (kept.current index turn same busy)) busy
  · exact closes old busy

theorem Kept.push (kept : Kept print past context) (idle : ∀ turn ∈ context.turns, ¬ Open turn)
    {turn : Nat → Turn} {becomes : Bool} (numbered : ∀ sequence, (turn sequence).sequence = sequence)
    (sound : ∀ sequence, Sound print past (turn sequence) ∧ Timely (turn sequence))
    (closed : becomes = false → ∀ sequence, ¬ Open (turn sequence)) :
    Kept print past (context.push turn becomes) where
  sound one member := by
    rcases List.mem_append.1 member with old | new
    · exact kept.sound one old
    · exact List.mem_singleton.1 new ▸ sound _
  current index one there busy := by
    rcases Nat.lt_or_ge index context.turns.length with inside | outside
    · rw [BuildContext.push, List.getElem?_append_left inside] at there
      exact absurd busy (idle one (List.mem_of_getElem? there))
    · rw [BuildContext.push, List.getElem?_append_right outside, List.getElem?_singleton] at there
      split at there
      case isFalse => cases there
      case isTrue first =>
          cases becomes with
          | false => exact absurd busy (Option.some.inj there ▸ closed rfl _)
          | true => exact congrArg some (by omega)
  numbered := by
    rw [BuildContext.push, List.map_append, kept.numbered, List.map_singleton, numbered,
      kept.counted, List.length_append, List.length_singleton, List.range'_concat]
    rw [Nat.one_mul, Nat.add_comm 1]
  counted := by rw [BuildContext.push, kept.counted, List.length_append, List.length_singleton]

end Contexts

section Steps

variable {print : Json → String} {past : List TurnProjectionEvent} {context : BuildContext}
  {event : TurnProjectionEvent} {holds : Turn → Bool}

theorem sound_begin {turn : Turn} (member : event ∈ past) (begins : Begins event turn)
    (noSteps : turn.steps = []) (noError : turn.status ≠ .error)
    (completed : turn.completedAt = if Open turn then none else some event.createdAtMs)
    (mine : Open turn → turn.turnType = .assistant) : Sound print past turn ∧ Timely turn := by
  constructor
  · constructor
    case noError => exact noError
    case completed =>
        intro closed
        rw [completed, if_neg fun busy => not_closed_of_open busy closed]
        rfl
    case thinking => exact fun busy => completed.trans (if_pos (.inl busy))
    case assistant => exact mine
    case begun => exact ⟨event, member, begins⟩
    case settled | steps => simp [noSteps]
  · intro time same
    rw [completed] at same
    split at same
    case isTrue => exact nomatch same
    case isFalse =>
        rw [begins.1, Option.some.inj same]
        exact Int64.le_rfl

theorem kept_finalizeOpen (kept : Kept print past context)
    (later : ∀ turn ∈ context.turns, turn.startedAt ≤ event.createdAtMs) :
    Kept print past (context.finalizeOpenCurrentTurn event.createdAtMs)
      ∧ ∀ turn ∈ (context.finalizeOpenCurrentTurn event.createdAtMs).turns, ¬ Open turn := by
  constructor
  · exact kept.changeCurrent (fun _ => rfl) fun turn member sound _ _ =>
      ⟨sound.finalize sound.noError turn.response _, timely_finalizeTurn (later turn member)⟩
  · refine kept.idle (not_open_finalizeTurn _) ?_
    rintro turn unheld (busy | busy) <;> simp [TurnStatus.isTerminal, busy] at unheld

theorem kept_pushSystem (kept : Kept print past context) (member : event ∈ past)
    (idle : ∀ turn ∈ context.turns, ¬ Open turn) (response : String) :
    Kept print past (pushSystem event context response) := by
  have closed : ∀ sequence, ¬ Open { createTurn event event.id.toText sequence .system .complete
      none with
        response := some response
        completedAt := some event.createdAtMs
        durationMs := some 0 } := fun _ => nofun
  refine kept.push idle (fun _ => rfl) (fun sequence => ?_) fun _ => closed
  exact sound_begin member ⟨rfl, rfl⟩ rfl nofun (if_neg (closed sequence)).symm
    fun busy => absurd busy (closed sequence)

def promptTurn (event : TurnProjectionEvent) (sequence : Nat) : Turn :=
  { createTurn event event.id.toText sequence .user .complete
      (payloadStr event.payload "cliTool") with
    prompt := payloadStr event.payload "prompt"
    images := payloadStringArray event.payload "images"
    completedAt := some event.createdAtMs
    durationMs := some 0 }

theorem kept_prompt (kept : Kept print past context) (member : event ∈ past)
    (later : ∀ turn ∈ context.turns, turn.startedAt ≤ event.createdAtMs) :
    Kept print past (handlePromptSubmit context event) := by
  obtain ⟨closed, idle⟩ := kept_finalizeOpen kept later
  have still : ∀ sequence, ¬ Open (promptTurn event sequence) := fun _ => nofun
  have mark : ∀ sequence, Sound print past (promptTurn event sequence)
      ∧ Timely (promptTurn event sequence) := fun sequence =>
    sound_begin member ⟨rfl, rfl⟩ rfl nofun (if_neg (still sequence)).symm
      fun busy => absurd busy (still sequence)
  have asked := @Kept.push print past _ closed idle (promptTurn event) false (fun _ => rfl) mark
    fun _ => still
  refine @Kept.push print past _ asked (fun turn inside => ?_)
    (fun sequence => createTurn event (assistantId event) sequence .assistant .thinking
      (payloadStr event.payload "cliTool")) true (fun _ => rfl) (fun sequence => ?_) nofun
  · rcases List.mem_append.1 inside with old | new
    · exact idle turn old
    · exact List.mem_singleton.1 new ▸ still _
  · exact sound_begin member ⟨rfl, rfl⟩ rfl nofun (if_pos (.inl rfl)).symm fun _ => rfl

theorem Kept.idle_of_no_assistant (kept : Kept print past context)
    (none : ¬ context.hasAssistant) : ∀ turn ∈ context.turns, ¬ Open turn := by
  intro turn member busy
  obtain ⟨index, there⟩ := List.getElem?_of_mem member
  refine none ?_
  rw [BuildContext.hasAssistant, kept.current index turn there busy, Option.bind_some, there,
    Option.any_some, decide_eq_true_iff]
  exact (kept.sound turn member).1.assistant busy

theorem kept_preToolUse (kept : Kept print past context) (member : event ∈ past)
    (kind : event.eventType = "pre_tool_use")
    (later : ∀ turn ∈ context.turns, turn.startedAt ≤ event.createdAtMs) :
    Kept print past (handlePreToolUse print context event) := by
  have use : ∀ opened : BuildContext, Kept print past opened →
      (∀ turn ∈ opened.turns, turn.startedAt ≤ event.createdAtMs) →
      Kept print past (opened.changeAssistant fun turn =>
        { turn with
          status := .toolUse
          thinking := turn.thinking.or (payloadStr event.payload "assistantText")
          steps := turn.steps ++ [toolStep print event]
          rawEventCount := turn.rawEventCount + 1 }) := by
    intro opened kept later
    exact kept.changeCurrent (fun _ => rfl) fun turn inside sound timely held =>
      ⟨sound.useTool member kind (of_decide_eq_true held) (later turn inside) _ _, timely⟩
  unfold handlePreToolUse
  split
  case isTrue => exact use context kept later
  case isFalse none =>
      refine use _ (kept.push (kept.idle_of_no_assistant none) (fun _ => rfl) ?_ nofun) ?_
      · intro sequence
        exact sound_begin member ⟨rfl, rfl⟩ rfl nofun (if_pos (.inr rfl)).symm fun _ => rfl
      · intro turn inside
        rcases List.mem_append.1 inside with old | new
        · exact later turn old
        · rw [List.mem_singleton.1 new]
          exact Int64.le_rfl

theorem kept_sessionEnd (kept : Kept print past context) (member : event ∈ past)
    (later : ∀ turn ∈ context.turns, turn.startedAt ≤ event.createdAtMs) :
    Kept print past (handleSessionEnd context event) := by
  have known : TurnStatus.interrupted ≠ .error := nofun
  have closed : Kept print past (context.changeCurrent (fun turn => !turn.status.isTerminal)
      fun turn => finalizeTurn event.createdAtMs { turn with status := .interrupted }) :=
    kept.changeCurrent (fun _ => rfl) fun turn inside sound _ _ =>
      ⟨sound.finalize known turn.response _, timely_finalizeTurn (later turn inside)⟩
  refine kept_pushSystem closed member (kept.idle (fun turn => not_open_finalizeTurn _ _) ?_) _
  rintro turn unheld (busy | busy) <;> simp [TurnStatus.isTerminal, busy] at unheld

theorem kept_step (kept : Kept print past context)
    (later : ∀ other ∈ past, other.createdAtMs ≤ event.createdAtMs) :
    Kept print (past ++ [event]) (step print context event) := by
  have member : event ∈ past ++ [event] := List.mem_append_right _ (.head _)
  have begun : ∀ turn ∈ context.turns, turn.startedAt ≤ event.createdAtMs := by
    intro turn inside
    obtain ⟨other, before, begins⟩ := (kept.sound turn inside).1.begun
    rw [begins.1]
    exact later other before
  have kept := kept.mono (List.subset_append_left past [event])
  have counts : Kept print (past ++ [event]) (context.changeAssistant fun turn =>
      { turn with rawEventCount := turn.rawEventCount + 1 }) :=
    kept.changeCurrent (fun _ => rfl) fun _ _ sound timely _ => ⟨{ sound with }, timely⟩
  have closed := kept_finalizeOpen kept begun
  rw [step]
  split
  case isFalse => exact { kept with }
  case isTrue =>
      rw [processEvent.eq_def]
      split
      case h_1 => exact kept_prompt kept member begun
      case h_2 kind => exact kept_preToolUse kept member kind begun
      case h_3 =>
          exact kept.changeCurrent (fun _ => rfl) fun _ _ sound timely _ =>
            ⟨sound.answer event _, timely⟩
      case h_4 =>
          exact kept.changeCurrent (fun _ => rfl) fun turn inside sound _ _ =>
            ⟨sound.finalize sound.noError _ _, timely_finalizeTurn (begun turn inside)⟩
      case h_5 => exact kept_pushSystem closed.1 member closed.2 _
      case h_6 => exact kept_sessionEnd kept member begun
      case h_12 => exact kept
      all_goals exact counts

theorem kept_fold {events : List TurnProjectionEvent} (kept : Kept print past context)
    (ordered : (past ++ events).Pairwise fun left right => left.createdAtMs ≤ right.createdAtMs) :
    Kept print (past ++ events) (events.foldl (step print) context) := by
  induction events generalizing past context with
  | nil => exact (List.append_nil past).symm ▸ kept
  | cons event rest ih =>
      have later := (List.pairwise_append.1 ordered).2.2
      have one := @kept_step print past context event kept
        fun other before => later other before event (.head _)
      rw [List.append_cons] at ordered ⊢
      exact ih one ordered

end Steps

section Stops

variable {print : Json → String} {past more : List TurnProjectionEvent} {context : BuildContext}
  {event : TurnProjectionEvent} {holds : Turn → Bool} {change : Turn → Turn}

def Stopped (past : List TurnProjectionEvent) (turn : Turn) : Prop :=
  ∀ time, turn.completedAt = some time →
    ∃ event ∈ past, event.eventType = "stop" ∧ event.createdAtMs = time

def Halted (past : List TurnProjectionEvent) (context : BuildContext) : Prop :=
  ∀ index turn, context.currentTurn = some index → context.turns[index]? = some turn →
    Stopped past turn

theorem Halted.mono (halted : Halted past context) (within : past ⊆ more) :
    Halted more context := by
  intro index turn here there time completed
  obtain ⟨event, member, stop⟩ := halted index turn here there time completed
  exact ⟨event, within member, stop⟩

theorem Halted.changeCurrent (halted : Halted past context)
    (stops : ∀ turn, Stopped past turn → Stopped past (change turn)) :
    Halted past (context.changeCurrent holds change) := by
  intro index turn here there
  rw [currentTurn_changeCurrent] at here
  rcases turn_of_changeCurrent there with ⟨same, -⟩ | ⟨old, found, -, -, rfl⟩
  · exact halted index turn here same
  · exact stops old (halted index old here found)

theorem halted_push {turn : Nat → Turn} {becomes : Bool}
    (fresh : becomes = true → ∀ sequence, (turn sequence).completedAt = none) :
    Halted past (context.push turn becomes) := by
  intro index one here there time completed
  cases becomes with
  | false => cases here
  | true =>
      obtain rfl := Option.some.inj here
      rw [BuildContext.push, List.getElem?_append_right (Nat.le_refl _), Nat.sub_self] at there
      rw [← Option.some.inj there, fresh rfl] at completed
      cases completed

theorem halted_step (halted : Halted past context) :
    Halted (past ++ [event]) (step print context event) := by
  have halted := halted.mono (List.subset_append_left past [event])
  have same : ∀ {holds change}, (∀ turn, (change turn).completedAt = turn.completedAt) →
      ∀ {context : BuildContext}, Halted (past ++ [event]) context →
        Halted (past ++ [event]) (context.changeCurrent holds change) :=
    fun keeps _ halted => halted.changeCurrent fun turn stopped time completed =>
      stopped time ((keeps turn).symm.trans completed)
  have counts := @same (fun turn => turn.turnType = .assistant)
    (fun turn => { turn with rawEventCount := turn.rawEventCount + 1 }) (fun _ => rfl) _ halted
  rw [step]
  split
  case isFalse => exact halted
  case isTrue =>
      rw [processEvent.eq_def]
      split
      case h_1 => exact halted_push fun _ _ => rfl
      case h_2 =>
          unfold handlePreToolUse BuildContext.changeAssistant
          refine same ?_ ?_
          · exact fun _ => rfl
          · split
            case isTrue => exact halted
            case isFalse => exact halted_push fun _ _ => rfl
      case h_3 =>
          unfold handlePostToolUse BuildContext.changeAssistant
          refine same ?_ halted
          exact fun _ => rfl
      case h_4 stop =>
          refine halted.changeCurrent fun turn _ time completed => ?_
          exact ⟨event, List.mem_append_right _ (.head _), stop, Option.some.inj completed⟩
      case h_5 | h_6 => exact halted_push fun same => absurd same Bool.false_ne_true
      case h_12 => exact halted
      all_goals exact counts

theorem halted_fold {events : List TurnProjectionEvent} (halted : Halted past context) :
    Halted (past ++ events) (events.foldl (step print) context) := by
  induction events generalizing past context with
  | nil => exact (List.append_nil past).symm ▸ halted
  | cons event rest ih =>
      rw [List.append_cons]
      exact ih (halted_step halted)

end Stops

section Names

variable {event other : TurnProjectionEvent}

theorem take_key {k : Key} (member : k ∈ eventKeys event) :
    k.2.toList.take 36 = event.id.toText.toList := by
  have size := event.id.length_toText
  rcases List.mem_pair.1 member with rfl | rfl
  · exact List.take_of_length_le size.le
  · rw [assistantId, String.toList_append, ← size, List.take_left]

theorem keys_apart {events : List TurnProjectionEvent}
    (apart : events.Pairwise fun left right => left.id ≠ right.id) :
    ((events.flatMap eventKeys).map Prod.snd).Pairwise fun left right => left ≠ right := by
  refine List.pairwise_map.2 (List.pairwise_flatMap.2 ⟨fun event _ => ?_, ?_⟩)
  · refine List.pairwise_pair.2 fun same => ?_
    have lengths := congrArg (fun text : String => text.toList.length) same
    rw [assistantId, String.toList_append, List.length_append] at lengths
    exact absurd lengths (by simp)
  · refine apart.imp fun differ first inside second inside' same => differ ?_
    have texts := take_key inside
    rw [same, take_key inside'] at texts
    exact (Uuid.toText_inj.1 (String.toList_inj.1 texts)).symm

end Names

section Result

variable {print : Json → String} {past events : List TurnProjectionEvent} {context : BuildContext}

/-- The last tool of the turn, if there is one, reported a duration that is not negative and does
not lead out of the times. -/
def Credible (turn : Turn) : Prop :=
  ∀ step, turn.steps.getLast? = some step →
    0 ≤ (step.durationMs.getD 0).toInt
      ∧ Fits (step.startedAt.toInt + (step.durationMs.getD 0).toInt)

theorem le_lastActivityTime {turn : Turn} {nowMs : Int64} (sound : Sound print past turn)
    (credible : Credible turn) (silent : nowMs - lastActivityTime turn nowMs > interruptedAfterMs) :
    turn.startedAt ≤ lastActivityTime turn nowMs := by
  unfold lastActivityTime at silent ⊢
  split at silent
  case h_1 step last =>
      obtain ⟨positive, fits⟩ := credible step last
      have later := Int64.le_iff_toInt_le.1 (sound.steps step (List.mem_of_getLast? last)).1
      have exact : (step.startedAt + step.durationMs.getD 0).toInt =
          step.startedAt.toInt + (step.durationMs.getD 0).toInt := by
        rw [Int64.toInt_add]
        exact Int.bmod_eq_of_le fits.1 fits.2
      rw [Int64.le_iff_toInt_le, exact]
      omega
  case h_2 =>
      split at silent
      case isTrue began =>
          rw [if_pos began]
          exact Int64.le_rfl
      case isFalse =>
          rw [Int64.sub_self] at silent
          exact absurd silent (by decide)

theorem credible_of_finalizeTurn {turn : Turn} {time : Int64}
    (credible : Credible (finalizeTurn time turn)) : Credible turn := by
  intro step last
  have finalized : (finalizeTurn time turn).steps.getLast? =
      some (if step.status = .pending then { step with status := .timeout } else step) := by
    simp only [finalizeTurn, List.getLast?_map, last, Option.map_some]
  have known := credible _ finalized
  split at known <;> exact known

theorem interrupted (kept : Kept print past context) (nowMs : Int64) {turn : Turn}
    (member : turn ∈ (interrupt nowMs context).turns) :
    Sound print past turn ∧ (Credible turn → Timely turn) := by
  obtain ⟨index, there⟩ := List.getElem?_of_mem member
  rcases turn_of_changeCurrent there with ⟨same, -⟩ | ⟨old, found, -, held, rfl⟩
  · have known := kept.sound turn (List.mem_of_getElem? same)
    exact ⟨known.1, fun _ => known.2⟩
  · have known := kept.sound old (List.mem_of_getElem? found)
    have status : TurnStatus.interrupted ≠ .error := nofun
    simp only [Bool.and_eq_true, decide_eq_true_iff] at held
    refine ⟨known.1.finalize status old.response _, fun credible => timely_finalizeTurn ?_⟩
    have credible : Credible { old with status := .interrupted } :=
      credible_of_finalizeTurn credible
    have later := le_lastActivityTime known.1 credible held.2
    exact later

theorem numbered_interrupt (kept : Kept print past context) (nowMs : Int64) :
    (interrupt nowMs context).turns.map (fun turn => turn.sequence) =
      List.range' 1 (interrupt nowMs context).turns.length := by
  have same := @map_sequence_changeCurrent context (fun turn => turn.turnType = .assistant
    && !turn.status.isTerminal && decide (nowMs - lastActivityTime turn nowMs > interruptedAfterMs))
    (fun turn => finalizeTurn (lastActivityTime turn nowMs) { turn with status := .interrupted })
    fun _ => rfl
  have lengths := congrArg List.length same
  rw [List.length_map, List.length_map] at lengths
  rw [interrupt, same, lengths, kept.numbered]

theorem open_interrupt (kept : Kept print past context) (current : Current context) (nowMs : Int64)
    {index : Nat} {turn : Turn} (there : (interrupt nowMs context).turns[index]? = some turn)
    (busy : Open turn) : index + 1 = (interrupt nowMs context).turns.length := by
  have lengths := (adds_interrupt current nowMs).length
  rw [List.length_nil, Nat.add_zero] at lengths
  rw [lengths]
  rcases turn_of_changeCurrent there with ⟨same, -⟩ | ⟨old, -, here, -, rfl⟩
  · exact current index (kept.current index turn same busy)
  · exact current index here

/-- What holds of each turn of the events. -/
structure WellFormed (print : Json → String) (events : List TurnProjectionEvent) (turn : Turn) :
    Prop where
  completed : Closed turn → turn.completedAt.isSome
  thinking : turn.status = .thinking → turn.completedAt = none
  reopened : turn.status = .toolUse → Stopped events turn
  status : Closed turn ∨ Open turn
  settled : Closed turn → ∀ step ∈ turn.steps, step.status ≠ .pending
  timely : Credible turn → ∀ time, turn.completedAt = some time → turn.startedAt ≤ time
  begun : ∃ event ∈ events, Begins event turn
  steps : ∀ step ∈ turn.steps,
    turn.startedAt ≤ step.startedAt ∧ ∃ event ∈ events, Records print event step

theorem sorted_subset (events : List TurnProjectionEvent) : sorted events ⊆ events :=
  fun _ member => (List.perm_insertionSort _ events).subset ((dedupe_sublist [] _).subset member)

theorem stopped_interrupt (kept : Kept print past context) (halted : Halted past context)
    (nowMs : Int64) {turn : Turn} (member : turn ∈ (interrupt nowMs context).turns)
    (using_ : turn.status = .toolUse) : Stopped past turn := by
  obtain ⟨index, there⟩ := List.getElem?_of_mem member
  rcases turn_of_changeCurrent there with ⟨same, -⟩ | ⟨old, -, -, -, rfl⟩
  · exact halted index turn (kept.current index turn same (.inr using_)) same
  · exact absurd (.inr using_) (not_open_finalizeTurn _ _)

theorem kept_sorted (print : Json → String) (events : List TurnProjectionEvent) :
    Kept print events ((sorted events).foldl (step print) empty) := by
  have started : Kept print [] empty :=
    ⟨fun _ member => absurd member List.not_mem_nil, fun _ _ there => (nomatch there), rfl, rfl⟩
  exact (kept_fold started (sorted_times events)).mono (sorted_subset events)

theorem turns_well_formed (print : Json → String) (events : List TurnProjectionEvent)
    (nowMs : Int64) :
    (buildTurns print events nowMs).turns.map (fun turn => turn.sequence) =
        List.range' 1 (buildTurns print events nowMs).turns.length
      ∧ (buildTurns print events nowMs).turns.Pairwise (fun left right => left.id ≠ right.id)
      ∧ (∀ turn ∈ (buildTurns print events nowMs).turns, WellFormed print events turn)
      ∧ ∀ turn ∈ (buildTurns print events nowMs).turns.dropLast, Closed turn := by
  have kept := kept_sorted print events
  have started : Halted [] empty := fun _ _ here => (nomatch here)
  have halted := (@halted_fold print [] empty (sorted events) started).mono (sorted_subset events)
  obtain ⟨added, within, adds⟩ := @adds_fold print empty (sorted events) current_empty
  have keys := (adds.trans (adds_interrupt adds.current nowMs)).keys
  refine ⟨numbered_interrupt kept nowMs, ?_, fun turn member => ?_, fun turn member => ?_⟩
  · have apart := (dedupe_ids [] (events.insertionSort fun left right => eventLe left right)).2
    have names := (keys_apart apart).sublist (within.map Prod.snd)
    have same : (buildTurns print events nowMs).turns.map (fun turn => turn.id) =
        added.map Prod.snd := by
      have seconds := congrArg (List.map Prod.snd) keys
      rw [List.append_nil, List.map_map] at seconds
      exact seconds
    exact List.pairwise_map.1 (same ▸ names)
  · obtain ⟨sound, timely⟩ := interrupted kept nowMs member
    refine { sound with
      status := ?_, timely := timely, reopened := stopped_interrupt kept halted nowMs member }
    by_cases busy : Open turn
    · exact .inr busy
    · exact .inl (closed_of_not_open sound.noError busy)
  · obtain ⟨index, there⟩ := List.getElem?_of_mem member
    rw [List.getElem?_dropLast] at there
    split at there
    case isFalse => exact nomatch there
    case isTrue before =>
        have sound := (interrupted kept nowMs (List.mem_of_getElem? there)).1
        refine closed_of_not_open sound.noError fun busy => ?_
        have last := open_interrupt kept adds.current nowMs there busy
        have shorter : index <
            (interrupt nowMs ((sorted events).foldl (step print) empty)).turns.length - 1 := before
        omega

def OfOneSession (print : Json → String) (events : List TurnProjectionEvent) (turn : Turn) : Prop :=
  ∀ step ∈ turn.steps, ∃ event ∈ events,
    Records print event step ∧ event.sessionId.getD "" = turn.sessionId

def twoSessions : List TurnProjectionEvent :=
  [⟨⟨1⟩, "user_prompt_submit", .object [], some "first", 1000⟩,
    ⟨⟨2⟩, "pre_tool_use", .object [], some "second", 2000⟩]

theorem step_of_other_session :
    ¬ ∀ print events nowMs, ∀ turn ∈ (buildTurns print events nowMs).turns,
      OfOneSession print events turn := by
  intro own
  have answered : ∃ turn ∈ (buildTurns (fun _ => "") twoSessions 2000).turns,
      turn.sessionId = "first" ∧ ∃ step, step ∈ turn.steps :=
    ⟨_, .tail _ (.head _), rfl, _, .head _⟩
  obtain ⟨turn, member, session, step, inside⟩ := answered
  obtain ⟨event, given, records, same⟩ := own _ _ _ turn member step inside
  rw [session] at same
  rcases List.mem_pair.1 given with rfl | rfl
  · exact absurd records.1 (by decide)
  · exact absurd same (by decide)

end Result

end Forge.TurnInvariants
