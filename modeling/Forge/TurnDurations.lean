import Forge.Library.Writes
import Forge.TurnInvariants

/-! The arithmetic on times and durations while turns are built. -/

namespace Forge.TurnDurations

open Forge.Library.JsonDocument
open Forge.Library.MachineInt (Fits toInt_ofInt)
open Forge.Library.Writes
open Forge.TurnInvariants
open Forge.TurnOrder
open Forge.TurnProjection

section Operations

variable (print : Json → String)

def closes (context : BuildContext) (event : TurnProjectionEvent) : Option Turn :=
  let current := context.currentTurn.bind (context.turns[·]?)
  match event.eventType with
  | "stop" => current.filter fun turn => turn.turnType = .assistant
  | "user_prompt_submit" | "session_start" | "session_end" =>
      current.filter fun turn => !turn.status.isTerminal
  | _ => none

def gaps : BuildContext → List TurnProjectionEvent → List Int
  | _, [] => []
  | context, event :: rest =>
      ((closes context event).map fun turn => event.createdAtMs.toInt - turn.startedAt.toInt).toList
        ++ gaps (step print context event) rest

def working (context : BuildContext) : Option Turn :=
  (context.currentTurn.bind (context.turns[·]?)).filter fun turn =>
    turn.turnType = .assistant && !turn.status.isTerminal

/-- The exact sum in `last_activity_time`, if there is one. -/
def activitySum (turn : Turn) : Option Int :=
  turn.steps.getLast?.map fun step => step.startedAt.toInt + (step.durationMs.getD 0).toInt

def silence (nowMs : Int64) (turn : Turn) : List Int :=
  let last := lastActivityTime turn nowMs
  (activitySum turn).toList ++ (nowMs.toInt - last.toInt) ::
    if nowMs - last > interruptedAfterMs then [last.toInt - turn.startedAt.toInt] else []

def operations (events : List TurnProjectionEvent) (nowMs : Int64) : List Int :=
  gaps print empty (sorted events)
    ++ ((working ((sorted events).foldl (step print) empty)).map (silence nowMs)).getD []

def durations (turn : Turn) : List Int64 :=
  turn.durationMs.toList ++ turn.steps.filterMap fun step => step.durationMs

/-- Nothing overflows, and no reported duration is negative. -/
structure Sane (events : List TurnProjectionEvent) (nowMs : Int64) : Prop where
  fits : ∀ exact ∈ operations print events nowMs, Fits exact
  positive : ∀ turn ∈ (buildTurns print events nowMs).turns, ∀ duration ∈ durations turn,
    0 ≤ duration.toInt

end Operations

section Answers

abbrev Place := Nat × Nat

def answeredPlace (context : BuildContext) (event : TurnProjectionEvent) : Option Place := do
  let index ← context.currentTurn
  let turn ← context.turns[index]?
  let toolUseId ← payloadStr event.payload "toolUseId"
  if event.eventType = "post_tool_use" ∧ turn.turnType = .assistant then
    (turn.steps.findIdx? fun step => step.id = toolUseId).map (Prod.mk index)
  else none

def answer (context : BuildContext) (event : TurnProjectionEvent) : List (Place × Option Int64) :=
  ((answeredPlace context event).map fun place =>
    (place, payloadI64 event.payload "duration")).toList

def answers (print : Json → String) :
    BuildContext → List TurnProjectionEvent → List (Place × Option Int64)
  | _, [] => []
  | context, event :: rest => answer context event ++ answers print (step print context event) rest

def Acceptable (duration : Option Int64) : Prop := ∀ one, duration = some one → 0 ≤ one.toInt

def activity (nowMs : Int64) (turn : Turn) : Int :=
  (activitySum turn).getD (if turn.startedAt > 0 then turn.startedAt.toInt else nowMs.toInt)

/-- The silence of the working turn is within the range of a word. -/
structure Calm (nowMs : Int64) (turn : Turn) : Prop where
  active : activity nowMs turn < 2 ^ 63
  silent : Fits (nowMs.toInt - activity nowMs turn)
  lasted : nowMs.toInt - activity nowMs turn > interruptedAfterMs.toInt →
    activity nowMs turn < turn.startedAt.toInt + 2 ^ 63

/-- What the events and the clock have to keep to. -/
structure Guarded (print : Json → String) (events : List TurnProjectionEvent) (nowMs : Int64) :
    Prop where
  close : ∀ first event rest, sorted events = first ++ event :: rest →
    ∀ turn, closes (first.foldl (step print) empty) event = some turn →
      event.createdAtMs.toInt < turn.startedAt.toInt + 2 ^ 63
  answered : WrittenOver Acceptable (answers print empty (sorted events))
  calm : ∀ turn, working ((sorted events).foldl (step print) empty) = some turn → Calm nowMs turn

end Answers

section Gaps

variable {print : Json → String} {context : BuildContext} {events : List TurnProjectionEvent}

theorem mem_gaps {exact : Int} :
    exact ∈ gaps print context events ↔ ∃ first event rest, events = first ++ event :: rest
      ∧ ∃ turn, closes (first.foldl (step print) context) event = some turn
        ∧ exact = event.createdAtMs.toInt - turn.startedAt.toInt := by
  induction events generalizing context with
  | nil =>
      refine ⟨fun member => absurd member List.not_mem_nil, ?_⟩
      rintro ⟨first, event, rest, split, -⟩
      cases first <;> cases split
  | cons event events ih =>
      rw [gaps, List.mem_append, ih, Option.mem_toList, Option.map_eq_some_iff]
      constructor
      · rintro (⟨turn, closed, rfl⟩ | ⟨first, other, rest, rfl, turn, closed, rfl⟩)
        · exact ⟨[], event, events, rfl, turn, closed, rfl⟩
        · exact ⟨event :: first, other, rest, rfl, turn, closed, rfl⟩
      · rintro ⟨first, other, rest, split, turn, closed, rfl⟩
        cases first with
        | nil =>
            cases split
            exact .inl ⟨turn, closed, rfl⟩
        | cons _ first =>
            cases split
            exact .inr ⟨first, other, rest, rfl, turn, closed, rfl⟩

theorem current_of_closes {event : TurnProjectionEvent} {turn : Turn}
    (closed : closes context event = some turn) : turn ∈ context.turns := by
  have current : context.currentTurn.bind (context.turns[·]?) = some turn := by
    rw [closes] at closed
    split at closed
    case h_5 => exact nomatch closed
    all_goals exact (Option.filter_eq_some_iff.1 closed).1
  obtain ⟨index, -, there⟩ := Option.bind_eq_some_iff.1 current
  exact List.mem_of_getElem? there

theorem started_before {first rest : List TurnProjectionEvent} {event : TurnProjectionEvent}
    (split : sorted events = first ++ event :: rest) {turn : Turn}
    (member : turn ∈ (first.foldl (step print) empty).turns) :
    turn.startedAt.toInt ≤ event.createdAtMs.toInt := by
  have ordered := sorted_times events
  rw [split] at ordered
  obtain ⟨before, -, later⟩ := List.pairwise_append.1 ordered
  have kept := @kept_fold print [] empty first
    ⟨fun _ inside => absurd inside List.not_mem_nil, fun _ _ there => (nomatch there), rfl, rfl⟩
    before
  obtain ⟨other, inside, begins⟩ := (kept.sound turn member).1.begun
  rw [begins.1]
  exact Int64.le_iff_toInt_le.1 (later other inside event (.head _))

theorem gaps_fit :
    (∀ exact ∈ gaps print empty (sorted events), Fits exact) ↔
      ∀ first event rest, sorted events = first ++ event :: rest →
        ∀ turn, closes (first.foldl (step print) empty) event = some turn →
          event.createdAtMs.toInt < turn.startedAt.toInt + 2 ^ 63 := by
  constructor
  · intro fits first event rest split turn closed
    have one := fits _ (mem_gaps.2 ⟨first, event, rest, split, turn, closed, rfl⟩)
    have bound := one.2
    omega
  · intro close exact member
    obtain ⟨first, event, rest, split, turn, closed, rfl⟩ := mem_gaps.1 member
    have before := started_before split (current_of_closes closed)
    have soon := close first event rest split turn closed
    exact ⟨by omega, by omega⟩

end Gaps

section Writes

variable {print : Json → String} {context : BuildContext} {event : TurnProjectionEvent}
  {holds : Turn → Bool} {change : Turn → Turn}

def stepDuration (turn : Turn) (index : Nat) : Option Int64 :=
  turn.steps[index]?.bind fun step => step.durationMs

def durationAt (context : BuildContext) (place : Place) : Option Int64 :=
  context.turns[place.1]?.bind (stepDuration · place.2)

theorem durationAt_changeCurrent
    (keeps : ∀ turn index, stepDuration (change turn) index = stepDuration turn index) :
    durationAt (context.changeCurrent holds change) = durationAt context := by
  funext place
  unfold BuildContext.changeCurrent
  split
  case h_1 => rfl
  case h_2 =>
      rw [durationAt, durationAt, List.getElem?_modify]
      cases context.turns[place.1]? with
      | none =>
          split
          · rfl
          · rfl
      | some turn =>
          split
          · dsimp only [Option.map_eq_map, Option.map_some, Option.bind_some]
            split
            · exact keeps turn place.2
            · rfl
          · rfl

theorem durationAt_push {turn : Nat → Turn} {becomes : Bool}
    (fresh : ∀ sequence, (turn sequence).steps = []) :
    durationAt (context.push turn becomes) = durationAt context := by
  funext place
  rw [durationAt, durationAt, BuildContext.push]
  rcases Nat.lt_or_ge place.1 context.turns.length with inside | outside
  · rw [List.getElem?_append_left inside]
  · rw [List.getElem?_append_right outside, List.getElem?_eq_none outside, List.getElem?_singleton]
    split
    · rw [Option.bind_some, stepDuration, fresh, List.getElem?_nil, Option.bind_none,
        Option.bind_none]
    · rfl

theorem stepDuration_finalizeTurn (time : Int64) (turn : Turn) (index : Nat) :
    stepDuration (finalizeTurn time turn) index = stepDuration turn index := by
  rw [stepDuration, stepDuration, finalizeTurn, List.getElem?_map]
  cases turn.steps[index]? with
  | none => rfl
  | some step =>
      rw [Option.map_some, Option.bind_some, Option.bind_some]
      split
      · rfl
      · rfl

theorem durationAt_preToolUse :
    durationAt (handlePreToolUse print context event) = durationAt context := by
  have use : ∀ opened : BuildContext, durationAt (opened.changeAssistant fun turn =>
      { turn with
        status := .toolUse
        thinking := turn.thinking.or (payloadStr event.payload "assistantText")
        steps := turn.steps ++ [toolStep print event]
        rawEventCount := turn.rawEventCount + 1 }) = durationAt opened := by
    refine fun opened => durationAt_changeCurrent fun turn index => ?_
    rw [stepDuration, stepDuration]
    rcases Nat.lt_or_ge index turn.steps.length with inside | outside
    · rw [List.getElem?_append_left inside]
    · rw [List.getElem?_append_right outside, List.getElem?_eq_none outside,
        List.getElem?_singleton]
      split
      · rfl
      · rfl
  unfold handlePreToolUse
  rw [use]
  split
  case isTrue => rfl
  case isFalse => exact durationAt_push fun _ => rfl

theorem getElem?_changeStep (id : String) (change : TurnStep → TurnStep) (steps : List TurnStep)
    (index : Nat) : (changeStep id change steps)[index]? =
      if steps.findIdx? (fun step => step.id = id) = some index then steps[index]?.map change
      else steps[index]? := by
  induction steps generalizing index with
  | nil => rfl
  | cons step rest ih =>
      rw [changeStep, List.findIdx?_cons]
      by_cases same : step.id = id
      · rw [if_pos same, if_pos (decide_eq_true same)]
        cases index with
        | zero => rfl
        | succ index => rfl
      · rw [if_neg same, decide_eq_false same]
        cases index with
        | zero => simp
        | succ index =>
            rw [List.getElem?_cons_succ, List.getElem?_cons_succ, ih]
            simp

theorem durationAt_of_current {current : Nat} {turn : Turn}
    (there : context.turns[current]? = some turn) (index : Nat) :
    durationAt context (current, index) = stepDuration turn index := by
  rw [durationAt, there, Option.bind_some]

section Modified

variable {current : Nat} {turn : Turn} {changed : BuildContext}

theorem durationAt_of_modify (there : context.turns[current]? = some turn)
    (modified : changed.turns = context.turns.modify current change) (place : Place) :
    durationAt changed place = if current = place.1 then stepDuration (change turn) place.2
      else durationAt context place := by
  rw [durationAt, durationAt, modified, List.getElem?_modify]
  by_cases same : current = place.1
  · rw [if_pos same, ← same, there]
    simp
  · rw [if_neg same]
    simp [same]

theorem durationAt_of_kept (there : context.turns[current]? = some turn)
    (modified : changed.turns = context.turns.modify current change)
    (keeps : ∀ index, stepDuration (change turn) index = stepDuration turn index) :
    durationAt changed = durationAt context := by
  funext ⟨first, index⟩
  rw [durationAt_of_modify there modified]
  split
  case isTrue same =>
      obtain rfl : current = first := same
      exact (keeps index).trans (durationAt_of_current there index).symm
  case isFalse => rfl

theorem answered_duration {toolUseId : String} {answered first index count : Nat}
    (there : context.turns[current]? = some turn)
    (found : turn.steps.findIdx? (fun step => step.id = toolUseId) = some answered) :
    (if current = first then
        stepDuration { turn with
          steps := changeStep toolUseId (answeredStep print event) turn.steps
          rawEventCount := count } index
      else durationAt context (first, index)) =
      Function.update (durationAt context) (current, answered)
        (payloadI64 event.payload "duration") (first, index) := by
  by_cases other : (first, index) = (current, answered)
  · obtain ⟨rfl, rfl⟩ := Prod.mk.inj other
    obtain ⟨inside, -⟩ := List.findIdx?_eq_some_iff_getElem.1 found
    rw [if_pos rfl, Function.update_self, stepDuration, getElem?_changeStep, if_pos found,
      List.getElem?_eq_getElem inside]
    rfl
  · rw [Function.update_of_ne other]
    split
    case isTrue same =>
        obtain rfl := same
        have apart : ¬ some answered = some index := fun equal =>
          other (Prod.ext rfl (Option.some.inj equal).symm)
        rw [stepDuration, getElem?_changeStep, found, if_neg apart, durationAt_of_current there]
        rfl
    case isFalse => rfl

end Modified

theorem durationAt_postToolUse (kind : event.eventType = "post_tool_use") :
    durationAt (handlePostToolUse print context event)
      = after (durationAt context) (answer context event) := by
  rw [answer, answeredPlace, handlePostToolUse, BuildContext.changeAssistant,
    BuildContext.changeCurrent]
  cases context.currentTurn with
  | none => rfl
  | some current =>
      dsimp only [Option.bind_eq_bind, Option.bind_some]
      cases there : context.turns[current]? with
      | none =>
          rw [List.modify_eq_self (List.getElem?_eq_none_iff.1 there)]
          rfl
      | some turn =>
          dsimp only [Option.bind_some]
          cases payloadStr event.payload "toolUseId" with
          | none =>
              refine durationAt_of_kept there rfl fun index => ?_
              split
              · rfl
              · rfl
          | some toolUseId =>
              dsimp only [Option.bind_some]
              by_cases mine : turn.turnType = .assistant
              case neg =>
                  rw [if_neg fun both => mine both.2]
                  refine durationAt_of_kept there rfl fun index => ?_
                  rw [if_neg fun held => mine (of_decide_eq_true held)]
              case pos =>
                  rw [if_pos ⟨kind, mine⟩]
                  cases found : turn.steps.findIdx? fun step => step.id = toolUseId with
                  | none =>
                      refine durationAt_of_kept there rfl fun index => ?_
                      rw [if_pos (decide_eq_true mine), stepDuration, getElem?_changeStep, found]
                      rfl
                  | some answered =>
                      funext place
                      obtain ⟨first, index⟩ := place
                      rw [durationAt_of_modify there rfl, if_pos (decide_eq_true mine)]
                      exact answered_duration there found

theorem answer_of_other (other : event.eventType ≠ "post_tool_use") :
    answer context event = [] := by
  have nowhere : answeredPlace context event = none := by
    rw [answeredPlace]
    cases context.currentTurn with
    | none => rfl
    | some index =>
        dsimp only [Option.bind_eq_bind, Option.bind_some]
        cases context.turns[index]? with
        | none => rfl
        | some turn =>
            dsimp only [Option.bind_some]
            cases payloadStr event.payload "toolUseId" with
            | none => rfl
            | some toolUseId => exact if_neg fun both => other both.1
  rw [answer, nowhere]
  rfl

theorem durationAt_step :
    durationAt (step print context event) = after (durationAt context) (answer context event) := by
  have closed : ∀ time, durationAt (context.finalizeOpenCurrentTurn time) = durationAt context :=
    fun time => durationAt_changeCurrent (stepDuration_finalizeTurn time)
  have system : ∀ {closed : BuildContext} {response},
      durationAt (pushSystem event closed response) = durationAt closed :=
    durationAt_push fun _ => rfl
  by_cases kind : event.eventType = "post_tool_use"
  · rw [step, kind, if_pos (by decide), processEvent.eq_def]
    simp only [kind]
    exact durationAt_postToolUse kind
  · rw [answer_of_other kind]
    change durationAt (step print context event) = durationAt context
    rw [step]
    split
    case isFalse => rfl
    case isTrue =>
        rw [processEvent.eq_def]
        split
        case h_1 =>
            refine (durationAt_push fun _ => rfl).trans ?_
            exact (durationAt_push fun _ => rfl).trans (closed _)
        case h_2 => exact durationAt_preToolUse
        case h_3 answered => exact absurd answered kind
        case h_4 => exact durationAt_changeCurrent fun turn => stepDuration_finalizeTurn _ _
        case h_5 => exact system.trans (closed _)
        case h_6 =>
            exact system.trans (durationAt_changeCurrent fun turn => stepDuration_finalizeTurn _ _)
        case h_12 => rfl
        all_goals exact durationAt_changeCurrent fun _ _ => rfl

theorem durationAt_fold (events : List TurnProjectionEvent) :
    durationAt (events.foldl (step print) context)
      = after (durationAt context) (answers print context events) := by
  induction events generalizing context with
  | nil => rfl
  | cons event rest ih =>
      rw [List.foldl_cons, ih, durationAt_step, answers, after_append]

theorem durationAt_interrupt (nowMs : Int64) :
    durationAt (interrupt nowMs context) = durationAt context :=
  durationAt_changeCurrent fun _ => stepDuration_finalizeTurn _ _

end Writes

section Reported

variable {print : Json → String} {context : BuildContext} {event : TurnProjectionEvent}
  {holds : Turn → Bool} {change : Turn → Turn}

theorem acceptable_durationAt :
    (∀ place, Acceptable (durationAt context place)) ↔
      ∀ turn ∈ context.turns, ∀ step ∈ turn.steps, Acceptable step.durationMs := by
  constructor
  · intro every turn member step inside
    obtain ⟨first, there⟩ := List.getElem?_of_mem member
    obtain ⟨index, found⟩ := List.getElem?_of_mem inside
    have one := every (first, index)
    rw [durationAt_of_current there, stepDuration, found] at one
    exact one
  · rintro every ⟨first, index⟩ one reported
    rw [durationAt] at reported
    obtain ⟨turn, there, within⟩ := Option.bind_eq_some_iff.1 reported
    obtain ⟨step, found, same⟩ := Option.bind_eq_some_iff.1 within
    exact every turn (List.mem_of_getElem? there) step (List.mem_of_getElem? found) one same

theorem acceptable_steps (events : List TurnProjectionEvent) :
    (∀ turn ∈ (events.foldl (step print) empty).turns,
        ∀ step ∈ turn.steps, Acceptable step.durationMs) ↔
      WrittenOver Acceptable (answers print empty events) := by
  rw [← acceptable_durationAt, durationAt_fold, forall_after]
  refine ⟨fun both => both.2, fun written => ⟨fun place bad => absurd (fun _ => ?_) bad, written⟩⟩
  exact nofun

def Timed (context : BuildContext) : Prop :=
  ∀ turn ∈ context.turns, Acceptable turn.durationMs

theorem Timed.changeCurrent (timed : Timed context)
    (changes : ∀ index turn, context.currentTurn = some index → context.turns[index]? = some turn →
      holds turn → Acceptable turn.durationMs → Acceptable (change turn).durationMs) :
    Timed (context.changeCurrent holds change) := by
  intro turn member
  obtain ⟨index, there⟩ := List.getElem?_of_mem member
  rcases turn_of_changeCurrent there with ⟨same, -⟩ | ⟨old, found, here, held, rfl⟩
  · exact timed turn (List.mem_of_getElem? same)
  · exact changes index old here found held (timed old (List.mem_of_getElem? found))

theorem Timed.push (timed : Timed context) {turn : Nat → Turn} {becomes : Bool}
    (fresh : ∀ sequence, Acceptable (turn sequence).durationMs) :
    Timed (context.push turn becomes) := by
  intro one member
  rcases List.mem_append.1 member with old | new
  · exact timed one old
  · exact List.mem_singleton.1 new ▸ fresh _

theorem acceptable_zero : Acceptable (some 0) := by
  rintro _ ⟨⟩
  decide

theorem acceptable_none : Acceptable none := by
  rintro _ ⟨⟩

theorem acceptable_sub {time started : Int64} (later : started.toInt ≤ time.toInt)
    (fits : Fits (time.toInt - started.toInt)) : Acceptable (some (time - started)) := by
  rintro _ ⟨⟩
  rw [Int64.toInt_sub, Int.bmod_eq_of_le fits.1 fits.2]
  omega

theorem timed_step (timed : Timed context)
    (closing : ∀ turn, closes context event = some turn →
      Acceptable (some (event.createdAtMs - turn.startedAt))) :
    Timed (step print context event) := by
  have same : ∀ {context : BuildContext} {holds change}, Timed context →
      (∀ turn, (change turn).durationMs = turn.durationMs) →
        Timed (context.changeCurrent holds change) :=
    fun timed keeps => timed.changeCurrent fun _ turn _ _ _ known => (keeps turn).symm ▸ known
  have system : ∀ {closed : BuildContext} {response}, Timed closed →
      Timed (pushSystem event closed response) :=
    fun closed => closed.push fun _ => acceptable_zero
  have unfinished : ∀ index turn, context.currentTurn = some index →
      context.turns[index]? = some turn → (!turn.status.isTerminal) = true →
      event.eventType ∈ ["user_prompt_submit", "session_start", "session_end"] →
        closes context event = some turn := by
    intro index turn here found held kind
    rw [closes, here, Option.bind_some, found]
    simp only [List.mem_cons, List.not_mem_nil, or_false] at kind
    rcases kind with kind | kind | kind <;>
      · rw [kind]
        exact Option.filter_eq_some_iff.2 ⟨rfl, held⟩
  have finalized : event.eventType ∈ ["user_prompt_submit", "session_start", "session_end"] →
      Timed (context.finalizeOpenCurrentTurn event.createdAtMs) := fun kind =>
    timed.changeCurrent fun index turn here found held _ =>
      closing turn (unfinished index turn here found held kind)
  have counts := @same context (fun turn => turn.turnType = .assistant)
    (fun turn => { turn with rawEventCount := turn.rawEventCount + 1 }) timed fun _ => rfl
  rw [step]
  split
  case isFalse => exact timed
  case isTrue =>
      rw [processEvent.eq_def]
      split
      case h_1 kind =>
          refine Timed.push (Timed.push (finalized (by simp [kind])) ?_) ?_
          · exact fun _ => acceptable_zero
          · exact fun _ => acceptable_none
      case h_2 =>
          unfold handlePreToolUse BuildContext.changeAssistant
          refine same ?_ fun _ => rfl
          split
          case isTrue => exact timed
          case isFalse => exact timed.push fun _ => acceptable_none
      case h_3 => exact same timed fun _ => rfl
      case h_4 kind =>
          refine timed.changeCurrent fun index turn here found held _ => closing turn ?_
          rw [closes, here, Option.bind_some, found, kind]
          exact Option.filter_eq_some_iff.2 ⟨rfl, held⟩
      case h_5 kind => exact system (finalized (by simp [kind]))
      case h_6 kind =>
          refine system (timed.changeCurrent fun index turn here found held _ => ?_)
          exact closing turn (unfinished index turn here found held (by simp [kind]))
      case h_12 => exact timed
      all_goals exact counts

theorem timed_fold {events : List TurnProjectionEvent} (timed : Timed context)
    (closing : ∀ first event rest, events = first ++ event :: rest →
      ∀ turn, closes (first.foldl (step print) context) event = some turn →
        Acceptable (some (event.createdAtMs - turn.startedAt))) :
    Timed (events.foldl (step print) context) := by
  induction events generalizing context with
  | nil => exact timed
  | cons event rest ih =>
      refine ih (timed_step timed (closing [] event rest rfl)) fun first other more split => ?_
      exact closing (event :: first) other more (congrArg (List.cons event) split)

end Reported

section Silence

variable {turn : Turn} {nowMs : Int64}

/-- The steps of a turn come after its beginning, and report nothing negative. -/
structure Orderly (turn : Turn) : Prop where
  started : ∀ step ∈ turn.steps, turn.startedAt.toInt ≤ step.startedAt.toInt
  reported : ∀ step ∈ turn.steps, Acceptable step.durationMs

theorem zero_le_getD {duration : Option Int64} (acceptable : Acceptable duration) :
    0 ≤ (duration.getD 0).toInt := by
  cases duration with
  | none => decide
  | some one => exact acceptable one rfl

theorem le_activity (orderly : Orderly turn) :
    turn.startedAt.toInt ≤ activity nowMs turn ∨ activity nowMs turn = nowMs.toInt := by
  rw [activity, activitySum]
  cases last : turn.steps.getLast? with
  | none =>
      rw [Option.map_none, Option.getD_none]
      split
      · exact .inl Int.le_rfl
      · exact .inr rfl
  | some step =>
      have inside := List.mem_of_getLast? last
      have positive := zero_le_getD (orderly.reported step inside)
      have later := orderly.started step inside
      rw [Option.map_some, Option.getD_some]
      exact .inl (by omega)

theorem least_le_activity (orderly : Orderly turn) : -2 ^ 63 ≤ activity nowMs turn := by
  rcases @le_activity turn nowMs orderly with later | same
  · exact turn.startedAt.le_toInt.trans later
  · exact same ▸ nowMs.le_toInt

theorem toInt_lastActivityTime (fits : Fits (activity nowMs turn)) :
    (lastActivityTime turn nowMs).toInt = activity nowMs turn := by
  rw [activity, activitySum] at fits ⊢
  rw [lastActivityTime]
  cases last : turn.steps.getLast? with
  | none =>
      rw [Option.map_none, Option.getD_none]
      dsimp only
      split
      · rfl
      · rfl
  | some step =>
      rw [last, Option.map_some, Option.getD_some] at fits
      rw [Option.map_some, Option.getD_some, Int64.toInt_add]
      exact Int.bmod_eq_of_le fits.1 fits.2

theorem sub_gt_iff {last : Int64} (fits : Fits (nowMs.toInt - last.toInt)) :
    nowMs - last > interruptedAfterMs ↔ nowMs.toInt - last.toInt > interruptedAfterMs.toInt := by
  rw [gt_iff_lt, Int64.lt_iff_toInt_lt, Int64.toInt_sub, Int.bmod_eq_of_le fits.1 fits.2]

theorem active_of_sum (sum : ∀ exact ∈ activitySum turn, Fits exact) :
    activity nowMs turn < 2 ^ 63 := by
  rw [activity]
  cases known : activitySum turn with
  | none =>
      rw [Option.getD_none]
      split
      · exact turn.startedAt.toInt_lt
      · exact nowMs.toInt_lt
  | some exact => exact (sum exact known).2

theorem sum_of_active (orderly : Orderly turn) (active : activity nowMs turn < 2 ^ 63) :
    ∀ exact ∈ activitySum turn, Fits exact := by
  intro exact known
  have least := @least_le_activity turn nowMs orderly
  have same : activity nowMs turn = exact := by
    rw [activity, Option.mem_def.1 known, Option.getD_some]
  exact same ▸ ⟨least, active⟩

theorem silence_fits (orderly : Orderly turn) :
    (∀ exact ∈ silence nowMs turn, Fits exact) ↔ Calm nowMs turn := by
  have least := @least_le_activity turn nowMs orderly
  have later := @le_activity turn nowMs orderly
  have shape : ∀ exact, exact ∈ silence nowMs turn ↔
      exact ∈ activitySum turn ∨ exact = nowMs.toInt - (lastActivityTime turn nowMs).toInt ∨
        nowMs - lastActivityTime turn nowMs > interruptedAfterMs ∧
          exact = (lastActivityTime turn nowMs).toInt - turn.startedAt.toInt := by
    intro exact
    rw [silence, List.mem_append, Option.mem_toList, List.mem_cons, Option.mem_def]
    split
    case isTrue long => simp [long]
    case isFalse short => simp [short]
  constructor
  · intro fits
    have active : activity nowMs turn < 2 ^ 63 :=
      active_of_sum fun exact known => fits exact ((shape exact).2 (.inl known))
    have last := toInt_lastActivityTime ⟨least, active⟩
    have silent := fits _ ((shape _).2 (.inr (.inl rfl)))
    refine ⟨active, last ▸ silent, fun long => ?_⟩
    have interrupted := (sub_gt_iff silent).2 (last.symm ▸ long)
    have bound := (fits _ ((shape _).2 (.inr (.inr ⟨interrupted, rfl⟩)))).2
    rw [last] at bound
    omega
  · intro calm exact member
    have last := toInt_lastActivityTime ⟨least, calm.active⟩
    rcases (shape exact).1 member with known | rfl | ⟨interrupted, rfl⟩
    · exact sum_of_active orderly calm.active exact known
    · exact last.symm ▸ calm.silent
    · have long := (sub_gt_iff (last.symm ▸ calm.silent)).1 interrupted
      rw [last] at long ⊢
      have soon := calm.lasted long
      have began : turn.startedAt.toInt ≤ activity nowMs turn := by
        rcases later with began | now
        · exact began
        · have positive : 0 ≤ interruptedAfterMs.toInt := by decide
          omega
      exact ⟨by omega, by omega⟩

end Silence

section Result

variable {print : Json → String} {events : List TurnProjectionEvent} {nowMs : Int64}

theorem durations_positive {turn : Turn} :
    (∀ duration ∈ durations turn, 0 ≤ duration.toInt) ↔
      Acceptable turn.durationMs ∧ ∀ step ∈ turn.steps, Acceptable step.durationMs := by
  constructor
  · intro positive
    refine ⟨fun one reported => positive one ?_, fun step inside one reported => positive one ?_⟩
    · exact List.mem_append_left _ (Option.mem_toList.2 reported)
    · exact List.mem_append_right _ (List.mem_filterMap.2 ⟨step, inside, reported⟩)
  · rintro ⟨whole, each⟩ duration member
    rcases List.mem_append.1 member with own | steps
    · exact whole duration (Option.mem_toList.1 own)
    · obtain ⟨step, inside, reported⟩ := List.mem_filterMap.1 steps
      exact each step inside duration reported

abbrev projected (print : Json → String) (events : List TurnProjectionEvent) : BuildContext :=
  (sorted events).foldl (step print) empty

theorem working_turn {turn : Turn} (busy : working (projected print events) = some turn) :
    Sound print events turn ∧ turn ∈ (projected print events).turns := by
  obtain ⟨index, -, there⟩ := Option.bind_eq_some_iff.1 (Option.filter_eq_some_iff.1 busy).1
  have member := List.mem_of_getElem? there
  exact ⟨((kept_sorted print events).sound turn member).1, member⟩

theorem orderly_working (answered : WrittenOver Acceptable (answers print empty (sorted events)))
    {turn : Turn} (busy : working (projected print events) = some turn) : Orderly turn where
  started step inside := Int64.le_iff_toInt_le.1 ((working_turn busy).1.steps step inside).1
  reported := (acceptable_steps (sorted events)).2 answered turn (working_turn busy).2

theorem steps_interrupt :
    (∀ turn ∈ (interrupt nowMs (projected print events)).turns,
        ∀ step ∈ turn.steps, Acceptable step.durationMs) ↔
      WrittenOver Acceptable (answers print empty (sorted events)) := by
  rw [← acceptable_durationAt, durationAt_interrupt, acceptable_durationAt, acceptable_steps]

theorem mem_operations {exact : Int} :
    exact ∈ operations print events nowMs ↔ exact ∈ gaps print empty (sorted events) ∨
      ∃ turn, working (projected print events) = some turn ∧ exact ∈ silence nowMs turn := by
  rw [operations, List.mem_append]
  cases working (projected print events) with
  | none => simp
  | some turn => simp

theorem acceptable_interrupted (guarded : Guarded print events nowMs) {turn : Turn}
    (busy : working (projected print events) = some turn)
    (long : nowMs - lastActivityTime turn nowMs > interruptedAfterMs) :
    Acceptable (some (lastActivityTime turn nowMs - turn.startedAt)) := by
  have orderly := orderly_working guarded.answered busy
  have calm := guarded.calm turn busy
  have credible : Credible turn := by
    intro step last
    refine ⟨zero_le_getD (orderly.reported step (List.mem_of_getLast? last)), ?_⟩
    refine sum_of_active orderly calm.active _ ?_
    rw [activitySum, last]
    rfl
  have later := le_lastActivityTime (working_turn busy).1 credible long
  refine acceptable_sub (Int64.le_iff_toInt_le.1 later) ((silence_fits orderly).2 calm _ ?_)
  rw [silence, if_pos long]
  exact List.mem_append_right _ (.tail _ (.head _))

theorem timed_interrupt (guarded : Guarded print events nowMs) :
    Timed (interrupt nowMs (projected print events)) := by
  have fits := gaps_fit.2 guarded.close
  have timed : Timed (projected print events) := by
    refine timed_fold (fun _ member => absurd member List.not_mem_nil) ?_
    intro first event rest split turn closed
    have before := started_before split (current_of_closes closed)
    exact acceptable_sub before (fits _ (mem_gaps.2 ⟨first, event, rest, split, turn, closed, rfl⟩))
  refine timed.changeCurrent fun index turn here found held _ => ?_
  simp only [Bool.and_eq_true, decide_eq_true_iff] at held
  refine acceptable_interrupted guarded ?_ held.2
  rw [working, here, Option.bind_some, found]
  exact Option.filter_eq_some_iff.2 ⟨rfl, by simp [held.1.1, held.1.2]⟩

/-- Building the turns is sane exactly for events and a clock that keep to the bounds: no turn is
open for too long, every negative duration that a tool reports is corrected by a later report, and
the last silence is within the range of a word. -/
theorem sane_iff_guarded (print : Json → String) (events : List TurnProjectionEvent)
    (nowMs : Int64) : Sane print events nowMs ↔ Guarded print events nowMs := by
  constructor
  · rintro ⟨fits, positive⟩
    have answered : WrittenOver Acceptable (answers print empty (sorted events)) :=
      steps_interrupt.1 fun turn member => (durations_positive.1 (positive turn member)).2
    refine ⟨gaps_fit.1 fun exact member => ?_, answered, fun turn busy => ?_⟩
    · exact fits exact (mem_operations.2 (.inl member))
    · refine (silence_fits (orderly_working answered busy)).1 fun exact member => ?_
      exact fits exact (mem_operations.2 (.inr ⟨turn, busy, member⟩))
  · intro guarded
    refine ⟨fun exact member => ?_, fun turn member => durations_positive.2 ⟨?_, ?_⟩⟩
    · rcases mem_operations.1 member with gap | ⟨turn, busy, silent⟩
      · exact gaps_fit.2 guarded.close exact gap
      · exact (silence_fits (orderly_working guarded.answered busy)).2 (guarded.calm turn busy)
          exact silent
    · exact timed_interrupt guarded turn member
    · exact steps_interrupt.2 guarded.answered turn member

def negativeDuration : List TurnProjectionEvent :=
  [⟨⟨1⟩, "user_prompt_submit", .object [], some "s", 1000⟩,
    ⟨⟨2⟩, "pre_tool_use", .object [("toolUseId", .string "a")], some "s", 2000⟩,
    ⟨⟨3⟩, "post_tool_use", .object [("toolUseId", .string "a"), ("duration", .number (-5) 0)],
      some "s", 3000⟩]

theorem negative_duration_reported :
    ¬ ∀ print events nowMs, Sane print events nowMs := by
  intro sane
  have reported : ∃ turn ∈ (buildTurns (fun _ => "") negativeDuration 3000).turns,
      durations turn = [-5] := ⟨_, .tail _ (.head _), rfl⟩
  obtain ⟨turn, member, only⟩ := reported
  have negative : -5 ∈ durations turn := only ▸ .head _
  exact absurd ((sane _ _ _).positive turn member _ negative) (by decide)

end Result

end Forge.TurnDurations
