import Forge.Library.Paging
import Forge.TurnProjection

/-! The order of the turns: what an event adds stands behind what the earlier events added, and
leaves that alone but for the current turn. -/

namespace Forge.TurnOrder

open Forge.Library.Identifier
open Forge.Library.JsonDocument
open Forge.TurnProjection

abbrev Key := Int64 × String

def key (turn : Turn) : Key := (turn.startedAt, turn.id)

def eventKeys (event : TurnProjectionEvent) : List Key :=
  [(event.createdAtMs, event.id.toText), (event.createdAtMs, assistantId event)]

def Current (context : BuildContext) : Prop :=
  ∀ index, context.currentTurn = some index → index + 1 = context.turns.length

/-- Turns with these keys are added; the turns before the last one stay as they are. -/
structure Adds (context after : BuildContext) (added : List Key) : Prop where
  current : Current after
  keys : after.turns.map key = context.turns.map key ++ added
  before : after.turns.take (context.turns.length - 1)
    = context.turns.take (context.turns.length - 1)

section Steps

variable {print : Json → String} {context middle after : BuildContext} {first second : List Key}
  {event : TurnProjectionEvent}

theorem Adds.length (adds : Adds context after first) :
    after.turns.length = context.turns.length + first.length := by
  have lengths := congrArg List.length adds.keys
  simpa using lengths

theorem Adds.trans (left : Adds context middle first) (right : Adds middle after second) :
    Adds context after (first ++ second) where
  current := right.current
  keys := by rw [right.keys, left.keys, List.append_assoc]
  before := by
    have longer := left.length
    have shorter : context.turns.length - 1 ≤ middle.turns.length - 1 := by omega
    have same := congrArg (List.take (context.turns.length - 1)) right.before
    rw [List.take_take, List.take_take, Nat.min_eq_left shorter] at same
    rw [same, left.before]

theorem Adds.refl (current : Current context) : Adds context context [] :=
  ⟨current, (List.append_nil _).symm, rfl⟩

theorem map_key_modify {change : Turn → Turn} (keeps : ∀ turn, key (change turn) = key turn)
    (turns : List Turn) (index : Nat) : (turns.modify index change).map key = turns.map key := by
  induction turns generalizing index with
  | nil => rw [List.modify_nil]
  | cons turn rest ih =>
      cases index with
      | zero => rw [List.modify_zero_cons, List.map_cons, List.map_cons, keeps]
      | succ index => rw [List.modify_succ_cons, List.map_cons, List.map_cons, ih]

theorem adds_changeCurrent (current : Current context) {holds : Turn → Bool}
    {change : Turn → Turn} (keeps : ∀ turn, key (change turn) = key turn) :
    Adds context (context.changeCurrent holds change) [] := by
  rw [BuildContext.changeCurrent]
  split
  case h_1 => exact .refl current
  case h_2 index here =>
      have last := current index here
      refine ⟨fun other same => ?_, ?_, ?_⟩
      · rw [List.length_modify]
        exact current other same
      · rw [List.append_nil]
        refine map_key_modify (fun turn => ?_) _ _
        split
        · exact keeps turn
        · rfl
      · rw [List.take_modify]
        refine List.modify_eq_self ?_
        rw [List.length_take]
        omega

theorem adds_push {turn : Nat → Turn} {becomes : Bool} {added : Key}
    (keyed : ∀ sequence, key (turn sequence) = added) :
    Adds context (context.push turn becomes) [added] where
  current index same := by
    cases becomes with
    | false => cases same
    | true =>
        cases same
        simp [BuildContext.push]
  keys := by simp [BuildContext.push, keyed]
  before := List.take_append_of_le_length (Nat.sub_le _ _)

theorem adds_finalizeOpen (current : Current context) (timestamp : Int64) :
    Adds context (context.finalizeOpenCurrentTurn timestamp) [] :=
  adds_changeCurrent current fun _ => rfl

theorem adds_pushSystem {response : String} :
    Adds context (pushSystem event context response) [(event.createdAtMs, event.id.toText)] := by
  refine adds_push fun _ => ?_
  rfl

theorem adds_prompt (current : Current context) :
    Adds context (handlePromptSubmit context event) (eventKeys event) := by
  have closed := adds_finalizeOpen current event.createdAtMs
  have asked : Adds context ((context.finalizeOpenCurrentTurn event.createdAtMs).push
      (fun sequence =>
        { createTurn event event.id.toText sequence .user .complete
            (payloadStr event.payload "cliTool") with
          prompt := payloadStr event.payload "prompt"
          images := payloadStringArray event.payload "images"
          completedAt := some event.createdAtMs
          durationMs := some 0 }) false) [(event.createdAtMs, event.id.toText)] :=
    closed.trans (adds_push fun _ => rfl)
  exact asked.trans (adds_push fun _ => rfl)

theorem adds_preToolUse (current : Current context) :
    ∃ added, added.Sublist (eventKeys event)
      ∧ Adds context (handlePreToolUse print context event) added := by
  rw [handlePreToolUse]
  split
  case isTrue => exact ⟨[], List.nil_sublist _, adds_changeCurrent current fun _ => rfl⟩
  case isFalse =>
      have opened : Adds context (context.push (fun sequence => createTurn event (assistantId event)
          sequence .assistant .toolUse (payloadStr event.payload "cliTool")) true)
            [(event.createdAtMs, assistantId event)] := adds_push fun _ => rfl
      exact ⟨_, List.sublist_cons_self _ _,
        opened.trans (adds_changeCurrent opened.current fun _ => rfl)⟩

theorem adds_step (current : Current context) :
    ∃ added, added.Sublist (eventKeys event) ∧ Adds context (step print context event) added := by
  have same : ∀ {holds change}, (∀ turn, key (change turn) = key turn) →
      ∃ added, added.Sublist (eventKeys event)
        ∧ Adds context (context.changeCurrent holds change) added :=
    fun keeps => ⟨[], List.nil_sublist _, adds_changeCurrent current keeps⟩
  have system : ∀ {closed : BuildContext} {response}, Adds context closed [] →
      ∃ added, added.Sublist (eventKeys event)
        ∧ Adds context (pushSystem event closed response) added :=
    fun closed => ⟨_, (List.nil_sublist _).cons_cons _, closed.trans adds_pushSystem⟩
  rw [step]
  split
  case isFalse => exact ⟨[], List.nil_sublist _, current, (List.append_nil _).symm, rfl⟩
  case isTrue =>
      rw [processEvent.eq_def]
      split
      · exact ⟨_, List.Sublist.refl _, adds_prompt current⟩
      · exact adds_preToolUse current
      · exact same fun _ => rfl
      · exact same fun _ => rfl
      · exact system (adds_finalizeOpen current _)
      · exact system (adds_changeCurrent current fun _ => rfl)
      · exact same fun _ => rfl
      · exact same fun _ => rfl
      · exact same fun _ => rfl
      · exact same fun _ => rfl
      · exact same fun _ => rfl
      · exact ⟨[], List.nil_sublist _, .refl current⟩

theorem adds_fold {events : List TurnProjectionEvent} (current : Current context) :
    ∃ added, added.Sublist (events.flatMap eventKeys)
      ∧ Adds context (events.foldl (step print) context) added := by
  induction events generalizing context with
  | nil => exact ⟨[], List.nil_sublist _, .refl current⟩
  | cons event rest ih =>
      obtain ⟨first, within, adds⟩ := @adds_step print context event current
      obtain ⟨others, later, more⟩ := ih adds.current
      exact ⟨first ++ others, within.append later, adds.trans more⟩

theorem adds_interrupt (current : Current context) (nowMs : Int64) :
    Adds context (interrupt nowMs context) [] :=
  adds_changeCurrent current fun _ => rfl

end Steps

/-! ## The order -/

def keyLt (left right : Key) : Prop :=
  left.1 < right.1 ∨ left.1 = right.1 ∧ left.2 < right.2

section Keys

theorem lt_append {first second : List Char} (more more' : List Char)
    (same : first.length = second.length) (less : first < second) :
    first ++ more < second ++ more' := by
  induction first generalizing second with
  | nil =>
      rw [List.length_nil] at same
      obtain rfl := List.length_eq_zero_iff.1 same.symm
      exact absurd less (List.not_lt_nil _)
  | cons c rest ih =>
      cases second with
      | nil => cases same
      | cons d others =>
          rcases List.cons_lt_cons_iff.1 less with smaller | ⟨rfl, later⟩
          · exact List.cons_lt_cons_iff.2 (.inl smaller)
          · exact List.cons_lt_cons_iff.2 (.inr ⟨rfl, ih (Nat.succ.inj same) later⟩)

theorem lt_of_append_left {front first second : List Char}
    (less : front ++ first < front ++ second) : first < second := by
  induction front with
  | nil => exact less
  | cons c rest ih =>
      rcases List.cons_lt_cons_iff.1 less with smaller | ⟨-, later⟩
      · exact absurd smaller (Std.Irrefl.irrefl c)
      · exact ih later

theorem lt_of_take_ne {first second more more' : List Char}
    (same : first.length = second.length) (differ : first ≠ second)
    (less : first ++ more < second ++ more') : first < second := by
  induction first generalizing second with
  | nil =>
      rw [List.length_nil] at same
      exact absurd (List.length_eq_zero_iff.1 same.symm).symm differ
  | cons c rest ih =>
      cases second with
      | nil => cases same
      | cons d others =>
          rcases List.cons_lt_cons_iff.1 less with smaller | ⟨rfl, later⟩
          · exact List.cons_lt_cons_iff.2 (.inl smaller)
          · refine List.cons_lt_cons_iff.2 (.inr ⟨rfl, ih (Nat.succ.inj same) ?_ later⟩)
            rintro rfl
            exact differ rfl

def Keeps (f : List Char → List Char) : Prop :=
  ∀ first second : List Char, first.length = second.length → first < second → f first < f second

theorem Keeps.hyphen {f : List Char → List Char} (keeps : Keeps f) (place : Nat) :
    Keeps fun text => text.take place ++ '-' :: f (text.drop place) := by
  intro first second same less
  rw [← List.take_append_drop place first, ← List.take_append_drop place second] at less
  have front : (first.take place).length = (second.take place).length := by
    rw [List.length_take, List.length_take, same]
  by_cases equal : first.take place = second.take place
  · dsimp only
    rw [equal] at less ⊢
    refine List.append_left_lt (List.cons_lt_cons_iff.2 (.inr ⟨rfl, keeps _ _ ?_ ?_⟩))
    · rw [List.length_drop, List.length_drop, same]
    · exact lt_of_append_left less
  · exact lt_append _ _ front (lt_of_take_ne front equal less)

theorem keeps_hyphenate : Keeps Uuid.hyphenate := by
  have plain : Keeps fun text => text := fun _ _ _ less => less
  have nested := (((plain.hyphen 4).hyphen 4).hyphen 4).hyphen 8
  intro first second same less
  have shape : ∀ text, Uuid.hyphenate text = text.take 8 ++ '-' :: ((text.drop 8).take 4
      ++ '-' :: (((text.drop 8).drop 4).take 4 ++ '-' :: ((((text.drop 8).drop 4).drop 4).take 4
      ++ '-' :: (((text.drop 8).drop 4).drop 4).drop 4))) := by
    intro text
    simp [Uuid.hyphenate, List.drop_drop]
  rw [shape, shape]
  exact nested first second same less

theorem digits_lt {width left right : Nat} (bound : right < 16 ^ width) (less : left < right) :
    (Library.Text.digits 16 width left).map Nat.digitChar
      < (Library.Text.digits 16 width right).map Nat.digitChar := by
  induction width generalizing left right with
  | zero => omega
  | succ width ih =>
      rw [Library.Text.digits, Library.Text.digits, List.map_append, List.map_append]
      have table : ∀ x < 16, ∀ y < 16, x < y → [Nat.digitChar x] < [Nat.digitChar y] := by decide
      rcases Nat.lt_or_ge (left / 16) (right / 16) with high | low
      · refine lt_append _ _ (by simp) (ih ?_ high)
        rw [Nat.div_lt_iff_lt_mul (by decide)]
        rwa [Nat.pow_succ] at bound
      · have same : left / 16 = right / 16 := by omega
        rw [same]
        refine List.append_left_lt (table _ (by omega) _ (by omega) (by omega))

theorem toText_lt {first second : Uuid} (less : first.value < second.value) :
    first.toText.toList < second.toText.toList := by
  rw [Uuid.toText, Uuid.toText, String.toList_ofList, String.toList_ofList]
  refine keeps_hyphenate _ _ ?_ (digits_lt ?_ less)
  · rw [Uuid.length_hexDigits, Uuid.length_hexDigits]
  · exact second.value.isLt.trans_le (by decide)

theorem text_lt (first second : String) : first < second ↔ first.toList < second.toList :=
  Iff.rfl

end Keys

section Events

variable {event other : TurnProjectionEvent} {events : List TurnProjectionEvent}

def eventLt (left right : TurnProjectionEvent) : Prop :=
  left.createdAtMs < right.createdAtMs
    ∨ left.createdAtMs = right.createdAtMs ∧ left.id.value < right.id.value

theorem keyLt_of_eventLt (less : eventLt event other) {left right : Key}
    (first : left ∈ eventKeys event) (second : right ∈ eventKeys other) : keyLt left right := by
  have times : left.1 = event.createdAtMs ∧ right.1 = other.createdAtMs := by
    simp only [eventKeys, List.mem_cons, List.not_mem_nil, or_false] at first second
    rcases first with rfl | rfl <;> rcases second with rfl | rfl <;> exact ⟨rfl, rfl⟩
  rcases less with earlier | ⟨together, smaller⟩
  · refine .inl ?_
    rw [times.1, times.2]
    exact earlier
  · refine .inr ⟨by rw [times.1, times.2, together], ?_⟩
    have texts := toText_lt smaller
    have same : event.id.toText.toList.length = other.id.toText.toList.length := by
      simp [Uuid.toText, Uuid.length_hyphenate, Uuid.length_hexDigits]
    have decided : ∀ more more' : List Char,
        event.id.toText.toList ++ more < other.id.toText.toList ++ more' :=
      fun more more' => lt_append more more' same texts
    have suffix : ∀ event : TurnProjectionEvent,
        (assistantId event).toList = event.id.toText.toList ++ "-assistant".toList :=
      fun event => String.toList_append
    have plain : ∀ event : TurnProjectionEvent,
        event.id.toText.toList = event.id.toText.toList ++ [] :=
      fun event => (List.append_nil _).symm
    rw [text_lt]
    simp only [eventKeys, List.mem_cons, List.not_mem_nil, or_false] at first second
    rcases first with rfl | rfl <;> rcases second with rfl | rfl <;> dsimp only
    · exact texts
    · rw [suffix, plain event]
      exact decided _ _
    · rw [suffix, plain other]
      exact decided _ _
    · rw [suffix, suffix]
      exact decided _ _

theorem lt_append_self (text more : List Char) (some_ : more ≠ []) : text < text ++ more := by
  induction text with
  | nil =>
      cases more with
      | nil => exact absurd rfl some_
      | cons c rest => exact List.nil_lt_cons c rest
  | cons c rest ih => exact List.cons_lt_cons_iff.2 (.inr ⟨rfl, ih⟩)

theorem eventKeys_ordered : (eventKeys event).Pairwise keyLt := by
  have longer : event.id.toText < assistantId event := by
    rw [text_lt, assistantId, String.toList_append]
    exact lt_append_self _ _ (by decide)
  have pair : keyLt (event.createdAtMs, event.id.toText) (event.createdAtMs, assistantId event) :=
    .inr ⟨rfl, longer⟩
  exact List.pairwise_pair.2 pair

theorem keys_ordered (ordered : events.Pairwise eventLt) :
    (events.flatMap eventKeys).Pairwise keyLt := by
  refine List.pairwise_flatMap.2 ⟨fun _ _ => eventKeys_ordered, ?_⟩
  exact ordered.imp fun less _ first _ second => keyLt_of_eventLt less first second

instance eventLe_trans : IsTrans TurnProjectionEvent fun left right => eventLe left right where
  trans first second third := by
    simp only [eventLe, decide_eq_true_eq]
    rintro (earlier | ⟨together, smaller⟩) (later | ⟨same, less⟩)
    · exact .inl (earlier.trans later)
    · exact .inl (same ▸ earlier)
    · exact .inl (together ▸ later)
    · exact .inr ⟨together.trans same, smaller.trans less⟩

instance eventLe_total : Std.Total fun left right : TurnProjectionEvent => eventLe left right where
  total first second := by
    simp only [eventLe, decide_eq_true_eq]
    rcases Int.lt_trichotomy first.createdAtMs.toInt second.createdAtMs.toInt with
      earlier | together | later
    · exact .inl (.inl earlier)
    · have same : first.createdAtMs = second.createdAtMs := Int64.toInt_inj.1 together
      rcases Nat.le_total first.id.value second.id.value with smaller | larger
      · exact .inl (.inr ⟨same, smaller⟩)
      · exact .inr (.inr ⟨same.symm, larger⟩)
    · exact .inr (.inl later)

theorem dedupe_sublist (seen : List Uuid) (events : List TurnProjectionEvent) :
    (dedupe seen events).Sublist events := by
  induction events generalizing seen with
  | nil => exact List.Sublist.refl _
  | cons event rest ih =>
      rw [dedupe]
      split
      · exact (ih seen).cons event
      · exact (ih _).cons_cons event

theorem dedupe_ids (seen : List Uuid) (events : List TurnProjectionEvent) :
    (∀ event ∈ dedupe seen events, event.id ∉ seen)
      ∧ (dedupe seen events).Pairwise fun left right => left.id ≠ right.id := by
  induction events generalizing seen with
  | nil => exact ⟨nofun, .nil⟩
  | cons event rest ih =>
      rw [dedupe]
      split
      case isTrue => exact ih seen
      case isFalse fresh =>
          obtain ⟨others, apart⟩ := ih (event.id :: seen)
          constructor
          · intro other member
            rcases List.mem_cons.1 member with rfl | member
            · exact fresh
            · exact fun known => others other member (.tail _ known)
          · refine List.pairwise_cons.2 ⟨fun other member same => ?_, apart⟩
            exact others other member (same ▸ .head _)

theorem sorted_ordered (events : List TurnProjectionEvent) : (sorted events).Pairwise eventLt := by
  have inOrder := List.pairwise_insertionSort (fun left right => eventLe left right) events
  have apart := (dedupe_ids [] (events.insertionSort fun left right => eventLe left right)).2
  refine ((inOrder.sublist (dedupe_sublist [] _)).and apart).imp ?_
  rintro left right ⟨le, differ⟩
  simp only [eventLe, decide_eq_true_eq] at le
  rcases le with earlier | ⟨together, smaller⟩
  · exact .inl (Int64.lt_iff_toInt_lt.2 earlier)
  · exact .inr ⟨together, lt_of_le_of_ne smaller fun same => differ (congrArg Uuid.mk same)⟩

theorem sorted_times (events : List TurnProjectionEvent) :
    (sorted events).Pairwise fun left right => left.createdAtMs ≤ right.createdAtMs := by
  refine (sorted_ordered events).imp fun less => ?_
  rcases less with earlier | ⟨together, -⟩
  · exact Int64.le_of_lt earlier
  · exact together ▸ Int64.le_rfl

end Events

section Turns

variable {print : Json → String} {events : List TurnProjectionEvent} {nowMs : Int64}

def empty : BuildContext := ⟨[], none, 0, 0⟩

theorem current_empty : Current empty := nofun

theorem turns_ordered :
    (buildTurns print events nowMs).turns.Pairwise fun left right => keyLt (key left) (key right) := by
  obtain ⟨added, within, adds⟩ := @adds_fold print empty (sorted events) current_empty
  have closed := adds.trans (adds_interrupt adds.current nowMs)
  have keys : (buildTurns print events nowMs).turns.map key = [] ++ (added ++ []) := closed.keys
  refine List.pairwise_map.1 ?_
  rw [keys, List.nil_append, List.append_nil]
  exact (keys_ordered (sorted_ordered events)).sublist within

end Turns

/-! ## What later events leave alone -/

section Early

variable {print : Json → String} {events : List TurnProjectionEvent} {nowMs time : Int64}

def early (time : Int64) (event : TurnProjectionEvent) : Bool := decide (event.createdAtMs ≤ time)

theorem early_of_eventLe {left right : TurnProjectionEvent} (le : eventLe left right)
    (soon : early time right) : early time left := by
  simp only [eventLe, early, decide_eq_true_eq, Int64.le_iff_toInt_le] at le soon ⊢
  rcases le with earlier | ⟨together, -⟩
  · exact (Int.le_of_lt earlier).trans soon
  · rw [together]
    exact soon

theorem dedupe_append (seen : List Uuid) (first second : List TurnProjectionEvent) :
    ∃ rest, rest.Sublist second ∧ dedupe seen (first ++ second) = dedupe seen first ++ rest := by
  induction first generalizing seen with
  | nil => exact ⟨dedupe seen second, dedupe_sublist _ _, rfl⟩
  | cons event others ih =>
      rw [List.cons_append, dedupe, dedupe]
      split
      · exact ih seen
      · obtain ⟨rest, within, same⟩ := ih (event.id :: seen)
        exact ⟨rest, within, by rw [same, List.cons_append]⟩

theorem sorted_early (time : Int64) (events : List TurnProjectionEvent) :
    ∃ rest, (∀ event ∈ rest, early time event = false)
      ∧ sorted events = sorted (events.filter (early time)) ++ rest := by
  have inOrder := List.pairwise_insertionSort (fun left right => eventLe left right) events
  have split := @Library.Paging.filter_append_filter_not _ _ _ (early time) inOrder
    fun _ _ le soon => early_of_eventLe le soon
  rw [Library.Paging.filter_insertionSort] at split
  obtain ⟨rest, within, same⟩ := dedupe_append []
    ((events.filter (early time)).insertionSort fun left right => eventLe left right)
    ((events.insertionSort fun left right => eventLe left right).filter fun e => !early time e)
  refine ⟨rest, fun event member => ?_, ?_⟩
  · simpa using (List.mem_filter.1 (within.subset member)).2
  · rw [sorted, ← split]
    exact same

def earlyContext (print : Json → String) (time : Int64) (events : List TurnProjectionEvent) :
    BuildContext :=
  (sorted (events.filter (early time))).foldl (step print) empty

theorem adds_early : ∃ added, (∀ k ∈ added, time < k.1)
    ∧ Current (earlyContext print time events)
    ∧ ∀ nowMs, Adds (earlyContext print time events)
        (interrupt nowMs ((sorted events).foldl (step print) empty)) added := by
  obtain ⟨rest, late, same⟩ := sorted_early time events
  obtain ⟨_, -, soon⟩ := @adds_fold print empty (sorted (events.filter (early time))) current_empty
  obtain ⟨added, within, adds⟩ := @adds_fold print (earlyContext print time events) rest soon.current
  refine ⟨added, fun k member => ?_, soon.current, fun nowMs => ?_⟩
  · obtain ⟨event, inside, mine⟩ := List.mem_flatMap.1 (within.subset member)
    have after := late event inside
    have times : k.1 = event.createdAtMs := by
      simp only [eventKeys, List.mem_cons, List.not_mem_nil, or_false] at mine
      rcases mine with rfl | rfl <;> rfl
    rw [early, decide_eq_false_iff_not] at after
    rw [times]
    exact Int64.not_le.1 after
  · have closed := adds.trans (adds_interrupt adds.current nowMs)
    rw [List.append_nil] at closed
    rw [same, List.foldl_append]
    exact closed

def Settled (print : Json → String) (events : List TurnProjectionEvent) (index : Nat)
    (items : List Turn) (k : Key) : Prop :=
  ∀ nowMs, (buildTurns print events nowMs).turns.take index = items
    ∧ ((buildTurns print events nowMs).turns[index]?).map key = some k

theorem settled_of_early {index : Nat} {k : Key}
    (there : ((earlyContext print time events).turns[index]?).map key = some k) :
    Settled print events index ((earlyContext print time events).turns.take index) k := by
  obtain ⟨added, -, current, adds⟩ := @adds_early print events time
  intro nowMs
  obtain ⟨-, keys, before⟩ := adds nowMs
  rw [← List.getElem?_map] at there ⊢
  obtain ⟨inside, -⟩ := List.getElem?_eq_some_iff.1 there
  have short : index ≤ (earlyContext print time events).turns.length - 1 := by
    rw [List.length_map] at inside
    omega
  constructor
  · have same := congrArg (List.take index) before
    rw [List.take_take, List.take_take, Nat.min_eq_left short] at same
    exact same
  · show ((interrupt nowMs ((sorted events).foldl (step print) empty)).turns.map key)[index]? = _
    rw [keys, List.getElem?_append_left inside, there]

theorem early_of_turn {index : Nat} {turn : Turn}
    (there : (buildTurns print events nowMs).turns[index]? = some turn)
    (soon : turn.startedAt ≤ time) :
    ((earlyContext print time events).turns[index]?).map key = some (key turn) := by
  obtain ⟨added, late, -, adds⟩ := @adds_early print events time
  have keys : (buildTurns print events nowMs).turns.map key
    = (earlyContext print time events).turns.map key ++ added := (adds nowMs).keys
  have mine : ((buildTurns print events nowMs).turns.map key)[index]? = some (key turn) := by
    rw [List.getElem?_map, there, Option.map_some]
  rw [keys] at mine
  rw [← List.getElem?_map]
  rcases Nat.lt_or_ge index ((earlyContext print time events).turns.map key).length with
    inside | outside
  · rwa [List.getElem?_append_left inside] at mine
  · rw [List.getElem?_append_right outside] at mine
    have after := late _ (List.mem_of_getElem? mine)
    exact absurd soon (Int64.not_le.2 after)

theorem settled_of_turn {index : Nat} {turn : Turn}
    (there : (buildTurns print events nowMs).turns[index]? = some turn) :
    Settled print events index ((buildTurns print events nowMs).turns.take index) (key turn) := by
  have settled := settled_of_early (early_of_turn there Int64.le_rfl)
  rwa [(settled nowMs).1]

end Early

end Forge.TurnOrder
