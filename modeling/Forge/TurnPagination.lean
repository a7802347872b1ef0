import Forge.Library.Base64
import Forge.Library.JsonText
import Forge.Schema
import Forge.TurnOrder

/-! The pages of a chat's turns, from the last one back, and the cursor between two of them. -/

namespace Forge.TurnPagination

open Forge.Library.Identifier
open Forge.Library.JsonDocument
open Forge.Library.JsonText
open Forge.Library.Paging
open Forge.Schema
open Forge.TurnOrder
open Forge.TurnProjection

def maxTurnLimit : Nat := 100

structure TurnListPage where
  limit : Nat
  positive : 0 < limit
  bounded : limit ≤ maxTurnLimit

namespace TurnListPage

def new (limit : Int64) : TurnListPage where
  limit := max 1 (min limit.toInt.toNat maxTurnLimit)
  positive := by omega
  bounded := max_le (by decide) (Nat.min_le_right _ _)

variable (page : TurnListPage)

def startIndex (eligibleCount : Nat) : Nat :=
  Library.Paging.startIndex page.limit eligibleCount

def hasMore (eligibleCount : Nat) : Bool := decide (0 < page.startIndex eligibleCount)

end TurnListPage

structure TurnCursor where
  startedAt : Int64
  id : String
deriving DecidableEq

namespace TurnCursor

def isTurnBefore (cursor : TurnCursor) (startedAt : Int64) (id : String) : Bool :=
  decide (startedAt < cursor.startedAt ∨ startedAt = cursor.startedAt ∧ id < cursor.id)

def print (cursor : TurnCursor) : String :=
  "\x7b" ++ Json.quote "started_at" ++ ":" ++ toString cursor.startedAt.toInt ++ ","
    ++ Json.quote "id" ++ ":" ++ Json.quote cursor.id ++ "\x7d"

def encode (cursor : TurnCursor) : String :=
  String.ofList (Library.Base64.encode cursor.print.toUTF8.data.toList)

def only (fields : List (String × Json)) (name : String) : Option Json :=
  match fields.filter fun field => field.1 = name with
  | [field] => some field.2
  | _ => none

def ofDocument : Json → Option TurnCursor
  | .array [startedAt, id] => do some ⟨.ofInt (← startedAt.asI64), ← id.asStr⟩
  | .object fields => do
      let startedAt ← (← only fields "started_at").asI64
      let id ← (← only fields "id").asStr
      some ⟨.ofInt startedAt, id⟩
  | _ => none

def decode (raw : String) : Except AppError TurnCursor :=
  let read := do
    let bytes ← Library.Base64.decode raw.toList
    let text ← (ByteArray.mk bytes.toArray).utf8Decode?
    ofDocument (← readDocument text.toList)
  read.elim (.error (.validation "invalid turn cursor")) .ok

end TurnCursor

/-- A row of the events; `created_at` counts microseconds. -/
structure Event where
  id : Uuid
  eventType : String
  payload : Json
  sessionId : Option String
  createdAt : Int

def turnProjectionEvent (event : Event) : TurnProjectionEvent where
  id := event.id
  eventType := event.eventType
  payload := event.payload
  sessionId := event.sessionId
  createdAtMs := .ofInt (event.createdAt / 1000)

structure LastEventCursor where
  timestamp : String
  id : String

structure TurnPage where
  turns : List Turn
  cursor : Option String
  hasMore : Bool
  totalTurnCount : Nat
  lastEvent : Option LastEventCursor

structure Printers where
  json : Json → String
  rfc3339 : Int → String

structure Request where
  nowMs : Int64
  limit : Int64

def eligibleTurns (turns : List Turn) : Option TurnCursor → List Turn
  | some cursor => turns.filter fun turn => cursor.isTurnBefore turn.startedAt turn.id
  | none => turns

/-- The last ones of the turns. -/
def pageOf (page : TurnListPage) (eligible : List Turn) (totalTurnCount : Nat)
    (lastEvent : Option LastEventCursor) : TurnPage :=
  let turns := eligible.drop (page.startIndex eligible.length)
  let hasMore := page.hasMore eligible.length
  { turns
    cursor := if hasMore then
        turns.head?.map fun turn => (TurnCursor.mk turn.startedAt turn.id).encode
      else none
    hasMore
    totalTurnCount
    lastEvent }

section Service

variable (printers : Printers) (events : List Event)

/-- `list_page`, of the events that it reads. -/
def listPage (cursor : Option String) (request : Request) : Except AppError TurnPage := do
  let page := TurnListPage.new request.limit
  let cursor ← cursor.mapM TurnCursor.decode
  let lastEvent := events.getLast?.map fun event =>
    ⟨printers.rfc3339 event.createdAt, event.id.toText⟩
  let built := buildTurns printers.json (events.map turnProjectionEvent) request.nowMs
  .ok (pageOf page (eligibleTurns built.turns cursor) built.turns.length lastEvent)

def follow (cursor : Option String) : List Request → Except AppError (List TurnPage)
  | [] => .ok []
  | request :: rest => do
      let page ← listPage printers events cursor request
      let others ← if page.hasMore then follow page.cursor rest else .ok []
      .ok (page :: others)

end Service

section Cursors

theorem text_print (cursor : TurnCursor) : cursor.print.toList
    = '\x7b' :: ((Json.quote "started_at").toList ++ ':' :: ((toString cursor.startedAt.toInt).toList
      ++ ',' :: ((Json.quote "id").toList ++ ':' :: ((Json.quote cursor.id).toList ++ ['\x7d'])))) := by
  simp [TurnCursor.print]

theorem readDocument_print (cursor : TurnCursor) : readDocument cursor.print.toList
    = some (.object [("started_at", .number cursor.startedAt.toInt 0),
      ("id", .string cursor.id)]) := by
  have long : 3 ≤ cursor.print.toList.length := by
    rw [text_print, quote_append]
    simp only [List.length_cons, List.length_append]
    omega
  obtain ⟨fuel, enough⟩ := Nat.exists_eq_add_of_le' long
  have opens : ∀ chars, readValue (fuel + 3 + 1) ('\x7b' :: '"' :: chars)
      = (readFields (fuel + 3) ('"' :: chars)).bind fun found =>
        some (.object found.1, found.2) := fun _ => rfl
  have second : readFields (fuel + 2) ((Json.quote "id").toList
      ++ ':' :: ((Json.quote cursor.id).toList ++ ['\x7d']))
        = some ([("id", .string cursor.id)], []) := by
    rw [readFields_field readValue_quote]
    rfl
  have first : readFields (fuel + 3) ((Json.quote "started_at").toList
      ++ ':' :: ((toString cursor.startedAt.toInt).toList ++ ',' :: ((Json.quote "id").toList
        ++ ':' :: ((Json.quote cursor.id).toList ++ ['\x7d']))))
        = some ([("started_at", .number cursor.startedAt.toInt 0), ("id", .string cursor.id)],
          []) := by
    have ends : ∀ rest, Ends (',' :: rest) := fun _ c same => .inl (Option.mem_some.1 same).symm
    rw [readFields_field (readValue_number (ends _))]
    show ((readFields (fuel + 2) _).bind _ : Option _) = _
    rw [second]
    rfl
  rw [readDocument, enough, text_print]
  rw [quote_append] at first ⊢
  rw [opens, first]
  rfl

theorem ofDocument_print (cursor : TurnCursor) :
    TurnCursor.ofDocument (.object [("started_at", .number cursor.startedAt.toInt 0),
      ("id", .string cursor.id)]) = some cursor := by
  have bounds := And.intro cursor.startedAt.le_toInt cursor.startedAt.toInt_lt
  have read : (Json.number cursor.startedAt.toInt 0).asI64 = some cursor.startedAt.toInt :=
    if_pos bounds
  have fields : TurnCursor.only [("started_at", .number cursor.startedAt.toInt 0),
      ("id", .string cursor.id)] "started_at" = some (.number cursor.startedAt.toInt 0)
      ∧ TurnCursor.only [("started_at", .number cursor.startedAt.toInt 0),
        ("id", .string cursor.id)] "id" = some (.string cursor.id) := ⟨rfl, rfl⟩
  simp only [TurnCursor.ofDocument, fields.1, fields.2, Option.bind_eq_bind, Option.bind_some, read,
    Json.asStr, Int64.ofInt_toInt]

theorem decode_encode (cursor : TurnCursor) : TurnCursor.decode cursor.encode = .ok cursor := by
  have bytes : ByteArray.mk cursor.print.toUTF8.data.toList.toArray = cursor.print.toList.utf8Encode := by
    rw [Array.toArray_toList]
    exact String.utf8Encode_toList.symm
  simp only [TurnCursor.decode, TurnCursor.encode, String.toList_ofList,
    Library.Base64.decode_encode, Option.bind_eq_bind, Option.bind_some, bytes,
    List.utf8Decode?_utf8Encode, readDocument_print, ofDocument_print]
  rfl

end Cursors

section Pages

variable {printers : Printers} {events : List Event}

abbrev turnsAt (printers : Printers) (events : List Event) (nowMs : Int64) : List Turn :=
  (buildTurns printers.json (events.map turnProjectionEvent) nowMs).turns

def size (request : Request) : Nat := (TurnListPage.new request.limit).limit

def shown (page : TurnPage) : List Turn × Option String × Bool :=
  (page.turns, page.cursor, page.hasMore)

def cut (slice : List Turn × Bool) : List Turn × Option String × Bool :=
  (slice.1, if slice.2 then
      slice.1.head?.map fun turn => (TurnCursor.mk turn.startedAt turn.id).encode
    else none, slice.2)

theorem size_pos (request : Request) : 0 < size request := (TurnListPage.new request.limit).positive

theorem shown_pageOf (request : Request) (eligible : List Turn) (totalTurnCount : Nat)
    (lastEvent : Option LastEventCursor) :
    shown (pageOf (TurnListPage.new request.limit) eligible totalTurnCount lastEvent)
      = cut (eligible.drop (startIndex (size request) eligible.length),
        decide (0 < startIndex (size request) eligible.length)) :=
  rfl

theorem listPage_shown {cursor : Option String} {decoded : Option TurnCursor} (request : Request)
    (read : cursor.mapM TurnCursor.decode = .ok decoded) :
    ∃ page, listPage printers events cursor request = .ok page ∧ shown page =
      cut ((eligibleTurns (turnsAt printers events request.nowMs) decoded).drop (startIndex
          (size request) (eligibleTurns (turnsAt printers events request.nowMs) decoded).length),
        decide (0 < startIndex (size request)
          (eligibleTurns (turnsAt printers events request.nowMs) decoded).length)) := by
  rw [listPage, read]
  exact ⟨_, rfl, shown_pageOf _ _ _ _⟩

theorem keyLt_asymm {left right : Key} (less : keyLt left right) : ¬ keyLt right left := by
  rcases less with earlier | ⟨together, smaller⟩
  · rintro (later | ⟨same, -⟩)
    · exact Int64.lt_irrefl (Int64.lt_trans earlier later)
    · exact Int64.lt_irrefl (same ▸ earlier)
  · rintro (later | ⟨-, larger⟩)
    · exact Int64.lt_irrefl (together ▸ later)
    · exact String.lt_irrefl _ (String.lt_trans smaller larger)

theorem isTurnBefore_iff (left right : Turn) :
    (TurnCursor.mk right.startedAt right.id).isTurnBefore left.startedAt left.id = true
      ↔ keyLt (key left) (key right) := by
  rw [TurnCursor.isTurnBefore, decide_eq_true_iff]
  exact Iff.rfl

theorem eligible_before {turns : List Turn}
    (ordered : turns.Pairwise fun left right => keyLt (key left) (key right)) {index : Nat}
    {turn : Turn} (here : turns[index]? = some turn) :
    eligibleTurns turns (some ⟨turn.startedAt, turn.id⟩) = turns.take index := by
  refine filter_before (ordered.imp fun less => (isTurnBefore_iff _ _).2 less) ?_ here
  intro left right less
  rw [← Bool.not_eq_true, isTurnBefore_iff]
  exact keyLt_asymm ((isTurnBefore_iff _ _).1 less)

theorem eligible_settled {index : Nat} {items : List Turn} {k : Key} (nowMs : Int64)
    (settled : Settled printers.json (events.map turnProjectionEvent) index items k) :
    eligibleTurns (turnsAt printers events nowMs) (some ⟨k.1, k.2⟩) = items := by
  obtain ⟨before, there⟩ := settled nowMs
  obtain ⟨turn, here, rfl⟩ := Option.map_eq_some_iff.1 there
  exact (eligible_before turns_ordered here).trans before

theorem listPage_next {index : Nat} {items : List Turn} {k : Key} (request : Request)
    (settled : Settled printers.json (events.map turnProjectionEvent) index items k) :
    ∃ page, listPage printers events (some (TurnCursor.mk k.1 k.2).encode) request = .ok page
      ∧ shown page = cut (items.drop (startIndex (size request) items.length),
        decide (0 < startIndex (size request) items.length)) := by
  have read : (some (TurnCursor.mk k.1 k.2).encode).mapM TurnCursor.decode
      = .ok (some (TurnCursor.mk k.1 k.2)) := by
    rw [Option.mapM_some, decode_encode]
    rfl
  have page := @listPage_shown printers events _ _ request read
  rwa [eligible_settled request.nowMs settled] at page

theorem settled_before {print : Json → String} {events : List TurnProjectionEvent}
    {index start : Nat} {items : List Turn} {k : Key} {turn : Turn}
    (settled : Settled print events index items k) (there : items[start]? = some turn) :
    Settled print events start (items.take start) (key turn) := by
  intro nowMs
  obtain ⟨rfl, -⟩ := settled nowMs
  obtain ⟨inside, -⟩ := List.getElem?_eq_some_iff.1 there
  rw [List.length_take] at inside
  have short : start < index := by omega
  rw [List.getElem?_take_of_lt short] at there
  rw [List.take_take, Nat.min_eq_left (Nat.le_of_lt short), there]
  exact ⟨rfl, rfl⟩

theorem follow_cons {cursor : Option String} {request : Request} {rest : List Request}
    {page : TurnPage} {items : List Turn}
    (answered : listPage printers events cursor request = .ok page)
    (shows_ : shown page = cut (items.drop (startIndex (size request) items.length),
      decide (0 < startIndex (size request) items.length)))
    (older : ∀ turn, items[startIndex (size request) items.length]? = some turn →
      ∃ pages, follow printers events (some (TurnCursor.mk (key turn).1 (key turn).2).encode) rest
          = .ok pages
        ∧ pages.map shown
          = (slices (items.take (startIndex (size request) items.length)) (rest.map size)).map cut) :
    ∃ pages, follow printers events cursor (request :: rest) = .ok pages
      ∧ pages.map shown = (slices items ((request :: rest).map size)).map cut := by
  have more : page.hasMore = decide (0 < startIndex (size request) items.length) :=
    congrArg (fun shown => shown.2.2) shows_
  have next : page.cursor = _ := congrArg (fun shown => shown.2.1) shows_
  rw [follow, answered, List.map_cons, slices, List.map_cons, ← shows_]
  by_cases further : 0 < startIndex (size request) items.length
  · have inside : startIndex (size request) items.length < items.length := by
      have positive := size_pos request
      unfold startIndex at further ⊢
      omega
    have there := List.getElem?_eq_getElem inside
    obtain ⟨pages, others, same⟩ := older _ there
    simp only [key] at others
    have cursor_ : page.cursor = some (TurnCursor.mk
        (items[startIndex (size request) items.length]).startedAt
        (items[startIndex (size request) items.length]).id).encode := by
      rw [next, cut]
      simp only [further, decide_true, if_true, List.head?_drop, there, Option.map_some]
    refine ⟨page :: pages, ?_, by rw [List.map_cons, same, if_pos further]⟩
    show (if page.hasMore = true then (follow printers events page.cursor rest).bind fun others =>
      .ok (page :: others) else .ok [page]) = _
    rw [more, if_pos (by simpa using further), cursor_, others]
    rfl
  · refine ⟨[page], ?_, by rw [if_neg further]; rfl⟩
    show (if page.hasMore = true then (follow printers events page.cursor rest).bind fun others =>
      .ok (page :: others) else .ok [page]) = _
    rw [more, if_neg (by simpa using further)]

theorem follow_settled {requests : List Request} {index : Nat} {items : List Turn} {k : Key}
    (settled : Settled printers.json (events.map turnProjectionEvent) index items k) :
    ∃ pages, follow printers events (some (TurnCursor.mk k.1 k.2).encode) requests = .ok pages
      ∧ pages.map shown = (slices items (requests.map size)).map cut := by
  induction requests generalizing index items k with
  | nil => exact ⟨[], rfl, rfl⟩
  | cons request rest ih =>
      obtain ⟨page, answered, shows_⟩ := listPage_next request settled
      exact follow_cons answered shows_ fun turn there => ih (settled_before settled there)

theorem follow_first (request : Request) (rest : List Request) :
    ∃ pages, follow printers events none (request :: rest) = .ok pages ∧ pages.map shown
      = (slices (turnsAt printers events request.nowMs) ((request :: rest).map size)).map cut := by
  obtain ⟨page, answered, shows_⟩ := @listPage_shown printers events none none request rfl
  exact follow_cons answered shows_ fun turn there => follow_settled (settled_of_turn there)

end Pages

/-- Events that are added somewhere. -/
inductive Grows (added : Event → Prop) : List Event → List Event → Prop where
  | nil : Grows added [] []
  | keep (event : Event) {before after : List Event} :
      Grows added before after → Grows added (event :: before) (event :: after)
  | add {event : Event} {before after : List Event} :
      added event → Grows added before after → Grows added before (event :: after)

section Growth

variable {added : Event → Prop} {before after : List Event}

theorem Grows.filter {time : Int64}
    (late : ∀ event, added event → time < (turnProjectionEvent event).createdAtMs)
    (grows : Grows added before after) :
    (after.map turnProjectionEvent).filter (early time)
      = (before.map turnProjectionEvent).filter (early time) := by
  induction grows with
  | nil => rfl
  | keep event _ ih => rw [List.map_cons, List.map_cons, List.filter_cons, List.filter_cons, ih]
  | add new _ ih =>
      have after := late _ new
      rw [List.map_cons, List.filter_cons_of_neg, ih]
      rw [early, decide_eq_true_iff]
      exact Int64.not_le.2 after

theorem Grows.settled {print : Json → String} {nowMs : Int64} {index : Nat} {turn : Turn}
    (late : ∀ event, added event → turn.startedAt < (turnProjectionEvent event).createdAtMs)
    (grows : Grows added before after)
    (there : (buildTurns print (before.map turnProjectionEvent) nowMs).turns[index]? = some turn) :
    ∃ items, Settled print (before.map turnProjectionEvent) index items (key turn)
      ∧ Settled print (after.map turnProjectionEvent) index items (key turn) := by
  have soon := early_of_turn there Int64.le_rfl
  have same : earlyContext print turn.startedAt (after.map turnProjectionEvent)
      = earlyContext print turn.startedAt (before.map turnProjectionEvent) := by
    rw [earlyContext, grows.filter late, earlyContext]
  refine ⟨_, settled_of_early soon, ?_⟩
  have grown := soon
  rw [← same] at grown ⊢
  exact settled_of_early grown

theorem cursor_of_page {printers : Printers} {events : List Event} {cursor : Option String}
    {request : Request} {page : TurnPage} {next : String}
    (answered : listPage printers events cursor request = .ok page)
    (more : page.cursor = some next) :
    ∃ turn ∈ page.turns, next = (TurnCursor.mk turn.startedAt turn.id).encode
      ∧ ∃ index : Nat, (turnsAt printers events request.nowMs)[index]? = some turn := by
  cases read : cursor.mapM TurnCursor.decode with
  | error refused =>
      rw [listPage, read] at answered
      cases answered
  | ok decoded =>
      obtain ⟨other, same, shows_⟩ := @listPage_shown printers events _ _ request read
      rw [answered] at same
      cases same
      generalize chosen : eligibleTurns (turnsAt printers events request.nowMs) decoded = eligible
        at shows_
      generalize startIndex (size request) eligible.length = start at shows_
      have turns : page.turns = eligible.drop start := congrArg (fun shown => shown.1) shows_
      have cursor_ : page.cursor = _ := congrArg (fun shown => shown.2.1) shows_
      rw [more, cut] at cursor_
      split at cursor_
      case isFalse => cases cursor_
      case isTrue =>
          obtain ⟨turn, first, same⟩ := Option.map_eq_some_iff.1 cursor_.symm
          have here := List.mem_of_head? first
          have member : turn ∈ turnsAt printers events request.nowMs := by
            have inside := List.mem_of_mem_drop here
            rw [← chosen] at inside
            cases decoded with
            | none => exact inside
            | some cursor => exact (List.mem_filter.1 inside).1
          obtain ⟨index, there⟩ := List.mem_iff_getElem?.1 member
          exact ⟨turn, turns ▸ here, same.symm, index, there⟩

end Growth

section Complete

variable {printers : Printers} {events : List Event}

theorem follow_complete {request : Request} {rest : List Request}
    (enough : (turnsAt printers events request.nowMs).length ≤ rest.length) :
    ∃ pages, follow printers events none (request :: rest) = .ok pages
      ∧ pages.getLast?.map (·.hasMore) = some false
      ∧ pages.reverse.flatMap (·.turns) = turnsAt printers events request.nowMs := by
  obtain ⟨pages, followed, same⟩ := @follow_first printers events request rest
  have positive : ∀ limit ∈ (request :: rest).map size, 0 < limit := by
    intro limit member
    obtain ⟨other, -, rfl⟩ := List.mem_map.1 member
    exact size_pos other
  obtain ⟨whole, last⟩ := @slices_complete _ (turnsAt printers events request.nowMs)
    ((request :: rest).map size) (by simp)
    (by rw [List.length_map]; exact Nat.le_succ_of_le enough) positive
  refine ⟨pages, followed, ?_, ?_⟩
  · have ends := congrArg (fun pages => pages.getLast?.map fun shown => shown.2.2) same
    simp only [List.getLast?_map, Option.map_map] at ends
    refine ends.trans ?_
    rw [← last]
    rfl
  · have turns := congrArg (fun pages => pages.reverse.flatMap fun shown => shown.1) same
    simp only [← List.map_reverse, List.flatMap_map] at turns
    exact turns.trans whole

end Complete

namespace Sample

def prompt (id : Fin (2 ^ 128)) (ms : Int) : Event where
  id := ⟨id⟩
  eventType := "user_prompt_submit"
  payload := .object []
  sessionId := none
  createdAt := ms * 1000

def printers : Printers := ⟨fun _ => "", fun _ => ""⟩

def lastPage : TurnPage :=
  pageOf (TurnListPage.new 1)
    (turnsAt printers [prompt 1 5, prompt 2 9] 9) 4 (some ⟨"", (prompt 2 9).id.toText⟩)

def cursor : TurnCursor := ⟨9, (prompt 2 9).id.toText ++ "-assistant"⟩

end Sample

/-- Following the cursor gives every turn once and in order; an encoded cursor is decoded again;
and events that are later than the turns of a page leave the older pages alone. -/
theorem paged (printers : Printers) :
    (∀ (events : List Event) (requests : Nat → Request), ∃ count pages,
        follow printers events none ((List.range count).map requests) = .ok pages
          ∧ pages.getLast?.map (·.hasMore) = some false
          ∧ pages.reverse.flatMap (·.turns) = (buildTurns printers.json
            (events.map turnProjectionEvent) (requests 0).nowMs).turns)
      ∧ (∀ cursor : TurnCursor, TurnCursor.decode cursor.encode = .ok cursor)
      ∧ ∀ (before after : List Event) (cursor : Option String) (request : Request)
        (page : TurnPage) (next : String),
        listPage printers before cursor request = .ok page → page.cursor = some next →
        Grows (fun event => ∀ turn ∈ page.turns,
          turn.startedAt < (turnProjectionEvent event).createdAtMs) before after →
        ∀ requests others : List Request, requests.map (·.limit) = others.map (·.limit) →
          (follow printers after (some next) others).map (·.map shown)
            = (follow printers before (some next) requests).map (·.map shown) := by
  refine ⟨fun events requests => ?_, decode_encode, ?_⟩
  · refine ⟨(turnsAt printers events (requests 0).nowMs).length + 1, ?_⟩
    rw [List.range_succ_eq_map, List.map_cons]
    refine follow_complete ?_
    rw [List.length_map, List.length_map, List.length_range]
  · rintro before after cursor request page next answered more grows requests others limits
    obtain ⟨turn, member, rfl, index, there⟩ := cursor_of_page answered more
    obtain ⟨items, settled, grown⟩ :=
      grows.settled (fun event late => late turn member) there
    have sizes : others.map size = requests.map size := by
      have same := congrArg (List.map fun limit => (TurnListPage.new limit).limit) limits
      rw [List.map_map, List.map_map] at same
      exact same.symm
    obtain ⟨pages, followed, same⟩ := @follow_settled printers before requests _ _ _ settled
    obtain ⟨pages', followed', same'⟩ := @follow_settled printers after others _ _ _ grown
    simp only [key] at followed followed'
    rw [followed, followed', Except.map, Except.map, same, same', sizes]

theorem paged_later :
    Grows (fun event => ∀ turn ∈ Sample.lastPage.turns,
        turn.startedAt < (turnProjectionEvent event).createdAtMs)
      [Sample.prompt 1 5, Sample.prompt 2 9]
      [Sample.prompt 1 5, Sample.prompt 2 9, Sample.prompt 0 12]
    ∧ ∀ requests : List Request,
      (follow Sample.printers [Sample.prompt 1 5, Sample.prompt 2 9, Sample.prompt 0 12]
          (some Sample.cursor.encode)
          requests).map (·.map shown)
        = (follow Sample.printers [Sample.prompt 1 5, Sample.prompt 2 9]
          (some Sample.cursor.encode)
          requests).map (·.map shown) := by
  have later : Grows (fun event => ∀ turn ∈ Sample.lastPage.turns,
        turn.startedAt < (turnProjectionEvent event).createdAtMs)
      [Sample.prompt 1 5, Sample.prompt 2 9]
      [Sample.prompt 1 5, Sample.prompt 2 9, Sample.prompt 0 12] := by
    refine .keep _ (.keep _ (.add ?_ .nil))
    decide +kernel
  refine ⟨later, fun requests => ?_⟩
  exact (paged Sample.printers).2.2 _ _ none ⟨9, 1⟩ Sample.lastPage _ rfl (by decide +kernel) later
    requests requests rfl

end Forge.TurnPagination
