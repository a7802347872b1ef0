import Forge.Library.Fallible
import Forge.Library.JsonObject
import Forge.OrchestrationView

/-! The hook events that the relay of a container accepts: their identity, their lifecycle
sequence number, and the file that keeps the last number across restarts. -/

namespace Forge.HookEvents

open Forge.Library.Fallible
open Forge.Library.Identifier
open Forge.Library.JsonDocument
open Forge.Library.Text
open Forge.OrchestrationView

inductive HookError where
  | invalidData (message : String)
  | other (message : String)
  | os
deriving DecidableEq, Repr

/-- `str::trim`. -/
def trim (text : String) : String :=
  String.ofList (strip isWhitespace text.toList)

def maxEventIdLen : Nat := 256

def hookSession (payload : Json) : Option String :=
  let reported := (payload.get "sessionId").or (payload.get "session_id")
  ((reported.bind Json.asStr).map trim).filter fun session => session ≠ ""

def ensureEventId (drawn : Uuid) (payload : Json) : Except HookError Json :=
  if payload.isObject then
    match payload.get "id" with
    | some (.string id) =>
        if trimIsEmpty id = false ∧ id.utf8ByteSize ≤ maxEventIdLen then .ok payload
        else .error (.invalidData "hook event id must be a non-empty string")
    | none => .ok (payload.insert "id" (.string drawn.toText))
    | some _ => .error (.invalidData "hook event id must be a non-empty string")
  else .error (.invalidData "hook payload must be an object")

def opensSession (eventType : String) : Bool :=
  eventType == "pre_tool_use" || eventType == "user_prompt_submit"

def closesSession (eventType : String) : Bool :=
  eventType == "stop" || eventType == "session_end"

def isLifecycleEvent (eventType : String) : Bool :=
  opensSession eventType || closesSession eventType

theorem opensSession_of_closesSession {eventType : String}
    (closes : closesSession eventType = true) : opensSession eventType = false := by
  simp only [closesSession, Bool.or_eq_true, beq_iff_eq] at closes
  rcases closes with rfl | rfl <;> decide

def updateActiveHookSession (active : Option String) (eventType : String) (payload : Json) :
    Option String :=
  match hookSession payload with
  | some session =>
      if opensSession eventType then some session
      else if closesSession eventType && active == some session then none
      else active
  | none => active

structure HookStateSnapshot where
  schemaVersion : Nat
  generationFingerprint : String
  activeHookSession : Option String
  lastLifecycleSequence : Int
deriving DecidableEq, Repr

def hookStateSchemaVersion : Nat := 1

def emptyHookState (generationFingerprint : String) : HookStateSnapshot where
  schemaVersion := hookStateSchemaVersion
  generationFingerprint
  activeHookSession := none
  lastLifecycleSequence := 0

namespace HookStateSnapshot

/-- `serde_json::to_vec`. -/
def toJson (snapshot : HookStateSnapshot) : Json :=
  .object [
    ("schemaVersion", .number snapshot.schemaVersion 0),
    ("generationFingerprint", .string snapshot.generationFingerprint),
    ("activeHookSession", (snapshot.activeHookSession.map Json.string).getD .null),
    ("lastLifecycleSequence", .number snapshot.lastLifecycleSequence 0)]

def asU8 (value : Json) : Option Nat :=
  (value.asI64.filter fun n => 0 ≤ n ∧ n < 256).map Int.toNat

/-- `Option<String>` from a document. -/
def asOptionString : Json → Option (Option String)
  | .null => some none
  | .string text => some (some text)
  | _ => none

def ofParts (version generation active last : Json) : Option HookStateSnapshot := do
  let schemaVersion ← asU8 version
  let generationFingerprint ← generation.asStr
  let activeHookSession ← asOptionString active
  let lastLifecycleSequence ← last.asI64
  pure { schemaVersion, generationFingerprint, activeHookSession, lastLifecycleSequence }

def fieldOnce (fields : List (String × Json)) (key : String) : Option Json :=
  match fields.filter fun field => field.1 == key with
  | [] => some .null
  | [field] => some field.2
  | _ => none

/-- `serde_json::from_slice`, which reads a record from an object or from the list of its
values. -/
def ofJson : Json → Option HookStateSnapshot
  | .object fields => do
      ofParts (← fieldOnce fields "schemaVersion") (← fieldOnce fields "generationFingerprint")
        (← fieldOnce fields "activeHookSession") (← fieldOnce fields "lastLifecycleSequence")
  | .array [version, generation, active, last] => ofParts version generation active last
  | _ => none

/-- A state of this generation, as the relay writes it. -/
structure Current (generation : String) (snapshot : HookStateSnapshot) : Prop where
  version : snapshot.schemaVersion = hookStateSchemaVersion
  generation : snapshot.generationFingerprint = generation
  nonneg : 0 ≤ snapshot.lastLifecycleSequence
  bounded : snapshot.lastLifecycleSequence < 2 ^ 63

theorem current_empty (generation : String) : (emptyHookState generation).Current generation :=
  ⟨rfl, rfl, by simp [emptyHookState], by simp [emptyHookState]⟩

theorem asOptionString_toJson (active : Option String) :
    asOptionString ((active.map Json.string).getD .null) = some active := by
  cases active <;> rfl

theorem asI64_number {n : Int} (nonneg : 0 ≤ n) (bounded : n < 2 ^ 63) :
    (Json.number n 0).asI64 = some n := by
  rw [Json.asI64, if_pos ⟨by omega, bounded⟩]

theorem ofJson_object (version generation active last : Json) :
    ofJson (.object [("schemaVersion", version), ("generationFingerprint", generation),
      ("activeHookSession", active), ("lastLifecycleSequence", last)])
      = ofParts version generation active last := by
  simp [ofJson, fieldOnce]

theorem ofJson_toJson {generation : String} {snapshot : HookStateSnapshot}
    (current : snapshot.Current generation) : ofJson snapshot.toJson = some snapshot := by
  have last := asI64_number current.nonneg current.bounded
  have version : asU8 (.number snapshot.schemaVersion 0) = some snapshot.schemaVersion := by
    rw [current.version]
    decide
  rw [toJson, ofJson_object, ofParts, version, asOptionString_toJson, last]
  rfl

end HookStateSnapshot

inductive StateFile where
  | missing
  | garbled
  | document (content : Json)
deriving DecidableEq

/-- The owner in the previous shape of the file, which stored only `Option<String>`. -/
def legacyHookSession (content : Json) : Option String :=
  (((HookStateSnapshot.asOptionString content).join).map trim).filter fun session => session ≠ ""

def HookStateSnapshot.continues (generationFingerprint : String) (snapshot : HookStateSnapshot) :
    Bool :=
  snapshot.schemaVersion == hookStateSchemaVersion
    && snapshot.generationFingerprint == generationFingerprint
    && decide (0 ≤ snapshot.lastLifecycleSequence)

/-- `load_hook_state`; the read fails when `readable` is false. -/
def loadHookState (file : StateFile) (readable : Bool) (generationFingerprint : String) :
    HookStateSnapshot :=
  match file, readable with
  | .document content, true =>
      match (HookStateSnapshot.ofJson content).filter (·.continues generationFingerprint) with
      | some snapshot => snapshot
      | none => { emptyHookState generationFingerprint with
          activeHookSession := legacyHookSession content }
  | _, _ => emptyHookState generationFingerprint

theorem HookStateSnapshot.bounded_of_ofJson {content : Json} {snapshot : HookStateSnapshot}
    (read : ofJson content = some snapshot) : snapshot.lastLifecycleSequence < 2 ^ 63 := by
  have parts : ∀ version generation active last,
      ofParts version generation active last = some snapshot →
        last.asI64 = some snapshot.lastLifecycleSequence := by
    intro version generation active last whole
    simp only [ofParts, Option.bind_eq_bind, Option.bind_eq_some_iff] at whole
    obtain ⟨_, -, _, -, _, -, number, found, same⟩ := whole
    cases same
    exact found
  have number : ∃ last : Json, last.asI64 = some snapshot.lastLifecycleSequence := by
    unfold ofJson at read
    split at read
    · simp only [Option.bind_eq_bind, Option.bind_eq_some_iff] at read
      obtain ⟨_, -, _, -, _, -, last, -, whole⟩ := read
      exact ⟨last, parts _ _ _ _ whole⟩
    · exact ⟨_, parts _ _ _ _ read⟩
    · cases read
  obtain ⟨last, found⟩ := number
  unfold Json.asI64 at found
  split at found
  · split at found
    case isTrue inside =>
        cases found
        exact inside.2
    case isFalse => cases found
  · cases found

theorem current_loadHookState (file : StateFile) (readable : Bool) (generation : String) :
    (loadHookState file readable generation).Current generation := by
  unfold loadHookState
  split
  · split
    case h_1 snapshot kept =>
        obtain ⟨read, continues⟩ := Option.filter_eq_some_iff.1 kept
        simp only [HookStateSnapshot.continues, Bool.and_eq_true, beq_iff_eq,
          decide_eq_true_eq] at continues
        exact ⟨continues.1.1, continues.1.2, continues.2,
          HookStateSnapshot.bounded_of_ofJson read⟩
    case h_2 =>
        have empty := HookStateSnapshot.current_empty generation
        exact ⟨empty.version, empty.generation, empty.nonneg, empty.bounded⟩
  · exact HookStateSnapshot.current_empty generation

theorem loadHookState_toJson {generation : String} {snapshot : HookStateSnapshot}
    (current : snapshot.Current generation) :
    loadHookState (.document snapshot.toJson) true generation = snapshot := by
  have continues : snapshot.continues generation = true := by
    simp [HookStateSnapshot.continues, current.version, current.generation, current.nonneg]
  have kept : (HookStateSnapshot.ofJson snapshot.toJson).filter (·.continues generation)
      = some snapshot := by
    rw [HookStateSnapshot.ofJson_toJson current, Option.filter_some, if_pos continues]
  rw [loadHookState, kept]

structure HookStateFile where
  visible : StateFile
  durable : StateFile
deriving DecidableEq

structure HookStateStore where
  snapshot : HookStateSnapshot
  file : HookStateFile
deriving DecidableEq

/-- Where the write of the state ends: with an error up to the rename, with an error of the
directory sync after it, or without one. -/
inductive Persist where
  | notRenamed | notSynced | synced
deriving DecidableEq, Repr

def persistHookState (persist : Persist) (next : HookStateSnapshot) (file : HookStateFile) :
    Except HookError Unit × HookStateFile :=
  let content := StateFile.document next.toJson
  match persist with
  | .notRenamed => (.error .os, file)
  | .notSynced => (.error .os, { file with visible := content })
  | .synced => (.ok (), ⟨content, content⟩)

/-- The part of `prepare_lifecycle` before the state is written: the next state and the payload
with its number. -/
def advanceLifecycle (snapshot : HookStateSnapshot) (eventType : String) (payload : Json) :
    Except HookError (HookStateSnapshot × Json) := do
  let session ← (hookSession payload).elim
    (.error (.invalidData "lifecycle hook sessionId must be non-empty")) .ok
  if opensSession eventType ∧ snapshot.activeHookSession.isSome
      ∧ snapshot.activeHookSession ≠ some session then
    throw (.invalidData "a different Container CLI hook session is already active")
  else if (2 : Int) ^ 63 ≤ snapshot.lastLifecycleSequence + 1 then
    throw (.other "lifecycle sequence exhausted")
  else if payload.isObject = false then
    throw (.invalidData "hook payload must be an object")
  else
    let sequence := snapshot.lastLifecycleSequence + 1
    pure ({ snapshot with
        lastLifecycleSequence := sequence
        activeHookSession :=
          updateActiveHookSession snapshot.activeHookSession eventType payload },
      payload.insert "lifecycleSequence" (.number sequence 0))

def prepareLifecycle (persist : Persist) (eventType : String) (payload : Json)
    (store : HookStateStore) : Except HookError Json × HookStateStore :=
  match advanceLifecycle store.snapshot eventType payload with
  | .error err => (.error err, store)
  | .ok (next, prepared) =>
      match persistHookState persist next store.file with
      | (.error err, file) => (.error err, { store with file })
      | (.ok (), file) => (.ok prepared, ⟨next, file⟩)

/-- `prepare_hook_event`. -/
def prepareHookEvent (drawn : Uuid) (persist : Persist) (eventType : String) (payload : Json)
    (store : HookStateStore) : Except HookError Json × HookStateStore :=
  match ensureEventId drawn payload with
  | .error err => (.error err, store)
  | .ok identified =>
      if isLifecycleEvent eventType then prepareLifecycle persist eventType identified store
      else (.ok identified, store)

/-- What an accepted lifecycle event does to the state and to its payload. -/
structure Advances (snapshot : HookStateSnapshot) (eventType : String) (payload : Json)
    (next : HookStateSnapshot) (prepared : Json) : Prop where
  session : ∃ session, hookSession payload = some session ∧ (opensSession eventType = true →
    snapshot.activeHookSession = none ∨ snapshot.activeHookSession = some session)
  object : payload.isObject = true
  bounded : snapshot.lastLifecycleSequence + 1 < 2 ^ 63
  next_eq : next = { snapshot with
    lastLifecycleSequence := snapshot.lastLifecycleSequence + 1
    activeHookSession := updateActiveHookSession snapshot.activeHookSession eventType payload }
  prepared_eq : prepared =
    payload.insert "lifecycleSequence" (.number (snapshot.lastLifecycleSequence + 1) 0)

theorem advanceLifecycle_eq_ok {snapshot next : HookStateSnapshot} {eventType : String}
    {payload prepared : Json} :
    advanceLifecycle snapshot eventType payload = .ok (next, prepared)
      ↔ Advances snapshot eventType payload next prepared := by
  simp only [advanceLifecycle, bind_eq_ok, elim_eq_ok, guard_eq_ok]
  constructor
  · rintro ⟨session, found, own, room, object, done⟩
    cases done
    refine ⟨⟨session, found, fun opens => ?_⟩, by simpa using object, by omega, rfl, rfl⟩
    cases active : snapshot.activeHookSession with
    | none => exact .inl rfl
    | some other =>
        by_cases same : other = session
        · exact .inr (by rw [same])
        · exact absurd ⟨opens, by rw [active]; rfl, by simp [active, same]⟩ own
  · rintro ⟨⟨session, found, own⟩, object, bounded, rfl, rfl⟩
    refine ⟨session, found, ?_, by omega, by simp [object], rfl⟩
    rintro ⟨opens, active, other⟩
    rcases own opens with free | same
    · simp [free] at active
    · exact other same

theorem Advances.current {snapshot next : HookStateSnapshot} {eventType : String}
    {payload prepared : Json} (advances : Advances snapshot eventType payload next prepared)
    {generation : String} (current : snapshot.Current generation) : next.Current generation := by
  rw [advances.next_eq]
  refine ⟨current.version, current.generation, ?_, advances.bounded⟩
  have nonneg := current.nonneg
  show 0 ≤ snapshot.lastLifecycleSequence + 1
  omega

/-- How a hook event ends: rejected with the store as it was, accepted without a number, failed
after the rename, or accepted with the next number. -/
inductive Outcome (drawn : Uuid) (persist : Persist) (eventType : String) (payload : Json)
    (store : HookStateStore) : Except HookError Json × HookStateStore → Prop where
  | rejected (err : HookError) : Outcome drawn persist eventType payload store (.error err, store)
  | plain {identified : Json} (identity : ensureEventId drawn payload = .ok identified)
      (other : isLifecycleEvent eventType = false) :
      Outcome drawn persist eventType payload store (.ok identified, store)
  | renamed {identified prepared : Json} {next : HookStateSnapshot} (err : HookError)
      (identity : ensureEventId drawn payload = .ok identified)
      (advances : Advances store.snapshot eventType identified next prepared)
      (unsynced : persist = .notSynced) :
      Outcome drawn persist eventType payload store
        (.error err, { store with file.visible := .document next.toJson })
  | numbered {identified prepared : Json} {next : HookStateSnapshot}
      (identity : ensureEventId drawn payload = .ok identified)
      (lifecycle : isLifecycleEvent eventType = true)
      (advances : Advances store.snapshot eventType identified next prepared) :
      Outcome drawn persist eventType payload store
        (.ok prepared, ⟨next, .document next.toJson, .document next.toJson⟩)

theorem outcome_prepareHookEvent (drawn : Uuid) (persist : Persist) (eventType : String)
    (payload : Json) (store : HookStateStore) :
    Outcome drawn persist eventType payload store
      (prepareHookEvent drawn persist eventType payload store) := by
  unfold prepareHookEvent
  split
  case h_1 err _ => exact .rejected err
  case h_2 identified identity =>
      split
      case isFalse other => exact .plain identity (by simpa using other)
      case isTrue lifecycle =>
          unfold prepareLifecycle
          split
          case h_1 err _ => exact .rejected err
          case h_2 next prepared advanced =>
              have advances := advanceLifecycle_eq_ok.1 advanced
              cases persist with
              | notRenamed => exact .rejected .os
              | notSynced => exact .renamed .os identity advances rfl
              | synced => exact .numbered identity lifecycle advances

theorem ensureEventId_eq_ok {drawn : Uuid} {payload identified : Json}
    (identity : ensureEventId drawn payload = .ok identified) :
    payload.isObject = true ∧ ((payload.get "id" = none
        ∧ identified = payload.insert "id" (.string drawn.toText))
      ∨ ∃ id, payload.get "id" = some (.string id) ∧ trimIsEmpty id = false
        ∧ id.utf8ByteSize ≤ maxEventIdLen ∧ identified = payload) := by
  unfold ensureEventId at identity
  split at identity
  case isFalse => cases identity
  case isTrue object =>
      refine ⟨object, ?_⟩
      split at identity
      case h_1 id found =>
          split at identity
          case isTrue valid =>
              cases identity
              exact .inr ⟨id, found, valid.1, valid.2, rfl⟩
          case isFalse => cases identity
      case h_2 absent =>
          cases identity
          exact .inl ⟨absent, rfl⟩
      case h_3 => cases identity

theorem get_of_ensureEventId {drawn : Uuid} {payload identified : Json}
    (identity : ensureEventId drawn payload = .ok identified) {key : String} (other : key ≠ "id") :
    identified.get key = payload.get key := by
  obtain ⟨object, ⟨-, rfl⟩ | ⟨_, -, -, -, rfl⟩⟩ := ensureEventId_eq_ok identity
  · rw [Json.get_insert object, if_neg other]
  · rfl

theorem hookSession_of_ensureEventId {drawn : Uuid} {payload identified : Json}
    (identity : ensureEventId drawn payload = .ok identified) :
    hookSession identified = hookSession payload := by
  rw [hookSession, get_of_ensureEventId identity (by decide),
    get_of_ensureEventId identity (by decide)]
  rfl

theorem Advances.keepsOwner {snapshot next : HookStateSnapshot} {drawn : Uuid}
    {eventType : String} {payload identified prepared : Json}
    (advances : Advances snapshot eventType identified next prepared)
    (identity : ensureEventId drawn payload = .ok identified)
    (closes : closesSession eventType = true)
    (foreign : hookSession payload ≠ snapshot.activeHookSession) :
    next.activeHookSession = snapshot.activeHookSession := by
  obtain ⟨session, found, -⟩ := advances.session
  have other : (snapshot.activeHookSession == some session) = false := by
    rw [beq_eq_false_iff_ne, ← found, hookSession_of_ensureEventId identity]
    exact foreign.symm
  rw [advances.next_eq]
  show updateActiveHookSession _ eventType identified = _
  rw [updateActiveHookSession, found]
  simp [opensSession_of_closesSession closes, other]

end Forge.HookEvents
