import Forge.Library.JsonParts
import Forge.OrchestrationView
import Forge.SkillDomain

/-! The details of audit events: what is refused when they are written, and what is redacted when
they are read. -/

namespace Forge.AuditDetails

open Forge.Library.JsonDocument
open Forge.OrchestrationView (trimIsEmpty)
open Forge.SkillDomain (AppResult ErrorKind)

section Source

def governanceContextAction : String := "governance.context."

def redactedMarker : String := "[REDACTED]"

structure ContextAuditEvent where
  action : String
  resourceType : String
  payload : Json

/-- `to_ascii_lowercase`, and an underscore for each hyphen and each blank. -/
def normalizedKey (key : String) : String :=
  String.ofList (key.toList.map fun c =>
    if c.toLower = '-' ∨ c.toLower = ' ' then '_' else c.toLower)

def isSecretBearingKey (key : String) : Bool :=
  normalizedKey key ∈ ["content", "raw_content", "api_key", "apikey", "access_token", "auth_token",
    "token", "secret", "password", "private_key", "webhook_url", "provider_token"]

def isExportSecretKey (key : String) : Bool :=
  normalizedKey key ∈ ["secret", "secrets", "token", "access_token", "refresh_token", "api_key",
    "apikey", "password", "private_key", "credential", "credentials", "hmac_key"]

variable (secret : String → Bool)

mutual

def validateAuditDetails : Json → AppResult Unit
  | .object fields => validateFields fields
  | .array items => validateItems items
  | .string raw =>
      if secret raw then
        .error (.validation "secret-bearing audit detail value is not allowed")
      else .ok ()
  | .null | .bool _ | .number _ _ => .ok ()

def validateFields : List (String × Json) → AppResult Unit
  | [] => .ok ()
  | (key, nested) :: rest =>
      if isSecretBearingKey key then
        .error (.validation ("secret-bearing audit detail `" ++ key ++ "` is not allowed"))
      else do
        validateAuditDetails nested
        validateFields rest

def validateItems : List Json → AppResult Unit
  | [] => .ok ()
  | item :: rest => do
      validateAuditDetails item
      validateItems rest

end

def validateAuditEvent (event : ContextAuditEvent) : AppResult Unit :=
  if ¬ governanceContextAction.toList <+: event.action.toList then
    .error (.validation ("governance audit action must start with " ++ governanceContextAction))
  else if trimIsEmpty event.resourceType then
    .error (.validation "governance audit resource_type must not be empty")
  else validateAuditDetails secret event.payload

mutual

/-- The details without their secrets, and whether something was redacted. -/
def redactAuditDetails : Json → Json × Bool
  | .object fields =>
      let out := redactFields fields
      (.object out.1, out.2)
  | .array items =>
      let out := redactItems items
      (.array out.1, out.2)
  | .string raw => if secret raw then (.string redactedMarker, true) else (.string raw, false)
  | .null => (.null, false)
  | .bool value => (.bool value, false)
  | .number mantissa scale => (.number mantissa scale, false)

def redactFields : List (String × Json) → List (String × Json) × Bool
  | [] => ([], false)
  | (key, value) :: rest =>
      let later := redactFields rest
      if isExportSecretKey key then ((key, .string redactedMarker) :: later.1, true)
      else
        let nested := redactAuditDetails value
        ((key, nested.1) :: later.1, nested.2 || later.2)

def redactItems : List Json → List Json × Bool
  | [] => ([], false)
  | item :: rest =>
      let nested := redactAuditDetails item
      let later := redactItems rest
      (nested.1 :: later.1, nested.2 || later.2)

end

end Source

section Statements

variable (secret : String → Bool)

def Silent (details : Json) : Prop := ∀ text, Part (.string text) details → secret text = false

def Without (named : String → Bool) (details : Json) : Prop :=
  ∀ fields key value, Part (.object fields) details → (key, value) ∈ fields → named key = false

/-- What redacting details promises. -/
structure Redacted (details : Json) : Prop where
  silent : Silent secret (redactAuditDetails secret details).1
  marked : ∀ fields key value, Part (.object fields) (redactAuditDetails secret details).1 →
    (key, value) ∈ fields → isExportSecretKey key → value = .string redactedMarker
  again : (redactAuditDetails secret (redactAuditDetails secret details).1).1 =
    (redactAuditDetails secret details).1
  unchanged : (redactAuditDetails secret details).2 = false →
    (redactAuditDetails secret details).1 = details

end Statements

section Redaction

variable {secret : String → Bool}

def redactField (secret : String → Bool) (field : String × Json) : Json :=
  if isExportSecretKey field.1 then .string redactedMarker
  else (redactAuditDetails secret field.2).1

theorem redactFields_fst (fields : List (String × Json)) : (redactFields secret fields).1 =
    fields.map fun field => (field.1, redactField secret field) := by
  induction fields with
  | nil => rfl
  | cons field rest ih =>
      obtain ⟨key, value⟩ := field
      rw [redactFields, List.map_cons, ← ih, redactField]
      split <;> rfl

theorem redactFields_snd (fields : List (String × Json)) : (redactFields secret fields).2 = false ↔
    ∀ key value, (key, value) ∈ fields →
      isExportSecretKey key = false ∧ (redactAuditDetails secret value).2 = false := by
  induction fields with
  | nil => exact ⟨fun _ => nofun, fun _ => rfl⟩
  | cons field rest ih =>
      obtain ⟨key, value⟩ := field
      rw [redactFields]
      cases named : isExportSecretKey key with
      | true =>
          rw [if_pos rfl]
          refine ⟨nofun, fun all => ?_⟩
          rw [(all key value (.head _)).1] at named
          exact nomatch named
      | false =>
          rw [if_neg Bool.false_ne_true]
          simp only [Bool.or_eq_false_iff, ih, List.mem_cons, Prod.mk.injEq]
          constructor
          · rintro ⟨here, later⟩ other nested (⟨rfl, rfl⟩ | member)
            · exact ⟨named, here⟩
            · exact later other nested member
          · intro all
            exact ⟨(all key value (.inl ⟨rfl, rfl⟩)).2, fun other nested member =>
              all other nested (.inr member)⟩

theorem redactItems_fst (items : List Json) : (redactItems secret items).1 =
    items.map fun item => (redactAuditDetails secret item).1 := by
  induction items with
  | nil => rfl
  | cons item rest ih =>
      rw [redactItems, List.map_cons, ← ih]

theorem redactItems_snd (items : List Json) : (redactItems secret items).2 = false ↔
    ∀ item ∈ items, (redactAuditDetails secret item).2 = false := by
  induction items with
  | nil => exact ⟨fun _ => nofun, fun _ => rfl⟩
  | cons item rest ih =>
      simp only [redactItems, Bool.or_eq_false_iff, ih, List.forall_mem_cons]

/-- A redacted value, or a field of a redacted object. -/
def Clean (secret : String → Bool) : Json → Prop
  | .string text => secret text = false
  | .object fields => ∀ key value, (key, value) ∈ fields → isExportSecretKey key →
      value = .string redactedMarker
  | _ => True

theorem clean_redact (unmarked : secret redactedMarker = false) (details : Json) :
    Everywhere (Clean secret) (redactAuditDetails secret details).1 := by
  have marker : Everywhere (Clean secret) (.string redactedMarker) :=
    everywhere_of_leaf trivial unmarked
  induction details using Json.depth with
  | null | bool | number => exact everywhere_of_leaf trivial trivial
  | string text =>
      rw [redactAuditDetails]
      split
      case isTrue => exact marker
      case isFalse plain => exact everywhere_of_leaf trivial (Bool.eq_false_iff.2 plain)
  | array items ih =>
      rw [redactAuditDetails, redactItems_fst, everywhere_array]
      refine ⟨trivial, fun item listed => ?_⟩
      obtain ⟨original, member, rfl⟩ := List.mem_map.1 listed
      exact ih original member
  | object fields ih =>
      rw [redactAuditDetails, redactFields_fst, everywhere_object]
      constructor
      · intro key value listed named
        obtain ⟨field, -, same⟩ := List.mem_map.1 listed
        cases same
        exact if_pos named
      · intro key value listed
        obtain ⟨⟨key, original⟩, member, same⟩ := List.mem_map.1 listed
        cases same
        rw [redactField]
        split
        case isTrue => exact marker
        case isFalse => exact ih key original member

theorem redact_idempotent (unmarked : secret redactedMarker = false) (details : Json) :
    (redactAuditDetails secret (redactAuditDetails secret details).1).1 =
      (redactAuditDetails secret details).1 := by
  have plain {text : String} (quiet : secret text = false) :
      redactAuditDetails secret (.string text) = (.string text, false) := by
    rw [redactAuditDetails, if_neg (Bool.eq_false_iff.1 quiet)]
  induction details using Json.depth with
  | null | bool | number => rfl
  | string text =>
      rw [redactAuditDetails]
      split
      case isTrue => rw [plain unmarked]
      case isFalse quiet => rw [plain (Bool.eq_false_iff.2 quiet)]
  | array items ih =>
      simp only [redactAuditDetails, redactItems_fst, List.map_map]
      exact congrArg _ (List.map_congr_left ih)
  | object fields ih =>
      simp only [redactAuditDetails, redactFields_fst, List.map_map]
      refine congrArg _ (List.map_congr_left fun field member => ?_)
      obtain ⟨key, value⟩ := field
      have same : redactField secret (key, redactField secret (key, value)) =
          redactField secret (key, value) := by
        by_cases named : isExportSecretKey key
        · rw [redactField, redactField, if_pos named, if_pos named]
        · rw [redactField, redactField, if_neg named, if_neg named, ih key value member]
      exact congrArg _ same

theorem redact_unflagged (details : Json)
    (unflagged : (redactAuditDetails secret details).2 = false) :
    (redactAuditDetails secret details).1 = details := by
  induction details using Json.depth with
  | null | bool | number => rfl
  | string text =>
      rw [redactAuditDetails] at unflagged ⊢
      split
      case isTrue found =>
          rw [if_pos found] at unflagged
          exact nomatch unflagged
      case isFalse => rfl
  | array items ih =>
      have each := (redactItems_snd items).1 unflagged
      rw [redactAuditDetails, redactItems_fst]
      exact congrArg _ (List.map_congr_left (fun item member => ih item member (each item member))
        |>.trans (List.map_id _))
  | object fields ih =>
      have each := (redactFields_snd fields).1 unflagged
      rw [redactAuditDetails, redactFields_fst]
      refine congrArg _ (List.map_congr_left (g := id) ?_ |>.trans (List.map_id _))
      rintro ⟨key, value⟩ member
      obtain ⟨unnamed, quiet⟩ := each key value member
      rw [redactField, if_neg (Bool.eq_false_iff.1 unnamed), ih key value member quiet]
      rfl

end Redaction

section Validation

variable {secret : String → Bool} {named : String → Bool}

def Permitted (secret : String → Bool) (named : String → Bool) : Json → Prop
  | .string text => secret text = false
  | .object fields => ∀ key value, (key, value) ∈ fields → named key = false
  | _ => True

theorem permitted_iff (details : Json) :
    Everywhere (Permitted secret named) details ↔
      Silent secret details ∧ Without named details := by
  constructor
  · intro all
    exact ⟨fun text inside => all _ inside, fun fields key value inside => all _ inside key value⟩
  · rintro ⟨silent, free⟩ part inside
    cases part with
    | string text => exact silent text inside
    | object fields => exact fun key value => free fields key value inside
    | null | bool | number | array => exact trivial

theorem validateItems_eq_ok (items : List Json) : validateItems secret items = .ok () ↔
    ∀ item ∈ items, validateAuditDetails secret item = .ok () := by
  induction items with
  | nil => exact ⟨fun _ => nofun, fun _ => rfl⟩
  | cons item rest ih =>
      rw [validateItems, List.forall_mem_cons, ← ih]
      cases validateAuditDetails secret item with
      | error reason => exact ⟨nofun, fun both => nomatch both.1⟩
      | ok => exact ⟨fun later => ⟨rfl, later⟩, And.right⟩

theorem validateFields_eq_ok (fields : List (String × Json)) :
    validateFields secret fields = .ok () ↔ ∀ key value, (key, value) ∈ fields →
      isSecretBearingKey key = false ∧ validateAuditDetails secret value = .ok () := by
  induction fields with
  | nil => exact ⟨fun _ => nofun, fun _ => rfl⟩
  | cons field rest ih =>
      obtain ⟨key, value⟩ := field
      rw [validateFields]
      cases bearing : isSecretBearingKey key with
      | true =>
          rw [if_pos rfl]
          refine ⟨nofun, fun all => ?_⟩
          rw [(all key value (.head _)).1] at bearing
          exact nomatch bearing
      | false =>
          rw [if_neg Bool.false_ne_true]
          have split : (do validateAuditDetails secret value; validateFields secret rest) = .ok () ↔
              validateAuditDetails secret value = .ok () ∧ validateFields secret rest = .ok () := by
            cases validateAuditDetails secret value with
            | error reason => exact ⟨nofun, fun both => nomatch both.1⟩
            | ok => exact ⟨fun later => ⟨rfl, later⟩, And.right⟩
          rw [split, ih]
          constructor
          · rintro ⟨here, later⟩ other nested member
            rcases List.mem_cons.1 member with same | member
            · cases same
              exact ⟨bearing, here⟩
            · exact later other nested member
          · intro all
            exact ⟨(all key value (.head _)).2, fun other nested member =>
              all other nested (.tail _ member)⟩

theorem validate_eq_ok_iff (details : Json) : validateAuditDetails secret details = .ok () ↔
    Everywhere (Permitted secret isSecretBearingKey) details := by
  induction details using Json.depth with
  | null | bool | number => exact ⟨fun _ => everywhere_of_leaf trivial trivial, fun _ => rfl⟩
  | string text =>
      rw [validateAuditDetails]
      constructor
      · intro accepted
        refine everywhere_of_leaf trivial (Bool.eq_false_iff.2 fun found => ?_)
        rw [if_pos found] at accepted
        exact nomatch accepted
      · intro permitted
        exact if_neg (Bool.eq_false_iff.1 (permitted _ (.whole _)))
  | array items ih =>
      rw [validateAuditDetails, validateItems_eq_ok, everywhere_array]
      constructor
      · exact fun all => ⟨trivial, fun item member => (ih item member).1 (all item member)⟩
      · exact fun all item member => (ih item member).2 (all.2 item member)
  | object fields ih =>
      rw [validateAuditDetails, validateFields_eq_ok, everywhere_object]
      constructor
      · intro all
        exact ⟨fun key value member => (all key value member).1, fun key value member =>
          (ih key value member).1 (all key value member).2⟩
      · rintro ⟨unnamed, below⟩ key value member
        exact ⟨unnamed key value member, (ih key value member).2 (below key value member)⟩

theorem redact_unflagged_iff (details : Json) : (redactAuditDetails secret details).2 = false ↔
    Everywhere (Permitted secret isExportSecretKey) details := by
  induction details using Json.depth with
  | null | bool | number => exact ⟨fun _ => everywhere_of_leaf trivial trivial, fun _ => rfl⟩
  | string text =>
      rw [redactAuditDetails]
      constructor
      · intro unflagged
        refine everywhere_of_leaf trivial (Bool.eq_false_iff.2 fun found => ?_)
        rw [if_pos found] at unflagged
        exact nomatch unflagged
      · intro permitted
        rw [if_neg (Bool.eq_false_iff.1 (permitted _ (.whole _)))]
  | array items ih =>
      rw [everywhere_array]
      refine (redactItems_snd items).trans ⟨?_, ?_⟩
      · exact fun all => ⟨trivial, fun item member => (ih item member).1 (all item member)⟩
      · exact fun all item member => (ih item member).2 (all.2 item member)
  | object fields ih =>
      rw [everywhere_object]
      refine (redactFields_snd fields).trans ⟨?_, ?_⟩
      · intro all
        exact ⟨fun key value member => (all key value member).1, fun key value member =>
          (ih key value member).1 (all key value member).2⟩
      · rintro ⟨unnamed, below⟩ key value member
        exact ⟨unnamed key value member, (ih key value member).2 (below key value member)⟩

theorem payload_of_accepted {event : ContextAuditEvent}
    (accepted : validateAuditEvent secret event = .ok ()) :
    validateAuditDetails secret event.payload = .ok () := by
  unfold validateAuditEvent at accepted
  split at accepted
  case isTrue => exact nomatch accepted
  case isFalse =>
      split at accepted
      case isTrue => exact nomatch accepted
      case isFalse => exact accepted

end Validation

section Results

/-- Redacted details show no secret value and no value of a key that exports withhold; and what is
accepted shows no secret value, so that only its keys can make it change. -/
theorem details_guarded (secret : String → Bool) (unmarked : secret redactedMarker = false) :
    (∀ details, Redacted secret details)
    ∧ ∀ event, validateAuditEvent secret event = .ok () → Silent secret event.payload
      ∧ (Without isExportSecretKey event.payload →
        redactAuditDetails secret event.payload = (event.payload, false)) := by
  constructor
  · intro details
    have clean := clean_redact unmarked details
    exact {
      silent := fun text inside => clean _ inside
      marked := fun fields key value inside => clean _ inside key value
      again := redact_idempotent unmarked details
      unchanged := redact_unflagged details }
  · intro event accepted
    have permitted := (validate_eq_ok_iff _).1 (payload_of_accepted accepted)
    have silent := ((permitted_iff _).1 permitted).1
    refine ⟨silent, fun free => ?_⟩
    have unflagged := (redact_unflagged_iff _).2 ((permitted_iff _).2 ⟨silent, free⟩)
    exact Prod.ext (redact_unflagged _ unflagged) unflagged

theorem approval_guarded :
    redactAuditDetails (fun text => text == "ghp_0") (.object [("kind", .string "memory")]) =
      (.object [("kind", .string "memory")], false) := by
  have permitted : Everywhere (Permitted (fun text => text == "ghp_0") isExportSecretKey)
      (.object [("kind", .string "memory")]) := (redact_unflagged_iff _).1 rfl
  exact ((details_guarded _ (by decide)).2
    ⟨"governance.context.approved", "memory", .object [("kind", .string "memory")]⟩ rfl).2
    ((permitted_iff _).1 permitted).2

/-- The two lists of keys differ, and no key is looked at as a text: an accepted payload is changed,
the value of a key that bears a secret stays, and so does a key that is a secret. -/
theorem lists_disagree : ∃ secret : String → Bool, secret redactedMarker = false
    ∧ (∃ event, validateAuditEvent secret event = .ok ()
      ∧ redactAuditDetails secret event.payload ≠ (event.payload, false))
    ∧ (∃ details fields key value, Part (.object fields) (redactAuditDetails secret details).1
      ∧ (key, value) ∈ fields ∧ isSecretBearingKey key ∧ value ≠ .string redactedMarker)
    ∧ ∃ details fields key value, Part (.object fields) (redactAuditDetails secret details).1
      ∧ (key, value) ∈ fields ∧ secret key = true := by
  refine ⟨fun text => text == "ghp_0", by decide, ?_, ?_, ?_⟩
  · refine ⟨⟨"governance.context.approved", "memory", .object [("refresh_token", .null)]⟩, rfl, ?_⟩
    intro same
    exact nomatch congrArg Prod.snd same
  · exact ⟨.object [("auth_token", .null)], _, "auth_token", .null, .whole _, .head _, rfl, nofun⟩
  · exact ⟨.object [("ghp_0", .null)], _, "ghp_0", .null, .whole _, .head _, rfl⟩

end Results

end Forge.AuditDetails
