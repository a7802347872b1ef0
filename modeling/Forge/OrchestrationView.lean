import Forge.Schema

/-! The blocked-task policy and the task instruction, shared by the API and the jobs crate. -/

namespace Forge.OrchestrationView

open Forge.Library.JsonDocument
open Forge.Library.Text
open Forge.Schema

/-- `char::is_whitespace`: the Unicode White_Space property. -/
def isWhitespace (c : Char) : Bool :=
  (9 ≤ c.toNat && c.toNat ≤ 13) || c.toNat == 0x20 || c.toNat == 0x85 || c.toNat == 0xA0
    || c.toNat == 0x1680 || (0x2000 ≤ c.toNat && c.toNat ≤ 0x200A) || c.toNat == 0x2028
    || c.toNat == 0x2029 || c.toNat == 0x202F || c.toNat == 0x205F || c.toNat == 0x3000

/-- `str::trim().is_empty()`. -/
def trimIsEmpty (text : String) : Bool :=
  (strip isWhitespace text.toList).isEmpty

theorem trimIsEmpty_iff (text : String) :
    trimIsEmpty text = true ↔ ∀ c ∈ text.toList, isWhitespace c = true := by
  rw [trimIsEmpty, List.isEmpty_iff, strip_eq_nil_iff]

namespace TaskInstruction

def fromParams (title : String) (description : Option String) (params : Option Json) :
    String × String :=
  match params with
  | some p =>
      (((p.get "task").bind Json.asStr).getD title, ((p.get "message").bind Json.asStr).getD "")
  | none => (title, description.getD "")

end TaskInstruction

def valueHasNonEmptyField (value : Json) (name : String) : Bool :=
  match value.get name with
  | some (.string text) => !trimIsEmpty text
  | some .null => false
  | some _ => true
  | none => false

def inputValuePresent (params : Json) (name : String) : Bool :=
  (["inputs", "env", "apiKeys", "api_keys"].filterMap params.get).any
      (fun container => valueHasNonEmptyField container name)
    || valueHasNonEmptyField params name

namespace BlockedTaskPolicy

def waitingAgentReason : BlockedReason := .waitingAgent

/-- `VALID_BLOCKED_REASONS`. -/
def validBlockedReasons : List String :=
  ["waiting_agent", "waiting_dependency", "waiting_input", "waiting_approval",
    "quota_exceeded", "waiting_verification"]

def isValidReason (reason : BlockedReason) : Bool :=
  validBlockedReasons.contains reason.text

def reasonAllowsDispatch (reason : Option BlockedReason) : Bool :=
  reason == none || reason == some waitingAgentReason

/-- `backlog` is left out: drafts wait for an explicit promotion. -/
def statusCanDispatch (status : TaskStatus) : Bool :=
  status == .queued || status == .blocked

def canEnterDispatch (status : TaskStatus) (blockedReason : Option BlockedReason) : Bool :=
  statusCanDispatch status && reasonAllowsDispatch blockedReason

def ensureCanEnterDispatch (status : TaskStatus) (blockedReason : Option BlockedReason) :
    Except AppError Unit :=
  if canEnterDispatch status blockedReason then .ok ()
  else .error (.validation (
    "can only dispatch queued or waiting-agent tasks, current status: " ++ status.text
      ++ ", blocked reason: " ++ (blockedReason.map BlockedReason.text).getD "none"))

def ensureOperatorCanDispatch (status : TaskStatus) (blockedReason : Option BlockedReason) :
    Except AppError Unit :=
  if status = .blocked ∧ blockedReason = some .waitingVerification then .ok ()
  else ensureCanEnterDispatch status blockedReason

def noAvailableParticipantsError : AppError :=
  .validation "no available participants for dispatch"

def waitingAgentMetadata (available busy offline : Nat) : Json :=
  .object [("available", .number available 0), ("busy", .number busy 0),
    ("offline", .number offline 0)]

def needsDependencyBlock (parentStatus : Option String) : Bool :=
  match parentStatus with
  | none => false
  | some status => status != "completed"

def initialState (missingInputs : List String) (requiresApproval dependencyBlocked : Bool) :
    Option BlockedReason × Option Json :=
  if missingInputs ≠ [] then
    (some .waitingInput, some (.object [("missing", .array (missingInputs.map .string))]))
  else if requiresApproval then
    (some .waitingApproval, some (.object [("approver", .string "管理员")]))
  else if dependencyBlocked then
    (some .waitingDependency, some (.object [("pending", .number 1 0)]))
  else (none, none)

def shouldAutoDispatchAfterApproval (status : TaskStatus) : Bool :=
  status == .queued

/-- The list under `requiredInputs`, or under `required_inputs` when that key is missing. -/
def requiredField (params : Json) : Option Json :=
  (params.get "requiredInputs").orElse fun _ => params.get "required_inputs"

def missingRequiredInputs (params : Option Json) : List String :=
  match params with
  | none => []
  | some p =>
      let required := (arrayItems (requiredField p)).filterMap Json.asStr
      required.filter fun name => !inputValuePresent p name

theorem reasonAllowsDispatch_iff {reason : Option BlockedReason} :
    reasonAllowsDispatch reason = true ↔ reason = none ∨ reason = some .waitingAgent := by
  simp [reasonAllowsDispatch, waitingAgentReason]

theorem canEnterDispatch_iff {status : TaskStatus} {reason : Option BlockedReason} :
    canEnterDispatch status reason = true ↔
      (status = .queued ∨ status = .blocked) ∧ (reason = none ∨ reason = some .waitingAgent) := by
  simp [canEnterDispatch, statusCanDispatch, reasonAllowsDispatch_iff]

theorem ensureOperatorCanDispatch_ok {status : TaskStatus} {reason : Option BlockedReason}
    (allowed : ensureOperatorCanDispatch status reason = .ok ()) :
    (status = .queued ∨ status = .blocked) ∧
      (reason = none ∨ reason = some .waitingAgent ∨
        (status = .blocked ∧ reason = some .waitingVerification)) := by
  rw [ensureOperatorCanDispatch] at allowed
  split at allowed
  case isTrue hold => exact ⟨.inr hold.1, .inr (.inr hold)⟩
  case isFalse =>
      rw [ensureCanEnterDispatch] at allowed
      split at allowed
      case isTrue enter =>
          obtain ⟨lane, reason⟩ := canEnterDispatch_iff.1 enter
          exact ⟨lane, reason.imp_right .inl⟩
      case isFalse => cases allowed

theorem needsDependencyBlock_eq_false {parentStatus : Option String} :
    needsDependencyBlock parentStatus = false ↔
      parentStatus = none ∨ parentStatus = some "completed" := by
  rcases parentStatus with _ | status <;> simp [needsDependencyBlock]

theorem initialState_valid {missingInputs : List String}
    {requiresApproval dependencyBlocked : Bool} {reason : BlockedReason}
    (given : (initialState missingInputs requiresApproval dependencyBlocked).1 = some reason) :
    isValidReason reason = true := by
  rw [initialState] at given
  split_ifs at given <;> cases given <;> decide

end BlockedTaskPolicy

end Forge.OrchestrationView
