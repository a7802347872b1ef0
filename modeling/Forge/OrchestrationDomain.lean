import Forge.OrchestrationView

/-! The pure policies of the orchestration domain: creation, dependencies, lifecycle, patch
and assignment, with the errors they answer. -/

namespace Forge.OrchestrationDomain

open Forge.Library.Identifier
open Forge.Library.JsonDocument
open Forge.OrchestrationView
open Forge.Schema

namespace TaskRetirePolicy

def minDays : Int := 1
def maxDays : Int := 90
def defaultDays : Int := 7
def minBatch : Int := 1
def maxBatch : Int := 500
def defaultBatch : Int := 100

def validate (olderThanDays batchLimit : Option Int) : Except AppError (Int × Int) :=
  let days := olderThanDays.getD defaultDays
  let batch := batchLimit.getD defaultBatch
  if ¬(minDays ≤ days ∧ days ≤ maxDays) then
    .error (.validation "olderThanDays must be between 1 and 90")
  else if ¬(minBatch ≤ batch ∧ batch ≤ maxBatch) then
    .error (.validation "batchLimit must be between 1 and 500")
  else .ok (days, batch)

end TaskRetirePolicy

def TaskTitle.validate (title : String) : Except AppError Unit :=
  if title.isEmpty ∨ 500 < title.utf8ByteSize then
    .error (.validation "title must be between 1 and 500 characters")
  else .ok ()

namespace TaskPriority

/-- `VALID_PRIORITIES`. -/
def validPriorities : List String := ["low", "normal", "high", "urgent"]

def validate (priority : String) : Except AppError String :=
  if validPriorities.contains priority then .ok priority
  else .error (.validation ("invalid priority: " ++ priority))

end TaskPriority

namespace TaskDependencyPolicy

def max : Nat := 10

def ensureWithinLimit (params : Option Json) : Except AppError Unit :=
  if max < (arrayItems (arrow params "dependency_ids")).length then
    .error (.validation "wait for at most 10 prerequisite tasks")
  else .ok ()

/-- The declared identifiers that parse, at most `max` of them. -/
def fromParams (params : Option Json) : List Uuid :=
  (((arrayItems (arrow params "dependency_ids")).filterMap Json.asStr).filterMap
    Uuid.parseStr).take max

/-- Only `completed` resolves a prerequisite. -/
def unresolved (dependencies : List Uuid) (taskStatuses : List (Uuid × String)) : Bool :=
  dependencies.any fun id =>
    !taskStatuses.any fun entry => entry.1 == id && entry.2 == "completed"

theorem unresolved_eq_false_iff {dependencies : List Uuid}
    {taskStatuses : List (Uuid × String)} :
    unresolved dependencies taskStatuses = false ↔
      ∀ id ∈ dependencies, (id, "completed") ∈ taskStatuses := by
  simp [unresolved]

end TaskDependencyPolicy

namespace OrchestrationRepositoryPolicy

def taskNotFound (id : Uuid) : AppError := .notFound ("orchestration task " ++ id.toText)

def quotaBlockConflict : AppError := .conflict "task changed while recording the quota block"

def approvalConflict : AppError :=
  .conflict "task changed while approving; refresh and try again"

def patchConflict : AppError :=
  .conflict "task changed while applying the update; refresh and try again"

def resultConflict : AppError := .conflict "task changed while recording its result"

def cancelConflict : AppError :=
  .conflict
    "task changed or execution was already assigned; wait for the result or lease recovery"

def retryConflict : AppError := .conflict "task changed while retrying; refresh and try again"

def participantNotFound (agentId : Uuid) : AppError :=
  .notFound ("participant for agent " ++ agentId.toText)

def taskRunAgentNotFound (agentId : Uuid) : AppError :=
  .notFound ("agent " ++ agentId.toText ++ " for task_run")

def missingAssignedAgentForTaskRun (taskId : Uuid) : AppError :=
  .internal ("task " ++ taskId.toText ++ " missing assigned agent for task_run")

end OrchestrationRepositoryPolicy

/-- `AgentRepositoryPolicy::agent_not_found`. -/
def agentNotFound (id : Uuid) : AppError := .notFound ("agent " ++ id.toText)

def missingLastAssignmentId (taskId : Uuid) : AppError :=
  .internal ("task " ++ taskId.toText ++ " missing last_assignment_id")

def imagesRequireAssignedVisionAgent : AppError :=
  .validation "an instruction with images must be assigned to a vision-capable agent"

def sidecarImageInputUnsupported : AppError :=
  .validation
    "agent's sidecar does not yet support instruction images; restart or roll the agent and retry"

structure TaskCreationInitialState where
  initialStatus : TaskStatus
  initialBlockedReason : Option BlockedReason
  initialBlockedMetadata : Option Json

namespace TaskCreationPolicy

def parentTaskNotFound (parentId : Uuid) : AppError :=
  .validation ("parent task " ++ parentId.toText ++ " not found")

def mapParentLookupError (parentId : Uuid) (err : AppError) : AppError :=
  match err with
  | .notFound _ => parentTaskNotFound parentId
  | other => other

def ensureApprovalTaskIsUnassigned (requiresApproval : Bool) (assignedTo : Option Uuid) :
    Except AppError Unit :=
  if requiresApproval ∧ assignedTo.isSome then
    .error (.validation
      "requiresApproval tasks cannot be assigned before approval; approve then dispatch")
  else .ok ()

def ensureAssignedTaskCanStart (missingInputs : List String) (parentStatus : Option String)
    (dependenciesUnresolved : Bool) : Except AppError Unit :=
  if missingInputs ≠ [] then
    .error (.validation ("add the missing inputs " ++ String.intercalate ", " missingInputs
      ++ " before assigning an Agent, or leave the task unassigned"))
  else if BlockedTaskPolicy.needsDependencyBlock parentStatus then
    .error (.validation ("wait for the parent task to finish before assigning an Agent, or "
      ++ "leave this task unassigned"))
  else if dependenciesUnresolved then
    .error (.validation ("wait for the prerequisite tasks to finish before assigning an "
      ++ "Agent, or leave this task unassigned"))
  else .ok ()

/-- Unassigned tasks land in `backlog` unless a missing input, a human approval or an
unfinished prerequisite blocks them. -/
def initialUnassignedState (missingInputs : List String) (requiresApproval : Bool)
    (parentStatus : Option String) (prerequisites : List Uuid) : TaskCreationInitialState :=
  let dependencyBlocked := BlockedTaskPolicy.needsDependencyBlock parentStatus
  let (reason, metadata) :=
    BlockedTaskPolicy.initialState missingInputs requiresApproval dependencyBlocked
  if reason = none ∧ prerequisites ≠ [] then
    ⟨.blocked, some .waitingDependency, some (.object [("dependency_ids",
      .array (prerequisites.map fun id => .string id.toText))])⟩
  else if reason.isSome then ⟨.blocked, reason, metadata⟩
  else ⟨.backlog, reason, metadata⟩

theorem ensureAssignedTaskCanStart_ok {missingInputs : List String}
    {parentStatus : Option String} {dependenciesUnresolved : Bool}
    (allowed : ensureAssignedTaskCanStart missingInputs parentStatus dependenciesUnresolved
      = .ok ()) :
    missingInputs = [] ∧ (parentStatus = none ∨ parentStatus = some "completed")
      ∧ dependenciesUnresolved = false := by
  rw [ensureAssignedTaskCanStart] at allowed
  split_ifs at allowed with inputs parent dependencies
  refine ⟨not_not.1 inputs, ?_, by simpa using dependencies⟩
  exact BlockedTaskPolicy.needsDependencyBlock_eq_false.1 (by simpa using parent)

theorem initialUnassignedState_cases (missingInputs : List String) (requiresApproval : Bool)
    (parentStatus : Option String) (prerequisites : List Uuid) :
    let state :=
      initialUnassignedState missingInputs requiresApproval parentStatus prerequisites
    (state.initialStatus = .blocked ∧ state.initialBlockedReason = some .waitingInput)
    ∨ (state.initialStatus = .blocked ∧ state.initialBlockedReason = some .waitingApproval
        ∧ requiresApproval = true)
    ∨ (state.initialStatus = .blocked ∧ state.initialBlockedReason = some .waitingDependency
        ∧ requiresApproval = false ∧ (parentStatus.isSome ∨ prerequisites ≠ []))
    ∨ (state.initialStatus = .backlog ∧ state.initialBlockedReason = none
        ∧ requiresApproval = false) := by
  intro state
  by_cases inputs : missingInputs = []
  case neg =>
      exact .inl (by simp [state, initialUnassignedState, BlockedTaskPolicy.initialState, inputs])
  case pos =>
      cases requiresApproval with
      | true =>
          refine .inr (.inl ?_)
          simp [state, initialUnassignedState, BlockedTaskPolicy.initialState, inputs]
      | false =>
          cases pending : BlockedTaskPolicy.needsDependencyBlock parentStatus with
          | true =>
              have parent : parentStatus.isSome := by
                cases parentStatus with
                | none => simp [BlockedTaskPolicy.needsDependencyBlock] at pending
                | some _ => rfl
              refine .inr (.inr (.inl ?_))
              simp [state, initialUnassignedState, BlockedTaskPolicy.initialState, inputs,
                pending, parent]
          | false =>
              by_cases declared : prerequisites = []
              · refine .inr (.inr (.inr ?_))
                simp [state, initialUnassignedState, BlockedTaskPolicy.initialState, inputs,
                  pending, declared]
              · refine .inr (.inr (.inl ?_))
                simp [state, initialUnassignedState, BlockedTaskPolicy.initialState, inputs,
                  pending, declared]

end TaskCreationPolicy

/-- `task_image_attachment_ids`. -/
def taskImageAttachmentIds (params : Option Json) : List String :=
  (arrayItems (arrow params "imageAttachmentIds")).filterMap Json.asStr

/-- The typed body of a create request. -/
structure CreateTaskParamsInput where
  task : Option String
  message : Option String
  requiredInputs : List String
  inputs : Option Json
  env : Option Json
  apiKeys : Option Json
  expectedResult : Option Json
  imageAttachmentIds : List String
  dependencyIds : List Uuid

/-- The stored params of a create request; empty lists and missing values leave no key. -/
def createTaskParams (input : CreateTaskParamsInput) : Json :=
  let strings := fun (items : List String) => Json.array (items.map .string)
  let whenNonempty := fun (key : String) (items : List String) =>
    if items.isEmpty then [] else [(key, strings items)]
  let whenGiven := fun (key : String) (value : Option Json) =>
    value.toList.map fun given => (key, given)
  .object ([("task", .string (input.task.getD "")), ("message", .string (input.message.getD ""))]
    ++ whenNonempty "requiredInputs" input.requiredInputs
    ++ whenGiven "inputs" input.inputs ++ whenGiven "env" input.env
    ++ whenGiven "apiKeys" input.apiKeys ++ whenGiven "expectedResult" input.expectedResult
    ++ whenNonempty "imageAttachmentIds" input.imageAttachmentIds
    ++ whenNonempty "dependency_ids" (input.dependencyIds.map Uuid.toText))

/-- `create_task_request_parts`. -/
def createTaskRequestParts (title description : Option String)
    (params : Option CreateTaskParamsInput) : String × Option String × Option Json :=
  ((title.orElse fun _ => params.bind (·.task)).getD "",
    description.orElse fun _ => params.bind (·.message), params.map createTaskParams)

namespace TaskStatusPolicy

/-- `validate_patch_state`: every task status is a patch state. -/
def validatePatchState (state : String) : Except AppError TaskStatus :=
  match TaskStatus.parse state with
  | some status => .ok status
  | none => .error (.validation ("invalid state: " ++ state))

def canCompleteOrFail (status : TaskStatus) : Bool := status == .working

end TaskStatusPolicy

namespace TaskLifecyclePolicy

def ensureNoActiveDelivery (status : TaskStatus) (lastAssignmentId : Option Uuid) :
    Except AppError Unit :=
  if status = .working ∧ lastAssignmentId.isSome then
    .error (.validation
      "active Agent execution must finish through its result or lease recovery")
  else .ok ()

def ensureWorkingAction (status : TaskStatus) (action : String) : Except AppError Unit :=
  if TaskStatusPolicy.canCompleteOrFail status then .ok ()
  else .error (.validation
    ("can only " ++ action ++ " working tasks, current status: " ++ status.text))

def ensureCanComplete (status : TaskStatus) (blockedReason : Option BlockedReason) :
    Except AppError Unit :=
  if status = .blocked ∧ blockedReason = some .waitingVerification then .ok ()
  else ensureWorkingAction status "complete"

def ensureCanFail (status : TaskStatus) : Except AppError Unit :=
  ensureWorkingAction status "fail"

def ensureCanCancel (status : TaskStatus) : Except AppError Unit :=
  if status = .working then
    .error (.validation
      "cannot cancel active execution until the Agent cancellation protocol is available")
  else if status = .completed ∨ status = .failed then
    .error (.validation ("cannot cancel " ++ status.text ++ " tasks"))
  else .ok ()

def ensureCanRetry (status : TaskStatus) (blockedReason : Option BlockedReason)
    (requiresApproval retryable : Bool) : Except AppError Unit :=
  if status = .blocked ∧ blockedReason = some .waitingApproval ∧ requiresApproval then
    .error (.validation "approve or cancel approval-blocked tasks before retry")
  else if status = .failed ∨ status = .canceled
      ∨ (status = .blocked ∧ (retryable ∨ blockedReason = some .waitingVerification)) then
    .ok ()
  else .error (.validation
    ("can only retry failed, canceled, or retryable blocked tasks, current status: "
      ++ status.text))

def ensureCanApprove (status : TaskStatus) (blockedReason : Option BlockedReason)
    (requiresApproval : Bool) : Except AppError Unit :=
  if status ≠ .blocked ∨ blockedReason ≠ some .waitingApproval then
    .error (.validation "task is not waiting for approval")
  else if ¬requiresApproval then
    .error (.validation "task approval has already been consumed")
  else .ok ()

end TaskLifecyclePolicy

def ParticipantName.validate (name : String) : Except AppError Unit :=
  if name.isEmpty ∨ 255 < name.utf8ByteSize then
    .error (.validation "name must be between 1 and 255 characters")
  else .ok ()

/-- `ParticipantAvailabilityPolicy::ensure_available` for an assignment. -/
def ensureAvailable (participantName : String) (participantStatus : ParticipantStatus) :
    Except AppError Unit :=
  if participantStatus = .available then .ok ()
  else .error (.validation ("participant " ++ participantName ++ " is "
    ++ participantStatus.text ++ " — pick an available agent or leave unassigned"))

inductive TaskPatchAction where
  | assignToParticipant (agentId : Uuid)
  | dispatch | complete | fail | cancel | unassign | patch
deriving DecidableEq

namespace TaskPatchPolicy

abbrev AssignedTo := Option (Option Uuid)

def isBusinessTransition (state : Option TaskStatus) (assignedTo : AssignedTo) : Bool :=
  (state == some .working || state == some .completed || state == some .failed
    || state == some .canceled) || (assignedTo.join).isSome

def requiresCurrentTask (state : Option TaskStatus) (assignedTo : AssignedTo) : Bool :=
  state.isSome || assignedTo.isSome

def validateProgress (progress : Option Int) : Except AppError Unit :=
  match progress with
  | some value =>
      if 0 ≤ value ∧ value ≤ 100 then .ok ()
      else .error (.validation "progress must be 0-100")
  | none => .ok ()

/-- `VERIFICATION_HOLD_RESOLUTIONS`. -/
def verificationHoldResolutions : List TaskStatus := [.completed, .working]

def ensureCurrentAllowsTransition (currentStatus : TaskStatus)
    (currentBlockedReason : Option BlockedReason) (transitionState : Option TaskStatus) :
    Except AppError Unit :=
  if (currentStatus = .completed ∨ currentStatus = .failed ∨ currentStatus = .canceled)
      ∧ ∃ next ∈ transitionState, next ≠ currentStatus then
    .error (.validation (currentStatus.text
      ++ " tasks are terminal and cannot change lanes; use Retry task for failed or canceled work"))
  else if transitionState = some .blocked then
    .error (.validation "blocked state requires a reason-specific workflow")
  else if currentStatus = .working ∧ ∃ next ∈ transitionState,
      next ∉ [TaskStatus.working, .completed, .failed, .canceled] then
    .error (.validation
      "working tasks can only complete, fail, or cancel through lifecycle actions")
  else if currentStatus ≠ .blocked
      ∨ BlockedTaskPolicy.reasonAllowsDispatch currentBlockedReason then .ok ()
  else if transitionState = some .canceled then .ok ()
  else if currentBlockedReason = some .waitingVerification
      ∧ ∃ next ∈ transitionState, next ∈ verificationHoldResolutions then .ok ()
  else .error (.validation ("task is blocked on "
    ++ (currentBlockedReason.map BlockedReason.text).getD "unknown"
    ++ "; use its unblock path before dispatching"))

def plan (state : Option TaskStatus) (priority : Option String) (progress : Option Int)
    (assignedTo : AssignedTo) : Except AppError TaskPatchAction :=
  if isBusinessTransition state assignedTo ∧ (priority.isSome ∨ progress.isSome) then
    .error (.validation
      "state/assignment transitions must not be combined with priority/progress edits")
  else if assignedTo.isSome ∧ ¬(state = none ∨ state = some .working) then
    .error (.validation ("assignedTo changes must use dispatch semantics; combine only with "
      ++ "state=working or omit state"))
  else match state, assignedTo with
    | some .working, some (some agentId) => .ok (.assignToParticipant agentId)
    | none, some (some agentId) => .ok (.assignToParticipant agentId)
    | some .working, some none =>
        .error (.validation "cannot unassign while dispatching to working")
    | some .working, none => .ok .dispatch
    | some .completed, none => .ok .complete
    | some .failed, none => .ok .fail
    | some .canceled, none => .ok .cancel
    | none, some none => .ok .unassign
    | _, _ => .ok .patch

def ensureCanUnassign (currentStatus : TaskStatus) : Except AppError Unit :=
  if currentStatus = .working then
    .error (.validation "cannot unassign a working task; cancel, complete, or fail it first")
  else .ok ()

def manualCompleteResult : Json :=
  .object [("manual", .bool true), ("source", .string "kanban_patch")]

def manualFailureError : Json :=
  .object [("message", .string "manual failure via task patch"),
    ("source", .string "kanban_patch")]

end TaskPatchPolicy

namespace QuotaBlockPolicy

def jsonString (value : Json) (key : String) : Option String :=
  (value.get key).bind Json.asStr

def jsonNestedString (value : Json) (parent key : String) : Option String :=
  (value.get parent).bind fun inner => jsonString inner key

def jsonI64 (value : Json) (key : String) : Option Int :=
  (value.get key).bind Json.asI64

def jsonNestedI64 (value : Json) (parent key : String) : Option Int :=
  (value.get parent).bind fun inner => jsonI64 inner key

def toAsciiLowercase (text : String) : List Char :=
  text.toList.map Char.toLower

def contains (text : List Char) (part : String) : Bool :=
  decide (part.toList <:+: text)

def quotaCodes : List String :=
  ["quota_exceeded", "insufficient_quota", "rate_limited", "rate_limit_exceeded",
    "billing_hard_limit_reached"]

/-- The quota block's metadata when the error looks like a provider limit. -/
def metadata (error : Json) : Option Json :=
  let code := (jsonString error "code").orElse fun _ => jsonNestedString error "error" "code"
  let status := (jsonI64 error "status").orElse fun _ => jsonNestedI64 error "error" "status"
  let message :=
    (jsonString error "message").orElse fun _ => jsonNestedString error "error" "message"
  let quotaLike :=
    (code.map toAsciiLowercase).any (fun c => quotaCodes.any fun known => known.toList == c)
      || status == some 429
      || (message.map toAsciiLowercase).any fun m =>
        contains m "quota" || contains m "rate limit" || contains m "rate_limit"
          || contains m "billing limit"
  let amount := fun (key : String) =>
    (((jsonI64 error key).orElse fun _ => jsonNestedI64 error "quota" key).orElse
      fun _ => jsonNestedI64 error "error" key).getD 0
  let provider :=
    (jsonString error "provider").orElse fun _ => jsonNestedString error "error" "provider"
  if quotaLike then
    some (.object [("code", .string (code.getD "quota_exceeded")),
      ("status", (status.map fun value => Json.number value 0).getD .null),
      ("used", .number (amount "used") 0), ("limit", .number (amount "limit") 0),
      ("provider", (provider.map Json.string).getD .null)])
  else none

end QuotaBlockPolicy

namespace TaskAssignmentPolicy

def generationFingerprint (fingerprint : String → String) (agentId : Uuid)
    (runtimeKind : RuntimeKind) (hmacSecret : Option String) : Except AppError (Option String) :=
  match runtimeKind with
  | .container =>
      match hmacSecret.filter fun secret => !trimIsEmpty secret with
      | some secret => .ok (some (fingerprint secret))
      | none => .error (.internal ("refusing to dispatch container agent " ++ agentId.toText
          ++ " without an HMAC generation secret"))
  | .cli | .api => .ok none

def build (fingerprint : String → String) (task : Task) (runtimeKind : RuntimeKind)
    (hmacSecret : Option String) : Except AppError TaskAssignment := do
  let missing := fun (column : String) =>
    AppError.internal ("task " ++ task.id.toText ++ " missing " ++ column)
  let agentId ← task.assignedAgentId.elim (.error (missing "assigned_agent_id")) .ok
  let deliveryId ← task.lastAssignmentId.elim (.error (missing "last_assignment_id")) .ok
  let leaseExpiresAt ← task.leaseExpiresAt.elim (.error (missing "lease_expires_at")) .ok
  let (text, message) := TaskInstruction.fromParams task.title task.description task.params
  let generation ← generationFingerprint fingerprint agentId runtimeKind hmacSecret
  return {
    deliveryId := some deliveryId, attempt := some task.attempt
    leaseExpiresAt := some leaseExpiresAt, taskId := task.id, agentId
    title := task.title, task := text, message, priority := task.priority
    runtimeKind := some runtimeKind, containerGenerationFingerprint := generation }

end TaskAssignmentPolicy

end Forge.OrchestrationDomain
