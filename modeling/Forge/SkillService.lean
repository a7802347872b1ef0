import Forge.SkillDomain
import Mathlib.Logic.Function.Basic

/-! The writers of governed skills: the skill service, the approval queue and the feedback. Each
request is one transaction that holds the row of its skill. -/

namespace Forge.SkillService

open Forge.Library.Identifier
open Forge.Library.JsonDocument (Json)
open Forge.Schema (Timestamp)
open Forge.SkillDomain

/-- A row of `skill_versions`. -/
structure SkillVersion where
  skillId : Uuid
  version : Nat
  snapshot : Skill
  authorUserId : Uuid

inductive CandidateState where
  | pending | approved | rejected | superseded
deriving DecidableEq

def CandidateState.label : CandidateState → String
  | .pending => "pending"
  | .approved => "approved"
  | .rejected => "rejected"
  | .superseded => "superseded"

/-- A row of `context_candidates` that is about a skill. -/
structure ContextCandidate where
  id : Uuid
  organizationId : Uuid
  workspaceId : Uuid
  sourceRunId : Option Uuid
  targetSkillId : Option Uuid
  state : CandidateState
  ownerUserId : Uuid
deriving DecidableEq

inductive FeedbackLabel where
  | useful | stale | wrong | tooSensitive | doNotUseAgain
deriving DecidableEq

/-- A row of `context_feedback` that is about a skill. -/
structure ContextFeedback where
  organizationId : Uuid
  workspaceId : Uuid
  runId : Uuid
  itemId : Uuid
  label : FeedbackLabel
  userId : Uuid
deriving DecidableEq

structure Tables where
  skills : Uuid → Option Skill
  versions : List SkillVersion
  candidates : Uuid → Option ContextCandidate
  /-- The candidates that have a row in `context_approvals`. -/
  decided : List Uuid
  feedback : List ContextFeedback

structure ScopedRead where
  orgId : Uuid
  userId : Uuid
  workspaceIds : List Uuid
  teamIds : List Uuid
  projectIds : List Uuid

/-- What the other tables say when a request reads them. -/
structure Directory where
  manages : RequestScope → ManagerCheck → Bool
  workspaceBelongs : RequestScope → Uuid → Bool
  inTeam : RequestScope → Uuid → Bool
  inProject : RequestScope → Uuid → Uuid → Bool
  readScope : RequestScope → AppResult ScopedRead
  runStatus : ScopedRead → Uuid → Option String

abbrev Committed := AppResult Unit × Tables

def transact (tables : Tables) (body : AppResult Committed) : Committed :=
  match body with
  | .ok done => done
  | .error refusal => (.error refusal, tables)

section Rows

variable (tables : Tables)

def maxVersion : Nat := 2 ^ 31 - 1

/-- The column is an `INTEGER`. -/
def nextVersion (version : Nat) : AppResult Nat :=
  if version < maxVersion then .ok (version + 1) else .error (.internal "integer out of range")

def writeSkill (skill : Skill) : Tables :=
  { tables with skills := Function.update tables.skills skill.id (some skill) }

def writeCandidate (candidate : ContextCandidate) : Tables :=
  { tables with candidates := Function.update tables.candidates candidate.id (some candidate) }

/-- `lock_org_skill_for_update`. -/
def lockOrgSkill (scope : RequestScope) (id : Uuid) : AppResult Skill :=
  match tables.skills id with
  | some skill =>
      if skill.organizationId = some scope.orgId ∧ scope.workspaceId.isSome
          ∧ skill.workspaceId = scope.workspaceId then .ok skill
      else .error (.notFound ("skill " ++ id.toText))
  | none => .error (.notFound ("skill " ++ id.toText))

/-- `exists_outside_request_boundary`. -/
def existsOutside (scope : RequestScope) (id : Uuid) : Bool :=
  (tables.skills id).any fun skill =>
    skill.organizationId ≠ some scope.orgId || skill.workspaceId ≠ scope.workspaceId

/-- `insert_snapshot_in_tx`. -/
def insertSnapshot (skill : Skill) (author : Uuid) : AppResult Tables :=
  if tables.versions.any fun row => row.skillId = skill.id && row.version = skill.version then
    .error (.conflict ("skill " ++ skill.id.toText ++ " version " ++ toString skill.version
      ++ " already exists"))
  else .ok { tables with
    versions := tables.versions ++ [⟨skill.id, skill.version, skill, author⟩] }

/-- `snapshot_for_version_in_tx`. -/
def snapshotForVersion (id : Uuid) (version : Int) : AppResult Skill :=
  match tables.versions.find? fun row => row.skillId = id && (row.version : Int) = version with
  | some row => .ok row.snapshot
  | none => .error (.notFound ("skill " ++ id.toText ++ " version " ++ toString version))

end Rows

section Access

variable (directory : Directory) (scope : RequestScope)

/-- `can_publish_active`. -/
def canPublishActive (kind : SkillScopeKind) (scopeId : Uuid) : Bool :=
  match kind with
  | .user => scopeId = scope.userId
  | .org => directory.manages scope .org
  | .team => directory.manages scope (.team scopeId)
  | .project => directory.manages scope (.project scopeId)

/-- `resource_belongs_to_scope`. -/
def resourceBelongs (workspaceId : Uuid) (kind : SkillScopeKind) (scopeId : Uuid) : Bool :=
  directory.workspaceBelongs scope workspaceId && match kind with
    | .org => scopeId = scope.orgId
    | .user => scopeId = scope.userId
    | .team => directory.inTeam scope scopeId
    | .project => directory.inProject scope workspaceId scopeId

def requireOwnerOrManager (skill : Skill) : AppResult Unit :=
  match planAccess skill.ownerUserId scope.userId skill.scopeKind skill.scopeId with
  | .allowed => .ok ()
  | .requiresManager check => ensure (directory.manages scope check) forbidden
  | .forbidden => .error forbidden

end Access

structure CreateSkillInput where
  name : String
  description : Option String
  triggerPattern : Option String
  negativeTrigger : Option String
  content : String
  scopeKind : SkillScopeKind
  scopeId : Option Uuid
  state : Option SkillState
  sensitivity : Option String
  provenance : Option Json
  requiredInputs : Option Json
  tools : Option Json
  examples : Option Json
  successEvidence : Option Json
  ttlExpiresAt : Option Timestamp

structure UpdateSkillInput where
  name : Option String
  description : Option String
  triggerPattern : Option String
  content : Option String
  enabled : Option Bool

structure RestoreSkillVersionInput where
  version : Int
  expectedCurrentVersion : Option Int
  confirmExpansion : Bool

inductive ScopeKind where
  | user | team | project
deriving DecidableEq

def ScopeKind.skillKind : ScopeKind → SkillScopeKind
  | .user => .user
  | .team => .team
  | .project => .project

structure ApproveInput where
  scopeKind : ScopeKind
  scopeId : Option Uuid
  ttlAt : Option Timestamp
  sensitivity : Option String
  reason : Option String
  confirmExpansion : Bool

structure FeedbackInput where
  runId : Uuid
  itemId : Uuid
  label : FeedbackLabel
  note : Option String

section Service

variable (classify : String → Sensitivity) (directory : Directory) (tables : Tables)
  (scope : RequestScope) (now : Timestamp)

/-- `create`, with the identifier that the row gets. -/
def create (id : Uuid) (input : CreateSkillInput) : Committed :=
  transact tables do
    let workspaceId ← scope.workspaceId.elim (.error forbidden) .ok
    let name ← parseName input.name
    let (content, classified) ← prepareContent classify input.content
    let scopeId ← resolveScopeTarget input.scopeKind input.scopeId scope
    ensure (resourceBelongs directory scope workspaceId input.scopeKind scopeId) forbidden
    let state ← resolveCreateState input.state
      (input.state.getD .active ≠ .active
        || canPublishActive directory scope input.scopeKind scopeId)
    validateTtl "ttl_expires_at" input.ttlExpiresAt now
    let sensitivity ← input.sensitivity.elim (.ok classified) Sensitivity.parse
    let provenance := input.provenance.getD (.object [])
    ensure (isObject provenance) (.validation "provenance must be a JSON object")
    let lists := [input.requiredInputs, input.tools, input.examples, input.successEvidence].map
      (·.getD (.array []))
    ensure (lists.all isArray && (tables.skills id).isNone) (.internal "constraint violation")
    .ok (.ok (), writeSkill tables
      { id
        organizationId := some scope.orgId
        workspaceId := some workspaceId
        scopeKind := some input.scopeKind
        scopeId := some scopeId
        name
        description := input.description
        triggerPattern := input.triggerPattern
        content
        enabled := state = .active
        state := state.label
        version := 1
        ownerUserId := some scope.userId
        ttlExpiresAt := input.ttlExpiresAt
        sensitivity
        provenance
        negativeTrigger := input.negativeTrigger
        requiredInputs := input.requiredInputs.getD (.array [])
        tools := input.tools.getD (.array [])
        examples := input.examples.getD (.array [])
        successEvidence := input.successEvidence.getD (.array [])
        revokedAt := none
        createdAt := now
        updatedAt := now })

/-- `update_in_tx`. -/
def updateRow (current : Skill) (input : UpdateSkillInput)
    (prepared : Option (String × Sensitivity)) (change : StateChange) : AppResult Skill := do
  .ok { current with
    name := input.name.getD current.name
    description := input.description.or current.description
    triggerPattern := input.triggerPattern.or current.triggerPattern
    content := (prepared.map Prod.fst).getD current.content
    enabled := change.enabled.getD current.enabled
    state := change.state.getD current.state
    sensitivity := (prepared.map Prod.snd).getD current.sensitivity
    version := ← nextVersion current.version
    updatedAt := now }

def update (id : Uuid) (input : UpdateSkillInput) : Committed :=
  transact tables do
    let _ ← input.name.mapM parseName
    let prepared ← input.content.mapM (prepareContent classify)
    ensure (!existsOutside tables scope id) forbidden
    let current ← lockOrgSkill tables scope id
    ensureUpdateable id current.state
    requireOwnerOrManager directory scope current
    let change ← nextState current.state input.enabled
    let kept ← insertSnapshot tables current scope.userId
    let skill ← updateRow now current input prepared change
    .ok (.ok (), writeSkill kept skill)

/-- `revoke_in_tx`. -/
def revokeRow (current : Skill) : AppResult Skill := do
  .ok { current with
    state := .revoked
    enabled := false
    revokedAt := some now
    version := ← nextVersion current.version
    updatedAt := now }

/-- `delete`. -/
def revoke (id : Uuid) : Committed :=
  transact tables do
    ensure (!existsOutside tables scope id) forbidden
    let current ← lockOrgSkill tables scope id
    ensureRevokeable id current.state
    requireOwnerOrManager directory scope current
    let kept ← insertSnapshot tables current scope.userId
    let skill ← revokeRow now current
    .ok (.ok (), writeSkill kept skill)

/-- `restore_from_snapshot_in_tx`. -/
def restoreRow (current snapshot : Skill) (resultingVersion : Nat) : Skill :=
  { current with
    scopeKind := snapshot.scopeKind
    scopeId := snapshot.scopeId
    ownerUserId := snapshot.ownerUserId
    name := snapshot.name
    description := snapshot.description
    triggerPattern := snapshot.triggerPattern
    negativeTrigger := snapshot.negativeTrigger
    content := snapshot.content
    enabled := snapshot.enabled
    state := snapshot.state
    version := resultingVersion
    ttlExpiresAt := snapshot.ttlExpiresAt
    sensitivity := snapshot.sensitivity
    provenance := snapshot.provenance
    requiredInputs := snapshot.requiredInputs
    tools := snapshot.tools
    examples := snapshot.examples
    successEvidence := snapshot.successEvidence
    revokedAt := snapshot.revokedAt
    updatedAt := now }

def restoreVersion (id : Uuid) (input : RestoreSkillVersionInput) : Committed :=
  transact tables do
    validateRestore input.version input.expectedCurrentVersion
    ensure (!existsOutside tables scope id) forbidden
    let current ← lockOrgSkill tables scope id
    ensureCurrentRestorable id current.state
    ensureExpectedVersion id current.version input.expectedCurrentVersion
    requireOwnerOrManager directory scope current
    let snapshot ← snapshotForVersion tables current.id input.version
    ensureSnapshotBoundary id input.version current snapshot
    ensureSnapshotRestorable id input.version snapshot.state
    planRestore classify current snapshot input.confirmExpansion
    let kept ← insertSnapshot tables current scope.userId
    let resultingVersion ← nextVersion current.version
    .ok (.ok (), writeSkill kept (restoreRow now current snapshot resultingVersion))

/-- `validated_write_scope`: the scope that an approval widens to. -/
def approvalTarget (proof : ScopedRead) (workspaceId : Uuid) (input : ApproveInput) :
    AppResult Uuid :=
  match input.scopeKind with
  | .user => do
      let scopeId := input.scopeId.getD proof.userId
      ensure (proof.userId = scopeId) forbidden
      .ok scopeId
  | .team => do
      let scopeId ← input.scopeId.elim
        (.error (.validation "scope_id is required for team context approval")) .ok
      ensure (scopeId ∈ proof.teamIds && directory.inTeam scope scopeId) forbidden
      .ok scopeId
  | .project => do
      let scopeId ← input.scopeId.elim
        (.error (.validation "scope_id is required for project context approval")) .ok
      ensure (scopeId ∈ proof.projectIds && directory.inProject scope workspaceId scopeId)
        forbidden
      .ok scopeId

/-- `promote_candidate_in_tx`. -/
def promoteRow (current : Skill) (kind : SkillScopeKind) (scopeId : Uuid)
    (ttl : Option Timestamp) (sensitivity : Sensitivity) : AppResult Skill := do
  ensure (current.state = .candidate && current.revokedAt.isNone)
    (.conflict ("skill " ++ current.id.toText ++ " is not a pending candidate"))
  .ok { current with
    scopeKind := some kind
    scopeId := some scopeId
    ttlExpiresAt := ttl
    sensitivity
    enabled := true
    state := .active
    version := ← nextVersion current.version
    updatedAt := now }

/-- What an approval does to the skill of its candidate. -/
def promote (candidate : ContextCandidate) (input : ApproveInput) (scopeId : Uuid)
    (requested : Option Sensitivity) : AppResult Tables := do
  let skillId ← candidate.targetSkillId.elim
    (.error (.validation "skill candidate missing target_skill_id")) .ok
  let current ← lockOrgSkill tables scope skillId
  ensure (current.state = .candidate)
    (.conflict ("skill " ++ current.id.toText ++ " is not a candidate"))
  ensure current.revokedAt.isNone
    (.unprocessable ("skill " ++ current.id.toText ++ " is revoked"))
  let fromKind ← current.scopeKind.elim
    (.error (.validation "skill candidate has unsupported scope_kind")) .ok
  gateScopeExpansion fromKind input.scopeKind.skillKind input.confirmExpansion
  ensure (classify current.content ≠ .secretDetected)
    (.unprocessable "secret detected in skill content; submit redacted content")
  ensure (candidate.id ∉ tables.decided)
    (.conflict "context candidate already has an approval decision")
  let kept ← insertSnapshot tables current scope.userId
  let skill ← promoteRow now current input.scopeKind.skillKind scopeId input.ttlAt
    (requested.getD current.sensitivity)
  .ok (writeCandidate
    { writeSkill kept skill with decided := candidate.id :: tables.decided }
    { candidate with state := .approved })

/-- `approve`, of a candidate for a skill. -/
def approve (id : Uuid) (input : ApproveInput) : Committed :=
  transact tables do
    validateTtl "ttl_at" input.ttlAt now
    let requested ← input.sensitivity.mapM fun value =>
      (Sensitivity.parse value).mapError fun _ =>
        .validation ("unsupported context sensitivity \x60" ++ value ++ "\x60")
    ensure (input.reason.all fun reason => (trim reason).utf8ByteSize ≤ 500)
      (.validation "rejection reason must be at most 500 characters")
    let proof ← directory.readScope scope
    let workspaceId ← scope.workspaceId.elim (.error forbidden) .ok
    let scopeId ← approvalTarget directory scope proof workspaceId input
    let candidate ← ((tables.candidates id).filter fun candidate =>
        candidate.organizationId = proof.orgId && candidate.workspaceId ∈ proof.workspaceIds).elim
      (.error (.notFound ("context candidate " ++ id.toText))) .ok
    ensure (candidate.state = .pending) (.conflict ("context candidate " ++ candidate.id.toText
      ++ " is already " ++ candidate.state.label))
    if candidate.sourceRunId.bind (directory.runStatus proof) ≠ some "completed" then
      .ok (.error (.unprocessable "context candidate source run is unavailable"),
        writeCandidate tables { candidate with state := .rejected })
    else do
      ensure (candidate.ownerUserId ≠ scope.userId || input.scopeKind = .user) forbidden
      let approved ← promote classify tables scope now candidate input scopeId requested
      .ok (.ok (), approved)

/-- `should_revoke_after_label`. -/
def shouldRevoke (label : FeedbackLabel) (count : Nat) : Bool :=
  match label with
  | .stale => 3 ≤ count
  | .wrong => 2 ≤ count
  | _ => false

/-- `upsert_in_tx`: one row for a run, an item and a user. -/
def upsertFeedback (rows : List ContextFeedback) (row : ContextFeedback) : List ContextFeedback :=
  rows.filter (fun other =>
    ¬ (other.runId = row.runId ∧ other.itemId = row.itemId ∧ other.userId = row.userId)) ++ [row]

def countLabel (rows : List ContextFeedback) (row : ContextFeedback) : Nat :=
  rows.countP fun other => other.organizationId = row.organizationId
    && other.workspaceId = row.workspaceId && other.itemId = row.itemId && other.label = row.label

/-- `revoke_skill_if_active_in_tx`. -/
def silence (current : Skill) : Skill :=
  { current with
    state := .revoked
    enabled := false
    revokedAt := some now
    updatedAt := now }

/-- `lock_skill_for_feedback_in_tx`. -/
def lockForFeedback (proof : ScopedRead) (workspaceId id : Uuid) : AppResult Skill :=
  ((tables.skills id).filter fun skill =>
      (proof.workspaceIds ≠ []) && skill.organizationId = some proof.orgId
        && skill.workspaceId = some workspaceId && skill.state ≠ .candidate
        && match skill.scopeKind, skill.scopeId with
          | some .org, _ => true
          | some .user, some id => id = proof.userId
          | some .team, some id => id ∈ proof.teamIds
          | some .project, some id => id ∈ proof.projectIds
          | _, _ => false).elim
    (.error forbidden) .ok

/-- `record`, of feedback on a skill. -/
def feedback (input : FeedbackInput) : Committed :=
  transact tables do
    let workspaceId ← scope.workspaceId.elim (.error forbidden) .ok
    let proof ← directory.readScope scope
    ensure (input.note.all fun note => (trim note).utf8ByteSize ≤ 4000)
      (.validation "feedback note must be at most 4000 characters")
    let status ← (directory.runStatus proof input.runId).elim (.error forbidden) .ok
    ensure (status ∈ ["completed", "failed", "canceled"])
      (.unprocessable "context feedback requires a terminal run")
    let skill ← lockForFeedback tables proof workspaceId input.itemId
    let row : ContextFeedback :=
      ⟨proof.orgId, workspaceId, input.runId, input.itemId, input.label, proof.userId⟩
    let rows := upsertFeedback tables.feedback row
    let noted := { tables with feedback := rows }
    if skill.revokedAt.isNone && shouldRevoke input.label (countLabel rows row) then
      .ok (.ok (), writeSkill noted (silence now skill))
    else .ok (.ok (), noted)

end Service

/-- The requests; a candidate is proposed without touching its skill. -/
inductive Request where
  | create (id : Uuid) (input : CreateSkillInput)
  | update (id : Uuid) (input : UpdateSkillInput)
  | revoke (id : Uuid)
  | restoreVersion (id : Uuid) (input : RestoreSkillVersionInput)
  | propose (candidate : ContextCandidate)
  | approve (id : Uuid) (input : ApproveInput)
  | feedback (input : FeedbackInput)

structure Call where
  directory : Directory
  scope : RequestScope
  now : Timestamp
  request : Request

def propose (tables : Tables) (candidate : ContextCandidate) : Committed :=
  if (tables.candidates candidate.id).isSome then (.error (.internal "constraint violation"), tables)
  else (.ok (), writeCandidate tables { candidate with state := .pending })

def handle (classify : String → Sensitivity) (tables : Tables) (call : Call) : Committed :=
  match call.request with
  | .create id input => create classify call.directory tables call.scope call.now id input
  | .update id input => update classify call.directory tables call.scope call.now id input
  | .revoke id => revoke call.directory tables call.scope call.now id
  | .restoreVersion id input =>
      restoreVersion classify call.directory tables call.scope call.now id input
  | .propose candidate => propose tables candidate
  | .approve id input => approve classify call.directory tables call.scope call.now id input
  | .feedback input => feedback call.directory tables call.scope call.now input

end Forge.SkillService
