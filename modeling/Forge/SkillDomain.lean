import Forge.Library.Identifier
import Forge.Library.JsonDocument
import Forge.OrchestrationView
import Forge.Schema

/-! Governed skills: their rows, and the policies for what may be done with them. -/

namespace Forge.SkillDomain

open Forge.Library.Identifier
open Forge.Library.JsonDocument
open Forge.Library.Text
open Forge.OrchestrationView (isWhitespace)
open Forge.Schema (Timestamp)

inductive ErrorKind where
  | validation (message : String)
  | unprocessable (message : String)
  | notFound (message : String)
  | conflict (message : String)
  | forbidden (message : String)
  | internal (message : String)
deriving DecidableEq

abbrev AppResult := Except ErrorKind

inductive SkillScopeKind where
  | org | user | team | project
deriving DecidableEq

inductive State where
  | candidate | active | deprecated | revoked
deriving DecidableEq

inductive SkillState where
  | candidate | active | deprecated
deriving DecidableEq

def SkillState.label : SkillState → State
  | .candidate => .candidate
  | .active => .active
  | .deprecated => .deprecated

inductive Sensitivity where
  | public_ | internal | confidential | secretDetected
deriving DecidableEq

/-- A row of `skills`. A snapshot of a version has the same columns. -/
structure Skill where
  id : Uuid
  organizationId : Option Uuid
  workspaceId : Option Uuid
  scopeKind : Option SkillScopeKind
  scopeId : Option Uuid
  name : String
  description : Option String
  triggerPattern : Option String
  content : String
  enabled : Bool
  state : State
  version : Nat
  ownerUserId : Option Uuid
  ttlExpiresAt : Option Timestamp
  sensitivity : Sensitivity
  provenance : Json
  negativeTrigger : Option String
  requiredInputs : Json
  tools : Json
  examples : Json
  successEvidence : Json
  revokedAt : Option Timestamp
  createdAt : Timestamp
  updatedAt : Timestamp

structure RequestScope where
  orgId : Uuid
  userId : Uuid
  workspaceId : Option Uuid
deriving DecidableEq

def trim (text : String) : String := String.ofList (strip isWhitespace text.toList)

def forbidden : ErrorKind := .forbidden "forbidden"

def ensure (holds : Bool) (refusal : ErrorKind) : AppResult Unit :=
  if holds then .ok () else .error refusal

section Inputs

/-- `SkillName::parse`. -/
def parseName (value : String) : AppResult String :=
  let value := trim value
  if value = "" ∨ value.utf8ByteSize > 255 then
    .error (.validation "skill name must be 1-255 characters")
  else .ok value

def Sensitivity.parse (value : String) : AppResult Sensitivity :=
  if value = "public" then .ok .public_
  else if value = "internal" then .ok .internal
  else if value = "confidential" then .ok .confidential
  else if value = "secret_detected" then .ok .secretDetected
  else .error (.validation ("unsupported skill sensitivity \x60" ++ value ++ "\x60"))

/-- `SkillContentPolicy::prepare`: the trimmed content and how sensitive it is. -/
def prepareContent (classify : String → Sensitivity) (content : String) :
    AppResult (String × Sensitivity) :=
  let content := trim content
  if content = "" then .error (.validation "skill content must not be empty")
  else if classify content = .secretDetected then
    .error (.unprocessable "secret detected in skill content; submit redacted content")
  else .ok (content, classify content)

/-- `SkillScopeTargetPolicy::resolve`. -/
def resolveScopeTarget (kind : SkillScopeKind) (scopeId : Option Uuid) (scope : RequestScope) :
    AppResult Uuid :=
  match kind with
  | .org => .ok (scopeId.getD scope.orgId)
  | .user => .ok (scopeId.getD scope.userId)
  | .team => scopeId.elim (.error (.validation "scope_id is required for team skill")) .ok
  | .project => scopeId.elim (.error (.validation "scope_id is required for project skill")) .ok

/-- `SkillCreateStatePolicy::resolve`. -/
def resolveCreateState (state : Option SkillState) (canPublishActive : Bool) :
    AppResult SkillState :=
  let state := state.getD .active
  if state = .active ∧ canPublishActive = false then .error forbidden else .ok state

def validateTtl (field : String) (ttl : Option Timestamp) (now : Timestamp) : AppResult Unit :=
  ensure (ttl.all fun ttl => now < ttl) (.validation (field ++ " must be in the future"))

def isObject : Json → Bool
  | .object _ => true
  | _ => false

def isArray : Json → Bool
  | .array _ => true
  | _ => false

end Inputs

section Mutations

inductive ManagerCheck where
  | org
  | team (id : Uuid)
  | project (id : Uuid)
deriving DecidableEq

inductive MutationAccess where
  | allowed
  | requiresManager (check : ManagerCheck)
  | forbidden
deriving DecidableEq

/-- `SkillMutationAccessPolicy::plan`. -/
def planAccess (owner : Option Uuid) (actor : Uuid) (kind : Option SkillScopeKind)
    (scopeId : Option Uuid) : MutationAccess :=
  if owner = some actor then .allowed
  else match kind with
    | some .org => .requiresManager .org
    | some .team => scopeId.elim .forbidden fun id => .requiresManager (.team id)
    | some .project => scopeId.elim .forbidden fun id => .requiresManager (.project id)
    | some .user => .forbidden
    | none => .forbidden

def ensureUpdateable (id : Uuid) (state : State) : AppResult Unit :=
  ensure (state ≠ .revoked) (.conflict ("skill " ++ id.toText ++ " is revoked"))

def ensureRevokeable (id : Uuid) (state : State) : AppResult Unit :=
  ensure (state ≠ .revoked) (.conflict ("skill " ++ id.toText ++ " is already revoked"))

structure StateChange where
  enabled : Option Bool
  state : Option State

/-- `SkillStateTransitionPolicy::next`. -/
def nextState (current : State) : Option Bool → AppResult StateChange
  | some true =>
      if current = .candidate then
        .error (.unprocessable "candidate skill promotion requires approval queue")
      else .ok ⟨some true, some .active⟩
  | some false => .ok ⟨some false, some .deprecated⟩
  | none => .ok ⟨none, none⟩

end Mutations

section Restoring

def validateRestore (version : Int) (expected : Option Int) : AppResult Unit := do
  ensure (1 ≤ version) (.validation "version must be >= 1")
  ensure (expected.all fun version => 1 ≤ version)
    (.validation "expected_current_version must be >= 1")

def ensureCurrentRestorable (id : Uuid) (state : State) : AppResult Unit :=
  ensure (state ≠ .revoked)
    (.unprocessable ("skill " ++ id.toText ++ " is revoked and cannot be restored"))

def ensureExpectedVersion (id : Uuid) (current : Nat) (expected : Option Int) : AppResult Unit :=
  ensure (expected.all fun version : Int => version = (current : Int))
    (.conflict ("skill " ++ id.toText ++ " current version is " ++ toString current
      ++ "; expected " ++ toString (expected.getD 0)))

def ensureSnapshotBoundary (id : Uuid) (version : Int) (current snapshot : Skill) :
    AppResult Unit :=
  ensure (snapshot.organizationId = current.organizationId
      ∧ snapshot.workspaceId = current.workspaceId)
    (.conflict ("skill " ++ id.toText ++ " version " ++ toString version
      ++ " belongs to a different workspace boundary"))

def ensureSnapshotRestorable (id : Uuid) (version : Int) (state : State) : AppResult Unit :=
  ensure (state ≠ .revoked) (.unprocessable ("skill " ++ id.toText ++ " version "
    ++ toString version ++ " is revoked and cannot be restored"))

def SkillScopeKind.label : SkillScopeKind → String
  | .org => "org"
  | .user => "user"
  | .team => "team"
  | .project => "project"

def SkillScopeKind.rank : SkillScopeKind → Nat
  | .user => 0
  | .team => 1
  | .project => 2
  | .org => 3

/-- `gate_scope_expansion`: whether the wider scope is admitted. -/
def gateScopeExpansion (fromKind toKind : SkillScopeKind) (confirm : Bool) : AppResult Unit := do
  ensure (¬ (toKind = .org ∧ fromKind ≠ .org))
    (.unprocessable "org-wide context scope is out of scope for MVP")
  ensure (toKind.rank ≤ fromKind.rank || confirm)
    (.unprocessable ("scope expansion from " ++ fromKind.label ++ " to " ++ toKind.label
      ++ " requires confirm_expansion=true"))

/-- `plan_restore`. -/
def planRestore (classify : String → Sensitivity) (current snapshot : Skill) (confirm : Bool) :
    AppResult Unit := do
  let fromKind ← current.scopeKind.elim
    (.error (.validation "current skill has unsupported scope_kind")) .ok
  let toKind ← snapshot.scopeKind.elim
    (.error (.validation "skill snapshot has unsupported scope_kind")) .ok
  gateScopeExpansion fromKind toKind confirm
  ensure (snapshot.sensitivity ≠ .secretDetected && classify snapshot.content ≠ .secretDetected)
    (.unprocessable "secret detected in skill content; submit redacted content")

end Restoring

end Forge.SkillDomain
