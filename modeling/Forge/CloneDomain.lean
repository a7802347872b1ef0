import Forge.JobQueue

/-! Project clones: the states of an attempt and their summary, the names of directories, and the
payload that names an attempt from the outbox to the worker. -/

namespace Forge.CloneDomain

open Forge.Library.Identifier
open Forge.Library.JsonDocument
open Forge.Schema (Timestamp)

/-! ## States -/

inductive CloneAttemptStatus where
  | queued | cloning | ready | failed | cancelled
deriving DecidableEq, Repr

namespace CloneAttemptStatus

def asStr : CloneAttemptStatus → String
  | queued => "queued"
  | cloning => "cloning"
  | ready => "ready"
  | failed => "failed"
  | cancelled => "cancelled"

def isTerminal : CloneAttemptStatus → Bool
  | ready => true
  | failed => true
  | cancelled => true
  | _ => false

def tryTransition : CloneAttemptStatus → CloneAttemptStatus → Bool
  | queued, cloning => true
  | queued, cancelled => true
  | cloning, ready => true
  | cloning, failed => true
  | cloning, cancelled => true
  | _, _ => false

end CloneAttemptStatus

inductive CloneStatus where
  | none | queued | cloning | ready | failed
deriving DecidableEq, Repr

def CloneStatus.fromAttempt : Option CloneAttemptStatus → CloneStatus
  | .none => .none
  | some .cancelled => .none
  | some .queued => .queued
  | some .cloning => .cloning
  | some .ready => .ready
  | some .failed => .failed

/-! ## Directory names -/

def workspaceDirNameMax : Nat := 64

def reservedDirNames : List String := [".", "..", ".git"]

def isSafeDirName (value : String) : Bool :=
  !value.isEmpty && decide (value.utf8ByteSize ≤ workspaceDirNameMax)
    && value.toList.all (fun c => (decide ('a' ≤ c) && decide (c ≤ 'z')) || c.isDigit || c == '-')
    && value.toList.head? != some '-' && value.toList.getLast? != some '-'
    && !reservedDirNames.contains value

structure WorkspaceDirName where
  value : String
  safe : isSafeDirName value = true
deriving DecidableEq

def WorkspaceDirName.parse (value : String) : Option WorkspaceDirName :=
  if safe : isSafeDirName value = true then some ⟨value, safe⟩ else none

theorem WorkspaceDirName.parse_value (name : WorkspaceDirName) : parse name.value = some name :=
  dif_pos name.safe

theorem WorkspaceDirName.value_of_parse {value : String} {name : WorkspaceDirName}
    (parsed : parse value = some name) : name.value = value := by
  rw [parse] at parsed
  split at parsed
  case isTrue => exact Option.some.inj parsed ▸ rfl
  case isFalse => cases parsed

/-! ## The payload -/

def cloneJobQueue : String := "project_clone"

def cloneJobMaxAttempts : Int := 5

/-- The deadline of a retry is read by the relay only. -/
structure CloneOutboxPayload where
  organizationId : Uuid
  workspaceId : Uuid
  projectId : Uuid
  attempt : Nat
  runAfter : Option Timestamp
deriving DecidableEq

def jobUniqueKey (projectId : Uuid) (attempt : Nat) : String :=
  "project_clone:" ++ projectId.toText ++ ":" ++ attempt.repr

def CloneOutboxPayload.toValue (payload : CloneOutboxPayload) : Json :=
  .object [("organization_id", .string payload.organizationId.toText),
    ("workspace_id", .string payload.workspaceId.toText),
    ("project_id", .string payload.projectId.toText),
    ("attempt", .number payload.attempt 0)]

def readId (payload : Json) (field : String) : Option Uuid := do
  Uuid.parseStr (← (← payload.get field).asStr)

def readAttempt (payload : Json) : Option Nat :=
  match payload.get "attempt" with
  | some (.number mantissa 0) => if 0 ≤ mantissa then some mantissa.toNat else none
  | _ => none

def decodeOutboxPayload (payload : Json) : Option CloneOutboxPayload := do
  let organizationId ← readId payload "organization_id"
  let workspaceId ← readId payload "workspace_id"
  let projectId ← readId payload "project_id"
  let attempt ← readAttempt payload
  some { organizationId, workspaceId, projectId, attempt, runAfter := none }

end Forge.CloneDomain
