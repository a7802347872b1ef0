import Forge.GitDiff
import Forge.OrchestrationView
import Forge.SelfFixDomain

/-! The rebuild of an agent's change in a clone of the server: what is staged is listed, held
against the caps, checked for modes, and committed. -/

namespace Forge.SelfFixRebuild

open Forge.GitDiff
open Forge.Library.Text
open Forge.OrchestrationView
open Forge.SelfFixDomain

inductive ImportReject where
  | symlink (path : List Char)
  | gitlink (path : List Char)
  | specialFile (path : List Char)
  | escapesRoot (path : List Char)
  | dotGit (path : List Char)
  | oversizeFile (path : List Char)
  | churnCapExceeded (changed cap : Nat)
  | deletionCapExceeded (deleted cap : Nat)
deriving DecidableEq, Repr

structure ImportLimits where
  maxFileBytes : Nat := 2 * 1024 * 1024
  maxChangedFiles : Nat := 400
  maxDeletions : Nat := 200
deriving DecidableEq, Repr

/-- `check_caps`. -/
def checkCaps (changed deleted : Nat) (limits : ImportLimits) : Except ImportReject Unit :=
  if limits.maxChangedFiles < changed then
    .error (.churnCapExceeded changed limits.maxChangedFiles)
  else if limits.maxDeletions < deleted then
    .error (.deletionCapExceeded deleted limits.maxDeletions)
  else .ok ()

theorem checkCaps_ok {changed deleted : Nat} {limits : ImportLimits} :
    checkCaps changed deleted limits = .ok () ↔
      changed ≤ limits.maxChangedFiles ∧ deleted ≤ limits.maxDeletions := by
  rw [checkCaps]
  split
  case isTrue => exact ⟨nofun, by omega⟩
  case isFalse =>
      split
      case isTrue => exact ⟨nofun, by omega⟩
      case isFalse => exact ⟨fun _ => by omega, fun _ => rfl⟩

inductive RebuildError where
  | rejected (reject : ImportReject)
  | emptyChange
  | git (summary : String)
  | io (summary : String)
deriving DecidableEq, Repr

structure RebuildOutcome where
  tree : Tree
  changedFiles : List (List Char)

/-- One line of `reject_unsafe_modes`. -/
def rejectUnsafeLine (line : List Char) : Except RebuildError Unit :=
  if line.head? ≠ some ':' then .ok ()
  else
    match splitWhitespace isWhitespace line with
    | _ :: dstMode :: _ =>
        let path := (line.splitOn '\t').getLastD line
        if dstMode = "120000".toList then .error (.rejected (.symlink path))
        else if dstMode = "160000".toList then .error (.rejected (.gitlink path))
        else .ok ()
    | _ => .ok ()

/-- `reject_unsafe_modes`. -/
def rejectUnsafeModes (raw : List Char) : Except RebuildError Unit :=
  (lines raw).forM rejectUnsafeLine

section Staged

variable (detection : RenameDetection) (limits : ImportLimits) (base staged : Tree)

def listed (output : List Char) : List (List Char) :=
  (lines output).filter fun line => !line.isEmpty

/-- `git diff --cached --name-only`. -/
def changedFiles : List (List Char) :=
  listed (nameOnly (changes base staged detection))

/-- `git diff --cached --diff-filter=D --name-only`, counted. -/
def deletions : Nat :=
  (listed (nameOnly ((changes base staged detection).filter Change.isDeleted))).length

/-- `rebuild_branch` from the point on at which everything is staged. -/
def commitStaged : Except RebuildError RebuildOutcome := do
  let changedFiles := changedFiles detection base staged
  if changedFiles.isEmpty then .error .emptyChange
  else
    let deletions := deletions detection base staged
    (checkCaps changedFiles.length deletions limits).mapError .rejected
    rejectUnsafeModes (rawLines (changes base staged detection))
    return ⟨staged, changedFiles⟩

def reviewStatus (changedFiles : List (List Char)) : ReviewStatus :=
  if SensitivePathPolicy.touchesSensitive changedFiles then .sensitiveBlocked else .inReview

end Staged

end Forge.SelfFixRebuild
