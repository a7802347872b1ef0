import Forge.GithubApp

/-! The guarded merge of a self-fix pull request. -/

namespace Forge.MergeExecutor

open Forge.GithubApp
open Forge.Library.Interleaving
open Forge.SelfFixDomain

/-- `MergeGate::evaluate`. -/
def evaluate (sensitive checksGreen headUnchanged : Bool) : Except AppError Unit :=
  if sensitive then .error SelfFixPolicy.sensitivePathBlocked
  else if !checksGreen then .error SelfFixPolicy.checksNotGreen
  else if !headUnchanged then .error SelfFixPolicy.headMoved
  else .ok ()

theorem evaluate_eq_ok {sensitive checksGreen headUnchanged : Bool} :
    evaluate sensitive checksGreen headUnchanged = .ok () ↔
      sensitive = false ∧ checksGreen = true ∧ headUnchanged = true := by
  cases sensitive <;> cases checksGreen <;> cases headUnchanged <;> decide

structure MergeRequest where
  prNumber : Int
  recordedHeadSha : String
  sensitive : Bool

structure MergeOutcome where
  prNumber : Int
  mergedHeadSha : String
  alreadyMerged : Bool
deriving DecidableEq, Repr

variable (apiBase repo : String) (pages : Nat) (req : MergeRequest)

def gateHead : Client String := do
  let head ← prHeadSha req.prNumber
  let checksGreen ← allChecksGreen apiBase repo pages head
  Attempt.lift (evaluate req.sensitive checksGreen (head == req.recordedHeadSha))
  return head

def ensureReady : Client Unit := do
  if ← prIsDraft req.prNumber then markReadyForReview req.prNumber else return ()

/-- `run_merge_executor`; `pages` bounds how many pages of check runs are followed. -/
def runMergeExecutor (auditBody : String) : Client MergeOutcome :=
  if req.sensitive then Attempt.fail SelfFixPolicy.sensitivePathBlocked
  else do
    if ← prIsMerged req.prNumber then
      return ⟨req.prNumber, req.recordedHeadSha, true⟩
    else
      let _liveHead ← gateHead apiBase repo pages req
      ensureReady req
      let freshHead ← gateHead apiBase repo pages req
      mergeWithExpectedHead req.prNumber freshHead
      comment req.prNumber auditBody
      return ⟨req.prNumber, freshHead, false⟩

end Forge.MergeExecutor
