import Mathlib.Data.List.Infix

/-! The policy of the self-fix loop: its errors, the vocabulary of reviews and the GitHub error
contract. -/

namespace Forge.SelfFixDomain

/-- The kinds of `AppError` that the loop raises. -/
inductive AppError where
  | notFound (message : String)
  | validation (message : String)
  | validationWithCode (code message : String)
  | forbidden (message : String)
  | forbiddenWithCode (code message : String)
  | conflict (message : String)
  | unavailable (message : String)
  | internal (message : String)
deriving DecidableEq, Repr

/-- The texts of `review_status`. -/
inductive ReviewStatus where
  | inReview | approved | changesRequested | merged | sensitiveBlocked
deriving DecidableEq, Repr

def ReviewStatus.asStr : ReviewStatus → String
  | inReview => "in_review"
  | approved => "approved"
  | changesRequested => "changes_requested"
  | merged => "merged"
  | sensitiveBlocked => "sensitive_blocked"

namespace SelfFixPolicy

def sensitivePathBlocked : AppError :=
  .forbiddenWithCode "errors.self_fix.sensitive_path_blocked"
    ("This PR touches a security-sensitive path; in-platform merge is disabled. "
      ++ "Route it to a CODEOWNERS review and merge manually.")

def checksNotGreen : AppError :=
  .validationWithCode "errors.self_fix.checks_not_green"
    "Required CI checks are not all green; cannot merge."

def mergeAttemptsExhausted : AppError :=
  .validationWithCode "errors.self_fix.merge_attempts_exhausted"
    "Merge retry limit reached; review needs changes before another attempt."

def headMoved : AppError :=
  .conflict "the PR head moved since review; re-review required"

def githubNotConfigured : AppError :=
  .validationWithCode "errors.self_fix.github_not_configured"
    ("The self-fix GitHub App is not configured on this deployment; no pull request can be "
      ++ "opened. Configure all four GITHUB_APP_* variables, restart the API and retry.")

def notASelfFixTask : AppError :=
  .validationWithCode "errors.self_fix.not_a_self_fix_task"
    "This task is not a self-fix task; the PR Bridge cannot open a pull request for it."

def noPrToMerge : AppError :=
  .validationWithCode "errors.self_fix.no_pr_to_merge"
    "This self-fix task has no open pull request to merge yet; open the PR first."

def notApprovedForMerge : AppError :=
  .validationWithCode "errors.self_fix.not_approved_for_merge"
    "This self-fix pull request has not been approved for merge."

end SelfFixPolicy

/-- `domain::github_app::not_mergeable`. -/
def notMergeable : AppError :=
  .conflict "pull request not mergeable"

/-- `domain::github_app::request_failed`. -/
def requestFailed (endpointLabel : String) : AppError :=
  .unavailable ("github: request failed: " ++ endpointLabel)

/-- `domain::github_app::status_failed`. -/
def statusFailed (statusCode : Nat) (endpointLabel : String) : AppError :=
  .unavailable ("github " ++ toString statusCode ++ ": " ++ endpointLabel)

/-! Paths are texts from the root of the repository. -/

namespace SensitivePathPolicy

def dirPrefixes : List String :=
  ["rust/crates/auth/", "rust/crates/db/migrations/", ".github/workflows/",
    "rust/crates/api/src/services/self_fix/", "rust/crates/api/src/services/github_app/",
    "rust/crates/api/src/domain/maintenance_delivery/",
    "rust/crates/api/src/repositories/orchestration/maintenance_delivery/"]

def basenames : List String :=
  ["middleware.rs", "mcp.rs", "security.rs"]

def exact : List String :=
  [".github/CODEOWNERS", "rust/crates/api/src/services/self_fix/mod.rs",
    "rust/crates/api/src/services/self_fix/bridge.rs",
    "rust/crates/api/src/services/self_fix/import.rs",
    "rust/crates/api/src/services/self_fix/merge_executor.rs",
    "rust/crates/api/src/routes/self_fix.rs", "rust/crates/api/src/domain/self_fix.rs",
    "rust/crates/api/src/domain/maintenance.rs",
    "rust/crates/api/src/domain/maintenance_delivery.rs",
    "rust/crates/api/src/repositories/orchestration/maintenance_request.rs",
    "rust/crates/api/src/repositories/orchestration/maintenance_delivery.rs"]

def isSensitive (path : List Char) : Bool :=
  dirPrefixes.any (fun dir => dir.toList.isPrefixOf path)
    || exact.any (fun file => file.toList == path)
    || basenames.any fun name => name.toList == (path.splitOn '/').getLastD path

def touchesSensitive (changedPaths : List (List Char)) : Bool :=
  changedPaths.any isSensitive

end SensitivePathPolicy

end Forge.SelfFixDomain
