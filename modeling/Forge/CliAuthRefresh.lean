import Forge.CredentialConsumer
import Forge.Library.Interleaving
import Mathlib.Logic.Function.Basic

/-! The refresh sweeps over stored credentials: which rows are due, the grant that is posted to
the provider, and the statements on the row afterwards. -/

namespace Forge.CliAuthRefresh

open Forge.CredentialConsumer
open Forge.Library.Identifier
open Forge.Library.Interleaving
open Forge.Library.JsonDocument
open Forge.Schema

structure CliAuthProxyProvider where
  cliTool : String
  tokenEndpoint : String
  clientId : String
  clientSecret : Option String

structure TokenResponse where
  idToken : Option String
  accessToken : String
  refreshToken : Option String
  accountId : Option String
deriving DecidableEq, Repr

inductive RefreshErrorKind where
  | invalidGrant
  | invalidClient
  | otherOauthError (code : String)
  | transient (message : String)
deriving DecidableEq, Repr

inductive RefreshOutcome where
  | refreshed
  | invalidGrant
  | invalidClient
  | otherFailure (message : String)
deriving DecidableEq, Repr

inductive NeedsRefresh where
  | stale (refreshToken : String)
  | fresh
  | noRefreshToken
deriving DecidableEq, Repr

structure RevokedCliCredential where
  userId : Uuid
  cliTool : String
  reason : String
  revokedAt : Timestamp

structure RefreshSummary where
  refreshed : Nat
  failed : Nat
  eligible : Nat
  invalidGrant : Nat
  invalidClient : Nat
  revokedCredentials : List RevokedCliCredential

def RefreshSummary.default : RefreshSummary := ⟨0, 0, 0, 0, 0, []⟩

/-- The formats that other libraries read and print, and the storage cipher. -/
structure Environment where
  parseJson : String → Except String Json
  decodeClaims : String → Option Json
  parseRfc3339 : String → Option Timestamp
  toRfc3339 : Timestamp → String
  decryptBase64 : String → String → Except String String
  encryptBase64 : String → String → String → String

/-- `CliAuthProxyService`: the providers, the storage key, the threshold of failures. -/
structure CliAuthProxyService where
  providers : List CliAuthProxyProvider
  encryptionKey : Option String
  revokeThreshold : Int

structure Response where
  status : Nat
  body : Option String

def Response.isSuccess (response : Response) : Bool :=
  decide (200 ≤ response.status ∧ response.status < 300)

def optionalText : Option Json → Option (Option String)
  | none => some none
  | some .null => some none
  | some (.string text) => some (some text)
  | some _ => none

/-- `expires_in`, of which only the type is checked. -/
def isOptionalU64 : Option Json → Bool
  | none => true
  | some .null => true
  | some (.number mantissa 0) => decide (0 ≤ mantissa ∧ mantissa < 2 ^ 64)
  | some _ => false

namespace TokenResponse

def fields (body : Json) : Option (List (Option Json)) :=
  match body with
  | .array items => if items.length = 5 then some (items.map some) else none
  | .object _ => some (["id_token", "access_token", "refresh_token", "expires_in",
      "account_id"].map body.get)
  | _ => none

/-- `serde_json::from_value::<TokenResponse>`. -/
def fromValue (body : Json) : Option TokenResponse := do
  let [idToken, accessToken, refreshToken, expiresIn, accountId] ← fields body | none
  if isOptionalU64 expiresIn then
    return {
      idToken := ← optionalText idToken
      accessToken := ← accessToken.bind Json.asStr
      refreshToken := ← optionalText refreshToken
      accountId := ← optionalText accountId }
  else none

end TokenResponse

/-- `truncate`. -/
def truncate (text : String) (maxChars : Nat) : String :=
  let head := String.ofList (text.toList.take maxChars)
  if maxChars < text.toList.length then head ++ "..." else head

section Domain

variable (env : Environment)

/-- `RefreshFailureClassifier::classify`. -/
def classify (statusCode : Nat) (body : String) : RefreshErrorKind :=
  if 500 ≤ statusCode ∧ statusCode ≤ 599 then .transient ("HTTP " ++ toString statusCode)
  else
    match ((env.parseJson body).toOption.bind (Json.get · "error")).bind Json.asStr with
    | some "invalid_grant" => .invalidGrant
    | some "invalid_client" => .invalidClient
    | some "unauthorized_client" => .invalidClient
    | some other => .otherOauthError other
    | none => .transient ("HTTP " ++ toString statusCode ++ ": " ++ truncate body 200)

/-- `extract_chatgpt_account_id`. -/
def extractChatgptAccountId (accessToken : String) : Option String := do
  let payload ← (accessToken.toList.splitOn '.')[1]?
  let value ← env.decodeClaims (String.ofList payload)
  let claim ← value.get "https://api.openai.com/auth"
  (← claim.get "chatgpt_account_id").asStr

def objectText (members : List (String × String)) : String :=
  "\x7b" ++ String.intercalate "," (members.map fun member =>
    Json.quote member.1 ++ ":" ++ member.2) ++ "\x7d"

/-- `cli_auth_token_file_payload`. -/
def cliAuthTokenFilePayload (tokens : TokenResponse) (accountId : Option String)
    (lastRefresh : Timestamp) : String :=
  let optional := fun (name : String) (text : Option String) =>
    (text.map fun text => (name, Json.quote text)).toList
  let authTokens := objectText (("access_token", Json.quote tokens.accessToken)
    :: optional "account_id" accountId ++ optional "id_token" tokens.idToken
    ++ optional "refresh_token" tokens.refreshToken)
  let authJson := objectText [
    ("last_refresh", Json.quote (env.toRfc3339 lastRefresh)), ("tokens", authTokens)]
  objectText [("auth.json", Json.quote authJson)]

/-- `needs_refresh`. -/
def needsRefresh (key ciphertext : String) (now : Timestamp) (threshold : Nat) :
    Except AppError NeedsRefresh := do
  let plain ← (env.decryptBase64 key ciphertext).mapError fun err => .internal ("decrypt: " ++ err)
  let files ← (env.parseJson plain).mapError fun err => .internal ("files JSON: " ++ err)
  match (files.get "auth.json").bind Json.asStr with
  | none => return .noRefreshToken
  | some authJson =>
      let auth ← (env.parseJson authJson).mapError fun err => .internal ("auth.json: " ++ err)
      match ((auth.get "tokens").bind (Json.get · "refresh_token")).bind Json.asStr with
      | none => return .noRefreshToken
      | some refreshToken =>
          let lastRefresh := ((auth.get "last_refresh").bind Json.asStr).bind env.parseRfc3339
          -- A missing time, or one in the future, is stale.
          let fresh := lastRefresh.any fun time =>
            decide (0 ≤ now - time ∧ now - time < threshold)
          return if fresh then .fresh else .stale refreshToken

end Domain

/-- What a sweep asks of the clock, the cipher, the provider and the database. -/
inductive Op where
  | clock
  | findAllActiveByCliTool (cliTool : String)
  | post (endpoint : String) (form : List (String × String))
  | encrypt (key plaintext : String)
  | upsertEncryptedByUserId (userId : Uuid) (cliTool ciphertext : String)
  | resetFailCountOnSuccess (userId : Uuid) (cliTool : String)
  | bumpFailCountOrRevoke (userId : Uuid) (cliTool reason : String) (threshold : Int)

abbrev Answer : Op → Type
  | .clock => Timestamp
  | .findAllActiveByCliTool _ => List (Uuid × String)
  | .post .. => Response
  | .encrypt .. => String
  | .upsertEncryptedByUserId .. => Unit
  | .resetFailCountOnSuccess .. => Unit
  | .bumpFailCountOrRevoke .. => Option (Int × Option Timestamp)

abbrev Sweep (α : Type) := Attempt Op Answer AppError α

def ask (operation : Op) : Sweep (Answer operation) :=
  Attempt.call operation

def errorText : AppError → String
  | .validation message => message
  | .notFound message => message
  | .conflict message => message
  | .forbidden message => message
  | .internal message => message

section Service

variable (env : Environment) (service : CliAuthProxyService)

/-- `store_tokens_by_user_id`. -/
def storeTokensByUserId (userId : Uuid) (provider : CliAuthProxyProvider)
    (tokens : TokenResponse) : Sweep Unit := do
  match service.encryptionKey with
  | none => Attempt.fail (.validation "LLM_ENCRYPTION_KEY is not configured")
  | some key =>
      let accountId := tokens.accountId.or (extractChatgptAccountId env tokens.accessToken)
      let now ← ask .clock
      let payload := cliAuthTokenFilePayload env tokens accountId now
      let ciphertext ← ask (.encrypt key payload)
      ask (.upsertEncryptedByUserId userId provider.cliTool ciphertext)

/-- The form of a `refresh_token` grant. -/
def refreshForm (provider : CliAuthProxyProvider) (refreshToken : String) :
    List (String × String) :=
  [("grant_type", "refresh_token"), ("client_id", provider.clientId),
    ("refresh_token", refreshToken)]
    ++ (provider.clientSecret.map fun secret => ("client_secret", secret)).toList

def decodeTokens (response : Response) : Except AppError TokenResponse :=
  match response.body.map env.parseJson with
  | none => .error (.internal "refresh invalid JSON: error decoding response body")
  | some (.error err) => .error (.internal ("refresh invalid JSON: " ++ err))
  | some (.ok body) =>
      match TokenResponse.fromValue body with
      | none => .error (.internal "refresh invalid JSON: invalid type")
      | some tokens => .ok tokens

/-- `refresh_single`. -/
def refreshSingle (provider : CliAuthProxyProvider) (userId : Uuid) (refreshToken : String) :
    Sweep RefreshOutcome := do
  let form := refreshForm provider refreshToken
  match ← (ask (.post provider.tokenEndpoint form)).observe with
  | .error err => return .otherFailure ("network: " ++ errorText err)
  | .ok response =>
      if response.isSuccess then
        let tokens ← Attempt.lift (decodeTokens env response)
        -- The old token stays when no new one was issued.
        let tokens := { tokens with refreshToken := tokens.refreshToken.or (some refreshToken) }
        storeTokensByUserId env service userId provider tokens
        ask (.resetFailCountOnSuccess userId provider.cliTool)
        return .refreshed
      else
        match classify env response.status (response.body.getD "") with
        | .invalidGrant => return .invalidGrant
        | .invalidClient => return .invalidClient
        | .otherOauthError code => return .otherFailure ("oauth:" ++ code)
        | .transient message => return .otherFailure message

/-- What a sweep does with one row. -/
def refreshRow (key : String) (provider : CliAuthProxyProvider) (now : Timestamp)
    (threshold : Nat) (summary : RefreshSummary) (row : Uuid × String) : Sweep RefreshSummary := do
  match needsRefresh env key row.2 now threshold with
  | .error _ => return summary
  | .ok .fresh => return summary
  | .ok .noRefreshToken => return summary
  | .ok (.stale refreshToken) =>
      let summary := { summary with eligible := summary.eligible + 1 }
      match ← (refreshSingle env service provider row.1 refreshToken).observe with
      | .ok .refreshed => return { summary with refreshed := summary.refreshed + 1 }
      | .ok .invalidGrant =>
          let summary := { summary with invalidGrant := summary.invalidGrant + 1 }
          match ← (ask (.bumpFailCountOrRevoke row.1 provider.cliTool "invalid_grant"
              service.revokeThreshold)).observe with
          | .ok (some (_, some revokedAt)) =>
              return { summary with
                revokedCredentials := summary.revokedCredentials
                  ++ [⟨row.1, provider.cliTool, "invalid_grant", revokedAt⟩] }
          | _ => return summary
      | .ok .invalidClient => return { summary with invalidClient := summary.invalidClient + 1 }
      | .ok (.otherFailure _) => return { summary with failed := summary.failed + 1 }
      | .error _ => return { summary with failed := summary.failed + 1 }

def refreshProvider (key : String) (now : Timestamp) (threshold : Nat) (summary : RefreshSummary)
    (provider : CliAuthProxyProvider) : Sweep RefreshSummary := do
  match ← (ask (.findAllActiveByCliTool provider.cliTool)).observe with
  | .error _ => return summary
  | .ok rows => rows.foldlM (refreshRow env service key provider now threshold) summary

/-- `refresh_stale`. -/
def refreshStale (threshold : Nat) : Sweep RefreshSummary := do
  match service.encryptionKey with
  | none => return .default
  | some key =>
      let now ← ask .clock
      service.providers.foldlM (refreshProvider env service key now threshold) .default

end Service

section Statements

variable (credentials : Credentials) (userId : Uuid) (cliTool : String)

/-- `find_all_active_by_cli_tool`. -/
def findAllActiveByCliTool : List (Uuid × String) :=
  (credentials.rows.filter fun row => row.cliTool == cliTool && row.revokedAt.isNone).map
    fun row => (row.userId, row.encryptedCredentials)

def credentialOf : Option CredentialRow :=
  credentials.find? fun row => row.key == (userId, cliTool)

/-- `bump_fail_count_or_revoke` on the row it hits. -/
def bumped (row : CredentialRow) (reason : String) (threshold : Int)
    (now : Timestamp) : CredentialRow :=
  let crossed := row.refreshFailCount + 1 ≥ threshold
  { row with
    refreshFailCount := row.refreshFailCount + 1
    lastRefreshError := some reason
    lastRefreshErrorAt := some now
    revokedAt := if crossed then some now else row.revokedAt
    revokeReason := if crossed then some reason else row.revokeReason
    updatedAt := now }

/-- `bump_fail_count_or_revoke`. -/
def bumpFailCountOrRevoke (reason : String) (threshold : Int) (now : Timestamp) :
    Credentials × Option (Int × Option Timestamp) :=
  (credentials.update (fun row => row.key == (userId, cliTool) && row.revokedAt.isNone)
      (fun row => bumped row reason threshold now) fun _ => rfl,
    ((credentialOf credentials userId cliTool).filter fun row => row.revokedAt.isNone).map
      fun row => ((bumped row reason threshold now).refreshFailCount,
        (bumped row reason threshold now).revokedAt))

def cleared (row : CredentialRow) (now : Timestamp) : CredentialRow :=
  { row with
    refreshFailCount := 0, lastRefreshError := none, lastRefreshErrorAt := none, updatedAt := now }

/-- `reset_fail_count_on_success`. -/
def resetFailCountOnSuccess (now : Timestamp) : Credentials :=
  credentials.update (fun row => row.key == (userId, cliTool) && row.revokedAt.isNone)
    (fun row => cleared row now) fun _ => rfl

/-- `delete`. -/
def delete : Credentials :=
  credentials.deleteWhere fun row => row.key == (userId, cliTool)

end Statements

end Forge.CliAuthRefresh
