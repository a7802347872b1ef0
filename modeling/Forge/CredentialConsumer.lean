import Forge.HookEvents
import Forge.ResultConsumer
import Mathlib.Algebra.GroupWithZero.Nat

/-! The consumer of credential syncs: the checks of a signed file map, and the upsert of the
encrypted blob under the owner of the agent. -/

namespace Forge.CredentialConsumer

open Forge.HookEvents
open Forge.Library.Identifier
open Forge.Library.JsonDocument
open Forge.Library.KeyedTable
open Forge.ResultConsumer
open Forge.Schema

inductive CliToolKind where
  | claude | codex | gemini | opencode
deriving DecidableEq, Repr

namespace CliToolKind

def asStr : CliToolKind → String
  | claude => "claude"
  | codex => "codex"
  | gemini => "gemini"
  | opencode => "opencode"

def parseLegacy (raw : String) : Option CliToolKind :=
  let text := String.ofList ((trim raw).toList.map Char.toLower)
  [claude, codex, gemini, opencode].find? fun kind => kind.asStr == text

end CliToolKind

/-- `CredentialSyncMessage`; the file map is ordered by name. -/
structure CredentialSyncMessage where
  agentId : Uuid
  organizationId : Uuid
  cliTool : String
  files : List (String × String)
deriving DecidableEq

namespace CredentialSyncMessage

def parseFiles (value : Json) : Option (List (String × String)) :=
  match value with
  | .object fields => do
      let entries ← (firstByKey fields).mapM fun field => field.2.asStr.map (Prod.mk field.1)
      return entries.insertionSort fun left right => left.1 ≤ right.1
  | _ => none

def fields (body : Json) : Option (Json × Json × Json × Json) :=
  match body with
  | .array [agentId, organizationId, cliTool, files] =>
      some (agentId, organizationId, cliTool, files)
  | .object _ => do
      return (← body.get "agentId", ← body.get "orgId", ← body.get "cliTool", ← body.get "files")
  | _ => none

/-- `serde_json::from_value::<CredentialSyncMessage>`. -/
def fromValue (body : Json) : Option CredentialSyncMessage := do
  let (agentId, organizationId, cliTool, files) ← fields body
  return {
    agentId := ← TaskResult.parseUuid agentId
    organizationId := ← TaskResult.parseUuid organizationId
    cliTool := ← cliTool.asStr
    files := ← parseFiles files }

/-- `serde_json::to_string` of the file map. -/
def plaintext (message : CredentialSyncMessage) : String :=
  let entry := fun (file : String × String) => Json.quote file.1 ++ ":" ++ Json.quote file.2
  "\x7b" ++ String.intercalate "," (message.files.map entry) ++ "\x7d"

end CredentialSyncMessage

/-- `MAX_CREDENTIAL_FILES`. -/
def maxCredentialFiles : Nat := 10

/-- `MAX_CREDENTIAL_FILE_BYTES`. -/
def maxCredentialFileBytes : Nat := 64 * 1024

/-- `MAX_CREDENTIAL_TOTAL_BYTES`. -/
def maxCredentialTotalBytes : Nat := 256 * 1024

/-- `parse_agent_id_from_creds_subject`. -/
def parseAgentIdFromCredsSubject (subject : String) : Option Uuid :=
  let head := "creds.".toList
  let rest := subject.toList.drop head.length
  if head.isPrefixOf subject.toList && !rest.contains '.' then Uuid.parseStr (String.ofList rest)
  else none

/-- The columns of `agents` that the two lookups read. -/
structure AgentRow where
  id : Uuid
  organizationId : Uuid
  userId : Uuid
  hmacSecret : Option String
deriving DecidableEq

abbrev Agents := Table AgentRow AgentRow.id

/-- A row of `user_cli_credentials`. -/
structure CredentialRow where
  userId : Uuid
  cliTool : String
  encryptedCredentials : String
  revokedAt : Option Timestamp
  revokeReason : Option String
  refreshFailCount : Int
  lastRefreshError : Option String
  lastRefreshErrorAt : Option Timestamp
  updatedAt : Timestamp
deriving DecidableEq

def CredentialRow.key (row : CredentialRow) : Uuid × String :=
  (row.userId, row.cliTool)

abbrev Credentials := Table CredentialRow CredentialRow.key

inductive HandleError where
  | unauthorized (reason : String)
  | transient (stage : String)
deriving DecidableEq, Repr

/-- A message as the stream delivers it: subject, decoded envelope, and the clock of the
consumer when it reads it. -/
structure Delivery where
  subject : String
  payload : Option SignedEnvelope
  nowSecs : Int

structure Upsert where
  userId : Uuid
  cliTool : String
  plaintext : String
  timestamp : Int
deriving DecidableEq

section Consumer

-- `SignedEnvelope::verify` under a secret.
variable (verify : String → SignedEnvelope → Bool)

def checkSizes (message : CredentialSyncMessage) : Except HandleError Unit := do
  let sizes := message.files.map fun file => file.2.utf8ByteSize
  if message.files.length > maxCredentialFiles then throw (.unauthorized "payload_oversized")
  if sizes.sum > maxCredentialTotalBytes then throw (.unauthorized "payload_oversized")
  if sizes.any fun size => maxCredentialFileBytes < size then
    throw (.unauthorized "payload_oversized")

def lookup (seen : Option Agents) (stage : String) (agentId : Uuid) :
    Except HandleError (Option AgentRow) :=
  match seen with
  | none => .error (.transient stage)
  | some agents => .ok (agents.find? fun agent => agent.id == agentId)

/-- `handle_message` up to the writer. The secret and the owner are read from two databases. -/
def authorize (secretSeen ownerSeen : Option Agents) (delivery : Delivery) :
    Except HandleError Upsert := do
  let subjectAgent ← (parseAgentIdFromCredsSubject delivery.subject).elim
    (.error (.unauthorized "bad_subject")) .ok
  let envelope ← delivery.payload.elim (.error (.unauthorized "envelope_decode_failed")) .ok
  if envelope.agentId ≠ subjectAgent.toText then
    throw (.unauthorized "envelope_agent_mismatch")
  if withinReplayWindow delivery.nowSecs envelope.timestamp = false then
    throw (.unauthorized "timestamp_outside_window")
  let known ← lookup secretSeen "hmac_lookup" subjectAgent
  let secret ← (known.bind fun agent => agent.hmacSecret).elim
    (.error (.unauthorized "agent_unknown")) .ok
  if verify secret envelope = false then throw (.unauthorized "signature_mismatch")
  let message ← (CredentialSyncMessage.fromValue envelope.payload).elim
    (.error (.unauthorized "file_map_invalid")) .ok
  checkSizes message
  if message.agentId ≠ subjectAgent then throw (.unauthorized "payload_agent_mismatch")
  let tool ← (CliToolKind.parseLegacy message.cliTool).elim
    (.error (.unauthorized "cli_tool_unknown")) .ok
  let owner ← (← lookup ownerSeen "owner_lookup" subjectAgent).elim
    (.error (.unauthorized "agent_row_missing")) .ok
  if message.organizationId ≠ owner.organizationId then
    throw (.unauthorized "payload_org_mismatch")
  return ⟨owner.userId, tool.asStr, message.plaintext, envelope.timestamp⟩

end Consumer

structure Cipher where
  encrypt : String → String → String
  decrypt : String → Option String
  decrypt_encrypt : ∀ nonce text, decrypt (encrypt nonce text) = some text

/-- `upsert_encrypted_by_user_id` of the repository. -/
def upsertEncrypted (credentials : Credentials) (userId : Uuid) (cliTool ciphertext : String)
    (now : Timestamp) : Credentials :=
  let row : CredentialRow := {
    userId, cliTool
    encryptedCredentials := ciphertext
    revokedAt := none
    revokeReason := none
    refreshFailCount := 0
    lastRefreshError := none
    lastRefreshErrorAt := none
    updatedAt := now }
  match credentials.insert? row with
  | some grown => grown
  | none =>
      credentials.update (fun old => old.key == row.key)
        (fun old => { row with userId := old.userId, cliTool := old.cliTool }) fun _ => rfl

def stored (cipher : Cipher) (credentials : Credentials) (userId : Uuid) (cliTool : String) :
    Option String :=
  (credentials.find? fun row => row.key == (userId, cliTool)).bind fun row =>
    cipher.decrypt row.encryptedCredentials

section Writes

variable {cipher : Cipher} {credentials : Credentials}

theorem find?_upsertEncrypted (userId otherUser : Uuid) (cliTool otherTool ciphertext : String)
    (now : Timestamp) :
    (upsertEncrypted credentials userId cliTool ciphertext now).find?
        (fun row => row.key == (otherUser, otherTool)) =
      if (otherUser, otherTool) = (userId, cliTool) then
        some ⟨userId, cliTool, ciphertext, none, none, 0, none, none, now⟩
      else credentials.find? fun row => row.key == (otherUser, otherTool) := by
  have swapped : ((userId, cliTool) == (otherUser, otherTool)) =
      decide ((otherUser, otherTool) = (userId, cliTool)) := by
    rw [beq_eq_decide]
    exact decide_eq_decide.2 eq_comm
  unfold upsertEncrypted
  dsimp only
  split
  case h_1 grown inserted =>
    rw [Table.find?_insert inserted, CredentialRow.key, swapped]
    simp
  case h_2 taken =>
    obtain ⟨old, member, same⟩ := Table.insert?_eq_none.1 taken
    split
    case isTrue hit =>
      rw [hit]
      obtain ⟨rfl, rfl⟩ := Prod.mk.inj same
      exact Table.find?_key (Table.mem_update_of_hit member (beq_self_eq_true _)) rfl
    case isFalse miss =>
      refine (Table.find?_update (by exact fun _ => rfl)).trans ?_
      cases found : credentials.find? fun row => row.key == (otherUser, otherTool) with
      | none => rfl
      | some row =>
          have key := beq_iff_eq.1 (Table.mem_of_find? found).2
          have other : (row.key == (userId, cliTool)) = false := by
            rw [key, beq_eq_false_iff_ne]
            exact miss
          show some (if row.key == (userId, cliTool) then _ else row) = some row
          rw [if_neg (by simp [other])]

theorem stored_upsertEncrypted (userId otherUser : Uuid)
    (cliTool otherTool nonce text : String) (now : Timestamp) :
    stored cipher (upsertEncrypted credentials userId cliTool (cipher.encrypt nonce text) now)
        otherUser otherTool =
      if (otherUser, otherTool) = (userId, cliTool) then some text
      else stored cipher credentials otherUser otherTool := by
  rw [stored, find?_upsertEncrypted]
  split
  · exact cipher.decrypt_encrypt nonce text
  · rfl

end Writes

end Forge.CredentialConsumer
