import Forge.Library.Interleaving
import Forge.NatsPermissions
import Mathlib.Logic.Function.Basic

/-! The authorization callout of the message bus: the answer to a connect request, the tracker of
answered connections, and the revocation that kicks one. -/

namespace Forge.AuthCallout

open Forge.Library.Identifier
open Forge.Library.Interleaving
open Forge.Library.Subject (Permissions)
open Forge.Library.Text
open Forge.NatsPermissions
open Forge.OutboxPublisher
open Forge.OrchestrationView (isWhitespace)
open Forge.ResultConsumer
open Forge.Schema

/-- A row of `agents` whose `nats_connect_password` is set. -/
structure AgentNatsIdentity where
  password : String
  runtimeKind : String

structure AuthorizationRequest where
  serverId : String
  userNkey : String
  connectUser : String
  connectPassword : String
  clientCid : Nat
deriving DecidableEq

structure TrackedConnection where
  serverId : String
  clientCid : Nat
  issuedAt : Nat
deriving DecidableEq

abbrev ConnectionTracker := Uuid → Option TrackedConnection

namespace ConnectionTracker

variable (tracker : ConnectionTracker)

def record (agentId : Uuid) (serverId : String) (clientCid now : Nat) : ConnectionTracker :=
  Function.update tracker agentId (some ⟨serverId, clientCid, now⟩)

def take (agentId : Uuid) : ConnectionTracker × Option TrackedConnection :=
  (Function.update tracker agentId none, tracker agentId)

def reapExpired (maxAge now : Nat) : ConnectionTracker :=
  fun agentId => (tracker agentId).filter fun entry => decide (now - entry.issuedAt ≤ maxAge)

end ConnectionTracker

/-- `RuntimeKind::parse_legacy`. -/
def parseRuntimeKind (raw : String) : Option RuntimeKind :=
  let trimmed := (strip isWhitespace raw.toList).map Char.toLower
  [RuntimeKind.container, .cli, .api].find? fun kind => (kindText kind).toList == trimmed

/-- `ct_eq_bytes`. -/
def ctEqBytes (a b : List UInt8) : Bool :=
  let diff := (List.range (max a.length b.length)).foldl
    (fun diff i => diff ||| ((a[i]?.getD 0) ^^^ (b[i]?.getD 0))) 0
  diff == 0 && a.length == b.length

def bytes (text : String) : List UInt8 :=
  text.toUTF8.toList

/-- `DEFAULT_JWT_TTL`, in seconds. -/
def defaultJwtTtl : Nat := 15 * 60

/-- `u64::saturating_add`. -/
def saturatingAdd (left right : Nat) : Nat := min (left + right) (2 ^ 64 - 1)

structure UserClaims where
  subject : String
  audience : String
  name : String
  exp : Nat
  permissions : Permissions

structure ResponseClaims where
  subject : String
  audience : String
  exp : Nat
  jwt : Option UserClaims
  error : Option String

abbrev CalloutResponse := Option ResponseClaims

/-- A message on `$SYS.REQ.USER.AUTH`: the request that its body holds, unless it cannot be read,
whether it is encrypted, and whether it asks for a reply. -/
structure Message where
  request : Option AuthorizationRequest
  isSealed : Bool
  hasReply : Bool

/-- What the handler asks of the database, the keys, the clock, the tracker and the bus. -/
inductive Op where
  | openRequest
  | findIdentity (agentId : Uuid)
  | unauthorized (reason : String)
  | pause
  | sign
  | sealReply
  | record (agentId : Uuid) (serverId : String) (clientCid : Nat)
  | publish (response : CalloutResponse)

abbrev Answer : Op → Type
  | .findIdentity _ => Option AgentNatsIdentity
  | .sign => Nat
  | _ => Unit

abbrev Handler (α : Type) := Attempt Op Answer Unit α

def ask (operation : Op) : Handler (Answer operation) :=
  Attempt.call operation

section Handler

variable (account : String) (message : Message)

def signUserJwt (subject name : String) (permissions : Permissions) : Handler UserClaims := do
  let iat ← ask .sign
  return ⟨subject, account, name, saturatingAdd iat defaultJwtTtl, permissions⟩

def signAuthorizationResponseJwt (audience subject : String) (jwt : Option UserClaims)
    (error : Option String) : Handler ResponseClaims := do
  let iat ← ask .sign
  return ⟨subject, audience, saturatingAdd iat defaultJwtTtl, jwt, error⟩

def buildDenyResponse (subject audience reason : String) : Handler CalloutResponse := do
  ask (.unauthorized reason)
  ask .pause
  let signed ← (signAuthorizationResponseJwt audience subject none (some "auth failed")).observe
  if message.isSealed then
    match ← (ask .sealReply).observe with
    | .ok _ => return signed.toOption
    | .error _ => return none
  else return signed.toOption

def grant (request : AuthorizationRequest) (agentId : Uuid) (response : ResponseClaims) :
    Handler CalloutResponse := do
  ask (.record agentId request.serverId request.clientCid)
  return some response

/-- The tokens for an agent that proved its password. -/
def mint (request : AuthorizationRequest) (agentId : Uuid) (identity : AgentNatsIdentity) :
    Handler CalloutResponse := do
  let kind := (parseRuntimeKind identity.runtimeKind).getD .container
  let permissions := buildAgentPermissions agentId kind
  let refuse := buildDenyResponse message request.userNkey request.serverId "signing_failed"
  match ← (signUserJwt account request.userNkey ("agent-" ++ agentId.toText) permissions).observe with
  | .error _ => refuse
  | .ok inner =>
      match ← (signAuthorizationResponseJwt request.serverId request.userNkey (some inner)
          none).observe with
      | .error _ => refuse
      | .ok response =>
          if message.isSealed then
            match ← (ask .sealReply).observe with
            | .error _ => refuse
            | .ok _ => grant request agentId response
          else grant request agentId response

def authenticate (request : AuthorizationRequest) (agentId : Uuid) : Handler CalloutResponse := do
  let refuse := buildDenyResponse message request.userNkey request.serverId
  match ← (ask (.findIdentity agentId)).observe with
  | .error _ => refuse "lookup_error"
  | .ok none => refuse "agent_unknown"
  | .ok (some identity) =>
      if ctEqBytes (bytes request.connectPassword) (bytes identity.password) then
        mint account message request agentId identity
      else refuse "password_mismatch"

def handleOpened : Handler CalloutResponse :=
  match message.request with
  | none => buildDenyResponse message "" "" "bad_request"
  | some request =>
      match Uuid.parseStr request.connectUser with
      | none => buildDenyResponse message request.userNkey request.serverId "bad_request"
      | some agentId => authenticate account message request agentId

/-- `handle_inner`. -/
def handleInner : Handler CalloutResponse := do
  if message.isSealed then
    match ← (ask .openRequest).observe with
    | .error _ => buildDenyResponse message "" "" "xkey_open_failed"
    | .ok _ => handleOpened account message
  else handleOpened account message

def serve : Handler Unit := do
  let response ← handleInner account message
  if message.hasReply then
    match ← (ask (.publish response)).observe with
    | .error _ => return ()
    | .ok _ => return ()
  else return ()

end Handler

/-- `AuthCalloutService`: what a revocation knows of the server. -/
structure AuthCalloutService where
  serverName : String
  hasSysCredentials : Bool

def kickSubject (service : AuthCalloutService) : String :=
  "$SYS.REQ.SERVER." ++ service.serverName ++ ".KICK"

/-- `nats_kick_payload`. -/
def natsKickPayload (clientCid : Nat) : String :=
  "\x7b\"cid\":" ++ toString clientCid ++ "\x7d"

inductive RevokeOp where
  | take (agentId : Uuid)
  | sysClient
  | connectSys
  | publishKick (subject payload : String)

abbrev RevokeAnswer : RevokeOp → Type
  | .take _ => Option TrackedConnection
  | .sysClient => Bool
  | .connectSys => Unit
  | .publishKick _ _ => Unit

abbrev Revocation (α : Type) := Attempt RevokeOp RevokeAnswer Unit α

def request (operation : RevokeOp) : Revocation (RevokeAnswer operation) :=
  Attempt.call operation

section Revocation

variable (service : AuthCalloutService)

def kick (tracked : TrackedConnection) : Revocation Unit := do
  match ← (request (.publishKick (kickSubject service)
      (natsKickPayload tracked.clientCid))).observe with
  | .ok _ => return ()
  | .error _ => return ()

def kickTracked (tracked : TrackedConnection) : Revocation Unit := do
  if service.hasSysCredentials then
    if ← request .sysClient then kick service tracked
    else
      match ← (request .connectSys).observe with
      | .ok _ => kick service tracked
      | .error _ => return ()
  else return ()

def revoke (agentId : Uuid) : Revocation Unit := do
  match ← request (.take agentId) with
  | none => return ()
  | some tracked => kickTracked service tracked

end Revocation

end Forge.AuthCallout
