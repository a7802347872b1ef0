import Forge.CalloutWorld

/-! What the programs of a callout and of a revocation may do next, by what they have heard. -/

namespace Forge.CalloutRules

open Forge.AuthCallout hiding revoke
open Forge.Library.Dialogue
open Forge.Library.Identifier
open Forge.Library.StateMachine (Reachable)

abbrev HandlerCall := Call Op fun operation => Except Unit (Answer operation)

abbrev Heard := List HandlerCall

abbrev RevokeCall := Call RevokeOp fun operation => Except Unit (RevokeAnswer operation)

abbrev RevokeHeard := List RevokeCall

/-! ## The handler -/

def isLookup : Op → Bool
  | .findIdentity _ => true
  | _ => false

def isRecord : Op → Bool
  | .record _ _ _ => true
  | _ => false

def Proved (message : Message) (heard : Heard) (request : AuthorizationRequest) (agentId : Uuid) :
    Prop :=
  message.request = some request ∧ Uuid.parseStr request.connectUser = some agentId
    ∧ ∃ identity, ⟨.findIdentity agentId, .ok (some identity)⟩ ∈ heard
      ∧ ctEqBytes (bytes request.connectPassword) (bytes identity.password) = true

/-- A token is given to a proved agent, after its connection was recorded, and dated before. -/
def Vouched (message : Message) (response : CalloutResponse) (heard : Heard) : Prop :=
  ∀ answer user, response = some answer → answer.jwt = some user →
    ∃ request agentId iat, Proved message heard request agentId
      ∧ ⟨.record agentId request.serverId request.clientCid, .ok ()⟩ ∈ heard
      ∧ ⟨.sign, .ok iat⟩ ∈ heard ∧ user.exp ≤ iat + defaultJwtTtl

/-- What the handler may do next: one lookup, signatures before the record, and a record of a proved
agent. -/
def MayHandle (message : Message) (heard : Heard) : Op → Prop
  | .findIdentity _ => ∀ call ∈ heard, isLookup call.op = false
  | .sign => ∀ call ∈ heard, isRecord call.op = false
  | .record agentId serverId clientCid => (∀ call ∈ heard, isRecord call.op = false)
      ∧ ∃ request, Proved message heard request agentId
        ∧ serverId = request.serverId ∧ clientCid = request.clientCid
  | .publish response => Vouched message response heard
  | _ => True

section Handler

variable {account : String} {message : Message} {heard : Heard}

theorem Proved.cons {request : AuthorizationRequest} {agentId : Uuid}
    (proved : Proved message heard request agentId) (call) :
    Proved message (call :: heard) request agentId := by
  obtain ⟨asked, named, identity, found, same⟩ := proved
  exact ⟨asked, named, identity, List.mem_cons_of_mem _ found, same⟩

theorem vouched_of_denied {response : CalloutResponse}
    (denied : ∀ answer, response = some answer → answer.jwt = none) :
    Vouched message response heard := by
  intro answer user same token
  rw [denied answer same] at token
  cases token

abbrev Answers (message : Message) (outcome : Except Unit CalloutResponse) (later : Heard) : Prop :=
  ∀ response, outcome = .ok response → Vouched message response later

theorem obeys_signResponse {audience subject : String} {jwt : Option UserClaims}
    {error : Option String} (unrecorded : ∀ call ∈ heard, isRecord call.op = false) :
    Obeys (MayHandle message)
      (fun outcome later => (∃ reply, later = ⟨.sign, reply⟩ :: heard)
        ∧ ∀ answer, outcome = .ok answer → answer.jwt = jwt)
      (signAuthorizationResponseJwt audience subject jwt error) heard := by
  refine obeys_bind (obeys_call unrecorded) ?_ ?_
  · rintro iat later rfl
    exact ⟨⟨_, rfl⟩, fun answer same => by cases same; rfl⟩
  · rintro err later rfl
    exact ⟨⟨_, rfl⟩, nofun⟩

theorem saturatingAdd_le (left right : Nat) : saturatingAdd left right ≤ left + right :=
  Nat.min_le_left _ _

theorem obeys_signUser {subject name : String} {permissions : Library.Subject.Permissions}
    (unrecorded : ∀ call ∈ heard, isRecord call.op = false) :
    Obeys (MayHandle message)
      (fun outcome later => (∃ reply, later = ⟨.sign, reply⟩ :: heard)
        ∧ ∀ user, outcome = .ok user →
          ∃ iat, ⟨.sign, .ok iat⟩ ∈ later ∧ user.exp ≤ iat + defaultJwtTtl)
      (signUserJwt account subject name permissions) heard := by
  refine obeys_bind (obeys_call unrecorded) ?_ ?_
  · rintro iat later rfl
    refine ⟨⟨_, rfl⟩, fun user same => ⟨iat, .head _, ?_⟩⟩
    cases same
    exact saturatingAdd_le _ _
  · rintro err later rfl
    exact ⟨⟨_, rfl⟩, nofun⟩

theorem obeys_deny {subject audience reason : String}
    (unrecorded : ∀ call ∈ heard, isRecord call.op = false) :
    Obeys (MayHandle message) (Answers message)
      (buildDenyResponse message subject audience reason) heard := by
  have given : ∀ (signed : Except Unit ResponseClaims) (later : Heard),
      (∀ answer, signed = .ok answer → answer.jwt = none) →
        Answers message (.ok signed.toOption) later := by
    rintro signed later denied response ⟨⟩
    refine vouched_of_denied fun answer same => denied answer ?_
    cases signed with
    | ok value => exact congrArg Except.ok (Option.some.inj same)
    | error err => cases same
  refine obeys_bind (obeys_call trivial) ?_ nofun
  rintro ⟨⟩ later rfl
  refine obeys_bind (obeys_call trivial) ?_ nofun
  rintro ⟨⟩ later rfl
  refine obeys_observe (obeys_signResponse ?_) ?_
  · exact List.forall_mem_cons.2 ⟨rfl, List.forall_mem_cons.2 ⟨rfl, unrecorded⟩⟩
  rintro signed later ⟨-, denied⟩
  split
  · refine obeys_observe (obeys_call trivial) ?_
    rintro (err | done) later' -
    · rintro response ⟨⟩
      exact vouched_of_denied nofun
    · exact given signed _ denied
  · exact given signed _ denied

theorem obeys_grant {request : AuthorizationRequest} {agentId : Uuid} {answer : ResponseClaims}
    {user : UserClaims} {iat : Nat} (unrecorded : ∀ call ∈ heard, isRecord call.op = false)
    (proved : Proved message heard request agentId) (token : answer.jwt = some user)
    (signed : ⟨.sign, .ok iat⟩ ∈ heard) (expires : user.exp ≤ iat + defaultJwtTtl) :
    Obeys (MayHandle message) (Answers message) (grant request agentId answer) heard := by
  refine obeys_bind (obeys_call ⟨unrecorded, request, proved, rfl, rfl⟩) ?_ ?_
  · rintro ⟨⟩ later rfl response ⟨⟩ answer' user' ⟨⟩ token'
    rw [token] at token'
    cases token'
    exact ⟨request, agentId, iat, proved.cons _, .head _, .tail _ signed, expires⟩
  · rintro err later - response ⟨⟩

theorem obeys_mint {request : AuthorizationRequest} {agentId : Uuid}
    {identity : AgentNatsIdentity} (unrecorded : ∀ call ∈ heard, isRecord call.op = false)
    (proved : Proved message heard request agentId) :
    Obeys (MayHandle message) (Answers message) (mint account message request agentId identity)
      heard := by
  unfold mint
  refine obeys_observe (obeys_signUser unrecorded) ?_
  rintro (err | user) later ⟨⟨reply, rfl⟩, dated⟩
  · exact obeys_deny (List.forall_mem_cons.2 ⟨rfl, unrecorded⟩)
  obtain ⟨iat, signed, expires⟩ := dated user rfl
  have unrecorded : ∀ call ∈ (⟨.sign, reply⟩ :: heard : Heard), isRecord call.op = false :=
    List.forall_mem_cons.2 ⟨rfl, unrecorded⟩
  refine obeys_observe (obeys_signResponse unrecorded) ?_
  rintro (err | answer) later ⟨⟨second, rfl⟩, token⟩
  · exact obeys_deny (List.forall_mem_cons.2 ⟨rfl, unrecorded⟩)
  have token := token answer rfl
  dsimp only
  split
  · refine obeys_observe (obeys_call trivial) ?_
    rintro (err | done) later rfl
    · refine obeys_deny (List.forall_mem_cons.2 ⟨rfl, List.forall_mem_cons.2 ⟨rfl, unrecorded⟩⟩)
    · refine obeys_grant (List.forall_mem_cons.2 ⟨rfl, List.forall_mem_cons.2 ⟨rfl, unrecorded⟩⟩)
        (((proved.cons _).cons _).cons _) token (.tail _ (.tail _ signed)) expires
  · exact obeys_grant (List.forall_mem_cons.2 ⟨rfl, unrecorded⟩) ((proved.cons _).cons _) token
      (.tail _ signed) expires

theorem obeys_authenticate {request : AuthorizationRequest} {agentId : Uuid}
    (asked : message.request = some request)
    (named : Uuid.parseStr request.connectUser = some agentId)
    (first : ∀ call ∈ heard, isLookup call.op = false ∧ isRecord call.op = false) :
    Obeys (MayHandle message) (Answers message) (authenticate account message request agentId)
      heard := by
  have unrecorded : ∀ reply, ∀ call ∈ (⟨.findIdentity agentId, reply⟩ :: heard : Heard),
      isRecord call.op = false :=
    fun _ => List.forall_mem_cons.2 ⟨rfl, fun call member => (first call member).2⟩
  unfold authenticate
  refine obeys_observe (obeys_call fun call member => (first call member).1) ?_
  rintro (err | found) later rfl
  · exact obeys_deny (unrecorded _)
  cases found with
  | none => exact obeys_deny (unrecorded _)
  | some identity =>
      dsimp only
      split
      case isTrue same =>
          exact obeys_mint (unrecorded _) ⟨asked, named, identity, .head _, same⟩
      case isFalse => exact obeys_deny (unrecorded _)

theorem obeys_handleOpened
    (first : ∀ call ∈ heard, isLookup call.op = false ∧ isRecord call.op = false) :
    Obeys (MayHandle message) (Answers message) (handleOpened account message) heard := by
  have unrecorded : ∀ call ∈ heard, isRecord call.op = false :=
    fun call member => (first call member).2
  unfold handleOpened
  split
  case h_1 => exact obeys_deny unrecorded
  case h_2 request asked =>
      split
      case h_1 => exact obeys_deny unrecorded
      case h_2 agentId named => exact obeys_authenticate asked named first

theorem obeys_handleInner :
    Obeys (MayHandle message) (Answers message) (handleInner account message) [] := by
  unfold handleInner
  split
  · refine obeys_observe (obeys_call trivial) ?_
    rintro (err | done) later rfl
    · exact obeys_deny (List.forall_mem_singleton.2 rfl)
    · exact obeys_handleOpened (List.forall_mem_singleton.2 ⟨rfl, rfl⟩)
  · exact obeys_handleOpened nofun

theorem obeys_serve :
    Obeys (MayHandle message) (fun _ _ => True) (serve account message) [] := by
  refine obeys_bind obeys_handleInner ?_ fun _ _ _ => trivial
  intro response later vouched
  split
  · refine obeys_observe (obeys_call (vouched response rfl)) ?_
    rintro (err | done) later' - <;> trivial
  · trivial

end Handler

/-! ## The revocation -/

def isKick : RevokeOp → Bool
  | .publishKick _ _ => true
  | _ => false

/-- One look at the tracker, and one kick for what that took. -/
def MayRevoke (agentId : Uuid) (heard : RevokeHeard) : RevokeOp → Prop
  | .take asked => asked = agentId ∧ heard = []
  | .publishKick _ payload => (∀ call ∈ heard, isKick call.op = false)
      ∧ ∃ tracked, ⟨.take agentId, .ok (some tracked)⟩ ∈ heard
        ∧ payload = natsKickPayload tracked.clientCid
  | _ => True

def Failed (heard : RevokeHeard) : Prop :=
  ∃ call ∈ heard, ∃ err, call.reply = .error err

def Done (service : AuthCalloutService) (agentId : Uuid) (heard : RevokeHeard) : Prop :=
  ∀ tracked, ⟨.take agentId, .ok (some tracked)⟩ ∈ heard → service.hasSysCredentials = true →
    Failed heard ∨ ⟨.publishKick (kickSubject service) (natsKickPayload tracked.clientCid),
      .ok ()⟩ ∈ heard

section Revocation

variable {service : AuthCalloutService} {agentId : Uuid} {heard : RevokeHeard}

theorem obeys_kick {tracked : TrackedConnection} (unkicked : ∀ call ∈ heard, isKick call.op = false)
    (taken : ⟨.take agentId, .ok (some tracked)⟩ ∈ heard)
    (only : ∀ other, ⟨.take agentId, .ok (some other)⟩ ∈ heard → other = tracked) :
    Obeys (MayRevoke agentId) (fun _ later => Done service agentId later)
      (kick service tracked) heard := by
  refine obeys_observe (obeys_call ⟨unkicked, tracked, taken, rfl⟩) ?_
  rintro (err | done) later rfl other member -
  · exact .inl ⟨_, .head _, err, rfl⟩
  · obtain rfl := only other (by simpa using member)
    exact .inr (.head _)

theorem obeys_revoke :
    Obeys (MayRevoke agentId) (fun _ later => Done service agentId later)
      (AuthCallout.revoke service agentId) [] := by
  refine obeys_bind (obeys_call ⟨rfl, rfl⟩) ?_ ?_
  · rintro entry later rfl
    cases entry with
    | none =>
        intro tracked member
        simp at member
    | some tracked =>
        show Obeys _ _ (kickTracked service tracked) _
        unfold kickTracked
        split
        case isFalse without =>
            intro _ _ account
            exact absurd account without
        case isTrue account =>
            refine obeys_bind (obeys_call trivial) ?_ ?_
            · rintro connected later rfl
              split
              case isTrue =>
                  refine obeys_kick ?_ (.tail _ (.head _)) fun other member => ?_
                  · exact List.forall_mem_cons.2 ⟨rfl, List.forall_mem_singleton.2 rfl⟩
                  · simpa using member
              case isFalse =>
                  refine obeys_observe (obeys_call trivial) ?_
                  rintro (err | done) later rfl
                  · exact fun _ _ _ => .inl ⟨_, .head _, err, rfl⟩
                  · refine obeys_kick ?_ (.tail _ (.tail _ (.head _))) fun other member => ?_
                    · exact List.forall_mem_cons.2 ⟨rfl, List.forall_mem_cons.2
                        ⟨rfl, List.forall_mem_singleton.2 rfl⟩⟩
                    · simpa using member
            · rintro err later rfl
              exact fun _ _ _ => .inl ⟨_, .head _, err, rfl⟩
  · rintro err later rfl
    exact fun _ _ _ => .inl ⟨_, .head _, err, rfl⟩

end Revocation

end Forge.CalloutRules
