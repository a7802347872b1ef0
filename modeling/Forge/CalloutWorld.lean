import Forge.AuthCallout
import Forge.Library.Dialogue
import Forge.Library.StateMachine

/-! Several instances answer connect requests and revoke agents, beside each other and beside the
changes of the stored passwords. -/

namespace Forge.CalloutWorld

open Forge.AuthCallout
open Forge.Library.Dialogue (Call)
open Forge.Library.Identifier
open Forge.Library.Interleaving
open Forge.Library.StateMachine

abbrev Key := Nat × Nat

/-- The request that an instance works on, when its lookup was and what that found, the calls that
were made, the newest first, and the rest of the program. -/
structure Working where
  message : Message
  looked : Nat
  found : Option AgentNatsIdentity
  heard : List (Call Op fun operation => Except Unit (Answer operation))
  program : Prog Op (fun operation => Except Unit (Answer operation)) (Except Unit Unit)

/-- An instance with its own tracker, whether it keeps a client of the system account, and how many
requests it took. -/
structure Instance where
  account : String
  service : AuthCalloutService
  tracker : ConnectionTracker
  connected : Bool
  served : Nat
  working : Working

/-- A connection that an instance has recorded. -/
structure Recorded where
  key : Key
  agentId : Uuid
  serverId : String
  clientCid : Nat
  issuedAt : Nat
deriving DecidableEq

def Recorded.entry (recorded : Recorded) : TrackedConnection :=
  ⟨recorded.serverId, recorded.clientCid, recorded.issuedAt⟩

structure Reply where
  key : Key
  message : Message
  looked : Nat
  found : Option AgentNatsIdentity
  response : CalloutResponse

def Reply.allows (reply : Reply) : Option (AuthorizationRequest × Nat) := do
  let request ← reply.message.request
  let response ← reply.response
  let user ← response.jwt
  if response.error.isNone then some (request, user.exp) else none

structure Kick where
  key : Key
  subject : String
  payload : String
deriving DecidableEq

/-- A revocation at an instance: the recorded connection that it took, and its program. -/
structure Revoking where
  place : Nat
  service : AuthCalloutService
  agentId : Uuid
  took : Option Recorded
  heard : List (Call RevokeOp fun operation => Except Unit (RevokeAnswer operation))
  program : Prog RevokeOp (fun operation => Except Unit (RevokeAnswer operation)) (Except Unit Unit)

/-- The database, the instances, the answers on their way, the open connections and the kicks. The
turns, when a password was cleared, and what was recorded and taken, are history. -/
structure World where
  now : Nat
  identities : Uuid → Option AgentNatsIdentity
  instances : Nat → Instance
  revocations : Nat → Revoking
  replies : List Reply
  connections : List Reply
  kicks : List Kick
  turn : Nat
  clearedAt : Uuid → Option Nat
  recorded : List Recorded
  taken : List Key

structure Choice where
  failure : Bool
  reached : Bool

inductive Action where
  | receive (place : Nat) (message : Message)
  | handle (place : Nat) (choice : Choice)
  | begin (revocation place : Nat) (agentId : Uuid)
  | revoke (revocation : Nat) (choice : Choice)
  | reap (place : Nat)
  | store (agentId : Uuid) (identity : Option AgentNatsIdentity)
  | deliver (key : Key)
  | close (key : Key)
  | tick (seconds : Nat)

def maxAge : Nat := 2 * 15 * 60

namespace World

variable (world : World)

def latest (place : Nat) (agentId : Uuid) : Option Recorded :=
  world.recorded.find? fun recorded => recorded.key.1 == place && recorded.agentId == agentId

def setInstance (place : Nat) (changed : Instance) : World :=
  { world with instances := Function.update world.instances place changed }

def key (place : Nat) : Key := (place, (world.instances place).served)

/-- What a call of a handler does, unless it fails. -/
def answer (place : Nat) : (operation : Op) → World × Answer operation
  | .openRequest => (world, ())
  | .unauthorized _ => (world, ())
  | .pause => (world, ())
  | .sealReply => (world, ())
  | .sign => (world, world.now)
  | .findIdentity agentId =>
      let site := world.instances place
      let found := world.identities agentId
      (world.setInstance place
        { site with working := { site.working with looked := world.turn, found } }, found)
  | .record agentId serverId clientCid =>
      let site := world.instances place
      let recorded := ⟨world.key place, agentId, serverId, clientCid, world.now⟩
      ({ world with recorded := recorded :: world.recorded }.setInstance place
        { site with tracker := site.tracker.record agentId serverId clientCid world.now }, ())
  | .publish response =>
      let working := (world.instances place).working
      let reply := ⟨world.key place, working.message, working.looked, working.found, response⟩
      ({ world with replies := reply :: world.replies }, ())

def infallible : Op → Bool
  | .unauthorized _ => true
  | .pause => true
  | .record _ _ _ => true
  | _ => false

def perform (place : Nat) (choice : Choice) (operation : Op) :
    World × Except Unit (Answer operation) :=
  if choice.failure && !infallible operation then (world, .error ())
  else
    let (after, reply) := world.answer place operation
    (after, .ok reply)

def handle (place : Nat) (choice : Choice) : World :=
  match (world.instances place).working.program with
  | .done _ => world
  | .op operation next =>
      let (after, reply) := world.perform place choice operation
      let site := after.instances place
      after.setInstance place { site with working := { site.working with
        heard := ⟨operation, reply⟩ :: site.working.heard, program := next reply } }

def taking (place : Nat) (agentId : Uuid) : Option Recorded :=
  if ((world.instances place).tracker agentId).isSome then world.latest place agentId else none

/-- What a call of a revocation does. -/
def answerRevoke (revoking : Revoking) : (operation : RevokeOp) → World × RevokeAnswer operation
  | .take agentId =>
      let site := world.instances revoking.place
      let (tracker, entry) := site.tracker.take agentId
      let taken := (world.taking revoking.place agentId).toList.map Recorded.key ++ world.taken
      ({ world with taken }.setInstance revoking.place { site with tracker }, entry)
  | .sysClient => (world, (world.instances revoking.place).connected)
  | .connectSys =>
      (world.setInstance revoking.place
        { world.instances revoking.place with connected := true }, ())
  | .publishKick subject payload =>
      ({ world with
        kicks := (revoking.took.map fun recorded =>
          ⟨recorded.key, subject, payload⟩).toList ++ world.kicks }, ())

def took (revoking : Revoking) : RevokeOp → Option Recorded
  | .take agentId => world.taking revoking.place agentId
  | _ => revoking.took

def performRevoke (revoking : Revoking) (choice : Choice) (operation : RevokeOp) :
    World × Except Unit (RevokeAnswer operation) :=
  let (after, reply) := world.answerRevoke revoking operation
  match operation with
  | .take _ => (after, .ok reply)
  | .sysClient => (after, .ok reply)
  | .connectSys => if choice.failure then (world, .error ()) else (after, .ok reply)
  | .publishKick _ _ =>
      if choice.failure then (if choice.reached then after else world, .error ())
      else (after, .ok reply)

/-- The next call of a revocation. -/
def revoke (revocation : Nat) (choice : Choice) : World :=
  let revoking := world.revocations revocation
  match revoking.program with
  | .done _ => world
  | .op operation next =>
      let (after, reply) := world.performRevoke revoking choice operation
      { after with
        revocations := Function.update after.revocations revocation
          { revoking with
            took := world.took revoking operation
            heard := ⟨operation, reply⟩ :: revoking.heard
            program := next reply } }

def lives (now : Nat) (reply : Reply) : Bool :=
  reply.allows.any fun allowed => decide (now < allowed.2)

end World

/-- An instance takes a request when it is done with the one before. -/
def exec (world : World) (action : Action) : World :=
  let world := { world with turn := world.turn + 1 }
  match action with
  | .receive place message =>
      let site := world.instances place
      if site.working.program.isDone then
        world.setInstance place { site with
          served := site.served + 1
          working := ⟨message, 0, none, [], serve site.account message⟩ }
      else world
  | .handle place choice => world.handle place choice
  | .begin revocation place agentId =>
      let service := (world.instances place).service
      if (world.revocations revocation).program.isDone then
        { world with
          revocations := Function.update world.revocations revocation
            ⟨place, service, agentId, none, [], AuthCallout.revoke service agentId⟩ }
      else world
  | .revoke revocation choice => world.revoke revocation choice
  | .reap place =>
      let site := world.instances place
      world.setInstance place { site with tracker := site.tracker.reapExpired maxAge world.now }
  | .store agentId identity =>
      { world with
        identities := Function.update world.identities agentId identity
        clearedAt := Function.update world.clearedAt agentId
          (if identity.isNone then some world.turn else none) }
  | .deliver key =>
      { world with
        replies := world.replies.filter fun reply => reply.key != key
        connections := (world.replies.filter fun reply =>
          reply.key == key && World.lives world.now reply) ++ world.connections }
  | .close key =>
      { world with connections := world.connections.filter fun reply => reply.key != key }
  | .tick seconds =>
      { world with
        now := world.now + seconds
        connections := world.connections.filter (World.lives (world.now + seconds)) }

/-- Nothing was received, recorded or revoked yet. -/
structure Fresh (world : World) : Prop where
  idle : ∀ place, (world.instances place).working.program = .done (.ok ())
  heard : ∀ place, (world.instances place).working.heard = []
  tracker : ∀ place agentId, (world.instances place).tracker agentId = none
  revocations : ∀ revocation, (world.revocations revocation).program = .done (.ok ())
    ∧ (world.revocations revocation).took = none ∧ (world.revocations revocation).heard = []
  replies : world.replies = []
  connections : world.connections = []
  kicks : world.kicks = []
  clearedAt : ∀ agentId, world.clearedAt agentId = none
  recorded : world.recorded = []
  taken : world.taken = []

def Reached : World → Prop :=
  Reachable exec Fresh fun _ _ => True

end Forge.CalloutWorld
