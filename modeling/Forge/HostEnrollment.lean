import Forge.Library.Identifier
import Forge.Library.KeyedTable
import Forge.Schema

/-! The enrollment of agents that run on a host: calls with an idempotency key, the record that a
replay finds, and the transaction that creates an agent with its record. -/

namespace Forge.HostEnrollment

open Forge.Library.Identifier
open Forge.Library.KeyedTable
open Forge.Schema

/-- The primary key of `enrollment_idempotency`. -/
structure EnrollmentKey where
  orgId : Uuid
  userId : Uuid
  key : String
deriving DecidableEq, Repr

structure EnrollmentIdempotency where
  key : EnrollmentKey
  agentId : Uuid
  expiresAt : Timestamp
deriving DecidableEq, Repr

structure HostAgent where
  id : Uuid
  organizationId : Uuid
  userId : Uuid
deriving DecidableEq, Repr

structure EnrollmentDb where
  agents : Table HostAgent HostAgent.id
  records : Table EnrollmentIdempotency EnrollmentIdempotency.key

namespace EnrollmentDb

variable (db : EnrollmentDb)

/-- `lookup`: the agent of an unexpired record. -/
def lookup (key : EnrollmentKey) (now : Timestamp) : Option Uuid :=
  (db.records.find? fun row => row.key = key && now < row.expiresAt).map
    EnrollmentIdempotency.agentId

/-- `create_aggregate_in_tx`; none when the identifier is taken. -/
def createAggregateInTx (agent : HostAgent) : Option EnrollmentDb :=
  (db.agents.insert? agent).map fun agents => { db with agents }

/-- `store_in_tx`: a record under the same key, expired or not, stays. -/
def storeInTx (row : EnrollmentIdempotency) : EnrollmentDb :=
  match db.records.insert? row with
  | some records => { db with records }
  | none => db

/-- `find_with_owner_by_id` finds the agent in its organisation. -/
def hasAgent (organizationId agentId : Uuid) : Bool :=
  db.agents.any fun agent => agent.id = agentId && agent.organizationId = organizationId

def deleteAgent (agentId : Uuid) : EnrollmentDb where
  agents := db.agents.deleteWhere fun agent => agent.id = agentId
  records := db.records.deleteWhere fun row => row.agentId = agentId

end EnrollmentDb

/-- What becomes of a transaction: it is committed; or it fails, with or without having taken
effect. -/
inductive Commit where
  | committed
  | failed (reached : Bool)
deriving DecidableEq, Repr

def Commit.reached : Commit → Bool
  | committed => true
  | failed reached => reached

/-- Where `enroll` stands: past the validation, past a lookup without a record, in a transaction
since some time, past its commit, on the replay of an agent, or at its end. -/
inductive Stage where
  | validated
  | missed
  | begun (startedAt : Timestamp)
  | created (agentId : Uuid)
  | replaying (agentId : Uuid)
  | returned (agentId : Uuid)
  | rejected
deriving DecidableEq, Repr

def Stage.agent? : Stage → Option Uuid
  | created agentId | replaying agentId | returned agentId => some agentId
  | _ => none

structure Call where
  key : EnrollmentKey
  stage : Stage
deriving DecidableEq, Repr

/-- A step of a call. It may fail at any of them; a commit draws the identifier of the agent. -/
inductive Input where
  | lookup
  | begin
  | commit (agentId : Uuid) (commit : Commit)
  | finish
  | fail
deriving DecidableEq, Repr

inductive Action where
  | accept (key : EnrollmentKey)
  | step (i : Nat) (input : Input)
  | delete (agentId : Uuid)
  | wait (duration : Nat)
deriving DecidableEq, Repr

structure Enrollment where
  row : EnrollmentIdempotency
  deleted : Bool
deriving DecidableEq, Repr

/-- The database, the clock and the calls. `history` records the created agents, the last one
first. -/
structure World where
  db : EnrollmentDb
  now : Timestamp
  calls : List Call
  history : List Enrollment

namespace World

variable (world : World)

def setStage (i : Nat) (call : Call) (stage : Stage) : World :=
  { world with calls := world.calls.set i { call with stage } }

/-- The transaction of the cold path: the agent and its record, which expires a day after the
transaction started. -/
def enrollInTx (key : EnrollmentKey) (agentId : Uuid) (startedAt : Timestamp) : Option World :=
  let row : EnrollmentIdempotency := ⟨key, agentId, startedAt + 86400 * second⟩
  (world.db.createAggregateInTx ⟨agentId, key.orgId, key.userId⟩).map fun db =>
    { world with db := db.storeInTx row, history := ⟨row, false⟩ :: world.history }

/-- `enroll`, one step at a time. -/
def advance (i : Nat) (call : Call) : Stage → Input → World
  | .validated, .lookup =>
      match world.db.lookup call.key world.now with
      | some agentId => world.setStage i call (.replaying agentId)
      | none => world.setStage i call .missed
  | .missed, .begin => world.setStage i call (.begun world.now)
  | .begun startedAt, .commit agentId commit =>
      match world.enrollInTx call.key agentId startedAt with
      | some after =>
          if commit.reached then
            after.setStage i call (if commit = .committed then .created agentId else .rejected)
          else world.setStage i call .rejected
      | none => world.setStage i call .rejected
  | .created agentId, .finish | .replaying agentId, .finish =>
      world.setStage i call
        (if world.db.hasAgent call.key.orgId agentId then .returned agentId else .rejected)
  | .returned _, _ | .rejected, _ => world
  | _, .fail => world.setStage i call .rejected
  | _, _ => world

def delete (agentId : Uuid) : World :=
  { world with
    db := world.db.deleteAgent agentId
    history := world.history.map fun enrollment =>
      if enrollment.row.agentId = agentId then { enrollment with deleted := true }
      else enrollment }

def exec : Action → World
  | .accept key => { world with calls := world.calls ++ [⟨key, .validated⟩] }
  | .step i input =>
      match world.calls[i]? with
      | some call => world.advance i call call.stage input
      | none => world
  | .delete agentId => world.delete agentId
  | .wait duration => { world with now := world.now + duration }

end World

end Forge.HostEnrollment
