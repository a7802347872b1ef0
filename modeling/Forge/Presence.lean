import Forge.ParticipantLiveness
import Mathlib.Logic.Function.Basic

/-! The presence of agents: a key for each of them in Redis, the fallback to the database, and the
two paths of a heartbeat and of the offline sweep. -/

namespace Forge.Presence

open Forge.Library.Identifier
open Forge.OrchestrationService
open Forge.ParticipantLiveness
open Forge.Schema

structure Key where
  fingerprint : List Char
  expires : Timestamp
deriving DecidableEq, Repr

inductive RedisRecord where
  | steadyState
  | transition
  | unavailable
deriving DecidableEq, Repr

/-- What becomes of a command: there is no connection; it fails, with or without having taken
effect; or it is answered. -/
inductive Redis where
  | down
  | failed (reached : Bool)
  | answered
deriving DecidableEq, Repr

def Redis.reached : Redis → Bool
  | down => false
  | failed reached => reached
  | answered => true

/-- The backend with the keys in Redis. `enabled` stands for the flag and the handle, and
`staleAfter` counts seconds. -/
structure Backend where
  enabled : Bool
  staleAfter : Nat
  keys : Uuid → Option Key
  fallbackSince : Option Timestamp
  lastSteadySkip : Option Timestamp

namespace Backend

variable (backend : Backend)

/-- `stale_after` as a length of time. -/
def window : Timestamp :=
  backend.staleAfter * second

def live (agentId : Uuid) (now : Timestamp) : Option Key :=
  (backend.keys agentId).filter fun key => now < key.expires

def setKey (agentId : Uuid) (fingerprint : List Char) (now : Timestamp) : Backend :=
  { backend with
    keys := Function.update backend.keys agentId (some ⟨fingerprint, now + backend.window⟩) }

def noteFallback (now : Timestamp) : Backend :=
  { backend with fallbackSince := backend.fallbackSince.or (some now) }

def clearFallback : Backend :=
  { backend with fallbackSince := none }

/-- `record`: the `SET` at one time, the flags at a later one. -/
def record (agentId : Uuid) (fingerprint : List Char) (redis : Redis) (setAt noteAt : Timestamp) :
    Backend × RedisRecord :=
  if !backend.enabled then (backend, .unavailable)
  else
    match redis with
    | .down => (backend.noteFallback noteAt, .unavailable)
    | .failed reached =>
        let after := if reached then backend.setKey agentId fingerprint setAt else backend
        (after.noteFallback noteAt, .unavailable)
    | .answered =>
        let after := (backend.setKey agentId fingerprint setAt).clearFallback
        if (backend.live agentId setAt).map Key.fingerprint = some fingerprint then
          ({ after with lastSteadySkip := some noteAt }, .steadyState)
        else (after, .transition)

/-- `forget`. -/
def forget (agentId : Uuid) (redis : Redis) : Backend :=
  if redis.reached then { backend with keys := Function.update backend.keys agentId none }
  else backend

/-- `dead_agents`: those without a live key. -/
def deadAgents (candidates : List Uuid) (redis : Redis) (probeAt noteAt : Timestamp) :
    Backend × Option (List Uuid) :=
  if !backend.enabled then (backend, none)
  else if candidates = [] then (backend, some [])
  else
    match redis with
    | .answered =>
        (backend.clearFallback,
          some (candidates.filter fun agentId => (backend.live agentId probeAt).isNone))
    | _ => (backend.noteFallback noteAt, none)

/-- `pg_sweep_within_grace`, with the two clocks read one after the other. -/
def pgSweepWithinGrace (fallbackAt skipAt : Timestamp) : Bool :=
  (backend.fallbackSince.any fun since => fallbackAt - since < backend.window)
    && backend.lastSteadySkip.any fun skip => skipAt - skip < backend.window

end Backend

/-- `capability_fingerprint`. -/
def capabilityFingerprint (capabilities : List String) : List Char :=
  List.intercalate [','] ((capabilities.mergeSort fun a b => a ≤ b).map String.toList)

/-- What becomes of a statement: it is executed; or it fails, with or without having taken
effect. -/
inductive Statement where
  | executed
  | failed (reached : Bool)
deriving DecidableEq, Repr

def Statement.reached : Statement → Bool
  | executed => true
  | failed reached => reached

structure Worker where
  db : Db
  backend : Backend

namespace Worker

variable (worker : Worker)

/-- The database after `apply_heartbeat`; none without an agent row. -/
def applyHeartbeat (agentId : Uuid) (capabilities : List String) (now : Timestamp) :
    Except AppError (Option Db) :=
  if worker.db.agents.any fun agent => agent.id == agentId then
    (sidecarHeartbeat worker.db agentId capabilities now).map fun outcome => some outcome.db
  else .ok none

/-- `NON_OFFLINE_PARTICIPANT_AGENTS_SQL`. -/
def candidates : List Uuid :=
  (worker.db.participants.rows.filter fun participant => participant.status ≠ .offline).map
    Participant.agentId

/-- `MARK_OFFLINE_BY_AGENT_IDS_SQL` or `MARK_STALE_OFFLINE_SQL`, when they take effect. -/
def execute (statement : Statement) (outcome : Outcome) : Worker :=
  if statement.reached then { worker with db := outcome.db } else worker

/-- When the steps of a sweep happen: the probe of the keys, the note of a fallback, the two looks
at the grace, and the statement. -/
structure SweepTimes where
  probe : Timestamp
  note : Timestamp
  fallback : Timestamp
  skip : Timestamp
  mark : Timestamp

/-- `sweep_offline` after its candidates were read. -/
def sweepOffline (redis : Redis) (statement : Statement) (times : SweepTimes) : Worker :=
  let (backend, dead) :=
    worker.backend.deadAgents worker.candidates redis times.probe times.note
  let swept := { worker with backend }
  match dead with
  | some dead =>
      if dead = [] then swept
      else swept.execute statement (markOfflineByAgentIds worker.db dead)
  | none =>
      if backend.pgSweepWithinGrace times.fallback times.skip then swept
      else swept.execute statement
        (markStaleOffline worker.db backend.staleAfter times.mark)

end Worker

end Forge.Presence
