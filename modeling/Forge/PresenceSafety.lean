import Forge.Library.StateMachine
import Forge.Presence

/-! The offline sweep among heartbeats, through failures and recoveries of Redis. -/

namespace Forge.PresenceSafety

open Forge.Library.Identifier
open Forge.Library.KeyedTable
open Forge.Library.StateMachine
open Forge.OrchestrationService
open Forge.ParticipantLiveness
open Forge.ParticipantStatements
open Forge.Presence
open Forge.Schema

/-- How long the steps of a heartbeat take: up to the `SET`, to the flags, to the write. -/
structure BeatDelays where
  set : Nat
  note : Nat
  write : Nat

structure SweepDelays where
  probe : Nat
  note : Nat
  fallback : Nat
  skip : Nat
  mark : Nat

def SweepDelays.times (delays : SweepDelays) (now : Timestamp) : Worker.SweepTimes where
  probe := now + delays.probe
  note := now + delays.probe + delays.note
  fallback := now + delays.probe + delays.note + delays.fallback
  skip := now + delays.probe + delays.note + delays.fallback + delays.skip
  mark := now + delays.probe + delays.note + delays.fallback + delays.skip + delays.mark

/-- The worker and the clock. For every agent, when the handling of its last handled heartbeat
began, when the last `SET` for it took effect, and when the last one was over, are history. -/
structure World where
  worker : Worker
  now : Timestamp
  handled : Uuid → Option Timestamp
  recorded : Uuid → Option Timestamp
  attempted : Uuid → Option Timestamp

/-- A heartbeat, with what becomes of the `SET`, of the write, and of the removal of the key when
there is no agent row; a sweep, with what becomes of the probe and of the statement. -/
inductive Action where
  | wait (time : Nat)
  | beat (agentId : Uuid) (capabilities : List String) (redis : Redis) (statement : Statement)
      (removal : Redis) (delays : BeatDelays)
  | sweep (redis : Redis) (statement : Statement) (delays : SweepDelays)

namespace World

variable (world : World)

def setAt (delays : BeatDelays) : Timestamp := world.now + delays.set

def noteAt (delays : BeatDelays) : Timestamp := world.setAt delays + delays.note

def writeAt (delays : BeatDelays) : Timestamp := world.noteAt delays + delays.write

/-- A heartbeat up to its record in Redis. -/
def recordBeat (agentId : Uuid) (capabilities : List String) (redis : Redis)
    (delays : BeatDelays) : World × RedisRecord :=
  let (backend, record) := world.worker.backend.record agentId (capabilityFingerprint capabilities)
    redis (world.setAt delays) (world.noteAt delays)
  ({ world with
      worker := { world.worker with backend }
      now := world.noteAt delays
      recorded := if world.worker.backend.enabled && redis.reached then
        Function.update world.recorded agentId (some (world.setAt delays)) else world.recorded
      attempted := Function.update world.attempted agentId (some (world.noteAt delays)) }, record)

def markHandled (agentId : Uuid) (start : Timestamp) : World :=
  { world with handled := Function.update world.handled agentId (some start) }

def setDb (db : Db) : World :=
  { world with worker := { world.worker with db } }

/-- `presence.forget`. -/
def forget (agentId : Uuid) (removal : Redis) : World :=
  { world with
    worker := { world.worker with backend := world.worker.backend.forget agentId removal }
    recorded := if removal.reached then Function.update world.recorded agentId none
      else world.recorded }

/-- The database path of a heartbeat whose handling began at `start`. -/
def writeBeat (agentId : Uuid) (capabilities : List String) (statement : Statement)
    (removal : Redis) (start time : Timestamp) : World :=
  let later := { world with now := time }
  match world.worker.applyHeartbeat agentId capabilities time, statement with
  | .error _, _ => later
  | .ok none, .executed => later.forget agentId removal
  | .ok none, .failed _ => later
  | .ok (some db), .executed => (later.setDb db).markHandled agentId start
  | .ok (some db), .failed reached => if reached then later.setDb db else later

/-- `handle_heartbeat`. -/
def beat (agentId : Uuid) (capabilities : List String) (redis : Redis) (statement : Statement)
    (removal : Redis) (delays : BeatDelays) : World :=
  let (recorded, record) := world.recordBeat agentId capabilities redis delays
  if record = .steadyState then recorded.markHandled agentId world.now
  else recorded.writeBeat agentId capabilities statement removal world.now (world.writeAt delays)

def sweep (redis : Redis) (statement : Statement) (delays : SweepDelays) : World :=
  { world with
    worker := world.worker.sweepOffline redis statement (delays.times world.now)
    now := (delays.times world.now).mark }

end World

def exec (world : World) : Action → World
  | .wait time => { world with now := world.now + time }
  | .beat agentId capabilities redis statement removal delays =>
      world.beat agentId capabilities redis statement removal delays
  | .sweep redis statement delays => world.sweep redis statement delays

/-- A worker begins with no key and no fallback. -/
structure Starts (world : World) : Prop where
  keys : ∀ agentId, world.worker.backend.keys agentId = none
  fallback : world.worker.backend.fallbackSince = none
  skip : world.worker.backend.lastSteadySkip = none
  handled : ∀ agentId, world.handled agentId = none
  recorded : ∀ agentId, world.recorded agentId = none

/-- The last handled heartbeat of the agent began less than `stale_after` before. -/
def KeptAt (world : World) (agentId : Uuid) (time : Timestamp) : Prop :=
  ∃ start, world.handled agentId = some start
    ∧ time - start < world.worker.backend.window

/-- A sweep leaves the participants of agents that are kept alive. -/
def SparesLive (world : World) (action : Action) : Prop :=
  ∀ redis statement delays, action = .sweep redis statement delays →
    ∀ participant ∈ world.worker.db.participants, participant.status ≠ .offline →
      KeptAt world participant.agentId (exec world action).now →
        participant ∈ (exec world action).worker.db.participants

/-- A sweep that Redis and the database answer ends those that stopped. -/
def EndsStopped (world : World) (action : Action) : Prop :=
  ∀ delays, action = .sweep .answered .executed delays → world.worker.backend.enabled = true →
    ∀ participant ∈ (exec world action).worker.db.participants,
      (∀ last, world.attempted participant.agentId = some last →
        world.worker.backend.window < world.now - last) → participant.status = .offline

/-- Where Redis answers a sweep, the agents that are kept alive are kept alive in Redis. -/
def timely (world : World) : Action → Prop
  | .sweep .answered _ delays => world.worker.backend.enabled = true →
      ∀ participant ∈ world.worker.db.participants, participant.status ≠ .offline →
        KeptAt world participant.agentId (delays.times world.now).mark →
          ∃ set, world.recorded participant.agentId = some set
            ∧ (delays.times world.now).probe - set < world.worker.backend.window
  | _ => True

def Fresh (db : Db) (agentId : Uuid) (start : Timestamp) : Prop :=
  ∀ participant ∈ db.participants, participant.agentId = agentId →
    ∃ beat, participant.lastHeartbeatAt = some beat ∧ start ≤ beat

/-- A write was skipped since, and a fallback began only later. -/
structure Skipped (backend : Backend) (start : Timestamp) : Prop where
  enabled : backend.enabled = true
  skip : ∃ skip, backend.lastSteadySkip = some skip ∧ start ≤ skip
  fallback : ∀ since, backend.fallbackSince = some since → start ≤ since

structure Good (world : World) : Prop where
  recorded : ∀ agentId set, world.recorded agentId = some set →
    ∃ fingerprint, world.worker.backend.keys agentId
      = some ⟨fingerprint, set + world.worker.backend.window⟩
  attempted : ∀ agentId key, world.worker.backend.keys agentId = some key →
    ∃ last, world.attempted agentId = some last ∧ last ≤ world.now
      ∧ key.expires ≤ last + world.worker.backend.window
  past : ∀ agentId start, world.handled agentId = some start → start ≤ world.now
  served : ∀ agentId start, world.handled agentId = some start →
    Fresh world.worker.db agentId start ∨ Skipped world.worker.backend start

section Backends

variable {backend : Backend} {agentId : Uuid} {fingerprint : List Char} {redis : Redis}
  {setAt noteAt start : Timestamp}

theorem record_keeps : (backend.record agentId fingerprint redis setAt noteAt).1.enabled
      = backend.enabled
    ∧ (backend.record agentId fingerprint redis setAt noteAt).1.staleAfter = backend.staleAfter
    ∧ (backend.record agentId fingerprint redis setAt noteAt).1.keys =
      if backend.enabled && redis.reached then
        Function.update backend.keys agentId (some ⟨fingerprint, setAt + backend.window⟩)
      else backend.keys := by
  unfold Backend.record
  cases enabled : backend.enabled with
  | false => exact ⟨enabled, rfl, rfl⟩
  | true =>
      cases redis with
      | down => exact ⟨enabled, rfl, rfl⟩
      | failed reached =>
          cases reached with
          | false => exact ⟨enabled, rfl, rfl⟩
          | true => exact ⟨enabled, rfl, rfl⟩
      | answered =>
          simp only [Bool.not_true, Bool.false_eq_true, if_false]
          split
          · exact ⟨enabled, rfl, rfl⟩
          · exact ⟨enabled, rfl, rfl⟩

theorem Skipped.noteFallback (skipped : Skipped backend start) (later : start ≤ noteAt) :
    Skipped (backend.noteFallback noteAt) start := by
  refine ⟨skipped.enabled, skipped.skip, fun since found => ?_⟩
  rw [Backend.noteFallback] at found
  cases before : backend.fallbackSince with
  | none =>
      rw [before] at found
      cases found
      exact later
  | some earlier =>
      rw [before] at found
      cases found
      exact skipped.fallback since before

theorem Skipped.clearFallback (skipped : Skipped backend start) :
    Skipped backend.clearFallback start :=
  ⟨skipped.enabled, skipped.skip, nofun⟩

theorem skipped_record (later : start ≤ noteAt) (enabled : backend.enabled = true)
    (known : Skipped backend start
      ∨ (backend.record agentId fingerprint redis setAt noteAt).2 = .steadyState) :
    Skipped (backend.record agentId fingerprint redis setAt noteAt).1 start := by
  unfold Backend.record at known ⊢
  simp only [enabled, Bool.not_true, Bool.false_eq_true, if_false] at known ⊢
  cases redis with
  | down => exact (known.resolve_right nofun).noteFallback later
  | failed reached =>
      have before := known.resolve_right nofun
      cases reached with
      | false => exact before.noteFallback later
      | true =>
          have set : Skipped (backend.setKey agentId fingerprint setAt) start :=
            ⟨before.enabled, before.skip, before.fallback⟩
          exact set.noteFallback later
  | answered =>
      dsimp only at known ⊢
      split
      case isTrue => exact ⟨enabled, ⟨noteAt, rfl, later⟩, nofun⟩
      case isFalse changed =>
          have before := known.resolve_right (by simp [changed])
          exact ⟨before.enabled, before.skip, nofun⟩

theorem steadyState_enabled
    (steady : (backend.record agentId fingerprint redis setAt noteAt).2 = .steadyState) :
    backend.enabled = true := by
  unfold Backend.record at steady
  cases enabled : backend.enabled with
  | false => simp [enabled] at steady
  | true => rfl

theorem deadAgents_keeps {candidates : List Uuid} :
    (backend.deadAgents candidates redis setAt noteAt).1.enabled = backend.enabled
    ∧ (backend.deadAgents candidates redis setAt noteAt).1.staleAfter = backend.staleAfter
    ∧ (backend.deadAgents candidates redis setAt noteAt).1.keys = backend.keys := by
  unfold Backend.deadAgents
  split
  · exact ⟨rfl, rfl, rfl⟩
  · split
    · exact ⟨rfl, rfl, rfl⟩
    · cases redis with
      | down => exact ⟨rfl, rfl, rfl⟩
      | failed reached => exact ⟨rfl, rfl, rfl⟩
      | answered => exact ⟨rfl, rfl, rfl⟩

theorem Skipped.deadAgents {candidates : List Uuid} (skipped : Skipped backend start)
    (later : start ≤ noteAt) :
    Skipped (backend.deadAgents candidates redis setAt noteAt).1 start := by
  unfold Backend.deadAgents
  split
  · exact skipped
  · split
    · exact skipped
    · cases redis with
      | down => exact skipped.noteFallback later
      | failed reached => exact skipped.noteFallback later
      | answered => exact skipped.clearFallback

end Backends

section Rows

variable {db later : Db} {agentId other : Uuid} {start now : Timestamp}

theorem Fresh.keeps (fresh : Fresh db agentId start)
    (rows : ∀ participant ∈ later.participants, ∃ old ∈ db.participants,
      old.agentId = participant.agentId ∧ old.lastHeartbeatAt = participant.lastHeartbeatAt) :
    Fresh later agentId start := by
  intro participant member same
  obtain ⟨old, there, agent, beat⟩ := rows participant member
  rw [← beat]
  exact fresh old there (agent.trans same)

theorem setParticipants_rows {hits : Participant → Bool} {status : ParticipantStatus} :
    ∀ participant ∈ (setParticipants db hits fun p => (status, p.lastHeartbeatAt)).participants,
      ∃ old ∈ db.participants,
        old.agentId = participant.agentId ∧ old.lastHeartbeatAt = participant.lastHeartbeatAt := by
  intro participant member
  obtain ⟨old, there, rfl⟩ := mem_setParticipants.1 member
  refine ⟨old, there, ?_⟩
  split
  · exact ⟨rfl, rfl⟩
  · exact ⟨rfl, rfl⟩

theorem applyHeartbeat_rows {worker : Worker} {capabilities : List String}
    (applied : worker.applyHeartbeat agentId capabilities now = .ok (some db)) :
    ∀ participant ∈ db.participants,
      participant.agentId = agentId ∧ participant.lastHeartbeatAt = some now
        ∨ participant.agentId ≠ agentId ∧ participant ∈ worker.db.participants := by
  rw [Worker.applyHeartbeat] at applied
  split at applied
  case isFalse => cases applied
  case isTrue known =>
      rw [sidecarHeartbeat] at applied
      split at applied
      case h_1 missing =>
          obtain ⟨agent, there, same⟩ := Table.any_eq_true.1 known
          rw [Table.find?_eq_none.1 missing agent there] at same
          cases same
      case h_2 agent found =>
          split at applied
          case isTrue present =>
              cases applied
              intro participant member
              obtain ⟨old, there, rfl⟩ :=
                (@Table.mem_update _ _ _ _ _ _ (by intro; rfl) _).1 member
              split
              case isTrue hit => exact .inl ⟨beq_iff_eq.1 hit, rfl⟩
              case isFalse miss => exact .inr ⟨fun same => miss (beq_iff_eq.2 same), there⟩
          case isFalse absent =>
              split at applied
              case h_2 => cases applied
              case h_1 inserted =>
                  cases applied
                  intro participant member
                  rcases ((Table.insert?_eq_some inserted).2 participant).1 member with rfl | there
                  · exact .inl ⟨rfl, rfl⟩
                  · refine .inr ⟨fun same => absent ?_, there⟩
                    exact Table.any_eq_true.2 ⟨participant, there, beq_iff_eq.2 same⟩

theorem Fresh.applyHeartbeat {worker : Worker} {capabilities : List String}
    (fresh : Fresh worker.db other start)
    (applied : worker.applyHeartbeat agentId capabilities now = .ok (some db))
    (past : start ≤ now) : Fresh db other start := by
  intro participant member same
  rcases applyHeartbeat_rows applied participant member with ⟨-, dated⟩ | ⟨-, there⟩
  · exact ⟨now, dated, past⟩
  · exact fresh participant there same

theorem fresh_of_applyHeartbeat {worker : Worker} {capabilities : List String}
    (applied : worker.applyHeartbeat agentId capabilities now = .ok (some db))
    (past : start ≤ now) : Fresh db agentId start := by
  intro participant member same
  rcases applyHeartbeat_rows applied participant member with ⟨-, dated⟩ | ⟨differs, -⟩
  · exact ⟨now, dated, past⟩
  · exact absurd same differs

theorem execute_backend {worker : Worker} {statement : Statement} {outcome : Outcome} :
    (worker.execute statement outcome).backend = worker.backend := by
  rw [Worker.execute]
  split
  · rfl
  · rfl

theorem Fresh.execute {worker : Worker} {statement : Statement} {outcome : Outcome}
    (fresh : Fresh worker.db agentId start)
    (rows : ∀ participant ∈ outcome.db.participants, ∃ old ∈ worker.db.participants,
      old.agentId = participant.agentId ∧ old.lastHeartbeatAt = participant.lastHeartbeatAt) :
    Fresh (worker.execute statement outcome).db agentId start := by
  rw [Worker.execute]
  split
  · exact fresh.keeps rows
  · exact fresh

theorem sweepOffline_backend {worker : Worker} {redis : Redis} {statement : Statement}
    {times : Worker.SweepTimes} : (worker.sweepOffline redis statement times).backend
      = (worker.backend.deadAgents worker.candidates redis times.probe times.note).1 := by
  unfold Worker.sweepOffline
  dsimp only
  split
  · split
    · rfl
    · exact execute_backend
  · split
    · rfl
    · exact execute_backend

theorem Fresh.sweepOffline {worker : Worker} {redis : Redis} {statement : Statement}
    {times : Worker.SweepTimes} (fresh : Fresh worker.db agentId start) :
    Fresh (worker.sweepOffline redis statement times).db agentId start := by
  unfold Worker.sweepOffline
  dsimp only
  split
  · split
    · exact fresh
    · exact Fresh.execute fresh setParticipants_rows
  · split
    · exact fresh
    · exact Fresh.execute fresh setParticipants_rows

end Rows

section Steps

variable {world : World} {agentId : Uuid} {start time : Timestamp}

theorem good_start (starts : Starts world) : Good world where
  recorded := fun agentId set known => by simp [starts.recorded agentId] at known
  attempted := fun agentId key held => by simp [starts.keys agentId] at held
  past := fun agentId start known => by simp [starts.handled agentId] at known
  served := fun agentId start known => by simp [starts.handled agentId] at known

theorem Good.later (good : Good world) (later : world.now ≤ time) :
    Good { world with now := time } where
  recorded := good.recorded
  attempted := fun agentId key held => by
    obtain ⟨last, known, before, bound⟩ := good.attempted agentId key held
    exact ⟨last, known, before.trans later, bound⟩
  past := fun agentId start known => (good.past agentId start known).trans later
  served := good.served

theorem Good.markHandled (good : Good world) (past : start ≤ world.now)
    (served : Fresh world.worker.db agentId start ∨ Skipped world.worker.backend start) :
    Good (world.markHandled agentId start) := by
  refine ⟨good.recorded, good.attempted, fun other since known => ?_,
    fun other since known => ?_⟩
  · simp only [World.markHandled, Function.update_apply] at known
    split at known
    · cases known
      exact past
    · exact good.past other since known
  · simp only [World.markHandled, Function.update_apply] at known
    split at known
    case isTrue same =>
        cases known
        rw [same]
        exact served
    case isFalse => exact good.served other since known

theorem Good.setDb {db : Db} (good : Good world)
    (keeps : ∀ agentId start, start ≤ world.now → Fresh world.worker.db agentId start →
      Fresh db agentId start) : Good (world.setDb db) where
  recorded := good.recorded
  attempted := good.attempted
  past := good.past
  served := fun agentId start known => (good.served agentId start known).imp_left
    (keeps agentId start (good.past agentId start known))

theorem Good.forget {removal : Redis} (good : Good world) :
    Good (world.forget agentId removal) := by
  unfold World.forget Backend.forget
  cases reached : removal.reached with
  | false => exact ⟨good.recorded, good.attempted, good.past, good.served⟩
  | true =>
      simp only [if_true]
      refine ⟨fun other set known => ?_, fun other key held => ?_, good.past, ?_⟩
      · simp only [Function.update_apply] at known
        split at known
        case isTrue => cases known
        case isFalse differs =>
            obtain ⟨fingerprint, held⟩ := good.recorded other set known
            exact ⟨fingerprint, (Function.update_of_ne differs none _).trans held⟩
      · simp only [Function.update_apply] at held
        split at held
        · cases held
        · exact good.attempted other key held
      · intro other start known
        exact (good.served other start known).imp_right fun skipped =>
          ⟨skipped.enabled, skipped.skip, skipped.fallback⟩

section Beats

variable {capabilities : List String} {redis removal : Redis} {statement : Statement}
  {delays : BeatDelays}

theorem now_le_noteAt : world.now ≤ world.noteAt delays := by
  simp only [World.noteAt, World.setAt]
  lia

theorem good_recordBeat (good : Good world) :
    Good (world.recordBeat agentId capabilities redis delays).1 := by
  obtain ⟨-, stale, keys⟩ := @record_keeps world.worker.backend agentId
    (capabilityFingerprint capabilities) redis (world.setAt delays) (world.noteAt delays)
  have window : (world.recordBeat agentId capabilities redis delays).1.worker.backend.window
      = world.worker.backend.window := congrArg (fun n : Nat => n * second) stale
  have held : (world.recordBeat agentId capabilities redis delays).1.worker.backend.keys = _ :=
    keys
  refine ⟨fun other set known => ?_, fun other key live => ?_, fun other start known =>
    (good.past other start known).trans now_le_noteAt, fun other start known => ?_⟩
  · rw [held, window]
    simp only [World.recordBeat] at known
    split at known
    case isTrue effective =>
        rw [if_pos effective]
        rw [Function.update_apply] at known
        split at known
        case isTrue same =>
            cases known
            rw [same, Function.update_self]
            exact ⟨_, rfl⟩
        case isFalse differs =>
            obtain ⟨fingerprint, before⟩ := good.recorded other set known
            exact ⟨fingerprint, (Function.update_of_ne differs _ _).trans before⟩
    case isFalse idle =>
        rw [if_neg idle]
        exact good.recorded other set known
  · rw [held] at live
    rw [window]
    simp only [World.recordBeat, Function.update_apply]
    by_cases same : other = agentId
    · rw [if_pos same]
      refine ⟨_, rfl, le_rfl, ?_⟩
      split at live
      case isTrue =>
          rw [same, Function.update_self] at live
          cases live
          simp only [World.noteAt]
          lia
      case isFalse =>
          obtain ⟨last, -, before, bound⟩ := good.attempted other key live
          have later := @now_le_noteAt world delays
          lia
    · rw [if_neg same]
      have before : world.worker.backend.keys other = some key := by
        split at live
        · rwa [Function.update_of_ne same] at live
        · exact live
      obtain ⟨last, known, past, bound⟩ := good.attempted other key before
      exact ⟨last, known, past.trans now_le_noteAt, bound⟩
  · rcases good.served other start known with fresh | skipped
    · exact .inl fresh
    · exact .inr (skipped_record ((good.past other start known).trans now_le_noteAt)
        skipped.enabled (.inl skipped))

theorem good_writeBeat (good : Good world) (past : start ≤ world.now)
    (later : world.now ≤ time) :
    Good (world.writeBeat agentId capabilities statement removal start time) := by
  have after := good.later later
  have written : ∀ db, world.worker.applyHeartbeat agentId capabilities time = .ok (some db) →
      Good ({ world with now := time }.setDb db) := by
    intro db applied
    exact after.setDb fun other since earlier fresh => fresh.applyHeartbeat applied earlier
  unfold World.writeBeat
  dsimp only
  split
  case h_1 => exact after
  case h_2 => exact after.forget
  case h_3 => exact after
  case h_4 db applied =>
      exact (written db applied).markHandled (past.trans later)
        (.inl (fresh_of_applyHeartbeat applied (past.trans later)))
  case h_5 db reached applied =>
      split
      · exact written db applied
      · exact after

theorem good_beat (good : Good world) :
    Good (world.beat agentId capabilities redis statement removal delays) := by
  have recorded : Good (world.recordBeat agentId capabilities redis delays).1 :=
    good_recordBeat good
  unfold World.beat
  dsimp only
  split
  case isTrue steady =>
      exact recorded.markHandled now_le_noteAt
        (.inr (skipped_record now_le_noteAt (steadyState_enabled steady) (.inr steady)))
  case isFalse =>
      refine good_writeBeat recorded now_le_noteAt ?_
      simp only [World.recordBeat, World.writeAt]
      lia

end Beats

section Sweeps

variable {redis : Redis} {statement : Statement} {delays : SweepDelays}

theorem good_sweep (good : Good world) : Good (world.sweep redis statement delays) := by
  obtain ⟨-, stale, keys⟩ := @deadAgents_keeps world.worker.backend redis
    (delays.times world.now).probe (delays.times world.now).note world.worker.candidates
  have backend := @sweepOffline_backend world.worker redis statement (delays.times world.now)
  rw [← backend] at stale keys
  have window : (world.sweep redis statement delays).worker.backend.window
      = world.worker.backend.window := congrArg (fun n : Nat => n * second) stale
  have later : world.now ≤ (delays.times world.now).mark := by
    simp only [SweepDelays.times]
    lia
  have noted : world.now ≤ (delays.times world.now).note := by
    simp only [SweepDelays.times]
    lia
  refine ⟨fun agentId set known => ?_, fun agentId key held => ?_, fun agentId start known =>
    (good.past agentId start known).trans later, fun agentId start known => ?_⟩
  · rw [window]
    obtain ⟨fingerprint, held⟩ := good.recorded agentId set known
    exact ⟨fingerprint, (congrFun keys agentId).trans held⟩
  · rw [window]
    obtain ⟨last, known, past, bound⟩ :=
      good.attempted agentId key ((congrFun keys agentId).symm.trans held)
    exact ⟨last, known, past.trans later, bound⟩
  · rcases good.served agentId start known with fresh | skipped
    · exact .inl fresh.sweepOffline
    · refine .inr ?_
      rw [World.sweep]
      exact backend ▸ skipped.deadAgents ((good.past agentId start known).trans noted)

end Sweeps

end Steps

section Verdicts

variable {backend : Backend} {candidates : List Uuid} {redis : Redis} {probeAt noteAt : Timestamp}

theorem dead_of_mem {dead : List Uuid} {agentId : Uuid}
    (answered : (backend.deadAgents candidates redis probeAt noteAt).2 = some dead)
    (member : agentId ∈ dead) :
    backend.enabled = true ∧ redis = .answered ∧ backend.live agentId probeAt = none := by
  unfold Backend.deadAgents at answered
  split at answered
  case isTrue => cases answered
  case isFalse enabled =>
      split at answered
      case isTrue =>
          cases answered
          cases member
      case isFalse =>
          cases redis with
          | down => cases answered
          | failed reached => cases answered
          | answered =>
              cases answered
              rw [List.mem_filter, Option.isNone_iff_eq_none] at member
              exact ⟨by simpa using enabled, rfl, member.2⟩

theorem fallback_of_unanswered (enabled : backend.enabled = true)
    (unanswered : (backend.deadAgents candidates redis probeAt noteAt).2 = none) :
    ∃ since, (backend.deadAgents candidates redis probeAt noteAt).1.fallbackSince
      = some since := by
  have noted : ∃ since, (backend.noteFallback noteAt).fallbackSince = some since := by
    rw [Backend.noteFallback]
    cases backend.fallbackSince with
    | none => exact ⟨noteAt, rfl⟩
    | some since => exact ⟨since, rfl⟩
  unfold Backend.deadAgents at unanswered ⊢
  simp only [enabled, Bool.not_true, Bool.false_eq_true, if_false] at unanswered ⊢
  split at unanswered
  case isTrue => cases unanswered
  case isFalse someone =>
      rw [if_neg someone]
      cases redis with
      | down => exact noted
      | failed reached => exact noted
      | answered => cases unanswered

theorem mem_setParticipants_of_miss {db : Db} {hits : Participant → Bool}
    {set : Participant → ParticipantStatus × Option Timestamp} {participant : Participant}
    (member : participant ∈ db.participants) (miss : hits participant = false) :
    participant ∈ (setParticipants db hits set).participants :=
  mem_setParticipants.2 ⟨participant, member, by simp [miss]⟩

theorem mem_execute {worker : Worker} {statement : Statement} {outcome : Outcome}
    {participant : Participant} (before : participant ∈ worker.db.participants)
    (after : participant ∈ outcome.db.participants) :
    participant ∈ (worker.execute statement outcome).db.participants := by
  rw [Worker.execute]
  split
  · exact after
  · exact before

end Verdicts

section Sweeping

variable {world : World} {redis : Redis} {statement : Statement} {delays : SweepDelays}
  {participant : Participant}

theorem within_grace {start : Timestamp} (enabled : world.worker.backend.enabled = true)
    (past : start ≤ world.now) (skipped : Skipped world.worker.backend start)
    (kept : (delays.times world.now).mark - start < world.worker.backend.window)
    (unanswered : (world.worker.backend.deadAgents world.worker.candidates redis
      (delays.times world.now).probe (delays.times world.now).note).2 = none) :
    (world.worker.backend.deadAgents world.worker.candidates redis (delays.times world.now).probe
      (delays.times world.now).note).1.pgSweepWithinGrace (delays.times world.now).fallback
        (delays.times world.now).skip = true := by
  have noted : start ≤ (delays.times world.now).note := by
    simp only [SweepDelays.times]
    lia
  obtain ⟨since, armed⟩ := fallback_of_unanswered enabled unanswered
  have later : Skipped (world.worker.backend.deadAgents world.worker.candidates redis
      (delays.times world.now).probe (delays.times world.now).note).1 start :=
    skipped.deadAgents noted
  obtain ⟨-, stale, -⟩ := @deadAgents_keeps world.worker.backend redis
    (delays.times world.now).probe (delays.times world.now).note world.worker.candidates
  have window : (world.worker.backend.deadAgents world.worker.candidates redis
      (delays.times world.now).probe (delays.times world.now).note).1.window
      = world.worker.backend.window := congrArg (fun n : Nat => n * second) stale
  obtain ⟨skip, latest, since_skip⟩ := later.skip
  have since_fallback := later.fallback since armed
  rw [Backend.pgSweepWithinGrace, armed, latest, window]
  simp only [Option.any_some, Bool.and_eq_true, decide_eq_true_eq]
  simp only [SweepDelays.times] at kept ⊢
  constructor
  · lia
  · lia

theorem not_before {beat start mark window : Int} (recent : start ≤ beat)
    (within : mark - start < window) : ¬ beat < mark - window := by
  omega

theorem spares_kept (good : Good world)
    (may : timely world (.sweep redis statement delays))
    (member : participant ∈ world.worker.db.participants)
    (active : participant.status ≠ .offline)
    (kept : KeptAt world participant.agentId (delays.times world.now).mark) :
    participant ∈ (world.worker.sweepOffline redis statement
      (delays.times world.now)).db.participants := by
  obtain ⟨start, known, within⟩ := kept
  unfold Worker.sweepOffline
  dsimp only
  split
  case h_1 dead answered =>
      split
      · exact member
      · refine mem_execute member (mem_setParticipants_of_miss member ?_)
        refine Bool.and_eq_false_imp.2 fun _ => ?_
        rw [← Bool.not_eq_true, List.contains_iff_mem]
        intro listed
        obtain ⟨enabled, rfl, gone⟩ := dead_of_mem answered listed
        obtain ⟨set, recorded, recent⟩ :=
          may enabled participant member active ⟨start, known, within⟩
        obtain ⟨fingerprint, held⟩ := good.recorded participant.agentId set recorded
        rw [Backend.live, held, Option.filter_eq_none_iff] at gone
        have expired := gone _ rfl
        simp only [decide_eq_true_eq, not_lt] at expired
        lia
  case h_2 unanswered =>
      split
      · exact member
      case isFalse graceless =>
          refine mem_execute member (mem_setParticipants_of_miss member ?_)
          have fresh : Fresh world.worker.db participant.agentId start := by
            rcases good.served participant.agentId start known with fresh | skipped
            · exact fresh
            · exact absurd (within_grace skipped.enabled (good.past _ _ known) skipped within
                unanswered) graceless
          obtain ⟨beat, dated, recent⟩ := fresh participant member rfl
          refine Bool.and_eq_false_imp.2 fun _ => ?_
          rw [dated, Option.all_some, decide_eq_false_iff_not]
          have stale := (@deadAgents_keeps world.worker.backend redis
            (delays.times world.now).probe (delays.times world.now).note
            world.worker.candidates).2.1
          simp only [Backend.window, ← stale] at within
          exact not_before recent within

theorem ends_stopped (good : Good world) (enabled : world.worker.backend.enabled = true)
    (member : participant ∈ (world.worker.sweepOffline .answered .executed
      (delays.times world.now)).db.participants)
    (stopped : ∀ last, world.attempted participant.agentId = some last →
      world.worker.backend.window < world.now - last) : participant.status = .offline := by
  have gone : world.worker.backend.live participant.agentId (delays.times world.now).probe
      = none := by
    refine Option.filter_eq_none_iff.2 fun key held => ?_
    obtain ⟨last, known, -, bound⟩ := good.attempted participant.agentId key held
    have long := stopped last known
    simp only [SweepDelays.times]
    lia
  have listed : ∀ old ∈ world.worker.db.participants, old.status ≠ .offline →
      old.agentId ∈ world.worker.candidates := by
    intro old there active
    exact List.mem_map.2 ⟨old, List.mem_filter.2 ⟨there, by simpa using active⟩, rfl⟩
  have dead : ∀ old ∈ world.worker.db.participants, old.status ≠ .offline →
      old.agentId = participant.agentId → old.agentId ∈ world.worker.candidates.filter fun
        agentId => (world.worker.backend.live agentId (delays.times world.now).probe).isNone := by
    intro old there active same
    refine List.mem_filter.2 ⟨listed old there active, ?_⟩
    rw [same, gone]
    rfl
  unfold Worker.sweepOffline Backend.deadAgents at member
  simp only [enabled, Bool.not_true, Bool.false_eq_true, if_false] at member
  by_contra active
  split at member
  case h_2 unanswered =>
      split at unanswered
      · cases unanswered
      · cases unanswered
  case h_1 answered =>
      split at answered
      case isTrue nobody =>
          cases answered
          exact List.not_mem_nil (nobody ▸ listed participant member active)
      case isFalse =>
          cases answered
          split at member
          case isTrue nobody =>
              exact List.not_mem_nil (nobody ▸ dead participant member active rfl)
          case isFalse =>
              obtain ⟨old, there, rfl⟩ := mem_setParticipants.1 member
              split at active
              case isTrue => exact active rfl
              case isFalse missed =>
                  refine missed (Bool.and_eq_true_iff.2 ⟨bne_iff_ne.2 active, ?_⟩)
                  rw [List.contains_iff_mem]
                  exact dead old there active (by rw [if_neg missed])

end Sweeping

theorem good_exec {world : World} {action : Action} (good : Good world) :
    Good (exec world action) := by
  cases action with
  | wait time => exact good.later (by lia)
  | beat => exact good_beat good
  | sweep => exact good_sweep good

namespace Sample

def agentId : Uuid := ⟨7⟩

def agent : Agent where
  id := agentId
  organizationId := default
  workspaceId := default
  projectId := none
  name := "agent"
  runtimeKind := .cli
  containerId := none
  containerImageIdentity := none
  hmacSecret := none
  interactiveLeaseExpiresAt := none

/-- A worker with one agent and no participant yet. -/
def start : World where
  worker := {
    db := { Db.empty with agents := ⟨[agent], by decide⟩ }
    backend := {
      enabled := true, staleAfter := 90, keys := fun _ => none
      fallbackSince := none, lastSteadySkip := none } }
  now := 0
  handled := fun _ => none
  recorded := fun _ => none
  attempted := fun _ => none

theorem start_starts : Starts start :=
  ⟨fun _ => rfl, rfl, rfl, fun _ => rfl, fun _ => rfl⟩

def beat (redis : Redis) : Action :=
  .beat agentId ["code"] redis .executed .answered ⟨0, 0, 0⟩

def wait (seconds : Nat) : Action :=
  .wait (seconds * 1000000)

def sweep (redis : Redis) : Action :=
  .sweep redis .executed ⟨0, 0, 0, 0, 0⟩

def world (actions : List Action) : World :=
  run exec start actions

def statuses (world : World) : List ParticipantStatus :=
  world.worker.db.participants.rows.map Participant.status

def steady : World := world [beat .answered, wait 80, beat .answered, wait 40]

def written : World := world [beat .answered, wait 80, beat .down, wait 20]

end Sample

end Forge.PresenceSafety
