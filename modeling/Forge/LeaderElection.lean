import Forge.Library.AdvisoryLock
import Forge.Library.Interleaving
import Forge.Library.StateMachine

/-! The election of the replica that runs a singleton loop: for as long as it leads, a session of
its own holds the advisory lock of the loop. -/

namespace Forge.LeaderElection

open Forge.Library.AdvisoryLock
open Forge.Library.Interleaving
open Forge.Library.StateMachine

abbrev LockKey : Type := Int32 × Int32

/-- `LEADER_LOCK_CLASS`. -/
def leaderLockClass : Int32 := 0x4f524348

def dispatchReaperLockId : Int32 := 1

def reviewEscalationReaperLockId : Int32 := 2

inductive Loop where
  | dispatchReaper
  | reviewEscalationReaper
deriving DecidableEq, Repr

def Loop.lockId : Loop → Int32
  | .dispatchReaper => dispatchReaperLockId
  | .reviewEscalationReaper => reviewEscalationReaperLockId

def Loop.key (loop : Loop) : LockKey := (leaderLockClass, loop.lockId)

/-- The loop of a replica. -/
structure Worker where
  replica : Nat
  loop : Loop
deriving DecidableEq, Repr

inductive SqlxError where
  | io
  | database
  | poolTimedOut
deriving DecidableEq, Repr

inductive LeaderStatus where
  | leader
  | notLeader
  | lockError (err : SqlxError)
deriving DecidableEq, Repr

/-- The calls of a tick. A lock that is granted is kept in the worker's slot: between the answer
and `*slot = Some(conn)` nothing is awaited. -/
inductive Operation where
  | selectOne (conn : Nat)
  | detachClose (worker : Worker) (conn : Nat)
  | acquire (worker : Worker)
  | tryAdvisoryLock (worker : Worker) (conn : Nat)
  | drop (worker : Worker) (conn : Nat)
  | sweep (worker : Worker)

abbrev Reply : Operation → Type
  | .selectOne _ => Bool
  | .acquire _ => Except SqlxError Nat
  | .tryAdvisoryLock _ _ => Except SqlxError Bool
  | .detachClose _ _ | .drop _ _ | .sweep _ => Unit

abbrev Io (α : Type) : Type := Prog Operation Reply α

/-- The end of `ensure_leader`: a fresh connection tries to get the lock. -/
def elect (worker : Worker) : Io LeaderStatus :=
  .op (.acquire worker) fun
    | .error err => .done (.lockError err)
    | .ok conn => .op (.tryAdvisoryLock worker conn) fun
      | .error err => .op (.drop worker conn) fun _ => .done (.lockError err)
      | .ok true => .done .leader
      | .ok false => .op (.drop worker conn) fun _ => .done .notLeader

/-- `ensure_leader`, with what the slot holds. -/
def ensureLeader (worker : Worker) : Option Nat → Io LeaderStatus
  | none => elect worker
  | some conn => .op (.selectOne conn) fun
    | true => .done .leader
    | false => .op (.detachClose worker conn) fun _ => elect worker

def sweepIfLeader (worker : Worker) : LeaderStatus → Io Unit
  | .leader => .op (.sweep worker) .done
  | .notLeader | .lockError _ => .done ()

/-- A turn of the loops in `DispatchReaperWorker::run` and `ReviewEscalationReaperWorker::run`. -/
def turn (leaderElectionEnabled : Bool) (worker : Worker) (slot : Option Nat) : Io Unit :=
  if leaderElectionEnabled then (ensureLeader worker slot).bind (sweepIfLeader worker)
  else .op (.sweep worker) .done

/-! ## The replicas and the database -/

/-- Where a connection is: in the pool of a replica, with a tick, in a slot, or given up. -/
inductive Place where
  | idle (replica : Nat)
  | lent (worker : Worker)
  | kept (worker : Worker)
  | gone
deriving DecidableEq, Repr

def Place.isOf (replica : Nat) : Place → Bool
  | .idle other => other == replica
  | .lent worker | .kept worker => worker.replica == replica
  | .gone => false

structure World where
  server : Server Nat LockKey
  place : Nat → Place
  slot : Worker → Option Nat

/-- What becomes of a call: it is answered, it is refused, or its connection breaks, perhaps after
it has reached the database. -/
inductive Fate where
  | answered
  | refused
  | lost (reached : Bool)
deriving DecidableEq

/-- With the connection that a pool hands out, one of its own or another that it opens. -/
structure Choice where
  fate : Fate
  conn : Nat

namespace World

variable (world : World)

def empty : World := ⟨.empty, fun _ => .gone, fun _ => none⟩

def move (conn : Nat) (place : Place) : World :=
  { world with place := Function.update world.place conn place }

def keep (worker : Worker) (conn : Nat) : World :=
  { world.move conn (.kept worker) with
    slot := Function.update world.slot worker (some conn) }

def giveUp (worker : Worker) (conn : Nat) : World :=
  { world.move conn .gone with slot := Function.update world.slot worker none }

def close (conn : Nat) : World :=
  { world with server := world.server.close conn }

def acquire (worker : Worker) (conn : Nat) : World × Except SqlxError Nat :=
  let lent := world.move conn (.lent worker)
  if world.place conn = .idle worker.replica then (lent, .ok conn)
  else if world.place conn = .gone ∧ world.server.isOpen conn = false then
    ({ lent with server := world.server.join conn }, .ok conn)
  else (world, .error .poolTimedOut)

def lock (worker : Worker) (conn : Nat) : World :=
  { world with server := (world.server.tryLock conn worker.loop.key).1 }

/-- A connection that breaks is not given back to its pool, and its session may outlive it. -/
def tryAdvisoryLock (worker : Worker) (conn : Nat) : Fate → World × Except SqlxError Bool
  | .answered =>
      if world.server.isOpen conn = true then
        if (world.server.tryLock conn worker.loop.key).2 then
          ((world.lock worker conn).keep worker conn, .ok true)
        else (world, .ok false)
      else (world.move conn .gone, .error .io)
  | .refused => (world, .error .database)
  | .lost reached =>
      ((if reached then world.lock worker conn else world).move conn .gone, .error .io)

def perform : (operation : Operation) → Choice → World × Reply operation
  | .selectOne conn, choice =>
      (world, decide (choice.fate = .answered) && world.server.isOpen conn)
  | .detachClose worker conn, choice =>
      let after := world.giveUp worker conn
      (if choice.fate = .lost false then after else after.close conn, ())
  | .acquire worker, choice =>
      match choice.fate with
      | .answered => world.acquire worker choice.conn
      | .refused => (world, .error .database)
      | .lost _ => (world, .error .io)
  | .tryAdvisoryLock worker conn, choice => world.tryAdvisoryLock worker conn choice.fate
  | .drop worker conn, _ =>
      (if world.place conn = .lent worker then world.move conn (.idle worker.replica)
        else world, ())
  | .sweep _, _ => (world, ())

/-- The process of a replica ends; its sessions may outlive it. -/
def crash (replica : Nat) : World :=
  { world with
    place := fun conn => if (world.place conn).isOf replica then .gone else world.place conn
    slot := fun worker => if worker.replica = replica then none else world.slot worker }

end World

def machine : Machine World Worker Operation Choice Reply :=
  ⟨fun world operation choice _ => world.perform operation choice, fun _ => none⟩

abbrev Cluster : Type := Pool World Worker Operation Reply

/-- Sessions end at any time, and other programs lock with the connections too. -/
inductive Action where
  | tick (worker : Worker)
  | step (worker : Worker) (choice : Choice)
  | ended (conn : Nat)
  | crash (replica : Nat)
  | foreign (conn : Nat) (key : LockKey) (takes : Bool)

def start : Cluster := ⟨.empty, fun _ => .done ()⟩

section Runs

variable (enabled : Nat → Bool)

def exec (cluster : Cluster) : Action → Cluster
  | .tick worker =>
      cluster.begin worker (turn (enabled worker.replica) worker (cluster.state.slot worker))
  | .step worker choice => cluster.step machine worker choice
  | .ended conn => ⟨cluster.state.close conn, cluster.threads⟩
  | .crash replica =>
      ⟨cluster.state.crash replica, fun worker =>
        if worker.replica = replica then .done () else cluster.threads worker⟩
  | .foreign conn key takes =>
      ⟨{ cluster.state with
        server := if takes then (cluster.state.server.tryLock conn key).1
          else (cluster.state.server.unlock conn key).1 }, cluster.threads⟩

/-- Nobody else uses the class of the locks. -/
def allowed (_ : Cluster) : Action → Prop
  | .foreign _ key _ => key.1 ≠ leaderLockClass
  | _ => True

def ReachableCluster : Cluster → Prop := Reachable (exec enabled) (· = start) allowed

def Leads (cluster : Cluster) (worker : Worker) (conn : Nat) : Prop :=
  cluster.state.slot worker = some conn ∧ cluster.state.server.isOpen conn = true

/-- A loop has one leader at most whose session is open; those that are about to sweep are leaders,
or were when they last looked; and the lock of a loop is held by its leader, or by a connection that
was given up, never by one in a pool. -/
structure Exclusive (cluster : Cluster) : Prop where
  leader : ∀ first second conn conn', first.loop = second.loop → Leads cluster first conn →
    Leads cluster second conn' → first = second
  sweeps : ∀ worker next, cluster.threads worker = .op (.sweep worker) next →
    enabled worker.replica = true → ∃ conn, cluster.state.slot worker = some conn
  held : ∀ conn loop, cluster.state.server.Holds conn loop.key →
    cluster.state.place conn = .gone ∨
      ∃ worker, worker.loop = loop ∧ cluster.state.slot worker = some conn

end Runs

/-! ## What every call keeps -/

/-- Slots hold what is kept for them; the open session of a slot holds the lock of the loop, and
nothing else but a connection that was given up does. -/
structure Sound (world : World) : Prop where
  kept : ∀ worker conn, world.slot worker = some conn → world.place conn = .kept worker
  leads : ∀ worker conn, world.slot worker = some conn → world.server.isOpen conn = true →
    world.server.Holds conn worker.loop.key
  held : ∀ conn loop, world.server.Holds conn loop.key →
    world.place conn = .gone ∨ ∃ worker, worker.loop = loop ∧ world.slot worker = some conn

def May (enabled : Nat → Bool) (worker : Worker) (world : World) : Operation → Prop
  | .selectOne _ => True
  | .detachClose owner conn => owner = worker ∧ world.slot worker = some conn
  | .acquire owner => owner = worker ∧ world.slot worker = none
  | .tryAdvisoryLock owner conn =>
      owner = worker ∧ world.slot worker = none ∧ world.place conn = .lent worker
  | .drop owner _ => owner = worker
  | .sweep owner => owner = worker ∧
      (enabled worker.replica = true → ∃ conn, world.slot worker = some conn)

/-- The others leave alone the slot of a worker and the connections that its tick has. -/
structure Relies (worker : Worker) (before after : World) : Prop where
  slot : after.slot worker = before.slot worker
  lent : ∀ conn, before.place conn = .lent worker → after.place conn = .lent worker

/-- A step of the others, which do not end the session of the slot either. -/
structure Spared (worker : Worker) (before after : World) : Prop extends
    Relies worker before after where
  opened : ∀ conn, before.slot worker = some conn → before.server.isOpen conn = true →
    after.server.isOpen conn = true

section Steps

variable {world after : World} {conn : Nat} {worker : Worker}

theorem slot_keep (owner : Worker) : (world.keep worker conn).slot owner
    = if owner = worker then some conn else world.slot owner :=
  Function.update_apply ..

theorem key_injective {first second : Loop} (same : first.key = second.key) : first = second := by
  cases first <;> cases second <;> first | rfl | exact absurd (congrArg Prod.snd same) (by decide)

theorem Sound.empty : Sound .empty := by
  refine ⟨?_, ?_, ?_⟩
  · rintro _ _ ⟨⟩
  · rintro _ _ ⟨⟩
  · rintro _ _ ⟨_, ⟨⟩⟩

/-- Slots may be emptied and connections given up, sessions may end, and closed ones are new. -/
theorem Sound.frame (sound : Sound world)
    (slots : ∀ owner conn, after.slot owner = some conn → world.slot owner = some conn
      ∧ after.place conn = world.place conn
      ∧ (after.server.isOpen conn = true → world.server.isOpen conn = true))
    (locks : ∀ conn (loop : Loop), after.server.Holds conn loop.key ↔
      world.server.Holds conn loop.key ∧ after.server.isOpen conn = true)
    (kept : ∀ owner conn, world.slot owner = some conn →
      after.slot owner = some conn ∨ after.place conn = .gone)
    (gone : ∀ conn, world.place conn = .gone →
      after.place conn = .gone ∨ world.server.isOpen conn = false) : Sound after := by
  refine ⟨fun owner conn slot => ?_, fun owner conn slot opened => ?_, fun conn loop holds => ?_⟩
  · obtain ⟨before, same, -⟩ := slots owner conn slot
    exact same.trans (sound.kept owner conn before)
  · obtain ⟨before, -, opened'⟩ := slots owner conn slot
    exact (locks conn owner.loop).2 ⟨sound.leads owner conn before (opened' opened), opened⟩
  · obtain ⟨before, -⟩ := (locks conn loop).1 holds
    rcases sound.held conn loop before with there | ⟨owner, loops, slot⟩
    · refine .inl ((gone conn there).resolve_right fun closed => ?_)
      cases closed.symm.trans before.isOpen
    · rcases kept owner conn slot with slot | gone
      · exact .inr ⟨owner, loops, slot⟩
      · exact .inl gone

theorem locks_same (conn : Nat) (loop : Loop) : world.server.Holds conn loop.key ↔
    world.server.Holds conn loop.key ∧ world.server.isOpen conn = true :=
  (and_iff_left_of_imp Server.Holds.isOpen).symm

/-- A connection that no slot holds goes from one place to another. -/
theorem Sound.move (sound : Sound world) (place : Place)
    (old : ∀ owner, world.place conn ≠ .kept owner)
    (free : place = .gone ∨ world.place conn ≠ .gone) : Sound (world.move conn place) := by
  refine sound.frame (fun owner other slot => ⟨slot, Function.update_of_ne ?_ .., id⟩) locks_same
    (fun _ _ slot => .inl slot) fun other gone => .inl ?_
  · rintro rfl
    exact old owner (sound.kept owner other slot)
  · by_cases same : other = conn
    · subst same
      exact (Function.update_self ..).trans (free.resolve_right fun present => present gone)
    · exact (Function.update_of_ne same ..).trans gone

theorem Sound.close (sound : Sound world) : Sound (world.close conn) := by
  have closed : ∀ other, (world.close conn).server.isOpen other
      = if other = conn then false else world.server.isOpen other := fun _ => Server.isOpen_close
  refine sound.frame (fun owner other slot => ⟨slot, rfl, fun now => ?_⟩) (fun other loop => ?_)
    (fun _ _ slot => .inl slot) fun _ gone => .inl gone
  · rw [closed] at now
    split at now
    · cases now
    · exact now
  · rw [closed]
    refine Server.holds_close.trans (and_congr_right fun holds => ?_)
    simp [holds.isOpen]

theorem Sound.giveUp (sound : Sound world) (slot : world.slot worker = some conn) :
    Sound (world.giveUp worker conn) := by
  have placed := sound.kept worker conn slot
  refine sound.frame (fun owner other there => ?_) locks_same (fun owner other there => ?_)
    fun other gone => .inl ?_
  · have apart : owner ≠ worker := by
      rintro rfl
      cases (Function.update_self ..).symm.trans there
    have before := (Function.update_of_ne apart ..).symm.trans there
    refine ⟨before, Function.update_of_ne ?_ .., id⟩
    rintro rfl
    cases (sound.kept owner other before).symm.trans placed
    exact apart rfl
  · by_cases mine : owner = worker
    · subst mine
      cases there.symm.trans slot
      exact .inr (Function.update_self ..)
    · exact .inl ((Function.update_of_ne mine ..).trans there)
  · by_cases same : other = conn
    · exact same ▸ Function.update_self ..
    · exact (Function.update_of_ne same ..).trans gone

/-- What a lock that is granted says. -/
theorem holds_lock (granted : (world.server.tryLock conn worker.loop.key).2 = true) (other : Nat)
    (loop : Loop) : (world.lock worker conn).server.Holds other loop.key ↔
      if loop = worker.loop then other = conn else world.server.Holds other loop.key := by
  rw [World.lock, Server.holds_tryLock, granted]
  by_cases same : loop = worker.loop
  · simp [same]
  · rw [if_neg fun both => same (key_injective both.1), if_neg same]

/-- Who gets the lock becomes the leader. -/
theorem Sound.keep (sound : Sound world) (free : world.slot worker = none)
    (placed : world.place conn = .lent worker) (opened : world.server.isOpen conn = true)
    (granted : (world.server.tryLock conn worker.loop.key).2 = true) :
    Sound ((world.lock worker conn).keep worker conn) := by
  have unslotted : ∀ owner, world.slot owner ≠ some conn := by
    intro owner slot
    cases (sound.kept owner conn slot).symm.trans placed
  have slots : ∀ owner other, ((world.lock worker conn).keep worker conn).slot owner = some other ↔
      if owner = worker then other = conn else world.slot owner = some other := by
    intro owner other
    rw [slot_keep]
    split
    · rw [Option.some.injEq, eq_comm]
    · rfl
  refine ⟨fun owner other there => ?_, fun owner other there now => ?_, fun other loop holds => ?_⟩
  · have there := (slots owner other).1 there
    split at there
    case isTrue mine => exact mine ▸ there ▸ Function.update_self ..
    case isFalse =>
        refine (Function.update_of_ne ?_ ..).trans (sound.kept owner other there)
        exact fun same => unslotted owner (same ▸ there)
  · refine (holds_lock granted other owner.loop).2 ?_
    have there := (slots owner other).1 there
    split at there
    case isTrue mine => rwa [if_pos (congrArg Worker.loop mine)]
    case isFalse =>
        have before := sound.leads owner other there
          ((congrFun Server.isOpen_tryLock other).symm.trans now)
        split
        case isTrue same => exact (Server.tryLock_eq_true opened).1 granted other (same ▸ before)
        case isFalse => exact before
  · replace holds := (holds_lock granted other loop).1 holds
    split at holds
    case isTrue same =>
        exact .inr ⟨worker, same.symm, (slots worker other).2 ((if_pos rfl).mpr holds)⟩
    case isFalse differs =>
        have apart : other ≠ conn := by
          rintro rfl
          rcases sound.held other loop holds with gone | ⟨owner, -, slot⟩
          · cases gone.symm.trans placed
          · exact unslotted owner slot
        refine (sound.held other loop holds).imp (Function.update_of_ne apart ..).trans ?_
        rintro ⟨owner, loops, slot⟩
        refine ⟨owner, loops, (slots owner other).2 ?_⟩
        rw [if_neg]
        · exact slot
        · rintro rfl
          exact differs loops.symm

theorem giveUp_keep (free : world.slot worker = none) :
    ((world.lock worker conn).keep worker conn).giveUp worker conn
      = (world.lock worker conn).move conn .gone := by
  simp [World.giveUp, World.keep, World.move, World.lock, ← free]

theorem lock_refused (refused : (world.server.tryLock conn worker.loop.key).2 ≠ true) :
    world.lock worker conn = world := by
  rw [World.lock, Server.tryLock_refused (Bool.eq_false_iff.2 refused)]

theorem Sound.tryAdvisoryLock (sound : Sound world) (free : world.slot worker = none)
    (placed : world.place conn = .lent worker) (fate : Fate) :
    Sound (world.tryAdvisoryLock worker conn fate).1 := by
  have old : ∀ owner, world.place conn ≠ .kept owner := by
    intro owner same
    cases placed.symm.trans same
  have gone := sound.move .gone old (.inl rfl)
  cases fate with
  | refused => exact sound
  | answered =>
      rw [World.tryAdvisoryLock]
      split
      case isFalse => exact gone
      case isTrue opened =>
          split
          case isTrue granted => exact sound.keep free placed opened granted
          case isFalse => exact sound
  | lost reached =>
      rw [World.tryAdvisoryLock]
      split
      case isFalse => exact gone
      case isTrue =>
          by_cases granted : (world.server.tryLock conn worker.loop.key).2 = true
          · have opened : world.server.isOpen conn = true := by
              by_contra closed
              rw [Server.tryLock, dif_neg closed] at granted
              cases granted
            have lost := (sound.keep free placed opened granted).giveUp (Function.update_self ..)
            rwa [giveUp_keep free] at lost
          · rwa [lock_refused granted]

theorem tryAdvisoryLock_elsewhere (fate : Fate) :
    let after := (world.tryAdvisoryLock worker conn fate).1
    after.server.isOpen = world.server.isOpen
      ∧ (∀ other ≠ worker, after.slot other = world.slot other)
      ∧ ∀ other ≠ conn, after.place other = world.place other := by
  have gone : ∀ other ≠ conn, (world.move conn .gone).place other = world.place other :=
    fun other apart => Function.update_of_ne apart ..
  unfold World.tryAdvisoryLock
  cases fate with
  | refused => exact ⟨rfl, fun _ _ => rfl, fun _ _ => rfl⟩
  | lost reached =>
      cases reached with
      | false => exact ⟨rfl, fun _ _ => rfl, gone⟩
      | true => exact ⟨Server.isOpen_tryLock, fun _ _ => rfl, gone⟩
  | answered =>
      dsimp only
      split
      case isFalse => exact ⟨rfl, fun _ _ => rfl, gone⟩
      case isTrue =>
          split
          case isFalse => exact ⟨rfl, fun _ _ => rfl, fun _ _ => rfl⟩
          case isTrue =>
              exact ⟨Server.isOpen_tryLock, fun other apart => Function.update_of_ne apart ..,
                fun other apart => Function.update_of_ne apart ..⟩

theorem Sound.acquire (sound : Sound world) : Sound (world.acquire worker conn).1 := by
  unfold World.acquire
  dsimp only
  split
  case isTrue idle =>
      refine sound.move _ (fun owner same => ?_) (.inr fun same => ?_)
      · cases idle.symm.trans same
      · cases idle.symm.trans same
  case isFalse =>
      split
      case isFalse => exact sound
      case isTrue fresh =>
          have unslotted : ∀ owner other, world.slot owner = some other → other ≠ conn := by
            rintro owner other slot rfl
            cases fresh.1.symm.trans (sound.kept owner other slot)
          refine sound.frame (fun owner other slot => ?_) (fun other loop => ?_)
            (fun _ _ slot => .inl slot) fun other gone => ?_
          · have apart := unslotted owner other slot
            exact ⟨slot, Function.update_of_ne apart ..,
              fun now => (Server.isOpen_join.trans (if_neg apart)).symm.trans now⟩
          · exact (and_iff_left_of_imp fun holds : Server.Holds _ _ _ => holds.isOpen).symm
          · by_cases same : other = conn
            · exact .inr (same ▸ fresh.2)
            · exact .inl ((Function.update_of_ne same ..).trans gone)

/-- What is not in the hands of the others may be moved. -/
theorem spared_move {owner other : Worker} (sound : Sound world) (apart : other ≠ owner)
    (slot : ∀ worker ≠ owner, after.slot worker = world.slot worker)
    (place : ∀ other ≠ conn, after.place other = world.place other)
    (mine : ∀ worker ≠ owner, world.place conn ≠ .lent worker ∧ world.place conn ≠ .kept worker)
    (opened : ∀ other ≠ conn, world.server.isOpen other = true →
      after.server.isOpen other = true) : Spared other world after := by
  refine ⟨⟨slot other apart, fun conn' same => (place conn' ?_).trans same⟩,
    fun conn' held now => opened conn' ?_ now⟩
  · rintro rfl
    exact (mine other apart).1 same
  · rintro rfl
    exact (mine other apart).2 (sound.kept other conn' held)

/-- An operation that may be done keeps the world sound and spares the others. -/
theorem Sound.perform {enabled : Nat → Bool} {operation : Operation} (choice : Choice)
    (sound : Sound world) (may : May enabled worker world operation) :
    Sound (world.perform operation choice).1
      ∧ ∀ other ≠ worker, Spared other world (world.perform operation choice).1 := by
  have stays : ∀ other, Spared other world world :=
    fun _ => ⟨⟨rfl, fun _ same => same⟩, fun _ _ => id⟩
  have lent {conn : Nat} (there : world.place conn = .lent worker) :
      ∀ other ≠ worker, world.place conn ≠ .lent other ∧ world.place conn ≠ .kept other := by
    rw [there]
    refine fun other apart => ⟨fun same => ?_, Place.noConfusion⟩
    cases same
    exact apart rfl
  cases operation with
  | selectOne conn => exact ⟨sound, fun other _ => stays other⟩
  | sweep owner => exact ⟨sound, fun other _ => stays other⟩
  | detachClose owner conn =>
      obtain ⟨rfl, slot⟩ := may
      have mine : ∀ other ≠ owner,
          world.place conn ≠ .lent other ∧ world.place conn ≠ .kept other := by
        rw [sound.kept owner conn slot]
        refine fun other apart => ⟨Place.noConfusion, fun same => ?_⟩
        cases same
        exact apart rfl
      have given := sound.giveUp slot
      rw [World.perform]
      dsimp only
      split
      · exact ⟨given, fun other apart => spared_move sound apart
          (fun _ apart => Function.update_of_ne apart ..)
          (fun _ apart => Function.update_of_ne apart ..) mine fun _ _ => id⟩
      · exact ⟨given.close, fun other apart => spared_move sound apart
          (fun _ apart => Function.update_of_ne apart ..)
          (fun _ apart => Function.update_of_ne apart ..) mine
          fun _ apart now => (Server.isOpen_close.trans (if_neg apart)).trans now⟩
  | acquire owner =>
      obtain ⟨rfl, -⟩ := may
      rw [World.perform]
      cases choice.fate with
      | refused => exact ⟨sound, fun other _ => stays other⟩
      | lost _ => exact ⟨sound, fun other _ => stays other⟩
      | answered =>
          refine ⟨sound.acquire, fun other apart => ?_⟩
          unfold World.acquire
          dsimp only
          split
          case isTrue idle =>
              exact spared_move sound apart (fun _ _ => rfl)
                (fun _ apart => Function.update_of_ne apart ..)
                (fun _ _ => idle ▸ ⟨Place.noConfusion, Place.noConfusion⟩) fun _ _ => id
          case isFalse =>
              split
              case isFalse => exact stays other
              case isTrue fresh =>
                  refine spared_move sound apart (fun _ _ => rfl)
                    (fun _ apart => Function.update_of_ne apart ..)
                    (fun _ _ => fresh.1 ▸ ⟨Place.noConfusion, Place.noConfusion⟩)
                    fun _ apart now => (Server.isOpen_join.trans (if_neg apart)).trans now
  | tryAdvisoryLock owner conn =>
      obtain ⟨rfl, free, there⟩ := may
      obtain ⟨opened, slot, place⟩ := @tryAdvisoryLock_elsewhere world conn owner choice.fate
      exact ⟨sound.tryAdvisoryLock free there choice.fate, fun other apart =>
        spared_move sound apart slot place (lent there)
          fun other _ now => (congrFun opened other).trans now⟩
  | drop owner conn =>
      obtain rfl := may
      rw [World.perform]
      dsimp only
      split
      case isFalse => exact ⟨sound, fun other _ => stays other⟩
      case isTrue there =>
          refine ⟨sound.move _ (fun owner same => ?_) (.inr fun same => ?_), fun other apart =>
            spared_move sound apart (fun _ _ => rfl)
              (fun _ apart => Function.update_of_ne apart ..) (lent there) fun _ _ => id⟩
          · cases there.symm.trans same
          · cases there.symm.trans same

end Steps

/-! ## Ticks -/

section Ticks

variable {enabled : Nat → Bool} {world : World} {worker : Worker} {conn : Nat}

theorem Relies.refl (world : World) : Relies worker world world := ⟨rfl, fun _ same => same⟩

theorem Relies.trans {first second third : World} (earlier : Relies worker first second)
    (later : Relies worker second third) : Relies worker first third :=
  ⟨later.slot.trans earlier.slot, fun conn same => later.lent conn (earlier.lent conn same)⟩

def rules (enabled : Nat → Bool) : Discipline machine where
  Inv := Sound
  allowed _ _ _ _ _ := True
  may := May enabled
  rely := Relies
  refl _ := Relies.refl
  trans := Relies.trans
  keeps sound may _ := (sound.perform _ may).1
  spares apart sound may _ := ((sound.perform _ may).2 _ (Ne.symm apart)).toRelies

theorem acquire_ok {choice : Choice}
    (got : (world.perform (.acquire worker) choice).2 = .ok conn) :
    (world.perform (.acquire worker) choice).1.slot = world.slot
      ∧ (world.perform (.acquire worker) choice).1.place conn = .lent worker := by
  unfold World.perform World.acquire at got ⊢
  cases fate : choice.fate with
  | refused => simp [fate] at got
  | lost _ => simp [fate] at got
  | answered =>
      simp only [fate] at got ⊢
      split at got
      case isTrue idle =>
          cases got
          rw [if_pos idle]
          exact ⟨rfl, Function.update_self ..⟩
      case isFalse taken =>
          split at got
          case isFalse => cases got
          case isTrue fresh =>
              cases got
              rw [if_neg taken, if_pos fresh]
              exact ⟨rfl, Function.update_self ..⟩

theorem tryAdvisoryLock_ok {fate : Fate}
    (got : (world.tryAdvisoryLock worker conn fate).2 = .ok true) :
    (world.tryAdvisoryLock worker conn fate).1.slot worker = some conn := by
  unfold World.tryAdvisoryLock at got ⊢
  cases fate with
  | refused => cases got
  | lost _ => cases got
  | answered =>
      dsimp only at got ⊢
      split at got
      case isFalse => cases got
      case isTrue opened =>
          split at got
          case isFalse => cases got
          case isTrue granted =>
              rw [if_pos opened, if_pos granted]
              exact Function.update_self ..

/-- Leaders have their connection in the slot. -/
def Led (worker : Worker) (status : LeaderStatus) (world : World) : Prop :=
  status = .leader → ∃ conn, world.slot worker = some conn

theorem safe_drop {status : LeaderStatus} (other : status ≠ .leader) :
    Safe (rules enabled) worker (.op (.drop worker conn) fun _ => .done status : Io LeaderStatus)
      (Led worker) world :=
  fun _ _ _ => ⟨rfl, fun _ _ _ _ _ _ leads => absurd leads other⟩

theorem safe_elect (free : world.slot worker = none) :
    Safe (rules enabled) worker (elect worker) (Led worker) world := by
  intro before relies _
  refine ⟨⟨rfl, relies.slot.trans free⟩, fun choice _ _ => ?_⟩
  show Safe _ _ _ _ (before.perform (.acquire worker) choice).1
  cases got : (before.perform (.acquire worker) choice).2 with
  | error err => 
      simp only [machine, got]
      exact fun _ _ _ leads => by cases leads
  | ok conn =>
      obtain ⟨slots, placed⟩ := acquire_ok got
      simp only [machine, got]
      intro later relies' _
      refine ⟨⟨rfl, ?_, relies'.lent conn placed⟩, fun choice' _ _ => ?_⟩
      · rw [relies'.slot, slots, relies.slot, free]
      show Safe _ _ _ _ (later.tryAdvisoryLock worker conn choice'.fate).1
      cases locked : (later.tryAdvisoryLock worker conn choice'.fate).2 with
      | error err => 
          simp only [World.perform, locked]
          exact safe_drop (fun same => by cases same)
      | ok granted =>
          simp only [World.perform, locked]
          cases granted with
          | false => exact safe_drop (fun same => by cases same)
          | true =>
              intro last relies'' _ _
              exact ⟨conn, relies''.slot.trans (tryAdvisoryLock_ok locked)⟩

theorem safe_ensureLeader : Safe (rules enabled) worker
    (ensureLeader worker (world.slot worker)) (Led worker) world := by
  cases slot : world.slot worker with
  | none => exact safe_elect slot
  | some conn =>
      intro before relies _
      have kept : before.slot worker = some conn := relies.slot.trans slot
      refine ⟨trivial, fun choice _ _ => ?_⟩
      show Safe _ _ _ _ before
      cases alive : (before.perform (.selectOne conn) choice).2 with
      | true =>
          simp only [machine, alive]
          exact fun last relies' _ _ => ⟨conn, relies'.slot.trans kept⟩
      | false =>
          simp only [machine, alive]
          intro later relies' _
          refine ⟨⟨rfl, relies'.slot.trans kept⟩, fun choice' _ _ => safe_elect ?_⟩
          show (later.perform (.detachClose worker conn) choice').1.slot worker = none
          rw [World.perform]
          dsimp only
          split <;> exact Function.update_self ..

theorem safe_turn : Safe (rules enabled) worker
    (turn (enabled worker.replica) worker (world.slot worker)) (fun _ _ => True) world := by
  have idle : ∀ later, Safe (rules enabled) worker (.done () : Io Unit) (fun _ _ => True) later :=
    fun _ _ _ _ => trivial
  unfold turn
  split
  case isTrue =>
      refine Safe.bind safe_ensureLeader fun status later _ led => ?_
      cases status with
      | notLeader => exact idle later
      | lockError err => exact idle later
      | leader =>
          obtain ⟨conn, slot⟩ := led rfl
          exact fun last relies _ => ⟨⟨rfl, fun _ => ⟨conn, relies.slot.trans slot⟩⟩,
            fun _ _ _ => idle _⟩
  case isFalse off =>
      exact fun last _ _ => ⟨⟨rfl, fun on => absurd on off⟩, fun _ _ _ => idle _⟩

end Ticks


/-! ## Runs -/

section Clusters

variable {enabled : Nat → Bool} {cluster : Cluster} {world : World} {leader : Worker} {conn : Nat}

theorem Sound.crash (sound : Sound world) (replica : Nat) : Sound (world.crash replica) := by
  have places : ∀ other, (world.crash replica).place other
      = if (world.place other).isOf replica then .gone else world.place other := fun _ => rfl
  have slots : ∀ owner, (world.crash replica).slot owner
      = if owner.replica = replica then none else world.slot owner := fun _ => rfl
  refine sound.frame (fun owner other slot => ?_) locks_same (fun owner other slot => ?_)
    fun other gone => .inl ?_
  · rw [slots] at slot
    split at slot
    case isTrue => cases slot
    case isFalse apart =>
        refine ⟨slot, ?_, id⟩
        rw [places, sound.kept owner other slot]
        exact if_neg fun mine => apart (beq_iff_eq.1 mine)
  · rw [slots, places, sound.kept owner other slot]
    by_cases mine : owner.replica = replica
    · exact .inr (if_pos (beq_iff_eq.2 mine))
    · exact .inl ((if_neg mine).trans slot)
  · rw [places, gone]
    rfl

theorem Sound.foreign (sound : Sound world) {key : LockKey} (other : key.1 ≠ leaderLockClass)
    (takes : Bool) : Sound { world with
      server := if takes then (world.server.tryLock conn key).1
        else (world.server.unlock conn key).1 } := by
  have apart : ∀ loop : Loop, loop.key ≠ key := fun loop same => other (same ▸ rfl)
  have same : ∀ {server : Server Nat LockKey}, server.isOpen = world.server.isOpen →
      (∀ other (loop : Loop), server.Holds other loop.key ↔ world.server.Holds other loop.key) →
        Sound { world with server } := by
    intro server opened locks
    refine sound.frame (fun _ other slot => ⟨slot, rfl, (congrFun opened other).symm.trans⟩)
      (fun other loop => ?_) (fun _ _ slot => .inl slot) fun _ gone => .inl gone
    rw [locks, opened]
    exact locks_same other loop
  cases takes with
  | true =>
      refine same Server.isOpen_tryLock fun other loop => Server.holds_tryLock.trans ?_
      rw [if_neg fun both => apart loop both.1]
  | false =>
      exact same Server.isOpen_unlock fun other loop => Server.holds_unlock_of_ne (apart loop)

theorem good_exec (good : Good (rules enabled) cluster) (action : Action)
    (may : allowed cluster action) : Good (rules enabled) (exec enabled cluster action) := by
  cases action with
  | tick worker => exact good.begin safe_turn
  | step worker choice =>
      exact good.step (fun _ _ _ _ _ _ _ _ _ starts => by cases starts) fun _ _ _ => trivial
  | ended conn =>
      exact good.outside good.inv.close fun _ => .inr ⟨rfl, fun _ same => same⟩
  | foreign conn key takes =>
      exact good.outside (good.inv.foreign may takes) fun _ => .inr ⟨rfl, fun _ same => same⟩
  | crash replica =>
      refine ⟨good.inv.crash replica, fun worker => ?_⟩
      show Safe _ _ (if worker.replica = replica then .done () else cluster.threads worker) _ _
      split
      case isTrue => exact fun _ _ _ => trivial
      case isFalse apart =>
          refine (good.safe worker).later ⟨if_neg apart, fun conn same => ?_⟩
          have kept : (cluster.state.place conn).isOf replica ≠ true := by
            rw [same]
            exact fun mine => apart (beq_iff_eq.1 mine)
          exact (if_neg kept).trans same

theorem good_of_reachable (reachable : ReachableCluster enabled cluster) :
    Good (rules enabled) cluster := by
  refine reachable.invariant ?_ fun before action good may => good_exec good action may
  rintro _ rfl
  exact ⟨.empty, fun _ _ _ _ => trivial⟩

theorem exclusive_of_good (good : Good (rules enabled) cluster) : Exclusive enabled cluster := by
  refine ⟨fun first second conn conn' loops leads leads' => ?_, fun worker next due => ?_,
    good.inv.held⟩
  · have holds := good.inv.leads first conn leads.1 leads.2
    have holds' := good.inv.leads second conn' leads'.1 leads'.2
    obtain rfl := holds.unique (loops ▸ holds')
    cases (good.inv.kept first conn' leads.1).symm.trans (good.inv.kept second conn' leads'.1)
    rfl
  · exact (good.may due).2

theorem leaders_exclusive (reachable : ReachableCluster enabled cluster) :
    Exclusive enabled cluster :=
  exclusive_of_good (good_of_reachable reachable)

/-- Two replicas whose ticks take turns: the first leads. -/
theorem first_replica_leads : Exclusive (fun _ => true)
    (run (exec fun _ => true) start [.tick ⟨1, .dispatchReaper⟩, .tick ⟨2, .dispatchReaper⟩,
      .step ⟨1, .dispatchReaper⟩ ⟨.answered, 1⟩, .step ⟨2, .dispatchReaper⟩ ⟨.answered, 2⟩,
      .step ⟨1, .dispatchReaper⟩ ⟨.answered, 1⟩,
      .step ⟨2, .dispatchReaper⟩ ⟨.answered, 2⟩]) :=
  leaders_exclusive (reachable_run rfl
    ⟨trivial, trivial, trivial, trivial, trivial, trivial, trivial⟩)

/-! ## Leadership -/

/-- The session does not end, nor the process of the leader, and the leader's calls are
answered. -/
def Spares (leader : Worker) (conn : Nat) (cluster : Cluster) : Action → Prop
  | .ended other => other ≠ conn
  | .crash replica => replica ≠ leader.replica
  | .step worker choice => worker = leader → choice.fate = .answered
  | action => allowed cluster action

/-- A leader that is not about to give its session up. -/
structure Steady (enabled : Nat → Bool) (leader : Worker) (conn : Nat) (cluster : Cluster) :
    Prop where
  leads : Leads cluster leader conn
  thread : cluster.threads leader = .done () ∨ cluster.threads leader = .op (.sweep leader) .done
    ∨ cluster.threads leader = turn (enabled leader.replica) leader (some conn)

theorem step_eq {worker : Worker} {choice : Choice} {operation : Operation}
    {next : Reply operation → Io Unit} (due : cluster.threads worker = .op operation next) :
    cluster.step machine worker choice
      = Pool.put ⟨(cluster.state.perform operation choice).1, cluster.threads⟩ worker
        (next (cluster.state.perform operation choice).2) := by
  rw [Pool.step, due]
  rfl

theorem steady_exec (good : Good (rules enabled) cluster)
    (steady : Steady enabled leader conn cluster) {action : Action}
    (spares : Spares leader conn cluster action) :
    Steady enabled leader conn (exec enabled cluster action) := by
  obtain ⟨⟨slot, opened⟩, thread⟩ := steady
  cases action with
  | ended other =>
      exact ⟨⟨slot, (Function.update_of_ne (Ne.symm spares) ..).trans opened⟩, thread⟩
  | foreign other key takes =>
      refine ⟨⟨slot, ?_⟩, thread⟩
      cases takes with
      | true => exact (congrFun Server.isOpen_tryLock conn).trans opened
      | false => exact (congrFun Server.isOpen_unlock conn).trans opened
  | crash replica =>
      have same : (exec enabled cluster (.crash replica)).threads leader = cluster.threads leader :=
        if_neg (Ne.symm spares)
      refine ⟨⟨(if_neg (Ne.symm spares)).trans slot, opened⟩, ?_⟩
      rw [same]
      exact thread
  | tick worker =>
      rw [exec, Pool.begin]
      split
      case isFalse => exact ⟨⟨slot, opened⟩, thread⟩
      case isTrue =>
          refine ⟨⟨slot, opened⟩, ?_⟩
          rw [Pool.threads_put]
          split
          case isTrue same =>
              subst same
              exact .inr (.inr (by rw [slot]))
          case isFalse => exact thread
  | step worker choice =>
      by_cases same : worker = leader
      · subst same
        have swept : cluster.threads worker = .op (.sweep worker) .done →
            Steady enabled worker conn (exec enabled cluster (.step worker choice)) := by
          intro due
          rw [exec, step_eq due]
          exact ⟨⟨slot, opened⟩, .inl (Function.update_self ..)⟩
        rcases thread with idle | due | due
        · rw [exec, Pool.step_done idle]
          exact ⟨⟨slot, opened⟩, .inl idle⟩
        · exact swept due
        · unfold turn at due
          split at due
          case isFalse => exact swept due
          case isTrue =>
              have alive : (cluster.state.perform (.selectOne conn) choice).2 = true := by
                simp [World.perform, spares rfl, opened]
              rw [exec, @step_eq cluster worker choice (.selectOne conn) _ due, alive]
              exact ⟨⟨slot, opened⟩, .inr (.inl (Function.update_self ..))⟩
      · cases due : cluster.threads worker with
        | done _ =>
            rw [exec, Pool.step_done due]
            exact ⟨⟨slot, opened⟩, thread⟩
        | op operation next =>
            have may := good.may due
            have spared := (good.inv.perform choice may).2 leader (Ne.symm same)
            rw [exec, step_eq due]
            refine ⟨⟨spared.slot.trans slot, spared.opened conn slot opened⟩, ?_⟩
            rw [Pool.threads_put, if_neg (Ne.symm same)]
            exact thread

theorem allowed_of_spares {action : Action} (spares : Spares leader conn cluster action) :
    allowed cluster action := by
  cases action with
  | foreign _ _ _ => exact spares
  | _ => trivial

/-- Leadership lasts while nothing disturbs it, and meanwhile nobody else leads; and when nobody
holds the lock of a loop, a tick of a worker that gets a working connection makes it the leader. -/
structure Lasting (enabled : Nat → Bool) (cluster : Cluster) : Prop where
  lasts : ∀ leader conn later, Leads cluster leader conn → (cluster.threads leader).isDone = true →
    Reaches (exec enabled) (Spares leader conn) cluster later →
      Leads later leader conn ∧
        ∀ other ≠ leader, other.loop = leader.loop → ∀ conn', ¬Leads later other conn'
  regained : ∀ worker conn, enabled worker.replica = true →
    (cluster.threads worker).isDone = true → cluster.state.slot worker = none →
    cluster.state.place conn = .gone → cluster.state.server.isOpen conn = false →
    (∀ other, ¬cluster.state.server.Holds other worker.loop.key) →
      Leads (run (exec enabled) cluster [.tick worker, .step worker ⟨.answered, conn⟩,
        .step worker ⟨.answered, conn⟩]) worker conn

theorem done_of_isDone {program : Io Unit} (idle : program.isDone = true) :
    program = .done () := by
  cases program with
  | done _ => rfl
  | op _ _ => cases idle

theorem regains {worker : Worker} (on : enabled worker.replica = true)
    (idle : (cluster.threads worker).isDone = true) (free : cluster.state.slot worker = none)
    (new : cluster.state.place conn = .gone) (closed : cluster.state.server.isOpen conn = false)
    (nobody : ∀ other, ¬cluster.state.server.Holds other worker.loop.key) :
    Leads (run (exec enabled) cluster [.tick worker, .step worker ⟨.answered, conn⟩,
      .step worker ⟨.answered, conn⟩]) worker conn := by
  let lent : World := { cluster.state.move conn (.lent worker) with
    server := cluster.state.server.join conn }
  have ticked : exec enabled cluster (.tick worker)
      = cluster.put worker (turn true worker none) := by
    rw [exec, Pool.begin, if_pos idle, on, free]
  have acquired : cluster.state.perform (.acquire worker) ⟨.answered, conn⟩ = (lent, .ok conn) := by
    have other : cluster.state.place conn ≠ .idle worker.replica := by
      rw [new]
      exact Place.noConfusion
    show cluster.state.acquire worker conn = _
    rw [World.acquire, if_neg other, if_pos ⟨new, closed⟩]
  have opened : lent.server.isOpen conn = true := Server.isOpen_join.trans (if_pos rfl)
  have granted : (lent.server.tryLock conn worker.loop.key).2 = true :=
    (Server.tryLock_eq_true opened).2 fun other holds => absurd holds (nobody other)
  have locked : lent.perform (.tryAdvisoryLock worker conn) ⟨.answered, conn⟩
      = ((lent.lock worker conn).keep worker conn, .ok true) := by
    show lent.tryAdvisoryLock worker conn .answered = _
    rw [World.tryAdvisoryLock, if_pos opened, if_pos granted]
  have first := @step_eq (cluster.put worker (turn true worker none)) worker ⟨.answered, conn⟩
    (.acquire worker) _ (Function.update_self ..)
  rw [show (cluster.put worker (turn true worker none)).state = cluster.state from rfl,
    acquired] at first
  obtain ⟨next, due⟩ : ∃ next, ((cluster.put worker (turn true worker none)).step machine worker
      ⟨.answered, conn⟩).threads worker = .op (.tryAdvisoryLock worker conn) next :=
    ⟨_, (congrArg (fun after : Cluster => after.threads worker) first).trans
      (Function.update_self ..)⟩
  have second := @step_eq _ worker ⟨.answered, conn⟩ _ next due
  rw [first] at second
  show Leads (((exec enabled cluster (.tick worker)).step machine worker _).step machine worker _)
    _ _
  rw [ticked, first, second]
  show (lent.perform (.tryAdvisoryLock worker conn) _).1.slot worker = some conn
    ∧ (lent.perform (.tryAdvisoryLock worker conn) _).1.server.isOpen conn = true
  rw [locked]
  exact ⟨(slot_keep worker).trans (if_pos rfl),
    (congrFun Server.isOpen_tryLock conn).trans opened⟩

theorem leadership_lasts (reachable : ReachableCluster enabled cluster) :
    Lasting enabled cluster := by
  have good := good_of_reachable reachable
  refine ⟨fun leader conn later leads idle reaches => ?_,
    fun _ _ => regains⟩
  have begun : Steady enabled leader conn cluster := ⟨leads, .inl (done_of_isDone idle)⟩
  obtain ⟨goodLater, steady⟩ := reaches.stable
    (fun _ action good spares => good_exec good action (allowed_of_spares spares))
    (fun _ _ good steady spares => steady_exec good steady spares) good begun
  refine ⟨steady.leads, fun other apart loops conn' leads' => apart ?_⟩
  exact (exclusive_of_good goodLater).leader other leader conn' conn loops leads' steady.leads

/-- A replica that has been elected stays the leader. -/
theorem elected_replica_stays : Lasting (fun _ => true)
    (run (exec fun _ => true) start [.tick ⟨1, .dispatchReaper⟩,
      .step ⟨1, .dispatchReaper⟩ ⟨.answered, 1⟩, .step ⟨1, .dispatchReaper⟩ ⟨.answered, 1⟩,
      .step ⟨1, .dispatchReaper⟩ ⟨.answered, 1⟩]) :=
  leadership_lasts (reachable_run rfl ⟨trivial, trivial, trivial, trivial, trivial⟩)

end Clusters

end Forge.LeaderElection
