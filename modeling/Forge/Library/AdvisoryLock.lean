import Mathlib.Logic.Function.Basic

/-! Locks that the sessions of a server take and give back. A lock is free, or one session has
taken it, any number of times; a session that ends gives back all that it has. -/

namespace Forge.Library.AdvisoryLock

/-- The open sessions, and who holds a lock and how many times. -/
structure Server (Session Key : Type) where
  isOpen : Session → Bool
  holder : Key → Option (Session × Nat)
  sound : ∀ key session count, holder key = some (session, count) →
    isOpen session = true ∧ 0 < count

namespace Server

variable {Session Key : Type} [DecidableEq Session] [DecidableEq Key]

def empty : Server Session Key :=
  ⟨fun _ => false, fun _ => none, fun _ _ _ held => by cases held⟩

variable (server : Server Session Key)

def Holds (session : Session) (key : Key) : Prop :=
  ∃ count, server.holder key = some (session, count)

def join (session : Session) : Server Session Key where
  isOpen := Function.update server.isOpen session true
  holder := server.holder
  sound key holder count held := by
    obtain ⟨opened, positive⟩ := server.sound key holder count held
    refine ⟨?_, positive⟩
    rw [Function.update_apply]
    split
    · rfl
    · exact opened

def close (session : Session) : Server Session Key where
  isOpen := Function.update server.isOpen session false
  holder key := (server.holder key).filter fun held => held.1 ≠ session
  sound key holder count held := by
    obtain ⟨held, apart⟩ := Option.filter_eq_some_iff.1 held
    obtain ⟨opened, positive⟩ := server.sound key holder count held
    exact ⟨(Function.update_of_ne (of_decide_eq_true apart) ..).trans opened, positive⟩

/-- The lock is held this often, by nobody if never. -/
def set (session : Session) (key : Key) (count : Nat) (opened : server.isOpen session = true) :
    Server Session Key where
  isOpen := server.isOpen
  holder := Function.update server.holder key
    (if count = 0 then none else some (session, count))
  sound other holder times held := by
    rw [Function.update_apply] at held
    split at held
    · split at held
      · cases held
      · next some_ =>
        cases held
        exact ⟨opened, Nat.pos_of_ne_zero some_⟩
    · exact server.sound other holder times held

/-- How many times the session holds the lock, unless another one does. -/
def count (session : Session) (key : Key) : Option Nat :=
  match server.holder key with
  | none => some 0
  | some (holder, count) => if holder = session then some count else none

/-- `pg_try_advisory_lock`. -/
def tryLock (session : Session) (key : Key) : Server Session Key × Bool :=
  if opened : server.isOpen session = true then
    match server.count session key with
    | some count => (server.set session key (count + 1) opened, true)
    | none => (server, false)
  else (server, false)

/-- `pg_advisory_unlock`. -/
def unlock (session : Session) (key : Key) : Server Session Key × Bool :=
  if opened : server.isOpen session = true then
    match server.count session key with
    | some (count + 1) => (server.set session key count opened, true)
    | _ => (server, false)
  else (server, false)

section Lemmas

variable {server : Server Session Key} {session other : Session} {key wanted : Key} {times : Nat}

omit [DecidableEq Session] [DecidableEq Key] in
theorem Holds.isOpen (holds : server.Holds session key) : server.isOpen session = true := by
  obtain ⟨count, held⟩ := holds
  exact (server.sound key session count held).1

omit [DecidableEq Session] [DecidableEq Key] in
theorem Holds.unique (holds : server.Holds session key) (holds' : server.Holds other key) :
    other = session := by
  obtain ⟨count, held⟩ := holds
  obtain ⟨count', held'⟩ := holds'
  cases held'.symm.trans held
  rfl

omit [DecidableEq Key] in
theorem count_eq_some : server.count session key = some times ↔
    (server.holder key = none ∧ times = 0) ∨ server.holder key = some (session, times) := by
  unfold count
  rcases server.holder key with _ | ⟨holder, held⟩
  · simp [eq_comm]
  · dsimp only
    split
    case isTrue same => simp [same]
    case isFalse apart => simp [apart]

omit [DecidableEq Session] in
theorem holds_set {opened : server.isOpen session = true} :
    (server.set session key times opened).Holds other wanted ↔
      if wanted = key then other = session ∧ 0 < times else server.Holds other wanted := by
  unfold Holds set
  simp only [Function.update_apply]
  split
  · by_cases never : times = 0
    · simp [never]
    · simp [never, Nat.pos_of_ne_zero never, eq_comm]
  · rfl

omit [DecidableEq Key] in
theorem isOpen_join : (server.join session).isOpen other =
    if other = session then true else server.isOpen other :=
  Function.update_apply ..

omit [DecidableEq Key] in
theorem isOpen_close : (server.close session).isOpen other =
    if other = session then false else server.isOpen other :=
  Function.update_apply ..

omit [DecidableEq Key] in
theorem holds_join : (server.join session).Holds other key ↔ server.Holds other key := Iff.rfl

omit [DecidableEq Key] in
theorem holds_close : (server.close session).Holds other key ↔
    server.Holds other key ∧ other ≠ session := by
  simp [Holds, close, Option.filter_eq_some_iff]

theorem isOpen_tryLock : (server.tryLock session key).1.isOpen = server.isOpen := by
  unfold tryLock
  split
  · split <;> rfl
  · rfl

theorem isOpen_unlock : (server.unlock session key).1.isOpen = server.isOpen := by
  unfold unlock
  split
  · split <;> rfl
  · rfl

/-- A session takes a lock unless another one holds it. -/
theorem tryLock_eq_true (opened : server.isOpen session = true) :
    (server.tryLock session key).2 = true ↔ ∀ holder, server.Holds holder key →
      holder = session := by
  rw [tryLock, dif_pos opened]
  unfold count Holds
  rcases server.holder key with _ | ⟨holder, held⟩
  · simp
  · by_cases same : holder = session
    · simp [same, eq_comm]
    · simp [same]

theorem tryLock_refused (refused : (server.tryLock session key).2 = false) :
    (server.tryLock session key).1 = server := by
  by_cases opened : server.isOpen session = true
  · rw [tryLock, dif_pos opened] at refused ⊢
    cases held : server.count session key with
    | none => rfl
    | some count =>
        rw [held] at refused
        cases refused
  · rw [tryLock, dif_neg opened]

theorem holds_tryLock : (server.tryLock session key).1.Holds other wanted ↔
    if wanted = key ∧ (server.tryLock session key).2 = true then other = session
    else server.Holds other wanted := by
  unfold tryLock
  split
  · split
    · simp [holds_set]
    · simp
  · simp

theorem holds_unlock_of_ne (apart : wanted ≠ key) :
    (server.unlock session key).1.Holds other wanted ↔ server.Holds other wanted := by
  unfold unlock
  split
  · split
    · rw [holds_set, if_neg apart]
    · rfl
  · rfl

end Lemmas

end Server

end Forge.Library.AdvisoryLock
