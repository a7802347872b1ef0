import Forge.OrchestratorChanges

/-! What the requests and the spawned dispatches may do, and that every operation leaves alone what
the others rely upon. -/

namespace Forge.OrchestratorDiscipline

open Forge.Library.Identifier
open Forge.Library.Interleaving
open Forge.Library.KeyedTable
open Forge.Orchestrator
open Forge.OrchestratorChanges
open Forge.OrchestratorStore

variable {world after : World} {operation : Op} {request : Nat} {id : Uuid}

/-! ## The rules -/

def HasTask (world : World) (id : Uuid) (orgId : String) : Prop :=
  ∃ task ∈ world.db.tasks, task.id = id ∧ task.orgId = orgId

def HasDispatch (world : World) (id : Uuid) : Prop := ∃ row ∈ world.db.dispatches, row.id = id

def Spawned (world : World) (id : Uuid) : Prop :=
  HasDispatch world id ∧ ∀ request, (world.past request).unspawned ≠ some id

def Excused (past : Past) : Prop := past.wrote = true → past.interrupted = true

/-- The verdicts that requests pass, each with its task state. -/
inductive IsVerdict : ReviewState → TaskState → Prop
  | approve : IsVerdict .approved .completed
  | reject : IsVerdict .changesRequested .changesRequested

/-- The request that an operation belongs to. -/
def owner : Op → Option Nat
  | .getTask request _ _ => some request
  | .assign request _ _ _ _ => some request
  | .createDispatch request _ _ => some request
  | .getReview request _ _ => some request
  | .applyVerdict request _ _ _ _ _ _ => some request
  | .createAudit request _ => some request
  | .spawn request _ => some request
  | .respond request _ => some request
  | _ => none

def MayRequest (past : Past) (world : World) : Op → Prop
  | .createTask task => task.state = .pending
  | .assign _ _ _ _ state => state = .assigned ∧ past.dispatched = none
  | .createDispatch _ taskId orgId => HasTask world taskId orgId
  | .updateDispatch _ _ _ _ _ => False
  | .updateState _ _ target => ∃ state, past.read = some state ∧ target ∈ validTransitions state
  | .setSessionId _ _ _ => False
  | .applyVerdict _ _ _ verdict _ target _ =>
      past.decided = none ∧ IsVerdict verdict target ∧
        ∃ state, past.readReview = some state ∧ canTransition state verdict = true
  | .createAudit _ log => log.action ≠ .reviewCreate →
      past.decided = some log.resourceId ∧ past.recorded = false
  | .spawn _ job => past.unspawned = some job.dispatchId
  | .respond _ response => response.isError = true → Excused past
  | _ => True

def MaySpawn (id : Uuid) (world : World) : Op → Prop
  | .updateDispatch dispatchId _ _ _ _ => dispatchId = id
  | .updateState _ _ target => target = .working ∧ id ∉ world.gaveUp
  | .setSessionId _ _ _ => id ∉ world.gaveUp
  | .sessionCreate _ _ _ _ => True
  | .upsertAgent _ _ _ _ => True
  | .sessionPrompt _ _ _ _ => True
  | _ => False

def May (actor : Actor) (world : World) (operation : Op) : Prop :=
  match actor with
  | .request number => number < world.requests ∧ (∀ other, owner operation = some other →
      other = number) ∧ MayRequest (world.past number) world operation
  | .spawn id => Spawned world id ∧ MaySpawn id world operation

structure RequestRelies (request : Nat) (before after : World) : Prop where
  past : after.past request = before.past request
  requests : before.requests ≤ after.requests
  tasks : ∀ {id orgId}, HasTask before id orgId → HasTask after id orgId

structure SpawnRelies (id : Uuid) (before after : World) : Prop where
  spawned : Spawned before id → Spawned after id
  gaveUp : id ∈ after.gaveUp → id ∈ before.gaveUp

def Relies : Actor → World → World → Prop
  | .request number => RequestRelies number
  | .spawn id => SpawnRelies id

/-- Requests to come have no past; a dispatch about to be spawned has a row, and nobody else is
about to spawn it or gave it up. -/
structure Sound (world : World) : Prop where
  fresh : ∀ {request}, world.requests ≤ request → world.past request = .none
  rows : ∀ {request id}, (world.past request).unspawned = some id → HasDispatch world id
  unique : ∀ {request other id}, (world.past request).unspawned = some id →
    (world.past other).unspawned = some id → request = other
  kept : ∀ {request id}, (world.past request).unspawned = some id → id ∉ world.gaveUp
  gave : ∀ {id}, id ∈ world.gaveUp → HasDispatch world id

/-! ## What stays -/

theorem RequestRelies.refl (world : World) : RequestRelies request world world :=
  ⟨rfl, le_rfl, fun there => there⟩

theorem RequestRelies.trans {first second third : World}
    (left : RequestRelies request first second) (right : RequestRelies request second third) :
    RequestRelies request first third :=
  ⟨right.past.trans left.past, left.requests.trans right.requests,
    fun there => right.tasks (left.tasks there)⟩

theorem SpawnRelies.refl (world : World) : SpawnRelies id world world :=
  ⟨fun spawned => spawned, fun gave => gave⟩

theorem SpawnRelies.trans {first second third : World} (left : SpawnRelies id first second)
    (right : SpawnRelies id second third) : SpawnRelies id first third :=
  ⟨fun spawned => right.spawned (left.spawned spawned), fun gave => left.gaveUp (right.gaveUp gave)⟩

theorem Relies.refl : ∀ actor world, Relies actor world world
  | .request _, world => RequestRelies.refl world
  | .spawn _, world => SpawnRelies.refl world

theorem Relies.trans {actor : Actor} {first second third : World}
    (left : Relies actor first second) (right : Relies actor second third) :
    Relies actor first third := by
  cases actor with
  | request number => exact RequestRelies.trans left right
  | spawn id => exact SpawnRelies.trans left right

theorem tasks_of_effect (effect : Effect world operation after) {orgId : String}
    (there : HasTask world id orgId) : HasTask after id orgId := by
  obtain ⟨task, member, rfl, rfl⟩ := there
  obtain ⟨later, member, same, step⟩ := (tasks_evolve effect).forward member
  exact ⟨later, member, same, step.org⟩

theorem dispatches_of_effect (effect : Effect world operation after)
    (there : HasDispatch world id) : HasDispatch after id := by
  obtain ⟨row, member, rfl⟩ := there
  obtain ⟨later, member, same, _⟩ := (dispatches_evolve effect).forward member
  exact ⟨later, member, same⟩

theorem requests_of_effect (effect : Effect world operation after) :
    after.requests = world.requests := by
  cases effect <;> rfl

theorem past_of_effect (effect : Effect world operation after)
    (other : owner operation ≠ some request) : after.past request = world.past request := by
  cases effect with
  | respond => exact Function.update_of_ne (fun same => other (congrArg some same.symm)) ..
  | getTask | assign | createDispatch | applyVerdict | getReview | createAudit | spawn =>
      exact amend_past_of_ne _ _ fun same => other (congrArg some same.symm)
  | _ => rfl

theorem unspawned_of_effect (effect : Effect world operation after)
    (now : (after.past request).unspawned = some id) :
    (world.past request).unspawned = some id ∨
      owner operation = some request ∧ ¬HasDispatch world id ∧ HasDispatch after id := by
  by_cases own : owner operation = some request
  · cases effect with
    | createDispatch queued free inserted =>
        cases own
        obtain ⟨fresh, members⟩ := Table.insert?_eq_some inserted
        simp only [amend_past_self, Option.some.injEq] at now
        subst now
        refine .inr ⟨rfl, ?_, _, (members _).mpr (.inl rfl), rfl⟩
        rintro ⟨row, member, same⟩
        exact fresh row member same
    | spawn =>
        cases own
        simp [World.release] at now
    | respond =>
        cases own
        simp [World.release] at now
    | getTask | assign | applyVerdict | getReview | createAudit =>
        cases own
        simp only [amend_past_self, credit_past] at now
        exact .inl now
    | _ => exact .inl now
  · rw [past_of_effect effect own] at now
    exact .inl now

theorem gaveUp_of_effect (effect : Effect world operation after) (gave : id ∈ after.gaveUp) :
    id ∈ world.gaveUp ∨ HasDispatch world id ∧ ∃ orgId lastError sessionId,
      operation = .updateDispatch id orgId .failed lastError sessionId := by
  cases effect with
  | @updateDispatch dispatchId orgId status lastError sessionId now hit =>
      dsimp only at gave
      split at gave
      case isTrue failed =>
          rcases List.mem_cons.mp gave with rfl | before
          · obtain ⟨row, member, updatable⟩ := Table.any_eq_true.mp hit
            exact .inr ⟨⟨row, member, id_of_updatable updatable⟩, orgId, lastError, sessionId,
              failed ▸ rfl⟩
          · exact .inl before
      case isFalse => exact .inl gave
  | _ => exact .inl gave

theorem past_interrupt (world : World) {other : Nat} (request : Nat) (differs : request ≠ other) :
    (world.interrupt other).past request = world.past request :=
  amend_past_of_ne world _ differs

theorem unspawned_interrupt (world : World) (request other : Nat) :
    ((world.interrupt other).past request).unspawned = (world.past request).unspawned := by
  by_cases same : request = other
  · subst same
    rw [World.interrupt, amend_past_self]
  · rw [past_interrupt world request same]

theorem owner_of_interrupts (whose : interrupts operation = some request) :
    owner operation = some request := by
  cases operation with
  | getTask | assign | createDispatch => exact whose
  | _ => cases whose

theorem owner_of_maySpawn (may : MaySpawn id world operation) : owner operation = none := by
  cases operation with
  | updateDispatch | updateState | setSessionId | sessionCreate | upsertAgent | sessionPrompt => rfl
  | _ => cases may

theorem owner_of_may {actor : Actor} (may : May actor world operation)
    (own : owner operation = some request) :
    actor = .request request ∧ request < world.requests := by
  cases actor with
  | request number =>
      obtain ⟨below, only, _⟩ := may
      obtain rfl := only request own
      exact ⟨rfl, below⟩
  | spawn id => cases (owner_of_maySpawn may.2).symm.trans own

theorem actor_of_gaveUp {actor : Actor} (may : May actor world operation)
    (updates : ∃ orgId lastError sessionId,
      operation = .updateDispatch id orgId .failed lastError sessionId) :
    actor = .spawn id ∧ Spawned world id := by
  obtain ⟨orgId, lastError, sessionId, rfl⟩ := updates
  cases actor with
  | request number => cases may.2.2
  | spawn other =>
      obtain ⟨spawned, rfl⟩ := may
      exact ⟨rfl, spawned⟩

theorem Sound.effect {actor : Actor} (sound : Sound world) (may : May actor world operation)
    (effect : Effect world operation after) : Sound after := by
  refine ⟨fun {request} later => ?_, fun {request id} now => ?_, fun {request other id} left right => ?_,
    fun {request id} now gave => ?_, fun {id} gave => ?_⟩
  · rw [requests_of_effect effect] at later
    rw [past_of_effect effect fun own => absurd (owner_of_may may own).2 later.not_gt]
    exact sound.fresh later
  · rcases unspawned_of_effect effect now with before | ⟨_, _, there⟩
    · exact dispatches_of_effect effect (sound.rows before)
    · exact there
  · rcases unspawned_of_effect effect left with before | ⟨own, new, _⟩
    · rcases unspawned_of_effect effect right with earlier | ⟨_, new, _⟩
      · exact sound.unique before earlier
      · exact absurd (sound.rows before) new
    · rcases unspawned_of_effect effect right with earlier | ⟨same, _⟩
      · exact absurd (sound.rows earlier) new
      · exact Option.some.inj (own.symm.trans same)
  · rcases gaveUp_of_effect effect gave with before | ⟨there, updates⟩
    · rcases unspawned_of_effect effect now with earlier | ⟨_, new, _⟩
      · exact sound.kept earlier before
      · exact new (sound.gave before)
    · rcases unspawned_of_effect effect now with earlier | ⟨_, new, _⟩
      · exact (actor_of_gaveUp may updates).2.2 request earlier
      · exact new there
  · rcases gaveUp_of_effect effect gave with before | ⟨there, _⟩
    · exact dispatches_of_effect effect (sound.gave before)
    · exact dispatches_of_effect effect there

theorem Sound.interrupt (sound : Sound world) (below : request < world.requests) :
    Sound (world.interrupt request) := by
  refine ⟨fun {other} later => ?_, fun now => ?_, fun left right => ?_, fun now => ?_, sound.gave⟩
  · rw [past_interrupt world other (by rintro rfl; exact absurd below later.not_gt)]
    exact sound.fresh later
  · exact sound.rows ((unspawned_interrupt world _ request).symm.trans now)
  · exact sound.unique ((unspawned_interrupt world _ request).symm.trans left)
      ((unspawned_interrupt world _ request).symm.trans right)
  · exact sound.kept ((unspawned_interrupt world _ request).symm.trans now)

theorem relies_of_effect {actor other : Actor} (differs : actor ≠ other)
    (may : May actor world operation) (effect : Effect world operation after) :
    Relies other world after := by
  cases other with
  | request number =>
      refine ⟨past_of_effect effect fun own => differs (owner_of_may may own).1,
        (requests_of_effect effect).ge, tasks_of_effect effect⟩
  | spawn id =>
      refine ⟨fun spawned => ⟨dispatches_of_effect effect spawned.1, fun request now => ?_⟩,
        fun gave => ?_⟩
      · rcases unspawned_of_effect effect now with before | ⟨_, new, _⟩
        · exact spawned.2 request before
        · exact new spawned.1
      · rcases gaveUp_of_effect effect gave with before | ⟨_, updates⟩
        · exact before
        · exact absurd (actor_of_gaveUp may updates).1 differs

theorem relies_interrupt {other : Actor} (differs : other ≠ .request request) :
    Relies other world (world.interrupt request) := by
  cases other with
  | request number =>
      refine ⟨past_interrupt world number fun same => differs (congrArg Actor.request same), le_rfl,
        fun there => there⟩
  | spawn id =>
      refine ⟨fun spawned => ⟨spawned.1, fun number => ?_⟩, fun gave => gave⟩
      rw [unspawned_interrupt]
      exact spawned.2 number

/-- Nothing is excluded: calls fail, or fail with effect, as they like. -/
def rules (services : Services) : Discipline (machine services) where
  Inv := Sound
  allowed _ _ _ _ _ := True
  may := May
  rely := Relies
  refl := Relies.refl
  trans := Relies.trans
  keeps := by
    intro actor world operation choice free sound may _
    obtain ⟨middle, effect, done | ⟨request, whose, done⟩⟩ :=
      perform_effect world operation choice free
    · exact done ▸ sound.effect may effect
    · refine done ▸ (sound.effect may effect).interrupt ?_
      rw [requests_of_effect effect]
      exact (owner_of_may may (owner_of_interrupts whose)).2
  spares := by
    intro actor other world operation choice free differs _ may _
    obtain ⟨middle, effect, done | ⟨request, whose, done⟩⟩ :=
      perform_effect world operation choice free
    · exact done ▸ relies_of_effect differs may effect
    · refine done ▸ Relies.trans (relies_of_effect differs may effect) (relies_interrupt ?_)
      rw [← (owner_of_may may (owner_of_interrupts whose)).1]
      exact differs.symm

end Forge.OrchestratorDiscipline
