import Forge.DispatchAgreement

/-! Failed dispatches: they stay failed, and their spawns leave the task alone if the reaper waits
for them. -/

namespace Forge.DispatchFencing

open Forge.DispatchAgreement
open Forge.Library.Identifier
open Forge.Library.Interleaving
open Forge.Library.KeyedTable
open Forge.Library.StateMachine
open Forge.Orchestrator
open Forge.OrchestratorChanges
open Forge.OrchestratorDiscipline
open Forge.OrchestratorSafety
open Forge.OrchestratorStore

variable {services : Services} {state : State} {action : Action} {world after : World}
  {operation : Op} {actor : Actor} {id : Uuid}

def LeavesTask : Op → Prop
  | .updateState _ _ _ => False
  | .setSessionId _ _ _ => False
  | _ => True

def Over (state : State) (id : Uuid) : Prop :=
  (∀ request, (state.state.past request).unspawned ≠ some id) ∧
    (state.threads (.spawn id)).Only LeavesTask

def Patient (state : State) : Action → Prop
  | .reapDispatches ttlSecs locked now =>
      ∀ row ∈ stuckDispatches state.state.db ttlSecs locked now, Over state row.id
  | _ => True

def Fenced (state : State) : Prop :=
  ∀ row ∈ state.state.db.dispatches, row.status = .failed →
    row.id ∈ state.state.gaveUp ∨ Over state row.id

/-! ## Failed dispatches stay failed -/

def StaysFailed (before after : Db) : Prop :=
  ∀ row ∈ before.dispatches, row.status = .failed → ∀ later ∈ after.dispatches,
    later.id = row.id → later.status = .failed

theorem staysFailed_of_evolves {before later : Db} {step : TaskDispatch → TaskDispatch → Prop}
    {born : TaskDispatch → Prop}
    (evolves : Table.Evolves step born before.dispatches later.dispatches)
    (failed : ∀ {row next}, step row next → row.status = .failed → next.status = .failed) :
    StaysFailed before later := by
  intro row member stuck next there same
  obtain ⟨other, present, key, stepped⟩ := evolves.forward member
  obtain rfl := Table.eq_of_key_eq there present (same.trans key.symm)
  exact failed stepped stuck

theorem failed_of_step {row later : TaskDispatch} (step : DispatchStep operation row later)
    (failed : row.status = .failed) : later.status = .failed := by
  rcases step.status with same | ⟨unfailed, _⟩
  · exact same.trans failed
  · exact absurd failed unfailed

theorem staysFailed_exec (services : Services) (state : State) (action : Action) :
    StaysFailed state.state.db (exec services state action).state.db := by
  have kept : Table.Evolves Eq (fun _ => True) state.state.db.dispatches
      state.state.db.dispatches := .refl (fun _ => rfl) _
  have same : StaysFailed state.state.db state.state.db :=
    staysFailed_of_evolves kept fun same failed => same ▸ failed
  cases action with
  | step actor choice =>
      rcases step_db state actor choice with idle | ⟨operation, next, middle, _, effect, done⟩
      · rw [idle]
        exact same
      · rw [done]
        exact staysFailed_of_evolves (dispatches_evolve effect) failed_of_step
  | reapDispatches ttlSecs locked now =>
      refine staysFailed_of_evolves dispatches_reap fun reaped failed => ?_
      rw [reaped.status, failed]
      exact ite_self _
  | request req => exact same
  | drop actor => cases actor <;> exact same
  | reapReviews graceSecs limit locked now => exact same

/-! ## Fencing -/

theorem gaveUp_mono (effect : Effect world operation after) (gave : id ∈ world.gaveUp) :
    id ∈ after.gaveUp := by
  cases effect with
  | updateDispatch now hit =>
      dsimp only
      split
      · exact List.mem_cons_of_mem _ gave
      · exact gave
  | _ => exact gave

theorem failed_of_effect (effect : Effect world operation after) {row : TaskDispatch}
    (member : row ∈ after.db.dispatches) (failed : row.status = .failed) :
    row.id ∈ after.gaveUp ∨
      ∃ before ∈ world.db.dispatches, before.id = row.id ∧ before.status = .failed := by
  rcases (dispatches_evolve effect).origin row member with ⟨before, was, id, step⟩ | ⟨new, _⟩
  · rcases step.status with same | ⟨_, lastError, sessionId, rfl⟩
    · exact .inr ⟨before, was, id, same ▸ failed⟩
    · cases effect with
      | same => exact .inr ⟨row, member, rfl, failed⟩
      | updateDispatch now hit =>
          left
          dsimp only
          rw [if_pos failed, id]
          exact List.mem_cons_self
  · cases new.queued.symm.trans failed

theorem over_of_step (good : Good (rules services) state) (actor : Actor) (choice : Choice)
    (isOver : Over state id) (there : HasDispatch state.state id) :
    Over (exec services state (.step actor choice)) id := by
  refine ⟨fun request => ?_, ?_⟩
  · rcases step_effect state actor choice with idle | ⟨operation, next, middle, due, effect, done⟩
    · rw [idle]
      exact isOver.1 request
    · have kept : (middle.past request).unspawned ≠ some id := by
        intro now
        rcases unspawned_of_effect effect now with before | ⟨_, new, _⟩
        · exact isOver.1 request before
        · exact new there
      rcases done with done | ⟨whom, _, done⟩
      · rwa [done]
      · rwa [done, unspawned_interrupt]
  · refine Pool.only_step isOver.2 fun operation next program due started => ?_
    cases operation with
    | spawn number job =>
        cases started
        obtain ⟨rfl, _⟩ := owner_of_may (good.may due) rfl
        exact absurd (good.may due).2.2 (isOver.1 number)
    | _ => cases started

theorem fenced_exec (good : Good (rules services) state) (fenced : Fenced state)
    (patient : Patient state action) : Fenced (exec services state action) := by
  intro row member failed
  cases action with
  | request req =>
      rcases fenced row member failed with gave | isOver
      · exact .inl gave
      · refine .inr ⟨isOver.1, ?_⟩
        rw [exec, Pool.threads_put, if_neg nofun]
        exact isOver.2
  | step actor choice =>
      rcases step_effect state actor choice with idle | ⟨operation, next, middle, due, effect, done⟩
      · rw [idle] at member ⊢
        exact fenced row member failed
      · have settle : row ∈ middle.db.dispatches → row.id ∈ middle.gaveUp ∨
            Over (exec services state (.step actor choice)) row.id := by
          intro member
          rcases failed_of_effect effect member failed with gave | ⟨before, was, same, failed⟩
          · exact .inl gave
          · rw [← same]
            refine (fenced before was failed).imp (gaveUp_mono effect) fun isOver => ?_
            exact over_of_step good actor choice isOver ⟨before, was, rfl⟩
        rcases done with done | ⟨whom, _, done⟩
        · rw [done] at member
          exact done ▸ settle member
        · rw [done] at member
          exact done ▸ settle member
  | drop actor =>
      cases actor with
      | request number =>
          refine (fenced row member failed).imp_right fun isOver => ⟨fun request now => ?_, ?_⟩
          · exact isOver.1 request (unspawned_release now)
          · rw [exec, Pool.threads_put, if_neg nofun]
            exact isOver.2
      | spawn id =>
          refine (fenced row member failed).imp_right fun isOver => ⟨isOver.1, ?_⟩
          rw [exec, Pool.threads_put]
          split
          · exact trivial
          · exact isOver.2
  | reapDispatches ttlSecs locked now =>
      rcases dispatches_reap.origin row member with ⟨before, was, same, reaped⟩ | ⟨born, _⟩
      · rw [reaped.status] at failed
        split at failed
        case isTrue stuck =>
            obtain ⟨other, hit, key⟩ := List.any_eq_true.mp stuck
            have isOver := patient other hit
            rw [beq_iff_eq.mp key, same] at isOver
            exact .inr isOver
        case isFalse => exact same ▸ fenced before was failed
      · exact born.elim
  | reapReviews graceSecs limit locked now => exact fenced row member failed

theorem tasks_of_maySpawn (effect : Effect world operation after) (may : MaySpawn id world operation)
    (leaves : LeavesTask operation) : after.db.tasks = world.db.tasks := by
  cases effect with
  | same => rfl
  | updateDispatch => rfl
  | updateState => exact leaves.elim
  | setSessionId => exact leaves.elim
  | _ => exact may.elim

theorem tasks_of_failed (good : Good (rules services) state) (fenced : Fenced state)
    {row : TaskDispatch} (member : row ∈ state.state.db.dispatches) (failed : row.status = .failed)
    (choice : Choice) :
    (exec services state (.step (.spawn row.id) choice)).state.db.tasks = state.state.db.tasks := by
  rcases step_db state (.spawn row.id) choice with idle | ⟨operation, next, middle, due, effect, done⟩
  · rw [idle]
  · have may : MaySpawn row.id state.state operation := (good.may due).2
    rw [done]
    refine tasks_of_maySpawn effect may ?_
    rcases fenced row member failed with gave | isOver
    · cases operation with
      | updateState => exact absurd gave may.2
      | setSessionId => exact absurd gave may
      | _ => trivial
    · have only := isOver.2
      rw [due] at only
      exact only.1

/-! ## Runs -/

def Reapless : Action → Prop
  | .reapDispatches _ _ _ => False
  | _ => True

instance : DecidablePred Reapless
  | .reapDispatches _ _ _ => isFalse not_false
  | .request _ => isTrue trivial
  | .step _ _ => isTrue trivial
  | .drop _ => isTrue trivial
  | .reapReviews _ _ _ _ => isTrue trivial

theorem patient_of_reapless (reapless : Reapless action) (state : State) : Patient state action := by
  cases action with
  | reapDispatches => exact reapless.elim
  | _ => trivial

theorem over_of_idle (reached : Reachable (exec services) (· = start) (fun _ _ => True) state)
    (idle : (state.threads (.spawn id)).isDone = true)
    (spawned : ∀ request < state.state.requests, (state.state.past request).unspawned ≠ some id) :
    Over state id := by
  have sound : Sound state.state := (good_of_reachable reached).inv
  refine ⟨fun request now => ?_, ?_⟩
  · by_cases below : request < state.state.requests
    · exact spawned request below now
    · rw [sound.fresh (Nat.le_of_not_lt below)] at now
      cases now
  · cases running : state.threads (.spawn id) with
    | done value => trivial
    | op operation next =>
        rw [running] at idle
        cases idle

def waiting : List Action := dispatching ++ steps (.spawn theDispatch) 1 {}

def dying : List Action := waiting ++ [.drop (.spawn theDispatch)]

theorem reached_dying :
    Reachable (exec withAgents) (· = start) Patient (run (exec withAgents) start dying) := by
  have reapless : ∀ action ∈ dying, Reapless action := by decide +kernel
  exact reachable_run rfl (allAllowed_of_forall
    (fun action member => patient_of_reapless (reapless action member)) start)

theorem patient_dying : Patient (run (exec withAgents) start dying) (.reapDispatches 0 [] 1) := by
  have only : ∀ row ∈ stuckDispatches (run (exec withAgents) start dying).state.db 0 [] 1,
      row.id = theDispatch := by decide +kernel
  intro row stuck
  rw [only row stuck]
  exact over_of_idle (reached_dying.mono fun _ _ _ => trivial) (by decide +kernel)
    (by decide +kernel)

def prompting : List Action := steps (.spawn theDispatch) 5 { session := ⟨"session", "workspace"⟩ }

/-- However requests, spawned dispatches and the reaper interleave: a failed dispatch stays failed;
and where the reaper only fails dispatches whose spawns are over, a spawn whose dispatch has failed
leaves every task as it is. -/
theorem dispatch_fencing (services : Services) {state : State}
    (reached : Reachable (exec services) (· = start) Patient state) :
    (∀ action, StaysFailed state.state.db (exec services state action).state.db) ∧
    ∀ row ∈ state.state.db.dispatches, row.status = .failed → ∀ choice,
      (exec services state (.step (.spawn row.id) choice)).state.db.tasks =
        state.state.db.tasks := by
  have good := good_of_reachable reached
  obtain ⟨_, rfl, later⟩ := reached
  have fenced : Fenced state := by
    have keep : ∀ pool action, Good (rules services) pool → Fenced pool → Patient pool action →
        Fenced (exec services pool action) :=
      fun _ _ good fenced patient => fenced_exec good fenced patient
    exact stable_of_good good_start keep later fun row member =>
      absurd member (Table.not_mem_empty row)
  exact ⟨staysFailed_exec services state,
    fun _ member failed => tasks_of_failed good fenced member failed⟩

/-- The reaper fails the dispatch of a spawn that died. -/
theorem dispatch_fencing_reaped :
    let reaped := exec withAgents (run (exec withAgents) start dying) (.reapDispatches 0 [] 1)
    ∃ row ∈ reaped.state.db.dispatches, row.status = .failed ∧
      (exec withAgents reaped (.step (.spawn row.id) {})).state.db.tasks = reaped.state.db.tasks := by
  intro reaped
  have failed : ∃ row ∈ reaped.state.db.dispatches.rows, row.status = .failed := by decide +kernel
  obtain ⟨row, member, failed⟩ := failed
  exact ⟨row, member, failed, (dispatch_fencing withAgents (reached_dying.step patient_dying)).2
    row member failed {}⟩

/-- A slow session outlives the reaper: the spawn of a failed dispatch writes the session to the
task, and takes it to working. -/
theorem works_after_reaping :
    ((run (exec withAgents) start (waiting ++ [.reapDispatches 0 [] 1])).state.db.dispatches.rows.map
        (·.status) = [.failed] ∧
      (run (exec withAgents) start (waiting ++ [.reapDispatches 0 [] 1])).state.db.tasks.rows.map
        (fun task => (task.state, task.agentforgeSessionId)) = [(.pending, none)]) ∧
    (run (exec withAgents) start
        (waiting ++ [.reapDispatches 0 [] 1] ++ prompting)).state.db.tasks.rows.map
      (fun task => (task.state, task.agentforgeSessionId)) = [(.working, some "session")] := by
  decide +kernel

end Forge.DispatchFencing
