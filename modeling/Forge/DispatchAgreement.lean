import Forge.OrchestratorSafety

/-! Tasks and their dispatches: one active dispatch at most, no write behind an error that nothing
interrupted, and a dispatch behind every assignment that created one. -/

namespace Forge.DispatchAgreement

open Forge.Library.Identifier
open Forge.Library.Interleaving
open Forge.Library.KeyedTable
open Forge.Library.StateMachine
open Forge.Orchestrator
open Forge.OrchestratorChanges
open Forge.OrchestratorDiscipline
open Forge.OrchestratorSafety
open Forge.OrchestratorStore
open Forge.Schema (Timestamp)

variable {services : Services} {state : State} {action : Action} {world after : World}
  {operation : Op} {actor : Actor}

def Single (db : Db) : Prop :=
  ∀ left ∈ db.dispatches, ∀ right ∈ db.dispatches, left.taskId = right.taskId →
    left.status.isActive = true → right.status.isActive = true → left = right

def Latest (world : World) (id : Uuid) (orgId : String) : Prop :=
  ∃ latest, TaskStore.latestDispatch world.db id orgId = some latest ∧
    (latest.id ∉ world.gaveUp → latest.status.isActive = true)

def Backed (world : World) (task : Task) : Prop :=
  task.state = .assigned ∧ ∃ request, world.assigner task.id = some request ∧
    (world.past request).dispatched = some task.id

structure Agreement (world : World) : Prop where
  tasks : ∀ row ∈ world.db.dispatches, HasTask world row.taskId row.orgId
  single : Single world.db
  latest : ∀ task ∈ world.db.tasks, Backed world task → Latest world task.id task.orgId
  answers : ∀ answered ∈ world.responses, answered.response.isError = true → Excused answered.past

/-! ## One active dispatch -/

theorem active_of_ne_failed {status : DispatchStatus} (unfailed : status ≠ .failed) :
    status.isActive = true := by
  cases status with
  | failed => exact absurd rfl unfailed
  | _ => rfl

theorem active_of_step {row later : TaskDispatch} (step : DispatchStep operation row later)
    (active : later.status.isActive = true) : row.status.isActive = true := by
  rcases step.status with same | ⟨unfailed, _⟩
  · rwa [← same]
  · exact active_of_ne_failed unfailed

theorem single_of_evolves {before later : Db} {step : TaskDispatch → TaskDispatch → Prop}
    (evolves : Table.Evolves step (fun _ => False) before.dispatches later.dispatches)
    (task : ∀ {row next}, step row next → next.taskId = row.taskId)
    (active : ∀ {row next}, step row next → next.status.isActive = true →
      row.status.isActive = true) (single : Single before) : Single later := by
  intro left there right other same leftActive rightActive
  rcases evolves.origin left there with ⟨first, was, leftKey, leftStep⟩ | ⟨born, _⟩
  · rcases evolves.origin right other with ⟨second, is, rightKey, rightStep⟩ | ⟨born, _⟩
    · have equal : first = second := by
        refine single first was second is ?_ (active leftStep leftActive)
          (active rightStep rightActive)
        rw [← task leftStep, ← task rightStep]
        exact same
      exact Table.eq_of_key_eq there other (leftKey.symm.trans (equal ▸ rightKey))
    · exact born.elim
  · exact born.elim

theorem single_of_effect (effect : Effect world operation after) (single : Single world.db) :
    Single after.db := by
  by_cases creates : ∃ request taskId orgId, operation = .createDispatch request taskId orgId
  · obtain ⟨request, taskId, orgId, rfl⟩ := creates
    cases effect with
    | same => exact single
    | @createDispatch _ _ _ row dispatches queued free inserted =>
        obtain ⟨rfl, rfl, queued⟩ := queued
        have members := (Table.insert?_eq_some inserted).2
        have inactive : ∀ other ∈ world.db.dispatches, other.taskId = row.taskId →
            other.status.isActive = false := by
          intro other member same
          have miss := Table.any_eq_false.mp free other member
          simpa [TaskStore.activeFor, same] using miss
        intro left there right other same leftActive rightActive
        rcases (members left).mp there with rfl | was
        · rcases (members right).mp other with rfl | is
          · rfl
          · cases (inactive right is same.symm).symm.trans rightActive
        · rcases (members right).mp other with rfl | is
          · cases (inactive left was same).symm.trans leftActive
          · exact single left was right is same leftActive rightActive
  · have evolves := (dispatches_evolve effect).mono (fun _ _ _ _ step => step)
      fun row (new : NewDispatch world operation row) =>
        creates ⟨new.created.choose, _, _, new.created.choose_spec⟩
    exact single_of_evolves evolves (fun step => step.task) active_of_step single

/-! ## The latest dispatch -/

variable {id : Uuid} {orgId : String}

theorem latest_of_effect (effect : Effect world operation after) (latest : Latest world id orgId) :
    Latest after id orgId := by
  obtain ⟨row, found, active⟩ := latest
  cases effect with
  | @createDispatch _ _ _ new dispatches queued free inserted =>
      rw [Latest, TaskStore.latestDispatch]
      dsimp only [World.amend, withDb]
      rw [Table.find?_insert inserted]
      split
      · exact ⟨new, rfl, fun _ => by rw [queued.2.2]; rfl⟩
      · exact ⟨row, found, active⟩
  | @updateDispatch dispatchId org status lastError sessionId now hit =>
      rw [Latest, TaskStore.latestDispatch, TaskStore.updateDispatch]
      dsimp only [withDb]
      rw [TaskStore.latestDispatch] at found
      rw [Table.find?_update, found]
      · by_cases updated : TaskStore.updatable dispatchId org row = true
        · have same : row.id = dispatchId := id_of_updatable updated
          refine ⟨_, congrArg some (if_pos updated), fun kept => ?_⟩
          refine active_of_ne_failed fun (failed : status = .failed) => kept ?_
          rw [if_pos failed]
          exact List.mem_cons.mpr (.inl same)
        · refine ⟨row, congrArg some (if_neg updated), fun kept => active fun gave => kept ?_⟩
          split
          · exact List.mem_cons_of_mem _ gave
          · exact gave
      · exact fun _ => rfl
  | applyVerdict now applied =>
      rw [ReviewStore.applyVerdict] at applied
      split at applied
      · cases applied
        exact ⟨row, found, active⟩
      · cases applied
  | _ => exact ⟨row, found, active⟩

theorem dispatched_of_effect (effect : Effect world operation after)
    (creates : ∀ request taskId orgId, operation ≠ .createDispatch request taskId orgId)
    (request : Nat) : (after.past request).dispatched = (world.past request).dispatched := by
  by_cases own : owner operation = some request
  · cases effect with
    | createDispatch => exact absurd rfl (creates _ _ _)
    | respond =>
        cases own
        simp [World.release]
    | getTask | assign | getReview | applyVerdict | createAudit | spawn =>
        cases own
        simp [World.release]
    | _ => rfl
  · rw [past_of_effect effect own]

theorem Backed.before {task later : Task} (backed : Backed after later) (id : later.id = task.id)
    (state : later.state = task.state)
    (assigner : after.assigner task.id = world.assigner task.id)
    (dispatched : ∀ request, (after.past request).dispatched = (world.past request).dispatched) :
    Backed world task := by
  obtain ⟨assigned, request, whose, created⟩ := backed
  rw [id] at whose created
  exact ⟨state ▸ assigned, request, assigner ▸ whose, dispatched request ▸ created⟩

theorem backed_of_credit {whose : Uuid} {assigner : Option Nat} {hits : Task → Bool}
    {set : Task → Task} (keeps : ∀ task, (set task).id = task.id) {later : Task}
    (only : ∀ task, hits task = true → task.id = whose)
    (credit : after.assigner = Function.update world.assigner whose assigner)
    (fresh : ∀ request, assigner = some request → (world.past request).dispatched = none)
    (dispatched : ∀ request, (after.past request).dispatched = (world.past request).dispatched)
    (member : later ∈ world.db.tasks.update hits set keeps) (backed : Backed after later) :
    later ∈ world.db.tasks ∧ Backed world later := by
  obtain ⟨task, there, same, written⟩ := Table.mem_update_cases member
  by_cases written_one : task.id = whose
  · obtain ⟨_, request, assigned, created⟩ := backed
    rw [same, written_one, credit, Function.update_self] at assigned
    rw [dispatched, fresh request assigned] at created
    cases created
  · rcases written with ⟨hit, _⟩ | ⟨_, rfl⟩
    · exact absurd (only task hit) written_one
    · refine ⟨there, backed.before rfl rfl ?_ dispatched⟩
      rw [credit, Function.update_of_ne written_one]

theorem backed_of_effect (may : May actor world operation)
    (effect : Effect world operation after)
    (creates : ∀ request taskId orgId, operation ≠ .createDispatch request taskId orgId)
    {later : Task} (member : later ∈ after.db.tasks) (backed : Backed after later) :
    ∃ task ∈ world.db.tasks, later.id = task.id ∧ later.orgId = task.orgId ∧ Backed world task := by
  have dispatched := dispatched_of_effect effect creates
  cases effect with
  | createTask inserted =>
      rcases ((Table.insert?_eq_some inserted).2 later).mp member with rfl | there
      · have pending : later.state = .pending := by
          cases actor with
          | request number => exact may.2.2
          | spawn id => cases may.2
        cases pending.symm.trans backed.1
      · exact ⟨later, there, rfl, rfl, backed⟩
  | assign now hit =>
      obtain ⟨there, backed⟩ := backed_of_credit (by exact fun _ => rfl)
        (fun _ => id_of_assignable) rfl
        (by
          rintro request ⟨⟩
          obtain ⟨rfl, _⟩ := owner_of_may may rfl
          exact may.2.2.2) dispatched member backed
      exact ⟨later, there, rfl, rfl, backed⟩
  | updateState now hit =>
      obtain ⟨there, backed⟩ := backed_of_credit (by exact fun _ => rfl) (fun _ => id_of_isAt) rfl
        (by rintro _ ⟨⟩) dispatched member backed
      exact ⟨later, there, rfl, rfl, backed⟩
  | applyVerdict now applied =>
      rw [ReviewStore.applyVerdict] at applied
      split at applied
      · cases applied
        obtain ⟨there, backed⟩ := backed_of_credit (by exact fun _ => rfl) (fun _ => id_of_isAt) rfl
          (by rintro _ ⟨⟩) dispatched member backed
        exact ⟨later, there, rfl, rfl, backed⟩
      · cases applied
  | setSessionId now =>
      rcases (tasks_evolve (.setSessionId now)).origin later member with ⟨task, there, same, step⟩ | new
      · exact ⟨task, there, same.symm, step.org, backed.before same.symm
          (step.state.resolve_right fun writes => writes) rfl dispatched⟩
      · cases new.1
  | setReviewId now =>
      rcases (tasks_evolve (.setReviewId now)).origin later member with ⟨task, there, same, step⟩ | new
      · exact ⟨task, there, same.symm, step.org, backed.before same.symm
          (step.state.resolve_right fun writes => writes) rfl dispatched⟩
      · cases new.1
  | createDispatch => exact absurd rfl (creates _ _ _)
  | _ => exact ⟨later, member, rfl, rfl, backed.before rfl rfl rfl dispatched⟩

theorem latest_of_backed (may : May actor world operation)
    (effect : Effect world operation after) (agreement : Agreement world) {later : Task}
    (member : later ∈ after.db.tasks) (backed : Backed after later) :
    Latest after later.id later.orgId := by
  by_cases creates : ∀ request taskId orgId, operation ≠ .createDispatch request taskId orgId
  · obtain ⟨task, there, id, org, backed⟩ := backed_of_effect may effect creates member backed
    rw [id, org]
    exact latest_of_effect effect (agreement.latest task there backed)
  · push Not at creates
    obtain ⟨request, taskId, orgId, rfl⟩ := creates
    cases effect with
    | same => exact agreement.latest later member backed
    | @createDispatch _ _ _ row dispatches queued free inserted =>
        obtain ⟨assigned, whom, whose, created⟩ := backed
        by_cases mine : later.id = taskId
        · have org : later.orgId = orgId := by
            have there : HasTask world taskId orgId := by
              cases actor with
              | request number => exact may.2.2
              | spawn id => cases may.2
            obtain ⟨task, is, same, rfl⟩ := there
            rw [Table.eq_of_key_eq member is (mine.trans same.symm)]
          refine ⟨row, ?_, fun _ => by rw [queued.2.2]; rfl⟩
          rw [TaskStore.latestDispatch]
          dsimp only [World.amend, withDb]
          rw [Table.find?_insert inserted, mine, org, queued.1, queued.2.1]
          simp
        · have before : (world.past whom).dispatched = some later.id := by
            by_cases same : whom = request
            · subst same
              rw [amend_past_self] at created
              exact absurd (Option.some.inj created).symm mine
            · rwa [amend_past_of_ne _ _ same] at created
          exact latest_of_effect (.createDispatch queued free inserted)
            (agreement.latest later member ⟨assigned, whom, whose, before⟩)

theorem Agreement.effect (agreement : Agreement world) (may : May actor world operation)
    (effect : Effect world operation after) : Agreement after where
  tasks row member := by
    rcases (dispatches_evolve effect).origin row member with ⟨before, was, _, step⟩ | ⟨new, _⟩
    · rw [step.task, step.org]
      exact tasks_of_effect effect (agreement.tasks before was)
    · obtain ⟨request, rfl⟩ := new.created
      refine tasks_of_effect effect ?_
      cases actor with
      | request number => exact may.2.2
      | spawn id => cases may.2
  single := single_of_effect effect agreement.single
  latest _ member backed := latest_of_backed may effect agreement member backed
  answers := by
    intro answered member isError
    cases effect with
    | respond =>
        rcases List.mem_cons.mp member with rfl | before
        · obtain ⟨rfl, _⟩ := owner_of_may may rfl
          exact may.2.2 isError
        · exact agreement.answers answered before isError
    | applyVerdict now applied => exact agreement.answers answered member isError
    | _ => exact agreement.answers answered member isError

theorem dispatched_interrupt (world : World) (request other : Nat) :
    ((world.interrupt other).past request).dispatched = (world.past request).dispatched := by
  by_cases same : request = other
  · subst same
    rw [World.interrupt, amend_past_self]
  · rw [past_interrupt world request same]

theorem Agreement.interrupt (agreement : Agreement world) (request : Nat) :
    Agreement (world.interrupt request) where
  tasks := agreement.tasks
  single := agreement.single
  latest task member backed := agreement.latest task member
    (backed.before rfl rfl rfl fun other => dispatched_interrupt world other request)
  answers := agreement.answers

theorem Agreement.release (agreement : Agreement world) (request : Nat) :
    Agreement (world.release request) where
  tasks := agreement.tasks
  single := agreement.single
  latest task member backed := by
    refine agreement.latest task member (backed.before rfl rfl rfl fun other => ?_)
    by_cases same : other = request
    · subst same
      rw [World.release, amend_past_self]
    · rw [World.release, amend_past_of_ne _ _ same]
  answers := agreement.answers

/-! ## The reaper -/

section Reaper

variable {db : Db} {ttlSecs : Nat} {locked : List Uuid} {now : Timestamp}

theorem mem_of_stuck {row : TaskDispatch} (stuck : row ∈ stuckDispatches db ttlSecs locked now) :
    row ∈ db.dispatches := by
  have sorted := List.mem_of_mem_take stuck
  rw [List.mem_insertionSort] at sorted
  exact (List.mem_filter.mp sorted).1

theorem latest_reap {task : Task} (left : reconciles (stuckDispatches db ttlSecs locked now) task = false)
    (assigned : task.state = .assigned) {latest : TaskDispatch}
    (found : TaskStore.latestDispatch db task.id task.orgId = some latest) :
    TaskStore.latestDispatch (reapStuckDispatches db ttlSecs locked now) task.id task.orgId =
      some latest := by
  obtain ⟨member, wanted⟩ := Table.mem_of_find? found
  have spared : (stuckDispatches db ttlSecs locked now).any (fun row => row.id == latest.id) =
      false := by
    refine eq_false_of_ne_true fun hit => ?_
    obtain ⟨row, stuck, same⟩ := List.any_eq_true.mp hit
    obtain rfl : row = latest :=
      Table.eq_of_key_eq (mem_of_stuck stuck) member (beq_iff_eq.mp same)
    have reconciled : reconciles (stuckDispatches db ttlSecs locked now) task = true := by
      rw [reconciles, assigned]
      exact Bool.and_eq_true_iff.mpr ⟨rfl, List.any_eq_true.mpr ⟨row, stuck, wanted⟩⟩
    cases left.symm.trans reconciled
  rw [TaskStore.latestDispatch] at found ⊢
  rw [reapStuckDispatches]
  dsimp only
  rw [Table.find?_update, found]
  · exact congrArg some (if_neg (by rw [spared]; exact Bool.false_ne_true))
  · exact fun _ => rfl

theorem Agreement.reap (agreement : Agreement world) :
    Agreement { world with db := reapStuckDispatches world.db ttlSecs locked now } where
  tasks row member := by
    rcases dispatches_reap.origin row member with ⟨before, was, _, reaped⟩ | ⟨born, _⟩
    · rw [reaped.task, reaped.org]
      exact hasTask_reap (agreement.tasks before was)
    · exact born.elim
  single := by
    refine single_of_evolves dispatches_reap (fun reaped => reaped.task) ?_ agreement.single
    intro row next reaped active
    rw [reaped.status] at active
    split at active
    · cases active
    · exact active
  latest later member backed := by
    rcases tasks_reap.origin later member with ⟨task, there, same, reaped⟩ | ⟨born, _⟩
    · obtain ⟨assigned, request, whose, created⟩ := backed
      rw [reaped.state] at assigned
      split at assigned
      case isTrue => cases assigned
      case isFalse left =>
          have before : Backed world task := ⟨assigned, request, same ▸ whose, same ▸ created⟩
          obtain ⟨latest, found, active⟩ := agreement.latest task there before
          rw [← same, reaped.org]
          exact ⟨latest, latest_reap (eq_false_of_ne_true left) assigned found, active⟩
    · exact born.elim
  answers := agreement.answers

end Reaper

/-! ## Runs -/

def withAgents : Services := ⟨true, false, false⟩

def theDispatch : Uuid := ⟨9⟩

def dispatching : List Action :=
  serve 0 (.createTask theTask) {} ++ serve 1 (assigning (some "agent")) { id := theDispatch }

def reaping : List Action := [.drop (.spawn theDispatch), .reapDispatches 0 [] 1]

def Settled (state : State) : Prop :=
  ∀ row ∈ state.state.db.dispatches.rows, (state.threads (.spawn row.id)).isDone = true ∧
    (row.status = .started ∨ row.status = .failed)

instance (state : State) : Decidable (Settled state) :=
  inferInstanceAs (Decidable (∀ row ∈ state.state.db.dispatches.rows, _))

def Stranded (db : Db) : Prop :=
  ∃ task ∈ db.tasks.rows, task.state = .assigned ∧
    ∃ latest ∈ TaskStore.latestDispatch db task.id task.orgId, latest.status = .failed

instance (db : Db) : Decidable (Stranded db) :=
  inferInstanceAs (Decidable (∃ task ∈ db.tasks.rows, _))

theorem agreement_exec (good : Good (rules services) state) (agreement : Agreement state.state)
    (action : Action) : Agreement (exec services state action).state := by
  cases action with
  | request req => exact ⟨agreement.tasks, agreement.single, agreement.latest, agreement.answers⟩
  | step actor choice =>
      rcases step_effect state actor choice with idle | ⟨operation, next, middle, due, effect, done⟩
      · rw [idle]
        exact agreement
      · have middle_agrees := agreement.effect (good.may due) effect
        rcases done with done | ⟨whom, _, done⟩
        · rw [done]
          exact middle_agrees
        · rw [done]
          exact middle_agrees.interrupt whom
  | drop actor =>
      cases actor with
      | request number => exact agreement.release number
      | spawn id => exact agreement
  | reapDispatches ttlSecs locked now => exact agreement.reap
  | reapReviews graceSecs limit locked now =>
      exact ⟨agreement.tasks, agreement.single, agreement.latest, agreement.answers⟩

theorem agreement_start : Agreement start.state where
  tasks row member := absurd member (Table.not_mem_empty row)
  single left member := absurd member (Table.not_mem_empty left)
  latest task member := absurd member (Table.not_mem_empty task)
  answers _ member := absurd member List.not_mem_nil

theorem agreement_of_reachable
    (reached : Reachable (exec services) (· = start) (fun _ _ => True) state) :
    Agreement state.state := by
  obtain ⟨_, rfl, later⟩ := reached
  have keep : ∀ pool action, Good (rules services) pool → Agreement pool.state → True →
      Agreement (exec services pool action).state :=
    fun _ action good agreement _ => agreement_exec good agreement action
  exact stable_of_good good_start keep later agreement_start

/-- However requests, spawned dispatches and the reaper interleave and whatever fails: a task has
one active dispatch at most; an error response of a request that nothing interrupted after its
write means that it wrote nothing; and a task assigned by a request that created a dispatch has an
active one, unless the latest was given up by its own spawn. -/
theorem dispatch_agreement (services : Services) {state : State}
    (reached : Reachable (exec services) (· = start) (fun _ _ => True) state) :
    Single state.state.db ∧
    (∀ answered ∈ state.state.responses, answered.response.isError = true →
      answered.past.interrupted = false → answered.past.wrote = false) ∧
    ∀ task ∈ state.state.db.tasks, Backed state.state task →
      Latest state.state task.id task.orgId := by
  have agreement := agreement_of_reachable reached
  refine ⟨agreement.single, fun _ member isError clean => ?_, agreement.latest⟩
  refine eq_false_of_ne_true fun wrote => ?_
  cases clean.symm.trans (agreement.answers _ member isError wrote)

/-- A task that is assigned to an agent. -/
theorem dispatch_agreement_dispatching :
    Latest (run (exec withAgents) start dispatching).state theId "org" :=
  (dispatch_agreement withAgents (reachable_run rfl (by decide +kernel))).2.2
    { theTask with state := .assigned, assignedTo := some theId }
    (Table.mem_iff.mpr (by decide +kernel)) ⟨by decide +kernel, 1, by decide +kernel, by decide +kernel⟩

/-- After its dispatch was reaped the task is assigned to a human. -/
theorem assigned_behind_failed :
    Settled (run (exec withAgents) start (dispatching ++ reaping ++ serve 2 (assigning none) {})) ∧
      Stranded (run (exec withAgents) start
        (dispatching ++ reaping ++ serve 2 (assigning none) {})).state.db := by
  decide +kernel

end Forge.DispatchAgreement
