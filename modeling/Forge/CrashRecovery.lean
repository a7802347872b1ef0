import Forge.AtMostOnce

/-! Crashes: what was on disk when the power went or the process was killed is neither forgotten
nor executed again. -/

namespace Forge.CrashRecovery

open Forge.AssignmentInbox
open Forge.AtMostOnce
open Forge.DeliveryChanges
open Forge.InboxDiscipline
open Forge.Library.DurableEntry
open Forge.Library.Identifier
open Forge.Library.Interleaving
open Forge.Library.StateMachine
open Forge.ResultConsumer

variable {sidecar : Sidecar} {state : State} {action : Action} {id : Uuid}

def Recorded (delivery : Delivery id) : Prop := delivery.result.Firm ∨ delivery.completed.Firm

instance {delivery : Delivery id} : Decidable (Recorded delivery) :=
  inferInstanceAs (Decidable (_ ∨ _))

def Awaits (delivery : Delivery id) (file : ResultFile id) : Prop :=
  delivery.result.current = some file ∧ delivery.result.Firm ∧ delivery.completed.current = none

def Acks (state : State) (id : Uuid) : Prop :=
  ∃ next, state.threads .main = .op (.answer (some id) .ack) next

/-! ## What every action keeps -/

theorem Recorded.kept {delivery : Delivery id} (durable : Durable sidecar delivery)
    (recorded : Recorded delivery) : delivery.kept = true := by
  rcases recorded with firm | firm
  · exact (durable.firm firm).1
  · exact durable.done (.inl ⟨Entry.present_iff.mpr firm.shows, fun _ => firm⟩)

/-- What every action leaves true of a delivery. -/
structure Keeps (delivery after : Delivery id) : Prop where
  kept : delivery.kept = true → after.kept = true
  secured : Secured true delivery → Secured true after
  stored : ∀ result ∈ delivery.stored, result ∈ after.stored
  records : after.kept = true → delivery.kept = true ∨ Recorded after

theorem Keeps.refl (delivery : Delivery id) : Keeps delivery delivery where
  kept holds := holds
  secured holds := holds
  stored _ member := member
  records := .inl

theorem Keeps.sync (delivery : Delivery id) (dir : Dir)
    (secured : Secured true delivery → Secured true (delivery.sync dir)) :
    Keeps delivery (delivery.sync dir) := by
  cases dir with
  | pending => exact { Keeps.refl delivery with secured }
  | results =>
      refine ⟨fun kept => Bool.or_eq_true_iff.mpr (.inl kept), secured, fun result member => ?_,
        fun kept => ?_⟩
      · exact mem_stored_sync.mpr (.inr member)
      · refine (Bool.or_eq_true_iff.mp kept).imp_right fun present => .inl ?_
        exact Entry.firm_settled.mpr present
  | completed =>
      refine ⟨fun kept => Bool.or_eq_true_iff.mpr (.inl kept), secured, fun result member => member,
        fun kept => ?_⟩
      refine (Bool.or_eq_true_iff.mp kept).imp_right fun present => .inr ?_
      exact Entry.firm_settled.mpr present

theorem Keeps.change {actor : Actor} {operation : Op} {delivery after : Delivery id}
    (change : Change true sidecar actor operation delivery after)
    (sound : Sound true sidecar delivery) : Keeps delivery after := by
  have secured := change.secured sound
  cases change with
  | sync dir => exact .sync delivery dir secured
  | _ => exact { Keeps.refl delivery with secured, records := .inl }

theorem Keeps.restore {delivery : Delivery id} (pick : Dir → Nat) :
    Keeps delivery (delivery.restore pick) where
  kept kept := kept_restore.mpr (.inl kept)
  secured secured _ := by
    rcases secured rfl with kept | firm
    · exact .inl (kept_restore.mpr (.inl kept))
    · exact .inr (firm.restore (pick .pending))
  stored result member := mem_stored_restore.mpr (.inr member)
  records kept := by
    refine (kept_restore.mp kept).imp_right (Or.imp ?_ ?_)
    · exact Entry.firm_settled.mpr
    · exact Entry.firm_settled.mpr

theorem keeps_exec (good : Good (rules true sidecar) state)
    (undisturbed : Undisturbed true sidecar state action) (id : Uuid) :
    Keeps (state.state id) ((exec sidecar state action).state id) := by
  cases action with
  | step actor choice =>
      obtain ⟨operation, change⟩ := step_change good undisturbed id
      exact .change change (good.inv id)
  | message payload =>
      rw [exec, Pool.begin]
      split <;> exact .refl (state.state id)
  | replay =>
      rw [exec, Pool.begin]
      split <;> exact .refl (state.state id)
  | kill => exact .refl (state.state id)
  | powerLoss pick => exact .restore (pick id)

/-! ## Runs with crashes -/

abbrev Recovered (sidecar : Sidecar) (state : State) : Prop :=
  Reachable (exec sidecar) (· = empty) (Undisturbed true sidecar) state

theorem good_exec_all : ∀ state action, Good (rules true sidecar) state →
    Undisturbed true sidecar state action → Good (rules true sidecar) (exec sidecar state action) :=
  fun _ _ good undisturbed => good_exec good undisturbed

theorem good_of_empty : Good (rules true sidecar) empty := good_started fun _ => .empty

theorem good_recovered (reached : Recovered sidecar state) : Good (rules true sidecar) state :=
  reached.invariant (fun _ same => same ▸ good_of_empty) good_exec_all

theorem lasts_of_keeps (holds : Delivery id → Prop)
    (keep : ∀ delivery after, Keeps delivery after → holds delivery → holds after)
    {before after : State} (good : Good (rules true sidecar) before)
    (later : Reaches (exec sidecar) (Undisturbed true sidecar) before after)
    (now : holds (before.state id)) : holds (after.state id) := by
  have step : ∀ state action, Good (rules true sidecar) state → holds (state.state id) →
      Undisturbed true sidecar state action → holds ((exec sidecar state action).state id) :=
    fun _ _ good now undisturbed => keep _ _ (keeps_exec good undisturbed id) now
  exact (later.stable good_exec_all step good now).2

theorem recorded_of_kept (reached : Recovered sidecar state)
    (kept : (state.state id).kept = true) :
    ∃ middle, Recovered sidecar middle ∧
      Reaches (exec sidecar) (Undisturbed true sidecar) middle state ∧
        Recorded (middle.state id) := by
  obtain ⟨start, same, reaches⟩ := reached
  subst same
  induction reaches with
  | refl => cases kept
  | @tail before after earlier last ih =>
      obtain ⟨action, undisturbed, rfl⟩ := last
      have recovered : Recovered sidecar before := ⟨_, rfl, earlier⟩
      have keeps := keeps_exec (good_recovered recovered) undisturbed id
      rcases keeps.records kept with already | recorded
      · obtain ⟨middle, from_start, reaches, recorded⟩ := ih already
        exact ⟨middle, from_start, reaches.tail ⟨action, undisturbed, rfl⟩, recorded⟩
      · exact ⟨_, recovered.step undisturbed, .refl, recorded⟩

theorem awaits_of_stored {file : ResultFile id} {delivery : Delivery id}
    (sound : Sound true sidecar delivery) (stored : file.result ∈ delivery.stored)
    (unpublished : file.result ∉ delivery.published) : Awaits delivery file := by
  have durable := sound.durable rfl
  obtain ⟨firm, other, possible, same⟩ := (durable.stored _ stored).resolve_left unpublished
  obtain ⟨shown, current⟩ := firm.shows
  obtain rfl := durable.agree shown other (.of_current current) possible
  have result : shown = file := by
    cases shown
    cases file
    cases same
    rfl
  refine ⟨result ▸ current, firm, ?_⟩
  cases tombstone : delivery.completed.current with
  | none => rfl
  | some modified =>
      have told := durable.told (.inl ⟨modified, .of_current tombstone⟩) rfl file.result (.inr stored)
      exact absurd told unpublished

/-! ## Recovery -/

def republishing (id : Uuid) : List Action :=
  .kill :: .replay :: steps .main 4 { names := [id] } ++ steps (.task id) 1 {}

theorem exec_due {actor : Actor} {operation : Op} {choice : Choice}
    {next : Except IoError (Answer operation) → Program}
    (due : state.threads actor = .op operation next) (quiet : machine.starts operation = none) :
    exec sidecar state (.step actor choice) =
      let done := perform state.state operation choice (state.free machine actor operation)
      Pool.put ⟨done.1, state.threads⟩ actor (next done.2) := by
  rw [exec, Pool.step, due]
  dsimp only
  rw [quiet]
  rfl

theorem exec_read {inbox : Inbox} {program : Program} {operation : Op} {choice : Choice}
    {next : Except IoError (Answer operation) → Program} {reply : Except IoError (Answer operation)}
    (due : program = .op operation next) (quiet : machine.starts operation = none)
    (reads : ∀ free, perform inbox operation choice free = (inbox, reply)) :
    exec sidecar ((started inbox).put .main program) (.step .main choice) =
      (started inbox).put .main (next reply) := by
  rw [exec_due (due : ((started inbox).put .main program).threads .main = _) quiet]
  dsimp only
  rw [show ((started inbox).put .main program).state = inbox from rfl, reads]
  rw [Pool.put, Pool.put, Pool.put, Function.update_idem]
  rfl

theorem exec_start {inbox : Inbox} {program : Program} {work : Work} {choice : Choice}
    {next : Except IoError Bool → Program} (due : program = .op (.tryStart work) next)
    (named : work.deliveryId = some id) :
    exec sidecar ((started inbox).put .main program) (.step .main choice) =
      ((started inbox).put .main (next (.ok true))).put (.task id) (work.task id) := by
  have starts : machine.starts (.tryStart work) = some (.task id, work.task id) := by
    simp [machine, named]
  have idle : Pool.free machine ((started inbox).put .main (.op (.tryStart work) next)) .main
      (.tryStart work) = true := by
    simp [Pool.free, starts, Pool.put, started, Prog.isDone]
  subst due
  rw [exec, Pool.step]
  rw [show ((started inbox).put .main (.op (.tryStart work) next)).threads .main =
    .op (.tryStart work) next from rfl]
  dsimp only
  rw [idle, starts]
  dsimp only [Pool.put]
  rw [Function.update_idem]
  rfl

theorem republished {file : ResultFile id} (awaits : Awaits (state.state id) file) :
    file.result ∈ ((run (exec sidecar) state (republishing id)).state id).published := by
  obtain ⟨shown, -, absent⟩ := awaits
  obtain ⟨⟨deliveryId, attempt, taskId, agentId, outcome⟩, named⟩ := file
  cases named
  let idle := started state.state
  let choice : Choice := { names := [id] }
  have listed : exec sidecar (idle.put .main sidecar.onReplay) (.step .main choice) =
      idle.put .main _ := exec_read rfl rfl fun _ => rfl
  have unmarked : ∀ free, perform state.state (.pathExists .listing .completed id) choice free =
      (state.state, .ok false) := by
    simp [perform, access, Delivery.present, Entry.present, absent, choice]
  have checked := (congrArg (exec sidecar · (.step .main choice)) listed).trans
    (exec_read rfl rfl unmarked)
  have there : ∀ free, perform state.state (.readResult id) choice free =
      (state.state, .ok ⟨⟨some id, attempt, taskId, agentId, outcome⟩, rfl⟩) := by
    simp [perform, access, shown, found, choice]
  have read := (congrArg (exec sidecar · (.step .main choice)) checked).trans
    (exec_read rfl rfl there)
  have scheduled := (congrArg (exec sidecar · (.step .main choice)) read).trans
    (exec_start rfl rfl)
  have sent : run (exec sidecar) state (republishing id) = _ :=
    (congrArg (exec sidecar · (.step (.task id) {})) scheduled).trans
      (exec_due (Function.update_self ..) rfl)
  rw [sent]
  let result : TaskResult := ⟨some id, attempt, taskId, agentId, outcome⟩
  show result ∈ ((state.state.publish result) id).published
  simp [result, Inbox.publish, Inbox.edit, Delivery.publish]

def acking (state : State) (id : Uuid) : Bool :=
  match state.threads .main with
  | .op (.answer known action) _ => known = some id && action = .ack
  | _ => false

theorem acks_of_acking (acking : acking state id = true) : Acks state id := by
  rw [CrashRecovery.acking] at acking
  split at acking
  case h_1 known action next due =>
      obtain ⟨rfl, rfl⟩ : known = some id ∧ action = .ack := by simpa using acking
      exact ⟨next, due⟩
  case h_2 => cases acking

def answering : List Action := .message (.ok theAssignment) :: steps .main 9 {}

def vanishing : Action := .powerLoss fun _ _ => 1

/-- A kill after the pending file is linked and before it is synced; the assignment arrives again,
and the power goes when it is acknowledged. -/
def unsynced : List Action :=
  .message (.ok theAssignment) :: steps .main 5 {} ++ .kill :: .message (.ok theAssignment)
    :: steps .main 4 {}

def marking : List Action := accepting ++ steps (.task theId) 15 {}

/-- A kill before it is synced; the replay pass finds the tombstone and removes the result, and
the power goes. -/
def unmarking : List Action :=
  .kill :: .replay :: steps .main 8 { names := [theId] } ++ vanishing :: accepting
    ++ steps (.task theId) 1 {}

end Forge.CrashRecovery
