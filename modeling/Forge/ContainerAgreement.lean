import Forge.ContainerRoll
import Forge.Library.StateMachine

/-! An agent's row and its containers, over every run of the operations on them. -/

namespace Forge.ContainerAgreement

open Forge.ContainerLifecycle
open Forge.ContainerRoll
open Forge.ContainerSteps
open Forge.ContainerViews
open Forge.Library.Effectful
open Forge.Library.StateMachine

section Operations

variable {replies : Site → Reply} {id : Nat} {view : View} {failed : Failure → World → Prop}

theorem meets_commitClosing :
    Meets (Closing replies) (call replies commit .commit) (fun _ => Ended) failed := by
  rintro world ⟨view, at_, hallows, hstarted⟩
  have hcommit : Meets (At view) (call replies commit .commit) (fun _ => Ended) failed :=
    meets_commit hallows hstarted
  exact hcommit world at_

theorem ended_of_resting {world : World} (resting : Resting world) : Ended world := by
  obtain ⟨view, at_, hstarted, -⟩ := resting
  refine ⟨at_.kept, fun id state hthere hstate => ?_⟩
  have hone := at_.started id state hthere hstate
  rw [at_.row]
  rcases hstarted with hnone | hsame
  · exact absurd (hnone.symm.trans hone) nofun
  · exact hsame.symm.trans hone

def Begun (operation : Operation) (world : World) : Prop :=
  Ended world ∧ world.transaction = ⟨none, false, false⟩ ∧ world.operation = operation

theorem Begun.resting {operation : Operation} {world : World} (begun : Begun operation world)
    (hcalm : world.idle = true ∨ ∃ id, operation = .reconcile id) : Resting world := by
  obtain ⟨⟨hkept, hstarted⟩, htransaction, rfl⟩ := begun
  refine ⟨⟨world.row.containerId, world.row, world.transaction, world.credentials, [], []⟩,
    ⟨hkept, hcalm, hstarted, rfl, rfl, rfl, fun _ => nofun, fun _ => nofun⟩, .inr rfl, ?_⟩
  dsimp only
  rw [htransaction]

theorem meets_begin {operation : Operation} :
    Meets (fun world => Ended world ∧ world.operation = operation) (act begin)
      (fun _ => Begun operation) failed := by
  refine meets_act fun world holds => ⟨⟨?_, holds.1.started⟩, rfl, holds.2⟩
  exact ⟨holds.1.kept.fits, holds.1.kept.made, holds.1.kept.apart, holds.1.kept.cleared,
    holds.1.kept.gone, holds.1.kept.removals⟩

theorem meets_commitBegun {operation : Operation} :
    Meets (Begun operation) (call replies commit .commit) (fun _ => Ended) failed := by
  refine meets_act fun world begun => ?_
  obtain ⟨hended, htransaction, -⟩ := begun
  unfold commit
  dsimp only
  rw [htransaction]
  split_ifs
  · have hsame : world.writeRow world.row = world := by
      rw [World.writeRow, if_pos rfl]
    simp only [Option.getD_none, hsame]
    exact ⟨⟨hended.kept.fits, hended.kept.made, hended.kept.apart, hended.kept.cleared,
      hended.kept.gone, hended.kept.removals⟩, hended.started⟩
  · exact hended

theorem meets_isIdle {operation : Operation} :
    Meets (Begun operation) isIdle (fun value world => value = world.idle ∧
      Begun operation world) failed :=
  meets_act fun _ begun => ⟨rfl, begun⟩

theorem meets_giveUp {α : Type} {operation : Operation} {next : Op α}
    (hnext : Meets Ended next (fun _ => Ended) (fun _ => Ended)) :
    Meets (Begun operation)
      (do if ← call replies commit .commit then next else throw .database : Op α)
      (fun _ => Ended) (fun _ => Ended) := by
  refine meets_commitBegun.bind fun value => ?_
  split_ifs
  · exact hnext
  · exact meets_throw fun _ holds => holds

theorem meets_admitIdleLifecycle {α : Type} {operation : Operation} {admitted : Op α}
    {post : α → World → Prop} (hadmitted : Meets Resting admitted post (fun _ => Ended)) :
    Meets (fun world => Ended world ∧ world.operation = operation)
      (admitIdleLifecycle replies admitted) (fun result =>
        match result with
        | none => Ended
        | some value => post value) (fun _ => Ended) := by
  refine (meets_query fun _ holds => holds.1).bind fun _ => ?_
  refine meets_begin.bind fun _ => ?_
  refine meets_isIdle.bind fun value => ?_
  cases value with
  | true =>
      refine (hadmitted.weaken (fun world holds => holds.2.resting (.inl holds.1.symm))
        (fun _ _ holds => holds) fun _ _ holds => holds).bind fun value => ?_
      exact meets_pure fun _ holds => holds
  | false =>
      refine (meets_commitBegun.weaken (fun _ holds => holds.2) (fun _ _ holds => holds)
        fun _ _ holds => holds).bind fun value => ?_
      cases value with
      | true => exact meets_pure fun _ holds => holds
      | false => exact meets_throw fun _ holds => holds

theorem meets_finishLifecycle {α : Type} {result : Except Failure α} :
    Meets Resting (finishLifecycle replies result) (fun _ => Ended) (fun _ => Ended) := by
  refine (meets_commitClosing.weaken (fun _ holds => closing_of_resting holds) (fun _ _ holds => holds)
    fun _ _ holds => holds).bind fun value => ?_
  cases result with
  | error failure => cases value with
    | true => exact meets_throw fun _ holds => holds
    | false => exact meets_throw fun _ holds => holds
  | ok outcome => cases value with
    | true => exact meets_pure fun _ holds => holds
    | false => exact meets_throw fun _ holds => holds

theorem meets_whileIdle {α : Type} {operation : Operation} {locked : Op α}
    (hlocked : Meets Resting locked (fun _ => Resting) (fun _ => Resting)) :
    Meets (fun world => Ended world ∧ world.operation = operation) (whileIdle replies locked)
      (fun _ => Ended) (fun _ => Ended) := by
  have hattempt : Meets Resting (attempt locked) (fun _ => Resting) (fun _ => Ended) := by
    refine hlocked.attempt.weaken (fun _ holds => holds) (fun result _ holds => ?_)
      fun _ _ holds => holds
    cases result with
    | ok _ => exact holds
    | error _ => exact holds
  refine (meets_admitIdleLifecycle hattempt).bind fun result => ?_
  cases result with
  | none => exact meets_throw fun _ holds => holds
  | some result => exact meets_finishLifecycle

theorem meets_stop_op {operation : Operation} :
    Meets (fun world => Ended world ∧ world.operation = operation) (stop replies)
      (fun _ => Ended) (fun _ => Ended) := by
  have hstop : Meets (fun world => Ended world ∧ world.operation = operation)
      (stopWithOutcome replies) (fun _ => Ended) (fun _ => Ended) :=
    meets_whileIdle meets_stopWithOutcomeLocked
  refine hstop.bind fun outcome => ?_
  cases outcome with
  | stopped => exact meets_pure fun _ holds => holds
  | stillRunning => exact meets_throw fun _ holds => holds
  | unconfirmed => exact meets_throw fun _ holds => holds

theorem meets_respawn (fits : StartFits replies) :
    Meets Resting (respawn replies) (fun _ => Resting) (fun _ => Ended) := by
  refine meets_stopWithOutcomeLocked.attempt.bind fun result => ?_
  rcases result with failure | outcome
  · exact meets_pure fun _ holds => holds
  · cases outcome with
    | stillRunning => exact meets_pure fun _ holds => holds
    | unconfirmed => exact meets_pure fun _ holds => holds
    | stopped =>
        refine (meets_startLocked fits).attempt.bind fun result => ?_
        cases result with
        | ok _ => exact meets_pure fun _ holds => holds
        | error _ => exact meets_pure fun _ holds => holds

theorem meets_replaceIfIdle {operation : Operation} (fits : StartFits replies) :
    Meets (fun world => Ended world ∧ world.operation = operation) (replaceIfIdle replies)
      (fun _ => Ended) (fun _ => Ended) := by
  refine (meets_admitIdleLifecycle (meets_respawn fits)).bind fun result => ?_
  cases result with
  | none => exact meets_pure fun _ holds => holds
  | some outcome =>
      refine (meets_commitClosing.weaken (fun _ holds => closing_of_resting holds) (fun _ _ holds => holds)
        fun _ _ holds => holds).bind fun value => ?_
      split_ifs
      · exact meets_pure fun _ holds => holds
      · exact meets_throw fun _ holds => holds

theorem meets_replaceIfIdleAsPlatformAdmin {operation : Operation} (fits : RollFits replies) :
    Meets (fun world => Ended world ∧ world.operation = operation)
      (replaceIfIdleAsPlatformAdmin replies) (fun _ => Ended) (fun _ => Ended) := by
  refine (meets_query fun _ holds => holds.1).bind fun _ => ?_
  refine meets_begin.bind fun _ => ?_
  have hread : Meets (Begun operation) readRow (fun row world => row = world.row ∧
      Begun operation world) (fun _ => Ended) := meets_act fun _ begun => ⟨rfl, begun⟩
  refine hread.bind fun row => ?_
  split_ifs
  · exact (meets_giveUp (meets_throw fun _ holds => holds)).weaken (fun _ holds => holds.2)
      (fun _ _ holds => holds) fun _ _ holds => holds
  have hask : Meets (fun world => row = world.row ∧ Begun operation world) isIdle
      (fun value world => value = world.idle ∧ row = world.row ∧ Begun operation world)
      (fun _ => Ended) := meets_act fun _ holds => ⟨rfl, holds⟩
  refine hask.bind fun value => ?_
  cases value with
  | false =>
      exact (meets_giveUp (meets_pure fun _ holds => holds)).weaken (fun _ holds => holds.2.2)
        (fun _ _ holds => holds) fun _ _ holds => holds
  | true =>
      rw [if_pos rfl]
      cases hrow : row.containerId with
      | none =>
          exact (meets_giveUp (meets_throw fun _ holds => holds)).weaken
            (fun _ holds => holds.2.2) (fun _ _ holds => holds) fun _ _ holds => holds
      | some id =>
          rintro world ⟨hidle, rfl, begun⟩
          obtain ⟨view, at_, hcase⟩ := resting_cases (begun.resting (.inl hidle.symm))
          rw [at_.row] at hrow
          rcases hcase with ⟨hnone, -⟩ | ⟨other, named, hmade⟩
          · exact absurd (hnone.symm.trans hrow) nofun
          obtain rfl := Option.some.inj (named.row.symm.trans hrow)
          refine ((meets_rollContainer fits named hmade).weaken (fun _ holds => holds)
            (fun _ _ holds => holds) fun _ _ holds => ended_of_resting holds).bind
              (fun outcome => ?_) world at_
          refine meets_commitClosing.bind fun value => ?_
          split_ifs
          · exact meets_pure fun _ holds => holds
          · exact meets_throw fun _ holds => holds

theorem meets_reconcileOther (hrow : view.row.containerId ≠ some id)
    (hstarted : view.started = none ∨ view.started = view.row.containerId)
    (htransaction : view.transaction.row = none) :
    Meets (At view) (reconcileLocked replies id) (fun _ => Resting) (fun _ => Resting) := by
  have hrests : ∀ world, At view world → Resting world :=
    fun world at_ => ⟨view, at_, hstarted, htransaction⟩
  unfold reconcileLocked
  split_ifs
  · exact meets_pure hrests
  refine meets_inspect_any.bind fun answer => ?_
  cases answer with
  | notFound =>
      exact meets_reconcileStoppedAgent
        ⟨fun hnamed => absurd hnamed hrow, hstarted, htransaction⟩
  | error => exact meets_pure hrests
  | ok _ =>
      refine (meets_query hrests).bind fun _ => ?_
      refine meets_readRow.bind fun row => ?_
      rintro world ⟨rfl, at_⟩
      rw [if_pos hrow]
      exact hrests world at_

theorem meets_reconcileNamed (named : Named view id) (hmade : view.credentials id ≠ none) :
    Meets (At view) (reconcileLocked replies id) (fun _ => Resting) (fun _ => Resting) := by
  have hrests : ∀ world, At view world → Resting world := fun world => named.resting
  unfold reconcileLocked
  split_ifs
  · exact meets_pure hrests
  refine (meets_confirmAbsent named hmade).bind fun answer => ?_
  cases answer with
  | notFound =>
      exact (meets_reconcileStoppedAgent (calm_gone named)).weaken (fun _ holds => holds.1 rfl)
        (fun _ _ holds => holds) fun _ _ holds => holds
  | error => exact meets_pure fun world holds => hrests world holds.2
  | ok _ =>
      refine (meets_query fun world holds => hrests world holds.2).bind fun _ => ?_
      refine (meets_readRow.weaken (fun _ holds => holds.2) (fun _ _ holds => holds)
        fun _ _ holds => holds).bind fun row => ?_
      rintro world ⟨rfl, at_⟩
      rw [if_neg (not_not.mpr named.row)]
      revert world
      show Meets (At view) _ (fun _ => Resting) fun _ => Resting
      split
      case h_1 => exact meets_pure hrests
      case h_2 => exact meets_throw hrests
      case h_3 =>
          refine Meets.bind meets_invalidate fun value => ?_
          rintro world ⟨transaction, hsame, at_⟩
          have hnamed : Named { view with transaction } id :=
            ⟨named.row, named.started, hsame.trans named.transaction, named.present⟩
          cases value with
          | true =>
              refine Meets.bind (meets_quarantineUnverifiedContainer hnamed hmade) (fun _ => ?_)
                world at_
              exact meets_throw fun _ holds => holds
          | false => exact hnamed.resting at_

theorem meets_reconcileLocked :
    Meets Resting (reconcileLocked replies id) (fun _ => Resting) (fun _ => Resting) := by
  rintro world ⟨view, at_, hstarted, htransaction⟩
  by_cases hrow : view.row.containerId = some id
  · obtain ⟨named, hmade⟩ := named_of_at at_ hrow hstarted htransaction
    exact meets_reconcileNamed named hmade world (forget_of_at at_)
  · exact meets_reconcileOther hrow hstarted htransaction world at_

theorem meets_reconcile {operation : Operation} {containerId : Nat}
    (hoperation : operation = .reconcile containerId) :
    Meets (fun world => Ended world ∧ world.operation = operation)
      (reconcileAgentIfContainerAbsent replies id) (fun _ => Ended) (fun _ => Ended) := by
  refine (meets_query fun _ holds => holds.1).bind fun _ => ?_
  refine (meets_begin.weaken (fun _ holds => holds)
    (fun _ _ begun => begun.resting (.inr ⟨containerId, hoperation⟩))
      fun _ _ holds => holds).bind fun _ => ?_
  refine meets_reconcileLocked.attempt.bind fun result => ?_
  refine meets_finishLifecycle.weaken (fun _ holds => ?_) (fun _ _ holds => holds)
    fun _ _ holds => holds
  cases result with
  | ok _ => exact holds
  | error _ => exact holds

end Operations

/-- The row, its credentials and the containers agree, whatever ran before. -/
structure Agrees (world : World) : Prop where
  same : ∀ id, world.row.containerId = some id → ∃ made, world.credentials id = some made ∧
    (world.row.hmacSecret = none ∨ world.row.hmacSecret = some made.hmacSecret) ∧
    (world.row.natsConnectPassword = none ∨
      world.row.natsConnectPassword = some made.natsConnectPassword)
  bare : world.row.containerId = none →
    world.row.hmacSecret = none ∧ world.row.natsConnectPassword = none
  cleared : ∀ id ∈ world.cleared, id ∈ world.confirmed ∧ world.containers id = none
  running : ∀ id, world.containers id = some .running → world.row.containerId = some id
  apart : Apart world.credentials
  removals : ∀ removal ∈ world.removals,
    removal.idle = true ∨ ∃ id, removal.operation = .reconcile id

/-- No operation leaves a container behind that was started and is not named. -/
def Guarded (_ : World) : Action → Prop
  | .operate .start replies => StartFits replies
  | .operate .replace replies => StartFits replies
  | .operate .roll replies => RollFits replies
  | _ => True

instance (replies : Site → Reply) : Decidable (StartFits replies) :=
  inferInstanceAs (Decidable (_ → _ ∨ _))

instance (replies : Site → Reply) : Decidable (RollFits replies) :=
  inferInstanceAs (Decidable ((_ → _) ∧ (_ → _ → _)))

instance (world : World) : ∀ action, Decidable (Guarded world action)
  | .operate .start replies => inferInstanceAs (Decidable (StartFits replies))
  | .operate .replace replies => inferInstanceAs (Decidable (StartFits replies))
  | .operate .roll replies => inferInstanceAs (Decidable (RollFits replies))
  | .operate .stop _ => isTrue trivial
  | .operate (.reconcile _) _ => isTrue trivial
  | .work _ _ => isTrue trivial
  | .exits _ => isTrue trivial
  | .vanishes _ => isTrue trivial

section Runs

variable {world : World}

theorem agrees_of_ended (ended : Ended world) : Agrees world where
  same := ended.kept.fits.named
  bare := ended.kept.fits.bare
  cleared id hid := by
    have hconfirmed := ended.kept.cleared id hid
    exact ⟨hconfirmed, (ended.kept.gone id hconfirmed).2⟩
  running id hrunning := ended.started id .running hrunning nofun
  apart := ended.kept.apart
  removals := ended.kept.removals

theorem ended_of_meets {α : Type} {operation : Op α} {state : World}
    (hmeets : Meets (fun world => Ended world ∧ world.operation = state.operation) operation
      (fun _ => Ended) (fun _ => Ended)) (ended : Ended state) :
    Ended (perform operation state).2 := by
  have hended := hmeets state ⟨ended, rfl⟩
  rcases hperformed : perform operation state with ⟨result, after⟩
  rw [hperformed] at hended
  cases result with
  | ok _ => exact hended
  | error _ => exact hended

theorem ended_operate {operation : Operation} {replies : Site → Reply} (ended : Ended world)
    (guarded : Guarded world (.operate operation replies)) :
    Ended (exec world (.operate operation replies)) := by
  have hbegins : Ended { world with operation } :=
    ⟨⟨ended.kept.fits, ended.kept.made, ended.kept.apart, ended.kept.cleared, ended.kept.gone,
      ended.kept.removals⟩, ended.started⟩
  cases operation with
  | start => exact ended_of_meets (meets_whileIdle (meets_startLocked guarded)) hbegins
  | stop => exact ended_of_meets meets_stop_op hbegins
  | replace => exact ended_of_meets (meets_replaceIfIdle guarded) hbegins
  | roll => exact ended_of_meets (meets_replaceIfIdleAsPlatformAdmin guarded) hbegins
  | reconcile containerId => exact ended_of_meets (meets_reconcile rfl) hbegins

theorem ended_exec {action : Action} (ended : Ended world) (guarded : Guarded world action) :
    Ended (exec world action) := by
  cases action with
  | work working lease =>
      exact ⟨⟨⟨ended.kept.fits.named, ended.kept.fits.bare⟩, ended.kept.made, ended.kept.apart,
        ended.kept.cleared, ended.kept.gone, ended.kept.removals⟩, ended.started⟩
  | exits id =>
      refine ⟨ended.kept.exit [id], fun other state hthere hstate => ?_⟩
      obtain ⟨before, hbefore, hsame⟩ := exit_containers hthere
      exact ended.started other before hbefore fun hcreated => hstate (hsame.mp hcreated)
  | vanishes id =>
      refine ⟨ended.kept.remove id, fun other state hthere hstate => ?_⟩
      by_cases hsame : other = id
      · subst hsame
        simp [exec, World.setContainer] at hthere
      · exact ended.started other state ((Function.update_of_ne hsame ..).symm.trans hthere) hstate
  | operate operation replies => exact ended_operate ended guarded

theorem ended_fresh : Ended fresh := by
  refine ⟨⟨⟨fun _ => nofun, fun _ => ⟨rfl, rfl⟩⟩, fun _ _ => nofun, fun _ _ _ _ => nofun,
    fun _ => nofun, fun _ => nofun, fun _ => nofun⟩, fun _ _ => nofun⟩

/-- The row and the containers of an agent agree in every run in which a container that was started
is named at the end or removed. -/
theorem containers_agree (reached : Reachable exec (· = fresh) Guarded world) : Agrees world := by
  have ended : Ended world := by
    apply reached.invariant
    · rintro _ rfl
      exact ended_fresh
    · exact fun _ _ before guarded => ended_exec before guarded
  exact agrees_of_ended ended

end Runs

namespace Sample

def fine : Reply :=
  ⟨[], true, false, true⟩

def lost : Reply :=
  ⟨[], false, true, true⟩

def refused : Reply :=
  ⟨[], false, false, true⟩

def at_ (site : Site) (reply : Reply) : Site → Reply :=
  Function.update (fun _ => fine) site reply

/-- A start whose container starts although Docker says that it does not and is removed, a second
one, a stop while the agent works, a roll, a replacement whose new image is refused, and a
reconciliation. -/
def actions : List Action :=
  [.operate .start (at_ .start lost), .operate .start (fun _ => fine), .work true false,
    .operate .stop (fun _ => fine), .work false false, .operate .roll (fun _ => fine),
    .exits 2, .operate .replace (at_ .inspectCreated refused), .operate .start (fun _ => fine),
    .vanishes 4, .operate (.reconcile 4) (fun _ => fine), .operate .start (fun _ => fine)]

def finished : World :=
  run exec fresh actions

theorem reached : Reachable exec (· = fresh) Guarded finished :=
  reachable_run rfl (by decide)

def stray : World :=
  run exec fresh [.operate .start (Function.update (at_ .start lost) .cleanup refused)]

end Sample

open Sample in
theorem containers_agree_finished : finished.row.containerId = some 5 ∧
    finished.cleared = [4, 2, 1, 0] ∧ Agrees finished :=
  ⟨by decide +kernel, by decide +kernel, containers_agree reached⟩

open Sample in
/-- The row of a container whose start and cleanup failed is cleared while the container runs. -/
theorem stray_container :
    ¬ ∀ world, Reachable exec (· = fresh) (fun _ _ => True) world → Agrees world := by
  intro agree
  have hreached : Reachable exec (· = fresh) (fun _ _ => True) stray :=
    reachable_run rfl (allAllowed_of_forall (fun _ _ _ => trivial) _)
  have hrunning : stray.containers 0 = some .running := by decide
  have hrow : stray.row.containerId = none := by decide
  exact absurd (hrow.symm.trans ((agree stray hreached).running 0 hrunning)) nofun

end Forge.ContainerAgreement
