import Forge.ContainerSteps

/-! The roll of a container, which writes the row in the transaction that holds the lock. -/

namespace Forge.ContainerRoll

open Forge.ContainerLifecycle
open Forge.ContainerSteps
open Forge.ContainerViews
open Forge.Library.Effectful

section Roll

variable {replies : Site → Reply} {id : Nat} {view : View}

def RollFits (replies : Site → Reply) : Prop :=
  ((replies .start).answers = true → (replies .commit).took = true) ∧
    ((replies .start).answers = false → (replies .start).reached = true →
      (replies .cleanup).took = true)

def Closing (replies : Site → Reply) (world : World) : Prop :=
  ∃ view, At view world ∧ Allows view (fun _ => some (committed view (replies .commit))) ∧
    (view.started = none ∨
      view.started = (committed view (replies .commit)).containerId)

theorem allows_same {world : World} (at_ : At view world) :
    Allows view fun _ => some view.row := by
  intro row hrow
  obtain rfl := Option.some.inj hrow
  exact ⟨fits_of_at at_, fun hne => absurd rfl hne, id⟩

theorem committed_of_none {reply : Reply} (hnone : view.transaction.row = none) :
    committed view reply = view.row := by
  unfold committed
  rw [hnone]
  split_ifs
  · rfl
  · rfl

theorem closing_of_resting {world : World} (resting : Resting world) : Closing replies world := by
  obtain ⟨view, at_, hstarted, htransaction⟩ := resting
  refine ⟨view, at_, ?_⟩
  rw [committed_of_none htransaction]
  exact ⟨allows_same at_, hstarted⟩

/-- The old container of a roll is gone, and none can have been started since. -/
structure Rolled (view : View) : Prop where
  started : view.started = none
  gone : ∀ id, view.row.containerId = some id → id ∈ view.gone

theorem Rolled.closing {world : World} {row : Row} (rolled : Rolled view) (at_ : At view world)
    (hrow : view.transaction.row = some row) (hfits : Fits view.credentials row)
    (hlease : row.lease = false) : Closing replies world := by
  refine ⟨view, at_, ?_, .inl rolled.started⟩
  unfold committed
  rw [hrow]
  split_ifs
  · intro after hafter
    obtain rfl := Option.some.inj hafter
    refine ⟨hfits, fun _ => rolled.gone, fun htrue => ?_⟩
    rw [Option.getD_some, hlease] at htrue
    exact absurd htrue nofun
  · exact allows_same at_

theorem Rolled.closing_aborted {world : World} (rolled : Rolled view) (at_ : At view world)
    (haborted : view.transaction.aborted = true) : Closing replies world := by
  have hsame : committed view (replies .commit) = view.row := by
    unfold committed
    rw [haborted, Bool.not_true, Bool.and_false]
    exact if_neg Bool.false_ne_true
  refine ⟨view, at_, ?_, .inl rolled.started⟩
  rw [hsame]
  exact allows_same at_

theorem meets_cleanRolled (row : Row)
    (hremoves : view.started = some id → (replies .cleanup).took = true)
    (hstarted : view.started = none ∨ view.started = some id)
    (hgone : ∀ id, view.row.containerId = some id → id ∈ view.gone)
    (hmade : view.credentials id ≠ none) (hrow : view.transaction.row = some row)
    (hnamed : row.containerId = some id) :
    Meets (At view)
      (do
        let _ ← call replies (removeContainer · id) .cleanup
        let _ ← call replies (writeInTransaction · (Row.clear id)) .clearFailed
        throw .startContainer : Op StartOutcome)
      (fun _ => Closing replies) (fun _ => Closing replies) := by
  refine (meets_remove hmade).bind fun _ => ?_
  have hnone : (removed view id (replies .cleanup)).started = none := by
    rcases started_removed (replies .cleanup) hstarted with hnone | ⟨hleft, hsome⟩
    · exact hnone
    · exfalso
      rcases hstarted with habsent | hthere
      · unfold removed without at hsome
        rw [habsent] at hsome
        simp at hsome
      · rw [hremoves hthere] at hleft
        exact absurd hleft nofun
  have hrolled : Rolled (removed view id (replies .cleanup)) := by
    refine ⟨hnone, fun other hother => ?_⟩
    have hbefore := hgone other hother
    unfold removed
    dsimp only
    split_ifs
    · exact List.mem_cons_of_mem _ hbefore
    · exact hbefore
  refine meets_writeInTransaction.bind fun answer => meets_throw fun world holds => ?_
  cases answer with
  | done =>
      obtain ⟨after, hafter, -, at_⟩ := holds
      obtain ⟨-, rfl⟩ := clear_eq hafter
      have hagain : Rolled { removed view id (replies .cleanup) with
          transaction := { (removed view id (replies .cleanup)).transaction with
            row := some ⟨none, none, none, false⟩ } } := ⟨hrolled.started, hrolled.gone⟩
      exact hagain.closing at_ rfl (fits_cleared _) rfl
  | unmatched =>
      have hclear : Row.clear id row = none := by
        have hunmatched := holds.1
        unfold removed at hunmatched
        rw [hrow] at hunmatched
        exact hunmatched
      unfold Row.clear at hclear
      rw [if_pos hnamed] at hclear
      exact absurd hclear nofun
  | failed =>
      have hagain : Rolled { removed view id (replies .cleanup) with
          transaction := { (removed view id (replies .cleanup)).transaction with
            aborted := true } } := ⟨hrolled.started, hrolled.gone⟩
      exact hagain.closing_aborted holds rfl

/-- The transaction of a roll names a container that was just made. -/
structure Replaced (view : View) (id : Nat) (row : Row) : Prop where
  rolled : Rolled view
  written : view.transaction.row = some row
  intact : view.transaction.aborted = false
  named : row.containerId = some id
  fits : Fits view.credentials row
  lease : row.lease = false
  present : id ∈ view.present

theorem meets_startRolled (row : Row) (fits : RollFits replies) (replaced : Replaced view id row) :
    Meets (At view) (startCreated replies (writeInTransaction · (Row.clear id)) id)
      (fun _ => Closing replies) (fun _ => Closing replies) := by
  have hmade : view.credentials id ≠ none := by
    obtain ⟨made, hmade, -⟩ := replaced.fits.named id replaced.named
    exact Option.ne_none_iff_exists'.mpr ⟨made, hmade⟩
  refine (meets_start replaced.present replaced.rolled.started).bind fun answer => ?_
  cases answer with
  | ok _ =>
      refine meets_pure fun world holds => ⟨_, holds.2, ?_, ?_⟩
      · intro after hafter
        have hcommitted : committed view (replies .commit) = row := by
          unfold committed
          rw [fits.1 holds.1, replaced.intact, replaced.written]
          rfl
        obtain rfl := hcommitted.symm.trans (Option.some.inj hafter)
        refine ⟨replaced.fits, fun _ => replaced.rolled.gone, fun htrue => ?_⟩
        rw [replaced.lease] at htrue
        exact absurd htrue nofun
      · right
        unfold committed
        dsimp only
        rw [fits.1 holds.1, replaced.intact, replaced.written]
        exact replaced.named.symm
  | notFound => exact fun _ holds => holds.elim
  | error =>
      rintro world ⟨hanswers, at_⟩
      refine meets_cleanRolled row (fun hstarted => ?_) ?_ ?_ ?_ ?_ ?_ world at_
      · dsimp only at hstarted
        split_ifs at hstarted with hreached
        exact fits.2 hanswers hreached
      · exact (ite_eq_or_eq ((replies .start).reached = true) (some id) none).symm
      · exact replaced.rolled.gone
      · exact hmade
      · exact replaced.written
      · exact replaced.named

theorem meets_startStoppedAsPlatformAdminLocked (fits : RollFits replies) (rolled : Rolled view)
    (hcleared : view.transaction.row = some ⟨none, none, none, false⟩) :
    Meets (At view) (startStoppedAsPlatformAdminLocked replies) (fun _ => Closing replies)
      (fun _ => Closing replies) := by
  have hcloses : ∀ credentials present world, At { view with credentials, present } world →
      Closing replies world := by
    intro credentials present world at_
    have hagain : Rolled { view with credentials, present } := ⟨rolled.started, rolled.gone⟩
    exact hagain.closing at_ hcleared (fits_cleared _) rfl
  refine (meets_query fun world at_ => hcloses _ _ world at_).bind fun _ => ?_
  refine meets_newCredentials.bind fun credentials => ?_
  refine (meets_query fun world holds => hcloses _ _ world holds.1).bind fun _ => ?_
  refine (meets_createVerified.weaken (fun _ holds => holds) (fun _ _ holds => holds)
    fun _ world holds => ?_).bind fun id => ?_
  · obtain ⟨credentials, present, at_⟩ := holds
    exact hcloses credentials present world at_
  rintro world ⟨-, at_⟩
  revert world
  have hmade : Function.update view.credentials id (some credentials) id = some credentials :=
    Function.update_self ..
  refine Meets.bind meets_writeInTransaction fun answer => ?_
  cases answer with
  | done =>
      rintro world ⟨row, hset, hintact, at_⟩
      rw [hcleared] at hset
      obtain rfl := Option.some.inj hset
      refine meets_startRolled ⟨some id, some credentials.hmacSecret,
        some credentials.natsConnectPassword, false⟩ fits ?_ world at_
      refine ⟨⟨rolled.started, rolled.gone⟩, rfl, hintact, rfl, ⟨fun other hother => ?_, nofun⟩, rfl,
        List.mem_cons_self⟩
      obtain rfl := Option.some.inj hother
      exact ⟨credentials, hmade, .inr rfl, .inr rfl⟩
  | unmatched =>
      refine (meets_discard ?_).weaken (fun _ holds => holds.2) (fun _ _ holds => holds)
        fun _ world at_ => hcloses _ _ world at_
      exact Option.ne_none_iff_exists'.mpr ⟨credentials, hmade⟩
  | failed =>
      refine meets_throw fun world at_ => ?_
      have hagain : Rolled { view with
          credentials := Function.update view.credentials id (some credentials)
          present := [id]
          transaction := { view.transaction with aborted := true } } :=
        ⟨rolled.started, rolled.gone⟩
      exact hagain.closing_aborted at_ rfl

theorem meets_rollContainer (fits : RollFits replies) (named : Named view id)
    (hmade : view.credentials id ≠ none) :
    Meets (At view) (rollContainer replies id) (fun _ => Closing replies) (fun _ => Resting) := by
  refine (meets_stopAndRemoveContainerLocked named hmade).attempt.bind fun result => ?_
  rcases result with failure | outcome
  · exact meets_pure fun world at_ => closing_of_resting (named.resting at_)
  · cases outcome with
    | stillRunning => exact meets_pure fun world holds => closing_of_resting (named.resting holds.2)
    | unconfirmed => exact meets_pure fun world holds => closing_of_resting (named.resting holds.2)
    | stopped =>
        have hrolled : Rolled (gone view id) := by
          refine ⟨rfl, fun other hother => ?_⟩
          obtain rfl := Option.some.inj (named.row.symm.trans hother)
          exact List.mem_cons_self
        refine (meets_writeInTransaction.weaken (fun _ holds => holds.1 rfl)
          (fun _ _ holds => holds) fun _ _ holds => holds).bind fun answer => ?_
        cases answer with
        | failed =>
            exact meets_throw fun world at_ => ⟨_, at_, .inl rfl, named.transaction⟩
        | unmatched =>
            refine meets_pure fun world holds => closing_of_resting ⟨_, holds.2, .inl rfl, ?_⟩
            exact named.transaction
        | done =>
            rintro world ⟨row, hclear, -, at_⟩
            obtain ⟨-, rfl⟩ := clear_eq hclear
            revert world
            have hagain : Rolled { gone view id with
                transaction := { (gone view id).transaction with
                  row := some ⟨none, none, none, false⟩ } } := ⟨hrolled.started, hrolled.gone⟩
            refine Meets.bind
              (meets_startStoppedAsPlatformAdminLocked fits hagain rfl).attempt fun result => ?_
            cases result with
            | ok _ => exact meets_pure fun _ holds => holds
            | error _ => exact meets_pure fun _ holds => holds

end Roll

end Forge.ContainerRoll
