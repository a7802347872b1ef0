import Forge.ContainerLifecycle
import Mathlib.Tactic.SplitIfs

/-! What is known of an agent's container while an operation holds the lifecycle lock, and what each
call makes of it. -/

namespace Forge.ContainerViews

open Forge.ContainerLifecycle
open Forge.Library.Effectful

/-- The credentials of a row are those of the container that it names. -/
structure Fits (credentials : Nat → Option Credentials) (row : Row) : Prop where
  named : ∀ id, row.containerId = some id → ∃ made, credentials id = some made ∧
    (row.hmacSecret = none ∨ row.hmacSecret = some made.hmacSecret) ∧
    (row.natsConnectPassword = none ∨
      row.natsConnectPassword = some made.natsConnectPassword)
  bare : row.containerId = none → row.hmacSecret = none ∧ row.natsConnectPassword = none

/-- No two containers share a secret. -/
def Apart (credentials : Nat → Option Credentials) : Prop :=
  ∀ id id' made made', credentials id = some made → credentials id' = some made' → id ≠ id' →
    made.hmacSecret ≠ made'.hmacSecret ∧
      made.natsConnectPassword ≠ made'.natsConnectPassword ∧
      made.hmacSecret ≠ made'.natsConnectPassword

/-- What every call keeps. -/
structure Kept (world : World) : Prop where
  fits : Fits world.credentials world.row
  made : ∀ id made, world.credentials id = some made → id < world.nextContainer ∧
    made.hmacSecret < world.nextUuid ∧ made.natsConnectPassword < world.nextUuid
  apart : Apart world.credentials
  cleared : ∀ id ∈ world.cleared, id ∈ world.confirmed
  gone : ∀ id ∈ world.confirmed, id < world.nextContainer ∧ world.containers id = none
  removals : ∀ removal ∈ world.removals,
    removal.idle = true ∨ ∃ id, removal.operation = .reconcile id

/-- What an operation knows: which container can have been started, the row, its transaction, the
containers that were made, those that are gone and those that are there. -/
structure View where
  started : Option Nat
  row : Row
  transaction : Transaction
  credentials : Nat → Option Credentials
  gone : List Nat
  present : List Nat

structure At (view : View) (world : World) : Prop where
  kept : Kept world
  calm : world.idle = true ∨ ∃ id, world.operation = .reconcile id
  started : ∀ id state, world.containers id = some state → state ≠ .created →
    view.started = some id
  row : world.row = view.row
  transaction : world.transaction = view.transaction
  credentials : world.credentials = view.credentials
  gone : ∀ id ∈ view.gone, id ∈ world.confirmed
  present : ∀ id ∈ view.present, world.containers id ≠ none

def without (id : Nat) (started : Option Nat) : Option Nat :=
  if started = some id then none else started

section Views

variable {view : View} {world : World} {id : Nat}

theorem At.started_none (at_ : At { view with started := none } world) (started : Option Nat) :
    At { view with started } world :=
  ⟨at_.kept, at_.calm, fun id state hthere hstate => absurd (at_.started id state hthere hstate)
    nofun, at_.row, at_.transaction, at_.credentials, at_.gone, at_.present⟩

theorem at_of_without (view : View) (id : Nat)
    (at_ : At { view with started := without id view.started } world) : At view world := by
  unfold without at at_
  split_ifs at at_
  · exact at_.started_none view.started
  · exact at_

theorem exit_containers {ids : List Nat} {state : ContainerState}
    (hthere : (world.exit ids).containers id = some state) :
    ∃ before, world.containers id = some before ∧ (before = .created ↔ state = .created) := by
  simp only [World.exit] at hthere
  split_ifs at hthere with hexit
  · obtain rfl := Option.some.inj hthere
    exact ⟨.running, hexit.2, by simp⟩
  · exact ⟨state, hthere, Iff.rfl⟩

theorem exit_absent {ids : List Nat} :
    (world.exit ids).containers id = none ↔ world.containers id = none := by
  simp only [World.exit]
  split_ifs with hexit
  · simp [hexit.2]
  · exact Iff.rfl

theorem Kept.exit (kept : Kept world) (ids : List Nat) : Kept (world.exit ids) :=
  ⟨kept.fits, kept.made, kept.apart, kept.cleared,
    fun id hid => ⟨(kept.gone id hid).1, exit_absent.mpr (kept.gone id hid).2⟩, kept.removals⟩

theorem Kept.remove (kept : Kept world) (id : Nat) : Kept (world.setContainer id none) := by
  refine ⟨kept.fits, kept.made, kept.apart, kept.cleared, ?_, kept.removals⟩
  intro other hother
  refine ⟨(kept.gone other hother).1, ?_⟩
  by_cases hsame : other = id
  · rw [hsame]
    exact Function.update_self ..
  · exact (Function.update_of_ne hsame ..).trans (kept.gone other hother).2

theorem At.exit (at_ : At view world) (ids : List Nat) : At view (world.exit ids) where
  kept := at_.kept.exit ids
  calm := at_.calm
  started := by
    intro id state hthere hstate
    obtain ⟨before, hbefore, hsame⟩ := exit_containers hthere
    exact at_.started id before hbefore fun hcreated => hstate (hsame.mp hcreated)
  row := at_.row
  transaction := at_.transaction
  credentials := at_.credentials
  gone := at_.gone
  present := fun id hid habsent => at_.present id hid (exit_absent.mp habsent)

theorem At.confirm (at_ : At view world) (habsent : world.containers id = none)
    (hmade : view.credentials id ≠ none) :
    At { view with gone := id :: view.gone } (world.confirm id) := by
  obtain ⟨made, hsome⟩ := Option.ne_none_iff_exists'.mp hmade
  rw [← at_.credentials] at hsome
  have hid := (at_.kept.made id made hsome).1
  rw [World.confirm, if_pos hid]
  refine ⟨⟨at_.kept.fits, at_.kept.made, at_.kept.apart, ?_, ?_, at_.kept.removals⟩, at_.calm,
    at_.started, at_.row, at_.transaction, at_.credentials, ?_, at_.present⟩
  · exact fun other hother => List.mem_cons_of_mem _ (at_.kept.cleared other hother)
  · exact List.forall_mem_cons.mpr ⟨⟨hid, habsent⟩, at_.kept.gone⟩
  · exact List.forall_mem_cons.mpr
      ⟨List.mem_cons_self, fun other hother => List.mem_cons_of_mem _ (at_.gone other hother)⟩

theorem At.confirm_any (at_ : At view world) (habsent : world.containers id = none) :
    At view (world.confirm id) := by
  rw [World.confirm]
  split_ifs with hid
  · refine ⟨⟨at_.kept.fits, at_.kept.made, at_.kept.apart, ?_, ?_, at_.kept.removals⟩, at_.calm,
      at_.started, at_.row, at_.transaction, at_.credentials, ?_, at_.present⟩
    · exact fun other hother => List.mem_cons_of_mem _ (at_.kept.cleared other hother)
    · exact List.forall_mem_cons.mpr ⟨⟨hid, habsent⟩, at_.kept.gone⟩
    · exact fun other hother => List.mem_cons_of_mem _ (at_.gone other hother)
  · exact at_

theorem At.without_absent (at_ : At view world) (habsent : world.containers id = none) :
    At { view with started := without id view.started } world := by
  refine ⟨at_.kept, at_.calm, ?_, at_.row, at_.transaction, at_.credentials, at_.gone, at_.present⟩
  intro other state hthere hstate
  have hstarted := at_.started other state hthere hstate
  have hother : ¬ view.started = some id := by
    rintro hsame
    obtain rfl := Option.some.inj (hstarted.symm.trans hsame)
    rw [habsent] at hthere
    cases hthere
  rw [without, if_neg hother]
  exact hstarted

theorem At.remove (at_ : At view world) (id : Nat) :
    At { view with started := without id view.started, present := [] }
      (world.setContainer id none) := by
  have hset : At { view with present := [] } (world.setContainer id none) := by
    refine ⟨at_.kept.remove id, at_.calm, ?_, at_.row, at_.transaction, at_.credentials,
      at_.gone, fun _ => nofun⟩
    intro other state hthere hstate
    by_cases hsame : other = id
    · subst hsame
      simp [World.setContainer] at hthere
    · exact at_.started other state ((Function.update_of_ne hsame ..).symm.trans hthere) hstate
  exact hset.without_absent (Function.update_self ..)

theorem At.start (at_ : At { view with started := none } world) (state : ContainerState)
    (hthere : world.containers id ≠ none) :
    At { view with started := some id } (world.setContainer id (some state)) := by
  refine ⟨⟨at_.kept.fits, at_.kept.made, at_.kept.apart, at_.kept.cleared, ?_,
    at_.kept.removals⟩, at_.calm, ?_, at_.row, at_.transaction, at_.credentials, at_.gone, ?_⟩
  · intro other hother
    refine ⟨(at_.kept.gone other hother).1, ?_⟩
    have hne : other ≠ id := by
      rintro rfl
      exact hthere (at_.kept.gone other hother).2
    exact (Function.update_of_ne hne ..).trans (at_.kept.gone other hother).2
  · intro other state' hstarted hstate
    by_cases hsame : other = id
    · rw [hsame]
    · have hbefore := (Function.update_of_ne hsame ..).symm.trans hstarted
      exact absurd (at_.started other state' hbefore hstate) nofun
  · intro other hother
    by_cases hsame : other = id
    · subst hsame
      simp [World.setContainer]
    · intro habsent
      exact at_.present other hother ((Function.update_of_ne hsame ..).symm.trans habsent)

theorem At.stop (at_ : At view world) (hrunning : world.containers id = some .running) :
    At view (world.setContainer id (some .stopped)) := by
  have hexit : world.setContainer id (some .stopped) = world.exit [id] := by
    rw [World.setContainer, World.exit]
    congr 1
    funext other
    by_cases hsame : other = id
    · subst hsame
      simp [hrunning]
    · simp [hsame]
  rw [hexit]
  exact at_.exit [id]

theorem At.log (at_ : At view world) :
    At view { world with removals := ⟨world.operation, world.idle⟩ :: world.removals } where
  kept :=
    ⟨at_.kept.fits, at_.kept.made, at_.kept.apart, at_.kept.cleared, at_.kept.gone,
      List.forall_mem_cons.mpr ⟨at_.calm, at_.kept.removals⟩⟩
  calm := at_.calm
  started := at_.started
  row := at_.row
  transaction := at_.transaction
  credentials := at_.credentials
  gone := at_.gone
  present := at_.present

theorem At.writeRow {row : Row} (at_ : At view world) (hfits : Fits view.credentials row)
    (hgone : view.row.containerId ≠ row.containerId →
      ∀ id, view.row.containerId = some id → id ∈ view.gone)
    (hlease : row.lease = true → view.row.lease = true) :
    At { view with row } (world.writeRow row) := by
  refine ⟨⟨?_, at_.kept.made, at_.kept.apart, ?_, at_.kept.gone, at_.kept.removals⟩, ?_,
    at_.started, rfl, at_.transaction, at_.credentials, at_.gone, at_.present⟩
  · show Fits world.credentials row
    rw [at_.credentials]
    exact hfits
  · intro id hcleared
    simp only [World.writeRow] at hcleared
    split_ifs at hcleared with hsame
    · exact at_.kept.cleared id hcleared
    · rcases List.mem_append.mp hcleared with hdropped | hbefore
      · rw [at_.row] at hdropped hsame
        exact at_.gone id (hgone hsame id (Option.mem_toList.mp hdropped))
      · exact at_.kept.cleared id hbefore
  · refine at_.calm.imp_left fun hidle => ?_
    simp only [World.idle, World.writeRow, Bool.and_eq_true, Bool.not_eq_true'] at hidle ⊢
    refine ⟨hidle.1, ?_⟩
    rw [at_.row] at hidle
    rw [Bool.eq_false_iff]
    intro htrue
    rw [hlease htrue] at hidle
    exact absurd hidle.2 nofun

end Views

def Unused (credentials : Nat → Option Credentials) (fresh : Credentials) : Prop :=
  fresh.hmacSecret < fresh.natsConnectPassword ∧ ∀ id made, credentials id = some made →
    made.hmacSecret < fresh.hmacSecret ∧ made.natsConnectPassword < fresh.hmacSecret

def removed (view : View) (id : Nat) (reply : Reply) : View :=
  { view with
    started := if reply.took then without id view.started else view.started
    gone := if reply.answers then id :: view.gone else view.gone
    present := [] }

def written (view : View) (update : Row → Option Row) (reply : Reply) : View :=
  { view with row := if reply.took then (update view.row).getD view.row else view.row }

section Calls

variable {replies : Site → Reply} {site : Site} {view : View} {id : Nat}
  {failed : Failure → World → Prop}

theorem meets_query {pre : World → Prop} {failure : Failure}
    (hfailed : ∀ world, pre world → failed failure world) :
    Meets pre (query replies site failure) (fun _ => pre) failed := by
  unfold query
  split_ifs
  · exact meets_pure fun _ holds => holds
  · exact meets_throw hfailed

theorem meets_readRow :
    Meets (At view) readRow (fun row world => row = view.row ∧ At view world) failed :=
  meets_act fun _ at_ => ⟨at_.row, at_⟩

theorem meets_stop :
    Meets (At view) (call replies (stopContainer · id) site) (fun _ => At view) failed := by
  refine meets_act fun world at_ => ?_
  have hexit := at_.exit (replies site).exits
  unfold stopContainer
  dsimp only
  split
  case h_1 => exact hexit
  case h_2 state hthere =>
      dsimp only
      split_ifs with hstop
      · simp only [Bool.and_eq_true, decide_eq_true_eq] at hstop
        exact hexit.stop (hthere.trans (congrArg some hstop.2))
      · exact hexit

theorem meets_remove (hmade : view.credentials id ≠ none) :
    Meets (At view) (call replies (removeContainer · id) site)
      (fun _ => At (removed view id (replies site))) failed := by
  refine meets_act fun world at_ => ?_
  have hlog := (at_.exit (replies site).exits).log
  have hremove := hlog.remove id
  unfold removeContainer removed Reply.took
  dsimp only
  cases hanswers : (replies site).answers with
  | true =>
      simp only [Bool.true_or, if_true]
      exact hremove.confirm (Function.update_self ..) hmade
  | false =>
      cases hreached : (replies site).reached with
      | true =>
          simp only [Bool.or_true, Bool.false_eq_true, if_true, if_false]
          exact hremove
      | false =>
          simp only [Bool.or_false, Bool.false_eq_true, if_false]
          exact ⟨hlog.kept, hlog.calm, hlog.started, hlog.row, hlog.transaction, hlog.credentials,
            hlog.gone, fun _ => nofun⟩

theorem at_of_removed {reply : Reply} {world : World} (at_ : At (removed view id reply) world) :
    At { view with present := [] } world := by
  have hgone : ∀ other ∈ view.gone, other ∈ world.confirmed := by
    intro other hother
    refine at_.gone other ?_
    unfold removed
    dsimp only
    split_ifs
    · exact List.mem_cons_of_mem _ hother
    · exact hother
  have hstarted : At { removed view id reply with started := view.started } world := by
    cases htook : reply.took with
    | true =>
        refine at_of_without _ id ?_
        simpa [removed, htook] using at_
    | false => simpa [removed, htook] using at_
  exact ⟨at_.kept, at_.calm, hstarted.started, at_.row, at_.transaction, at_.credentials, hgone,
    fun _ => nofun⟩

theorem meets_inspect (hmade : view.credentials id ≠ none) :
    Meets (At view) (call replies (inspectContainer · id) site) (fun answer world =>
      (answer = .notFound → At { view with
        started := without id view.started
        gone := id :: view.gone } world) ∧ At view world) failed := by
  refine meets_act fun world at_ => ?_
  have hexit := at_.exit (replies site).exits
  unfold inspectContainer
  dsimp only
  split_ifs
  · split
    case h_1 habsent =>
        exact ⟨fun _ => (hexit.without_absent habsent).confirm habsent hmade,
          hexit.confirm_any habsent⟩
    case h_2 => exact ⟨nofun, hexit⟩
  · exact ⟨nofun, hexit⟩

theorem meets_inspect_any :
    Meets (At view) (call replies (inspectContainer · id) site) (fun _ => At view) failed := by
  refine meets_act fun world at_ => ?_
  have hexit := at_.exit (replies site).exits
  unfold inspectContainer
  dsimp only
  split_ifs
  · split
    case h_1 habsent => exact hexit.confirm_any habsent
    case h_2 => exact hexit
  · exact hexit

theorem meets_newCredentials :
    Meets (At view) (act newCredentials) (fun fresh world => At view world ∧
      Unused view.credentials fresh ∧ fresh.natsConnectPassword < world.nextUuid) failed := by
  refine meets_act fun world at_ => ⟨?_, ⟨Nat.lt_succ_self _, ?_⟩, Nat.lt_succ_self _⟩
  · refine ⟨⟨at_.kept.fits, ?_, at_.kept.apart, at_.kept.cleared, at_.kept.gone,
      at_.kept.removals⟩, at_.calm, at_.started, at_.row, at_.transaction, at_.credentials,
      at_.gone, at_.present⟩
    intro id made hmade
    obtain ⟨hid, hhmac, hnats⟩ := at_.kept.made id made hmade
    exact ⟨hid, Nat.lt_add_right 2 hhmac, Nat.lt_add_right 2 hnats⟩
  · intro id made hmade
    rw [← at_.credentials] at hmade
    exact (at_.kept.made id made hmade).2

theorem apart_update {credentials : Nat → Option Credentials} {fresh : Credentials}
    (hapart : Apart credentials) (hunused : Unused credentials fresh) :
    Apart (Function.update credentials id (some fresh)) := by
  intro first second made made' hfirst hsecond hne
  by_cases hone : first = id
  · subst hone
    rw [Function.update_self] at hfirst
    rw [Function.update_of_ne (Ne.symm hne)] at hsecond
    obtain rfl := Option.some.inj hfirst
    have hnew := hunused.2 second made' hsecond
    have hown := hunused.1
    omega
  · rw [Function.update_of_ne hone] at hfirst
    by_cases htwo : second = id
    · subst htwo
      rw [Function.update_self] at hsecond
      obtain rfl := Option.some.inj hsecond
      have hnew := hunused.2 first made hfirst
      have hown := hunused.1
      omega
    · rw [Function.update_of_ne htwo] at hsecond
      exact hapart first second made made' hfirst hsecond hne

theorem Fits.update {credentials : Nat → Option Credentials} {row : Row}
    (hfits : Fits credentials row) (habsent : credentials id = none) (fresh : Credentials) :
    Fits (Function.update credentials id (some fresh)) row := by
  refine ⟨fun other hother => ?_, hfits.bare⟩
  obtain ⟨made, hmade, hrest⟩ := hfits.named other hother
  have hne : other ≠ id := by
    rintro rfl
    rw [habsent] at hmade
    cases hmade
  exact ⟨made, (Function.update_of_ne hne ..).trans hmade, hrest⟩

theorem At.create {world : World} {fresh : Credentials} (at_ : At view world)
    (hunused : Unused view.credentials fresh)
    (hdrawn : fresh.natsConnectPassword < world.nextUuid) :
    view.credentials world.nextContainer = none ∧
      At { view with
        credentials := Function.update view.credentials world.nextContainer (some fresh)
        present := [world.nextContainer] }
        { world.setContainer world.nextContainer (some .created) with
          credentials := Function.update world.credentials world.nextContainer (some fresh)
          nextContainer := world.nextContainer + 1 } := by
  have habsent : world.credentials world.nextContainer = none := by
    by_contra hthere
    obtain ⟨made, hmade⟩ := Option.ne_none_iff_exists'.mp hthere
    exact absurd (at_.kept.made _ made hmade).1 (Nat.lt_irrefl _)
  rw [← at_.credentials] at hunused ⊢
  refine ⟨habsent, ⟨⟨at_.kept.fits.update habsent fresh, ?_,
    apart_update at_.kept.apart hunused, at_.kept.cleared, ?_, at_.kept.removals⟩, at_.calm, ?_,
    at_.row, at_.transaction, rfl, at_.gone, ?_⟩⟩
  · intro id made hmade
    by_cases hsame : id = world.nextContainer
    · subst hsame
      simp only [Function.update_self, Option.some.injEq] at hmade
      subst hmade
      exact ⟨Nat.lt_succ_self _, Nat.lt_trans hunused.1 hdrawn, hdrawn⟩
    · simp only [Function.update_of_ne hsame] at hmade
      obtain ⟨hid, hsecrets⟩ := at_.kept.made id made hmade
      exact ⟨Nat.lt_succ_of_lt hid, hsecrets⟩
  · intro id hid
    obtain ⟨hlt, hnone⟩ := at_.kept.gone id hid
    exact ⟨Nat.lt_succ_of_lt hlt, (Function.update_of_ne (Nat.ne_of_lt hlt) ..).trans hnone⟩
  · intro id state hthere hstate
    by_cases hsame : id = world.nextContainer
    · subst hsame
      simp only [World.setContainer, Function.update_self, Option.some.injEq] at hthere
      exact absurd hthere.symm hstate
    · exact at_.started id state ((Function.update_of_ne hsame ..).symm.trans hthere) hstate
  · intro id hid
    obtain rfl := List.mem_singleton.mp hid
    simp [World.setContainer]

theorem meets_create {fresh : Credentials} :
    Meets (fun world => At view world ∧ Unused view.credentials fresh ∧
        fresh.natsConnectPassword < world.nextUuid)
      (call replies (createContainer · fresh) .create) (fun result world =>
        (result = none → ∃ credentials present,
          At { view with credentials, present } world) ∧
        ∀ id, result = some id → view.credentials id = none ∧
          At { view with
            credentials := Function.update view.credentials id (some fresh)
            present := [id] } world) failed := by
  refine meets_act ?_
  rintro world ⟨at_, hunused, hdrawn⟩
  have hexit := at_.exit (replies .create).exits
  obtain ⟨habsent, hcreated⟩ := hexit.create hunused hdrawn
  unfold createContainer Reply.took
  dsimp only
  cases hanswers : (replies .create).answers with
  | true =>
      refine ⟨nofun, fun id hid => ?_⟩
      obtain rfl := Option.some.inj hid
      exact ⟨habsent, hcreated⟩
  | false =>
      refine ⟨fun _ => ?_, fun _ => nofun⟩
      cases hreached : (replies .create).reached with
      | true => exact ⟨_, _, hcreated⟩
      | false => exact ⟨_, _, hexit⟩

theorem meets_start (hpresent : id ∈ view.present) (hnone : view.started = none) :
    Meets (At view) (call replies (startContainer · id) .start)
      (fun answer => match answer with
        | .ok _ => fun world => (replies .start).answers = true ∧
            At { view with started := some id } world
        | .notFound => fun _ => False
        | .error => fun world => (replies .start).answers = false ∧
            At { view with started := if (replies .start).reached then some id else none } world)
      failed := by
  refine meets_act fun world at_ => ?_
  have hexit := at_.exit (replies .start).exits
  have hthere := hexit.present id hpresent
  have hview : { view with started := none } = view := by rw [← hnone]
  rw [← hview] at hexit
  have hstarted := hexit.start .running hthere
  obtain ⟨state, hstate⟩ := Option.ne_none_iff_exists'.mp hthere
  unfold startContainer Reply.took
  dsimp only
  rw [hstate]
  dsimp only
  cases hanswers : (replies .start).answers with
  | true => exact ⟨rfl, hstarted⟩
  | false =>
      cases hreached : (replies .start).reached with
      | true => exact ⟨rfl, hstarted⟩
      | false => exact ⟨rfl, hexit⟩

/-- A statement may change the row to one that fits, if what it drops is gone. -/
def Allows (view : View) (update : Row → Option Row) : Prop :=
  ∀ row, update view.row = some row → Fits view.credentials row ∧
    (view.row.containerId ≠ row.containerId →
      ∀ id, view.row.containerId = some id → id ∈ view.gone) ∧
    (row.lease = true → view.row.lease = true)

theorem meets_write {update : Row → Option Row}
    (hallows : (replies site).took = true → Allows view update) :
    Meets (At view) (call replies (write · update) site) (fun answer world =>
      (answer = .done → (replies site).took = true ∧ (update view.row).isSome) ∧
        (answer = .unmatched → update view.row = none) ∧
        At (written view update (replies site)) world) failed := by
  refine meets_act fun world at_ => ?_
  have hexit := at_.exit (replies site).exits
  unfold write written
  dsimp only
  rw [hexit.row]
  cases hupdate : update view.row with
  | none =>
      have hsame : (if (replies site).took = true then (none : Option Row).getD view.row
          else view.row) = view.row := by
        split_ifs
        · rfl
        · rfl
      dsimp only
      rw [hsame]
      refine ⟨fun hdone => ?_, fun _ => rfl, hexit⟩
      split_ifs at hdone
  | some row =>
      refine ⟨fun hdone => ⟨?_, rfl⟩, fun hunmatched => ?_, ?_⟩
      · dsimp only at hdone
        split_ifs at hdone with hanswers
        simp [Reply.took, hanswers]
      · dsimp only at hunmatched
        split_ifs at hunmatched
      · dsimp only
        cases htook : (replies site).took with
        | true =>
            obtain ⟨hfits, hgone, hlease⟩ := hallows htook row hupdate
            exact hexit.writeRow hfits hgone hlease
        | false => exact hexit

theorem At.transact {world : World} (at_ : At view world) (transaction : Transaction) :
    At { view with transaction } { world with transaction } :=
  ⟨⟨at_.kept.fits, at_.kept.made, at_.kept.apart, at_.kept.cleared, at_.kept.gone,
    at_.kept.removals⟩, at_.calm, at_.started, at_.row, rfl, at_.credentials, at_.gone,
    at_.present⟩

theorem meets_writeInTransaction {update : Row → Option Row} :
    Meets (At view) (call replies (writeInTransaction · update) site) (fun answer =>
      match answer with
      | .done => fun world => ∃ row, update (view.transaction.row.getD view.row) = some row ∧
          view.transaction.aborted = false ∧
          At { view with transaction := { view.transaction with row := some row } } world
      | .unmatched => fun world =>
          update (view.transaction.row.getD view.row) = none ∧ At view world
      | .failed =>
          At { view with transaction := { view.transaction with aborted := true } }) failed := by
  refine meets_act fun world at_ => ?_
  have hexit := at_.exit (replies site).exits
  have hcurrent : (world.exit (replies site).exits).transaction.row.getD
      (world.exit (replies site).exits).row = view.transaction.row.getD view.row := by
    rw [hexit.transaction, hexit.row]
  unfold writeInTransaction
  dsimp only
  rw [hcurrent, hexit.transaction]
  split_ifs with hgoes
  · simp only [Bool.and_eq_true, Bool.not_eq_true'] at hgoes
    cases hupdate : update (view.transaction.row.getD view.row) with
    | none => exact ⟨rfl, hexit⟩
    | some row => exact ⟨row, rfl, hgoes.2, hexit.transact _⟩
  · exact hexit.transact _

theorem meets_invalidate :
    Meets (At view) (call replies invalidate site) (fun _ world =>
      ∃ transaction, transaction.row = view.transaction.row ∧
        At { view with transaction } world) failed := by
  refine meets_act fun world at_ => ?_
  unfold invalidate
  dsimp only
  rw [at_.transaction]
  split_ifs
  · exact ⟨⟨view.transaction.row, true, view.transaction.aborted⟩, rfl, at_.transact _⟩
  · exact ⟨⟨view.transaction.row, view.transaction.invalidated, true⟩, rfl, at_.transact _⟩

/-- What holds of an agent when no operation is in progress. -/
structure Ended (world : World) : Prop where
  kept : Kept world
  started : ∀ id state, world.containers id = some state → state ≠ .created →
    world.row.containerId = some id

def committed (view : View) (reply : Reply) : Row :=
  if reply.took && !view.transaction.aborted then view.transaction.row.getD view.row else view.row

theorem meets_commit
    (hallows : Allows view fun _ => some (committed view (replies .commit)))
    (hstarted : view.started = none ∨
      view.started = (committed view (replies .commit)).containerId) :
    Meets (At view) (call replies commit .commit) (fun _ => Ended) failed := by
  refine meets_act fun world at_ => ?_
  obtain ⟨hfits, hgone, hlease⟩ := hallows _ rfl
  have hwritten := at_.writeRow hfits hgone hlease
  have hended : Ended (world.writeRow (committed view (replies .commit))) := by
    refine ⟨hwritten.kept, fun id state hthere hstate => ?_⟩
    have hone := hwritten.started id state hthere hstate
    rcases hstarted with hnone | hsame
    · exact absurd (hnone.symm.trans hone) nofun
    · exact hsame.symm.trans hone
  unfold commit committed at *
  dsimp only
  rw [at_.transaction]
  split_ifs at hended ⊢ with hcommits
  · rw [at_.row]
    exact ⟨⟨hended.kept.fits, hended.kept.made, hended.kept.apart, hended.kept.cleared,
      hended.kept.gone, hended.kept.removals⟩, hended.started⟩
  · have hsame : world.writeRow view.row = world := by
      rw [← at_.row, World.writeRow, if_pos rfl]
    rw [hsame] at hended
    exact hended

end Calls

end Forge.ContainerViews
