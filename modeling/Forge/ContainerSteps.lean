import Forge.ContainerViews

/-! What the steps of the operations on a container leave: the stop, the removal and the start. -/

namespace Forge.ContainerSteps

open Forge.ContainerLifecycle
open Forge.ContainerViews
open Forge.Library.Effectful

/-- What the calls of an operation on the row leave: no container can have been started but that of
the row, which the transaction has not written. -/
def Resting (world : World) : Prop :=
  ∃ view, At view world ∧
    (view.started = none ∨ view.started = view.row.containerId) ∧ view.transaction.row = none

section Steps

variable {replies : Site → Reply} {phase : Phase} {id : Nat} {view : View}
  {failed : Failure → World → Prop}

theorem meets_idempotentContainerOp {pre : World → Prop}
    {step : Reply → World → Answer Unit × World} {first second : Site}
    (hstep : ∀ site, Meets pre (call replies step site) (fun _ => pre) failed) :
    Meets pre (idempotentContainerOp replies step first second) (fun _ => pre) failed := by
  refine (hstep first).bind fun answer => ?_
  cases answer with
  | ok _ => exact meets_pure fun _ holds => holds
  | notFound => exact meets_pure fun _ holds => holds
  | error => exact (hstep second).bind fun _ => meets_pure fun _ holds => holds

theorem meets_stopAndRemove (hmade : view.credentials id ≠ none) (hpresent : view.present = []) :
    Meets (At view) (stopAndRemove replies phase id) (fun _ => At view) failed := by
  have hview : { view with present := [] } = view := by rw [← hpresent]
  refine (meets_idempotentContainerOp fun _ => meets_stop).bind fun _ => ?_
  refine meets_idempotentContainerOp fun site => ?_
  refine (meets_remove hmade).weaken (fun _ holds => holds) (fun _ world holds => ?_)
    fun _ _ holds => holds
  rw [← hview]
  exact at_of_removed holds

theorem clear_eq {row after : Row} (hclear : row.clear id = some after) :
    row.containerId = some id ∧ after = ⟨none, none, none, false⟩ := by
  unfold Row.clear at hclear
  split_ifs at hclear with hnamed
  exact ⟨hnamed, (Option.some.inj hclear).symm⟩

theorem fits_cleared (credentials : Nat → Option Credentials) :
    Fits credentials ⟨none, none, none, false⟩ :=
  ⟨fun _ => nofun, fun _ => ⟨rfl, rfl⟩⟩

theorem allows_clear (hgone : view.row.containerId = some id → id ∈ view.gone) :
    Allows view (Row.clear id) := by
  intro row hclear
  obtain ⟨hnamed, rfl⟩ := clear_eq hclear
  refine ⟨fits_cleared _, fun _ other hother => ?_, nofun⟩
  obtain rfl := Option.some.inj (hnamed.symm.trans hother)
  exact hgone hnamed

def Calm (view : View) (id : Nat) : Prop :=
  (view.row.containerId = some id → id ∈ view.gone ∧ view.started = none) ∧
    (view.started = none ∨ view.started = view.row.containerId) ∧ view.transaction.row = none

theorem resting_written {update : Row → Option Row} {reply : Reply} {world : World}
    (at_ : At (written view update reply) world)
    (hkept : ∀ row, update view.row = some row →
      view.started = none ∨ view.started = row.containerId)
    (hstarted : view.started = none ∨ view.started = view.row.containerId)
    (htransaction : view.transaction.row = none) : Resting world := by
  refine ⟨_, at_, ?_, htransaction⟩
  unfold written
  dsimp only
  split_ifs
  · cases hupdate : update view.row with
    | none => exact hstarted
    | some row => exact hkept row hupdate
  · exact hstarted

theorem meets_reconcileStoppedAgent (calm : Calm view id) :
    Meets (At view) (reconcileStoppedAgent replies phase id) (fun _ => Resting)
      (fun _ => Resting) := by
  obtain ⟨hgone, hstarted, htransaction⟩ := calm
  refine (meets_write fun _ => allows_clear fun hnamed => (hgone hnamed).1).bind fun answer => ?_
  have hrests : ∀ world, At (written view (Row.clear id) (replies (.clear phase))) world →
      Resting world := by
    intro world at_
    refine resting_written at_ (fun row hclear => ?_) hstarted htransaction
    exact .inl (hgone (clear_eq hclear).1).2
  cases answer with
  | done => exact meets_pure fun world holds => hrests world holds.2.2
  | unmatched => exact meets_pure fun world holds => hrests world holds.2.2
  | failed => exact meets_throw fun world holds => hrests world holds.2.2

/-- The row names a container, the only one that can have been started. -/
structure Named (view : View) (id : Nat) : Prop where
  row : view.row.containerId = some id
  started : view.started = none ∨ view.started = view.row.containerId
  transaction : view.transaction.row = none
  present : view.present = []

theorem Named.without (named : Named view id) : without id view.started = none := by
  rcases named.started with hnone | hsame
  · rw [hnone]
    rfl
  · rw [hsame, named.row]
    exact if_pos rfl

theorem Named.resting {world : World} (named : Named view id) (at_ : At view world) :
    Resting world :=
  ⟨view, at_, named.started, named.transaction⟩

def gone (view : View) (id : Nat) : View :=
  { view with started := none, gone := id :: view.gone }

theorem calm_gone (named : Named view id) : Calm (gone view id) id :=
  ⟨fun _ => ⟨List.mem_cons_self, rfl⟩, .inl rfl, named.transaction⟩

theorem meets_confirmAbsent {site : Site} (named : Named view id)
    (hmade : view.credentials id ≠ none) :
    Meets (At view) (call replies (inspectContainer · id) site)
      (fun answer world => (answer = .notFound → At (gone view id) world) ∧ At view world)
      failed := by
  refine (meets_inspect hmade).weaken (fun _ holds => holds) (fun answer world holds => ?_)
    fun _ _ holds => holds
  rw [named.without] at holds
  exact holds

theorem meets_stopAndRemoveContainerLocked (named : Named view id)
    (hmade : view.credentials id ≠ none) :
    Meets (At view) (stopAndRemoveContainerLocked replies id)
      (fun outcome world => (outcome = .stopped → At (gone view id) world) ∧ At view world)
      (fun _ => At view) := by
  refine (meets_query ?_).bind fun _ => ?_
  · exact fun _ holds => holds
  refine (meets_stopAndRemove hmade named.present).bind fun _ => ?_
  refine (meets_confirmAbsent named hmade).bind fun answer => ?_
  cases answer with
  | notFound => exact meets_pure fun _ holds => ⟨fun _ => holds.1 rfl, holds.2⟩
  | ok _ => exact meets_pure fun _ holds => ⟨nofun, holds.2⟩
  | error => exact meets_pure fun _ holds => ⟨nofun, holds.2⟩

theorem fits_of_at {world : World} (at_ : At view world) : Fits view.credentials view.row := by
  rw [← at_.credentials, ← at_.row]
  exact at_.kept.fits

theorem forget_of_at {world : World} (at_ : At view world) :
    At { view with present := [] } world :=
  ⟨at_.kept, at_.calm, at_.started, at_.row, at_.transaction, at_.credentials, at_.gone,
    fun _ => nofun⟩

theorem named_of_at {world : World} (at_ : At view world) (hrow : view.row.containerId = some id)
    (hstarted : view.started = none ∨ view.started = view.row.containerId)
    (htransaction : view.transaction.row = none) :
    Named { view with present := [] } id ∧ view.credentials id ≠ none := by
  obtain ⟨made, hmade, -⟩ := (fits_of_at at_).named id hrow
  exact ⟨⟨hrow, hstarted, htransaction, rfl⟩, Option.ne_none_iff_exists'.mpr ⟨made, hmade⟩⟩

theorem resting_cases {world : World} (resting : Resting world) : ∃ view, At view world ∧
    ((view.row.containerId = none ∧ view.started = none ∧ view.transaction.row = none ∧
        view.present = []) ∨
      ∃ id, Named view id ∧ view.credentials id ≠ none) := by
  obtain ⟨view, at_, hstarted, htransaction⟩ := resting
  refine ⟨_, forget_of_at at_, ?_⟩
  cases hrow : view.row.containerId with
  | none =>
      rw [hrow] at hstarted
      exact .inl ⟨rfl, hstarted.elim id id, htransaction, rfl⟩
  | some id => exact .inr ⟨id, named_of_at at_ hrow hstarted htransaction⟩

theorem meets_resting {α : Type} {operation : Op α} {post : α → World → Prop}
    (hbare : ∀ view, view.row.containerId = none → view.started = none →
      view.transaction.row = none → view.present = [] → Meets (At view) operation post failed)
    (hnamed : ∀ view id, Named view id → view.credentials id ≠ none →
      Meets (At view) operation post failed) : Meets Resting operation post failed := by
  intro world resting
  obtain ⟨view, at_, ⟨hrow, hstarted, htransaction, hpresent⟩ | ⟨id, named, hmade⟩⟩ :=
    resting_cases resting
  · exact hbare view hrow hstarted htransaction hpresent world at_
  · exact hnamed view id named hmade world at_

theorem meets_stopWithOutcomeLocked :
    Meets Resting (stopWithOutcomeLocked replies) (fun _ => Resting) (fun _ => Resting) := by
  refine meets_resting (fun view hrow hstarted htransaction hpresent => ?_) fun view id named
    hmade => ?_
  · have hrests : ∀ world, At view world → Resting world :=
      fun world at_ => ⟨view, at_, .inl hstarted, htransaction⟩
    refine (meets_query fun world at_ => hrests world at_).bind fun _ => ?_
    refine meets_readRow.bind fun row => ?_
    rintro world ⟨rfl, at_⟩
    rw [hrow]
    exact hrests world at_
  · refine (meets_query fun world at_ => named.resting at_).bind fun _ => ?_
    refine meets_readRow.bind fun row => ?_
    rintro world ⟨rfl, at_⟩
    rw [named.row]
    revert world
    refine ((meets_stopAndRemoveContainerLocked named hmade).weaken (fun _ holds => holds)
      (fun _ _ holds => holds) fun _ world at_ => named.resting at_).bind fun outcome => ?_
    cases outcome with
    | stopped =>
        refine ((meets_reconcileStoppedAgent (calm_gone named)).weaken
          (fun _ holds => holds.1 rfl) (fun _ _ holds => holds) fun _ _ holds => holds).bind ?_
        exact fun _ => meets_pure fun _ holds => holds
    | stillRunning => exact meets_pure fun world holds => named.resting holds.2
    | unconfirmed => exact meets_pure fun world holds => named.resting holds.2

theorem meets_quarantineUnverifiedContainer (named : Named view id)
    (hmade : view.credentials id ≠ none) :
    Meets (At view) (quarantineUnverifiedContainer replies id) (fun _ => Resting)
      (fun _ => Resting) := by
  have hquarantine : Meets (At view)
      (do
        let _ ← call replies (write · (Row.quarantine id)) .quarantine
        pure ()) (fun _ => Resting) (fun _ => Resting) := by
    refine (meets_write fun _ row hrow => ?_).bind fun _ => meets_pure fun world holds =>
      resting_written holds.2.2 (fun row hrow => ?_) named.started named.transaction
    · unfold Row.quarantine at hrow
      rw [if_pos named.row] at hrow
      obtain rfl := Option.some.inj hrow
      obtain ⟨made, hsome⟩ := Option.ne_none_iff_exists'.mp hmade
      refine ⟨⟨fun other hother => ?_, nofun⟩, fun hother => absurd named.row hother, nofun⟩
      obtain rfl := Option.some.inj hother
      exact ⟨made, hsome, .inl rfl, .inl rfl⟩
    · unfold Row.quarantine at hrow
      rw [if_pos named.row] at hrow
      obtain rfl := Option.some.inj hrow
      exact named.row ▸ named.started
  refine (meets_stopAndRemove hmade named.present).bind fun _ => ?_
  refine (meets_confirmAbsent named hmade).bind fun answer => ?_
  cases answer with
  | notFound =>
      refine ((meets_reconcileStoppedAgent (calm_gone named)).weaken
        (fun _ holds => holds.1 rfl) (fun _ _ holds => holds) fun _ _ holds => holds).attempt.bind
          fun result => ?_
      cases result with
      | ok _ => exact meets_pure fun _ holds => holds
      | error _ => exact meets_pure fun _ holds => holds
  | ok _ =>
      exact hquarantine.weaken (fun _ holds => holds.2) (fun _ _ holds => holds)
        fun _ _ holds => holds
  | error =>
      exact hquarantine.weaken (fun _ holds => holds.2) (fun _ _ holds => holds)
        fun _ _ holds => holds

/-- The row names no container and none can have been started. -/
structure Bare (view : View) : Prop where
  row : view.row.containerId = none
  started : view.started = none
  transaction : view.transaction.row = none

theorem Bare.resting {world : World} (bare : Bare view) (at_ : At view world) : Resting world :=
  ⟨view, at_, .inl bare.started, bare.transaction⟩

theorem meets_clearReplaced (named : Named view id) :
    Meets (At (gone view id)) (clearReplaced replies id)
      (fun _ world => ∃ view, Bare view ∧ At view world) (fun _ => Resting) := by
  have hcalm := calm_gone named
  refine (meets_write fun _ => allows_clear fun hnamed => (hcalm.1 hnamed).1).bind fun answer => ?_
  have hrests : ∀ world,
      At (written (gone view id) (Row.clear id) (replies (.clear .replacing))) world →
        Resting world := by
    intro world at_
    refine resting_written at_ (fun row hclear => .inl rfl) (.inl rfl) named.transaction
  cases answer with
  | done =>
      refine meets_pure fun world holds => ⟨written (gone view id) (Row.clear id)
        (replies (.clear .replacing)), ⟨?_, rfl, named.transaction⟩, holds.2.2⟩
      obtain ⟨htook, -⟩ := holds.1 rfl
      have hclear : Row.clear id (gone view id).row = some ⟨none, none, none, false⟩ :=
        if_pos named.row
      unfold written
      dsimp only
      rw [if_pos htook, hclear]
      rfl
  | unmatched => exact meets_throw fun world holds => hrests world holds.2.2
  | failed => exact meets_throw fun world holds => hrests world holds.2.2

theorem meets_removeContainerForReplacement (named : Named view id)
    (hmade : view.credentials id ≠ none) :
    Meets (At view) (removeContainerForReplacement replies id)
      (fun _ => At (gone view id)) (fun _ => Resting) := by
  refine (meets_stopAndRemove hmade named.present).bind fun _ => ?_
  refine (meets_confirmAbsent named hmade).bind fun answer => ?_
  cases answer with
  | notFound => exact meets_pure fun _ holds => holds.1 rfl
  | ok _ => exact meets_throw fun world holds => named.resting holds.2
  | error => exact meets_throw fun world holds => named.resting holds.2

theorem meets_makeRoom :
    Meets Resting (makeRoom replies) (fun outcome =>
      match outcome with
      | none => fun world => ∃ view, Bare view ∧ At view world
      | some _ => Resting) (fun _ => Resting) := by
  refine meets_resting (fun view hrow hstarted htransaction hpresent => ?_) fun view id named
    hmade => ?_
  · refine meets_readRow.bind fun row => ?_
    rintro world ⟨rfl, at_⟩
    rw [hrow]
    exact ⟨view, ⟨hrow, hstarted, htransaction⟩, at_⟩
  · refine meets_readRow.bind fun row => ?_
    rintro world ⟨rfl, at_⟩
    rw [named.row]
    revert world
    refine (meets_confirmAbsent named hmade).bind fun answer => ?_
    cases answer with
    | notFound =>
        refine ((meets_clearReplaced named).weaken (fun _ holds => holds.1 rfl)
          (fun _ _ holds => holds) fun _ _ holds => holds).bind fun _ => ?_
        exact meets_pure fun _ holds => holds
    | error => exact meets_throw fun world holds => named.resting holds.2
    | ok state =>
        dsimp only
        split_ifs
        · split
          case h_1 => exact meets_pure fun world holds => named.resting holds.2
          case h_2 => exact meets_throw fun world holds => named.resting holds.2
          case h_3 =>
              refine ((meets_quarantineUnverifiedContainer named hmade).weaken
                (fun _ holds => holds.2) (fun _ _ holds => holds) fun _ _ holds => holds).bind
                  fun _ => ?_
              exact meets_throw fun _ holds => holds
        · refine ((meets_removeContainerForReplacement named hmade).weaken
            (fun _ holds => holds.2) (fun _ _ holds => holds) fun _ _ holds => holds).bind
              fun _ => ?_
          refine (meets_clearReplaced named).bind fun _ => ?_
          exact meets_pure fun _ holds => holds

theorem meets_discard {α : Type} {failure : Failure} {post : α → World → Prop}
    (hmade : view.credentials id ≠ none) :
    Meets (At view)
      (do
        let _ ← call replies (removeContainer · id) .cleanup
        throw failure : Op α) post (fun _ => At { view with present := [] }) :=
  (meets_remove hmade).bind fun _ => meets_throw fun _ => at_of_removed

def Created (view : View) (world : World) : Prop :=
  ∃ credentials present, At { view with credentials, present } world

theorem meets_createVerified {fresh : Credentials} :
    Meets (fun world => At view world ∧ Unused view.credentials fresh ∧
        fresh.natsConnectPassword < world.nextUuid)
      (createVerified replies fresh)
      (fun id => fun world => view.credentials id = none ∧
        At { view with
          credentials := Function.update view.credentials id (some fresh)
          present := [id] } world)
      (fun _ => Created view) := by
  refine meets_create.bind fun result => ?_
  cases result with
  | none => exact meets_throw fun world holds => holds.1 rfl
  | some id =>
      have hmade : (Function.update view.credentials id (some fresh)) id ≠ none := by
        rw [Function.update_self]
        exact Option.some_ne_none fresh
      have hcleanup : ∀ {failure : Failure}, Meets (At { view with
            credentials := Function.update view.credentials id (some fresh)
            present := [id] })
          (do
            let _ ← call replies (removeContainer · id) .cleanup
            throw failure : Op Nat)
          (fun id => fun world => view.credentials id = none ∧
            At { view with
              credentials := Function.update view.credentials id (some fresh)
              present := [id] } world)
          (fun _ => Created view) := by
        intro failure
        exact (meets_discard hmade).weaken (fun _ holds => holds) (fun _ _ holds => holds)
          fun _ _ at_ => ⟨_, _, at_⟩
      dsimp only
      by_cases habsent : view.credentials id = none
      · refine (meets_inspect_any.bind fun answer => ?_).weaken
          (fun world holds => (holds.2 id rfl).2) (fun _ _ holds => holds) fun _ _ holds => holds
        cases answer with
        | ok _ =>
            dsimp only
            split_ifs
            · exact meets_pure fun world at_ => ⟨habsent, at_⟩
            · exact hcleanup
        | notFound => exact hcleanup
        | error => exact hcleanup
      · exact fun world holds => absurd (holds.2 id rfl).1 habsent

def StartFits (replies : Site → Reply) : Prop :=
  (replies .start).answers = false →
    (replies .cleanup).answers = true ∨ (replies .clearFailed).took = false

/-- The row names a container that was just made. -/
structure Fresh (view : View) (id : Nat) : Prop where
  row : view.row.containerId = some id
  started : view.started = none
  transaction : view.transaction.row = none
  made : view.credentials id ≠ none
  present : id ∈ view.present

theorem started_removed (reply : Reply)
    (hstarted : view.started = none ∨ view.started = some id) :
    (removed view id reply).started = none ∨
      (reply.took = false ∧ (removed view id reply).started = some id) := by
  unfold removed without
  dsimp only
  rcases hstarted with hnone | hsome
  · rw [hnone]
    simp
  · rw [hsome]
    cases htook : reply.took with
    | true => simp
    | false => simp

theorem meets_cleanStarted
    (hclears : (replies .cleanup).answers = true ∨ (replies .clearFailed).took = false)
    (hrow : view.row.containerId = some id) (hmade : view.credentials id ≠ none)
    (hstarted : view.started = none ∨ view.started = some id)
    (htransaction : view.transaction.row = none) :
    Meets (At view)
      (do
        let _ ← call replies (removeContainer · id) .cleanup
        let _ ← call replies (write · (Row.clear id)) .clearFailed
        throw .startContainer : Op StartOutcome)
      (fun _ => Resting) (fun _ => Resting) := by
  refine (meets_remove hmade).bind fun _ => ?_
  refine (meets_write fun htook => allows_clear fun _ => ?_).bind fun _ => ?_
  · rcases hclears with hremoved | hunwritten
    · unfold removed
      dsimp only
      rw [if_pos hremoved]
      exact List.mem_cons_self
    · rw [hunwritten] at htook
      exact absurd htook nofun
  · refine meets_throw fun world holds => ⟨_, holds.2.2, ?_, htransaction⟩
    rcases started_removed (replies .cleanup) hstarted with hnone | ⟨hleft, hsome⟩
    · exact .inl hnone
    · -- the removal was not answered, so the row is not cleared
      have hunwritten := hclears.resolve_left fun hanswers => by simp [Reply.took, hanswers] at hleft
      right
      unfold written
      dsimp only
      rw [hunwritten, hsome]
      exact hrow.symm

theorem meets_startCreated (fits : StartFits replies) (fresh : Fresh view id) :
    Meets (At view) (startCreated replies (write · (Row.clear id)) id) (fun _ => Resting)
      (fun _ => Resting) := by
  refine (meets_start fresh.present fresh.started).bind fun answer => ?_
  cases answer with
  | ok _ =>
      exact meets_pure fun world holds => ⟨_, holds.2, .inr fresh.row.symm, fresh.transaction⟩
  | notFound => exact fun _ holds => holds.elim
  | error =>
      rintro world ⟨hanswers, at_⟩
      refine meets_cleanStarted (fits hanswers) ?_ ?_ ?_ ?_ world at_
      · exact fresh.row
      · exact fresh.made
      · exact (ite_eq_or_eq ((replies .start).reached = true) (some id) none).symm
      · exact fresh.transaction

theorem Bare.at_created {world : World} (bare : Bare view) (hcreated : Created view world) :
    Resting world := by
  obtain ⟨credentials, present, at_⟩ := hcreated
  exact ⟨_, at_, .inl bare.started, bare.transaction⟩

theorem meets_startLocked (fits : StartFits replies) :
    Meets Resting (startLocked replies) (fun _ => Resting) (fun _ => Resting) := by
  refine (meets_query ?_).bind fun _ => ?_
  · exact fun _ holds => holds
  refine (meets_query ?_).bind fun _ => ?_
  · exact fun _ holds => holds
  refine meets_makeRoom.bind fun outcome => ?_
  cases outcome with
  | some outcome => exact meets_pure fun _ holds => holds
  | none =>
      rintro world ⟨view, bare, at_⟩
      revert world
      refine Meets.bind meets_newCredentials fun credentials => ?_
      refine Meets.bind (meets_query fun world holds => bare.resting holds.1) fun _ => ?_
      refine Meets.bind (meets_createVerified.weaken (fun _ holds => holds) (fun _ _ holds => holds)
        fun _ world holds => bare.at_created holds) fun id => ?_
      rintro world ⟨habsent, at_⟩
      revert world
      have hrow : Row.set id credentials view.row =
          some ⟨some id, some credentials.hmacSecret, some credentials.natsConnectPassword,
            false⟩ := if_pos bare.row
      have hmade : Function.update view.credentials id (some credentials) id = some credentials :=
        Function.update_self ..
      have hpersist : Allows { view with
          credentials := Function.update view.credentials id (some credentials)
          present := [id] } (Row.set id credentials) := by
        intro row hset
        obtain rfl := Option.some.inj (hrow.symm.trans hset)
        refine ⟨⟨fun other hother => ?_, nofun⟩, fun _ other hother => ?_, nofun⟩
        · obtain rfl := Option.some.inj hother
          exact ⟨credentials, hmade, .inr rfl, .inr rfl⟩
        · exact absurd (bare.row.symm.trans hother) nofun
      have hcleanup : ∀ {failure : Failure}, Meets (At (written { view with
            credentials := Function.update view.credentials id (some credentials)
            present := [id] } (Row.set id credentials) (replies .persist)))
          (do
            let _ ← call replies (removeContainer · id) .cleanup
            throw failure : Op StartOutcome) (fun _ => Resting) (fun _ => Resting) := by
        intro failure
        refine (meets_discard ?_).weaken (fun _ holds => holds) (fun _ _ holds => holds)
          fun _ _ at_ => ⟨_, at_, .inl bare.started, bare.transaction⟩
        exact Option.ne_none_iff_exists'.mpr ⟨credentials, hmade⟩
      refine Meets.bind (meets_write fun _ => hpersist) fun answer => ?_
      cases answer with
      | done =>
          rintro world ⟨hdone, -, at_⟩
          refine meets_startCreated fits ?_ world at_
          refine ⟨?_, bare.started, bare.transaction, ?_, List.mem_cons_self⟩
          · unfold written
            dsimp only
            rw [if_pos (hdone rfl).1, hrow]
            rfl
          · exact Option.ne_none_iff_exists'.mpr ⟨credentials, hmade⟩
      | unmatched =>
          exact hcleanup.weaken (fun _ holds => holds.2.2) (fun _ _ holds => holds)
            fun _ _ holds => holds
      | failed =>
          exact hcleanup.weaken (fun _ holds => holds.2.2) (fun _ _ holds => holds)
            fun _ _ holds => holds

end Steps

end Forge.ContainerSteps
