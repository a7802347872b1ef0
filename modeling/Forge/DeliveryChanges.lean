import Forge.AssignmentInbox

/-! What one operation can do to a delivery, what stays true of it then, and what the other
actors can rely upon. Where crashes count, only files on disk do. -/

namespace Forge.DeliveryChanges

open Forge.AssignmentInbox
open Forge.Library.DurableEntry
open Forge.Library.Identifier
open Forge.ResultConsumer
open Forge.Schema

variable {crashes : Bool} {sidecar : Sidecar} {id : Uuid} {delivery after : Delivery id}

/-! ## Facts about a delivery -/

def Seen (delivery : Delivery id) : Prop :=
  delivery.completed.present = true ∨ delivery.purged = true

def Done (crashes : Bool) (delivery : Delivery id) : Prop :=
  (delivery.completed.present = true ∧ (crashes = true → delivery.completed.Firm)) ∨
    delivery.purged = true

def Stale (sidecar : Sidecar) (delivery : Delivery id) : Prop :=
  ∃ file, delivery.pending.current = some file ∧ ¬sidecar.Admits file.assignment

instance : DecidablePred sidecar.Admits :=
  fun _ => inferInstanceAs (Decidable (_ ∧ _ ∧ _))

instance : Decidable (Stale sidecar delivery) :=
  inferInstanceAs (Decidable (∃ file ∈ delivery.pending.current, ¬sidecar.Admits file.assignment))

def HasResult (delivery : Delivery id) (result : TaskResult) : Prop :=
  ∃ file, delivery.result.Possible file ∧ file.result = result

def Holds (crashes : Bool) (delivery : Delivery id) (result : TaskResult) : Prop :=
  (∃ file, delivery.result.current = some file ∧ file.result = result) ∨ Done crashes delivery

def Told (crashes : Bool) (delivery : Delivery id) : Prop :=
  crashes = true → ∀ result, HasResult delivery result ∨ result ∈ delivery.stored →
    result ∈ delivery.published

def Secured (crashes : Bool) (delivery : Delivery id) : Prop :=
  crashes = true → delivery.kept = true ∨ delivery.pending.Firm

theorem Done.seen (done : Done crashes delivery) : Seen delivery := by
  rcases done with ⟨present, _⟩ | purged
  · exact .inl present
  · exact .inr purged

theorem Seen.sync (seen : Seen delivery) : Done crashes (delivery.sync .completed) :=
  seen.imp_left fun present => ⟨present, fun _ => Entry.firm_settled.mpr present⟩

/-! ## The invariant -/

/-- What holds where crashes count. -/
structure Durable (sidecar : Sidecar) (delivery : Delivery id) : Prop where
  kept : delivery.kept = true →
    delivery.completed.Firm ∨ delivery.result.Firm ∨ delivery.purged = true
  told : (∃ modified, delivery.completed.Possible modified) ∨ delivery.purged = true →
    Told true delivery
  stored : ∀ result ∈ delivery.stored,
    result ∈ delivery.published ∨ delivery.result.Firm ∧ HasResult delivery result
  agree : ∀ file other, delivery.result.Possible file → delivery.result.Possible other →
    file = other
  admitted : ∀ file, delivery.pending.Possible file → sidecar.Admits file.assignment
  finished : delivery.kept = true → delivery.finished = true
  done : Done true delivery → delivery.kept = true
  firm : delivery.result.Firm → delivery.kept = true ∧
    ∀ file, delivery.result.current = some file → file.result ∈ delivery.stored
  gone : delivery.purged = true → ∀ file, ¬delivery.pending.Possible file

structure Sound (crashes : Bool) (sidecar : Sidecar) (delivery : Delivery id) : Prop where
  tombstone : ∀ modified, delivery.completed.Possible modified → delivery.finished = true
  result : ∀ file, delivery.result.Possible file → delivery.finished = true
  purged : delivery.purged = true → delivery.finished = true
  finished : delivery.finished = true → Seen delivery ∨ delivery.result.present = true
  gone : delivery.purged = true → delivery.pending.current = none
  durable : crashes = true → Durable sidecar delivery

theorem Sound.of_seen (sound : Sound crashes sidecar delivery) (seen : Seen delivery) :
    delivery.finished = true := by
  rcases seen with present | purged
  · obtain ⟨modified, shown⟩ := Entry.present_iff.mp present
    exact sound.tombstone modified (.of_current shown)
  · exact sound.purged purged

theorem Sound.of_present (sound : Sound crashes sidecar delivery)
    (present : delivery.result.present = true) : delivery.finished = true := by
  obtain ⟨file, shown⟩ := Entry.present_iff.mp present
  exact sound.result file (.of_current shown)

theorem Durable.told_of_done (durable : Durable sidecar delivery) (done : Done true delivery) :
    Told true delivery := by
  refine durable.told ?_
  rcases done with ⟨present, _⟩ | purged
  · obtain ⟨modified, shown⟩ := Entry.present_iff.mp present
    exact .inl ⟨modified, .of_current shown⟩
  · exact .inr purged

/-! ## The changes -/

def Marks (crashes : Bool) (sidecar : Sidecar) (actor : Actor) (delivery : Delivery id) : Prop :=
  match actor with
  | .main => Seen delivery ∨ Stale sidecar delivery
  | .task other => other = id ∧ Told crashes delivery

/-- What one operation of an actor does to a delivery, and when. -/
inductive Change (crashes : Bool) (sidecar : Sidecar) (actor : Actor) (operation : Op)
    (delivery : Delivery id) : Delivery id → Prop
  | same : Change crashes sidecar actor operation delivery delivery
  | linkPending (file : PendingFile id) (main : actor = .main)
      (absent : delivery.pending.present = false) (lives : delivery.purged = false)
      (admits : sidecar.Admits file.assignment) :
      Change crashes sidecar actor operation delivery (delivery.linkPending file)
  | linkResult (file : ResultFile id) (own : actor = .task id)
      (fresh : delivery.finished = false) :
      Change crashes sidecar actor operation delivery (delivery.linkResult file)
  | linkTombstone (modified : Timestamp) (absent : delivery.completed.present = false)
      (marks : Marks crashes sidecar actor delivery) :
      Change crashes sidecar actor operation delivery (delivery.linkTombstone modified)
  | unlinkPending (done : Done crashes delivery) :
      Change crashes sidecar actor operation delivery (delivery.unlink .pending)
  | unlinkResult (done : Done crashes delivery) :
      Change crashes sidecar actor operation delivery (delivery.unlink .results)
  | unlinkCompleted (main : actor = .main) (purges : operation = .removeFile .completed id)
      (done : Done crashes delivery) (gone : delivery.pending.current = none)
      (firm : crashes = true → ∀ file, ¬delivery.pending.Possible file) :
      Change crashes sidecar actor operation delivery (delivery.unlink .completed)
  | sync (dir : Dir) : Change crashes sidecar actor operation delivery (delivery.sync dir)
  | publish (result : TaskResult) :
      Change crashes sidecar actor operation delivery (delivery.publish result)

theorem Sound.linkPending (sound : Sound crashes sidecar delivery) {file : PendingFile id}
    (lives : delivery.purged = false) (admits : sidecar.Admits file.assignment) :
    Sound crashes sidecar (delivery.linkPending file) where
  tombstone := sound.tombstone
  result := sound.result
  purged := sound.purged
  finished := sound.finished
  gone purged := by simp [Delivery.linkPending, lives] at purged
  durable counts :=
    let durable := sound.durable counts
    { durable with
      admitted := fun other possible => by
        rcases Entry.possible_change.mp possible with same | earlier
        · cases same
          exact admits
        · exact durable.admitted other earlier
      gone := fun purged => by simp [Delivery.linkPending, lives] at purged }

theorem Sound.linkResult (sound : Sound crashes sidecar delivery) {file : ResultFile id}
    (fresh : delivery.finished = false) :
    Sound crashes sidecar (delivery.linkResult file) where
  tombstone _ _ := rfl
  result _ _ := rfl
  purged _ := rfl
  finished _ := .inr rfl
  gone := sound.gone
  durable counts := by
    have durable := sound.durable counts
    have unkept : delivery.kept ≠ true := fun kept => by
      simp [durable.finished kept] at fresh
    have only : ∀ other, (delivery.linkResult file).result.Possible other → other = file := by
      intro other possible
      rcases Entry.possible_change.mp possible with same | earlier
      · exact (Option.some.inj same).symm
      · simp [sound.result other earlier] at fresh
    exact
      { kept := fun kept => absurd kept unkept
        told := by
          rintro (⟨modified, possible⟩ | purged)
          · simp [sound.tombstone modified possible] at fresh
          · simp [sound.purged purged] at fresh
        stored := fun result member => by
          refine (durable.stored result member).imp_right ?_
          rintro ⟨_, other, possible, _⟩
          simp [sound.result other possible] at fresh
        agree := fun left right first second => (only left first).trans (only right second).symm
        admitted := durable.admitted
        finished := fun _ => rfl
        done := durable.done
        firm := fun firm => absurd (durable.firm (Entry.firm_change.mp firm)).1 unkept
        gone := durable.gone }

theorem Sound.linkTombstone (sound : Sound crashes sidecar delivery) {modified : Timestamp}
    (absent : delivery.completed.present = false) (told : Told crashes delivery) :
    Sound crashes sidecar (delivery.linkTombstone modified) where
  tombstone _ _ := rfl
  result _ _ := rfl
  purged _ := rfl
  finished _ := .inl (.inl rfl)
  gone := sound.gone
  durable counts :=
    let durable := sound.durable counts
    { durable with
      kept := fun kept => (durable.kept kept).imp_left Entry.firm_change.mpr
      told := fun _ _ => told counts
      finished := fun _ => rfl
      done := by
        rintro (⟨_, firm⟩ | purged)
        · obtain ⟨shown, same⟩ := (Entry.firm_change.mp (firm rfl)).shows
          simp [Entry.present, same] at absent
        · exact durable.done (.inr purged) }

theorem Sound.unlinkPending (sound : Sound crashes sidecar delivery)
    (done : Done crashes delivery) : Sound crashes sidecar (delivery.unlink .pending) where
  tombstone := sound.tombstone
  result := sound.result
  purged := sound.purged
  finished := sound.finished
  gone _ := rfl
  durable counts := by
    subst counts
    have durable := sound.durable rfl
    exact
      { durable with
        admitted := fun file possible => by
          rcases Entry.possible_change.mp possible with same | earlier
          · cases same
          · exact durable.admitted file earlier
        gone := fun purged file possible => by
          rcases Entry.possible_change.mp possible with same | earlier
          · cases same
          · exact durable.gone purged file earlier }

theorem Sound.unlinkResult (sound : Sound crashes sidecar delivery)
    (done : Done crashes delivery) : Sound crashes sidecar (delivery.unlink .results) where
  tombstone := sound.tombstone
  result file possible := by
    rcases Entry.possible_change.mp possible with same | earlier
    · cases same
    · exact sound.result file earlier
  purged := sound.purged
  finished _ := .inl done.seen
  gone := sound.gone
  durable counts := by
    subst counts
    have durable := sound.durable rfl
    have told := durable.told_of_done done
    have fewer : ∀ result, HasResult (delivery.unlink .results) result →
        HasResult delivery result := by
      rintro result ⟨file, possible, same⟩
      rcases Entry.possible_change.mp possible with none | earlier
      · cases none
      · exact ⟨file, earlier, same⟩
    exact
      { durable with
        kept := fun _ => by
          rcases done with ⟨_, firm⟩ | purged
          · exact .inl (firm rfl)
          · exact .inr (.inr purged)
        told := fun _ _ result has => told rfl result (has.imp_left (fewer result))
        stored := fun result member => .inl (told rfl result (.inr member))
        agree := fun file other first second => by
          rcases Entry.possible_change.mp first with none | first
          · cases none
          · rcases Entry.possible_change.mp second with none | second
            · cases none
            · exact durable.agree file other first second
        firm := fun firm => absurd List.mem_cons_self firm }

theorem Sound.unlinkCompleted (sound : Sound crashes sidecar delivery)
    (done : Done crashes delivery) (gone : delivery.pending.current = none)
    (firm : crashes = true → ∀ file, ¬delivery.pending.Possible file) :
    Sound crashes sidecar (delivery.unlink .completed) where
  tombstone _ _ := sound.of_seen done.seen
  result := sound.result
  purged _ := sound.of_seen done.seen
  finished _ := .inl (.inr rfl)
  gone _ := gone
  durable counts := by
    subst counts
    have durable := sound.durable rfl
    exact
      { durable with
        kept := fun _ => .inr (.inr rfl)
        told := fun _ => durable.told_of_done done
        done := fun _ => durable.done done
        gone := fun _ => firm rfl }

theorem Durable.syncPending (durable : Durable sidecar delivery) :
    Durable sidecar (delivery.sync .pending) :=
  { durable with
    admitted := fun file possible => durable.admitted file possible.of_sync
    gone := fun purged file possible => durable.gone purged file possible.of_sync }

theorem HasResult.of_sync {result : TaskResult} (has : HasResult (delivery.sync .results) result) :
    HasResult delivery result := by
  obtain ⟨file, possible, same⟩ := has
  exact ⟨file, possible.of_sync, same⟩

theorem mem_stored_sync {result : TaskResult} :
    result ∈ (delivery.sync .results).stored ↔
      (∃ file, delivery.result.current = some file ∧ file.result = result) ∨
        result ∈ delivery.stored := by
  simp [Delivery.sync]

theorem Durable.syncResults (durable : Durable sidecar delivery)
    (finished : delivery.result.present = true → delivery.finished = true) :
    Durable sidecar (delivery.sync .results) where
  kept kept := by
    rcases Bool.or_eq_true_iff.mp kept with earlier | present
    · exact (durable.kept earlier).imp_right (Or.imp_left Entry.Firm.sync)
    · exact .inr (.inl (Entry.firm_settled.mpr present))
  told settled _ result has := by
    refine durable.told settled rfl result ?_
    rcases has with has | member
    · exact .inl has.of_sync
    · rcases mem_stored_sync.mp member with ⟨file, shown, same⟩ | earlier
      · exact .inl ⟨file, .of_current shown, same⟩
      · exact .inr earlier
  stored result member := by
    rcases mem_stored_sync.mp member with ⟨file, shown, same⟩ | earlier
    · refine .inr ⟨?_, file, Entry.possible_settled.mpr shown, same⟩
      exact Entry.firm_settled.mpr (Option.isSome_iff_exists.mpr ⟨file, shown⟩)
    · refine (durable.stored result earlier).imp_right ?_
      rintro ⟨firm, file, possible, same⟩
      obtain ⟨other, shown⟩ := firm.shows
      cases durable.agree file other possible (.of_current shown)
      exact ⟨firm.sync, file, Entry.possible_settled.mpr shown, same⟩
  agree file other first second := durable.agree file other first.of_sync second.of_sync
  admitted := durable.admitted
  finished kept := (Bool.or_eq_true_iff.mp kept).elim durable.finished finished
  done done := Bool.or_eq_true_iff.mpr (.inl (durable.done done))
  firm firm := by
    refine ⟨Bool.or_eq_true_iff.mpr (.inr (Entry.firm_settled.mp firm)), fun file shown => ?_⟩
    exact mem_stored_sync.mpr (.inl ⟨file, shown, rfl⟩)
  gone := durable.gone

theorem Durable.syncCompleted (durable : Durable sidecar delivery)
    (finished : delivery.completed.present = true → delivery.finished = true) :
    Durable sidecar (delivery.sync .completed) where
  kept kept := by
    rcases Bool.or_eq_true_iff.mp kept with earlier | present
    · exact (durable.kept earlier).imp_left Entry.Firm.sync
    · exact .inl (Entry.firm_settled.mpr present)
  told settled := durable.told (settled.imp_left fun ⟨modified, possible⟩ =>
    ⟨modified, possible.of_sync⟩)
  stored := durable.stored
  agree := durable.agree
  admitted := durable.admitted
  finished kept := (Bool.or_eq_true_iff.mp kept).elim durable.finished finished
  done done := by
    rcases done with ⟨present, _⟩ | purged
    · exact Bool.or_eq_true_iff.mpr (.inr present)
    · exact Bool.or_eq_true_iff.mpr (.inl (durable.done (.inr purged)))
  firm firm := (durable.firm firm).imp_left fun kept => Bool.or_eq_true_iff.mpr (.inl kept)
  gone := durable.gone

theorem Sound.sync (sound : Sound crashes sidecar delivery) (dir : Dir) :
    Sound crashes sidecar (delivery.sync dir) := by
  cases dir with
  | pending => exact { sound with durable := fun counts => (sound.durable counts).syncPending }
  | results =>
      exact
        { sound with
          result := fun file possible => sound.result file possible.of_sync
          durable := fun counts => (sound.durable counts).syncResults sound.of_present }
  | completed =>
      exact
        { sound with
          tombstone := fun modified possible => sound.tombstone modified possible.of_sync
          durable := fun counts =>
            (sound.durable counts).syncCompleted fun present => sound.of_seen (.inl present) }

theorem Sound.publish (sound : Sound crashes sidecar delivery) (result : TaskResult) :
    Sound crashes sidecar (delivery.publish result) :=
  { sound with
    durable := fun counts =>
      let durable := sound.durable counts
      { durable with
        told := fun settled _ other has =>
          List.mem_cons_of_mem result (durable.told settled rfl other has)
        stored := fun other member =>
          (durable.stored other member).imp_left (List.mem_cons_of_mem result) } }

theorem Sound.change {actor : Actor} {operation : Op} (sound : Sound crashes sidecar delivery)
    (change : Change crashes sidecar actor operation delivery after) : Sound crashes sidecar after := by
  cases change with
  | same => exact sound
  | linkPending file _ _ lives admits => exact sound.linkPending lives admits
  | linkResult file _ fresh => exact sound.linkResult fresh
  | linkTombstone modified absent marks =>
      refine sound.linkTombstone absent ?_
      cases actor with
      | task other => exact marks.2
      | main =>
          rintro counts
          have durable := sound.durable counts
          rcases marks with (present | purged) | ⟨file, shown, refused⟩
          · simp [present] at absent
          · exact durable.told (.inr purged) rfl
          · exact absurd (durable.admitted file (.of_current shown)) refused
  | unlinkPending done => exact sound.unlinkPending done
  | unlinkResult done => exact sound.unlinkResult done
  | unlinkCompleted _ _ done gone firm => exact sound.unlinkCompleted done gone firm
  | sync dir => exact sound.sync dir
  | publish result => exact sound.publish result

/-! ## Restarts -/

theorem Sound.opened (pending : Option (PendingFile id)) (result : Option (ResultFile id))
    (completed : Option Timestamp) :
    Sound false sidecar (Delivery.opened pending result completed) where
  tombstone modified possible := by
    cases Entry.possible_settled.mp possible
    exact Bool.or_true _
  result file possible := by
    cases Entry.possible_settled.mp possible
    rfl
  purged := nofun
  finished finished := by
    rcases Bool.or_eq_true_iff.mp finished with present | present
    · exact .inr present
    · exact .inl (.inl present)
  gone := nofun
  durable := nofun

theorem Sound.empty : Sound true sidecar (Delivery.opened none none none : Delivery id) where
  tombstone modified possible := by cases Entry.possible_settled.mp possible
  result file possible := by cases Entry.possible_settled.mp possible
  purged := nofun
  finished := nofun
  gone := nofun
  durable _ :=
    { kept := nofun
      told := by
        rintro (⟨modified, possible⟩ | purged)
        · cases Entry.possible_settled.mp possible
        · cases purged
      stored := nofun
      agree := fun file _ possible => by cases Entry.possible_settled.mp possible
      admitted := fun file possible => by cases Entry.possible_settled.mp possible
      finished := nofun
      done := by
        rintro (⟨present, _⟩ | purged)
        · cases present
        · cases purged
      firm := fun firm => absurd List.mem_cons_self firm
      gone := nofun }

theorem HasResult.of_restore {pick : Dir → Nat} {result : TaskResult}
    (has : HasResult (delivery.restore pick) result) : HasResult delivery result := by
  obtain ⟨file, possible, same⟩ := has
  exact ⟨file, possible.of_restore, same⟩

theorem mem_stored_restore {pick : Dir → Nat} {result : TaskResult} :
    result ∈ (delivery.restore pick).stored ↔
      HasResult (delivery.restore pick) result ∨ result ∈ delivery.stored := by
  have shown : HasResult (delivery.restore pick) result ↔
      ∃ file, (delivery.restore pick).result.current = some file ∧ file.result = result :=
    exists_congr fun _ => and_congr_left fun _ => Entry.possible_settled
  rw [shown]
  simp [Delivery.restore]

theorem kept_restore {pick : Dir → Nat} :
    (delivery.restore pick).kept = true ↔ delivery.kept = true ∨
      (delivery.restore pick).result.present = true ∨
        (delivery.restore pick).completed.present = true := by
  simp only [Delivery.restore, Bool.or_eq_true, or_assoc]

theorem Durable.kept_restore_firm (durable : Durable sidecar delivery) {pick : Dir → Nat}
    (kept : (delivery.restore pick).kept = true) :
    (delivery.restore pick).completed.Firm ∨ (delivery.restore pick).result.Firm ∨
      (delivery.restore pick).purged = true := by
  rcases kept_restore.mp kept with kept | present | present
  · exact (durable.kept kept).imp (fun firm => firm.restore (pick .completed))
      (Or.imp_left fun firm => firm.restore (pick .results))
  · exact .inr (.inl (Entry.firm_settled.mpr present))
  · exact .inl (Entry.firm_settled.mpr present)

theorem Durable.restore (durable : Durable sidecar delivery) (pick : Dir → Nat) :
    Durable sidecar (delivery.restore pick) where
  kept := durable.kept_restore_firm
  told settled _ result has := by
    refine durable.told (settled.imp_left fun ⟨modified, possible⟩ =>
      ⟨modified, possible.of_restore⟩) rfl result ?_
    rcases has with has | member
    · exact .inl has.of_restore
    · exact (mem_stored_restore.mp member).imp_left HasResult.of_restore
  stored result member := by
    rcases mem_stored_restore.mp member with ⟨file, possible, same⟩ | earlier
    · refine .inr ⟨Entry.firm_settled.mpr ?_, file, possible, same⟩
      exact Option.isSome_iff_exists.mpr ⟨file, Entry.possible_settled.mp possible⟩
    · refine (durable.stored result earlier).imp_right ?_
      rintro ⟨firm, file, possible, same⟩
      have firm := firm.restore (pick .results)
      obtain ⟨other, shown⟩ := firm.shows
      have shown : (delivery.restore pick).result.current = some other := shown
      cases durable.agree file other possible (Entry.Possible.of_current shown).of_restore
      exact ⟨firm, file, .of_current shown, same⟩
  agree file other first second := durable.agree file other first.of_restore second.of_restore
  admitted file possible := durable.admitted file possible.of_restore
  finished kept := kept
  done := by
    rintro (⟨present, _⟩ | purged)
    · exact kept_restore.mpr (.inr (.inr present))
    · exact kept_restore.mpr (.inl (durable.done (.inr purged)))
  firm firm := by
    refine ⟨kept_restore.mpr (.inr (.inl (Entry.firm_settled.mp firm))), fun file shown => ?_⟩
    exact mem_stored_restore.mpr (.inl ⟨file, .of_current shown, rfl⟩)
  gone purged file possible := durable.gone purged file possible.of_restore

theorem Sound.restore (sound : Sound true sidecar delivery) (pick : Dir → Nat) :
    Sound true sidecar (delivery.restore pick) where
  tombstone modified possible :=
    kept_restore.mpr (.inr (.inr (Entry.present_iff.mpr
      ⟨modified, Entry.possible_settled.mp possible⟩)))
  result file possible :=
    kept_restore.mpr (.inr (.inl (Entry.present_iff.mpr
      ⟨file, Entry.possible_settled.mp possible⟩)))
  purged purged := kept_restore.mpr (.inl ((sound.durable rfl).done (.inr purged)))
  finished finished := by
    rcases (sound.durable rfl).kept_restore_firm finished with firm | firm | purged
    · exact .inl (.inl (Entry.present_iff.mpr firm.shows))
    · exact .inr (Entry.present_iff.mpr firm.shows)
    · exact .inl (.inr purged)
  gone purged := by
    cases shown : (delivery.restore pick).pending.current with
    | none => rfl
    | some file =>
        have possible := Entry.Possible.of_current shown
        exact absurd possible.of_restore ((sound.durable rfl).gone purged file)
  durable _ := (sound.durable rfl).restore pick

/-! ## What lasts -/

def Lasts (crashes : Bool) (delivery : Delivery id) : Prop :=
  crashes = true → delivery.pending.present = true ∨ delivery.kept = true

/-- What every change of a delivery leaves true. -/
structure Later (crashes : Bool) (sidecar : Sidecar) (delivery after : Delivery id) : Prop where
  seen : Seen delivery → Seen after
  done : Done crashes delivery → Done crashes after
  holds : ∀ result, Holds crashes delivery result → Holds crashes after result
  secured : Secured crashes delivery → Secured crashes after
  lasts : Lasts crashes delivery → Lasts crashes after
  condemned : Seen delivery ∨ Stale sidecar delivery → Seen after ∨ Stale sidecar after
  admits : ¬Stale sidecar delivery → ¬Stale sidecar after

theorem Later.refl (delivery : Delivery id) : Later crashes sidecar delivery delivery where
  seen holds := holds
  done holds := holds
  holds _ holds := holds
  secured holds := holds
  lasts holds := holds
  condemned holds := holds
  admits holds := holds

theorem Later.trans {first second third : Delivery id} (left : Later crashes sidecar first second)
    (right : Later crashes sidecar second third) : Later crashes sidecar first third where
  seen holds := right.seen (left.seen holds)
  done holds := right.done (left.done holds)
  holds result holds := right.holds result (left.holds result holds)
  secured holds := right.secured (left.secured holds)
  lasts holds := right.lasts (left.lasts holds)
  condemned holds := right.condemned (left.condemned holds)
  admits holds := right.admits (left.admits holds)

section Changes

variable {actor : Actor} {operation : Op}
  (change : Change crashes sidecar actor operation delivery after)
include change

theorem Change.seen (seen : Seen delivery) : Seen after := by
  cases change with
  | linkTombstone => exact .inl rfl
  | unlinkCompleted => exact .inr rfl
  | sync dir => cases dir <;> exact seen
  | _ => exact seen

theorem Change.done (done : Done crashes delivery) : Done crashes after := by
  cases change with
  | linkTombstone modified absent =>
      rcases done with ⟨present, _⟩ | purged
      · simp [present] at absent
      · exact .inr purged
  | unlinkCompleted => exact .inr rfl
  | sync dir =>
      cases dir with
      | completed => exact done.imp_left (And.imp_right fun firm counts => (firm counts).sync)
      | _ => exact done
  | _ => exact done

theorem Change.holds (sound : Sound crashes sidecar delivery) {result : TaskResult}
    (holds : Holds crashes delivery result) : Holds crashes after result := by
  rcases holds with ⟨file, shown, same⟩ | done
  · cases change with
    | linkResult other _ fresh =>
        simp [sound.of_present (Entry.present_iff.mpr ⟨file, shown⟩)] at fresh
    | unlinkResult done => exact .inr done
    | sync dir => cases dir <;> exact .inl ⟨file, shown, same⟩
    | _ => exact .inl ⟨file, shown, same⟩
  · exact .inr (change.done done)

theorem Change.kept (kept : delivery.kept = true) : after.kept = true := by
  cases change with
  | sync dir =>
      cases dir with
      | pending => exact kept
      | _ => exact Bool.or_eq_true_iff.mpr (.inl kept)
  | _ => exact kept

theorem Change.secured (sound : Sound crashes sidecar delivery)
    (secured : Secured crashes delivery) : Secured crashes after := by
  intro counts
  rcases secured counts with kept | firm
  · exact .inl (change.kept kept)
  · cases change with
    | linkPending file => exact .inr (Entry.firm_change.mpr firm)
    | unlinkPending done => exact .inl ((sound.durable counts).done (counts ▸ done))
    | sync dir =>
        cases dir with
        | pending => exact .inr firm.sync
        | _ => exact .inr firm
    | _ => exact .inr firm

theorem Change.lasts (sound : Sound crashes sidecar delivery)
    (lasts : Lasts crashes delivery) : Lasts crashes after := by
  intro counts
  rcases lasts counts with present | kept
  · cases change with
    | linkPending file => exact .inl rfl
    | unlinkPending done => exact .inr ((sound.durable counts).done (counts ▸ done))
    | sync dir => cases dir <;> exact .inl present
    | _ => exact .inl present
  · exact .inr (change.kept kept)

theorem Change.condemned (condemned : Seen delivery ∨ Stale sidecar delivery) :
    Seen after ∨ Stale sidecar after := by
  rcases condemned with seen | ⟨file, shown, refused⟩
  · exact .inl (change.seen seen)
  · cases change with
    | linkPending other _ absent => simp [Entry.present, shown] at absent
    | unlinkPending done => exact .inl done.seen
    | sync dir => cases dir <;> exact .inr ⟨file, shown, refused⟩
    | _ => exact .inr ⟨file, shown, refused⟩

theorem Change.admits (admits : ¬Stale sidecar delivery) : ¬Stale sidecar after := by
  rintro ⟨file, shown, refused⟩
  cases change with
  | linkPending other _ _ _ fits =>
      cases Option.some.inj shown
      exact refused fits
  | unlinkPending => cases shown
  | sync dir => cases dir <;> exact admits ⟨file, shown, refused⟩
  | _ => exact admits ⟨file, shown, refused⟩

theorem Change.purged (kind : operation ≠ .removeFile .completed id) :
    after.purged = delivery.purged := by
  cases change with
  | unlinkCompleted _ purges => exact absurd purges kind
  | sync dir => cases dir <;> rfl
  | _ => rfl

theorem Change.later (sound : Sound crashes sidecar delivery) :
    Later crashes sidecar delivery after where
  seen := change.seen
  done := change.done
  holds _ := change.holds sound
  secured := change.secured sound
  lasts := change.lasts sound
  condemned := change.condemned
  admits := change.admits

end Changes

structure ForMain (crashes : Bool) (sidecar : Sidecar) (delivery after : Delivery id) : Prop
    extends Later crashes sidecar delivery after where
  purged : after.purged = delivery.purged
  absent : delivery.pending.current = none → after.pending.current = none

structure ForTask (crashes : Bool) (sidecar : Sidecar) (delivery after : Delivery id) : Prop
    extends Later crashes sidecar delivery after where
  told : Told crashes delivery → Told crashes after
  fresh : ¬Stale sidecar delivery → delivery.finished = false → after.finished = false
  unseen : ¬Stale sidecar delivery → ¬Seen delivery → ¬Seen after

theorem Change.forMain {actor : Actor} {operation : Op}
    (change : Change crashes sidecar actor operation delivery after)
    (sound : Sound crashes sidecar delivery) (other : actor ≠ .main) :
    ForMain crashes sidecar delivery after where
  toLater := change.later sound
  purged := by
    cases change with
    | unlinkCompleted main => exact absurd main other
    | sync dir => cases dir <;> rfl
    | _ => rfl
  absent none := by
    cases change with
    | linkPending file main => exact absurd main other
    | unlinkPending => rfl
    | sync dir => cases dir <;> exact none
    | _ => exact none

theorem Change.told {actor : Actor} {operation : Op}
    (change : Change crashes sidecar actor operation delivery after)
    (other : actor ≠ .task id) (told : Told crashes delivery) : Told crashes after := by
  intro counts result has
  have told := told counts result
  cases change with
  | linkResult file own => exact absurd own other
  | unlinkResult =>
      refine told (has.imp_left ?_)
      rintro ⟨file, possible, same⟩
      rcases Entry.possible_change.mp possible with none | earlier
      · cases none
      · exact ⟨file, earlier, same⟩
  | sync dir =>
      cases dir with
      | results =>
          refine told ?_
          rcases has with has | member
          · exact .inl has.of_sync
          · rcases mem_stored_sync.mp member with ⟨file, shown, same⟩ | earlier
            · exact .inl ⟨file, .of_current shown, same⟩
            · exact .inr earlier
      | _ => exact told has
  | publish published => exact List.mem_cons_of_mem published (told has)
  | _ => exact told has

theorem Change.forTask {actor : Actor} {operation : Op}
    (change : Change crashes sidecar actor operation delivery after)
    (sound : Sound crashes sidecar delivery) (other : actor ≠ .task id) :
    ForTask crashes sidecar delivery after where
  toLater := change.later sound
  told := change.told other
  fresh admits fresh := by
    cases change with
    | linkResult file own => exact absurd own other
    | linkTombstone modified absent marks =>
        cases actor with
        | task same => exact absurd (congrArg Actor.task marks.1) other
        | main =>
            rcases marks with seen | stale
            · simp [sound.of_seen seen] at fresh
            · exact absurd stale admits
    | sync dir => cases dir <;> exact fresh
    | _ => exact fresh
  unseen admits unseen := by
    cases change with
    | linkTombstone modified absent marks =>
        cases actor with
        | task same => exact absurd (congrArg Actor.task marks.1) other
        | main => exact absurd (marks.resolve_right admits) unseen
    | unlinkCompleted _ _ done => exact absurd done.seen unseen
    | sync dir => cases dir <;> exact unseen
    | _ => exact unseen

theorem ForMain.refl (delivery : Delivery id) : ForMain crashes sidecar delivery delivery where
  toLater := .refl delivery
  purged := rfl
  absent none := none

theorem ForMain.trans {first second third : Delivery id}
    (left : ForMain crashes sidecar first second) (right : ForMain crashes sidecar second third) :
    ForMain crashes sidecar first third where
  toLater := left.toLater.trans right.toLater
  purged := right.purged.trans left.purged
  absent none := right.absent (left.absent none)

theorem ForTask.refl (delivery : Delivery id) : ForTask crashes sidecar delivery delivery where
  toLater := .refl delivery
  told holds := holds
  fresh _ holds := holds
  unseen _ holds := holds

theorem ForTask.trans {first second third : Delivery id}
    (left : ForTask crashes sidecar first second) (right : ForTask crashes sidecar second third) :
    ForTask crashes sidecar first third where
  toLater := left.toLater.trans right.toLater
  told holds := right.told (left.told holds)
  fresh admits holds := right.fresh (left.admits admits) (left.fresh admits holds)
  unseen admits holds := right.unseen (left.admits admits) (left.unseen admits holds)

end Forge.DeliveryChanges
