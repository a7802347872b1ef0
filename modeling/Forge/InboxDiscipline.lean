import Forge.DeliveryChanges

/-! When the actors of the sidecar perform their operations, what each may rely upon then, and
that the programs keep to it. -/

namespace Forge.InboxDiscipline

open Forge.AssignmentInbox
open Forge.DeliveryChanges
open Forge.Library.Identifier
open Forge.Library.Interleaving
open Forge.Schema

/-! ## The steps considered -/

def SchedulesUnfinished (inbox : Inbox) : Op → Bool → Prop
  | .tryStart (.assigned assignment), free =>
      free = true → ∀ id, assignment.deliveryId = some id → (inbox id).completed.present = false
  | _, _ => True

/-- What `accept` and `mark_completed` find is on disk, and when a tombstone is purged so is the
removal of the pending file. -/
def FindsDurable (inbox : Inbox) : Op → Prop
  | .pathExists .accept .pending id => (inbox id).pending.present = true → (inbox id).pending.Firm
  | .pathExists .accept .completed id =>
      (inbox id).completed.present = true → (inbox id).completed.Firm
  | .pathExists .markCompleted .completed id =>
      (inbox id).completed.present = true → (inbox id).completed.Firm
  | .linkTombstone id _ => (inbox id).completed.present = true → (inbox id).completed.Firm
  | .linkCompleted id => (inbox id).completed.present = true → (inbox id).completed.Firm
  | .removeFile .completed id => ∀ file, ¬(inbox id).pending.Possible file
  | _ => True

def Considered (crashes : Bool) (inbox : Inbox) (operation : Op) (free : Bool) : Prop :=
  SchedulesUnfinished inbox operation free ∧ (crashes = true → FindsDurable inbox operation)

instance {inbox : Inbox} {operation : Op} {free : Bool} :
    Decidable (SchedulesUnfinished inbox operation free) := by
  cases operation with
  | tryStart work =>
      cases work with
      | assigned assignment =>
          exact inferInstanceAs (Decidable (free = true → ∀ id ∈ assignment.deliveryId,
            (inbox id).completed.present = false))
      | stored result => exact isTrue trivial
  | _ => exact isTrue trivial

instance {inbox : Inbox} {operation : Op} : Decidable (FindsDurable inbox operation) := by
  cases operation with
  | pathExists asker dir id =>
      cases asker with
      | accept =>
          cases dir with
          | results => exact isTrue trivial
          | pending =>
              exact inferInstanceAs (Decidable ((inbox id).pending.present = true → _))
          | completed =>
              exact inferInstanceAs (Decidable ((inbox id).completed.present = true → _))
      | markCompleted =>
          cases dir with
          | completed =>
              exact inferInstanceAs (Decidable ((inbox id).completed.present = true → _))
          | _ => exact isTrue trivial
      | _ => exact isTrue trivial
  | linkTombstone id =>
      exact inferInstanceAs (Decidable ((inbox id).completed.present = true → _))
  | linkCompleted id =>
      exact inferInstanceAs (Decidable ((inbox id).completed.present = true → _))
  | removeFile dir id =>
      cases dir with
      | completed => exact inferInstanceAs (Decidable (∀ file, ¬(inbox id).pending.Possible file))
      | _ => exact isTrue trivial
  | _ => exact isTrue trivial

instance {crashes : Bool} {inbox : Inbox} {operation : Op} {free : Bool} :
    Decidable (Considered crashes inbox operation free) :=
  inferInstanceAs (Decidable (_ ∧ _))

/-! ## The rules -/

variable {crashes : Bool} {sidecar : Sidecar} {actor : Actor} {operation : Op} {inbox : Inbox}
  {id : Uuid}

/-- What has to hold when an actor performs an operation. -/
def May (crashes : Bool) (sidecar : Sidecar) (actor : Actor) (inbox : Inbox) : Op → Prop
  | .linkPending id file =>
      actor = .main ∧ (inbox id).purged = false ∧ sidecar.Admits file.assignment
  | .linkResult id _ => actor = .task id ∧ (inbox id).finished = false
  | .linkTombstone id _ => Marks crashes sidecar actor (inbox id)
  | .linkCompleted id => Marks crashes sidecar actor (inbox id)
  | .removeFile .pending id => Done crashes (inbox id)
  | .removeFile .results id => Done crashes (inbox id)
  | .removeFile .completed id =>
      actor = .main ∧ Done crashes (inbox id) ∧ (inbox id).pending.current = none
  | .runCli assignment => ∃ id, assignment.deliveryId = some id ∧ (inbox id).finished = false
  | .tryStart (.assigned assignment) => ∀ id, assignment.deliveryId = some id →
      (inbox id).purged = false ∧ ¬Stale sidecar (inbox id)
  | .tryStart (.stored result) => ∀ id, result.deliveryId = some id →
      Holds crashes (inbox id) result
  | .answer (some id) .ack => actor = .main ∧ Secured crashes (inbox id)
  | _ => True

theorem edit_change (f : Delivery id → Delivery id)
    (change : Change crashes sidecar actor operation (inbox id) (f (inbox id))) (other : Uuid) :
    Change crashes sidecar actor operation (inbox other) (inbox.edit id f other) := by
  rw [Inbox.edit]
  by_cases same : other = id
  · subst same
    rwa [Function.update_self]
  · rw [Function.update_of_ne same]
    exact .same

theorem access_change {α : Type} {choice : Choice} {result : Inbox × Except IoError α}
    (change : Change crashes sidecar actor operation (inbox id) (result.1 id)) :
    Change crashes sidecar actor operation (inbox id) ((access inbox choice result).1 id) := by
  rw [access]
  split
  · exact .same
  · exact change

theorem link_change {taken : Bool} (f : Delivery id → Delivery id)
    (change : taken = false → Change crashes sidecar actor operation (inbox id) (f (inbox id)))
    (other : Uuid) :
    Change crashes sidecar actor operation (inbox other) ((inbox.link id taken f).1 other) := by
  cases taken with
  | true => exact .same
  | false => exact edit_change f (change rfl) other

theorem perform_change (choice : Choice) {free : Bool}
    (may : May crashes sidecar actor inbox operation)
    (considered : Considered crashes inbox operation free) (id : Uuid) :
    Change crashes sidecar actor operation (inbox id) ((perform inbox operation choice free).1 id) := by
  cases operation with
  | linkPending other file =>
      refine access_change (link_change (·.linkPending file) (fun absent => ?_) id)
      exact .linkPending file may.1 absent may.2.1 may.2.2
  | linkResult other file =>
      refine access_change (link_change (·.linkResult file) (fun _ => ?_) id)
      exact .linkResult file may.1 may.2
  | linkTombstone other modified =>
      refine access_change (link_change (·.linkTombstone modified) (fun absent => ?_) id)
      exact .linkTombstone modified absent may
  | linkCompleted other =>
      refine access_change ?_
      split
      · exact .same
      · rename_i file _
        refine link_change (·.linkTombstone file.modified) (fun absent => ?_) id
        exact .linkTombstone file.modified absent may
  | syncDir dir => exact access_change (.sync dir)
  | removeFile dir other =>
      refine access_change ?_
      split
      · refine edit_change (·.unlink dir) ?_ id
        cases dir with
        | pending => exact .unlinkPending may
        | results => exact .unlinkResult may
        | completed => exact .unlinkCompleted may.1 rfl may.2.1 may.2.2 considered.2
      · exact .same
  | publish result =>
      have sent : Change crashes sidecar actor (.publish result) (inbox id) (inbox.publish result id) := by
        rw [Inbox.publish]
        generalize result.deliveryId = known
        cases known with
        | some other => exact edit_change (·.publish result) (.publish result) id
        | none => exact .same
      rw [perform]
      split
      · dsimp only
        split
        · exact sent
        · exact .same
      · exact sent
  | answer => exact .same
  | now => exact .same
  | runCli => exact .same
  | tryStart => exact .same
  | finish => exact .same
  | _ => exact access_change .same

def Relies (crashes : Bool) (sidecar : Sidecar) (actor : Actor) (inbox later : Inbox) : Prop :=
  match actor with
  | .main => ∀ id, ForMain crashes sidecar (inbox id) (later id)
  | .task id => ForTask crashes sidecar (inbox id) (later id)

def rules (crashes : Bool) (sidecar : Sidecar) : Discipline machine where
  Inv inbox := ∀ id, Sound crashes sidecar (inbox id)
  allowed _ inbox operation _ free := Considered crashes inbox operation free
  may := May crashes sidecar
  rely := Relies crashes sidecar
  refl actor inbox := by
    cases actor with
    | main => exact fun id => .refl (inbox id)
    | task id => exact .refl (inbox id)
  trans := by
    rintro actor first second third left right
    cases actor with
    | main => exact fun id => (left id).trans (right id)
    | task id => exact left.trans right
  keeps inv may considered id := (inv id).change (perform_change _ may considered id)
  spares := by
    rintro actor other inbox operation choice free apart inv may considered
    have change := fun id => perform_change choice may considered id
    cases other with
    | main => exact fun id => (change id).forMain (inv id) apart
    | task id => exact (change id).forTask (inv id) apart

end Forge.InboxDiscipline
