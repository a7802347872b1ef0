import Forge.InboxSafety

/-! The spawned tasks keep to the rules: the CLI runs only for a fresh delivery, and a tombstone
follows a publication. -/

namespace Forge.TaskSafety

open Forge.AssignmentInbox
open Forge.DeliveryChanges
open Forge.InboxDiscipline
open Forge.InboxSafety
open Forge.Library.Identifier
open Forge.Library.Interleaving
open Forge.Library.Interleaving.Attempt hiding call
open Forge.ResultConsumer
open Forge.Schema

variable {crashes : Bool} {sidecar : Sidecar} {state later : Inbox} {id : Uuid}

def Fresh (sidecar : Sidecar) (delivery : Delivery id) : Prop :=
  ¬Stale sidecar delivery ∧ delivery.finished = false

theorem fresh_of_relies (fresh : Fresh sidecar (state id))
    (relies : Relies crashes sidecar (.task id) state later) : Fresh sidecar (later id) :=
  ⟨relies.admits fresh.1, relies.fresh fresh.1 fresh.2⟩

theorem holds_lasting {result : TaskResult} :
    Lasting crashes sidecar (fun delivery : Delivery id => Holds crashes delivery result) :=
  fun _ _ later => later.holds result

theorem Holds.sync {delivery : Delivery id} {result : TaskResult}
    (holds : Holds crashes delivery result) : Holds crashes (delivery.sync .results) result :=
  holds

theorem owns_task : Owns (.task id) id := .inr rfl

theorem safe_linkResult {file : ResultFile id} (fresh : Fresh sidecar (state id)) :
    Safe (rules crashes sidecar) (.task id) (call (.linkResult id file)) (fun outcome later =>
      (∀ value, outcome = .ok value → Holds crashes (later id) file.result) ∧
        (outcome = .error .alreadyExists → Holds crashes (later id) file.result)) state := by
  refine Safe.mono (safe_call fun _ relies _ => ⟨rfl, (fresh_of_relies fresh relies).2⟩) ?_
  rintro outcome later _ performed
  obtain ⟨before, choice, free, rely, inv, may, _, same, after⟩ := turn_of_performed performed
  refine ⟨fun value found => ?_, fun found => ?_⟩
  · refine (later_of_relies owns_task after).holds file.result ?_
    obtain ⟨fine, linked⟩ := access_ok (same.trans found)
    rw [perform, fine, link_ok linked, edit_self]
    exact .inl ⟨file, rfl, rfl⟩
  · have present := link_error (access_error (same.trans found) (by decide)).2
    have finished := (inv id).of_present present
    rw [may.2] at finished
    cases finished

theorem ensures_writeResult {file : ResultFile id} (fresh : Fresh sidecar (state id)) :
    Ensures (rules crashes sidecar) (.task id) (writeResult id file)
      (fun _ later => Holds crashes (later id) file.result) state := by
  have lasting : Lasting crashes sidecar
      (fun delivery : Delivery id => Holds crashes delivery file.result) := holds_lasting
  refine Ensures.bind (ensures_quiet (fun _ _ _ => access_quiet) fun _ => trivial)
    fun _ second _ relies => ?_
  have moved := safe_moveFile .results .results owns_task lasting lasting (fun _ => Holds.sync)
    (safe_linkResult (fresh_of_relies fresh relies))
    (fun _ => safe_call_lasting (.removeTemp .results id) owns_task lasting
      (fun _ _ => trivial) fun _ _ _ => removeTemp_never)
  refine Ensures.bind (ensures_settled owns_task lasting moved) fun outcome later _ settled => ?_
  match outcome with
  | .ok () => exact ensures_pure owns_task lasting (settled (.inl rfl))
  | .error .alreadyExists =>
      refine Ensures.bind (Ensures.observe (safe_call_lasting (.removeTemp .results id) owns_task
        lasting (fun _ _ => trivial) (fun _ _ _ => removeTemp_never) (settled (.inr rfl)))
          fun _ _ _ relies _ holds =>
            ⟨lasting _ _ (later_of_relies owns_task relies) holds.1, holds.2⟩)
        fun _ _ _ holds => ?_
      exact ensures_pure owns_task lasting holds.1
  | .error .notFound => exact Ensures.fail _
  | .error .other => exact Ensures.fail _

theorem not_present_of_fresh {dir : Dir} (other : dir ≠ .pending)
    (sound : Sound crashes sidecar (state id)) (fresh : Fresh sidecar (state id)) :
    (state id).present dir ≠ true := by
  intro present
  have finished : (state id).finished = true := by
    cases dir with
    | pending => exact absurd rfl other
    | results => exact sound.of_present present
    | completed => exact sound.of_seen (.inl present)
  rw [fresh.2] at finished
  cases finished

theorem ensures_storeResult {result : TaskResult} (named : result.deliveryId = some id)
    (fresh : Fresh sidecar (state id)) :
    Ensures (rules crashes sidecar) (.task id) (storeResult result)
      (fun _ later => Holds crashes (later id) result) state := by
  rw [storeResult]
  split
  case h_1 none =>
      rw [named] at none
      cases none
  case h_2 other same =>
      obtain rfl : id = other := Option.some.inj (named.symm.trans same)
      refine Ensures.bind (ensures_quiet (fun _ _ _ => access_quiet) fun _ => trivial)
        fun _ second _ relies => ?_
      have fresh := fresh_of_relies fresh relies
      refine Ensures.bind ensures_pathExists ?_
      rintro found third _ ⟨before, rely, inv, _, present, after⟩
      have now := fresh_of_relies fresh rely
      cases found with
      | true => exact absurd present (not_present_of_fresh (by decide) (inv _) now)
      | false =>
          have fresh := fresh_of_relies now after
          refine Ensures.bind ensures_pathExists ?_
          rintro found fourth _ ⟨before, rely, inv, _, present, after⟩
          have now := fresh_of_relies fresh rely
          cases found with
          | true => exact absurd present (not_present_of_fresh (by decide) (inv _) now)
          | false => exact ensures_writeResult (fresh_of_relies now after)

theorem fresh_of_absent (sound : Sound crashes sidecar (state id))
    (admits : ¬Stale sidecar (state id)) (unseen : ¬Seen (state id))
    (absent : (state id).result.present = false) : Fresh sidecar (state id) := by
  refine ⟨admits, Bool.eq_false_iff.mpr fun finished => ?_⟩
  rcases sound.finished finished with seen | present
  · exact unseen seen
  · rw [present] at absent
    cases absent

theorem ensures_readResult :
    Ensures (rules crashes sidecar) (.task id) (call (.readResult id))
      (fun file later => Holds crashes (later id) file.result) state := by
  refine Safe.mono (safe_call fun _ _ _ => trivial) ?_
  rintro _ later _ performed file rfl
  obtain ⟨before, choice, free, _, _, _, _, same, after⟩ := turn_of_performed performed
  rw [perform, access_quiet] at after
  refine (later_of_relies owns_task after).holds file.result (.inl ⟨file, ?_, rfl⟩)
  have read := (access_ok same).2
  cases shown : (before id).result.current with
  | none =>
      rw [shown] at read
      cases read
  | some other =>
      rw [shown] at read
      exact congrArg some (Except.ok.inj read)

theorem ensures_pendingResult (admits : ¬Stale sidecar (state id)) (unseen : ¬Seen (state id)) :
    Ensures (rules crashes sidecar) (.task id) (pendingResult id)
      (fun found later => found.elim (Fresh sidecar (later id)) fun result =>
        result.deliveryId = some id ∧ Holds crashes (later id) result) state := by
  refine Ensures.bind ensures_pathExists ?_
  rintro found second _ ⟨before, rely, inv, _, present, after⟩
  cases found with
  | true =>
      refine Ensures.bind ensures_readResult fun file third _ holds => ?_
      exact Ensures.pure fun _ relies _ =>
        ⟨file.named, (later_of_relies owns_task relies).holds file.result holds⟩
  | false =>
      have fresh := fresh_of_absent (inv id) (rely.admits admits) (rely.unseen admits unseen) present
      exact Ensures.pure fun _ relies _ =>
        fresh_of_relies (fresh_of_relies fresh after) relies

theorem told_of_publish {delivery : Delivery id} {result : TaskResult}
    (sound : Sound crashes sidecar delivery) (holds : Holds crashes delivery result) :
    Told crashes (delivery.publish result) := by
  intro counts other has
  have durable := sound.durable counts
  rcases holds with ⟨file, shown, rfl⟩ | done
  · have only : HasResult delivery other → other = file.result := by
      rintro ⟨found, possible, rfl⟩
      rw [durable.agree found file possible (.of_current shown)]
    rcases has with has | member
    · exact List.mem_cons.mpr (.inl (only has))
    · rcases durable.stored other member with published | ⟨_, has⟩
      · exact List.mem_cons_of_mem _ published
      · exact List.mem_cons.mpr (.inl (only has))
  · exact List.mem_cons_of_mem _ (durable.told_of_done (counts ▸ done) rfl other has)

theorem ensures_publish {result : TaskResult} (named : result.deliveryId = some id)
    (holds : Holds crashes (state id) result) :
    Ensures (rules crashes sidecar) (.task id) (call (.publish result))
      (fun _ later => Told crashes (later id)) state := by
  refine Safe.mono (safe_call fun _ _ _ => trivial) ?_
  rintro _ later _ performed _ rfl
  obtain ⟨before, choice, free, rely, inv, _, _, same, after⟩ := turn_of_performed performed
  refine after.told ?_
  have holds := (later_of_relies owns_task rely).holds result holds
  have sent : (perform before (.publish result) choice free).1 id = (before id).publish result := by
    rw [perform] at same ⊢
    by_cases fails : choice.fails = true
    · rw [if_pos fails] at same
      cases same
    · rw [if_neg fails, Inbox.publish, named]
      exact Function.update_self id _ before
  rw [sent]
  exact told_of_publish (inv id) holds

theorem ensures_publishStoredResult {result : TaskResult} (named : result.deliveryId = some id)
    (holds : Holds crashes (state id) result) :
    Ensures (rules crashes sidecar) (.task id) (publishStoredResult result)
      (fun _ later => Done crashes (later id)) state := by
  rw [publishStoredResult, named]
  refine Ensures.bind (ensures_publish named holds) fun _ second _ told => ?_
  exact Ensures.mono (ensures_markCompleted owns_task ⟨rfl, told⟩) fun _ _ _ cleared => cleared.1

theorem ensures_executeAssignment {assignment : TaskAssignment}
    (named : assignment.deliveryId = some id) (fresh : Fresh sidecar (state id)) :
    Ensures (rules crashes sidecar) (.task id) (executeAssignment assignment)
      (fun _ later => Done crashes (later id)) state := by
  have ran : Ensures (rules crashes sidecar) (.task id) (call (.runCli assignment))
      (fun _ later => Fresh sidecar (later id)) state := by
    refine Safe.mono (safe_call fun before relies _ => ?_) ?_
    · exact ⟨id, named, (fresh_of_relies fresh relies).2⟩
    · rintro _ later _ performed _ _
      exact fresh_of_relies fresh (relies_of_quiet (fun _ _ _ => rfl) performed)
  refine Ensures.bind ran fun outcome second _ fresh => ?_
  rw [named]
  refine Ensures.bind (ensures_storeResult rfl fresh) fun _ third _ holds => ?_
  exact ensures_publishStoredResult rfl holds

def Ready (crashes : Bool) (sidecar : Sidecar) (id : Uuid) (delivery : Delivery id) : Work → Prop
  | .assigned assignment =>
      assignment.deliveryId = some id ∧ ¬Stale sidecar delivery ∧ ¬Seen delivery
  | .stored result => result.deliveryId = some id ∧ Holds crashes delivery result

theorem ensures_body {work : Work} (ready : Ready crashes sidecar id (state id) work) :
    Ensures (rules crashes sidecar) (.task id) (work.body id)
      (fun _ later => Done crashes (later id)) state := by
  cases work with
  | assigned assignment =>
      refine Ensures.bind (ensures_pendingResult ready.2.1 ready.2.2) fun found second _ has => ?_
      cases found with
      | some result => exact ensures_publishStoredResult has.1 has.2
      | none => exact ensures_executeAssignment ready.1 has
  | stored result => exact ensures_publishStoredResult ready.1 ready.2

theorem safe_task {work : Work} (ready : Ready crashes sidecar id (state id) work) :
    Safe (rules crashes sidecar) (.task id) (work.task id) (fun _ _ => True) state := by
  refine Safe.bind (ensures_body ready) fun _ second _ _ => ?_
  intro third _ _
  exact ⟨trivial, fun _ _ _ _ _ _ => trivial⟩

end Forge.TaskSafety
