import Forge.TaskSafety

/-! The main loop keeps to the rules: what it lists, drops, schedules, acknowledges and purges. -/

namespace Forge.MainSafety

open Forge.AssignmentInbox
open Forge.DeliveryChanges
open Forge.InboxDiscipline
open Forge.InboxSafety
open Forge.Library.DurableEntry
open Forge.Library.Identifier
open Forge.Library.Interleaving
open Forge.Library.Interleaving.Attempt hiding call
open Forge.ResultConsumer
open Forge.Schema
open Forge.TaskSafety

attribute [local irreducible] Uuid.toText

variable {crashes : Bool} {sidecar : Sidecar} {state later : Inbox} {id : Uuid} {α : Type}

theorem owns_main : Owns .main id := .inl rfl

/-! ## What lasts for the main loop -/

def Sparing (operation : Op) : Prop := ∀ id, operation ≠ .removeFile .completed id

def Steady (crashes : Bool) (sidecar : Sidecar) (before after : Inbox) : Prop :=
  ∀ id, Later crashes sidecar (before id) (after id) ∧ (after id).purged = (before id).purged

theorem steady_of_relies (relies : Relies crashes sidecar .main state later) :
    Steady crashes sidecar state later :=
  fun id => ⟨(relies id).toLater, (relies id).purged⟩

theorem Steady.trans {first second third : Inbox} (left : Steady crashes sidecar first second)
    (right : Steady crashes sidecar second third) : Steady crashes sidecar first third :=
  fun id => ⟨(left id).1.trans (right id).1, (right id).2.trans (left id).2⟩

theorem ensures_steady {program : Io α} {post : α → Inbox → Prop}
    (first : Ensures (rules crashes sidecar) .main program post state)
    (only : program.Only Sparing) :
    Ensures (rules crashes sidecar) .main program
      (fun value later => post value later ∧ Steady crashes sidecar state later) state := by
  refine Ensures.frame first only ?_ ?_ fun id => ⟨.refl _, rfl⟩
  · intro before operation choice free inv may considered sparing steady
    refine steady.trans fun id => ?_
    have change := perform_change choice may considered id
    exact ⟨change.later (inv id), change.purged (sparing id)⟩
  · exact fun before after relies steady => steady.trans (steady_of_relies relies)

theorem only_moveFile {hardLink removeSource : Io Unit} {target source : Dir}
    (link : hardLink.Only Sparing) (remove : removeSource.Only Sparing) :
    (moveFile hardLink removeSource target source).Only Sparing := by
  refine Only.bind link fun _ => Only.bind (Only.call nofun) fun _ => Only.bind remove fun _ =>
    Only.bind (Only.call nofun) fun _ => ?_
  by_cases apart : source ≠ target
  · rw [if_pos apart]
    exact Only.call nofun
  · rw [if_neg apart]
    exact Only.pure ()

theorem only_removeIfPresent {remove : Io Unit} {dir : Dir} (only : remove.Only Sparing) :
    (removeIfPresent remove dir).Only Sparing := by
  refine Only.bind (Only.observe only) fun outcome => ?_
  match outcome with
  | .ok () => exact Only.call nofun
  | .error .notFound => exact Only.pure ()
  | .error .alreadyExists => exact Only.fail _
  | .error .other => exact Only.fail _

theorem only_movePending : (movePending id).Only Sparing := by
  refine Only.bind (Only.observe (only_moveFile (Only.call nofun) (Only.call nofun)))
    fun outcome => ?_
  match outcome with
  | .ok () => exact Only.pure ()
  | .error .alreadyExists => exact Only.pure ()
  | .error .notFound => exact Only.fail _
  | .error .other => exact Only.fail _

theorem only_writeTombstone : (writeTombstone id).Only Sparing := by
  refine Only.bind (Only.call nofun) fun _ => ?_
  refine Only.bind (Only.observe (only_moveFile (Only.call nofun) (Only.call nofun)))
    fun outcome => ?_
  match outcome with
  | .ok () => exact Only.pure ()
  | .error .alreadyExists => exact only_removeIfPresent (Only.call nofun)
  | .error .notFound => exact Only.fail _
  | .error .other => exact Only.fail _

theorem only_markCompleted : (markCompleted id).Only Sparing := by
  refine Only.bind (Only.call nofun) fun _ => Only.bind (Only.bind (Only.call nofun) ?_) fun _ =>
    Only.bind (only_removeIfPresent (Only.call nofun)) fun _ =>
      only_removeIfPresent (Only.call nofun)
  intro found
  cases found with
  | true => exact Only.pure ()
  | false =>
      refine Only.bind (Only.call nofun) fun found => ?_
      cases found with
      | true => exact only_movePending
      | false => exact only_writeTombstone

/-! ## Listings -/

def Listed (sidecar : Sidecar) (assignment : TaskAssignment) (inbox : Inbox) : Prop :=
  ∀ id, assignment.deliveryId = some id → (inbox id).purged = false ∧
    (sidecar.Admits assignment → ¬Stale sidecar (inbox id)) ∧
    (¬sidecar.Admits assignment → Seen (inbox id) ∨ Stale sidecar (inbox id))

theorem Listed.steady {assignment : TaskAssignment} (listed : Listed sidecar assignment state)
    (steady : Steady crashes sidecar state later) : Listed sidecar assignment later := by
  intro id named
  obtain ⟨lives, admits, refuses⟩ := listed id named
  refine ⟨(steady id).2.trans lives, fun fits => (steady id).1.admits (admits fits), ?_⟩
  exact fun refused => (steady id).1.condemned (refuses refused)

def Cached (crashes : Bool) (result : TaskResult) (inbox : Inbox) : Prop :=
  ∀ id, result.deliveryId = some id → Holds crashes (inbox id) result

theorem Cached.steady {result : TaskResult} (cached : Cached crashes result state)
    (steady : Steady crashes sidecar state later) : Cached crashes result later :=
  fun id named => (steady id).1.holds result (cached id named)

theorem found_ok {file : Option α} {value : α} (same : found file = .ok value) :
    file = some value := by
  cases file with
  | none => cases same
  | some other => exact congrArg some (Except.ok.inj same)

theorem ensures_readPending :
    Ensures (rules crashes sidecar) .main (call (.readPending id))
      (fun file later => Listed sidecar file.assignment later) state := by
  refine Safe.mono (safe_call fun _ _ _ => trivial) ?_
  rintro _ later _ performed file rfl
  obtain ⟨before, choice, free, _, inv, _, _, same, after⟩ := turn_of_performed performed
  rw [perform, access_quiet] at after
  have shown := found_ok (access_ok same).2
  have listed : Listed sidecar file.assignment before := by
    intro other named
    obtain rfl : id = other := Option.some.inj (file.named.symm.trans named)
    refine ⟨Bool.eq_false_iff.mpr fun purged => ?_, ?_, fun refused => .inr ⟨file, shown, refused⟩⟩
    · rw [(inv id).gone purged] at shown
      cases shown
    · rintro fits ⟨found, current, refused⟩
      cases current.symm.trans shown
      exact refused fits
  exact listed.steady (steady_of_relies after)

theorem ensures_readCached :
    Ensures (rules crashes sidecar) .main (call (.readResult id))
      (fun file later => Cached crashes file.result later) state := by
  refine Safe.mono (safe_call fun _ _ _ => trivial) ?_
  rintro _ later _ performed file rfl
  obtain ⟨before, choice, free, _, _, _, _, same, after⟩ := turn_of_performed performed
  rw [perform, access_quiet] at after
  have shown := found_ok (access_ok same).2
  have cached : Cached crashes file.result before := by
    intro other named
    obtain rfl : id = other := Option.some.inj (file.named.symm.trans named)
    exact .inl ⟨file, shown, rfl⟩
  exact cached.steady (steady_of_relies after)

theorem ensures_listed {program rest : Io α} {post : α → Inbox → Prop}
    (finished : ∀ inbox, Ensures (rules crashes sidecar) .main rest post inbox)
    (otherwise : ∀ inbox, Ensures (rules crashes sidecar) .main program post inbox) :
    Ensures (rules crashes sidecar) .main
      (do
        if ← pathExists .listing .completed id then
          markCompleted id
          rest
        else program) post state := by
  refine Ensures.bind ensures_pathExists ?_
  rintro found second _ ⟨before, _, _, _, present, after⟩
  cases found with
  | true =>
      have seen : Seen (second id) := (after id).seen (.inl present)
      refine Ensures.bind (ensures_markCompleted owns_main (.inl seen)) fun _ third _ _ => ?_
      exact finished third
  | false => exact otherwise second

theorem only_readAssignments (names : List Uuid) : (readAssignments names).Only Sparing := by
  induction names with
  | nil => exact Only.pure []
  | cons id rest ih =>
      refine Only.bind (Only.call nofun) fun found => ?_
      cases found with
      | true => exact Only.bind only_markCompleted fun _ => ih
      | false => exact Only.bind (Only.call nofun) fun _ => Only.bind ih fun _ => Only.pure _

theorem ensures_readAssignments (names : List Uuid) :
    Ensures (rules crashes sidecar) .main (readAssignments names)
      (fun out later => ∀ assignment ∈ out, Listed sidecar assignment later) state := by
  induction names generalizing state with
  | nil => exact Ensures.pure fun _ _ _ => nofun
  | cons id rest ih =>
      refine ensures_listed (fun _ => ih) fun inbox => ?_
      refine Ensures.bind ensures_readPending fun file second _ listed => ?_
      refine Ensures.bind (ensures_steady ih (only_readAssignments rest))
        fun out third _ ⟨others, steady⟩ => ?_
      refine Ensures.pure fun fourth relies _ assignment member => ?_
      refine Listed.steady ?_ (steady_of_relies relies)
      rcases List.mem_cons.mp member with rfl | member
      · exact listed.steady steady
      · exact others assignment member

theorem only_readResults (names : List Uuid) : (readResults names).Only Sparing := by
  induction names with
  | nil => exact Only.pure []
  | cons id rest ih =>
      refine Only.bind (Only.call nofun) fun found => ?_
      cases found with
      | true => exact Only.bind only_markCompleted fun _ => ih
      | false => exact Only.bind (Only.call nofun) fun _ => Only.bind ih fun _ => Only.pure _

theorem ensures_readResults (names : List Uuid) :
    Ensures (rules crashes sidecar) .main (readResults names)
      (fun out later => ∀ result ∈ out, Cached crashes result later) state := by
  induction names generalizing state with
  | nil => exact Ensures.pure fun _ _ _ => nofun
  | cons id rest ih =>
      refine ensures_listed (fun _ => ih) fun inbox => ?_
      refine Ensures.bind ensures_readCached fun file second _ cached => ?_
      refine Ensures.bind (ensures_steady ih (only_readResults rest))
        fun out third _ ⟨others, steady⟩ => ?_
      refine Ensures.pure fun fourth relies _ result member => ?_
      refine Cached.steady ?_ (steady_of_relies relies)
      rcases List.mem_cons.mp member with rfl | member
      · exact cached.steady steady
      · exact others result member

/-! ## Scheduling -/

theorem ensures_forM {f : α → Io Unit} {fact : α → Inbox → Prop}
    (lasts : ∀ value before after, Steady crashes sidecar before after → fact value before →
      fact value after)
    (only : ∀ value, (f value).Only Sparing)
    (each : ∀ value inbox, fact value inbox →
      Ensures (rules crashes sidecar) .main (f value) (fun _ _ => True) inbox)
    (list : List α) (now : ∀ value ∈ list, fact value state) :
    Ensures (rules crashes sidecar) .main (list.forM f) (fun _ _ => True) state := by
  induction list generalizing state with
  | nil => exact Ensures.pure fun _ _ _ => trivial
  | cons value rest ih =>
      refine Ensures.bind (ensures_steady (each value state (now value List.mem_cons_self))
        (only value)) fun _ second _ ⟨_, steady⟩ => ?_
      exact ih fun other member =>
        lasts other _ _ steady (now other (List.mem_cons_of_mem value member))

theorem only_scheduleAssignment (assignment : TaskAssignment) :
    (scheduleAssignment assignment).Only Sparing := by
  rw [scheduleAssignment]
  cases assignment.deliveryId with
  | none => exact Only.pure ()
  | some id => exact Only.bind (Only.call nofun) fun _ => Only.pure ()

theorem ensures_scheduleAssignment {assignment : TaskAssignment}
    (lives : ∀ id, assignment.deliveryId = some id →
      (state id).purged = false ∧ ¬Stale sidecar (state id)) :
    Ensures (rules crashes sidecar) .main (scheduleAssignment assignment) (fun _ _ => True)
      state := by
  rw [scheduleAssignment]
  cases known : assignment.deliveryId with
  | none => exact Ensures.pure fun _ _ _ => trivial
  | some id =>
      have started : Ensures (rules crashes sidecar) .main (call (.tryStart (.assigned assignment)))
          (fun _ _ => True) state := by
        refine Safe.mono (safe_call fun before relies _ id named => ?_) fun _ _ _ _ _ _ => trivial
        exact ⟨(relies id).purged.trans (lives id named).1, (relies id).admits (lives id named).2⟩
      exact Ensures.bind started fun _ _ _ _ => Ensures.pure fun _ _ _ => trivial

theorem only_scheduleStoredResult (result : TaskResult) :
    (scheduleStoredResult result).Only Sparing := by
  rw [scheduleStoredResult]
  cases result.deliveryId with
  | none => exact Only.pure ()
  | some id => exact Only.bind (Only.call nofun) fun _ => Only.pure ()

theorem ensures_scheduleStoredResult {result : TaskResult} (cached : Cached crashes result state) :
    Ensures (rules crashes sidecar) .main (scheduleStoredResult result) (fun _ _ => True)
      state := by
  rw [scheduleStoredResult]
  cases known : result.deliveryId with
  | none => exact Ensures.pure fun _ _ _ => trivial
  | some id =>
      have started : Ensures (rules crashes sidecar) .main (call (.tryStart (.stored result)))
          (fun _ _ => True) state := by
        refine Safe.mono (safe_call fun before relies _ => ?_) fun _ _ _ _ _ _ => trivial
        exact cached.steady (steady_of_relies relies)
      exact Ensures.bind started fun _ _ _ _ => Ensures.pure fun _ _ _ => trivial

theorem only_dropAssignment (assignment : TaskAssignment) :
    (Sidecar.dropAssignment assignment).Only Sparing := by
  rw [Sidecar.dropAssignment]
  cases assignment.deliveryId with
  | none => exact Only.pure ()
  | some id => exact Only.bind (Only.observe only_markCompleted) fun _ => Only.pure ()

theorem ensures_dropAssignment {assignment : TaskAssignment}
    (condemned : ∀ id, assignment.deliveryId = some id →
      Seen (state id) ∨ Stale sidecar (state id)) :
    Ensures (rules crashes sidecar) .main (Sidecar.dropAssignment assignment) (fun _ _ => True)
      state := by
  rw [Sidecar.dropAssignment]
  cases known : assignment.deliveryId with
  | none => exact Ensures.pure fun _ _ _ => trivial
  | some id =>
      have marked : Ensures (rules crashes sidecar) .main (markCompleted id).observe
          (fun _ _ => True) state :=
        Ensures.observe (Safe.mono (ensures_markCompleted owns_main (condemned id known))
          fun _ _ _ _ => trivial) fun _ _ _ _ _ _ => trivial
      exact Ensures.bind marked fun _ _ _ _ => Ensures.pure fun _ _ _ => trivial

theorem only_replayAssignment (assignment : TaskAssignment) :
    (sidecar.replayAssignment assignment).Only Sparing := by
  rw [Sidecar.replayAssignment]
  cases eq_or_ne assignment.agentId.toText sidecar.agentId with
  | inr other =>
      rw [if_pos other]
      exact Only.pure ()
  | inl same =>
      rw [if_neg (not_not.mpr same)]
      split
      · exact only_dropAssignment assignment
      · exact only_dropAssignment assignment
      · exact only_scheduleAssignment assignment

theorem ensures_replayAssignment {assignment : TaskAssignment}
    (listed : Listed sidecar assignment state) :
    Ensures (rules crashes sidecar) .main (sidecar.replayAssignment assignment) (fun _ _ => True)
      state := by
  rw [Sidecar.replayAssignment]
  cases eq_or_ne assignment.agentId.toText sidecar.agentId with
  | inr other =>
      rw [if_pos other]
      exact Ensures.pure fun _ _ _ => trivial
  | inl same =>
      rw [if_neg (not_not.mpr same)]
      split
      · rename_i _ refused
        refine ensures_dropAssignment fun id named => (listed id named).2.2 fun fits => ?_
        cases refused.symm.trans fits.2.1
      · rename_i _ refused
        refine ensures_dropAssignment fun id named => (listed id named).2.2 fun fits => ?_
        cases refused.symm.trans fits.2.2
      · rename_i generation durable
        refine ensures_scheduleAssignment fun id named => ?_
        obtain ⟨lives, admits, _⟩ := listed id named
        exact ⟨lives, admits ⟨same, generation, durable⟩⟩

/-! ## Purging -/

theorem ensures_modified :
    Ensures (rules crashes sidecar) .main (call (.modified id)) (fun _ later => Seen (later id))
      state := by
  refine Safe.mono (safe_call fun _ _ _ => trivial) ?_
  rintro _ later _ performed _ rfl
  obtain ⟨before, choice, free, _, _, _, _, same, after⟩ := turn_of_performed performed
  rw [perform, access_quiet] at after
  have shown := found_ok (access_ok same).2
  exact (after id).seen (.inl (Entry.present_iff.mpr ⟨_, shown⟩))

theorem ensures_purgeTombstones (cutoff : Timestamp) (names : List Uuid) (purged : Nat) :
    Ensures (rules crashes sidecar) .main (purgeTombstones cutoff names purged)
      (fun _ _ => True) state := by
  induction names generalizing state purged with
  | nil => exact Ensures.pure fun _ _ _ => trivial
  | cons id rest ih =>
      refine Ensures.bind ensures_modified fun modified second _ seen => ?_
      by_cases old : (show Timestamp from modified) ≤ cutoff
      · rw [if_pos old]
        refine Ensures.bind (ensures_markCompleted owns_main (.inl seen))
          fun _ third _ cleared => ?_
        have removed : Ensures (rules crashes sidecar) .main (call (.removeFile .completed id))
            (fun _ _ => True) third := by
          refine Safe.mono (safe_call fun before relies _ => ?_) fun _ _ _ _ _ _ => trivial
          have cleared := cleared_of_relies owns_main cleared relies
          exact ⟨rfl, cleared.1, cleared.2 rfl⟩
        exact Ensures.bind removed fun _ _ _ _ => ih (purged + 1)
      · rw [if_neg old]
        exact ih purged

theorem ensures_purgeCompletedOlderThan (maxAge : Int) :
    Ensures (rules crashes sidecar) .main (purgeCompletedOlderThan maxAge) (fun _ _ => True)
      state := by
  refine Ensures.bind (ensures_quiet (fun _ _ _ => rfl) fun _ => trivial) fun now _ _ _ => ?_
  refine Ensures.bind (ensures_quiet (fun _ _ _ => access_quiet) fun _ => trivial)
    fun names _ _ _ => ?_
  refine Ensures.bind (ensures_purgeTombstones _ names 0) fun purged _ _ _ => ?_
  by_cases some : 0 < purged
  · rw [if_pos some]
    have synced : ∀ inbox, Ensures (rules crashes sidecar) .main (call (.syncDir .completed))
        (fun _ _ => True) inbox :=
      fun _ => Safe.mono (safe_call fun _ _ _ => trivial) fun _ _ _ _ _ _ => trivial
    exact Ensures.bind (synced _) fun _ _ _ _ => Ensures.pure fun _ _ _ => trivial
  · rw [if_neg some]
    exact Ensures.pure fun _ _ _ => trivial

/-! ## The programs of the main loop -/

theorem ensures_replayReadyResults :
    Ensures (rules crashes sidecar) .main Sidecar.replayReadyResults (fun _ _ => True) state := by
  refine Ensures.bind (Ensures.bind
    (ensures_quiet (fun _ _ _ => access_quiet) fun _ => trivial)
      fun names _ _ _ => ensures_readResults (sortPaths names)) fun results _ _ cached => ?_
  exact ensures_forM (fun _ _ _ steady cached => cached.steady steady)
    only_scheduleStoredResult (fun _ _ => ensures_scheduleStoredResult) results cached

theorem ensures_pendingAssignments :
    Ensures (rules crashes sidecar) .main pendingAssignments
      (fun out later => ∀ assignment ∈ out, Listed sidecar assignment later) state := by
  refine Ensures.bind (ensures_quiet (fun _ _ _ => access_quiet) fun _ => trivial)
    fun names _ _ _ => ?_
  exact ensures_readAssignments (sortPaths names)

theorem ensures_replayAssignments {pending : List TaskAssignment}
    (listed : ∀ assignment ∈ pending, Listed sidecar assignment state) :
    Ensures (rules crashes sidecar) .main (pending.forM sidecar.replayAssignment)
      (fun _ _ => True) state := by
  have lasts : ∀ assignment before after, Steady crashes sidecar before after →
      Listed sidecar assignment before → Listed sidecar assignment after :=
    fun _ _ _ steady listed => listed.steady steady
  exact ensures_forM lasts only_replayAssignment (fun _ _ => ensures_replayAssignment) pending
    listed

theorem safe_onReplay :
    Safe (rules crashes sidecar) .main sidecar.onReplay (fun _ _ => True) state := by
  have passed : Ensures (rules crashes sidecar) .main sidecar.replayPending
      (fun _ _ => True) state := by
    refine Ensures.bind ensures_replayReadyResults fun _ second _ _ => ?_
    refine Ensures.bind ensures_pendingAssignments fun pending third _ listed => ?_
    refine Ensures.bind (ensures_replayAssignments listed) fun _ fourth _ _ => ?_
    refine Ensures.bind (ensures_purgeCompletedOlderThan _) fun _ _ _ _ => ?_
    exact Ensures.pure fun _ _ _ => trivial
  exact Safe.bind passed fun _ _ _ _ _ _ _ => trivial

theorem lasts_lasting : Lasting crashes sidecar (Lasts crashes : Delivery id → Prop) :=
  fun _ _ later => later.lasts

theorem secured_lasting : Lasting crashes sidecar (Secured crashes : Delivery id → Prop) :=
  fun _ _ later => later.secured

theorem Lasts.sync {delivery : Delivery id} (lasts : Lasts crashes delivery) :
    Secured crashes (delivery.sync .pending) := by
  intro counts
  rcases lasts counts with present | kept
  · exact .inr (Entry.firm_settled.mpr present)
  · exact .inl kept

theorem safe_linkPending (file : PendingFile id) (lives : (state id).purged = false)
    (admits : sidecar.Admits file.assignment) (absent : (state id).pending.current = none) :
    Safe (rules crashes sidecar) .main (call (.linkPending id file)) (fun outcome later =>
      (∀ value, outcome = .ok value → Lasts crashes (later id)) ∧
        (outcome = .error .alreadyExists → Secured crashes (later id))) state := by
  refine Safe.mono (safe_call fun _ relies _ =>
    ⟨rfl, (relies id).purged.trans lives, admits⟩) ?_
  rintro outcome later _ performed
  obtain ⟨before, choice, free, rely, _, _, _, same, after⟩ := turn_of_performed performed
  refine ⟨fun value found => ?_, fun found => ?_⟩
  · refine (later_of_relies owns_main after).lasts fun _ => .inl ?_
    obtain ⟨fine, linked⟩ := access_ok (same.trans found)
    rw [perform, fine, link_ok linked, edit_self]
    rfl
  · have present := link_error (access_error (same.trans found) (by decide)).2
    rw [Entry.present, (rely id).absent absent] at present
    cases present

theorem ensures_writePending {assignment : TaskAssignment}
    (named : assignment.deliveryId = some id) (lives : (state id).purged = false)
    (admits : sidecar.Admits assignment) (absent : (state id).pending.current = none) :
    Ensures (rules crashes sidecar) .main (writePending id assignment named)
      (fun _ later => Secured crashes (later id)) state := by
  refine Ensures.bind (ensures_quiet (fun _ _ _ => access_quiet) fun _ => trivial)
    fun modified second _ relies => ?_
  have lasting : Lasting crashes sidecar (Secured crashes : Delivery id → Prop) := secured_lasting
  have moved := safe_moveFile .pending .pending owns_main lasts_lasting lasting
    (fun _ => Lasts.sync)
    (safe_linkPending ⟨assignment, modified, named⟩
      ((relies id).purged.trans lives) admits ((relies id).absent absent))
    (fun _ => safe_call_lasting (.removeTemp .pending id) owns_main lasting
      (fun _ _ => trivial) fun _ _ _ => removeTemp_never)
  refine Ensures.bind (ensures_settled owns_main lasting moved) fun outcome later _ settled => ?_
  match outcome with
  | .ok () => exact ensures_pure owns_main lasting (settled (.inl rfl))
  | .error .alreadyExists =>
      refine Ensures.bind (Ensures.observe (safe_call_lasting (.removeTemp .pending id) owns_main
        lasting (fun _ _ => trivial) (fun _ _ _ => removeTemp_never) (settled (.inr rfl)))
          fun _ _ _ relies _ holds =>
            ⟨lasting _ _ (later_of_relies owns_main relies) holds.1, holds.2⟩)
        fun _ _ _ holds => ?_
      exact ensures_pure owns_main lasting holds.1
  | .error .notFound => exact Ensures.fail _
  | .error .other => exact Ensures.fail _

theorem ensures_accept {assignment : TaskAssignment} (named : assignment.deliveryId = some id)
    (lives : (state id).purged = false) (admits : sidecar.Admits assignment) :
    Ensures (rules crashes sidecar) .main (accept assignment)
      (fun _ later => Secured crashes (later id)) state := by
  rw [accept]
  split
  case h_1 none =>
      rw [named] at none
      cases none
  case h_2 other same =>
      obtain rfl : id = other := Option.some.inj (named.symm.trans same)
      refine Ensures.bind (ensures_quiet (fun _ _ _ => access_quiet) fun _ => trivial)
        fun _ second _ relies => ?_
      have lives := (relies id).purged.trans lives
      refine Ensures.bind ensures_pathExists ?_
      rintro found third _ ⟨before, rely, inv, durable, present, after⟩
      have lives := (after id).purged.trans ((rely id).purged.trans lives)
      cases found with
      | true =>
          have secured : Secured crashes (before id) := fun counts =>
            .inl ((inv id).durable counts |>.done (.inl ⟨present, fun _ => durable counts present⟩))
          exact ensures_pure owns_main secured_lasting ((after id).secured secured)
      | false =>
          refine Ensures.bind ensures_pathExists ?_
          rintro found fourth _ ⟨before, rely, inv, durable, present, after⟩
          cases found with
          | true =>
              have secured : Secured crashes (before id) := fun counts => .inr (durable counts present)
              exact ensures_pure owns_main secured_lasting ((after id).secured secured)
          | false =>
              refine ensures_writePending same ?_ admits ?_
              · exact (after id).purged.trans ((rely id).purged.trans lives)
              · exact (after id).absent (Option.not_isSome_iff_eq_none.mp (Bool.eq_false_iff.mp present))

theorem only_accept {assignment : TaskAssignment} : (accept assignment).Only Sparing := by
  rw [accept]
  split
  · exact Only.fail _
  · refine Only.bind (Only.call nofun) fun _ => Only.bind (Only.call nofun) fun found => ?_
    cases found with
    | true => exact Only.pure _
    | false =>
        refine Only.bind (Only.call nofun) fun found => ?_
        cases found with
        | true => exact Only.pure _
        | false =>
            refine Only.bind (Only.call nofun) fun _ => ?_
            refine Only.bind (Only.observe (only_moveFile (Only.call nofun) (Only.call nofun)))
              fun outcome => ?_
            match outcome with
            | .ok () => exact Only.pure _
            | .error .alreadyExists =>
                exact Only.bind (Only.observe (Only.call nofun)) fun _ => Only.pure _
            | .error .notFound => exact Only.fail _
            | .error .other => exact Only.fail _

theorem named_of_durable {assignment : TaskAssignment}
    (durable : validateDurableAssignment assignment = .ok ()) :
    ∃ id, assignment.deliveryId = some id := by
  rw [validateDurableAssignment] at durable
  cases known : assignment.deliveryId with
  | none =>
      rw [if_pos known] at durable
      cases durable
  | some id => exact ⟨id, rfl⟩

theorem ensures_scheduled {assignment : TaskAssignment} (named : assignment.deliveryId = some id)
    (lives : (state id).purged = false) (admits : ¬Stale sidecar (state id))
    (secured : Secured crashes (state id)) :
    Ensures (rules crashes sidecar) .main
      (do
        scheduleAssignment assignment
        pure DispatchAction.ack) (fun _ later => Secured crashes (later id)) state := by
  have scheduled : Ensures (rules crashes sidecar) .main (scheduleAssignment assignment)
      (fun _ _ => True) state := by
    refine ensures_scheduleAssignment fun other same => ?_
    obtain rfl : id = other := Option.some.inj (named.symm.trans same)
    exact ⟨lives, admits⟩
  refine Ensures.bind (ensures_steady scheduled (only_scheduleAssignment assignment))
    fun _ second _ ⟨_, steady⟩ => ?_
  exact ensures_pure owns_main secured_lasting ((steady id).1.secured secured)

theorem ensures_dispatch {payload : Except String TaskAssignment}
    (lives : ∀ assignment, payload = .ok assignment → ∀ id, assignment.deliveryId = some id →
      (state id).purged = false ∧ ¬Stale sidecar (state id)) :
    Ensures (rules crashes sidecar) .main (sidecar.dispatch payload)
      (fun action later => action = .ack → ∀ id,
        payload.toOption.bind (·.deliveryId) = some id → Secured crashes (later id)) state := by
  cases payload with
  | error reason => exact Ensures.pure fun _ _ _ => nofun
  | ok assignment =>
      rw [Sidecar.dispatch]
      cases eq_or_ne assignment.agentId.toText sidecar.agentId with
      | inr other =>
          rw [if_pos other]
          exact Ensures.pure fun _ _ _ => nofun
      | inl same =>
          rw [if_neg (not_not.mpr same)]
          split
          · exact Ensures.pure fun _ _ _ => nofun
          · exact Ensures.pure fun _ _ _ => nofun
          · rename_i generation durable
            obtain ⟨id, named⟩ := named_of_durable durable
            have only : ∀ {later : Inbox}, Secured crashes (later id) → ∀ other,
                (Except.ok assignment : Except String _).toOption.bind (·.deliveryId) = some other →
                  Secured crashes (later other) := by
              intro later secured other found
              obtain rfl : id = other := Option.some.inj (named.symm.trans found)
              exact secured
            have lives := lives assignment rfl id named
            have accepted : Ensures (rules crashes sidecar) .main (accept assignment)
                (fun _ later => Secured crashes (later id) ∧ Steady crashes sidecar state later)
                state :=
              ensures_steady (ensures_accept named lives.1 ⟨same, generation, durable⟩) only_accept
            have scheduled : ∀ later : Inbox,
                Secured crashes (later id) ∧ Steady crashes sidecar state later →
                  Ensures (rules crashes sidecar) .main
                    (do
                      scheduleAssignment assignment
                      pure DispatchAction.ack)
                    (fun action later => action = .ack → ∀ other,
                      (Except.ok assignment : Except String _).toOption.bind (·.deliveryId) =
                        some other → Secured crashes (later other)) later := by
              rintro later ⟨secured, steady⟩
              refine Ensures.mono (ensures_scheduled named ((steady id).2.trans lives.1)
                ((steady id).1.admits lives.2) secured) fun _ _ _ secured _ => only secured
            refine Ensures.bind (Ensures.observe accepted fun _ _ _ relies _ holds value found =>
              ⟨(relies id).secured (holds value found).1,
                (holds value found).2.trans (steady_of_relies relies)⟩)
              fun outcome later _ holds => ?_
            match outcome with
            | .ok .accepted => exact scheduled later (holds _ rfl)
            | .ok .pending => exact scheduled later (holds _ rfl)
            | .ok .completed =>
                exact Ensures.pure fun _ relies _ _ =>
                  only ((relies id).secured (holds _ rfl).1)
            | .error _ => exact Ensures.pure fun _ _ _ => nofun

theorem safe_onMessage {payload : Except String TaskAssignment}
    (lives : ∀ assignment, payload = .ok assignment → ∀ id, assignment.deliveryId = some id →
      (state id).purged = false ∧ ¬Stale sidecar (state id)) :
    Safe (rules crashes sidecar) .main (sidecar.onMessage payload) (fun _ _ => True) state := by
  refine Safe.bind (ensures_dispatch lives) fun outcome second _ holds => ?_
  match outcome with
  | .error _ => exact fun _ _ _ => trivial
  | .ok action =>
      intro third relies _
      refine ⟨?_, fun _ _ _ _ _ _ => trivial⟩
      cases known : payload.toOption.bind (·.deliveryId) with
      | none => exact trivial
      | some id =>
          cases action with
          | ack => exact ⟨rfl, (relies id).secured (holds _ rfl rfl id known)⟩
          | _ => exact trivial

end Forge.MainSafety
