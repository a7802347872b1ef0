import Forge.InboxDiscipline

/-! The programs of the sidecar keep to the rules: what each needs of its delivery and what it
leaves. -/

namespace Forge.InboxSafety

open Forge.AssignmentInbox
open Forge.DeliveryChanges
open Forge.InboxDiscipline
open Forge.Library.Identifier
open Forge.Library.Interleaving
open Forge.Library.Interleaving.Attempt hiding call
open Forge.Schema

variable {crashes : Bool} {sidecar : Sidecar} {actor : Actor} {state later : Inbox} {id : Uuid}

/-! ## Calls -/

def Owns (actor : Actor) (id : Uuid) : Prop := actor = .main ∨ actor = .task id

theorem later_of_relies (owns : Owns actor id) (relies : Relies crashes sidecar actor state later) :
    Later crashes sidecar (state id) (later id) := by
  rcases owns with rfl | rfl
  · exact (relies id).toLater
  · exact relies.toLater

theorem marks_of_relies (marks : Marks crashes sidecar actor (state id))
    (relies : Relies crashes sidecar actor state later) :
    Marks crashes sidecar actor (later id) := by
  cases actor with
  | main => exact (relies id).condemned marks
  | task other =>
      obtain ⟨rfl, told⟩ := marks
      exact ⟨rfl, relies.told told⟩

theorem later_of_perform {operation : Op} {choice : Choice} {free : Bool} (owns : Owns actor id)
    (sound : Sound crashes sidecar (state id)) (may : May crashes sidecar actor state operation)
    (considered : Considered crashes state operation free)
    (after : Relies crashes sidecar actor (perform state operation choice free).1 later) :
    Later crashes sidecar (state id) (later id) :=
  ((perform_change _ may considered id).later sound).trans (later_of_relies owns after)

theorem turn_of_performed {operation : Op} {reply : Except IoError (Answer operation)}
    (performed : Performed (rules crashes sidecar) actor operation state reply later) :
    ∃ before choice free, Relies crashes sidecar actor state before ∧
      (∀ id, Sound crashes sidecar (before id)) ∧ May crashes sidecar actor before operation ∧
      Considered crashes before operation free ∧
      (perform before operation choice free).2 = reply ∧
      Relies crashes sidecar actor (perform before operation choice free).1 later := by
  obtain ⟨before, choice, free, rely, inv, may, considered, same, after⟩ := performed
  exact ⟨before, choice, free, rely, inv, may, considered, same, after⟩

theorem later_of_performed {operation : Op} {reply : Except IoError (Answer operation)}
    (owns : Owns actor id)
    (performed : Performed (rules crashes sidecar) actor operation state reply later) :
    Later crashes sidecar (state id) (later id) := by
  obtain ⟨before, choice, free, rely, inv, may, considered, _, after⟩ :=
    turn_of_performed performed
  exact (later_of_relies owns rely).trans (later_of_perform owns (inv id) may considered after)

def Quiet (operation : Op) : Prop :=
  ∀ inbox choice free, (perform inbox operation choice free).1 = inbox

theorem access_quiet {α : Type} {inbox : Inbox} {choice : Choice} {reply : Except IoError α} :
    (access inbox choice (inbox, reply)).1 = inbox := by
  rw [access]
  split <;> rfl

theorem access_ok {α : Type} {inbox : Inbox} {choice : Choice} {result : Inbox × Except IoError α}
    {answer : α} (same : (access inbox choice result).2 = .ok answer) :
    access inbox choice result = result ∧ result.2 = .ok answer := by
  rw [access] at same ⊢
  split at same
  · cases same
  · rename_i fine
    exact ⟨if_neg fine, same⟩

theorem access_error {α : Type} {inbox : Inbox} {choice : Choice}
    {result : Inbox × Except IoError α} {err : IoError}
    (same : (access inbox choice result).2 = .error err) (known : err ≠ .other) :
    access inbox choice result = result ∧ result.2 = .error err := by
  rw [access] at same ⊢
  split at same
  · cases same
    exact absurd rfl known
  · rename_i fine
    exact ⟨if_neg fine, same⟩

@[simp] theorem edit_self {inbox : Inbox} {f : Delivery id → Delivery id} :
    inbox.edit id f id = f (inbox id) :=
  Function.update_self id _ inbox

theorem link_ok {inbox : Inbox} {taken : Bool} {f : Delivery id → Delivery id}
    (same : (inbox.link id taken f).2 = .ok ()) : (inbox.link id taken f).1 = inbox.edit id f := by
  cases taken with
  | true => cases same
  | false => rfl

theorem link_error {inbox : Inbox} {taken : Bool} {f : Delivery id → Delivery id} {err : IoError}
    (same : (inbox.link id taken f).2 = .error err) : taken = true := by
  cases taken with
  | true => rfl
  | false => cases same

theorem relies_of_quiet {operation : Op} {reply : Except IoError (Answer operation)}
    (quiet : Quiet operation)
    (performed : Performed (rules crashes sidecar) actor operation state reply later) :
    Relies crashes sidecar actor state later := by
  obtain ⟨before, choice, free, rely, _, _, _, _, after⟩ := turn_of_performed performed
  rw [quiet] at after
  exact (rules crashes sidecar).trans rely after

theorem safe_quiet {operation : Op} (quiet : Quiet operation)
    (may : ∀ inbox, May crashes sidecar actor inbox operation) :
    Safe (rules crashes sidecar) actor (call operation)
      (fun _ later => Relies crashes sidecar actor state later) state :=
  Safe.mono (safe_call fun before _ _ => may before) fun _ _ _ performed =>
    relies_of_quiet quiet performed

theorem ensures_quiet {operation : Op} (quiet : Quiet operation)
    (may : ∀ inbox, May crashes sidecar actor inbox operation) :
    Ensures (rules crashes sidecar) actor (call operation)
      (fun _ later => Relies crashes sidecar actor state later) state :=
  Safe.mono (safe_quiet quiet may) fun _ _ _ relies _ _ => relies

theorem ensures_pathExists {asker : Asker} {dir : Dir} {other : Uuid} :
    Ensures (rules crashes sidecar) actor (pathExists asker dir other)
      (fun found later => ∃ before, Relies crashes sidecar actor state before ∧
        (∀ id, Sound crashes sidecar (before id)) ∧
        (crashes = true → FindsDurable before (.pathExists asker dir other)) ∧
        (before other).present dir = found ∧ Relies crashes sidecar actor before later) state := by
  refine Safe.mono (safe_call fun _ _ _ => trivial) ?_
  rintro _ later _ performed found rfl
  obtain ⟨before, choice, free, rely, inv, _, considered, same, after⟩ :=
    turn_of_performed performed
  rw [perform, access_quiet] at after
  refine ⟨before, rely, inv, considered.2, ?_, after⟩
  exact Except.ok.inj (access_ok same).2

/-! ## Moving files -/

def Lasting (crashes : Bool) (sidecar : Sidecar) (fact : Delivery id → Prop) : Prop :=
  ∀ before after, Later crashes sidecar before after → fact before → fact after

section Moves

variable {linked synced : Delivery id → Prop}

theorem safe_call_lasting (operation : Op) (owns : Owns actor id)
    (lasting : Lasting crashes sidecar synced)
    (may : ∀ inbox : Inbox, synced (inbox id) → May crashes sidecar actor inbox operation)
    (never : ∀ inbox choice free, (perform inbox operation choice free).2 ≠ .error .alreadyExists)
    (now : synced (state id)) :
    Safe (rules crashes sidecar) actor (call operation) (fun outcome later =>
      synced (later id) ∧ outcome ≠ .error .alreadyExists) state := by
  have goes : ∀ before, Relies crashes sidecar actor state before → synced (before id) :=
    fun before relies => lasting _ _ (later_of_relies owns relies) now
  refine Safe.mono (safe_call fun before relies _ => may before (goes before relies)) ?_
  rintro outcome later _ performed
  refine ⟨lasting _ _ (later_of_performed owns performed) now, ?_⟩
  obtain ⟨before, choice, free, _, _, _, _, same, _⟩ := turn_of_performed performed
  exact same ▸ never before choice free

theorem safe_syncDir {dir : Dir} (owns : Owns actor id)
    (linkedLasts : Lasting crashes sidecar linked) (syncedLasts : Lasting crashes sidecar synced)
    (becomes : ∀ delivery, linked delivery → synced (delivery.sync dir))
    (now : linked (state id)) :
    Safe (rules crashes sidecar) actor (call (.syncDir dir))
      (fun outcome later => (outcome = .ok () → synced (later id)) ∧
        outcome ≠ .error .alreadyExists) state := by
  refine Safe.mono (safe_call fun _ _ _ => trivial) ?_
  rintro outcome later _ performed
  obtain ⟨before, choice, free, rely, inv, _, _, same, after⟩ := turn_of_performed performed
  refine ⟨?_, ?_⟩
  · rintro rfl
    rw [perform, (access_ok same).1] at after
    refine syncedLasts _ _ (later_of_relies owns after) (becomes _ ?_)
    exact linkedLasts _ _ (later_of_relies owns rely) now
  · rintro rfl
    cases (access_error same (by decide)).2

theorem safe_moveFile {hardLink removeSource : Io Unit} (target source : Dir)
    (owns : Owns actor id) (linkedLasts : Lasting crashes sidecar linked)
    (syncedLasts : Lasting crashes sidecar synced)
    (becomes : ∀ delivery, linked delivery → synced (delivery.sync target))
    (link : Safe (rules crashes sidecar) actor hardLink (fun outcome later =>
      (∀ value, outcome = .ok value → linked (later id)) ∧
        (outcome = .error .alreadyExists → synced (later id))) state)
    (remove : ∀ inbox : Inbox, synced (inbox id) →
      Safe (rules crashes sidecar) actor removeSource (fun outcome later =>
        synced (later id) ∧ outcome ≠ .error .alreadyExists) inbox) :
    Safe (rules crashes sidecar) actor (moveFile hardLink removeSource target source)
      (fun outcome later => outcome = .ok () ∨ outcome = .error .alreadyExists →
        synced (later id)) state := by
  have lasts : ∀ {before after}, Relies crashes sidecar actor before after →
      synced (before id) → synced (after id) :=
    fun relies => syncedLasts _ _ (later_of_relies owns relies)
  have sync : ∀ {dir : Dir} {inbox : Inbox}, synced (inbox id) →
      Safe (rules crashes sidecar) actor (call (.syncDir dir)) (fun outcome later =>
        synced (later id) ∧ outcome ≠ .error .alreadyExists) inbox :=
    fun now => safe_call_lasting _ owns syncedLasts (fun _ _ => trivial) (by
      rintro before choice free same
      cases (access_error same (by decide)).2) now
  refine safe_bind link (fun _ second _ linked => ?_) ?_
  · refine safe_bind (safe_syncDir owns linkedLasts syncedLasts becomes (linked.1 () rfl))
      (fun _ third _ synced => ?_) ?_
    · refine safe_bind (remove third (synced.1 rfl)) (fun _ fourth _ removed => ?_) ?_
      · refine safe_bind (sync removed.1) (fun _ fifth _ synced => ?_) ?_
        · by_cases apart : source ≠ target
          · rw [if_pos apart]
            exact Safe.mono (sync synced.1) fun _ _ _ holds _ => holds.1
          · rw [if_neg apart]
            exact fun later relies _ _ => lasts relies synced.1
        · rintro err before later relies _ ⟨_, other⟩ (same | same)
          · cases same
          · cases same
            exact absurd rfl other
      · rintro err before later relies _ ⟨_, other⟩ (same | same)
        · cases same
        · cases same
          exact absurd rfl other
    · rintro err before later relies _ ⟨_, other⟩ (same | same)
      · cases same
      · cases same
        exact absurd rfl other
  · rintro err before later relies _ ⟨_, exists_⟩ (same | same)
    · cases same
    · cases same
      exact lasts relies (exists_ rfl)

end Moves

/-! ## Tombstones -/

theorem done_lasting : Lasting crashes sidecar (Done crashes : Delivery id → Prop) :=
  fun _ _ later => later.done

theorem seen_lasting : Lasting crashes sidecar (Seen : Delivery id → Prop) :=
  fun _ _ later => later.seen

theorem perform_linkTombstone {inbox : Inbox} {modified : Timestamp} {choice : Choice}
    (free : Bool) :
    ((perform inbox (.linkTombstone id modified) choice free).2 = .ok () →
      Seen ((perform inbox (.linkTombstone id modified) choice free).1 id)) ∧
    ((perform inbox (.linkTombstone id modified) choice free).2 = .error .alreadyExists →
      (inbox id).completed.present = true) := by
  refine ⟨fun same => ?_, fun same => link_error (access_error same (by decide)).2⟩
  obtain ⟨fine, same⟩ := access_ok same
  rw [perform, fine, link_ok same, edit_self]
  exact .inl rfl

theorem perform_linkCompleted {inbox : Inbox} {choice : Choice} {free : Bool} :
    ((perform inbox (.linkCompleted id) choice free).2 = .ok () →
      Seen ((perform inbox (.linkCompleted id) choice free).1 id)) ∧
    ((perform inbox (.linkCompleted id) choice free).2 = .error .alreadyExists →
      (inbox id).completed.present = true) := by
  rw [perform]
  cases (inbox id).pending.current with
  | none =>
      refine ⟨fun same => ?_, fun same => ?_⟩
      · cases (access_ok same).2
      · cases (access_error same (by decide)).2
  | some file => exact perform_linkTombstone free

theorem safe_tombstone (operation : Op) (owns : Owns actor id)
    (may : ∀ inbox : Inbox, Marks crashes sidecar actor (inbox id) →
      May crashes sidecar actor inbox operation)
    (turns : ∀ inbox choice free, (∀ value, (perform inbox operation choice free).2 = .ok value →
        Seen ((perform inbox operation choice free).1 id)) ∧
      ((perform inbox operation choice free).2 = .error .alreadyExists →
        (inbox id).completed.present = true))
    (durable : ∀ inbox, FindsDurable inbox operation → (inbox id).completed.present = true →
      (inbox id).completed.Firm)
    (marks : Marks crashes sidecar actor (state id)) :
    Safe (rules crashes sidecar) actor (call operation) (fun outcome later =>
      (∀ value, outcome = .ok value → Seen (later id)) ∧
        (outcome = .error .alreadyExists → Done crashes (later id))) state := by
  refine Safe.mono (safe_call fun before relies _ => may before (marks_of_relies marks relies)) ?_
  rintro outcome later _ performed
  obtain ⟨before, choice, free, rely, inv, may, considered, same, after⟩ :=
    turn_of_performed performed
  refine ⟨fun value found => ?_, fun found => ?_⟩
  · refine (later_of_relies owns after).seen ?_
    exact (turns before choice free).1 value (same.trans found)
  · refine (later_of_perform owns (inv id) may considered after).done ?_
    have present := (turns before choice free).2 (same.trans found)
    exact .inl ⟨present, fun counts => durable before (considered.2 counts) present⟩

theorem removeFile_never {dir : Dir} {inbox : Inbox} {choice : Choice} {free : Bool} :
    (perform inbox (.removeFile dir id) choice free).2 ≠ .error .alreadyExists := by
  intro same
  have same := (access_error same (by decide)).2
  split at same <;> cases same

theorem removeTemp_never {dir : Dir} {inbox : Inbox} {choice : Choice} {free : Bool} :
    (perform inbox (.removeTemp dir id) choice free).2 ≠ .error .alreadyExists := by
  intro same
  cases (access_error same (by decide)).2

theorem ensures_settled {program : Io Unit} {fact : Delivery id → Prop} (owns : Owns actor id)
    (lasting : Lasting crashes sidecar fact)
    (safe : Safe (rules crashes sidecar) actor program (fun outcome later =>
      outcome = .ok () ∨ outcome = .error .alreadyExists → fact (later id)) state) :
    Ensures (rules crashes sidecar) actor program.observe (fun outcome later =>
      outcome = .ok () ∨ outcome = .error .alreadyExists → fact (later id)) state :=
  Ensures.observe safe fun _ _ _ relies _ holds settled =>
    lasting _ _ (later_of_relies owns relies) (holds settled)

theorem ensures_pure {α : Type} {value : α} {fact : Delivery id → Prop} (owns : Owns actor id)
    (lasting : Lasting crashes sidecar fact) (now : fact (state id)) :
    Ensures (rules crashes sidecar) actor (pure value : Io α) (fun _ later => fact (later id))
      state :=
  Ensures.pure fun _ relies _ => lasting _ _ (later_of_relies owns relies) now

theorem ensures_movePending (owns : Owns actor id)
    (marks : Marks crashes sidecar actor (state id)) :
    Ensures (rules crashes sidecar) actor (movePending id)
      (fun _ later => Done crashes (later id)) state := by
  have moved := safe_moveFile .completed .pending owns seen_lasting done_lasting
    (fun _ => Seen.sync)
    (safe_tombstone (.linkCompleted id) owns (fun _ marks => marks)
      (fun _ _ _ => ⟨fun _ => perform_linkCompleted.1, perform_linkCompleted.2⟩)
      (fun _ durable => durable) marks)
    (fun _ => safe_call_lasting (.removeFile .pending id) owns done_lasting (fun _ done => done)
      fun _ _ _ => removeFile_never)
  refine Ensures.bind (ensures_settled owns done_lasting moved) fun outcome later _ settled => ?_
  match outcome with
  | .ok () => exact ensures_pure owns done_lasting (settled (.inl rfl))
  | .error .alreadyExists => exact ensures_pure owns done_lasting (settled (.inr rfl))
  | .error .notFound => exact Ensures.fail _
  | .error .other => exact Ensures.fail _

def Cleared (crashes : Bool) (actor : Actor) (delivery : Delivery id) : Prop :=
  Done crashes delivery ∧ (actor = .main → delivery.pending.current = none)

theorem cleared_of_relies (owns : Owns actor id) (cleared : Cleared crashes actor (state id))
    (relies : Relies crashes sidecar actor state later) : Cleared crashes actor (later id) := by
  refine ⟨(later_of_relies owns relies).done cleared.1, ?_⟩
  rintro rfl
  exact (relies id).absent (cleared.2 rfl)

theorem ensures_syncDir_cleared {dir : Dir} (owns : Owns actor id)
    (cleared : Cleared crashes actor (state id)) :
    Ensures (rules crashes sidecar) actor (call (.syncDir dir))
      (fun _ later => Cleared crashes actor (later id)) state := by
  refine Safe.mono (safe_call fun _ _ _ => trivial) ?_
  rintro _ later _ performed _ rfl
  obtain ⟨before, choice, free, rely, inv, _, _, same, after⟩ := turn_of_performed performed
  rw [perform, (access_ok same).1] at after
  refine cleared_of_relies owns ?_ after
  have cleared := cleared_of_relies owns cleared rely
  cases dir with
  | completed => exact ⟨cleared.1.seen.sync, cleared.2⟩
  | _ => exact cleared

theorem perform_removeFile {dir : Dir} {inbox : Inbox} {choice : Choice} {free : Bool}
    (known : (perform inbox (.removeFile dir id) choice free).2 ≠ .error .other) :
    (perform inbox (.removeFile dir id) choice free).1 id = (inbox id).unlink dir ∨
      (perform inbox (.removeFile dir id) choice free).1 id = inbox id ∧
        (inbox id).present dir = false := by
  rw [perform, access] at known ⊢
  by_cases fails : choice.fails = true
  · rw [if_pos fails] at known
    exact absurd rfl known
  · rw [if_neg fails]
    cases present : (inbox id).present dir with
    | true => exact .inl (Function.update_self id _ inbox)
    | false => exact .inr ⟨rfl, rfl⟩

theorem safe_removePending (owns : Owns actor id) (done : Done crashes (state id)) :
    Safe (rules crashes sidecar) actor (call (.removeFile .pending id)) (fun outcome later =>
      outcome ≠ .error .other → Cleared crashes actor (later id)) state := by
  refine Safe.mono (safe_call fun _ relies _ => (later_of_relies owns relies).done done) ?_
  rintro outcome later _ performed known
  have lasts := (later_of_performed owns performed).done done
  obtain ⟨before, choice, free, rely, inv, may, considered, same, after⟩ :=
    turn_of_performed performed
  refine ⟨lasts, ?_⟩
  rintro rfl
  refine (after id).absent ?_
  rcases perform_removeFile (same ▸ known) with moved | ⟨moved, absent⟩
  · rw [moved]
    rfl
  · rw [moved]
    exact Option.not_isSome_iff_eq_none.mp (Bool.eq_false_iff.mp absent)

theorem safe_removeResult (owns : Owns actor id) (cleared : Cleared crashes actor (state id)) :
    Safe (rules crashes sidecar) actor (call (.removeFile .results id)) (fun outcome later =>
      outcome ≠ .error .other → Cleared crashes actor (later id)) state := by
  refine Safe.mono (safe_call fun _ relies _ => (later_of_relies owns relies).done cleared.1) ?_
  rintro outcome later _ performed known
  have lasts := (later_of_performed owns performed).done cleared.1
  obtain ⟨before, choice, free, rely, inv, may, considered, same, after⟩ :=
    turn_of_performed performed
  refine cleared_of_relies owns ⟨?_, ?_⟩ after
  · exact (perform_change _ may considered id).done ((later_of_relies owns rely).done cleared.1)
  · have absent := (cleared_of_relies owns cleared rely).2
    rcases perform_removeFile (same ▸ known) with moved | ⟨moved, _⟩
    · rw [moved]
      exact absent
    · rw [moved]
      exact absent

theorem ensures_removeIfPresent {dir : Dir} {remove : Io Unit} {fact : Delivery id → Prop}
    (stable : ∀ before after, Relies crashes sidecar actor before after → fact (before id) →
      fact (after id))
    (sync : ∀ inbox : Inbox, fact (inbox id) → Ensures (rules crashes sidecar) actor
      (call (.syncDir dir)) (fun _ later => fact (later id)) inbox)
    (safe : Safe (rules crashes sidecar) actor remove (fun outcome later =>
      outcome ≠ .error .other → fact (later id)) state) :
    Ensures (rules crashes sidecar) actor (removeIfPresent remove dir)
      (fun _ later => fact (later id)) state := by
  have observed := Ensures.observe safe fun _ before after relies _ holds known =>
    stable before after relies (holds known)
  refine Ensures.bind observed fun outcome later _ holds => ?_
  match outcome with
  | .ok () => exact sync later (holds (by simp))
  | .error .notFound =>
      exact Ensures.pure fun after relies _ => stable later after relies (holds (by simp))
  | .error .alreadyExists => exact Ensures.fail _
  | .error .other => exact Ensures.fail _

theorem ensures_call_lasting (operation : Op) {fact : Delivery id → Prop} (owns : Owns actor id)
    (lasting : Lasting crashes sidecar fact)
    (may : ∀ inbox : Inbox, fact (inbox id) → May crashes sidecar actor inbox operation)
    (now : fact (state id)) :
    Ensures (rules crashes sidecar) actor (call operation) (fun _ later => fact (later id))
      state := by
  have goes : ∀ before, Relies crashes sidecar actor state before → fact (before id) :=
    fun before relies => lasting _ _ (later_of_relies owns relies) now
  refine Safe.mono (safe_call fun before relies _ => may before (goes before relies)) ?_
  rintro outcome later _ performed _ _
  exact lasting _ _ (later_of_performed owns performed) now

theorem ensures_writeTombstone (owns : Owns actor id)
    (marks : Marks crashes sidecar actor (state id)) :
    Ensures (rules crashes sidecar) actor (writeTombstone id)
      (fun _ later => Done crashes (later id)) state := by
  refine Ensures.bind (ensures_quiet (fun _ _ _ => access_quiet) fun _ => trivial)
    fun modified second _ relies => ?_
  have marks := marks_of_relies marks relies
  have moved := safe_moveFile .completed .completed owns seen_lasting done_lasting
    (fun _ => Seen.sync)
    (safe_tombstone (.linkTombstone id modified) owns (fun _ marks => marks)
      (fun _ _ _ => ⟨fun _ => (perform_linkTombstone _).1, (perform_linkTombstone _).2⟩)
      (fun _ durable => durable) marks)
    (fun _ => safe_call_lasting (.removeTemp .completed id) owns done_lasting
      (fun _ _ => trivial) fun _ _ _ => removeTemp_never)
  refine Ensures.bind (ensures_settled owns done_lasting moved) fun outcome later _ settled => ?_
  match outcome with
  | .ok () => exact ensures_pure owns done_lasting (settled (.inl rfl))
  | .error .alreadyExists =>
      refine ensures_removeIfPresent
        (fun _ _ relies => (later_of_relies owns relies).done)
        (fun _ => ensures_call_lasting _ owns done_lasting fun _ _ => trivial) ?_
      exact Safe.mono (safe_call_lasting (.removeTemp .completed id) owns done_lasting
        (fun _ _ => trivial) (fun _ _ _ => removeTemp_never) (settled (.inr rfl)))
        fun _ _ _ holds _ => holds.1
  | .error .notFound => exact Ensures.fail _
  | .error .other => exact Ensures.fail _

theorem ensures_commitTombstone (owns : Owns actor id)
    (marks : Marks crashes sidecar actor (state id)) :
    Ensures (rules crashes sidecar) actor (commitTombstone id)
      (fun _ later => Done crashes (later id)) state := by
  refine Ensures.bind ensures_pathExists ?_
  rintro found second _ ⟨before, rely, _, durable, same, after⟩
  cases found with
  | true =>
      have done : Done crashes (before id) := .inl ⟨same, fun counts => durable counts same⟩
      exact ensures_pure owns done_lasting ((later_of_relies owns after).done done)
  | false =>
      have marks := marks_of_relies (marks_of_relies marks rely) after
      refine Ensures.bind ensures_pathExists ?_
      rintro found third _ ⟨before, rely, _, _, _, after⟩
      have marks := marks_of_relies (marks_of_relies marks rely) after
      cases found with
      | true => exact ensures_movePending owns marks
      | false => exact ensures_writeTombstone owns marks

theorem ensures_markCompleted (owns : Owns actor id)
    (marks : Marks crashes sidecar actor (state id)) :
    Ensures (rules crashes sidecar) actor (markCompleted id)
      (fun _ later => Cleared crashes actor (later id)) state := by
  have stable : ∀ before after : Inbox, Relies crashes sidecar actor before after →
      Cleared crashes actor (before id) → Cleared crashes actor (after id) :=
    fun _ _ relies cleared => cleared_of_relies owns cleared relies
  have sync : ∀ {dir : Dir} (inbox : Inbox), Cleared crashes actor (inbox id) →
      Ensures (rules crashes sidecar) actor (call (.syncDir dir))
        (fun _ later => Cleared crashes actor (later id)) inbox :=
    fun _ cleared => ensures_syncDir_cleared owns cleared
  refine Ensures.bind (ensures_quiet (fun _ _ _ => access_quiet) fun _ => trivial)
    fun _ second _ relies => ?_
  refine Ensures.bind (ensures_commitTombstone owns (marks_of_relies marks relies))
    fun _ third _ done => ?_
  refine Ensures.bind (ensures_removeIfPresent stable sync (safe_removePending owns done))
    fun _ fourth _ cleared => ?_
  exact ensures_removeIfPresent stable sync (safe_removeResult owns cleared)

end Forge.InboxSafety
