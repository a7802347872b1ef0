import Forge.Library.History
import Forge.SkillEffects

/-! The history of the skills: each revision of a skill keeps the row that it replaces. -/

namespace Forge.SkillHistory

open Forge.Library.History
open Forge.Library.Identifier
open Forge.Schema (Timestamp)
open Forge.SkillDomain
open Forge.SkillEffects
open Forge.SkillService

/-- The columns of a skill that are governed. -/
structure Governed where
  content : String
  state : State
  enabled : Bool
  scopeKind : Option SkillScopeKind
  scopeId : Option Uuid
  sensitivity : Sensitivity
  ttlExpiresAt : Option Timestamp
  revokedAt : Option Timestamp
deriving DecidableEq

def governed (skill : Skill) : Governed :=
  ⟨skill.content, skill.state, skill.enabled, skill.scopeKind, skill.scopeId, skill.sensitivity,
    skill.ttlExpiresAt, skill.revokedAt⟩

/-- The constraint `skills_revoked_state_check`. -/
def Marked (skill : Skill) : Prop :=
  (skill.state = .revoked ↔ skill.revokedAt.isSome) ∧ (skill.state = .revoked → skill.enabled = false)

/-- The rows of `skill_versions` that are about a skill. -/
def history (tables : Tables) (id : Uuid) : List SkillVersion :=
  tables.versions.filter fun row => row.skillId = id

/-- The tables before any request is served. -/
structure Initial (start : Tables) : Prop where
  keyed : ∀ id skill, start.skills id = some skill → skill.id = id
  first : ∀ id skill, start.skills id = some skill → skill.version = 1
  marked : ∀ id skill, start.skills id = some skill → Marked skill
  unrecorded : start.versions = []

section Runs

variable (classify : String → Sensitivity)

def after (start : Tables) (calls : List Call) : Tables :=
  calls.foldl (fun tables call => (handle classify tables call).2) start

/-- What the history of the skills is to say, after any number of the requests. -/
structure Recorded (start : Tables) (calls : List Call) : Prop where
  /-- There is one snapshot of each earlier version, and no other. -/
  contiguous : ∀ n id skill, (after classify start (calls.take n)).skills id = some skill →
    (history (after classify start (calls.take n)) id).map SkillVersion.version
      = List.range' 1 (skill.version - 1)
  /-- A snapshot is the row that stood at its version, whenever it stood at it. -/
  stood : ∀ n id, ∀ row ∈ history (after classify start (calls.take n)) id,
    row.snapshot.version = row.version
      ∧ (∃ m ≤ n, (after classify start (calls.take m)).skills id = some row.snapshot)
      ∧ ∀ m ≤ n, ∀ skill, (after classify start (calls.take m)).skills id = some skill →
        skill.version = row.version → skill = row.snapshot
  /-- What is governed changes only with the version. -/
  counted : ∀ n id skill next, (after classify start (calls.take n)).skills id = some skill →
    (after classify start (calls.take (n + 1))).skills id = some next →
    governed next ≠ governed skill → next.version = skill.version + 1
  restored : ∀ n call id input, calls[n]? = some call → call.request = .restoreVersion id input →
    (handle classify (after classify start (calls.take n)) call).1 = .ok () →
    ∃ skill row next, (after classify start (calls.take n)).skills id = some skill
      ∧ row ∈ history (after classify start (calls.take n)) id ∧ (row.version : Int) = input.version
      ∧ (after classify start (calls.take (n + 1))).skills id = some next
      ∧ governed next = governed row.snapshot ∧ next.version = skill.version + 1
  refused : ∀ n call refusal, calls[n]? = some call →
    (handle classify (after classify start (calls.take n)) call).1 = .error refusal →
    (after classify start (calls.take (n + 1))).skills = (after classify start (calls.take n)).skills
      ∧ (after classify start (calls.take (n + 1))).versions
        = (after classify start (calls.take n)).versions

end Runs

/-- What every request preserves. -/
structure Sound (tables : Tables) : Prop where
  keyed : ∀ id skill, tables.skills id = some skill → skill.id = id
  marked : ∀ id skill, tables.skills id = some skill → Marked skill
  labelled : ∀ row ∈ tables.versions, row.snapshot.id = row.skillId
    ∧ row.snapshot.version = row.version ∧ Marked row.snapshot
  known : ∀ row ∈ tables.versions, (tables.skills row.skillId).isSome

section Soundness

variable {classify : String → Sensitivity} {tables : Tables} {call : Call}

theorem Initial.sound {start : Tables} (initial : Initial start) : Sound start where
  keyed := initial.keyed
  marked := initial.marked
  labelled := by simp [initial.unrecorded]
  known := by simp [initial.unrecorded]

theorem Marked.revokedAt {skill : Skill} (marked : Marked skill) (live : skill.state ≠ .revoked) :
    skill.revokedAt = none := by
  rw [← Option.not_isSome_iff_eq_none, ← marked.1]
  exact live

theorem Marked.live {skill : Skill} (marked : Marked skill) (unrevoked : skill.revokedAt = none) :
    skill.state ≠ .revoked := by
  rw [Ne, marked.1, unrevoked]
  simp

theorem marked_of_live {skill : Skill} (live : skill.state ≠ .revoked)
    (unrevoked : skill.revokedAt = none) : Marked skill :=
  ⟨by simp [live, unrevoked], fun revoked => absurd revoked live⟩

theorem Sound.revision_marked {current skill : Skill} (sound : Sound tables)
    (revision : Revision classify tables call current skill) : Marked skill := by
  obtain ⟨id, found⟩ := revision.found
  have unrevoked := (sound.marked id current found).revokedAt revision.live
  cases revision with
  | updated id input prepared change skill request locked live permitted planned row =>
      obtain ⟨_, _, revokedAt, state, _⟩ := updateRow_eq_ok row
      refine marked_of_live ?_ (revokedAt.trans unrevoked)
      rw [state]
      cases changed : change.state with
      | none => exact live
      | some state =>
          rintro rfl
          exact nextState_ne_revoked planned changed
  | revoked id skill request locked live row =>
      obtain ⟨_, _, revokedAt, state, enabled⟩ := revokeRow_eq_ok row
      exact ⟨by simp [revokedAt, state], fun _ => enabled⟩
  | restored id input snapshot version request locked live permitted stored restorable =>
      obtain ⟨row, member, _, _, rfl⟩ := snapshotForVersion_eq_ok stored
      obtain ⟨_, _, marked⟩ := sound.labelled row member
      exact marked_of_live restorable (marked.revokedAt restorable)
  | promoted _ _ _ _ _ _ _ _ _ _ _ _ row =>
      obtain ⟨_, _, _, _, revokedAt, state⟩ := promoteRow_eq_ok row
      exact marked_of_live (by simp [state]) revokedAt

theorem silence_marked {current : Skill} {now : Timestamp} : Marked (silence now current) :=
  ⟨by simp [silence], fun _ => rfl⟩

theorem found_update {skills : Uuid → Option Skill} {skill other : Skill} {id : Uuid}
    (found : Function.update skills skill.id (some skill) id = some other) :
    (id = skill.id ∧ other = skill) ∨ (id ≠ skill.id ∧ skills id = some other) := by
  by_cases same : id = skill.id
  · subst same
    rw [Function.update_self] at found
    exact .inl ⟨rfl, (Option.some.inj found).symm⟩
  · rw [Function.update_of_ne same] at found
    exact .inr ⟨same, found⟩

theorem Sound.write {next : Tables} {skill : Skill} {rows : List SkillVersion} (sound : Sound tables)
    (marked : Marked skill)
    (skills : next.skills = Function.update tables.skills skill.id (some skill))
    (versions : next.versions = tables.versions ++ rows)
    (labelled : ∀ row ∈ rows, row.skillId = skill.id ∧ row.snapshot.id = row.skillId
      ∧ row.snapshot.version = row.version ∧ Marked row.snapshot) : Sound next where
  keyed := by
    intro id other found
    rw [skills] at found
    rcases found_update found with ⟨rfl, rfl⟩ | ⟨_, found⟩
    · rfl
    · exact sound.keyed id other found
  marked := by
    intro id other found
    rw [skills] at found
    rcases found_update found with ⟨_, rfl⟩ | ⟨_, found⟩
    · exact marked
    · exact sound.marked id other found
  labelled := by
    intro row member
    rw [versions] at member
    rcases List.mem_append.mp member with member | member
    · exact sound.labelled row member
    · exact (labelled row member).2
  known := by
    intro row member
    rw [versions] at member
    rw [skills]
    by_cases same : row.skillId = skill.id
    · rw [same, Function.update_self]
      rfl
    · rw [Function.update_of_ne same]
      rcases List.mem_append.mp member with member | member
      · exact sound.known row member
      · exact absurd (labelled row member).1 same

theorem Sound.of_eq {next : Tables} (sound : Sound tables) (skills : next.skills = tables.skills)
    (versions : next.versions = tables.versions) : Sound next where
  keyed := skills ▸ sound.keyed
  marked := skills ▸ sound.marked
  labelled := versions ▸ sound.labelled
  known := by
    rw [skills, versions]
    exact sound.known

theorem Sound.handled (sound : Sound tables) : Sound (handle classify tables call).2 := by
  have effect := handle_effect classify tables call
  generalize handle classify tables call = done at effect
  cases effect with
  | refused refusal next skills versions => exact sound.of_eq skills versions
  | aside next skills versions => exact sound.of_eq skills versions
  | created id scopeId input state skill request fresh isId first unrevoked stated =>
      have live : skill.state ≠ .revoked := by
        rw [stated]
        cases state <;> simp [SkillState.label]
      have versions : (writeSkill tables skill).versions = tables.versions ++ [] :=
        (List.append_nil _).symm
      exact sound.write (marked_of_live live unrevoked) rfl versions (by simp)
  | revised current skill recorded next revision recording skills versions =>
      obtain ⟨id, found⟩ := revision.found
      obtain rfl := insertSnapshot_eq_ok recording
      refine sound.write (sound.revision_marked revision) skills versions ?_
      intro row member
      obtain rfl := List.mem_singleton.mp member
      exact ⟨revision.id_eq.symm, rfl, rfl, sound.marked id current found⟩
  | silenced current next silences skills versions =>
      have versions : next.versions = tables.versions ++ [] := by simp [versions]
      exact sound.write silence_marked skills versions (by simp)

theorem Sound.after {start : Tables} (sound : Sound start) (calls : List Call) :
    Sound (after classify start calls) := by
  induction calls generalizing start with
  | nil => exact sound
  | cons call rest ih => exact ih sound.handled

end Soundness

section Histories

variable {classify : String → Sensitivity} {tables : Tables} {call : Call}

theorem Sound.found_of_silences {current : Skill} (sound : Sound tables)
    (silences : Silences tables call current) :
    tables.skills current.id = some current ∧ current.state ≠ .revoked := by
  obtain ⟨input, proof, workspaceId, status, _, _, _, _, _, _, locked, unrevoked, _⟩ := silences
  have found := lockForFeedback_eq_ok locked
  have live := (sound.marked _ _ found).live unrevoked
  rw [← sound.keyed _ _ found] at found
  exact ⟨found, live⟩

def entry (tables : Tables) (id : Uuid) : Entry Skill :=
  ⟨tables.skills id, (history tables id).map SkillVersion.snapshot⟩

theorem history_append {next : Tables} {rows : List SkillVersion} {id : Uuid}
    (versions : next.versions = tables.versions ++ rows) :
    history next id = history tables id ++ rows.filter fun row => row.skillId = id := by
  rw [history, versions, List.filter_append]
  rfl

theorem entry_eq {next : Tables} {id : Uuid} (skills : next.skills id = tables.skills id)
    (recorded : history next id = history tables id) : entry next id = entry tables id := by
  rw [entry, skills, recorded]
  rfl

theorem Sound.history_nil {id : Uuid} (sound : Sound tables) (fresh : tables.skills id = none) :
    history tables id = [] := by
  refine List.filter_eq_nil_iff.mpr fun row member same => ?_
  have known := sound.known row member
  rw [of_decide_eq_true same, fresh] at known
  cases known

theorem entry_other {next : Tables} {skill : Skill} {rows : List SkillVersion} {id : Uuid}
    (other : id ≠ skill.id) (skills : next.skills = Function.update tables.skills skill.id (some skill))
    (versions : next.versions = tables.versions ++ rows)
    (about : ∀ row ∈ rows, row.skillId = skill.id) : entry next id = entry tables id := by
  refine entry_eq ?_ ?_
  · rw [skills, Function.update_of_ne other]
  · rw [history_append versions]
    have none : (rows.filter fun row => row.skillId = id) = [] := by
      refine List.filter_eq_nil_iff.mpr fun row member same => other ?_
      rw [← of_decide_eq_true same, about row member]
    rw [none, List.append_nil]

theorem entry_self {next : Tables} {skill : Skill} {rows : List SkillVersion}
    (skills : next.skills = Function.update tables.skills skill.id (some skill))
    (versions : next.versions = tables.versions ++ rows)
    (about : ∀ row ∈ rows, row.skillId = skill.id) :
    entry next skill.id = ⟨some skill,
      (history tables skill.id).map SkillVersion.snapshot ++ rows.map SkillVersion.snapshot⟩ := by
  have all : (rows.filter fun row => row.skillId = skill.id) = rows :=
    List.filter_eq_self.mpr fun row member => decide_eq_true (about row member)
  rw [entry, skills, Function.update_self, history_append versions, all, List.map_append]

theorem Sound.entry_step (sound : Sound tables) (id : Uuid) :
    Step Skill.version (fun skill => skill.state = .revoked) (entry tables id)
      (entry (handle classify tables call).2 id) := by
  have effect := handle_effect classify tables call
  generalize handle classify tables call = done at effect
  cases effect with
  | refused refusal next skills versions =>
      rw [entry_eq (congrFun skills id) (by rw [history, versions]; rfl)]
      exact .kept _
  | aside next skills versions =>
      rw [entry_eq (congrFun skills id) (by rw [history, versions]; rfl)]
      exact .kept _
  | created newId scopeId input state skill request fresh isId first =>
      have versions : (writeSkill tables skill).versions = tables.versions ++ [] :=
        (List.append_nil _).symm
      by_cases same : id = skill.id
      · subst same
        rw [isId.symm] at fresh
        rw [entry_self rfl versions (by simp), entry, sound.history_nil fresh, fresh]
        exact .opened skill first
      · rw [entry_other same rfl versions (by simp)]
        exact .kept _
  | revised current skill recorded next revision recording skills versions =>
      obtain ⟨lockedId, found⟩ := revision.found
      obtain rfl := sound.keyed lockedId current found
      obtain rfl := insertSnapshot_eq_ok recording
      have skills : next.skills = Function.update tables.skills skill.id (some skill) := skills
      have versions : next.versions = tables.versions
        ++ [⟨current.id, current.version, current, call.scope.userId⟩] := versions
      have about : ∀ row ∈ [(⟨current.id, current.version, current, call.scope.userId⟩ :
          SkillVersion)], row.skillId = skill.id := by
        simp [revision.id_eq]
      by_cases same : id = skill.id
      · subst same
        rw [entry_self skills versions about, entry, revision.id_eq, found]
        exact .revised current skill _ revision.live revision.version_eq
      · rw [entry_other same skills versions about]
        exact .kept _
  | silenced current next silences skills versions =>
      obtain ⟨found, live⟩ := sound.found_of_silences silences
      have skills : next.skills = Function.update tables.skills (silence call.now current).id
        (some (silence call.now current)) := skills
      have versions : next.versions = tables.versions ++ [] := by simp [versions]
      by_cases same : id = current.id
      · subst same
        rw [entry, found]
        have silenced := entry_self skills versions (by simp)
        rw [List.map_nil, List.append_nil] at silenced
        exact silenced ▸ .closing current (silence call.now current) _ live rfl rfl
      · have other : id ≠ (silence call.now current).id := same
        rw [entry_other other skills versions (by simp)]
        exact .kept _

theorem Sound.counted (sound : Sound tables) (speaks : ∀ current, ¬ Silences tables call current)
    {id : Uuid} {skill next : Skill} (before : tables.skills id = some skill)
    (now : (handle classify tables call).2.skills id = some next) :
    next = skill ∨ next.version = skill.version + 1 := by
  have effect := handle_effect classify tables call
  generalize handle classify tables call = done at effect now
  cases effect with
  | refused refusal tables' skills =>
      rw [show tables'.skills id = some skill from skills ▸ before] at now
      exact .inl (Option.some.inj now).symm
  | aside tables' skills =>
      rw [show tables'.skills id = some skill from skills ▸ before] at now
      exact .inl (Option.some.inj now).symm
  | created newId scopeId input state created request fresh isId =>
      rcases found_update now with ⟨rfl, rfl⟩ | ⟨_, now⟩
      · rw [isId, fresh] at before
        cases before
      · rw [before] at now
        exact .inl (Option.some.inj now).symm
  | revised current revisedSkill recorded tables' revision recording skills =>
      obtain ⟨lockedId, found⟩ := revision.found
      obtain rfl := sound.keyed lockedId current found
      obtain rfl := insertSnapshot_eq_ok recording
      rw [skills] at now
      rcases found_update now with ⟨rfl, rfl⟩ | ⟨_, now⟩
      · rw [revision.id_eq, found] at before
        obtain rfl := Option.some.inj before
        exact .inr revision.version_eq
      · rw [show tables.skills id = some next from now] at before
        exact .inl (Option.some.inj before)
  | silenced current tables' silences => exact absurd silences (speaks current)

theorem Sound.silenced {current : Skill} (sound : Sound tables)
    (silences : Silences tables call current) :
    tables.skills current.id = some current
      ∧ (handle classify tables call).2.skills current.id = some (silence call.now current)
      ∧ governed (silence call.now current) ≠ governed current := by
  obtain ⟨found, live⟩ := sound.found_of_silences silences
  refine ⟨found, ?_, fun same => live (congrArg Governed.state same).symm⟩
  rw [handle_of_silences silences, Function.update_self]

theorem restored_row (sound : Sound tables) {id : Uuid} {input : RestoreSkillVersionInput}
    (request : call.request = .restoreVersion id input)
    (served : (handle classify tables call).1 = .ok ()) :
    ∃ skill row next, tables.skills id = some skill ∧ row ∈ history tables id
      ∧ (row.version : Int) = input.version
      ∧ (handle classify tables call).2.skills id = some next
      ∧ governed next = governed row.snapshot ∧ next.version = skill.version + 1 := by
  have effect := handle_effect classify tables call
  generalize handle classify tables call = done at effect served
  cases effect with
  | refused => cases served
  | aside _ _ _ asked => simp [request] at asked
  | created _ _ _ _ _ asked => simp [request] at asked
  | silenced current _ silences =>
      obtain ⟨_, _, _, _, asked, _⟩ := silences
      rw [request] at asked
      cases asked
  | revised current skill recorded next revision recording skills =>
      have version_eq := revision.version_eq
      cases revision with
      | updated _ _ _ _ _ asked => simp [request] at asked
      | revoked _ _ asked => simp [request] at asked
      | promoted _ _ _ _ _ _ _ asked => simp [request] at asked
      | restored lockedId other snapshot version asked locked live permitted stored =>
          rw [request] at asked
          obtain ⟨rfl, rfl⟩ := Request.restoreVersion.inj asked
          have found := lockOrgSkill_eq_ok locked
          obtain ⟨row, member, about, numbered, rfl⟩ := snapshotForVersion_eq_ok stored
          have same := sound.keyed id current found
          obtain rfl := insertSnapshot_eq_ok recording
          refine ⟨current, row, restoreRow call.now current row.snapshot version, found, ?_, numbered,
            ?_, rfl, version_eq⟩
          · exact List.mem_filter.mpr ⟨member, decide_eq_true (about.trans same)⟩
          · rw [skills, ← same]
            exact Function.update_self ..

theorem refused_rows {refusal : ErrorKind} (refused : (handle classify tables call).1 = .error refusal) :
    (handle classify tables call).2.skills = tables.skills
      ∧ (handle classify tables call).2.versions = tables.versions := by
  have effect := handle_effect classify tables call
  generalize handle classify tables call = done at effect refused
  cases effect with
  | refused other next skills versions => exact ⟨skills, versions⟩
  | aside => cases refused
  | created => cases refused
  | revised => cases refused
  | silenced => cases refused

end Histories

section Main

variable {classify : String → Sensitivity} {start tables : Tables} {calls : List Call}

theorem after_succ {n : Nat} {call : Call} (next : calls[n]? = some call) :
    after classify start (calls.take (n + 1))
      = (handle classify (after classify start (calls.take n)) call).2 := by
  rw [List.take_add_one, next, after, List.foldl_append]
  rfl

theorem after_of_none {n : Nat} (next : calls[n]? = none) :
    after classify start (calls.take (n + 1)) = after classify start (calls.take n) := by
  rw [List.take_add_one, next]
  simp

theorem entry_faithful (initial : Initial start) (id : Uuid) (n : Nat) :
    Faithful Skill.version (fun skill => skill.state = .revoked)
      (fun n => entry (after classify start (calls.take n)) id) n := by
  have unrecorded : history start id = [] := by simp [history, initial.unrecorded]
  refine faithful ?_ ?_ ?_ n
  · show Contiguous Skill.version (entry start id)
    rw [Contiguous, entry, unrecorded]
    cases found : start.skills id with
    | none => rfl
    | some skill => simp [initial.first id skill found]
  · show (entry start id).past = []
    rw [entry, unrecorded]
    rfl
  · intro n
    cases next : calls[n]? with
    | none =>
        rw [after_of_none next]
        exact .kept _
    | some call =>
        rw [after_succ next]
        exact (initial.sound.after _).entry_step id

theorem versions_eq (sound : Sound tables) (id : Uuid) :
    (history tables id).map SkillVersion.version = (entry tables id).past.map Skill.version := by
  rw [entry, List.map_map]
  refine List.map_congr_left fun row member => ?_
  exact (sound.labelled row (List.mem_filter.mp member).1).2.1.symm

/-- The history says what it is to say exactly when no feedback silences a skill. -/
theorem recorded_iff (initial : Initial start) (calls : List Call) :
    Recorded classify start calls
      ↔ ∀ n call, calls[n]? = some call →
        ∀ current, ¬ Silences (after classify start (calls.take n)) call current := by
  have sound (n : Nat) : Sound (after classify start (calls.take n)) := initial.sound.after _
  have faithful (id : Uuid) (n : Nat) : Faithful Skill.version (fun skill => skill.state = .revoked)
    (fun n => entry (after classify start (calls.take n)) id) n := entry_faithful initial id n
  constructor
  · rintro recorded n call next current silences
    obtain ⟨before, now, changed⟩ := (sound n).silenced silences
    rw [← after_succ next] at now
    have counted := recorded.counted n current.id current _ before now changed
    exact absurd counted (Nat.ne_of_lt (Nat.lt_succ_self _))
  · intro speaks
    refine ⟨?_, ?_, ?_, ?_, ?_⟩
    · intro n id skill found
      have contiguous := (faithful id n).contiguous
      rw [Contiguous, show (entry _ id).current = some skill from found] at contiguous
      rw [versions_eq (sound n)]
      exact contiguous.2
    · intro n id row member
      have version := ((sound n).labelled row (List.mem_filter.mp member).1).2.1
      have past : row.snapshot ∈ (entry (after classify start (calls.take n)) id).past :=
        List.mem_map_of_mem member
      refine ⟨version, (faithful id n).stood row.snapshot past, ?_⟩
      intro m below skill found same
      exact (faithful id n).only row.snapshot past m below skill found (same.trans version.symm)
    · intro n id skill next before now changed
      cases asked : calls[n]? with
      | none =>
          rw [after_of_none asked, before] at now
          exact absurd (congrArg governed (Option.some.inj now).symm) changed
      | some call =>
          rw [after_succ asked] at now
          rcases (sound n).counted (speaks n call asked) before now with rfl | counted
          · exact absurd rfl changed
          · exact counted
    · intro n call id input next request served
      rw [after_succ next]
      exact restored_row (sound n) request served
    · intro n call refusal next refused
      rw [after_succ next]
      exact refused_rows refused

end Main

section Sample

def user : Uuid := ⟨1⟩

def shared : Skill where
  id := ⟨2⟩
  organizationId := some ⟨3⟩
  workspaceId := some ⟨4⟩
  scopeKind := some .org
  scopeId := some ⟨3⟩
  name := "review"
  description := none
  triggerPattern := none
  content := "Read the change twice."
  enabled := true
  state := .active
  version := 1
  ownerUserId := some user
  ttlExpiresAt := none
  sensitivity := .internal
  provenance := .object []
  negativeTrigger := none
  requiredInputs := .array []
  tools := .array []
  examples := .array []
  successEvidence := .array []
  revokedAt := none
  createdAt := 0
  updatedAt := 0

def shelf : Tables where
  skills := Function.update (fun _ => none) ⟨2⟩ (some shared)
  versions := []
  candidates := fun _ => none
  decided := []
  feedback := []

def everyone : Directory where
  manages := fun _ _ => true
  workspaceBelongs := fun _ _ => true
  inTeam := fun _ _ => true
  inProject := fun _ _ _ => true
  readScope := fun scope => .ok ⟨scope.orgId, scope.userId, [⟨4⟩], [], []⟩
  runStatus := fun _ _ => some "completed"

def wrong (run : Uuid) : Call where
  directory := everyone
  scope := ⟨⟨3⟩, user, some ⟨4⟩⟩
  now := 5
  request := .feedback ⟨run, ⟨2⟩, .wrong, none⟩

theorem shelf_initial : Initial shelf := by
  have only (id : Uuid) (skill : Skill) (found : shelf.skills id = some skill) :
      id = shared.id ∧ skill = shared := by
    have found : Function.update (fun _ => none) shared.id (some shared) id = some skill := found
    rcases found_update found with same | ⟨_, found⟩
    · exact same
    · cases found
  refine ⟨?_, ?_, ?_, rfl⟩ <;> intro id skill found <;> obtain ⟨rfl, rfl⟩ := only id skill found
  · rfl
  · rfl
  · exact marked_of_live (by decide) rfl

/-- The second feedback revokes the skill in place: its version is the same, and its history does
not have the row that was active. -/
theorem revoked_in_place : Initial shelf
    ∧ ¬ Recorded (fun _ => .internal) shelf [wrong ⟨6⟩, wrong ⟨7⟩] := by
  refine ⟨shelf_initial, fun recorded => ?_⟩
  have counted := recorded.counted 1 shared.id shared (silence 5 shared) rfl rfl (by decide)
  exact absurd counted (by decide)

theorem recorded_of_one : Recorded (fun _ => .internal) shelf [wrong ⟨6⟩] := by
  refine (recorded_iff shelf_initial [wrong ⟨6⟩]).mpr ?_
  intro n call next current silences
  obtain ⟨rfl, rfl⟩ : n = 0 ∧ call = wrong ⟨6⟩ := by
    cases n with
    | zero => exact ⟨rfl, (Option.some.inj next).symm⟩
    | succ n => cases next
  obtain ⟨input, proof, workspaceId, status, asked, inWorkspace, reads, _, _, _, _, _, reached⟩ :=
    silences
  obtain rfl := Request.feedback.inj asked
  obtain rfl := Option.some.inj inWorkspace
  obtain rfl := Except.ok.inj reads
  exact absurd reached (by decide)

end Sample

end Forge.SkillHistory
