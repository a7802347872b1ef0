import Forge.SkillHistory

/-! Who makes a skill active that others see. -/

namespace Forge.SkillPublication

open Forge.Library.Fallible
open Forge.Library.History
open Forge.Library.Identifier
open Forge.SkillDomain
open Forge.SkillEffects
open Forge.SkillHistory
open Forge.SkillService

def Shared (skill : Skill) : Prop :=
  ∃ kind, skill.scopeKind = some kind ∧ kind ≠ .user

def MayPublish (call : Call) (skill : Skill) : Prop :=
  ∃ kind scopeId, skill.scopeKind = some kind ∧ skill.scopeId = some scopeId
    ∧ canPublishActive call.directory call.scope kind scopeId = true

def Activated (before : Option Skill) (next : Skill) : Prop :=
  next.state = .active ∧ ∀ skill, before = some skill →
    ¬ (skill.state = .active ∧ skill.scopeKind = next.scopeKind ∧ skill.scopeId = next.scopeId)

/-- The approval of a pending candidate for the skill. -/
def Promotes (tables next : Tables) (call : Call) (id : Uuid) : Prop :=
  ∃ candidateId input candidate, call.request = .approve candidateId input
    ∧ tables.candidates candidateId = some candidate ∧ candidate.state = .pending
    ∧ candidate.targetSkillId.bind tables.skills = tables.skills id
    ∧ next.candidates candidate.id = some { candidate with state := .approved }

section Runs

variable (classify : String → Sensitivity)

/-- What holds of the skills, after any number of the requests. -/
structure Gated (start : Tables) (calls : List Call) : Prop where
  published : ∀ n call id next, calls[n]? = some call →
    (after classify start (calls.take (n + 1))).skills id = some next →
    Activated ((after classify start (calls.take n)).skills id) next → Shared next →
    MayPublish call next ∨ Promotes (after classify start (calls.take n))
      (after classify start (calls.take (n + 1))) call id
  revoked : ∀ n m, n ≤ m → ∀ id skill, (after classify start (calls.take n)).skills id = some skill →
    skill.state = .revoked → ∃ next, (after classify start (calls.take m)).skills id = some next
      ∧ next.state = .revoked ∧ next.enabled = false ∧ next.revokedAt.isSome

/-- An admitted update that enables a deprecated skill. -/
structure Reenables (tables : Tables) (call : Call) (current : Skill) (id : Uuid)
    (input : UpdateSkillInput) : Prop where
  request : call.request = .update id input
  named : ∃ name, input.name.mapM parseName = .ok name
  prepared : ∃ prepared, input.content.mapM (prepareContent classify) = .ok prepared
  enabled : input.enabled = some true
  locked : lockOrgSkill tables call.scope id = .ok current
  deprecated : current.state = .deprecated
  permitted : requireOwnerOrManager call.directory call.scope current = .ok ()
  numbered : current.version < maxVersion

/-- An admitted return to an active snapshot, of a skill that is not active in its scope. -/
structure Revives (tables : Tables) (call : Call) (current snapshot : Skill) (id : Uuid)
    (input : RestoreSkillVersionInput) : Prop where
  request : call.request = .restoreVersion id input
  valid : validateRestore input.version input.expectedCurrentVersion = .ok ()
  locked : lockOrgSkill tables call.scope id = .ok current
  live : current.state ≠ .revoked
  expected : ensureExpectedVersion id current.version input.expectedCurrentVersion = .ok ()
  permitted : requireOwnerOrManager call.directory call.scope current = .ok ()
  stored : snapshotForVersion tables current.id input.version = .ok snapshot
  bounded : ensureSnapshotBoundary id input.version current snapshot = .ok ()
  planned : planRestore classify current snapshot input.confirmExpansion = .ok ()
  active : snapshot.state = .active
  dormant : ¬ (current.state = .active ∧ current.scopeKind = snapshot.scopeKind
    ∧ current.scopeId = snapshot.scopeId)
  numbered : current.version < maxVersion

/-- Who enables a shared skill, or returns to one, may publish there. -/
structure Permits (tables : Tables) (call : Call) : Prop where
  enabling : ∀ current id input, Reenables classify tables call current id input →
    Shared current → MayPublish call current
  restoring : ∀ current snapshot id input, Revives classify tables call current snapshot id input →
    Shared snapshot → MayPublish call snapshot

end Runs

section Steps

variable {classify : String → Sensitivity} {tables : Tables} {call : Call}

theorem MayPublish.congr {skill other : Skill} (may : MayPublish call skill)
    (kind : other.scopeKind = skill.scopeKind) (id : other.scopeId = skill.scopeId) :
    MayPublish call other := by
  obtain ⟨scopeKind, scopeId, ofKind, ofId, allowed⟩ := may
  exact ⟨scopeKind, scopeId, kind.trans ofKind, id.trans ofId, allowed⟩

theorem not_activated {skill : Skill} : ¬ Activated (some skill) skill :=
  fun activated => activated.2 skill rfl ⟨activated.1, rfl, rfl⟩

theorem Shared.congr {skill other : Skill} (shared : Shared skill)
    (kind : other.scopeKind = skill.scopeKind) : Shared other := by
  obtain ⟨scopeKind, ofKind, notUser⟩ := shared
  exact ⟨scopeKind, kind.trans ofKind, notUser⟩

theorem deprecated_of_activated {input : UpdateSkillInput} {current next : Skill}
    {prepared : Option (String × Sensitivity)} {change : StateChange}
    (live : current.state ≠ .revoked)
    (planned : nextState current.state input.enabled = .ok change)
    (row : updateRow call.now current input prepared change = .ok next)
    (activated : Activated (some current) next) :
    input.enabled = some true ∧ current.state = .deprecated := by
  obtain ⟨_, _, _, state, _, kind, scopeId⟩ := updateRow_eq_ok row
  have dormant : current.state ≠ .active := fun active =>
    activated.2 current rfl ⟨active, kind.symm, scopeId.symm⟩
  rw [activated.1] at state
  unfold nextState at planned
  split at planned
  next enabled =>
    split at planned
    · cases planned
    next notCandidate =>
      refine ⟨enabled, ?_⟩
      cases at_ : current.state with
      | candidate => exact absurd at_ notCandidate
      | active => exact absurd at_ dormant
      | deprecated => rfl
      | revoked => exact absurd at_ live
  · cases planned
    cases state
  · cases planned
    exact absurd state.symm dormant

theorem published_step (sound : Sound tables) (permits : Permits classify tables call) {id : Uuid}
    {next : Skill} (now : (handle classify tables call).2.skills id = some next)
    (activated : Activated (tables.skills id) next) (shared : Shared next) :
    MayPublish call next ∨ Promotes tables (handle classify tables call).2 call id := by
  have effect := handle_effect classify tables call
  generalize handle classify tables call = done at effect now
  cases effect with
  | refused refusal tables' skills =>
      rw [← skills, now] at activated
      exact absurd activated not_activated
  | aside tables' skills =>
      rw [← skills, now] at activated
      exact absurd activated not_activated
  | created newId scopeId input state created request fresh isId first unrevoked stated placed
      published =>
      rcases found_update now with ⟨rfl, rfl⟩ | ⟨_, now⟩
      · have active : state = .active := by
          have labelled := stated.symm.trans activated.1
          cases state <;> simp [SkillState.label] at labelled ⊢
        exact .inl ⟨input.scopeKind, scopeId, placed.1, placed.2, published active⟩
      · rw [now] at activated
        exact absurd activated not_activated
  | revised current skill recorded tables' revision recording skills versions decided =>
      obtain ⟨lockedId, found⟩ := revision.found
      obtain rfl := sound.keyed lockedId current found
      obtain rfl := insertSnapshot_eq_ok recording
      rw [skills] at now
      rcases found_update now with ⟨rfl, rfl⟩ | ⟨_, now⟩
      · rw [revision.id_eq, found] at activated
        rw [revision.id_eq]
        cases revision with
        | updated id input prepared change _ request locked live permitted planned row named preparing =>
            obtain ⟨enabled, deprecated⟩ := deprecated_of_activated live planned row activated
            obtain ⟨_, _, _, _, _, kind, scopeId⟩ := updateRow_eq_ok row
            have numbered : current.version < maxVersion := by
              simp only [updateRow, bind_eq_ok] at row
              obtain ⟨version, successor, _⟩ := row
              exact lt_of_nextVersion_eq_ok successor
            have reenables : Reenables classify tables call current id input :=
              ⟨request, named, ⟨prepared, preparing⟩, enabled, locked, deprecated, permitted, numbered⟩
            have may := permits.enabling current id input reenables (shared.congr kind.symm)
            exact .inl (may.congr kind scopeId)
        | revoked id _ request locked live row =>
            obtain ⟨_, _, _, state, _⟩ := revokeRow_eq_ok row
            rw [Activated, state] at activated
            cases activated.1
        | restored id input snapshot version request locked live permitted stored restorable planned
            successor valid expected bounded =>
            have revives : Revives classify tables call current snapshot id input :=
              ⟨request, valid, locked, live, expected, permitted, stored, bounded, planned, activated.1,
                activated.2 current rfl, lt_of_nextVersion_eq_ok successor⟩
            exact .inl (permits.restoring current snapshot id input revives shared)
        | promoted id skillId scopeId input candidate sensitivity _ request =>
            obtain ⟨candidate, known, pending, target, approved⟩ := decided id input request
            exact .inr ⟨id, input, candidate, request, known, pending, target.trans found.symm,
              approved⟩
      · rw [show tables.skills id = some next from now] at activated
        exact absurd activated not_activated
  | silenced current tables' silences skills =>
      rw [skills] at now
      rcases found_update now with ⟨rfl, rfl⟩ | ⟨_, now⟩
      · cases activated.1
      · rw [show tables.skills id = some next from now] at activated
        exact absurd activated not_activated

theorem revoked_step (sound : Sound tables) {id : Uuid} {skill : Skill}
    (before : tables.skills id = some skill) (revoked : skill.state = .revoked) :
    (handle classify tables call).2.skills id = some skill := by
  have effect := handle_effect classify tables call
  have same := sound.keyed id skill before
  generalize handle classify tables call = done at effect
  cases effect with
  | refused refusal tables' skills => exact skills ▸ before
  | aside tables' skills => exact skills ▸ before
  | created newId scopeId input state created request fresh isId =>
      have other : id ≠ created.id := by
        rintro rfl
        rw [isId, fresh] at before
        cases before
      exact (Function.update_of_ne other ..).trans before
  | revised current next recorded tables' revision recording skills =>
      obtain ⟨lockedId, found⟩ := revision.found
      obtain rfl := sound.keyed lockedId current found
      obtain rfl := insertSnapshot_eq_ok recording
      have other : id ≠ next.id := by
        rintro rfl
        rw [revision.id_eq, found] at before
        exact revision.live (Option.some.inj before ▸ revoked)
      rw [skills]
      exact (Function.update_of_ne other ..).trans before
  | silenced current tables' silences skills =>
      obtain ⟨found, live⟩ := sound.found_of_silences silences
      have other : id ≠ (silence call.now current).id := by
        rintro rfl
        rw [show (silence call.now current).id = current.id from rfl, found] at before
        exact live (Option.some.inj before ▸ revoked)
      rw [skills]
      exact (Function.update_of_ne other ..).trans before

theorem insertSnapshot_ok {current : Skill} {author : Uuid} (sound : Sound tables)
    (contiguous : Contiguous Skill.version (entry tables current.id))
    (found : tables.skills current.id = some current) :
    ∃ recorded, insertSnapshot tables current author = .ok recorded
      ∧ recorded.skills = tables.skills := by
  unfold insertSnapshot
  rw [if_neg]
  · exact ⟨_, rfl, rfl⟩
  · intro taken
    obtain ⟨row, member, same⟩ := List.any_eq_true.mp taken
    rw [Bool.and_eq_true, decide_eq_true_eq, decide_eq_true_eq] at same
    have past : row.snapshot ∈ (entry tables current.id).past :=
      List.mem_map_of_mem (List.mem_filter.mpr ⟨member, decide_eq_true same.1⟩)
    have older := contiguous.lt_of_mem found past
    have numbered := (sound.labelled row member).2.1
    omega

theorem found_of_locked {id : Uuid} {current : Skill} (sound : Sound tables)
    (locked : lockOrgSkill tables call.scope id = .ok current) :
    tables.skills current.id = some current := by
  have found := lockOrgSkill_eq_ok locked
  obtain rfl := sound.keyed id current found
  exact found

theorem nextVersion_ok {version : Nat} (numbered : version < maxVersion) :
    nextVersion version = .ok (version + 1) := if_pos numbered

theorem Reenables.served {current : Skill} {id : Uuid} {input : UpdateSkillInput}
    (reenables : Reenables classify tables call current id input) (sound : Sound tables)
    (contiguous : Contiguous Skill.version (entry tables current.id)) :
    ∃ next, (handle classify tables call).2.skills current.id = some next
      ∧ next.state = .active ∧ next.scopeKind = current.scopeKind
      ∧ next.scopeId = current.scopeId := by
  obtain ⟨request, ⟨name, named⟩, ⟨prepared, preparing⟩, enabled, locked, deprecated, permitted,
    numbered⟩ := reenables
  have found := lockOrgSkill_eq_ok locked
  obtain rfl := sound.keyed id current found
  obtain ⟨recorded, recording, skills⟩ :=
    @insertSnapshot_ok tables current call.scope.userId sound contiguous found
  have planned : nextState current.state input.enabled = .ok ⟨some true, some .active⟩ := by
    rw [deprecated, enabled]
    rfl
  have updateable : ensureUpdateable current.id current.state = .ok () := by
    rw [deprecated]
    rfl
  have computed : handle classify tables call = update classify call.directory tables call.scope
      call.now current.id input := by rw [handle, request]
  rw [computed, update]
  simp only [named, preparing, existsOutside_of_locked locked, locked, updateable, permitted, planned,
    recording, updateRow, nextVersion_ok numbered, transact, ensure, bind, Except.bind, Bool.not_false,
    if_true]
  exact ⟨_, Function.update_self .., rfl, rfl, rfl⟩

theorem Revives.served {current snapshot : Skill} {id : Uuid} {input : RestoreSkillVersionInput}
    (revives : Revives classify tables call current snapshot id input) (sound : Sound tables)
    (contiguous : Contiguous Skill.version (entry tables current.id)) :
    ∃ next, (handle classify tables call).2.skills current.id = some next
      ∧ next.state = .active ∧ next.scopeKind = snapshot.scopeKind
      ∧ next.scopeId = snapshot.scopeId := by
  obtain ⟨request, valid, locked, live, expected, permitted, stored, bounded, planned, active, dormant,
    numbered⟩ := revives
  have found := lockOrgSkill_eq_ok locked
  obtain rfl := sound.keyed id current found
  obtain ⟨recorded, recording, skills⟩ :=
    @insertSnapshot_ok tables current call.scope.userId sound contiguous found
  have restorable : ensureCurrentRestorable current.id current.state = .ok () :=
    ensure_eq_ok.mpr (decide_eq_true live)
  have snapshotRestorable : ensureSnapshotRestorable current.id input.version snapshot.state
      = .ok () := ensure_eq_ok.mpr (by simp [active])
  have computed : handle classify tables call = restoreVersion classify call.directory tables
      call.scope call.now current.id input := by rw [handle, request]
  rw [computed, restoreVersion]
  simp only [valid, existsOutside_of_locked locked, locked, restorable, expected, permitted, stored,
    bounded, snapshotRestorable, planned, recording, nextVersion_ok numbered, transact, ensure, bind,
    Except.bind, Bool.not_false, if_true]
  exact ⟨_, Function.update_self .., active, rfl, rfl⟩

end Steps

section Main

variable {classify : String → Sensitivity} {start : Tables}

theorem revoked_after (initial : Initial start) {calls : List Call} {n m : Nat} (later : n ≤ m)
    {id : Uuid} {skill : Skill}
    (before : (after classify start (calls.take n)).skills id = some skill)
    (revoked : skill.state = .revoked) :
    (after classify start (calls.take m)).skills id = some skill := by
  induction m, later using Nat.le_induction with
  | base => exact before
  | succ m later ih =>
      cases next : calls[m]? with
      | none => rw [after_of_none next, ih]
      | some call =>
          rw [after_succ next]
          exact revoked_step (initial.sound.after _) ih revoked

/-- The gate holds exactly when who enables a deprecated shared skill, or returns to an active
version of one, may publish there. -/
theorem gated_iff (initial : Initial start) (calls : List Call) :
    Gated classify start calls
      ↔ ∀ n call, calls[n]? = some call →
        Permits classify (after classify start (calls.take n)) call := by
  have sound (n : Nat) : Sound (after classify start (calls.take n)) := initial.sound.after _
  have contiguous (n : Nat) (id : Uuid) :
      Contiguous Skill.version (entry (after classify start (calls.take n)) id) :=
    (@entry_faithful classify start calls initial id n).contiguous
  constructor
  · intro gated n call asked
    have published := gated.published n call
    rw [after_succ asked] at published
    refine ⟨?_, ?_⟩
    · intro current id input reenables shared
      obtain ⟨next, now, active, kind, scopeId⟩ := reenables.served (sound n) (contiguous n _)
      have found := found_of_locked (sound n) reenables.locked
      have activated : Activated ((after classify start (calls.take n)).skills current.id) next := by
        refine ⟨active, fun skill before same => ?_⟩
        rw [found] at before
        obtain rfl := Option.some.inj before
        rw [reenables.deprecated] at same
        exact absurd same.1 nofun
      rcases published current.id next asked now activated (shared.congr kind) with may | promotes
      · exact may.congr kind.symm scopeId.symm
      · obtain ⟨_, _, _, approves, _⟩ := promotes
        rw [reenables.request] at approves
        cases approves
    · intro current snapshot id input revives shared
      obtain ⟨next, now, active, kind, scopeId⟩ := revives.served (sound n) (contiguous n _)
      have found := found_of_locked (sound n) revives.locked
      have activated : Activated ((after classify start (calls.take n)).skills current.id) next := by
        refine ⟨active, fun skill before same => ?_⟩
        rw [found] at before
        obtain rfl := Option.some.inj before
        rw [kind, scopeId] at same
        exact revives.dormant same
      rcases published current.id next asked now activated (shared.congr kind) with may | promotes
      · exact may.congr kind.symm scopeId.symm
      · obtain ⟨_, _, _, approves, _⟩ := promotes
        rw [revives.request] at approves
        cases approves
  · intro permits
    refine ⟨?_, ?_⟩
    · intro n call id next asked now activated shared
      rw [after_succ asked] at now ⊢
      exact published_step (sound n) (permits n call asked) now activated shared
    · intro n m later id skill before revoked
      have marked := (sound n).marked id skill before
      exact ⟨skill, revoked_after initial later before revoked, revoked, marked.2 revoked,
        marked.1.mp revoked⟩

end Main

section Sample

def draft : Skill := { shared with enabled := false, state := .candidate }

def drafts : Tables := { shelf with skills := Function.update (fun _ => none) ⟨2⟩ (some draft) }

def member : Directory := { everyone with manages := fun _ _ => false }

def switch (enabled : Bool) : Call where
  directory := member
  scope := ⟨⟨3⟩, user, some ⟨4⟩⟩
  now := 5
  request := .update ⟨2⟩ ⟨none, none, none, none, some enabled⟩

theorem drafts_initial : Initial drafts := by
  have only (id : Uuid) (skill : Skill) (found : drafts.skills id = some skill) :
      id = draft.id ∧ skill = draft := by
    have found : Function.update (fun _ => none) draft.id (some draft) id = some skill := found
    rcases found_update found with same | ⟨_, found⟩
    · exact same
    · cases found
  refine ⟨?_, ?_, ?_, rfl⟩ <;> intro id skill found <;> obtain ⟨rfl, rfl⟩ := only id skill found
  · rfl
  · rfl
  · exact marked_of_live (by decide) rfl

/-- The owner disables the candidate and enables it: it is active for the organization. -/
theorem candidate_published : Initial drafts
    ∧ ¬ Gated (fun _ => .internal) drafts [switch false, switch true] := by
  refine ⟨drafts_initial, fun gated => ?_⟩
  have activated : Activated (some { draft with state := .deprecated, version := 2, updatedAt := 5 })
      { draft with enabled := true, state := .active, version := 3, updatedAt := 5 } := by
    refine ⟨rfl, fun skill before same => ?_⟩
    obtain rfl := Option.some.inj before
    exact absurd same.1 nofun
  rcases gated.published 1 (switch true) ⟨2⟩ _ rfl rfl activated ⟨.org, rfl, nofun⟩
    with may | promotes
  · obtain ⟨kind, scopeId, ofKind, _, allowed⟩ := may
    obtain rfl := Option.some.inj ofKind
    cases allowed
  · obtain ⟨_, _, _, approves, _⟩ := promotes
    cases approves

theorem gated_of_disabled : Gated (fun _ => .internal) drafts [switch false] := by
  refine (gated_iff drafts_initial [switch false]).mpr ?_
  intro n call asked
  obtain ⟨rfl, rfl⟩ : n = 0 ∧ call = switch false := by
    cases n with
    | zero => exact ⟨rfl, (Option.some.inj asked).symm⟩
    | succ n => cases asked
  refine ⟨?_, ?_⟩
  · intro current id input reenables _
    obtain ⟨rfl, rfl⟩ := Request.update.inj reenables.request
    cases reenables.enabled
  · intro current snapshot id input revives _
    cases revives.request

end Sample

end Forge.SkillPublication
