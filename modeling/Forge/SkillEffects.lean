import Forge.Library.Fallible
import Forge.SkillService

/-! What a request does to the rows of the skills and to their history. -/

namespace Forge.SkillEffects

open Forge.Library.Fallible
open Forge.Library.Identifier
open Forge.Schema (Timestamp)
open Forge.SkillDomain
open Forge.SkillService

theorem ensure_eq_ok {holds : Bool} {refusal : ErrorKind} {done : Unit} :
    ensure holds refusal = .ok done ↔ holds = true := by
  cases holds <;> simp [ensure]

theorem resolveCreateState_eq_ok {state : Option SkillState} {result : SkillState}
    {published : Bool} (resolved : resolveCreateState state published = .ok result) :
    state.getD .active = result ∧ (result = .active → published = true) := by
  unfold resolveCreateState at resolved
  dsimp only at resolved
  split at resolved
  · cases resolved
  next admitted =>
    cases resolved
    exact ⟨rfl, fun active => by simpa [active] using admitted⟩

section Effects

variable (classify : String → Sensitivity) (tables : Tables) (call : Call)

/-- How a request revises a skill that it has locked. -/
inductive Revision (current : Skill) : Skill → Prop
  | updated (id : Uuid) (input : UpdateSkillInput) (prepared : Option (String × Sensitivity))
      (change : StateChange) (skill : Skill)
      (request : call.request = .update id input)
      (locked : lockOrgSkill tables call.scope id = .ok current)
      (live : current.state ≠ .revoked)
      (permitted : requireOwnerOrManager call.directory call.scope current = .ok ())
      (planned : nextState current.state input.enabled = .ok change)
      (row : updateRow call.now current input prepared change = .ok skill)
      (named : ∃ name, input.name.mapM parseName = .ok name)
      (preparing : input.content.mapM (prepareContent classify) = .ok prepared) :
      Revision current skill
  | revoked (id : Uuid) (skill : Skill)
      (request : call.request = .revoke id)
      (locked : lockOrgSkill tables call.scope id = .ok current)
      (live : current.state ≠ .revoked)
      (row : revokeRow call.now current = .ok skill) : Revision current skill
  | restored (id : Uuid) (input : RestoreSkillVersionInput) (snapshot : Skill) (version : Nat)
      (request : call.request = .restoreVersion id input)
      (locked : lockOrgSkill tables call.scope id = .ok current)
      (live : current.state ≠ .revoked)
      (permitted : requireOwnerOrManager call.directory call.scope current = .ok ())
      (stored : snapshotForVersion tables current.id input.version = .ok snapshot)
      (restorable : snapshot.state ≠ .revoked)
      (planned : planRestore classify current snapshot input.confirmExpansion = .ok ())
      (successor : nextVersion current.version = .ok version)
      (valid : validateRestore input.version input.expectedCurrentVersion = .ok ())
      (expected : ensureExpectedVersion id current.version input.expectedCurrentVersion = .ok ())
      (bounded : ensureSnapshotBoundary id input.version current snapshot = .ok ()) :
      Revision current (restoreRow call.now current snapshot version)
  | promoted (id skillId scopeId : Uuid) (input : ApproveInput) (candidate : ContextCandidate)
      (sensitivity : Sensitivity) (skill : Skill)
      (request : call.request = .approve id input)
      (found : tables.candidates id = some candidate)
      (pending : candidate.state = .pending)
      (target : candidate.targetSkillId = some skillId)
      (locked : lockOrgSkill tables call.scope skillId = .ok current)
      (row : promoteRow call.now current input.scopeKind.skillKind scopeId input.ttlAt sensitivity
        = .ok skill) : Revision current skill

/-- An admitted feedback that brings its label to where the skill is silenced. -/
def Silences (current : Skill) : Prop :=
  ∃ input proof workspaceId status,
    call.request = .feedback input
    ∧ call.scope.workspaceId = some workspaceId
    ∧ call.directory.readScope call.scope = .ok proof
    ∧ (input.note.all fun note => (trim note).utf8ByteSize ≤ 4000)
    ∧ call.directory.runStatus proof input.runId = some status
    ∧ status ∈ ["completed", "failed", "canceled"]
    ∧ lockForFeedback tables proof workspaceId input.itemId = .ok current
    ∧ current.revokedAt = none
    ∧ shouldRevoke input.label (countLabel
        (upsertFeedback tables.feedback
          ⟨proof.orgId, workspaceId, input.runId, input.itemId, input.label, proof.userId⟩)
        ⟨proof.orgId, workspaceId, input.runId, input.itemId, input.label, proof.userId⟩)

inductive Effect : Committed → Prop
  | refused (refusal : ErrorKind) (next : Tables) (skills : next.skills = tables.skills)
      (versions : next.versions = tables.versions) : Effect (.error refusal, next)
  | aside (next : Tables) (skills : next.skills = tables.skills)
      (versions : next.versions = tables.versions)
      (request : (∃ candidate, call.request = .propose candidate)
        ∨ ∃ input, call.request = .feedback input) : Effect (.ok (), next)
  | created (id scopeId : Uuid) (input : CreateSkillInput) (state : SkillState) (skill : Skill)
      (request : call.request = .create id input)
      (fresh : tables.skills id = none)
      (isId : skill.id = id)
      (first : skill.version = 1)
      (unrevoked : skill.revokedAt = none)
      (stated : skill.state = state.label)
      (placed : skill.scopeKind = some input.scopeKind ∧ skill.scopeId = some scopeId)
      (published : state = .active →
        canPublishActive call.directory call.scope input.scopeKind scopeId) :
      Effect (.ok (), writeSkill tables skill)
  | revised (current skill : Skill) (recorded next : Tables)
      (revision : Revision classify tables call current skill)
      (recording : insertSnapshot tables current call.scope.userId = .ok recorded)
      (skills : next.skills = (writeSkill recorded skill).skills)
      (versions : next.versions = recorded.versions)
      (decided : ∀ id input, call.request = .approve id input →
        ∃ candidate, tables.candidates id = some candidate ∧ candidate.state = .pending
          ∧ candidate.targetSkillId.bind tables.skills = some current
          ∧ next.candidates candidate.id = some { candidate with state := .approved }) :
      Effect (.ok (), next)
  | silenced (current : Skill) (next : Tables) (silences : Silences tables call current)
      (skills : next.skills = (writeSkill tables (silence call.now current)).skills)
      (versions : next.versions = tables.versions) : Effect (.ok (), next)

end Effects

section Rows

variable {tables : Tables}

theorem lockOrgSkill_eq_ok {scope : RequestScope} {id : Uuid} {skill : Skill}
    (locked : lockOrgSkill tables scope id = .ok skill) : tables.skills id = some skill := by
  unfold lockOrgSkill at locked
  cases found : tables.skills id with
  | none => simp [found] at locked
  | some row =>
      rw [found] at locked
      dsimp only at locked
      split at locked
      · rw [Except.ok.inj locked]
      · cases locked

theorem lockForFeedback_eq_ok {proof : ScopedRead} {workspaceId id : Uuid} {skill : Skill}
    (locked : lockForFeedback tables proof workspaceId id = .ok skill) :
    tables.skills id = some skill := by
  rw [lockForFeedback, elim_eq_ok, Option.filter_eq_some_iff] at locked
  exact locked.1

theorem insertSnapshot_eq_ok {skill : Skill} {author : Uuid} {recorded : Tables}
    (recording : insertSnapshot tables skill author = .ok recorded) :
    recorded = { tables with
      versions := tables.versions ++ [⟨skill.id, skill.version, skill, author⟩] } := by
  unfold insertSnapshot at recording
  split at recording
  · cases recording
  · exact (Except.ok.inj recording).symm

theorem snapshotForVersion_eq_ok {id : Uuid} {version : Int} {snapshot : Skill}
    (stored : snapshotForVersion tables id version = .ok snapshot) :
    ∃ row ∈ tables.versions, row.skillId = id ∧ (row.version : Int) = version
      ∧ row.snapshot = snapshot := by
  unfold snapshotForVersion at stored
  split at stored
  next row found =>
    have matching := List.find?_some found
    rw [Bool.and_eq_true, decide_eq_true_eq, decide_eq_true_eq] at matching
    exact ⟨row, List.mem_of_find?_eq_some found, matching.1, matching.2, Except.ok.inj stored⟩
  · cases stored

theorem nextVersion_eq_ok {version next : Nat} (successor : nextVersion version = .ok next) :
    next = version + 1 := by
  unfold nextVersion at successor
  split at successor
  · exact (Except.ok.inj successor).symm
  · cases successor

theorem lt_of_nextVersion_eq_ok {version next : Nat} (successor : nextVersion version = .ok next) :
    version < maxVersion := by
  unfold nextVersion at successor
  split at successor
  next below => exact below
  · cases successor

theorem existsOutside_of_locked {scope : RequestScope} {id : Uuid} {skill : Skill}
    (locked : lockOrgSkill tables scope id = .ok skill) : existsOutside tables scope id = false := by
  have found := lockOrgSkill_eq_ok locked
  rw [lockOrgSkill, found] at locked
  dsimp only at locked
  split at locked
  next inside => simp [existsOutside, found, inside]
  · cases locked

end Rows

section Handlers

variable {classify : String → Sensitivity} {tables : Tables} {call : Call}

theorem transact_effect {body : AppResult Committed}
    (served : ∀ done, body = .ok done → Effect classify tables call done) :
    Effect classify tables call (transact tables body) := by
  unfold transact
  cases computed : body with
  | ok done => exact served done computed
  | error refusal => exact .refused refusal tables rfl rfl

theorem create_effect {id : Uuid} {input : CreateSkillInput}
    (request : call.request = .create id input) :
    Effect classify tables call
      (create classify call.directory tables call.scope call.now id input) := by
  refine transact_effect fun done computed => ?_
  simp only [bind_eq_ok, elim_eq_ok, ensure_eq_ok] at computed
  obtain ⟨workspaceId, _, name, _, content, _, scopeId, _, _, _, state, resolved, _, _, sensitivity,
    _, _, _, _, inserted, finished⟩ := computed
  obtain rfl := Except.ok.inj finished
  rw [Bool.and_eq_true, Option.isNone_iff_eq_none] at inserted
  refine .created id scopeId input state _ request inserted.2 rfl rfl rfl rfl ⟨rfl, rfl⟩ ?_
  intro active
  obtain ⟨named, allowed⟩ := resolveCreateState_eq_ok resolved
  simpa [named.trans active] using allowed active

theorem update_effect {id : Uuid} {input : UpdateSkillInput}
    (request : call.request = .update id input) :
    Effect classify tables call
      (update classify call.directory tables call.scope call.now id input) := by
  refine transact_effect fun done computed => ?_
  simp only [bind_eq_ok, ensure_eq_ok] at computed
  obtain ⟨name, named, prepared, preparing, _, _, current, locked, _, live, _, permitted, change,
    planned, recorded, recording, skill, row, finished⟩ := computed
  obtain rfl := Except.ok.inj finished
  refine .revised current skill recorded _ ?_ recording rfl rfl (by simp [request])
  exact .updated id input prepared change skill request locked (of_decide_eq_true (ensure_eq_ok.mp live))
    permitted planned row ⟨name, named⟩ preparing

theorem revoke_effect {id : Uuid} (request : call.request = .revoke id) :
    Effect classify tables call (revoke call.directory tables call.scope call.now id) := by
  refine transact_effect fun done computed => ?_
  simp only [bind_eq_ok, ensure_eq_ok] at computed
  obtain ⟨_, _, current, locked, _, live, _, permitted, recorded, recording, skill, row, finished⟩ :=
    computed
  obtain rfl := Except.ok.inj finished
  refine .revised current skill recorded _ ?_ recording rfl rfl (by simp [request])
  exact .revoked id skill request locked (of_decide_eq_true (ensure_eq_ok.mp live)) row

theorem restoreVersion_effect {id : Uuid} {input : RestoreSkillVersionInput}
    (request : call.request = .restoreVersion id input) :
    Effect classify tables call
      (restoreVersion classify call.directory tables call.scope call.now id input) := by
  refine transact_effect fun done computed => ?_
  simp only [bind_eq_ok, ensure_eq_ok] at computed
  obtain ⟨_, valid, _, _, current, locked, _, live, _, expected, _, permitted, snapshot, stored, _,
    bounded, _, restorable, _, planned, recorded, recording, version, successor, finished⟩ := computed
  obtain rfl := Except.ok.inj finished
  refine .revised current _ recorded _ ?_ recording rfl rfl (by simp [request])
  exact .restored id input snapshot version request locked (of_decide_eq_true (ensure_eq_ok.mp live))
    permitted stored (of_decide_eq_true (ensure_eq_ok.mp restorable)) planned successor valid expected
    bounded

theorem approve_effect {id : Uuid} {input : ApproveInput}
    (request : call.request = .approve id input) :
    Effect classify tables call
      (approve classify call.directory tables call.scope call.now id input) := by
  refine transact_effect fun done computed => ?_
  simp only [bind_eq_ok, elim_eq_ok, ensure_eq_ok] at computed
  obtain ⟨_, _, requested, _, _, _, proof, _, workspaceId, _, scopeId, _, candidate, found, _, pending,
    computed⟩ := computed
  obtain ⟨found, _⟩ := Option.filter_eq_some_iff.mp found
  split at computed
  · obtain rfl := Except.ok.inj computed
    exact .refused _ _ rfl rfl
  · simp only [bind_eq_ok, ensure_eq_ok] at computed
    obtain ⟨_, _, approved, promoted, finished⟩ := computed
    obtain rfl := Except.ok.inj finished
    simp only [promote, bind_eq_ok, elim_eq_ok, ensure_eq_ok] at promoted
    obtain ⟨skillId, target, current, locked, _, _, _, _, _, _, _, _, _, _, _, _, recorded, recording,
      skill, row, finished⟩ := promoted
    obtain rfl := Except.ok.inj finished
    have pending := of_decide_eq_true pending
    refine .revised current skill recorded _ ?_ recording rfl rfl ?_
    · exact .promoted id skillId scopeId input candidate _ skill request found pending target locked row
    · intro other otherInput asked
      rw [request] at asked
      obtain ⟨rfl, rfl⟩ := Request.approve.inj asked
      refine ⟨candidate, found, pending, ?_, Function.update_self ..⟩
      rw [target, Option.bind_some, lockOrgSkill_eq_ok locked]

theorem feedback_effect {input : FeedbackInput} (request : call.request = .feedback input) :
    Effect classify tables call (feedback call.directory tables call.scope call.now input) := by
  refine transact_effect fun done computed => ?_
  simp only [bind_eq_ok, elim_eq_ok, ensure_eq_ok] at computed
  obtain ⟨workspaceId, inWorkspace, proof, reads, _, short, status, ran, _, ended, current, locked,
    computed⟩ := computed
  split at computed
  next reached =>
    obtain rfl := Except.ok.inj computed
    rw [Bool.and_eq_true, Option.isNone_iff_eq_none] at reached
    refine .silenced current _ ?_ rfl rfl
    exact ⟨input, proof, workspaceId, status, request, inWorkspace, reads, short, ran,
      of_decide_eq_true ended, locked, reached.1, reached.2⟩
  next =>
    obtain rfl := Except.ok.inj computed
    exact .aside _ rfl rfl (.inr ⟨input, request⟩)

theorem propose_effect {candidate : ContextCandidate} (request : call.request = .propose candidate) :
    Effect classify tables call (propose tables candidate) := by
  unfold propose
  split
  · exact .refused _ _ rfl rfl
  · exact .aside _ rfl rfl (.inl ⟨candidate, request⟩)

theorem handle_effect (classify : String → Sensitivity) (tables : Tables) (call : Call) :
    Effect classify tables call (handle classify tables call) := by
  unfold handle
  cases request : call.request with
  | create id input => exact create_effect request
  | update id input => exact update_effect request
  | revoke id => exact revoke_effect request
  | restoreVersion id input => exact restoreVersion_effect request
  | propose candidate => exact propose_effect request
  | approve id input => exact approve_effect request
  | feedback input => exact feedback_effect request

theorem handle_of_silences {current : Skill} (silences : Silences tables call current) :
    (handle classify tables call).2.skills
      = Function.update tables.skills current.id (some (silence call.now current)) := by
  obtain ⟨input, proof, workspaceId, status, request, inWorkspace, reads, short, ran, ended, locked,
    live, reached⟩ := silences
  have ended : decide (status ∈ ["completed", "failed", "canceled"]) = true := by simpa using ended
  have computed : handle classify tables call = feedback call.directory tables call.scope call.now
      input := by rw [handle, request]
  rw [computed, feedback]
  simp only [inWorkspace, reads, short, ran, ended, locked, live, reached, Option.elim_some, bind,
    Except.bind, ensure, transact, if_true, Option.isNone_none, Bool.and_self]
  rfl

end Handlers

section Revisions

variable {classify : String → Sensitivity} {tables : Tables} {call : Call} {current skill : Skill}

theorem updateRow_eq_ok {now : Timestamp} {input : UpdateSkillInput}
    {prepared : Option (String × Sensitivity)} {change : StateChange}
    (row : updateRow now current input prepared change = .ok skill) :
    skill.id = current.id ∧ skill.version = current.version + 1
      ∧ skill.revokedAt = current.revokedAt ∧ skill.state = change.state.getD current.state
      ∧ skill.enabled = change.enabled.getD current.enabled
      ∧ skill.scopeKind = current.scopeKind ∧ skill.scopeId = current.scopeId := by
  simp only [updateRow, bind_eq_ok] at row
  obtain ⟨version, successor, row⟩ := row
  obtain rfl := Except.ok.inj row
  exact ⟨rfl, nextVersion_eq_ok successor, rfl, rfl, rfl, rfl, rfl⟩

theorem revokeRow_eq_ok {now : Timestamp} (row : revokeRow now current = .ok skill) :
    skill.id = current.id ∧ skill.version = current.version + 1 ∧ skill.revokedAt = some now
      ∧ skill.state = .revoked ∧ skill.enabled = false := by
  simp only [revokeRow, bind_eq_ok] at row
  obtain ⟨version, successor, row⟩ := row
  obtain rfl := Except.ok.inj row
  exact ⟨rfl, nextVersion_eq_ok successor, rfl, rfl, rfl⟩

theorem promoteRow_eq_ok {now : Timestamp} {kind : SkillScopeKind} {scopeId : Uuid}
    {ttl : Option Timestamp} {sensitivity : Sensitivity}
    (row : promoteRow now current kind scopeId ttl sensitivity = .ok skill) :
    current.state = .candidate ∧ current.revokedAt = none ∧ skill.id = current.id
      ∧ skill.version = current.version + 1 ∧ skill.revokedAt = none ∧ skill.state = .active := by
  simp only [promoteRow, bind_eq_ok, ensure_eq_ok] at row
  obtain ⟨_, admitted, version, successor, row⟩ := row
  obtain rfl := Except.ok.inj row
  rw [Bool.and_eq_true, decide_eq_true_eq, Option.isNone_iff_eq_none] at admitted
  exact ⟨admitted.1, admitted.2, rfl, nextVersion_eq_ok successor, admitted.2, rfl⟩

theorem nextState_ne_revoked {state : State} {enabled : Option Bool} {change : StateChange}
    (planned : nextState state enabled = .ok change) : change.state ≠ some .revoked := by
  unfold nextState at planned
  split at planned
  · split at planned
    · cases planned
    · cases planned
      nofun
  · cases planned
    nofun
  · cases planned
    nofun

theorem Revision.found (revision : Revision classify tables call current skill) :
    ∃ id, tables.skills id = some current := by
  cases revision with
  | updated id _ _ _ _ _ locked => exact ⟨id, lockOrgSkill_eq_ok locked⟩
  | revoked id _ _ locked => exact ⟨id, lockOrgSkill_eq_ok locked⟩
  | restored id _ _ _ _ locked => exact ⟨id, lockOrgSkill_eq_ok locked⟩
  | promoted _ skillId _ _ _ _ _ _ _ _ _ locked => exact ⟨skillId, lockOrgSkill_eq_ok locked⟩

theorem Revision.live (revision : Revision classify tables call current skill) :
    current.state ≠ .revoked := by
  cases revision with
  | updated _ _ _ _ _ _ _ live => exact live
  | revoked _ _ _ _ live => exact live
  | restored _ _ _ _ _ _ live => exact live
  | promoted _ _ _ _ _ _ _ _ _ _ _ _ row => simp [(promoteRow_eq_ok row).1]

theorem Revision.id_eq (revision : Revision classify tables call current skill) :
    skill.id = current.id := by
  cases revision with
  | updated _ _ _ _ _ _ _ _ _ _ row => exact (updateRow_eq_ok row).1
  | revoked _ _ _ _ _ row => exact (revokeRow_eq_ok row).1
  | restored => rfl
  | promoted _ _ _ _ _ _ _ _ _ _ _ _ row => exact (promoteRow_eq_ok row).2.2.1

theorem Revision.version_eq (revision : Revision classify tables call current skill) :
    skill.version = current.version + 1 := by
  cases revision with
  | updated _ _ _ _ _ _ _ _ _ _ row => exact (updateRow_eq_ok row).2.1
  | revoked _ _ _ _ _ row => exact (revokeRow_eq_ok row).2.1
  | restored _ _ _ _ _ _ _ _ _ _ _ successor => exact nextVersion_eq_ok successor
  | promoted _ _ _ _ _ _ _ _ _ _ _ _ row => exact (promoteRow_eq_ok row).2.2.2.1

end Revisions

end Forge.SkillEffects
