import Forge.MergeExecutor

/-! The merge executor beside pushes, checks and merges of others on the pull request. -/

namespace Forge.MergeSafety

open Forge.GithubApp
open Forge.Library.Dialogue
open Forge.Library.Interleaving
open Forge.Library.JsonDocument
open Forge.Library.StateMachine
open Forge.MergeExecutor
open Forge.SelfFixDomain

structure Page where
  runs : List CheckRun
  links : List Link

/-- The pull request and the checks of the repository. `merged` is the head that was merged;
`mergedByUs` is set when a merge call of the executor takes effect. -/
structure Remote where
  number : Int
  nodeId : String
  head : String
  draft : Bool
  merged : Option String
  mergedByUs : Bool
  checkRuns : List Char → Option Page

def Remote.pullRequest (remote : Remote) : PullRequest where
  number := remote.number
  nodeId := remote.nodeId
  headSha := remote.head
  draft := remote.draft
  merged := remote.merged.isSome

inductive Change where
  | push (head : String)
  | setDraft (draft : Bool)
  | setCheckRuns (url : List Char) (page : Option Page)
  | merge

def Remote.change (remote : Remote) : Change → Remote
  | .push head => { remote with head }
  | .setDraft draft => { remote with draft }
  | .setCheckRuns url page =>
      { remote with checkRuns := Function.update remote.checkRuns url page }
  | .merge => { remote with merged := remote.merged.or (some remote.head) }

/-- What becomes of a request: it is answered, with a body that can be read or not; it is refused;
a mutation reports errors; or it fails, with or without having taken effect. -/
inductive Choice where
  | answer (readable : Bool)
  | refuse (status : Nat) (unsuccessful : ¬ (200 ≤ status ∧ status < 300))
  | errors (body : Json)
  | lost (reached : Bool) (err : AppError)

def notDraft : Json :=
  .object [("errors", .array [.object [("message",
    .string "Pull request is not in the draft state")]])]

/-- What a request does to the pull request, and what is answered to it. -/
def Remote.serve (remote : Remote) : (operation : Op) → Remote × Nat × List Link × Option (Body operation)
  | .getPullRequest number =>
      if number = remote.number then (remote, 200, [], some remote.pullRequest)
      else (remote, 404, [], none)
  | .getCheckRuns url =>
      match remote.checkRuns url with
      | some page => (remote, 200, page.links, some page.runs)
      | none => (remote, 404, [], none)
  | .markReady nodeId =>
      if nodeId ≠ remote.nodeId then (remote, 404, [], none)
      else if remote.draft then ({ remote with draft := false }, 200, [], some (.object []))
      else (remote, 200, [], some notDraft)
  | .putMerge number sha =>
      if number ≠ remote.number then (remote, 404, [], none)
      else if remote.merged.isSome ∨ remote.draft then (remote, 405, [], none)
      else if sha ≠ remote.head then (remote, 409, [], none)
      else ({ remote with merged := some sha, mergedByUs := true }, 200, [], some ())
  | .postComment number _ =>
      if number = remote.number then (remote, 201, [], some ()) else (remote, 404, [], none)

/-- A request with what becomes of it. -/
def Remote.perform (remote : Remote) (operation : Op) :
    Choice → Remote × Except AppError (Response operation)
  | .answer readable =>
      let (after, status, links, body) := remote.serve operation
      (after, .ok ⟨status, links, if readable then body else none⟩)
  | .refuse status _ => (remote, .ok ⟨status, [], none⟩)
  | .errors json =>
      match operation with
      | .markReady _ => (remote, .ok ⟨200, [], some json⟩)
      | _ => (remote, .ok ⟨422, [], none⟩)
  | .lost reached err => (if reached then (remote.serve operation).1 else remote, .error err)

def github : Surroundings Remote Op Choice Change
    fun operation => Except AppError (Response operation) where
  perform := Remote.perform
  change := Remote.change

section Remotes

variable (remote : Remote) (operation : Op)

/-- What a request may do: nothing, make the pull request ready, or merge the expected head. -/
inductive Served : Op → Remote → Prop where
  | same (operation : Op) : Served operation remote
  | ready (nodeId : String) : Served (.markReady nodeId) { remote with draft := false }
  | merged (number : Int) (open' : remote.merged = none) :
      Served (.putMerge number remote.head)
        { remote with merged := some remote.head, mergedByUs := true }

theorem served_serve : Served remote operation (remote.serve operation).1 := by
  cases operation with
  | getPullRequest number =>
      rw [Remote.serve]
      split <;> exact .same _
  | getCheckRuns url =>
      rw [Remote.serve]
      split <;> exact .same _
  | markReady nodeId =>
      rw [Remote.serve]
      split
      · exact .same _
      · split
        · exact .ready nodeId
        · exact .same _
  | putMerge number sha =>
      rw [Remote.serve]
      split
      · exact .same _
      · split
        · exact .same _
        · next unmerged =>
            rw [not_or, Bool.not_eq_true, Option.isSome_eq_false_iff, Option.isNone_iff_eq_none]
              at unmerged
            split
            · exact .same _
            · next current =>
                rw [not_not] at current
                subst current
                exact .merged number unmerged.1
  | postComment number body =>
      rw [Remote.serve]
      split <;> exact .same _

theorem served_perform (choice : Choice) :
    Served remote operation (remote.perform operation choice).1 := by
  cases choice with
  | answer readable => exact served_serve remote operation
  | refuse status unsuccessful => exact .same _
  | errors json => cases operation <;> exact .same _
  | lost reached err =>
      cases reached
      · exact .same _
      · exact served_serve remote operation

end Remotes

section Calls

variable (apiBase repo : String) (pages : Nat) (req : MergeRequest)

/-- After these requests the pull request was read with a head, and then all the check runs of
that head were read green. -/
def GreenSince (before heard : List Exchange) (sha : String) : Prop :=
  ∃ (response : Response (.getPullRequest req.prNumber)) (pr : PullRequest)
    (checks : List Exchange) (runs : List CheckRun),
    heard = checks.reverse ++ ⟨_, .ok response⟩ :: before ∧ response.body = some pr
    ∧ pr.headSha = sha ∧ Pages (checkRunsUrl apiBase repo sha) checks runs ∧ runs ≠ []
    ∧ ∀ run ∈ runs, run.isGreen = true

/-- The pull request was read as no draft, or the transition to ready was answered. -/
inductive Readied : Exchange → Prop where
  | already {response : Response (.getPullRequest req.prNumber)} {pr : PullRequest}
      (body : response.body = some pr) (ready : pr.draft = false) : Readied ⟨_, .ok response⟩
  | marked {nodeId : String} {response : Response (.markReady nodeId)}
      (success : response.isSuccess = true) : Readied ⟨_, .ok response⟩

def ReadGreen (heard : List Exchange) (sha : String) : Prop :=
  ∃ before, GreenSince apiBase repo req before heard sha ∧ ∃ call ∈ before, Readied req call

def May (heard : List Exchange) (operation : Op) : Prop :=
  ∀ number sha, operation = .putMerge number sha →
    number = req.prNumber ∧ sha = req.recordedHeadSha ∧ req.sensitive = false
    ∧ ReadGreen apiBase repo req heard sha ∧ ∀ call ∈ heard, call.op.isMerge = false

theorem may_of_quiet {heard : List Exchange} {operation : Op}
    (quiet : operation.isMerge = false) : May apiBase repo req heard operation := by
  rintro number sha rfl
  cases quiet

theorem only_checks (head : String) :
    (allChecksGreen apiBase repo pages head).Only fun operation => operation.isMerge = false :=
  only_checksFrom (fun _ => rfl) _ _ _ _

theorem only_gateHead :
    (gateHead apiBase repo pages req).Only fun operation => operation.isMerge = false :=
  .bind (.bind (only_fetchPullRequest rfl) fun _ => .pure _) fun _ =>
    .bind (only_checks apiBase repo pages _) fun _ => .bind (.lift _) fun _ => .pure _

theorem only_ensureReady :
    (ensureReady req).Only fun operation => operation.isMerge = false := by
  refine .bind (.bind (only_fetchPullRequest rfl) fun _ => .pure _) fun draft => ?_
  split
  · refine .bind (only_fetchPullRequest rfl) fun pr => .bind (.call rfl) fun response =>
      .bind (only_expect _ _ _) fun body => ?_
    split
    · split
      · exact .pure _
      · exact .fail _
    · exact .pure _
  · exact .pure _

variable {apiBase repo pages req}

theorem greenSince_of_ends {before calls : List Exchange} {head : String}
    (ends : Ends (gateHead apiBase repo pages req) calls (.ok head)) :
    head = req.recordedHeadSha
      ∧ GreenSince apiBase repo req before (calls.reverse ++ before) head := by
  obtain ⟨_, _, sha, rfl, read, verify⟩ := ends_bind.1 ends
  obtain ⟨_, _, pr, rfl, fetch, done⟩ := ends_bind.1 read
  obtain ⟨response, rfl, -, body⟩ := ends_fetchPullRequest.1 fetch
  obtain ⟨rfl, rfl⟩ := ends_pure.1 done
  obtain ⟨checks, _, green, rfl, checked, decides⟩ := ends_bind.1 verify
  obtain ⟨_, _, _, rfl, gate, returns⟩ := ends_bind.1 decides
  obtain ⟨rfl, passed⟩ := ends_lift.1 gate
  obtain ⟨rfl, rfl⟩ := ends_pure.1 returns
  obtain ⟨-, rfl, current⟩ := evaluate_eq_ok.1 passed
  obtain ⟨runs, read, -, all⟩ := (ends_allChecksGreen _ _).1 checked
  refine ⟨by simpa using current, response, pr, checks, runs, ?_, body, rfl, read, all.1 rfl⟩
  simp

theorem readied_of_ends {calls : List Exchange} (ends : Ends (ensureReady req) calls (.ok ())) :
    ∃ call ∈ calls, Readied req call := by
  obtain ⟨_, rest, draft, rfl, read, goes⟩ := ends_bind.1 ends
  obtain ⟨_, _, pr, rfl, fetch, done⟩ := ends_bind.1 read
  obtain ⟨response, rfl, -, body⟩ := ends_fetchPullRequest.1 fetch
  obtain ⟨rfl, rfl⟩ := ends_pure.1 done
  cases draft : pr.draft with
  | false => exact ⟨_, .head _, .already body draft⟩
  | true =>
      rw [if_pos draft] at goes
      obtain ⟨_, _, pr, rfl, -, mutates⟩ := ends_bind.1 goes
      obtain ⟨_, _, response, rfl, call, answers⟩ := ends_bind.1 mutates
      obtain rfl := ends_call.1 call
      obtain ⟨_, _, body, rfl, expected, -⟩ := ends_bind.1 answers
      obtain ⟨-, success, -⟩ := ends_expect.1 expected
      refine ⟨_, ?_, .marked success⟩
      simp

def Quiet (heard : List Exchange) : Prop :=
  ∀ call ∈ heard, call.op.isMerge = false

theorem obeys_quiet {α : Type} {program : Client α} {good : α → List Exchange → Prop}
    {heard : List Exchange} (only : program.Only fun operation => operation.isMerge = false)
    (quiet : Quiet heard)
    (ends : ∀ calls value, Ends program calls (.ok value) → good value (calls.reverse ++ heard)) :
    Obeys (May apiBase repo req)
      (fun outcome later => Quiet later ∧ ∀ value, outcome = .ok value → good value later)
      program heard := by
  have marked : ∀ calls outcome, Ends program calls outcome → Quiet (calls.reverse ++ heard) := by
    intro calls outcome ended call member
    rcases List.mem_append.1 member with new | old
    · exact ended.only only call (List.mem_reverse.1 new)
    · exact quiet call old
  refine obeys_of_ends only (fun _ _ => may_of_quiet apiBase repo req) fun calls outcome ended => ?_
  refine ⟨marked calls outcome ended, ?_⟩
  rintro value rfl
  exact ends calls value ended

/-- What was answered when the executor reports a merge: that the pull request is merged already,
or that the recorded head was merged. -/
inductive Reports (req : MergeRequest) : MergeOutcome → List Exchange → Prop where
  | already {response : Response (.getPullRequest req.prNumber)} {pr : PullRequest}
      (body : response.body = some pr) (merged : pr.merged = true) :
      Reports req ⟨req.prNumber, req.recordedHeadSha, true⟩ [⟨_, .ok response⟩]
  | merged {response : Response (.putMerge req.prNumber req.recordedHeadSha)}
      {heard : List Exchange} (member : ⟨_, .ok response⟩ ∈ heard)
      (success : response.isSuccess = true) :
      Reports req ⟨req.prNumber, req.recordedHeadSha, false⟩ heard

theorem obeys_runMergeExecutor (auditBody : String) :
    Obeys (May apiBase repo req)
      (fun outcome heard => ∀ report, outcome = .ok report → Reports req report heard)
      (runMergeExecutor apiBase repo pages req auditBody) [] := by
  rw [runMergeExecutor]
  split
  · exact fun _ => nofun
  next calm =>
  rw [Bool.not_eq_true] at calm
  have asked : Obeys (May apiBase repo req)
      (fun outcome later => Quiet later ∧ ∀ merged, outcome = .ok merged →
        merged = true → Reports req ⟨req.prNumber, req.recordedHeadSha, true⟩ later)
      (prIsMerged req.prNumber) [] := by
    refine obeys_quiet (.bind (only_fetchPullRequest rfl) fun _ => .pure _) (fun _ => nofun) ?_
    rintro calls merged ends rfl
    obtain ⟨_, _, pr, rfl, fetch, done⟩ := ends_bind.1 ends
    obtain ⟨response, rfl, -, body⟩ := ends_fetchPullRequest.1 fetch
    obtain ⟨rfl, merged⟩ := ends_pure.1 done
    exact .already body merged.symm
  refine obeys_bind asked (fun merged heard told => ?_) (fun _ _ _ _ => nofun)
  split
  next already =>
    rintro report ⟨⟩
    exact told.2 _ rfl already
  have gate : ∀ heard : List Exchange, Quiet heard → Obeys (May apiBase repo req)
      (fun outcome later => Quiet later ∧ ∀ head, outcome = .ok head →
        head = req.recordedHeadSha ∧ GreenSince apiBase repo req heard later head)
      (gateHead apiBase repo pages req) heard := fun heard quiet =>
    obeys_quiet (only_gateHead _ _ _ _) quiet fun _ _ => greenSince_of_ends
  refine obeys_bind (gate heard told.1) (fun _ gated first => ?_) (fun _ _ _ _ => nofun)
  have ready : Obeys (May apiBase repo req)
      (fun outcome later => Quiet later ∧ ∀ value, outcome = .ok value →
        ∃ call ∈ later, Readied req call) (ensureReady req) gated := by
    refine obeys_quiet (only_ensureReady req) first.1 fun calls _ ends => ?_
    obtain ⟨call, member, readied⟩ := readied_of_ends ends
    exact ⟨call, List.mem_append_left _ (List.mem_reverse.2 member), readied⟩
  refine obeys_bind ready (fun _ marked readied => ?_) (fun _ _ _ _ => nofun)
  refine obeys_bind (gate marked readied.1) (fun head verified fresh => ?_) (fun _ _ _ _ => nofun)
  obtain ⟨quiet, passed⟩ := fresh
  obtain ⟨rfl, green⟩ := passed head rfl
  have may : May apiBase repo req verified (.putMerge req.prNumber req.recordedHeadSha) := by
    rintro _ _ ⟨⟩
    exact ⟨rfl, rfl, calm, ⟨marked, green, readied.2 () rfl⟩, quiet⟩
  have merge : Obeys (May apiBase repo req)
      (fun outcome later => outcome = .ok () →
        ∃ response : Response (.putMerge req.prNumber req.recordedHeadSha),
          response.isSuccess = true ∧ ⟨_, .ok response⟩ ∈ later)
      (mergeWithExpectedHead req.prNumber req.recordedHeadSha) verified := by
    refine obeys_bind (obeys_call may) ?_ (fun _ _ _ => nofun)
    rintro response _ rfl
    split
    next success => exact fun _ => ⟨response, success, .head _⟩
    split
    · nofun
    split <;> nofun
  refine obeys_bind merge (fun _ confirmed answered => ?_) (fun _ _ _ _ => nofun)
  obtain ⟨response, success, member⟩ := answered rfl
  have commented : Obeys (May apiBase repo req)
      (fun _ later => (⟨_, .ok response⟩ : Exchange) ∈ later)
      (comment req.prNumber auditBody) confirmed := by
    refine obeys_bind (obeys_call (may_of_quiet apiBase repo req rfl)) ?_ ?_
    · rintro response _ rfl
      split <;> exact .tail _ member
    · rintro err _ rfl
      exact .tail _ member
  refine obeys_bind commented (fun _ later kept => ?_) (fun _ _ _ _ => nofun)
  rintro report ⟨⟩
  exact .merged kept success

end Calls

section Safety

variable (apiBase repo : String) (pages : Nat) (req : MergeRequest) (auditBody : String)

abbrev Execution := Talk Remote Op (fun operation => Except AppError (Response operation))
  (Except AppError MergeOutcome)

structure Begins (remote : Remote) : Prop where
  number : remote.number = req.prNumber
  ours : remote.mergedByUs = false

/-- A pull request that the executor finds merged at its first request was merged at the recorded
head. -/
def mergedAsReviewed (talk : Execution) : Turn Choice Change → Prop
  | .call (.answer true) => req.sensitive = false → talk.heard = [] →
      ∀ sha, talk.world.merged = some sha → sha = req.recordedHeadSha
  | _ => True

structure MergeSafe (talk : Execution) : Prop where
  once : talk.heard.countP (fun call => call.op.isMerge) ≤ 1
  guarded : ∀ later before number sha reply,
    talk.heard = later ++ ⟨.putMerge number sha, reply⟩ :: before →
      number = req.prNumber ∧ sha = req.recordedHeadSha ∧ req.sensitive = false
      ∧ ReadGreen apiBase repo req before sha
  effect : talk.world.mergedByUs = true → talk.world.merged = some req.recordedHeadSha
  uncalled : (∀ call ∈ talk.heard, call.op.isMerge = false) → talk.world.mergedByUs = false
  reported : ∀ report, talk.program = .done (.ok report) →
    report.prNumber = talk.world.number ∧ report.mergedHeadSha = req.recordedHeadSha
    ∧ talk.world.merged = some report.mergedHeadSha

/-- What the answers tell of the pull request, now and later. -/
structure Told (talk : Execution) : Prop where
  number : talk.world.number = req.prNumber
  confirmed : ∀ number sha (response : Response (.putMerge number sha)),
    ⟨_, .ok response⟩ ∈ talk.heard → response.isSuccess = true → talk.world.merged = some sha
  ours : talk.world.mergedByUs = true →
    ∃ number sha reply, ⟨.putMerge number sha, reply⟩ ∈ talk.heard
      ∧ talk.world.merged = some sha
  first : ∀ (response : Response (.getPullRequest req.prNumber)) pr,
    talk.heard = [⟨_, .ok response⟩] → response.body = some pr → pr.merged = true →
      talk.world.merged = some req.recordedHeadSha
  begins : talk.heard = [] → talk.program = runMergeExecutor apiBase repo pages req auditBody

variable {apiBase repo pages req auditBody}

theorem count_le_one {heard : List Exchange} (lawful : Lawful (May apiBase repo req) heard) :
    heard.countP (fun call => call.op.isMerge) ≤ 1 := by
  induction heard with
  | nil => exact Nat.zero_le _
  | cons call before ih =>
      obtain ⟨may, earlier⟩ := lawful
      obtain ⟨operation, reply⟩ := call
      cases operation with
      | putMerge number sha =>
          obtain ⟨-, -, -, -, quiet⟩ := may number sha rfl
          have none : before.countP (fun call => call.op.isMerge) = 0 :=
            List.countP_eq_zero.2 fun call member => by simp [quiet call member]
          rw [List.countP_cons, none]
          rfl
      | _ => exact ih earlier

theorem merged_change {remote : Remote} {change : Change} {sha : String}
    (merged : remote.merged = some sha) : (remote.change change).merged = some sha := by
  cases change with
  | merge => simp [Remote.change, merged]
  | _ => exact merged

theorem merged_perform {remote : Remote} {operation : Op} {choice : Choice} {sha : String}
    (merged : remote.merged = some sha) :
    (remote.perform operation choice).1.merged = some sha := by
  have served := served_perform remote operation choice
  revert served
  generalize (remote.perform operation choice).1 = after
  rintro (_ | _ | ⟨-, unmerged⟩)
  · exact merged
  · exact merged
  · cases unmerged.symm.trans merged

theorem merged_of_status {remote : Remote} {number : Int} {sha : String}
    (success : 200 ≤ (remote.serve (.putMerge number sha)).2.1
      ∧ (remote.serve (.putMerge number sha)).2.1 < 300) :
    (remote.serve (.putMerge number sha)).1.merged = some sha := by
  revert success
  rw [Remote.serve]
  split
  · simp
  · split
    · simp
    · split <;> simp

theorem merged_of_success {remote : Remote} {number : Int} {sha : String} {choice : Choice}
    {response : Response (.putMerge number sha)}
    (answered : (remote.perform (.putMerge number sha) choice).2 = .ok response)
    (success : response.isSuccess = true) :
    (remote.perform (.putMerge number sha) choice).1.merged = some sha := by
  cases choice with
  | answer readable =>
      obtain rfl := Except.ok.inj answered
      exact merged_of_status (of_decide_eq_true success)
  | refuse status unsuccessful =>
      obtain rfl := Except.ok.inj answered
      exact absurd (of_decide_eq_true success) unsuccessful
  | errors json =>
      obtain rfl := Except.ok.inj answered
      cases success
  | lost reached err => cases answered

theorem pullRequest_of_serve {remote : Remote} {number : Int} {pr : PullRequest}
    (body : (remote.serve (.getPullRequest number)).2.2.2 = some pr) :
    pr = remote.pullRequest := by
  revert body
  rw [Remote.serve]
  split
  · exact fun body => (Option.some.inj body).symm
  · nofun

theorem pullRequest_of_body {remote : Remote} {number : Int} {choice : Choice} {pr : PullRequest}
    {response : Response (.getPullRequest number)}
    (answered : (remote.perform (.getPullRequest number) choice).2 = .ok response)
    (body : response.body = some pr) : choice = .answer true ∧ pr = remote.pullRequest := by
  cases choice with
  | answer readable =>
      have same : (if readable then (remote.serve (.getPullRequest number)).2.2.2 else none) =
          response.body := congrArg Response.body (Except.ok.inj answered)
      rw [← same] at body
      cases readable with
      | false => cases body
      | true => exact ⟨rfl, pullRequest_of_serve body⟩
  | refuse status unsuccessful =>
      obtain rfl := Except.ok.inj answered
      cases body
  | errors json =>
      obtain rfl := Except.ok.inj answered
      cases body
  | lost reached err => cases answered

theorem Told.change {talk : Execution} {change : Change}
    (told : Told apiBase repo pages req auditBody talk) :
    Told apiBase repo pages req auditBody
      { talk with world := talk.world.change change } where
  number := by cases change <;> exact told.number
  confirmed number sha response member success :=
    merged_change (told.confirmed number sha response member success)
  ours ours := by
    have before : talk.world.mergedByUs = true := by cases change <;> exact ours
    obtain ⟨number, sha, reply, member, merged⟩ := told.ours before
    exact ⟨number, sha, reply, member, merged_change merged⟩
  first response pr heard body merged := merged_change (told.first response pr heard body merged)
  begins := told.begins

theorem Told.call {talk : Execution} {choice : Choice} {operation : Op}
    {next : Except AppError (Response operation) →
      Prog Op (fun operation => Except AppError (Response operation)) (Except AppError MergeOutcome)}
    (told : Told apiBase repo pages req auditBody talk)
    (may : mergedAsReviewed req talk (.call choice)) (due : talk.program = .op operation next) :
    Told apiBase repo pages req auditBody
      ⟨(talk.world.perform operation choice).1,
        ⟨operation, (talk.world.perform operation choice).2⟩ :: talk.heard,
        next (talk.world.perform operation choice).2⟩ where
  number := by
    have served := served_perform talk.world operation choice
    revert served
    generalize (talk.world.perform operation choice).1 = after
    rintro (_ | _ | _) <;> exact told.number
  confirmed number sha response member success := by
    rcases List.mem_cons.1 member with now | before
    · obtain ⟨rfl, same⟩ := Call.mk.inj now
      exact merged_of_success (eq_of_heq same).symm success
    · exact merged_perform (told.confirmed number sha response before success)
  ours ours := by
    by_cases before : talk.world.mergedByUs = true
    · obtain ⟨number, sha, reply, member, merged⟩ := told.ours before
      exact ⟨number, sha, reply, .tail _ member, merged_perform merged⟩
    · have served := served_perform talk.world operation choice
      revert served ours
      generalize (talk.world.perform operation choice).1 = after
      intro ours served
      cases served with
      | same => exact absurd ours before
      | ready => exact absurd ours before
      | merged number => exact ⟨number, _, _, .head _, rfl⟩
  first response pr heard body merged := by
    obtain ⟨now, none⟩ := List.cons.inj heard
    obtain ⟨rfl, same⟩ := Call.mk.inj now
    obtain ⟨rfl, rfl⟩ := pullRequest_of_body (eq_of_heq same) body
    have calm : req.sensitive = false := by
      rw [Bool.eq_false_iff]
      intro sensitive
      have start := told.begins none
      rw [runMergeExecutor, if_pos sensitive, due] at start
      cases start
    obtain ⟨sha, found⟩ := Option.isSome_iff_exists.1 merged
    rw [← may calm none sha found]
    exact merged_perform found
  begins heard := nomatch heard

theorem told_of_reached {talk : Execution}
    (reached : Reached github (mergedAsReviewed req) (Begins req)
      (runMergeExecutor apiBase repo pages req auditBody) talk) :
    Told apiBase repo pages req auditBody talk := by
  refine reached.invariant (Told apiBase repo pages req auditBody) ?_
    (fun _ _ told _ => told.change) (fun _ _ _ _ told may due => told.call may due)
  intro remote begins
  refine ⟨begins.number, fun _ _ _ => nofun, fun ours => ?_, fun _ _ => nofun, fun _ => rfl⟩
  cases begins.ours.symm.trans ours

theorem mergeSafe_of_reached {talk : Execution}
    (reached : Reached github (mergedAsReviewed req) (Begins req)
      (runMergeExecutor apiBase repo pages req auditBody) talk) :
    MergeSafe apiBase repo req talk := by
  have told := told_of_reached reached
  obtain ⟨lawful, obeys⟩ := reached.obeys (obeys_runMergeExecutor auditBody)
  have guarded : ∀ later before number sha reply,
      talk.heard = later ++ ⟨.putMerge number sha, reply⟩ :: before →
        number = req.prNumber ∧ sha = req.recordedHeadSha ∧ req.sensitive = false
        ∧ ReadGreen apiBase repo req before sha := by
    intro later before number sha reply heard
    rw [heard] at lawful
    obtain ⟨same, recorded, calm, green, -⟩ := lawful.of_append number sha rfl
    exact ⟨same, recorded, calm, green⟩
  refine ⟨count_le_one lawful, guarded, fun ours => ?_, fun quiet => ?_, fun report ended => ?_⟩
  · obtain ⟨number, sha, reply, member, merged⟩ := told.ours ours
    obtain ⟨later, before, heard⟩ := List.append_of_mem member
    rw [← (guarded later before number sha reply heard).2.1]
    exact merged
  · rw [Bool.eq_false_iff]
    intro ours
    obtain ⟨number, sha, reply, member, -⟩ := told.ours ours
    cases quiet _ member
  · rw [ended] at obeys
    have reports : Reports req report talk.heard := obeys report rfl
    generalize heard : talk.heard = calls at reports
    cases reports with
    | already body merged =>
        exact ⟨told.number.symm, rfl, told.first _ _ heard body merged⟩
    | merged member success =>
        rw [← heard] at member
        exact ⟨told.number.symm, rfl, told.confirmed _ _ _ member success⟩

variable (apiBase repo pages req auditBody) in
theorem runMergeExecutor_merged (calm : req.sensitive = false) :
    ∃ next, runMergeExecutor apiBase repo pages req auditBody =
        .op (.getPullRequest req.prNumber) next
      ∧ ∀ pr : PullRequest, pr.merged = true → next (.ok ⟨200, [], some pr⟩) =
          .done (.ok ⟨req.prNumber, req.recordedHeadSha, true⟩) := by
  rw [runMergeExecutor, if_neg (by simp [calm])]
  refine ⟨_, rfl, ?_⟩
  rintro ⟨number, nodeId, headSha, draft, merged⟩ rfl
  rfl

theorem mergedAsReviewed_of_safe {talk : Execution} {turn : Turn Choice Change}
    (told : Told apiBase repo pages req auditBody talk)
    (safe : MergeSafe apiBase repo req (exec github talk turn)) :
    mergedAsReviewed req talk turn := by
  cases turn with
  | change change => trivial
  | call choice =>
      cases choice with
      | answer readable =>
          cases readable with
          | false => trivial
          | true =>
              intro calm fresh sha merged
              obtain ⟨remote, heard, program⟩ := talk
              obtain ⟨next, starts, returns⟩ :=
                runMergeExecutor_merged apiBase repo pages req auditBody calm
              obtain rfl : program = .op _ next := (told.begins fresh).trans starts
              have answered : remote.perform (.getPullRequest req.prNumber) (.answer true) =
                  (remote, .ok ⟨200, [], some remote.pullRequest⟩) := by
                have number : remote.number = req.prNumber := told.number
                simp [Remote.perform, Remote.serve, number]
              have ended := returns remote.pullRequest (Option.isSome_of_mem merged)
              simp only [exec, github, answered] at safe
              obtain ⟨-, -, reported⟩ := safe.reported _ ended
              exact Option.some.inj (merged.symm.trans reported)
      | _ => trivial

/-- The executor merges at most once, only the recorded head of a change that is not sensitive,
which was read green after the transition to ready; what it reports is merged. -/
theorem merges_only_verified {talk : Execution}
    (reached : Reached github (mergedAsReviewed req) (Begins req)
      (runMergeExecutor apiBase repo pages req auditBody) talk) :
    MergeSafe apiBase repo req talk
    ∧ (∀ turn, MergeSafe apiBase repo req (exec github talk turn) ↔
        mergedAsReviewed req talk turn)
    ∧ ∀ headSha calls green, Ends (allChecksGreen apiBase repo pages headSha) calls (.ok green) ↔
        ∃ runs, Pages (checkRunsUrl apiBase repo headSha) calls runs ∧ calls.length ≤ pages
          ∧ (green = true ↔ runs ≠ [] ∧ ∀ run ∈ runs,
              run.status = "completed" ∧ run.conclusion = some "success") := by
  refine ⟨mergeSafe_of_reached reached, fun turn => ⟨fun safe => ?_, fun may => ?_⟩, ?_⟩
  · exact mergedAsReviewed_of_safe (told_of_reached reached) safe
  · exact mergeSafe_of_reached (reached.step may)
  · intro headSha calls green
    rw [ends_allChecksGreen]
    simp only [CheckRun.isGreen, Bool.and_eq_true, beq_iff_eq]

end Safety

namespace Sample

def req : MergeRequest where
  prNumber := 7
  recordedHeadSha := "reviewed"
  sensitive := false

def remote : Remote where
  number := 7
  nodeId := "PR_7"
  head := "reviewed"
  draft := true
  merged := none
  mergedByUs := false
  checkRuns _ := some ⟨[⟨"completed", some "success"⟩], []⟩

def opening (remote : Remote) : Execution :=
  ⟨remote, [], runMergeExecutor "" "" 2 req "audit"⟩

def merging : Execution :=
  run (exec github) (opening remote) (List.replicate 10 (.call (.answer true)))

theorem reached : Reached github (mergedAsReviewed req) (Begins req)
    (runMergeExecutor "" "" 2 req "audit") merging := by
  refine reachable_run ⟨⟨rfl, rfl⟩, rfl, rfl⟩ ?_
  exact ⟨fun _ _ _ => nofun, fun _ => nofun, fun _ => nofun, fun _ => nofun, fun _ => nofun,
    fun _ => nofun, fun _ => nofun, fun _ => nofun, fun _ => nofun, fun _ => nofun, trivial⟩

def overtaken : Execution :=
  run (exec github) (opening remote)
    [.change (.push "other"), .change .merge, .call (.answer true)]

end Sample

open Sample in
/-- A draft that is made ready, verified again and merged. -/
theorem merges_only_verified_merging :
    merging.world.mergedByUs = true
    ∧ MergeSafe "" "" req merging
    ∧ (∀ turn, MergeSafe "" "" req (exec github merging turn) ↔
        mergedAsReviewed req merging turn)
    ∧ ∀ headSha calls green, Ends (allChecksGreen "" "" 2 headSha) calls (.ok green) ↔
        ∃ runs, Pages (checkRunsUrl "" "" headSha) calls runs ∧ calls.length ≤ 2
          ∧ (green = true ↔ runs ≠ [] ∧ ∀ run ∈ runs,
              run.status = "completed" ∧ run.conclusion = some "success") :=
  ⟨rfl, merges_only_verified reached⟩

open Sample in
/-- A pull request that others merged at another head is reported as the recorded head merged. -/
theorem reports_other_head :
    ¬ ∀ talk, Reached github (fun _ _ => True) (Begins req)
      (runMergeExecutor "" "" 2 req "audit") talk → MergeSafe "" "" req talk := by
  intro safe
  have reached : Reached github (fun _ _ => True) (Begins req)
      (runMergeExecutor "" "" 2 req "audit") overtaken :=
    reachable_run ⟨⟨rfl, rfl⟩, rfl, rfl⟩ ⟨trivial, trivial, trivial, trivial⟩
  obtain ⟨-, -, merged⟩ := (safe overtaken reached).reported ⟨7, "reviewed", true⟩ rfl
  have other : overtaken.world.merged = some "other" := rfl
  exact absurd (Option.some.inj (other.symm.trans merged)) (by decide)

end Forge.MergeSafety
