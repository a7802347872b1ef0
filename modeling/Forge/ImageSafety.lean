import Forge.ImageTrust

/-! The alias of a CLI tool and the superseded images, whatever others do to the daemon and the
registry and whichever calls fail. -/

namespace Forge.ImageSafety

open Forge.CliImages
open Forge.CliImageUpdater
open Forge.ImageTrust
open Forge.Library.Dialogue
open Forge.Library.StateMachine
open Forge.Library.Text

section Worlds

variable {Version : Type} [LT Version] (parse : List Char → Except (List Char) Version)
  (labels : List Char → Labels) (environment : Environment)

def pulledRef (tool : CliToolKind) : List Char :=
  Daemon.reference (splitRepoTag (remoteRef environment tool)).1
    (splitRepoTag (remoteRef environment tool)).2

/-- What a call of an update changes: a reference it moves is the pulled one, and not the alias,
or it is the alias, and nothing failed before, and it is moved to a verified candidate. -/
structure Moves (tool : CliToolKind) (heard : Heard) (before after : Daemon)
    (newer : LocalImageIdentity → Prop) : Prop where
  kept : ∀ id ∈ before.images, id ∈ after.images
  moved : ∀ imageRef, after.behind imageRef ≠ before.behind imageRef →
    imageRef = pulledRef environment tool ∧ imageRef ≠ localRuntimeRef tool
    ∨ imageRef = localRuntimeRef tool ∧ Clean heard ∧ ∃ candidate,
      after.behind imageRef = some candidate.id
        ∧ Verified heard (remoteRef environment tool) candidate ∧ newer candidate

/-- What a call of a prune changes: an image that it removes was superseded, and only its tags go
with it. -/
structure Removes (heard : Heard) (before after : Daemon) (untagged : List Char → Prop) :
    Prop where
  removed : ∀ id ∈ before.images, id ∉ after.images →
    Superseded environment heard id ∧ untagged id
  kept : ∀ imageRef, after.behind imageRef ≠ before.behind imageRef →
    ∃ id, before.behind imageRef = some id ∧ id ∉ after.images

def NewerAsFound (tool : CliToolKind) (heard : Heard) (candidate : LocalImageIdentity) : Prop :=
  ∃ runtime, Inspected heard (localRuntimeRef tool) runtime ∧ ∀ other, runtime = some other →
    NotOlder parse candidate.id other.id candidate.labels other.labels

def NewerAsIs (tool : CliToolKind) (daemon : Daemon) (candidate : LocalImageIdentity) : Prop :=
  ∀ id, id ≠ [] → daemon.behind (localRuntimeRef tool) = some id →
    NotOlder parse candidate.id id (labels candidate.id) (labels id)

def Untagged (daemon : Daemon) (id : List Char) : Prop :=
  ∀ imageRef, daemon.behind imageRef ≠ some id

variable {parse} {labels} {environment}

variable (labels) in
theorem perform_cases (daemon : Daemon) (operation : Op) (choice : Daemon.Choice) :
    (daemon.perform labels operation choice).1 = daemon
      ∨ (daemon.perform labels operation choice).1 = (daemon.serve labels operation).1 := by
  cases choice with
  | served => exact .inr rfl
  | busy =>
      cases operation with
      | tryLock => exact .inl rfl
      | begin | commit | inspectRegistryImage | inspectImage | createImage | tagImage
      | cosignVerify | listImages | listContainers | removeImage => exact .inr rfl
  | lost reached err =>
      cases reached with
      | true => exact .inr rfl
      | false => exact .inl rfl

theorem serve_harmless {daemon : Daemon} {operation : Op} (harmless : Harmless operation) :
    (daemon.serve labels operation).1 = daemon := by
  cases operation with
  | createImage | tagImage | removeImage => exact harmless.elim
  | begin | tryLock | commit | listImages | listContainers => rfl
  | inspectRegistryImage | inspectImage | cosignVerify =>
      rw [Daemon.serve]
      split <;> rfl

variable (labels) in
theorem serve_createImage (daemon : Daemon) (repo tag : List Char) :
    let after := (daemon.serve labels (.createImage repo tag)).1
    (∀ id ∈ daemon.images, id ∈ after.images)
      ∧ ∀ imageRef, imageRef ≠ Daemon.reference repo tag →
        after.behind imageRef = daemon.behind imageRef := by
  dsimp only
  rw [Daemon.serve]
  split
  case h_1 digest id _ =>
      refine ⟨fun other member => ?_, fun imageRef others => ?_⟩
      · show other ∈ (if id ∈ daemon.images then daemon.images else id :: daemon.images)
        split
        · exact member
        · exact List.mem_cons_of_mem _ member
      · rw [Daemon.behind_setTag, if_neg others]
        rfl
  case h_2 => exact ⟨fun _ member => member, fun _ _ => rfl⟩

variable (labels) in
theorem serve_tagImage (daemon : Daemon) (source repo tag : List Char) :
    let after := (daemon.serve labels (.tagImage source repo tag)).1
    after.images = daemon.images ∧ ∀ imageRef, after.behind imageRef ≠ daemon.behind imageRef →
      imageRef = Daemon.reference repo tag ∧ after.behind imageRef = some source := by
  dsimp only
  rw [Daemon.serve]
  split
  case isTrue =>
      refine ⟨rfl, fun imageRef moved => ?_⟩
      rw [Daemon.behind_setTag] at moved ⊢
      split at moved
      case isTrue same => exact ⟨same, if_pos same⟩
      case isFalse => exact absurd rfl moved
  case isFalse => exact ⟨rfl, fun _ moved => absurd rfl moved⟩

variable (labels) in
theorem serve_removeImage (daemon : Daemon) (id : List Char) :
    let after := (daemon.serve labels (.removeImage id)).1
    after = daemon ∨ after = daemon.remove id := by
  dsimp only
  rw [Daemon.serve]
  split
  · exact .inl rfl
  · split
    · exact .inl rfl
    · exact .inr rfl

theorem perform_inspectImage (daemon : Daemon) (imageRef : List Char) (choice : Daemon.Choice) :
    (∀ info, (daemon.perform labels (.inspectImage imageRef) choice).2 = .ok info →
      ∃ id, daemon.behind imageRef = some id ∧ info.id = some id ∧ info.labels = some (labels id))
    ∧ ∀ err, (daemon.perform labels (.inspectImage imageRef) choice).2 = .error err →
      err.isNotFound → daemon.behind imageRef = none := by
  have served : (∀ info, (daemon.serve labels (.inspectImage imageRef)).2 = .ok info →
      ∃ id, daemon.behind imageRef = some id ∧ info.id = some id ∧ info.labels = some (labels id))
      ∧ ∀ err, (daemon.serve labels (.inspectImage imageRef)).2 = .error err →
        err.isNotFound → daemon.behind imageRef = none := by
    rw [Daemon.serve]
    split
    case h_1 id here =>
        refine ⟨?_, nofun⟩
        rintro _ ⟨⟩
        exact ⟨id, here, rfl, rfl⟩
    case h_2 here => exact ⟨nofun, fun _ _ _ => here⟩
  cases choice with
  | served => exact served
  | busy => exact served
  | lost reached err other =>
      refine ⟨nofun, ?_⟩
      rintro _ ⟨⟩ missing
      rw [other] at missing
      cases missing

theorem reference_localRuntimeRef (tool : CliToolKind) :
    Daemon.reference (splitRepoTag (localRuntimeRef tool)).1 (splitRepoTag (localRuntimeRef tool)).2
      = localRuntimeRef tool := by
  cases tool <;> decide +kernel

theorem pulledRef_ne (tool other : CliToolKind) :
    pulledRef environment tool ≠ localRuntimeRef other := by
  intro same
  have slash : '/' ∈ pulledRef environment tool := by
    refine List.mem_append_left _ (mem_splitRepoTag ?_)
    rw [remoteRef]
    simp
  rw [same] at slash
  revert slash
  cases other <;> decide +kernel

section Alias

variable {tool : CliToolKind} {heard : Heard} {operation : Op}

theorem behind_alias (daemon : Daemon) (choice : Daemon.Choice)
    (may : mayUpdate parse (remoteRef environment tool) (localRuntimeRef tool) heard operation)
    (untagged : ∀ source repo tag, operation ≠ .tagImage source repo tag) :
    (daemon.perform labels operation choice).1.behind (localRuntimeRef tool)
      = daemon.behind (localRuntimeRef tool) := by
  rcases perform_cases labels daemon operation choice with same | same
  · rw [same]
  · rw [same]
    cases operation with
    | createImage repo tag =>
        refine (serve_createImage labels daemon repo tag).2 _ fun here => ?_
        obtain ⟨rfl, rfl⟩ := Prod.mk.inj may
        exact pulledRef_ne tool tool here.symm
    | tagImage source repo tag => exact absurd rfl (untagged source repo tag)
    | removeImage id => exact may.elim
    | begin | tryLock | commit | inspectRegistryImage | inspectImage | cosignVerify | listImages
    | listContainers =>
        exact congrArg (Daemon.behind · (localRuntimeRef tool)) (serve_harmless trivial)

/-- The inspections tell the labels of what they found, and, until the alias is tagged by the
update or moved by others, what is behind it. -/
structure Known (labels : List Char → Labels) (tool : CliToolKind) (quiet : Prop) (daemon : Daemon)
    (heard : Heard) : Prop where
  labelled : ∀ imageRef info, Answered heard (.inspectImage imageRef) info →
    ∃ id, info.id = some id ∧ info.labels = some (labels id)
  found : quiet → (∀ call ∈ heard, ∀ source repo tag, call.op ≠ .tagImage source repo tag) →
    ∀ info, Answered heard (.inspectImage (localRuntimeRef tool)) info →
      info.id = daemon.behind (localRuntimeRef tool)
  missing : quiet → (∀ call ∈ heard, ∀ source repo tag, call.op ≠ .tagImage source repo tag) →
    ∀ err, err.isNotFound → ⟨.inspectImage (localRuntimeRef tool), .error err⟩ ∈ heard →
      daemon.behind (localRuntimeRef tool) = none

theorem Known.call {quiet : Prop} {daemon : Daemon} (known : Known labels tool quiet daemon heard)
    (choice : Daemon.Choice)
    (may : mayUpdate parse (remoteRef environment tool) (localRuntimeRef tool) heard operation) :
    Known labels tool quiet (daemon.perform labels operation choice).1
      (⟨operation, (daemon.perform labels operation choice).2⟩ :: heard) := by
  refine ⟨fun imageRef info answered => ?_, fun holds untagged info answered => ?_,
    fun holds untagged err missing answered => ?_⟩
  · rcases List.mem_cons.1 answered with now | before
    · obtain ⟨rfl, same⟩ := Call.mk.inj now
      obtain ⟨id, -, told⟩ := (perform_inspectImage daemon imageRef choice).1 info (eq_of_heq same).symm
      exact ⟨id, told⟩
    · exact known.labelled imageRef info before
  all_goals
    obtain ⟨first, others⟩ := List.forall_mem_cons.1 untagged
    rw [behind_alias daemon choice may first]
    rcases List.mem_cons.1 answered with now | before
  · obtain ⟨rfl, same⟩ := Call.mk.inj now
    obtain ⟨id, here, told, -⟩ :=
      (perform_inspectImage daemon _ choice).1 info (eq_of_heq same).symm
    rw [here, told]
  · exact known.found holds others info before
  · obtain ⟨rfl, same⟩ := Call.mk.inj now
    exact (perform_inspectImage daemon _ choice).2 err (eq_of_heq same).symm missing
  · exact known.missing holds others err missing before

theorem Known.newer {quiet : Prop} {daemon : Daemon} (known : Known labels tool quiet daemon heard)
    (holds : quiet) (clean : Clean heard) {candidate : LocalImageIdentity}
    (verified : Verified heard (remoteRef environment tool) candidate)
    (newer : NewerAsFound parse tool heard candidate) : NewerAsIs parse labels tool daemon candidate := by
  intro id nonempty behind
  have untagged : ∀ call ∈ heard, ∀ source repo tag, call.op ≠ .tagImage source repo tag :=
    fun call member => (clean call member).2
  obtain ⟨info, answered, same⟩ := verified.inspected
  obtain ⟨own, ownId, ownLabels⟩ := known.labelled _ info answered
  obtain ⟨sameId, sameLabels⟩ := localImageIdentity_eq_some info _ same
  rw [ownId, Option.some.injEq] at sameId
  rw [ownLabels, sameId, Option.getD_some] at sameLabels
  obtain ⟨runtime, inspected, newer⟩ := newer
  rcases inspected with ⟨there, answered, same⟩ | ⟨-, err, missing, answered⟩
  · have here := known.found holds untagged there answered
    rw [behind] at here
    obtain ⟨other, found, otherId⟩ := localImageIdentity_of_id there (localRuntimeRef tool) here
      nonempty
    obtain ⟨-, otherLabels⟩ := localImageIdentity_eq_some there _ found
    obtain ⟨given, givenId, givenLabels⟩ := known.labelled _ there answered
    rw [here, Option.some.injEq] at givenId
    rw [givenLabels, ← givenId, Option.getD_some] at otherLabels
    have passes := newer other (same.symm.trans found)
    rwa [otherId, otherLabels, sameLabels] at passes
  · have none := known.missing holds untagged err missing answered
    rw [behind] at none
    cases none

theorem moves_call (daemon : Daemon) (choice : Daemon.Choice)
    {newer : LocalImageIdentity → Prop}
    (may : mayUpdate parse (remoteRef environment tool) (localRuntimeRef tool) heard operation)
    (passes : ∀ candidate, Clean heard → Verified heard (remoteRef environment tool) candidate →
      NewerAsFound parse tool heard candidate → newer candidate) :
    Moves environment tool heard daemon (daemon.perform labels operation choice).1 newer := by
  rcases perform_cases labels daemon operation choice with same | same
  · rw [same]
    exact ⟨fun _ member => member, fun _ moved => absurd rfl moved⟩
  · rw [same]
    cases operation with
    | createImage repo tag =>
        obtain ⟨kept, others⟩ := serve_createImage labels daemon repo tag
        obtain ⟨rfl, rfl⟩ := Prod.mk.inj may
        refine ⟨kept, fun imageRef moved => .inl ?_⟩
        by_cases same : imageRef = pulledRef environment tool
        · exact ⟨same, same ▸ pulledRef_ne tool tool⟩
        · exact absurd (others imageRef same) moved
    | tagImage source repo tag =>
        obtain ⟨images, others⟩ := serve_tagImage labels daemon source repo tag
        obtain ⟨target, clean, candidate, runtime, rfl, verified, found, newer⟩ := may
        obtain ⟨rfl, rfl⟩ := Prod.mk.inj target
        refine ⟨fun _ member => images ▸ member, fun imageRef moved => .inr ?_⟩
        obtain ⟨tagged, behind⟩ := others imageRef moved
        exact ⟨tagged.trans (reference_localRuntimeRef tool), clean, candidate, behind, verified,
          passes candidate clean verified ⟨runtime, found, newer⟩⟩
    | removeImage id => exact may.elim
    | begin | tryLock | commit | inspectRegistryImage | inspectImage | cosignVerify | listImages
    | listContainers =>
        rw [serve_harmless (by exact trivial)]
        exact ⟨fun _ member => member, fun _ moved => absurd rfl moved⟩

end Alias

section Removal

variable {heard : Heard} {operation : Op}

variable (labels) in
theorem prune_cases (daemon : Daemon) (choice : Daemon.Choice)
    (may : mayPrune environment heard operation) :
    (daemon.perform labels operation choice).1 = daemon
      ∨ ∃ id, Superseded environment heard id
        ∧ (daemon.perform labels operation choice).1 = daemon.remove id := by
  rcases perform_cases labels daemon operation choice with same | same
  · exact .inl same
  · rw [same]
    cases operation with
    | removeImage id =>
        rcases serve_removeImage labels daemon id with stays | removed
        · exact .inl stays
        · exact .inr ⟨id, may, removed⟩
    | createImage | tagImage => exact may.elim
    | begin | tryLock | commit | inspectRegistryImage | inspectImage | cosignVerify | listImages
    | listContainers => exact .inl (serve_harmless (by exact trivial))

theorem removes_call (daemon : Daemon) (choice : Daemon.Choice) {untagged : List Char → Prop}
    (may : mayPrune environment heard operation)
    (passes : ∀ id, Superseded environment heard id → untagged id) :
    Removes environment heard daemon (daemon.perform labels operation choice).1 untagged := by
  rcases prune_cases labels daemon choice may with same | ⟨id, superseded, same⟩
  · rw [same]
    exact ⟨fun _ member gone => absurd member gone, fun _ moved => absurd rfl moved⟩
  · rw [same]
    refine ⟨fun other member gone => ?_, fun imageRef moved => ?_⟩
    · have here : other = id := by
        by_contra others
        exact gone (List.mem_filter.2 ⟨member, decide_eq_true others⟩)
      subst here
      exact ⟨superseded, passes other superseded⟩
    · rw [Daemon.behind_remove] at moved
      split at moved
      case isTrue here => exact ⟨id, here, by simp [Daemon.remove]⟩
      case isFalse => exact absurd rfl moved

def Listed (daemon : Daemon) (heard : Heard) : Prop :=
  ∀ images : List LocalImage, Answered heard .listImages images → ∀ image ∈ images,
    image.repoTags = [] → Untagged daemon image.id

theorem Listed.of_tags {before after : Daemon} (listed : Listed before heard)
    (kept : ∀ imageRef id, after.behind imageRef = some id → before.behind imageRef = some id) :
    Listed after heard :=
  fun images answered image member untagged imageRef behind =>
    listed images answered image member untagged imageRef (kept imageRef _ behind)

theorem perform_listImages {daemon : Daemon} {choice : Daemon.Choice} {images : List LocalImage}
    (answered : (daemon.perform labels .listImages choice).2 = .ok images) :
    images = daemon.images.map fun id => ⟨id, daemon.tagsOf id, daemon.repoDigests id⟩ := by
  cases choice with
  | served | busy => exact (Except.ok.inj answered).symm
  | lost => cases answered

theorem Listed.call {daemon : Daemon} (listed : Listed daemon heard) (choice : Daemon.Choice)
    (may : mayPrune environment heard operation) :
    Listed (daemon.perform labels operation choice).1
      (⟨operation, (daemon.perform labels operation choice).2⟩ :: heard) := by
  have kept : ∀ imageRef id, (daemon.perform labels operation choice).1.behind imageRef = some id →
      daemon.behind imageRef = some id := by
    intro imageRef id behind
    rcases prune_cases labels daemon choice may with same | ⟨removed, -, same⟩
    · rwa [same] at behind
    · rw [same, Daemon.behind_remove] at behind
      split at behind
      · cases behind
      · exact behind
  intro images answered image member untagged
  rcases List.mem_cons.1 answered with now | before
  · obtain ⟨rfl, same⟩ := Call.mk.inj now
    rw [perform_listImages (eq_of_heq same).symm] at member
    obtain ⟨id, -, rfl⟩ := List.mem_map.1 member
    intro imageRef behind
    exact List.ne_nil_of_mem (Daemon.mem_tagsOf.2 (kept imageRef id behind)) untagged
  · exact listed.of_tags kept images before image member untagged

end Removal

end Worlds

section Runs

variable {Version : Type} [LT Version] [DecidableLT Version]
  (parse : List Char → Except (List Char) Version) (display : Version → List Char)
  (labels : List Char → Labels) (environment : Environment)

abbrev ImageTalk := Talk Daemon Op Reply Unit

/-- An alias is moved to a verified candidate that is not older than the image behind it, and the
images that are removed are superseded and without tags. -/
def Ideal : Work → ImageTalk → Daemon → Prop
  | .update tool, talk, after =>
      Moves environment tool talk.heard talk.world after (NewerAsIs parse labels tool talk.world)
  | .prune, talk, after =>
      Removes environment talk.heard talk.world after (Untagged talk.world)

variable (allowed : ImageTalk → Turn Daemon.Choice Daemon → Prop)

def LeaveAlias (tool : CliToolKind) : Prop :=
  ∀ talk after, allowed talk (.change after) →
    after.behind (localRuntimeRef tool) = talk.world.behind (localRuntimeRef tool)

def LeaveUntagged : Prop :=
  ∀ talk after, allowed talk (.change after) → ∀ imageRef id,
    after.behind imageRef = some id → talk.world.behind imageRef = some id

/-- An alias is moved to a verified candidate that is not older than the image that was found
behind it, and is there still unless others moved the alias; the images that are removed are
superseded, and without tags unless others tagged them since. -/
def Trustworthy : Work → ImageTalk → Daemon → Prop
  | .update tool, talk, after =>
      Moves environment tool talk.heard talk.world after fun candidate =>
        NewerAsFound parse tool talk.heard candidate
          ∧ (LeaveAlias allowed tool → NewerAsIs parse labels tool talk.world candidate)
  | .prune, talk, after =>
      Removes environment talk.heard talk.world after fun id =>
        LeaveUntagged allowed → Untagged talk.world id

variable {parse} {display} {labels} {environment} {allowed}

theorem moves_refl {tool : CliToolKind} {heard : Heard} (daemon : Daemon)
    (newer : LocalImageIdentity → Prop) : Moves environment tool heard daemon daemon newer :=
  ⟨fun _ member => member, fun _ moved => absurd rfl moved⟩

theorem removes_refl {heard : Heard} (daemon : Daemon) (untagged : List Char → Prop) :
    Removes environment heard daemon daemon untagged :=
  ⟨fun _ member gone => absurd member gone, fun _ moved => absurd rfl moved⟩

theorem known_of_reached {start : Daemon → Prop} {tool : CliToolKind} {talk : ImageTalk}
    (reached : Reached (docker labels) allowed start
      ((Work.update tool).program parse display environment) talk) :
    Known labels tool (LeaveAlias allowed tool) talk.world talk.heard
      ∧ Obeys (mayUpdate parse (remoteRef environment tool) (localRuntimeRef tool))
        (fun _ _ => True) talk.program talk.heard := by
  have obeys : Obeys (mayUpdate parse (remoteRef environment tool) (localRuntimeRef tool))
      (fun _ _ => True) ((Work.update tool).program parse display environment) [] :=
    Obeys.bind (obeys_checkAndUpdate environment tool) fun _ _ _ => trivial
  refine reached.lawful obeys (Known labels tool (LeaveAlias allowed tool)) ?_ ?_ ?_
  · intro world _
    exact ⟨nofun, fun _ _ => nofun, fun _ _ _ _ => nofun⟩
  · intro talk change known may
    refine ⟨known.labelled, fun quiet untagged info answered => ?_,
      fun quiet untagged err missing answered => ?_⟩
    · exact (known.found quiet untagged info answered).trans (quiet talk change may).symm
    · exact (quiet talk change may).trans (known.missing quiet untagged err missing answered)
  · exact fun world heard operation choice known may => known.call choice may

theorem listed_of_reached {start : Daemon → Prop} {talk : ImageTalk}
    (reached : Reached (docker labels) allowed start
      (Work.prune.program parse display environment) talk) :
    (LeaveUntagged allowed → Listed talk.world talk.heard)
      ∧ Obeys (mayPrune environment) (fun _ _ => True) talk.program talk.heard := by
  have obeys : Obeys (mayPrune environment) (fun _ _ => True)
      (Work.prune.program parse display environment) [] :=
    Obeys.bind (obeys_pruneOrphans environment) fun _ _ _ => trivial
  refine reached.lawful obeys (fun world heard => LeaveUntagged allowed → Listed world heard) ?_ ?_ ?_
  · exact fun world _ _ => nofun
  · exact fun talk change listed may quiet => (listed quiet).of_tags (quiet talk change may)
  · exact fun world heard operation choice listed may quiet => (listed quiet).call choice may

/-- Whatever others do and whichever calls fail, an update moves the alias to verified candidates
that are not older than what it found, and a prune removes superseded images. -/
theorem images_trustworthy {start : Daemon → Prop} {work : Work} {talk : ImageTalk}
    (reached : Reached (docker labels) allowed start (work.program parse display environment) talk)
    (choice : Daemon.Choice) :
    Trustworthy parse labels environment allowed work talk
      (exec (docker labels) talk (.call choice)).world := by
  rw [exec]
  cases work with
  | update tool =>
      obtain ⟨known, obeys⟩ := known_of_reached reached
      split
      case h_1 => exact moves_refl _ _
      case h_2 operation next due =>
          rw [due] at obeys
          refine moves_call talk.world choice obeys.1 fun candidate clean verified newer => ?_
          exact ⟨newer, fun quiet => known.newer quiet clean verified newer⟩
  | prune =>
      obtain ⟨listed, obeys⟩ := listed_of_reached reached
      split
      case h_1 => exact removes_refl _ _
      case h_2 operation next due =>
          rw [due] at obeys
          refine removes_call talk.world choice obeys.1 fun id superseded quiet => ?_
          obtain ⟨images, answered, image, member, rfl, untagged, -⟩ := superseded.listed
          exact listed quiet images answered image member untagged

end Runs

namespace Sample

def parseVersion (text : List Char) : Except (List Char) (List Nat) :=
  let pieces := text.splitOn '.'
  if pieces.length = 3 ∧ pieces.all fun piece => piece ≠ [] ∧ piece.all Char.isDigit then
    .ok (pieces.map fun piece => ofDigits 10 (piece.map fun c => c.toNat - '0'.toNat))
  else .error "unexpected character".toList

def displayVersion (version : List Nat) : List Char :=
  List.intercalate ['.'] (version.map fun part => (toString part).toList)

def labels (id : List Char) : Labels :=
  [(cliVersionLabel, if id = "sha256:old".toList then "1.0.0".toList
    else if id = "sha256:new".toList then "2.0.0".toList else "3.0.0".toList)]

def environment : Environment := ⟨none, none⟩

def manifest : List Char :=
  "sha256:".toList ++ List.replicate 64 'a'

def daemon : Daemon where
  tags := [(localRuntimeRef .codex, "sha256:old".toList)]
  images := ["sha256:old".toList, "sha256:hand".toList]
  repoDigests _ := []
  published imageRef :=
    if imageRef = remoteRef environment .codex then some (manifest, "sha256:new".toList) else none
  signed _ := true
  containers := []

def served (calls : Nat) : List (Turn Daemon.Choice Daemon) :=
  List.replicate calls (.call .served)

def begun (work : Work) (daemon : Daemon) : ImageTalk :=
  ⟨daemon, [], work.program parseVersion displayVersion environment⟩

def updating : ImageTalk :=
  run (exec (docker labels)) (begun (.update .codex) daemon) (served 8)

def raced : ImageTalk :=
  run (exec (docker labels)) (begun (.update .codex) daemon) (served 5
    ++ .change { daemon with tags := [(localRuntimeRef .codex, "sha256:hand".toList)] } :: served 3)

def leftover : Daemon where
  tags := []
  images := ["sha256:old".toList]
  repoDigests _ := ["ghcr.io/wisdoverse/wisdoverse-forge/agent-codex@".toList ++ manifest]
  published _ := none
  signed _ := true
  containers := []

def tagged : ImageTalk :=
  run (exec (docker labels)) (begun .prune leftover) (served 6
    ++ [.change { leftover with tags := [(localRuntimeRef .codex, "sha256:old".toList)] }])

abbrev Anything : ImageTalk → Turn Daemon.Choice Daemon → Prop := fun _ _ => True

theorem reached_run (work : Work) (daemon : Daemon) (turns : List (Turn Daemon.Choice Daemon)) :
    Reached (docker labels) Anything (fun _ => True)
      (work.program parseVersion displayVersion environment)
      (run (exec (docker labels)) (begun work daemon) turns) :=
  reachable_run ⟨trivial, rfl, rfl⟩ (allAllowed_of_forall (fun _ _ _ => trivial) _)

end Sample

open Sample in
theorem images_trustworthy_updating :
    (exec (docker labels) updating (.call .served)).world.behind (localRuntimeRef .codex)
        = some "sha256:new".toList
      ∧ Trustworthy parseVersion labels environment Anything (.update .codex) updating
        (exec (docker labels) updating (.call .served)).world :=
  ⟨by decide +kernel, images_trustworthy (reached_run (.update .codex) daemon (served 8)) .served⟩

open Sample in
/-- An update lowers the alias that was raised since it looked, and a prune removes an image that
was tagged since it listed it. -/
theorem races_unnoticed :
    (¬ ∀ talk choice, Reached (docker labels) Anything (fun _ => True)
        ((Work.update .codex).program parseVersion displayVersion environment) talk →
      Ideal parseVersion labels environment (.update .codex) talk
        (exec (docker labels) talk (.call choice)).world)
    ∧ ¬ ∀ talk choice, Reached (docker labels) Anything (fun _ => True)
        (Work.prune.program parseVersion displayVersion environment) talk →
      Ideal parseVersion labels environment .prune talk
        (exec (docker labels) talk (.call choice)).world := by
  constructor
  · intro ideal
    have moves := ideal raced .served (reached_run (.update .codex) daemon _)
    have after : (exec (docker labels) raced (.call .served)).world.behind (localRuntimeRef .codex)
        = some "sha256:new".toList := by decide +kernel
    have before : raced.world.behind (localRuntimeRef .codex) = some "sha256:hand".toList := by
      decide +kernel
    have moved := moves.moved (localRuntimeRef .codex) (by rw [after, before]; decide +kernel)
    rcases moved with ⟨-, other⟩ | ⟨-, -, candidate, behind, -, newer⟩
    · exact other rfl
    · rw [after, Option.some.injEq] at behind
      have notOlder := newer _ (by decide +kernel) before
      rw [← behind] at notOlder
      have lower : cliVersion parseVersion (labels "sha256:new".toList) = some [2, 0, 0] := by
        decide +kernel
      have higher : cliVersion parseVersion (labels "sha256:hand".toList) = some [3, 0, 0] := by
        decide +kernel
      rcases notOlder with same | ⟨version, other, here, there, notLess⟩
      · exact absurd same (by decide +kernel)
      · rw [lower, Option.some.injEq] at here
        rw [higher, Option.some.injEq] at there
        rw [← here, ← there] at notLess
        exact notLess (by decide)
  · intro ideal
    have removes := ideal tagged .served (reached_run .prune leftover _)
    have untagged := (removes.removed "sha256:old".toList (by decide +kernel) (by decide +kernel)).2
    exact untagged (localRuntimeRef .codex) (by decide +kernel)

end Forge.ImageSafety
