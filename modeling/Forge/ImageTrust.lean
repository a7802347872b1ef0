import Forge.CliImageUpdater
import Forge.Library.Fallible
import Mathlib.Data.List.Dedup
import Mathlib.Data.List.ReduceOption

/-! The images of CLI tools beside everything that others do to the daemon and the registry: what
the alias of a tool is moved to, and which images are removed. -/

namespace Forge.ImageTrust

open Forge.CliImages
open Forge.CliImageUpdater
open Forge.Library.Dialogue
open Forge.Library.Fallible
open Forge.Library.Interleaving

abbrev Reply (operation : Op) := Except PlatformError (Answer operation)

abbrev Heard := List (Call Op Reply)

/-- The references with the images that they stand for, the images with the manifests that they
came from, what the registry publishes, a manifest and its image, what the verifier accepts, and
the images that containers use. -/
structure Daemon where
  tags : List (List Char × List Char)
  images : List (List Char)
  repoDigests : List Char → List (List Char)
  published : List Char → Option (List Char × List Char)
  signed : List Char → Bool
  containers : List (List Char)

namespace Daemon

variable (daemon : Daemon)

def behind (imageRef : List Char) : Option (List Char) :=
  daemon.tags.lookup imageRef

def tagsOf (id : List Char) : List (List Char) :=
  (daemon.tags.map Prod.fst).dedup.filter fun imageRef => daemon.behind imageRef = some id

def setTag (imageRef id : List Char) : Daemon :=
  { daemon with tags := (imageRef, id) :: daemon.tags.filter fun entry => entry.1 ≠ imageRef }

def addImage (id repoDigest : List Char) : Daemon :=
  { daemon with
    images := if id ∈ daemon.images then daemon.images else id :: daemon.images
    repoDigests := Function.update daemon.repoDigests id (repoDigest :: daemon.repoDigests id) }

def remove (id : List Char) : Daemon :=
  { daemon with
    images := daemon.images.filter fun image => image ≠ id
    tags := daemon.tags.filter fun entry => daemon.behind entry.1 ≠ some id }

def reference (repo tag : List Char) : List Char :=
  repo ++ ':' :: tag

def missing : PlatformError :=
  .docker (some 404) "No such image".toList

def conflict : PlatformError :=
  .docker (some 409) "conflict: unable to delete image".toList

variable (labels : List Char → Labels)

/-- What a call does and answers when all goes well. The labels of an image are fixed by its
content id; an image with several tags or in use by a container is not removed. -/
def serve : (operation : Op) → Daemon × Reply operation
  | .begin => (daemon, .ok ())
  | .tryLock _ => (daemon, .ok true)
  | .commit => (daemon, .ok ())
  | .inspectRegistryImage imageRef =>
      match daemon.published imageRef with
      | some (digest, _) => (daemon, .ok (some digest))
      | none => (daemon, .error missing)
  | .inspectImage imageRef =>
      match daemon.behind imageRef with
      | some id => (daemon, .ok ⟨some id, some (daemon.repoDigests id), some (labels id)⟩)
      | none => (daemon, .error missing)
  | .createImage repo tag =>
      match daemon.published (reference repo tag) with
      | some (digest, id) =>
          ((daemon.addImage id (repo ++ '@' :: digest)).setTag (reference repo tag) id, .ok ())
      | none => (daemon, .error missing)
  | .tagImage source repo tag =>
      if source ∈ daemon.images then (daemon.setTag (reference repo tag) source, .ok ())
      else (daemon, .error missing)
  | .cosignVerify manifest =>
      if daemon.signed manifest then (daemon, .ok ())
      else (daemon, .error (.imageVerification "image_signature_untrusted".toList))
  | .listImages =>
      (daemon, .ok (daemon.images.map fun id => ⟨id, daemon.tagsOf id, daemon.repoDigests id⟩))
  | .listContainers => (daemon, .ok (daemon.containers.map some))
  | .removeImage id =>
      if id ∉ daemon.images then (daemon, .error missing)
      else if 1 < (daemon.tagsOf id).length ∨ id ∈ daemon.containers then
        (daemon, .error conflict)
      else (daemon.remove id, .ok ())

/-- What becomes of a call: it goes well; a lock is held elsewhere; or it fails, with or without
having taken effect, and not as if something were missing. -/
inductive Choice where
  | served
  | busy
  | lost (reached : Bool) (err : PlatformError) (other : err.isNotFound = false)

def perform (operation : Op) : Choice → Daemon × Reply operation
  | .served => daemon.serve labels operation
  | .busy =>
      match operation with
      | .tryLock _ => (daemon, .ok false)
      | other => daemon.serve labels other
  | .lost reached err _ =>
      (if reached then (daemon.serve labels operation).1 else daemon, .error err)

variable {daemon} {imageRef id : List Char}

theorem lookup_filter {tags : List (List Char × List Char)} {keep : List Char → Bool} :
    (tags.filter fun entry => keep entry.1).lookup imageRef =
      if keep imageRef then tags.lookup imageRef else none := by
  induction tags with
  | nil => split <;> rfl
  | cons entry rest ih =>
      obtain ⟨tag, image⟩ := entry
      rw [List.filter_cons]
      cases here : imageRef == tag with
      | true =>
          rw [beq_iff_eq] at here
          subst here
          split
          case isTrue => simp only [List.lookup_cons, beq_self_eq_true]
          case isFalse dropped => rw [ih, if_neg dropped]
      | false =>
          split
          case isTrue => simp only [List.lookup_cons, here, ih]
          case isFalse => simp only [List.lookup_cons, here, ih]

theorem behind_setTag (other : List Char) :
    (daemon.setTag imageRef id).behind other =
      if other = imageRef then some id else daemon.behind other := by
  rw [setTag, behind, List.lookup_cons]
  by_cases same : other = imageRef
  · rw [if_pos same, beq_iff_eq.2 same]
  · rw [if_neg same, beq_eq_false_iff_ne.2 same,
      @lookup_filter other daemon.tags fun entry => decide (entry ≠ imageRef)]
    exact if_pos (decide_eq_true same)

theorem behind_remove (other : List Char) :
    (daemon.remove id).behind other =
      if daemon.behind other = some id then none else daemon.behind other := by
  rw [remove, behind, @lookup_filter other daemon.tags fun entry =>
    decide (daemon.behind entry ≠ some id)]
  by_cases same : daemon.behind other = some id
  · rw [if_pos same, if_neg (by simpa using same)]
  · rw [if_neg same, if_pos (by simpa using same), behind]

theorem mem_tagsOf : imageRef ∈ daemon.tagsOf id ↔ daemon.behind imageRef = some id := by
  rw [tagsOf, List.mem_filter, List.mem_dedup, decide_eq_true_iff]
  refine and_iff_right_of_imp fun here => ?_
  rw [behind, List.lookup_eq_some_iff] at here
  obtain ⟨before, after, split, -⟩ := here
  rw [split]
  simp

end Daemon

def docker (labels : List Char → Labels) :
    Surroundings Daemon Op Daemon.Choice Daemon Reply where
  perform daemon operation choice := daemon.perform labels operation choice
  change _ after := after

inductive Work where
  | update (tool : CliToolKind)
  | prune

section Rules

variable {Version : Type} [LT Version] [DecidableLT Version]
  (parse : List Char → Except (List Char) Version) (display : Version → List Char)
  (environment : Environment)

def Work.program : Work → Prog Op Reply Unit
  | .update tool =>
      (checkAndUpdate parse display environment tool).bind fun _ => .done ()
  | .prune => (pruneOrphans environment).bind fun _ => .done ()

def Answered (heard : Heard) (operation : Op) (answer : Answer operation) : Prop :=
  ⟨operation, .ok answer⟩ ∈ heard

/-- A call that was answered with an error; that there is no such image is no error of an
inspection. -/
def Failed (call : Call Op Reply) : Prop :=
  ∃ err, call.reply = .error err ∧ ¬ ((∃ imageRef, call.op = .inspectImage imageRef) ∧ err.isNotFound)

def Clean (heard : Heard) : Prop :=
  ∀ call ∈ heard, ¬ Failed call ∧ ∀ source repo tag, call.op ≠ .tagImage source repo tag

/-- The image was inspected under the tracked reference, it comes from the manifest that the
registry announced, and its source was accepted by the verifier. -/
structure Verified (heard : Heard) (remoteRef : List Char) (candidate : LocalImageIdentity) :
    Prop where
  inspected : ∃ info, Answered heard (.inspectImage remoteRef) info
    ∧ localImageIdentity info remoteRef = some candidate
  announced : ∃ digest, Answered heard (.inspectRegistryImage remoteRef) (some digest)
    ∧ candidate.manifestDigest = some digest
  signed : ∃ manifest, candidate.registryReference = some manifest
    ∧ Answered heard (.cosignVerify manifest) ()

def Inspected (heard : Heard) (imageRef : List Char) (identity : Option LocalImageIdentity) :
    Prop :=
  (∃ info, Answered heard (.inspectImage imageRef) info
    ∧ localImageIdentity info imageRef = identity)
  ∨ identity = none ∧ ∃ err, err.isNotFound ∧ ⟨.inspectImage imageRef, .error err⟩ ∈ heard

def cliVersion (labels : Labels) : Option Version :=
  (requiredCliVersion parse labels [] []).toOption

def NotOlder (id other : List Char) (labels otherLabels : Labels) : Prop :=
  other = id ∨ ∃ version otherVersion, cliVersion parse labels = some version
    ∧ cliVersion parse otherLabels = some otherVersion ∧ ¬ version < otherVersion

/-- The image was listed without tags and as one of a managed repository, and no container was
listed with it. -/
structure Superseded (heard : Heard) (id : List Char) : Prop where
  listed : ∃ images : List LocalImage, Answered heard .listImages images
    ∧ ∃ image ∈ images, image.id = id ∧ image.repoTags = [] ∧ ∃ repo ∈ agentOverlayRepos environment,
      ∃ digest, repo ++ '@' :: digest ∈ image.repoDigests
  unused : ∃ containers : List (Option (List Char)), Answered heard .listContainers containers
    ∧ some id ∉ containers

/-- What an update may call: it pulls the tracked reference, and it tags the alias, once nothing
failed, with a candidate that was verified and is not older than what it found there. -/
def mayUpdate (remoteRef runtimeRef : List Char) (heard : Heard) : Op → Prop
  | .createImage repo tag => (repo, tag) = splitRepoTag remoteRef
  | .tagImage source repo tag => (repo, tag) = splitRepoTag runtimeRef ∧ Clean heard
      ∧ ∃ candidate runtime, candidate.id = source ∧ Verified heard remoteRef candidate
        ∧ Inspected heard runtimeRef runtime ∧ ∀ other, runtime = some other →
          NotOlder parse candidate.id other.id candidate.labels other.labels
  | .removeImage _ => False
  | _ => True

def mayPrune (heard : Heard) : Op → Prop
  | .createImage .. => False
  | .tagImage .. => False
  | .removeImage id => Superseded environment heard id
  | _ => True

end Rules

def Tells {α : Type} (fact : α → Heard → Prop) (heard : Heard) (outcome : Except PlatformError α)
    (later : Heard) : Prop :=
  heard <:+ later ∧ ∀ value, outcome = .ok value → Clean later ∧ fact value later

section Parts

variable {may : Heard → Op → Prop} {heard : Heard} {α β : Type}

theorem tells_bind {program : Client α} {f : α → Client β} {fact : α → Heard → Prop}
    {fact' : β → Heard → Prop} (first : Obeys may (Tells fact heard) program heard)
    (rest : ∀ value later, heard <:+ later → Clean later → fact value later →
      Obeys may (Tells fact' later) (f value) later) :
    Obeys may (Tells fact' heard) (program >>= f : Client β) heard := by
  refine obeys_bind first (fun value later told => ?_) fun err later told => ?_
  · obtain ⟨clean, known⟩ := told.2 value rfl
    exact (rest value later told.1 clean known).mono fun _ _ tells =>
      ⟨told.1.trans tells.1, tells.2⟩
  · exact ⟨told.1, nofun⟩

theorem tells_mono {program : Client α} {fact fact' : α → Heard → Prop}
    (first : Obeys may (Tells fact heard) program heard)
    (weaker : ∀ value later, heard <:+ later → fact value later → fact' value later) :
    Obeys may (Tells fact' heard) program heard :=
  first.mono fun _ later told => ⟨told.1, fun value same =>
    ⟨(told.2 value same).1, weaker value later told.1 (told.2 value same).2⟩⟩

theorem tells_pure {value : α} {fact : α → Heard → Prop} (clean : Clean heard)
    (known : fact value heard) : Obeys may (Tells fact heard) (pure value : Client α) heard := by
  refine ⟨List.suffix_refl heard, ?_⟩
  rintro _ ⟨⟩
  exact ⟨clean, known⟩

theorem tells_fail {fact : α → Heard → Prop} (err : PlatformError) :
    Obeys may (Tells fact heard) (Attempt.fail err : Client α) heard :=
  ⟨List.suffix_refl heard, nofun⟩

theorem tells_lift {outcome : Except PlatformError α} {fact : α → Heard → Prop}
    (clean : Clean heard) (known : ∀ value, outcome = .ok value → fact value heard) :
    Obeys may (Tells fact heard) (Attempt.lift outcome : Client α) heard :=
  ⟨List.suffix_refl heard, fun value same => ⟨clean, known value same⟩⟩

theorem tells_mapError {program : Client α} {f : PlatformError → PlatformError}
    {fact : α → Heard → Prop} (first : Obeys may (Tells fact heard) program heard) :
    Obeys may (Tells fact heard) (program.mapError f) heard := by
  refine obeys_mapError first fun outcome later told => ⟨told.1, fun value same => ?_⟩
  cases outcome with
  | ok found =>
      obtain rfl : found = value := Except.ok.inj same
      exact told.2 found rfl
  | error err => cases same

theorem clean_nil : Clean [] := by
  intro call member
  cases member

theorem Clean.cons {operation : Op} {answer : Answer operation} (clean : Clean heard)
    (untagged : ∀ source repo tag, operation ≠ .tagImage source repo tag) :
    Clean (⟨operation, .ok answer⟩ :: heard) := by
  intro call member
  rcases List.mem_cons.1 member with rfl | member
  · refine ⟨?_, untagged⟩
    rintro ⟨err, ⟨⟩, -⟩
  · exact clean call member

theorem Answered.later {later : Heard} {operation : Op} {answer : Answer operation}
    (answered : Answered heard operation answer) (grown : heard <:+ later) :
    Answered later operation answer :=
  grown.mem answered

theorem Inspected.later {later : Heard} {imageRef : List Char}
    {identity : Option LocalImageIdentity} (inspected : Inspected heard imageRef identity)
    (grown : heard <:+ later) : Inspected later imageRef identity := by
  rcases inspected with ⟨info, answered, same⟩ | ⟨absent, err, missing, answered⟩
  · exact .inl ⟨info, answered.later grown, same⟩
  · exact .inr ⟨absent, err, missing, grown.mem answered⟩

theorem tells_call {operation : Op} (clean : Clean heard) (allowed : may heard operation)
    (untagged : ∀ source repo tag, operation ≠ .tagImage source repo tag) :
    Obeys may (Tells (fun answer later => Answered later operation answer) heard)
      (call operation) heard := by
  refine (obeys_call allowed).mono ?_
  rintro outcome _ rfl
  refine ⟨List.suffix_cons _ _, ?_⟩
  rintro answer rfl
  exact ⟨clean.cons untagged, List.mem_cons_self⟩

end Parts

section Docker

variable {may : Heard → Op → Prop} {heard : Heard}

/-- The calls that change no image are always allowed. -/
def Harmless : Op → Prop
  | .createImage .. => False
  | .tagImage .. => False
  | .removeImage _ => False
  | _ => True

variable (free : ∀ heard operation, Harmless operation → may heard operation)

include free

theorem tells_remoteImageDigest (clean : Clean heard) (imageRef : List Char) :
    Obeys may (Tells (fun digest later =>
      Answered later (.inspectRegistryImage imageRef) (some digest)) heard)
      (remoteImageDigest imageRef) heard := by
  refine tells_bind (tells_mapError (tells_call clean (free _ _ trivial) nofun)) ?_
  intro digest later _ clean answered
  split
  case h_1 found here =>
      have same := (Option.filter_eq_some_iff.1 here).1
      exact tells_pure clean (same ▸ answered)
  case h_2 => exact tells_fail _

theorem tells_inspectIdentity (clean : Clean heard) (imageRef : List Char) :
    Obeys may (Tells (fun identity later => Inspected later imageRef identity) heard)
      (inspectIdentity imageRef) heard := by
  refine obeys_observe (obeys_call (free _ _ trivial)) ?_
  rintro outcome _ rfl
  cases outcome with
  | ok info =>
      refine ⟨List.suffix_cons _ _, ?_⟩
      rintro _ ⟨⟩
      exact ⟨clean.cons nofun, .inl ⟨info, List.mem_cons_self, rfl⟩⟩
  | error err =>
      dsimp only
      split
      case isTrue absent =>
          refine ⟨List.suffix_cons _ _, ?_⟩
          rintro _ ⟨⟩
          refine ⟨fun call member => ?_, .inr ⟨rfl, err, absent, List.mem_cons_self⟩⟩
          rcases List.mem_cons.1 member with rfl | member
          · refine ⟨?_, nofun⟩
            rintro ⟨_, ⟨⟩, failed⟩
            exact failed ⟨⟨imageRef, rfl⟩, absent⟩
          · exact clean call member
      case isFalse => exact ⟨List.suffix_cons _ _, nofun⟩

omit free in
theorem only_inspectIdentity (imageRef : List Char) :
    (inspectIdentity imageRef).Only Harmless := by
  rw [inspectIdentity, Attempt.Only, Attempt.observe_bind]
  refine Prog.Only.bind (Attempt.Only.call trivial) fun outcome => ?_
  cases outcome with
  | ok info => exact trivial
  | error err =>
      dsimp only
      split <;> exact trivial

theorem obeys_harmless {α : Type} {program : Client α} (only : program.Only Harmless) :
    Obeys may (fun _ _ => True) program heard :=
  obeys_of_ends only (fun operation later harmless => free later operation harmless)
    fun _ _ _ => trivial

theorem tells_verifySignature (clean : Clean heard) (identity : LocalImageIdentity) :
    Obeys may (Tells (fun _ later => ∃ manifest, identity.registryReference = some manifest
      ∧ Answered later (.cosignVerify manifest) ()) heard) (verifySignature identity) heard := by
  rw [verifySignature]
  split
  case h_1 manifest here =>
      rw [verifyImageSignature]
      by_cases immutable : isImmutableRegistryReference manifest = true
      · rw [if_pos immutable]
        exact tells_mono (tells_call clean (free _ _ trivial) nofun) fun _ _ _ answered =>
          ⟨manifest, here, answered⟩
      · rw [if_neg immutable]
        exact tells_fail _
  case h_2 => exact tells_fail _

theorem tells_begin (clean : Clean heard) (tool : List Char) :
    Obeys may (Tells (fun _ _ => True) heard) (beginCliImageMutation tool) heard := by
  refine tells_bind (tells_mapError (tells_call clean (free _ _ trivial) nofun)) ?_
  intro _ later _ clean _
  refine tells_bind (tells_mapError (tells_call clean (free _ _ trivial) nofun)) ?_
  intro acquired later _ clean _
  split
  · exact tells_pure clean trivial
  · exact tells_fail _

end Docker

section Versions

variable {Version : Type} {parse : List Char → Except (List Char) Version}

theorem cliVersion_of_ok {labels : Labels} {imageRef role : List Char} {version : Version}
    (found : requiredCliVersion parse labels imageRef role = .ok version) :
    cliVersion parse labels = some version := by
  rw [cliVersion]
  rw [requiredCliVersion] at found ⊢
  split at found
  case h_1 => cases found
  case h_2 value here =>
      rw [mapError_eq_ok.1 found]
      rfl

theorem notOlder_of_ok [LT Version] [DecidableLT Version] {display : Version → List Char}
    {candidateRef runtimeRef : List Char} {candidate : LocalImageIdentity}
    {runtime : Option LocalImageIdentity}
    (passes : rejectCliVersionDowngrade parse display candidateRef runtimeRef candidate runtime
      = .ok ()) (other : LocalImageIdentity) (there : runtime = some other) :
    NotOlder parse candidate.id other.id candidate.labels other.labels := by
  subst there
  obtain ⟨version, found, passes⟩ := bind_eq_ok.1 passes
  dsimp only at passes
  split at passes
  case isTrue same => exact .inl same
  case isFalse =>
      obtain ⟨otherVersion, otherFound, passes⟩ := bind_eq_ok.1 passes
      split at passes
      case isTrue => cases passes
      case isFalse newer =>
          exact .inr ⟨version, otherVersion, cliVersion_of_ok found, cliVersion_of_ok otherFound,
            newer⟩

end Versions

section Tagging

variable {Version : Type} [LT Version] {parse : List Char → Except (List Char) Version}
  {remoteRef runtimeRef : List Char} {heard : Heard}

theorem mayUpdate_free (heard : Heard) (operation : Op) (harmless : Harmless operation) :
    mayUpdate parse remoteRef runtimeRef heard operation := by
  cases operation with
  | createImage | tagImage | removeImage => exact harmless.elim
  | begin | tryLock | commit | inspectRegistryImage | inspectImage | cosignVerify | listImages
  | listContainers => trivial

theorem tells_pullTracked (clean : Clean heard) (remoteDigest : List Char) :
    Obeys (mayUpdate parse remoteRef runtimeRef) (Tells (fun tracked later =>
      Inspected later remoteRef tracked
        ∧ tracked.bind LocalImageIdentity.manifestDigest = some remoteDigest) heard)
      (pullTracked remoteRef remoteDigest) heard := by
  refine tells_bind (tells_mapError (tells_call clean rfl nofun)) ?_
  intro _ later _ clean _
  refine tells_bind (tells_inspectIdentity mayUpdate_free clean remoteRef) ?_
  intro tracked later _ clean inspected
  dsimp only
  split
  case isTrue pulled => exact tells_pure clean ⟨inspected, pulled⟩
  case isFalse => exact tells_fail _

theorem obeys_retagRuntime (candidate : LocalImageIdentity)
    (may : mayUpdate parse remoteRef runtimeRef heard (.tagImage candidate.id
      (splitRepoTag runtimeRef).1 (splitRepoTag runtimeRef).2)) :
    Obeys (mayUpdate parse remoteRef runtimeRef) (fun _ _ => True)
      (retagRuntime runtimeRef candidate) heard := by
  refine obeys_bind (obeys_call may) (fun _ later _ => ?_) fun _ _ _ => trivial
  refine obeys_harmless mayUpdate_free (.bind (only_inspectIdentity runtimeRef) fun repaired => ?_)
  split <;> exact trivial

end Tagging

section Update

variable {Version : Type} [LT Version] [DecidableLT Version]
  {parse : List Char → Except (List Char) Version} {display : Version → List Char}
  {remoteRef runtimeRef : List Char} {heard : Heard}

theorem tells_verifyCandidate (clean : Clean heard) (candidate : LocalImageIdentity)
    (runtime : Option LocalImageIdentity) :
    Obeys (mayUpdate parse remoteRef runtimeRef) (Tells (fun _ later =>
      (∃ manifest, candidate.registryReference = some manifest
        ∧ Answered later (.cosignVerify manifest) ())
      ∧ ∀ other, runtime = some other →
        NotOlder parse candidate.id other.id candidate.labels other.labels) heard)
      (verifyCandidate parse display remoteRef runtimeRef candidate runtime) heard := by
  refine tells_bind (tells_verifySignature mayUpdate_free clean candidate) ?_
  intro _ later _ clean signed
  exact tells_lift clean fun _ passes => ⟨signed, notOlder_of_ok passes⟩

theorem obeys_repair (clean : Clean heard) {remoteDigest : List Char}
    {tracked runtime : Option LocalImageIdentity}
    (announced : Answered heard (.inspectRegistryImage remoteRef) (some remoteDigest))
    (inspected : Inspected heard remoteRef tracked) (found : Inspected heard runtimeRef runtime) :
    Obeys (mayUpdate parse remoteRef runtimeRef) (fun _ _ => True)
      (repair parse display remoteRef runtimeRef remoteDigest tracked runtime) heard := by
  have pulled : Obeys (mayUpdate parse remoteRef runtimeRef) (Tells (fun tracked later =>
      Inspected later remoteRef tracked
        ∧ tracked.bind LocalImageIdentity.manifestDigest = some remoteDigest) heard)
      (refreshTracked remoteRef remoteDigest tracked) heard := by
    rw [refreshTracked]
    split
    case isTrue current => exact tells_pure clean ⟨inspected, current⟩
    case isFalse => exact tells_pullTracked clean remoteDigest
  refine obeys_bind pulled (fun tracked later told => ?_) fun _ _ _ => trivial
  obtain ⟨grown, told⟩ := told
  obtain ⟨clean, inspected, current⟩ := told tracked rfl
  cases tracked with
  | none => exact trivial
  | some candidate =>
      refine obeys_bind (tells_verifyCandidate clean candidate runtime)
        (fun _ last told => ?_) fun _ _ _ => trivial
      obtain ⟨grown', told⟩ := told
      obtain ⟨clean, signed, newer⟩ := told _ rfl
      have verified : Verified last remoteRef candidate := by
        refine ⟨?_, ⟨remoteDigest, announced.later (grown.trans grown'), current⟩, signed⟩
        rcases inspected with ⟨info, answered, same⟩ | ⟨absent, -⟩
        · exact ⟨info, answered.later grown', same⟩
        · cases absent
      have retagged : Obeys (mayUpdate parse remoteRef runtimeRef) (fun _ _ => True)
          (ensureRuntime runtimeRef candidate runtime) last := by
        rw [ensureRuntime]
        split
        case isTrue => exact trivial
        case isFalse =>
            exact obeys_retagRuntime candidate ⟨rfl, clean, candidate, runtime, rfl, verified,
              found.later (grown.trans grown'), newer⟩
      exact obeys_bind retagged (fun _ _ _ => trivial) fun _ _ _ => trivial

theorem obeys_checkAndUpdateImage (clean : Clean heard) :
    Obeys (mayUpdate parse remoteRef runtimeRef) (fun _ _ => True)
      (checkAndUpdateImage parse display remoteRef runtimeRef) heard := by
  refine obeys_bind (tells_remoteImageDigest mayUpdate_free clean remoteRef)
    (fun remoteDigest later told => ?_) fun _ _ _ => trivial
  obtain ⟨clean, announced⟩ := told.2 _ rfl
  refine obeys_bind (tells_inspectIdentity mayUpdate_free clean remoteRef)
    (fun tracked middle told => ?_) fun _ _ _ => trivial
  obtain ⟨grown, told⟩ := told
  obtain ⟨clean, inspected⟩ := told _ rfl
  refine obeys_bind (tells_inspectIdentity mayUpdate_free clean runtimeRef)
    (fun runtime last told => ?_) fun _ _ _ => trivial
  obtain ⟨grown', told⟩ := told
  obtain ⟨clean, found⟩ := told _ rfl
  split
  case isTrue =>
      cases tracked with
      | none => exact trivial
      | some current =>
          exact obeys_bind (tells_verifyCandidate clean current runtime) (fun _ _ _ => trivial)
            fun _ _ _ => trivial
  case isFalse =>
      exact obeys_repair clean (announced.later (grown.trans grown')) (inspected.later grown') found

theorem obeys_checkAndUpdate (environment : Environment) (tool : CliToolKind) :
    Obeys (mayUpdate parse (CliImages.remoteRef environment tool) (localRuntimeRef tool))
      (fun _ _ => True) (checkAndUpdate parse display environment tool) [] := by
  refine obeys_bind (tells_begin mayUpdate_free clean_nil tool.asStr)
    (fun _ later told => ?_) fun _ _ _ => trivial
  refine obeys_bind (obeys_checkAndUpdateImage (told.2 _ rfl).1) (fun _ last _ => ?_)
    fun _ _ _ => trivial
  exact obeys_harmless mayUpdate_free (.bind (Attempt.Only.mapError (Attempt.Only.call trivial))
    fun _ => trivial)

end Update

section Prune

variable {environment : Environment} {heard : Heard}

theorem mayPrune_free (heard : Heard) (operation : Op) (harmless : Harmless operation) :
    mayPrune environment heard operation := by
  cases operation with
  | createImage | tagImage | removeImage => exact harmless.elim
  | begin | tryLock | commit | inspectRegistryImage | inspectImage | cosignVerify | listImages
  | listContainers => trivial

theorem Superseded.later {later : Heard} {id : List Char}
    (superseded : Superseded environment heard id) (grown : heard <:+ later) :
    Superseded environment later id := by
  obtain ⟨images, answered, image, member⟩ := superseded.listed
  obtain ⟨containers, listed, unused⟩ := superseded.unused
  exact ⟨⟨images, answered.later grown, image, member⟩, ⟨containers, listed.later grown, unused⟩⟩

theorem obeys_removeImageIfUnreferenced {id : List Char} {referenced : List (List Char)}
    (may : id ∉ referenced → Superseded environment heard id) :
    Obeys (mayPrune environment) (fun _ later => heard <:+ later)
      (removeImageIfUnreferenced id referenced) heard := by
  rw [removeImageIfUnreferenced]
  split
  case isTrue => exact List.suffix_refl heard
  case isFalse unused =>
      refine obeys_observe (obeys_call (may unused)) ?_
      rintro outcome _ rfl
      cases outcome with
      | ok => exact List.suffix_cons _ _
      | error err =>
          dsimp only
          split
          · exact List.suffix_cons _ _
          · split <;> exact List.suffix_cons _ _

theorem obeys_removeImages {referenced : List (List Char)} {images : List LocalImage}
    (may : ∀ image ∈ images, image.id ∉ referenced → Superseded environment heard image.id)
    (summary : PruneSummary) :
    Obeys (mayPrune environment) (fun _ _ => True) (removeImages referenced images summary)
      heard := by
  induction images generalizing heard summary with
  | nil => exact trivial
  | cons image rest ih =>
      obtain ⟨first, others⟩ := List.forall_mem_cons.1 may
      refine obeys_observe (obeys_removeImageIfUnreferenced first) fun outcome later grown => ?_
      have rest := ih fun image member unused => (others image member unused).later grown
      cases outcome with
      | ok outcome => exact rest _
      | error err => exact rest _

theorem only_lockAll (tools : List CliToolKind) : (lockAll tools).Only Harmless := by
  induction tools with
  | nil => exact trivial
  | cons tool rest ih =>
      refine .bind (.bind (.mapError (.call trivial)) fun acquired => ?_) fun _ => ih
      split <;> exact trivial

theorem obeys_pruneListed {images : List LocalImage} {containers : List (Option (List Char))}
    (listed : Answered heard .listImages images) (used : Answered heard .listContainers containers) :
    Obeys (mayPrune environment) (fun _ _ => True) (pruneListed environment images containers)
      heard := by
  refine obeys_bind (obeys_removeImages (fun image member unused => ?_) {}) (fun summary later _ => ?_)
    fun _ _ _ => trivial
  · obtain ⟨there, prunable⟩ := List.mem_filter.1 member
    obtain ⟨untagged, managed⟩ := of_isPrunableAgentImage prunable
    refine ⟨⟨images, listed, image, there, rfl, untagged, managed⟩, ⟨containers, used, fun taken => ?_⟩⟩
    exact unused (List.reduceOption_mem_iff.2 taken)
  · refine obeys_observe (obeys_call (mayPrune_free _ _ trivial)) fun outcome _ _ => ?_
    cases outcome <;> exact trivial

theorem obeys_pruneOrphans (environment : Environment) :
    Obeys (mayPrune environment) (fun _ _ => True) (pruneOrphans environment) [] := by
  refine obeys_observe (obeys_call (mayPrune_free _ _ trivial)) fun begun first _ => ?_
  cases begun with
  | error err => exact trivial
  | ok =>
      refine obeys_observe (obeys_harmless mayPrune_free (only_lockAll pollableTools))
        fun locked second _ => ?_
      cases locked with
      | error err => exact trivial
      | ok =>
          refine obeys_observe (obeys_call (mayPrune_free _ _ trivial)) ?_
          rintro listed _ rfl
          cases listed with
          | error err => exact trivial
          | ok images =>
              refine obeys_observe (obeys_call (mayPrune_free _ _ trivial)) ?_
              rintro used _ rfl
              cases used with
              | error err => exact trivial
              | ok containers =>
                  exact obeys_pruneListed (List.mem_cons_of_mem _ List.mem_cons_self)
                    List.mem_cons_self

end Prune

end Forge.ImageTrust
