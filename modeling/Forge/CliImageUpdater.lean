import Forge.CliImages
import Forge.Library.Dialogue

/-! The update of a CLI tool's image and the prune of superseded ones, as calls to the database,
the Docker daemon, the registry behind it and the signature verifier. -/

namespace Forge.CliImageUpdater

open Forge.CliImages
open Forge.Library.Interleaving

/-- The calls. The lock of a tool is an advisory lock of the transaction. -/
inductive Op where
  | begin
  | tryLock (tool : List Char)
  | commit
  | inspectRegistryImage (imageRef : List Char)
  | inspectImage (imageRef : List Char)
  | createImage (repo tag : List Char)
  | tagImage (source repo tag : List Char)
  | cosignVerify (reference : List Char)
  | listImages
  | listContainers
  | removeImage (id : List Char)
deriving DecidableEq, Repr

/-- What a call answers. The registry tells the digest of a manifest, the verifier nothing but
that it accepts, and the list of containers the images that they use. -/
abbrev Answer : Op → Type
  | .tryLock _ => Bool
  | .inspectRegistryImage _ => Option (List Char)
  | .inspectImage _ => ImageInspect
  | .listImages => List LocalImage
  | .listContainers => List (Option (List Char))
  | _ => Unit

abbrev Client (α : Type) := Attempt Op Answer PlatformError α

def call (operation : Op) : Client (Answer operation) :=
  Attempt.call operation

section Docker

/-- `remote_image_digest`. -/
def remoteImageDigest (imageRef : List Char) : Client (List Char) := do
  let digest : Option (List Char) ← (call (.inspectRegistryImage imageRef)).mapError fun err =>
    .registry err.text
  match digest.filter fun digest => digest ≠ [] with
  | some digest => return digest
  | none =>
      Attempt.fail (.registry ("registry returned no digest for ".toList ++ imageRef))

/-- `DockerClient::local_image_identity`. -/
def inspectIdentity (imageRef : List Char) : Client (Option LocalImageIdentity) := do
  match ← (call (.inspectImage imageRef)).observe with
  | .ok info => return localImageIdentity info imageRef
  | .error err => if err.isNotFound then return none else Attempt.fail err

def pullImage (imageRef : List Char) : Client Unit :=
  (call (.createImage (splitRepoTag imageRef).1 (splitRepoTag imageRef).2)).mapError fun err =>
    .pull err.text

def verifyImageSignature (registryReference : List Char) : Client Unit :=
  if isImmutableRegistryReference registryReference then
    call (.cosignVerify registryReference)
  else Attempt.fail
    (.imageVerification "expected an immutable repo@sha256:<64 hex> reference".toList)

def verifySignature (identity : LocalImageIdentity) : Client Unit :=
  match identity.registryReference with
  | some reference => verifyImageSignature reference
  | none => Attempt.fail
      (.imageVerification "registry image has no immutable source reference".toList)

end Docker

section Mutation

variable (tool : List Char)

/-- `lock_cli_image_mutation_in_tx`. -/
def lockCliImageMutation : Client Unit := do
  let acquired : Bool ← (call (.tryLock tool)).mapError fun err =>
    .internal ("could not acquire CLI image mutation lock for ".toList ++ tool ++ ": ".toList
      ++ err.text)
  if acquired then return ()
  else Attempt.fail (.internal (("cli_image_mutation_busy: another update, build, prune, or roll"
    ++ " is already changing the ").toList ++ tool ++ " image".toList))

def beginCliImageMutation : Client Unit := do
  (call .begin).mapError fun err =>
    .internal ("could not begin CLI image mutation for ".toList ++ tool ++ ": ".toList ++ err.text)
  lockCliImageMutation tool

end Mutation

inductive UpdateOutcome where
  | upToDate (digest : List Char)
  | updated (previous : Option (List Char)) (current : List Char)
deriving DecidableEq, Repr

section Update

variable {Version : Type} [LT Version] [DecidableLT Version]
  (parse : List Char → Except (List Char) Version) (display : Version → List Char)
  (remoteRef runtimeRef : List Char)

def pullTracked (remoteDigest : List Char) : Client (Option LocalImageIdentity) := do
  pullImage remoteRef
  let tracked ← inspectIdentity remoteRef
  let pulledDigest := tracked.bind LocalImageIdentity.manifestDigest
  if pulledDigest = some remoteDigest then return tracked
  else Attempt.fail (.internal ("pulled image ".toList ++ remoteRef ++ " resolved to ".toList
    ++ pulledDigest.getD "<missing>".toList ++ ", expected tracked digest ".toList
    ++ remoteDigest))

def refreshTracked (remoteDigest : List Char) (tracked : Option LocalImageIdentity) :
    Client (Option LocalImageIdentity) :=
  if tracked.bind LocalImageIdentity.manifestDigest = some remoteDigest then pure tracked
  else pullTracked remoteRef remoteDigest

def retagRuntime (tracked : LocalImageIdentity) : Client Unit := do
  call (.tagImage tracked.id (splitRepoTag runtimeRef).1 (splitRepoTag runtimeRef).2)
  let repaired ← inspectIdentity runtimeRef
  if repaired.map LocalImageIdentity.id = some tracked.id then return ()
  else Attempt.fail (.internal ("runtime image alias ".toList ++ runtimeRef
    ++ " resolved to ".toList ++ (repaired.map LocalImageIdentity.id).getD "<missing>".toList
    ++ " after re-tag, expected immutable image id ".toList ++ tracked.id))

def ensureRuntime (tracked : LocalImageIdentity) (runtime : Option LocalImageIdentity) :
    Client Unit :=
  if runtime.map LocalImageIdentity.id = some tracked.id then pure ()
  else retagRuntime runtimeRef tracked

def verifyCandidate (candidate : LocalImageIdentity) (runtime : Option LocalImageIdentity) :
    Client Unit := do
  verifySignature candidate
  Attempt.lift (rejectCliVersionDowngrade parse display remoteRef runtimeRef candidate runtime)

def sameImage : Option LocalImageIdentity → Option LocalImageIdentity → Bool
  | some tracked, some runtime => tracked.id = runtime.id
  | _, _ => false

/-- The part of `check_and_update_image` before which a drift was found. -/
def repair (remoteDigest : List Char) (tracked runtime : Option LocalImageIdentity) :
    Client UpdateOutcome := do
  let tracked ← refreshTracked remoteRef remoteDigest tracked
  match tracked with
  | none => Attempt.fail (.internal ("tracked image ".toList ++ remoteRef
      ++ " has a digest but no immutable local identity".toList))
  | some tracked => do
      verifyCandidate parse display remoteRef runtimeRef tracked runtime
      ensureRuntime runtimeRef tracked runtime
      return .updated (runtime.bind LocalImageIdentity.manifestDigest) remoteDigest

def checkAndUpdateImage : Client UpdateOutcome := do
  let remoteDigest ← remoteImageDigest remoteRef
  let tracked ← inspectIdentity remoteRef
  let runtime ← inspectIdentity runtimeRef
  if tracked.bind LocalImageIdentity.manifestDigest = some remoteDigest
      ∧ sameImage tracked runtime then
    match tracked with
    | none => Attempt.fail (.internal ("tracked image ".toList ++ remoteRef
        ++ " lost its immutable local identity".toList))
    | some current => do
        verifyCandidate parse display remoteRef runtimeRef current runtime
        return .upToDate remoteDigest
  else repair parse display remoteRef runtimeRef remoteDigest tracked runtime

/-- `CliImageUpdater::check_and_update`. -/
def checkAndUpdate (environment : Environment) (tool : CliToolKind) : Client UpdateOutcome := do
  beginCliImageMutation tool.asStr
  let outcome ← checkAndUpdateImage parse display (CliImages.remoteRef environment tool)
    (localRuntimeRef tool)
  (call .commit).mapError fun err =>
    .internal ("could not finish CLI image mutation for ".toList ++ tool.asStr ++ ": ".toList
      ++ err.text)
  return outcome

end Update

inductive RemoveOutcome where
  | removed | skippedInUse | skippedConflict | notFound
deriving DecidableEq, Repr

/-- `remove_image_if_unreferenced`. -/
def removeImageIfUnreferenced (id : List Char) (referenced : List (List Char)) :
    Client RemoveOutcome :=
  if id ∈ referenced then pure .skippedInUse
  else do
    match ← (call (.removeImage id)).observe with
    | .ok _ => return .removed
    | .error err =>
        if err.isNotFound then return .notFound
        else if err.isConflict then return .skippedConflict
        else Attempt.fail err

structure PruneSummary where
  scanned : Nat := 0
  removed : Nat := 0
  skippedInUse : Nat := 0
  skippedConflict : Nat := 0
  errors : Nat := 0
  lastError : Option (List Char) := none
deriving DecidableEq, Repr

namespace PruneSummary

variable (summary : PruneSummary)

def failed (message : List Char) : PruneSummary :=
  { summary with errors := summary.errors + 1, lastError := some message }

def count : RemoveOutcome → PruneSummary
  | .removed => { summary with removed := summary.removed + 1 }
  | .skippedInUse => { summary with skippedInUse := summary.skippedInUse + 1 }
  | .skippedConflict => { summary with skippedConflict := summary.skippedConflict + 1 }
  | .notFound => summary

end PruneSummary

section Prune

def removeImages (referenced : List (List Char)) : List LocalImage → PruneSummary →
    Client PruneSummary
  | [], summary => pure summary
  | image :: rest, summary => do
      let scanned := { summary with scanned := summary.scanned + 1 }
      match ← (removeImageIfUnreferenced image.id referenced).observe with
      | .ok outcome => removeImages referenced rest (scanned.count outcome)
      | .error err => removeImages referenced rest (scanned.failed err.text)

def lockAll : List CliToolKind → Client Unit
  | [] => pure ()
  | tool :: rest => do
      lockCliImageMutation tool.asStr
      lockAll rest

/-- `prune_orphans` with the locks and the two lists. -/
def pruneListed (environment : Environment) (images : List LocalImage)
    (containers : List (Option (List Char))) : Client PruneSummary := do
  let summary ← removeImages containers.reduceOption
    (images.filter fun image => isPrunableAgentImage image (agentOverlayRepos environment)) {}
  match ← (call .commit).observe with
  | .ok _ => return summary
  | .error err =>
      return summary.failed ("could not finish CLI image prune mutation: ".toList ++ err.text)

def pruneOrphans (environment : Environment) : Client PruneSummary := do
  match ← (call .begin).observe with
  | .error err =>
      return PruneSummary.failed {} ("could not begin CLI image prune mutation: ".toList
        ++ err.text)
  | .ok _ =>
      match ← (lockAll pollableTools).observe with
      | .error err => return PruneSummary.failed {} err.text
      | .ok _ =>
          match ← (call .listImages).observe with
          | .error err => return PruneSummary.failed {} err.text
          | .ok images =>
              match ← (call .listContainers).observe with
              | .error err => return PruneSummary.failed {} err.text
              | .ok containers => pruneListed environment images containers

end Prune

end Forge.CliImageUpdater
