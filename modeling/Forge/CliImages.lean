import Forge.Library.Text
import Forge.OrchestrationView

/-! Images as the Docker daemon describes them, the identities and registry sources that are
read off the description, and the version labels and repositories of the images of CLI tools. -/

namespace Forge.CliImages

open Forge.Library.Text
open Forge.OrchestrationView

/-- `status` is the code with which the daemon answered an error. -/
inductive PlatformError where
  | docker (status : Option Nat) (message : List Char)
  | internal (message : List Char)
  | pull (message : List Char)
  | registry (message : List Char)
  | imageVerification (message : List Char)
deriving DecidableEq, Repr

/-- A missing image is a `404` too. -/
def PlatformError.isNotFound : PlatformError → Bool
  | .docker (some 404) _ => true
  | _ => false

def PlatformError.isConflict : PlatformError → Bool
  | .docker (some 409) _ => true
  | _ => false

def PlatformError.text : PlatformError → List Char
  | .docker _ message => "Docker error: ".toList ++ message
  | .internal message => "Internal error: ".toList ++ message
  | .pull message => "Image pull failed: ".toList ++ message
  | .registry message => "Registry inspect failed: ".toList ++ message
  | .imageVerification message => "Image signature verification failed: ".toList ++ message

inductive CliToolKind where
  | claude | codex | gemini | opencode
deriving DecidableEq, Repr

def CliToolKind.asStr : CliToolKind → List Char
  | claude => "claude".toList
  | codex => "codex".toList
  | gemini => "gemini".toList
  | opencode => "opencode".toList

def CliToolKind.all : List CliToolKind :=
  [.claude, .codex, .gemini, .opencode]

def pollableTools : List CliToolKind :=
  CliToolKind.all.filter fun tool => tool ≠ .claude

abbrev Labels := List (List Char × List Char)

structure ImageInspect where
  id : Option (List Char)
  repoDigests : Option (List (List Char))
  labels : Option Labels
deriving DecidableEq, Repr

structure LocalImage where
  id : List Char
  repoTags : List (List Char)
  repoDigests : List (List Char)
deriving DecidableEq, Repr

structure LocalImageIdentity where
  id : List Char
  manifestDigest : Option (List Char)
  registryReference : Option (List Char)
  labels : Labels
deriving DecidableEq, Repr

section References

/-- `split_image_ref` and `split_repo_tag`. -/
def splitRepoTag (imageRef : List Char) : List Char × List Char :=
  match rsplitOnce ':' imageRef with
  | some (repo, tag) => if '/' ∈ tag then (imageRef, "latest".toList) else (repo, tag)
  | none => (imageRef, "latest".toList)

theorem mem_splitRepoTag {imageRef : List Char} (slash : '/' ∈ imageRef) :
    '/' ∈ (splitRepoTag imageRef).1 := by
  rw [splitRepoTag]
  split
  case h_1 repo tag parts =>
      split
      case isTrue => exact slash
      case isFalse plain =>
          rw [eq_of_rsplitOnce parts, List.mem_append, List.mem_cons] at slash
          rcases slash with inside | colon | inside
          · exact inside
          · exact absurd colon (by decide)
          · exact absurd inside plain
  case h_2 => exact slash

def imageRepository (imageRef : List Char) : List Char :=
  let withoutDigest := match splitOnce '@' imageRef with
    | some (repository, _) => repository
    | none => imageRef
  match rsplitOnce ':' withoutDigest with
  | some (repository, tag) => if '/' ∈ tag then withoutDigest else repository
  | none => withoutDigest

/-- The part of a path after the last `/`. -/
def leaf (path : List Char) : List Char :=
  match rsplitOnce '/' path with
  | some (_, last) => last
  | none => path

def isPublicCliOverlay (image : List Char) : Bool :=
  let name := (leaf image).takeWhile fun c => c ≠ '@' ∧ c ≠ ':'
  name = "agent-opencode".toList ∨ name = "agent-codex".toList ∨ name = "agent-gemini".toList

end References

section Inspection

variable (info : ImageInspect) (imageRef : List Char)

def extractLocalDigest : Option (List Char) :=
  info.repoDigests.bind fun digests =>
    digests.findSome? fun digest => (rsplitOnce '@' digest).map Prod.snd

def single (passes : List Char → Bool) (digests : List (List Char)) : Option (List Char) :=
  match digests.filter passes with
  | [only] => some only
  | _ => none

/-- Whether an entry `repository@digest` names a repository that passes. -/
def namesRepository (passes : List Char → Bool) (repoDigest : List Char) : Bool :=
  match splitOnce '@' repoDigest with
  | some (candidate, digest) => passes candidate && !digest.isEmpty
  | none => false

def extractRegistryReference : Option (List Char) :=
  info.repoDigests.bind fun digests =>
    let exact := namesRepository fun candidate => candidate = imageRepository imageRef
    if (digests.filter exact) ≠ [] then single exact digests
    else if "sha256:".toList <+: imageRef then
      single (namesRepository fun candidate => isPublicCliOverlay (leaf candidate)) digests
    else if "agentforge-agent:".toList <+: imageRef then
      let tool := imageRef.drop "agentforge-agent:".toList.length
      let overlay := "agent-".toList ++ tool
      if '/' ∈ tool ∨ ':' ∈ tool ∨ '@' ∈ tool then none
      else if isPublicCliOverlay overlay then
        single (namesRepository fun candidate => leaf candidate = overlay) digests
      else none
    else none

def localImageIdentity : Option LocalImageIdentity :=
  let registryReference := extractRegistryReference info imageRef
  let manifestDigest := (registryReference.bind fun reference =>
    (rsplitOnce '@' reference).map Prod.snd).or (extractLocalDigest info)
  match info.id with
  | none => none
  | some id =>
      if id = [] then none
      else some ⟨id, manifestDigest, registryReference, info.labels.getD []⟩

theorem localImageIdentity_of_id {id : List Char} (here : info.id = some id) (nonempty : id ≠ []) :
    ∃ identity, localImageIdentity info imageRef = some identity ∧ identity.id = id := by
  rw [localImageIdentity, here]
  exact ⟨_, if_neg nonempty, rfl⟩

theorem localImageIdentity_eq_some {identity : LocalImageIdentity}
    (found : localImageIdentity info imageRef = some identity) :
    info.id = some identity.id ∧ identity.labels = info.labels.getD [] := by
  rw [localImageIdentity] at found
  split at found
  case h_1 => cases found
  case h_2 id here =>
      split at found
      · cases found
      · cases found
        exact ⟨here, rfl⟩

end Inspection

def isHexDigit (c : Char) : Bool :=
  ('0' ≤ c ∧ c ≤ '9') ∨ ('a' ≤ c ∧ c ≤ 'f') ∨ ('A' ≤ c ∧ c ≤ 'F')

def isImmutableRegistryReference (reference : List Char) : Bool :=
  strip isWhitespace reference = reference &&
    match splitOnce '@' reference with
    | none => false
    | some (repository, digest) =>
        let hex := digest.drop "sha256:".toList.length
        "sha256:".toList <+: digest && !repository.isEmpty && '@' ∉ repository
          && hex.length = 64 && hex.all isHexDigit

section Versions

variable {Version : Type} [LT Version] [DecidableLT Version]
  (parse : List Char → Except (List Char) Version) (display : Version → List Char)
  (candidateRef runtimeRef : List Char)

def cliVersionLabel : List Char := "org.agentforge.cli-version".toList

def legacyCliVersionLabel : List Char := "org.wisdoverse.cli-version".toList

/-- The version that a tool's image carries in its labels. -/
def requiredCliVersion (labels : Labels) (imageRef role : List Char) :
    Except PlatformError Version :=
  let raw := ((labels.lookup cliVersionLabel).or (labels.lookup legacyCliVersionLabel)).map
    (strip isWhitespace)
  match raw.filter fun value => value ≠ [] ∧ value ≠ "<no value>".toList with
  | none => .error (.imageVerification ("image_cli_version_missing: ".toList ++ role ++ [' ']
      ++ imageRef ++ " has no CLI-version label; refusing automatic alias replacement".toList))
  | some value =>
      (parse value).mapError fun err => .imageVerification ("image_cli_version_invalid: ".toList
        ++ role ++ [' '] ++ imageRef ++ " has non-semver CLI-version label \"".toList ++ value
        ++ "\": ".toList ++ err)

def rejectCliVersionDowngrade (candidate : LocalImageIdentity)
    (runtime : Option LocalImageIdentity) : Except PlatformError Unit := do
  let candidateVersion ←
    requiredCliVersion parse candidate.labels candidateRef "verified candidate".toList
  match runtime with
  | none => return ()
  | some runtime =>
      if runtime.id = candidate.id then return ()
      let runtimeVersion ←
        requiredCliVersion parse runtime.labels runtimeRef "current runtime alias".toList
      if candidateVersion < runtimeVersion then
        throw (.imageVerification ("image_cli_version_downgrade: verified candidate ".toList
          ++ display candidateVersion ++ " is older than current runtime ".toList
          ++ display runtimeVersion ++ "; refusing to retag ".toList ++ runtimeRef))
      return ()

end Versions

section Names

structure Environment where
  agentRegistry : Option (List Char)
  agentCliImageTag : Option (List Char)

variable (environment : Environment)

def nonEmptyEnv (value : Option (List Char)) : Option (List Char) :=
  (value.map (strip isWhitespace)).filter fun value => value ≠ []

def configuredRegistry : List Char :=
  (nonEmptyEnv environment.agentRegistry).getD "ghcr.io/wisdoverse/wisdoverse-forge".toList

def configuredImageTag : List Char :=
  (nonEmptyEnv environment.agentCliImageTag).getD "latest".toList

def registryBase : List Char :=
  (configuredRegistry environment).rdropWhile fun c => c = '/'

def remoteRef (tool : CliToolKind) : List Char :=
  registryBase environment ++ "/agent-".toList ++ tool.asStr ++ ':' :: configuredImageTag environment

def localRuntimeRef (tool : CliToolKind) : List Char :=
  "agentforge-agent:".toList ++ tool.asStr

def agentOverlayRepos : List (List Char) :=
  pollableTools.map fun tool => registryBase environment ++ "/agent-".toList ++ tool.asStr

def isPrunableAgentImage (image : LocalImage) (agentRepos : List (List Char)) : Bool :=
  image.repoTags.isEmpty && image.repoDigests.any fun digest =>
    match rsplitOnce '@' digest with
    | some (repo, _) => agentRepos.contains repo
    | none => false

theorem of_isPrunableAgentImage {image : LocalImage} {agentRepos : List (List Char)}
    (prunable : isPrunableAgentImage image agentRepos = true) :
    image.repoTags = [] ∧ ∃ repo ∈ agentRepos, ∃ digest, repo ++ '@' :: digest ∈ image.repoDigests := by
  rw [isPrunableAgentImage, Bool.and_eq_true, List.isEmpty_iff, List.any_eq_true] at prunable
  obtain ⟨untagged, repoDigest, member, named⟩ := prunable
  split at named
  case h_1 repo digest parts =>
      rw [eq_of_rsplitOnce parts] at member
      exact ⟨untagged, repo, List.contains_iff_mem.1 named, digest, member⟩
  case h_2 => cases named

end Names

end Forge.CliImages
