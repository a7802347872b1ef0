import Forge.Library.UnixPath
import Forge.OrchestrationView
import Forge.TufMetadata

/-! The commands on a bundle directory: the chain is created, signed again, rotated and verified,
and what a bundle is that verifies. -/

namespace Forge.TufCommands

open Forge.Library
open Forge.Library.JsonDocument
open Forge.Library.JsonText
open Forge.Library.OrderedMap
open Forge.Library.Text
open Forge.OrchestrationView (isWhitespace)
open Forge.TufMetadata

structure Files where
  content : List (List Char) → Option Bytes
  isDir : List (List Char) → Bool

/-- `fs::read`. -/
def Files.read (files : Files) (path : List Char) : Option Bytes :=
  files.content (UnixPath.lexical path)

/-- `fs::read_to_string`. -/
def Files.readToString (files : Files) (path : List Char) : Option (List Char) :=
  (files.read path).bind Utf8.decode

def Files.store (files : Files) (path : List Char) (bytes : Bytes) : Files :=
  { files with content := Function.update files.content (UnixPath.lexical path) (some bytes) }

def display (path : List Char) : String := String.ofList path

def metadataPath (dir : List Char) (name : String) : List Char :=
  UnixPath.join (UnixPath.join dir metadataDirName) (name.toList ++ ".json".toList)

section Helpers

variable (p : Primitives) (files : Files) (dir : List Char)

def loadSigningKey (path : List Char) : CliResult p.SigningKey := do
  let pem ← okOr (files.readToString path) s!"cannot read signing key {display path}"
  okOr (p.fromPkcs8Pem pem) s!"cannot parse Ed25519 PKCS#8 key {display path}"

def readMetadata (name : String) : CliResult Bytes :=
  okOr (files.read (metadataPath dir name)) s!"missing metadata {display (metadataPath dir name)}"

def readEnvelope (name : String) : CliResult SignedMeta := do
  let bytes ← readMetadata files dir name
  okOr (SignedMeta.fromSlice bytes) s!"cannot parse metadata {name}.json"

def expiry (now : Int) (expiresDays : UInt64) : String :=
  p.toRfc3339 (now + expiresDays.toInt64.toInt * (24 * 60 * 60 * 10 ^ 9))

def checkExpiry (now : Int) (expires name : String) : CliResult Unit := do
  let time ← okOr (p.parseRfc3339 expires) s!"invalid expires in {name}"
  refuse (time < now)
    s!"{name} expired at {p.toRfc3339 time}; refresh the bundle (resign) before loading"

/-- One line of a manifest, `<hexsum>  <path>`; blank ones are passed over. -/
def manifestEntry (line : List Char) (index : Nat) :
    CliResult (Option (List Char × List Char)) := do
  let line := strip isWhitespace line
  if line = [] then return none
  let sum := line.takeWhile fun c => !isWhitespace c
  let path := strip isWhitespace (line.drop (sum.length + 1))
  refuse (sum = [] ∨ path = []) s!"malformed manifest line {index + 1}: {display line}"
  return some (sum, path)

def parseManifest (manifest : List Char) : CliResult (List (List Char × List Char)) := do
  let entries ← (lines manifest).zipIdx.mapM fun (line, index) => manifestEntry line index
  return entries.reduceOption

def sha256Hex (data : Bytes) : String := EnvelopeSigning.hexEncode (p.sha256 data)

def entryFor (bytes : Bytes) : TargetEntry := ⟨sha256Hex p bytes, .ofNat bytes.length⟩

def fileTarget (path : String) : CliResult TargetEntry := do
  let bytes ← okOr (files.read (UnixPath.join dir path.toList)) s!"cannot read target {path}"
  return entryFor p bytes

def loadManifestTargets : CliResult (SortedMap String TargetEntry) := do
  let manifestPath := UnixPath.join dir "SHA256SUMS".toList
  let manifest ← okOr (files.readToString manifestPath)
    s!"cannot read manifest {display manifestPath}"
  (← parseManifest manifest).foldlM (fun targets entry => do
    let path := String.ofList entry.2
    return targets.insert path (← fileTarget p files dir path)) .empty

def readRootFile (path : List Char) : CliResult (Bytes × SignedMeta × RootMetadata) := do
  let bytes ← okOr (files.read path) s!"cannot read {display path}"
  let envelope ← okOr (SignedMeta.fromSlice bytes) "cannot parse root.json"
  let root ← okOr (RootMetadata.fromJson envelope.signed) "root.json is not a TUF root"
  return (bytes, envelope, root)

def readVersion (name : String) : CliResult UInt64 := do
  let envelope ← readEnvelope files dir name
  okOr ((envelope.signed.get "version").bind asU64Value) s!"{name}.json has no valid version"

def versionsFrom : CliResult (UInt64 × UInt64 × UInt64) := do
  return (← readVersion files dir "targets", ← readVersion files dir "snapshot",
    ← readVersion files dir "timestamp")

end Helpers

/-! ## Signing -/

structure Write where
  name : String
  bytes : Bytes

structure Outcome where
  writes : List Write
  result : CliResult String

section Signing

variable (p : Primitives)

def signVerified (root : RootMetadata) (name : String) (signed : Json)
    (keys : List (String × p.SigningKey)) : CliResult Bytes := do
  let bytes := signObject p signed keys
  let envelope ← okOr (SignedMeta.fromSlice bytes) s!"signed {name} round trip"
  verifyRole p envelope root name
  return bytes

def writeChildChain (root : RootMetadata) (signingKeys : List (String × p.SigningKey))
    (targets : SortedMap String TargetEntry) (expires : String)
    (versions : UInt64 × UInt64 × UInt64) : CliResult (List Write) := do
  let targetsMeta : TargetsMetadata := ⟨versions.1 + 1, expires, targets⟩
  let targetsBytes ← signVerified p root "targets" targetsMeta.toJson signingKeys
  let snapshotMeta : SnapshotMetadata := ⟨versions.2.1 + 1, expires, entryFor p targetsBytes⟩
  let snapshotBytes ← signVerified p root "snapshot" snapshotMeta.toJson signingKeys
  let timestampMeta : TimestampMetadata := ⟨versions.2.2 + 1, expires, entryFor p snapshotBytes⟩
  let timestampBytes ← signVerified p root "timestamp" timestampMeta.toJson signingKeys
  return [⟨"targets", targetsBytes⟩, ⟨"snapshot", snapshotBytes⟩, ⟨"timestamp", timestampBytes⟩]

def writeChain (root : RootMetadata) (rootKeys : List (String × p.SigningKey))
    (targets : SortedMap String TargetEntry) (expires : String)
    (versions : UInt64 × UInt64 × UInt64) (message : String) : Outcome :=
  match signVerified p root "root" root.toJson rootKeys with
  | .error err => ⟨[], .error err⟩
  | .ok rootBytes =>
      match writeChildChain p root rootKeys targets expires versions with
      | .error err => ⟨[⟨"root", rootBytes⟩], .error err⟩
      | .ok children => ⟨⟨"root", rootBytes⟩ :: children, .ok message⟩

def orFail (computed : CliResult Outcome) : Outcome :=
  match computed with
  | .error err => ⟨[], .error err⟩
  | .ok outcome => outcome

variable (files : Files) (now : Int) (dir : List Char)

def init (keyPath : List Char) (expiresDays : UInt64) : Outcome := orFail do
  let key ← loadSigningKey p files keyPath
  let expires := expiry p now expiresDays
  let root := RootMetadata.new p 1 expires key
  let targets ← loadManifestTargets p files dir
  let keyid := keyidFor p (p.verifyingKey key)
  return writeChain p root [(keyid, key)] targets expires (0, 0, 0)
    (s!"TUF metadata initialized (root v1, {targets.entries.length} targets).\n" ++
      "Pin this root ONCE on every host before loading bundles:\n" ++
      s!"  cp {display dir}/metadata/root.json /etc/agentforge/tuf/root.json\n" ++
      s!"Root key id: {keyid}")

def sign (keyPath : List Char) : Outcome := orFail do
  let key ← loadSigningKey p files keyPath
  let (_, rootEnv, root) ← (readRootFile files (metadataPath dir "root")).mapError fun _ =>
    .other ("no existing metadata — run " ++
      "\x60agentforge tuf init --dir <dir> --key <key>\x60 first")
  verifyRole p rootEnv root "root"
  let signerKeyid := keyidFor p (p.verifyingKey key)
  refuse (signerKeyid ∉ root.keyIds)
    (s!"signing key {signerKeyid} is not a trusted root key; " ++
      "rotation requires \x60tuf rotate\x60")
  let versions ← versionsFrom files dir
  let targets ← loadManifestTargets p files dir
  let expires := expiry p now defaultExpiryDays
  let children ← writeChildChain p root [(signerKeyid, key)] targets expires versions
  return ⟨children, .ok (s!"TUF metadata refreshed: root v{root.version}, " ++
    s!"{targets.entries.length} targets, expiry {expires}")⟩

def rotatedRoot (root : RootMetadata) (expires : String) (newKey oldKey : p.SigningKey) :
    RootMetadata :=
  let newKeyid := keyidFor p (p.verifyingKey newKey)
  let oldKeyid := keyidFor p (p.verifyingKey oldKey)
  let fresh := RootMetadata.new p (root.version + 1) expires newKey
  { fresh with
    roles := fresh.roles.mapValues fun role => { role with keyids := [newKeyid, oldKeyid] }
    keys := fresh.keys.insert oldKeyid (keyEntryFor p oldKey) }

def rotate (newKeyPath oldKeyPath : List Char) : Outcome := orFail do
  let oldKey ← loadSigningKey p files oldKeyPath
  let newKey ← loadSigningKey p files newKeyPath
  let (_, rootEnv, root) ← readRootFile files (metadataPath dir "root")
  verifyRole p rootEnv root "root"
  let oldKeyid := keyidFor p (p.verifyingKey oldKey)
  refuse (oldKeyid ∉ root.keyIds) s!"old key {oldKeyid} is not a trusted root key; rotation refused"
  let newKeyid := keyidFor p (p.verifyingKey newKey)
  let expires := expiry p now defaultExpiryDays
  let rootMeta := rotatedRoot p root expires newKey oldKey
  let versions ← versionsFrom files dir
  let targetsEnv ← readEnvelope files dir "targets"
  verifyRole p targetsEnv root "targets"
  let targets ← okOr (TargetsMetadata.fromJson targetsEnv.signed) "parse targets.json"
  return writeChain p rootMeta [(newKeyid, newKey), (oldKeyid, oldKey)] targets.targets expires
    versions (s!"Root rotated to v{rootMeta.version} (keys: {oldKeyid} + {newKeyid}). " ++
      "Hosts advance their pin after the complete rotated bundle verifies.")

end Signing

/-! ## Verifying -/

structure Verified where
  pin : RootMetadata
  rootBytes : Bytes
  root : RootMetadata
  targets : TargetsMetadata

section Verifying

variable (p : Primitives) (files : Files) (now : Int) (dir : List Char)

def checkLink (source field target : String) (envelope : SignedMeta) (bytes : Bytes) :
    CliResult Unit := do
  let stated ← okOr (envelope.signed.get field) s!"{source}.json missing {target} hash"
  let expected ← okOr (TargetEntry.fromJson stated) s!"parse {source} {target}"
  let actual := entryFor p bytes
  refuse (actual ≠ expected)
    (s!"{source} -> {target} hash mismatch: expected sha256={expected.sha256} " ++
      s!"size={expected.size}, got sha256={actual.sha256} size={actual.size}")

/-- The bundle root is the pinned one, or the next one with the consent of the pinned keys. -/
def checkRoot (pinBytes rootBytes : Bytes) (rootEnv : SignedMeta) (pin root : RootMetadata) :
    CliResult Unit := do
  refuse (root.version < pin.version)
    s!"root rollback rejected: bundle root v{root.version} < pinned root v{pin.version}"
  if root.version = pin.version then
    refuse (rootBytes ≠ pinBytes)
      "root mismatch: bundle root v\x7bversion\x7d differs from the pinned root"
  else
    refuse (root.version ≠ pin.version + 1)
      (s!"root rotation rejected: bundle root v{root.version} must advance exactly one version " ++
        s!"from pinned root v{pin.version}")
    verifyRole p rootEnv pin "root"

def childNames : List String := ["targets", "snapshot", "timestamp"]

def checkChild (root : RootMetadata) (name : String) : CliResult Unit := do
  let envelope ← readEnvelope files dir name
  let expires := ((envelope.signed.get "expires").bind Json.asStr).getD ""
  checkExpiry p now expires s!"{name}.json"
  verifyRole p envelope root name

def checkTarget (target : String × TargetEntry) : CliResult Unit := do
  let actual ← fileTarget p files dir target.1
  refuse (target.2 ≠ actual)
    (s!"target hash mismatch for {target.1}: expected sha256={target.2.sha256} " ++
      s!"size={target.2.size}, got sha256={actual.sha256} size={actual.size}")

/-- All checks, up to the replacement of the pin. -/
def checkBundle (pinPath : List Char) : CliResult Verified := do
  let metaDir := UnixPath.join dir metadataDirName
  refuse (files.isDir (UnixPath.lexical metaDir) = false)
    (s!"no metadata directory {display metaDir} — " ++ "run \x60agentforge tuf init\x60 first")
  let (pinBytes, pinEnv, pin) ← readRootFile files pinPath
  verifyRole p pinEnv pin "root"
  let rootPath := metadataPath dir "root"
  let rootBytes ← okOr (files.read rootPath) s!"cannot read {display rootPath}"
  let rootEnv ← okOr (SignedMeta.fromSlice rootBytes) s!"cannot parse {display rootPath}"
  let root ← okOr (RootMetadata.fromJson rootEnv.signed) s!"cannot parse {display rootPath}"
  checkExpiry p now root.expires "root.json"
  checkRoot p pinBytes rootBytes rootEnv pin root
  verifyRole p rootEnv root "root"
  childNames.forM (checkChild p files now dir root)
  let timestamp ← readEnvelope files dir "timestamp"
  let snapshotBytes ← readMetadata files dir "snapshot"
  let snapshot ← readEnvelope files dir "snapshot"
  let targetsBytes ← readMetadata files dir "targets"
  checkLink p "timestamp" "snapshot" "snapshot" timestamp snapshotBytes
  checkLink p "snapshot" "targets" "targets" snapshot targetsBytes
  let targetsEnv ← readEnvelope files dir "targets"
  let targets ← okOr (TargetsMetadata.fromJson targetsEnv.signed) "parse targets.json"
  refuse (targets.targets.isEmpty = true) "targets.json has no target entries"
  targets.targets.entries.forM (checkTarget p files dir)
  return ⟨pin, rootBytes, root, targets⟩

def verifiedMessage (verified : Verified) : String :=
  s!"TUF chain verified: root v{verified.root.version} (pinned), " ++
    s!"{verified.targets.targets.entries.length} targets, signatures + hash chain OK."

end Verifying

end Forge.TufCommands
