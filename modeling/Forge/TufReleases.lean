import Forge.Library.PathTail
import Forge.TufTrust

/-! The station that signs a bundle directory: whatever commands have run, a chain that is complete
verifies under its root, and under the root before a rotation. -/

namespace Forge.TufReleases

open Forge.EnvelopeSigning (hexDecode hexDecode_encode)
open Forge.Library
open Forge.Library.Fallible
open Forge.Library.JsonDocument
open Forge.Library.OrderedMap
open Forge.Library.PathTail
open Forge.Library.StateMachine
open Forge.TufCommands
open Forge.TufMetadata
open Forge.TufTrust (Fresh RootFile Rooted Child States Trusted checkBundle_eq_ok
  readMetadata_eq_ok readRootFile_eq_ok)

/-! ## The station -/

/-- What the station has on its disk. The root that was last written in whole, the one before the
last rotation, the files that the stored targets were made from, and that the chain is complete,
are history. -/
structure Station where
  files : Files
  root : Option Bytes
  previous : Option Bytes
  payload : Option Files
  complete : Bool

def start (files : Files) : Station := ⟨files, none, none, none, false⟩

/-- `write_metadata`. -/
def writeMetadata (files : Files) (dir : List Char) (name : String) (bytes : Bytes) : Files :=
  { files.store (metadataPath dir name) bytes with
    isDir := Function.update files.isDir
      (UnixPath.lexical (UnixPath.join dir metadataDirName)) true }

def Station.put (station : Station) (dir : List Char) (payload : Option Files) (write : Write) :
    Station :=
  { files := writeMetadata station.files dir write.name write.bytes
    root := if write.name = "root" then some write.bytes else station.root
    previous := none
    payload := if write.name = "targets" then payload else station.payload
    complete := false }

def Station.tear (station : Station) (dir : List Char) (name : String) (left : Bytes) : Station :=
  { files := writeMetadata station.files dir name left
    root := if name = "root" then none else station.root
    previous := none
    payload := if name = "targets" then none else station.payload
    complete := false }

def Station.puts (station : Station) (dir : List Char) (payload : Option Files)
    (writes : List Write) : Station :=
  writes.foldl (fun station write => station.put dir payload write) station

def Station.finish (station : Station) (previous : Option Bytes) : CliResult String → Station
  | .ok _ => { station with previous := previous, complete := true }
  | .error _ => station

/-- What a command leaves behind: all that it writes, or what it has written up to a write that
fails. -/
def Station.settle (station : Station) (dir : List Char) (outcome : Outcome)
    (payload : Option Files) (previous : Option Bytes) (torn : Option (Nat × Bytes)) : Station :=
  match torn.bind fun failure => outcome.writes[failure.1]?.map fun write => (failure, write) with
  | none => (station.puts dir payload outcome.writes).finish previous outcome.result
  | some ((count, left), write) =>
      (station.puts dir payload (outcome.writes.take count)).tear dir write.name left

/-- Anyone may alter any other file than those of the chain; a command may fail in any of its
writes. -/
inductive Action where
  | alter (path : List Char) (content : Option Bytes)
  | init (keyPath : List Char) (expiresDays : UInt64) (now : Int) (torn : Option (Nat × Bytes))
  | sign (keyPath : List Char) (now : Int) (torn : Option (Nat × Bytes))
  | rotate (newKeyPath oldKeyPath : List Char) (now : Int) (torn : Option (Nat × Bytes))

section Runs

variable (p : Primitives) (dir : List Char)

def chainPaths : List (List (List Char)) :=
  roleNames.map fun name => UnixPath.lexical (metadataPath dir name)

def exec (station : Station) : Action → Station
  | .alter path content =>
      if UnixPath.lexical path ∈ chainPaths dir then station
      else { station with
        files.content :=
          Function.update station.files.content (UnixPath.lexical path) content }
  | .init keyPath expiresDays now torn =>
      station.settle dir (init p station.files now dir keyPath expiresDays)
        (some station.files) none torn
  | .sign keyPath now torn =>
      station.settle dir (sign p station.files now dir keyPath) (some station.files) none torn
  | .rotate newKeyPath oldKeyPath now torn =>
      station.settle dir (rotate p station.files now dir newKeyPath oldKeyPath) station.payload
        station.root torn

def Collision : Prop := ∃ first second, first ≠ second ∧ p.sha256 first = p.sha256 second

/-- Nothing of the chain has expired, and there are targets whose files are as they were when they
were signed. -/
structure Ready (station : Station) (now : Int) : Prop where
  fresh : ∀ name ∈ roleNames, ∃ envelope, readEnvelope station.files dir name = .ok envelope
    ∧ Fresh p now (((envelope.signed.get "expires").bind Json.asStr).getD "")
  unchanged : ∀ envelope targets, readEnvelope station.files dir "targets" = .ok envelope →
    TargetsMetadata.fromJson envelope.signed = some targets →
    targets.targets.isEmpty = false ∧ ∃ payload, station.payload = some payload ∧
      ∀ target ∈ targets.targets.entries,
        station.files.read (UnixPath.join dir target.1.toList)
          = payload.read (UnixPath.join dir target.1.toList)

def AcceptedUnder (station : Station) (now : Int) (pinBytes rootBytes : Bytes) : Prop :=
  ∀ pinPath, station.files.read pinPath = some pinBytes → ∃ verified,
    checkBundle p station.files now dir pinPath = .ok verified ∧ verified.rootBytes = rootBytes

def versionOf (bytes : Bytes) : Option UInt64 :=
  ((SignedMeta.fromSlice bytes).bind fun envelope => RootMetadata.fromJson envelope.signed).map
    RootMetadata.version

/-- A complete chain is accepted by the hosts that have pinned its root, and, unless versions start
again from zero or digests collide, by those that have pinned the root before the rotation. -/
structure Verifiable (station : Station) : Prop where
  current : ∀ now rootBytes, station.complete = true → station.root = some rootBytes →
    Ready p dir station now → AcceptedUnder p dir station now rootBytes rootBytes
  rotated : ∀ now rootBytes previous, station.complete = true → station.root = some rootBytes →
    station.previous = some previous → versionOf rootBytes ≠ some 0 →
    Ready p dir station now →
      AcceptedUnder p dir station now previous rootBytes ∨ Collision p

end Runs

/-! ## The files of the chain -/

section Paths

variable {dir : List Char}

theorem lexical_metadataPath {name : String} (known : name ∈ roleNames) :
    UnixPath.lexical (metadataPath dir name)
      = UnixPath.lexical (UnixPath.join dir metadataDirName)
        ++ [name.toList ++ ".json".toList] := by
  have full : UnixPath.join dir metadataDirName ≠ [] := by
    have some_ : metadataDirName ≠ [] := by decide
    have relative : UnixPath.isAbsolute metadataDirName = false := by decide
    rw [UnixPath.join, relative, if_neg Bool.false_ne_true]
    split
    · exact List.append_ne_nil_of_right_ne_nil _ some_
    · exact List.append_ne_nil_of_right_ne_nil _ (List.cons_ne_nil _ _)
  have table : ∀ name ∈ roleNames, UnixPath.isAbsolute (name.toList ++ ".json".toList) = false
      ∧ tailComponents (name.toList ++ ".json".toList)
        = [.normal (name.toList ++ ".json".toList)] := by decide
  obtain ⟨relative, one⟩ := table name known
  rw [metadataPath, lexical_join_tail relative full, one]
  rfl

theorem root_known : "root" ∈ roleNames := by decide

theorem targets_known : "targets" ∈ roleNames := by decide

theorem snapshot_known : "snapshot" ∈ roleNames := by decide

theorem timestamp_known : "timestamp" ∈ roleNames := by decide

theorem metadataPath_inj {first second : String} (known : first ∈ roleNames)
    (known' : second ∈ roleNames)
    (same : UnixPath.lexical (metadataPath dir first)
      = UnixPath.lexical (metadataPath dir second)) : first = second := by
  rw [lexical_metadataPath known, lexical_metadataPath known'] at same
  have last := List.cons.inj (List.append_cancel_left same)
  exact String.toList_injective (List.append_cancel_right last.1)

theorem read_writeMetadata (files : Files) (name : String) (bytes : Bytes) :
    (writeMetadata files dir name bytes).read (metadataPath dir name) = some bytes :=
  Function.update_self ..

theorem read_writeMetadata_of_ne {files : Files} {name other : String} (bytes : Bytes)
    (known : name ∈ roleNames) (known' : other ∈ roleNames) (apart : other ≠ name) :
    (writeMetadata files dir name bytes).read (metadataPath dir other)
      = files.read (metadataPath dir other) :=
  Function.update_of_ne (fun same => apart (metadataPath_inj known' known same)) ..

end Paths

/-! ## What commands write -/

section Signed

variable {p : Primitives}

theorem readEnvelope_eq_ok {files : Files} {dir : List Char} {name : String}
    {envelope : SignedMeta} : readEnvelope files dir name = .ok envelope ↔
      ∃ bytes, files.read (metadataPath dir name) = some bytes
        ∧ SignedMeta.fromSlice bytes = some envelope := by
  simp only [readEnvelope, bind_eq_ok, readMetadata_eq_ok, okOr_eq_ok]

/-- The bytes are the object, with the consent of the root's role. -/
structure Signs (p : Primitives) (root : RootMetadata) (name : String) (signed : Json)
    (envelope : SignedMeta) (bytes : Bytes) : Prop where
  parsed : SignedMeta.fromSlice bytes = some envelope
  object : envelope.signed = signed
  authorized : Authorizes p root name envelope

theorem signs_of_signVerified {root : RootMetadata} {name : String} {signed : Json}
    {keys : List (String × p.SigningKey)} {bytes : Bytes} (signable : Signable signed)
    (done : signVerified p root name signed keys = .ok bytes) :
    Signs p root name signed ⟨signed, signaturesBy p (canonicalRuntime p signed) keys⟩ bytes := by
  simp only [signVerified, bind_eq_ok, okOr_eq_ok, fromSlice_signObject signable,
    Option.some.injEq, pure_eq_ok] at done
  obtain ⟨envelope, rfl, ⟨⟩, verified, rfl⟩ := done
  exact ⟨fromSlice_signObject signable, rfl, verifyRole_eq_ok.1 verified⟩

structure ChildFiles where
  targets : Bytes
  snapshot : Bytes
  timestamp : Bytes

def ChildFiles.writes (children : ChildFiles) : List Write :=
  [⟨"targets", children.targets⟩, ⟨"snapshot", children.snapshot⟩,
    ⟨"timestamp", children.timestamp⟩]

/-- The root stands behind each of them, and each states the hash of the one before. -/
structure Chain (p : Primitives) (root : RootMetadata) (targets : SortedMap String TargetEntry)
    (children : ChildFiles) : Prop where
  targets : ∃ version expires envelope, Signs p root "targets"
    (TargetsMetadata.toJson ⟨version, expires, targets⟩) envelope children.targets
  snapshot : ∃ version expires envelope, Signs p root "snapshot"
    (SnapshotMetadata.toJson ⟨version, expires, entryFor p children.targets⟩) envelope
    children.snapshot
  timestamp : ∃ version expires envelope, Signs p root "timestamp"
    (TimestampMetadata.toJson ⟨version, expires, entryFor p children.snapshot⟩) envelope
    children.timestamp

theorem chain_of_writeChildChain {root : RootMetadata} {keys : List (String × p.SigningKey)}
    {targets : SortedMap String TargetEntry} {expires : String}
    {versions : UInt64 × UInt64 × UInt64} {writes : List Write}
    (done : writeChildChain p root keys targets expires versions = .ok writes) :
    ∃ children, writes = ChildFiles.writes children ∧ Chain p root targets children := by
  simp only [writeChildChain, bind_eq_ok, pure_eq_ok] at done
  obtain ⟨targetsBytes, first, snapshotBytes, second, timestampBytes, third, rfl⟩ := done
  exact ⟨⟨targetsBytes, snapshotBytes, timestampBytes⟩, rfl,
    ⟨_, expires, _, signs_of_signVerified (TargetsMetadata.signable _) first⟩,
    ⟨_, expires, _, signs_of_signVerified (SnapshotMetadata.signable _) second⟩,
    ⟨_, expires, _, signs_of_signVerified (TimestampMetadata.signable _) third⟩⟩

/-- A root that a station makes: it asks for one signature of the ids listed, and all of them
belong to keys that are there. -/
structure Made (p : Primitives) (envelope : SignedMeta) (root : RootMetadata) : Prop where
  object : envelope.signed = root.toJson
  signed : Authorizes p root "root" envelope
  role : ∃ ids, root.roles.find? "root" = some ⟨ids, 1⟩ ∧ ∀ id ∈ ids, ∃ key,
    id = keyidFor p (p.verifyingKey key) ∧ root.keys.find? id = some (keyEntryFor p key)

theorem role_new (version : UInt64) (expires : String) (key : p.SigningKey) :
    (RootMetadata.new p version expires key).roles.find? "root"
        = some ⟨[keyidFor p (p.verifyingKey key)], 1⟩
      ∧ ∀ id, (RootMetadata.new p version expires key).keys.find? id
        = if id = keyidFor p (p.verifyingKey key) then some (keyEntryFor p key) else none := by
  constructor
  · simp [RootMetadata.new, roleNames, SortedMap.ofList, SortedMap.find?_insert]
  · intro id
    simp only [RootMetadata.new, SortedMap.ofList, List.foldl_cons, List.foldl_nil,
      SortedMap.find?_insert]
    rfl

theorem role_of_new (version : UInt64) (expires : String) (key : p.SigningKey) :
    ∃ ids, (RootMetadata.new p version expires key).roles.find? "root" = some ⟨ids, 1⟩
      ∧ ∀ id ∈ ids, ∃ key', id = keyidFor p (p.verifyingKey key')
        ∧ (RootMetadata.new p version expires key).keys.find? id
          = some (keyEntryFor p key') := by
  obtain ⟨role, keys⟩ := role_new version expires key
  refine ⟨_, role, fun id listed => ⟨key, List.mem_singleton.1 listed, ?_⟩⟩
  rw [keys, if_pos (List.mem_singleton.1 listed)]

theorem role_of_rotated (root : RootMetadata) (expires : String) (newKey oldKey : p.SigningKey) :
    ∃ ids, (rotatedRoot p root expires newKey oldKey).roles.find? "root" = some ⟨ids, 1⟩
      ∧ ∀ id ∈ ids, ∃ key, id = keyidFor p (p.verifyingKey key)
        ∧ (rotatedRoot p root expires newKey oldKey).keys.find? id
          = some (keyEntryFor p key) := by
  obtain ⟨role, keys⟩ := role_new (root.version + 1) expires newKey
  refine ⟨[keyidFor p (p.verifyingKey newKey), keyidFor p (p.verifyingKey oldKey)], ?_, ?_⟩
  · rw [rotatedRoot, SortedMap.find?_mapValues, role]
    rfl
  · intro id listed
    rw [rotatedRoot, SortedMap.find?_insert, keys]
    by_cases old : id = keyidFor p (p.verifyingKey oldKey)
    · exact ⟨oldKey, old, if_pos old⟩
    · have new : id = keyidFor p (p.verifyingKey newKey) := by
        rcases List.mem_cons.1 listed with new | listed
        · exact new
        · exact absurd (List.mem_singleton.1 listed) old
      exact ⟨newKey, new, by rw [if_neg old, if_pos new]⟩

theorem rawPublicKey_keyEntryFor (key : p.SigningKey) :
    rawPublicKey p (keyEntryFor p key) = .ok (p.verifyingKey key) := by
  have decoded : Base64.decodeStandard (keyEntryFor p key).keyval.publicKey.toList
      = some (p.asBytes (p.verifyingKey key)) := by
    rw [keyEntryFor, String.toList_ofList, Base64.decodeStandard_encodeStandard]
  rw [rawPublicKey, then_eq_ok, refuse_eq_ok, bind_eq_ok]
  refine ⟨not_or.2 ⟨not_not.2 rfl, not_not.2 rfl⟩, _, okOr_eq_ok.2 decoded, ?_⟩
  rw [then_eq_ok, refuse_eq_ok, okOr_eq_ok]
  exact ⟨not_not.2 (p.length_asBytes _), p.fromBytes_asBytes _⟩

theorem same_key_of_keyid {first second : p.VerifyingKey}
    (same : keyidFor p first = keyidFor p second) : first = second ∨ Collision p := by
  have digests := Option.some.inj ((hexDecode_encode _).symm.trans
    ((congrArg hexDecode same).trans (hexDecode_encode _)))
  by_cases equal : first = second
  · exact .inl equal
  · refine .inr ⟨_, _, fun messages => equal ?_, digests⟩
    have bytes := List.append_cancel_left messages
    have back := congrArg p.fromBytes bytes
    rw [p.fromBytes_asBytes, p.fromBytes_asBytes] at back
    exact Option.some.inj back

theorem authorizes_of_made {envelope : SignedMeta} {old : RootMetadata} (made : Made p envelope old)
    {oldKey : p.SigningKey} (listed : keyidFor p (p.verifyingKey oldKey) ∈ old.keyIds)
    {signed : Json} {keys : List (String × p.SigningKey)}
    (signer : (keyidFor p (p.verifyingKey oldKey), oldKey) ∈ keys) :
    Authorizes p old "root" ⟨signed, signaturesBy p (canonicalRuntime p signed) keys⟩
      ∨ Collision p := by
  obtain ⟨ids, role, known⟩ := made.role
  rw [RootMetadata.keyIds, role] at listed
  have listed : keyidFor p (p.verifyingKey oldKey) ∈ ids := listed
  obtain ⟨key, same, found⟩ := known _ listed
  refine (same_key_of_keyid same).imp_left fun equal => ⟨_, role, Nat.one_ne_zero, ?_, ?_⟩
  · intro id member
    obtain ⟨other, -, there⟩ := known id member
    exact ⟨_, there, _, rawPublicKey_keyEntryFor other⟩
  · refine ⟨[keyidFor p (p.verifyingKey oldKey)], List.nodup_singleton _, le_rfl, ?_⟩
    intro id member
    obtain rfl := List.mem_singleton.1 member
    refine ⟨listed, _, List.mem_map.2 ⟨_, signer, rfl⟩, rfl, ?_⟩
    exact ⟨_, _, _, found, rawPublicKey_keyEntryFor key, hexDecode_encode _,
      p.length_sign _ _, equal ▸ p.verify_sign _ _⟩

end Signed

/-! ## What a station keeps -/

section Invariant

variable (p : Primitives) (dir : List Char)

/-- The targets of the file are files as they were then. -/
def Lists (payload : Files) (bytes : Bytes) : Prop :=
  ∃ envelope targets, SignedMeta.fromSlice bytes = some envelope
    ∧ TargetsMetadata.fromJson envelope.signed = some targets
    ∧ ∀ target ∈ targets.targets.entries, ∃ file,
      payload.read (UnixPath.join dir target.1.toList) = some file
        ∧ target.2 = entryFor p file

/-- A write that a station may make. -/
structure Sound (payload : Option Files) (write : Write) : Prop where
  known : write.name ∈ roleNames
  root : write.name = "root" → ∃ envelope root, RootFile write.bytes envelope root
    ∧ Made p envelope root
  targets : write.name = "targets" → ∀ files, payload = some files → Lists p dir files write.bytes

/-- The files below a root that a host asks for. -/
structure Linked (files : Files) (root : RootMetadata) : Prop where
  child : ∀ name ∈ childNames, ∃ envelope, readEnvelope files dir name = .ok envelope
    ∧ Authorizes p root name envelope
  snapshot : States p files dir "timestamp" "snapshot" "snapshot"
  targets : States p files dir "snapshot" "targets" "targets"
  listed : ∃ envelope targets, readEnvelope files dir "targets" = .ok envelope
    ∧ TargetsMetadata.fromJson envelope.signed = some targets

def Rotation (previous rootBytes : Bytes) : Prop :=
  ∃ oldEnv old newEnv new, RootFile previous oldEnv old ∧ Authorizes p old "root" oldEnv
    ∧ RootFile rootBytes newEnv new ∧ new.version = old.version + 1
    ∧ (Authorizes p old "root" newEnv ∨ Collision p)

/-- What is complete is linked, and the consent of the previous root is there. -/
structure Finished (station : Station) (previous : Option Bytes) : Prop where
  directory : station.files.isDir (UnixPath.lexical (UnixPath.join dir metadataDirName)) = true
  linked : ∀ bytes envelope root, station.root = some bytes → RootFile bytes envelope root →
    Linked p dir station.files root
  rotation : ∀ old bytes, previous = some old → station.root = some bytes → Rotation p old bytes

structure Consistent (station : Station) : Prop where
  root : ∀ bytes, station.root = some bytes →
    station.files.read (metadataPath dir "root") = some bytes
      ∧ ∃ envelope root, RootFile bytes envelope root ∧ Made p envelope root
  payload : ∀ files, station.payload = some files → ∃ bytes,
    station.files.read (metadataPath dir "targets") = some bytes ∧ Lists p dir files bytes
  finished : station.complete = true → Finished p dir station station.previous

end Invariant

section Steps

variable {p : Primitives} {dir : List Char} {station : Station}

theorem consistent_put {payload : Option Files} {write : Write}
    (consistent : Consistent p dir station) (sound : Sound p dir payload write) :
    Consistent p dir (station.put dir payload write) := by
  refine ⟨fun bytes stored => ?_, fun files stored => ?_, fun done => by cases done⟩
  · by_cases here : write.name = "root"
    · obtain rfl : write.bytes = bytes := Option.some.inj ((if_pos here).symm.trans stored)
      exact ⟨here ▸ read_writeMetadata .., sound.root here⟩
    · obtain ⟨read, made⟩ := consistent.root bytes ((if_neg here).symm.trans stored)
      refine ⟨(read_writeMetadata_of_ne _ sound.known (by decide) (Ne.symm here)).trans read, made⟩
  · by_cases here : write.name = "targets"
    · have same : payload = some files := (if_pos here).symm.trans stored
      exact ⟨write.bytes, here ▸ read_writeMetadata .., sound.targets here files same⟩
    · obtain ⟨bytes, read, lists⟩ := consistent.payload files ((if_neg here).symm.trans stored)
      exact ⟨bytes, (read_writeMetadata_of_ne _ sound.known (by decide) (Ne.symm here)).trans read,
        lists⟩

theorem consistent_tear {name : String} (left : Bytes) (consistent : Consistent p dir station)
    (known : name ∈ roleNames) : Consistent p dir (station.tear dir name left) := by
  refine ⟨fun bytes stored => ?_, fun files stored => ?_, fun done => by cases done⟩
  · by_cases here : name = "root"
    · cases (if_pos here).symm.trans stored
    · obtain ⟨read, made⟩ := consistent.root bytes ((if_neg here).symm.trans stored)
      exact ⟨(read_writeMetadata_of_ne _ known (by decide) (Ne.symm here)).trans read, made⟩
  · by_cases here : name = "targets"
    · cases (if_pos here).symm.trans stored
    · obtain ⟨bytes, read, lists⟩ := consistent.payload files ((if_neg here).symm.trans stored)
      exact ⟨bytes, (read_writeMetadata_of_ne _ known (by decide) (Ne.symm here)).trans read, lists⟩

theorem puts_cons (payload : Option Files) (write : Write) (writes : List Write) :
    station.puts dir payload (write :: writes)
      = (station.put dir payload write).puts dir payload writes := rfl

theorem consistent_puts {payload : Option Files} {writes : List Write}
    (consistent : Consistent p dir station)
    (sound : ∀ write ∈ writes, Sound p dir payload write) :
    Consistent p dir (station.puts dir payload writes) := by
  induction writes generalizing station with
  | nil => exact consistent
  | cons write rest ih =>
      obtain ⟨first, later⟩ := List.forall_mem_cons.1 sound
      exact ih (consistent_put consistent first) later

theorem consistent_settle {outcome : Outcome} {payload : Option Files} {previous : Option Bytes}
    (torn : Option (Nat × Bytes)) (consistent : Consistent p dir station)
    (sound : ∀ write ∈ outcome.writes, Sound p dir payload write)
    (finished : ∀ message, outcome.result = .ok message →
      Finished p dir (station.puts dir payload outcome.writes) previous) :
    Consistent p dir (station.settle dir outcome payload previous torn) := by
  unfold Station.settle
  split
  case h_1 =>
      have all := consistent_puts consistent sound
      cases ended : outcome.result with
      | error => exact all
      | ok message =>
          obtain ⟨directory, linked, rotation⟩ := finished message ended
          exact ⟨all.root, all.payload, fun _ => ⟨directory, linked, rotation⟩⟩
  case h_2 count left write failed =>
      obtain ⟨failure, -, failed⟩ := Option.bind_eq_some_iff.1 failed
      obtain ⟨_, there, same⟩ := Option.map_eq_some_iff.1 failed
      cases same
      have listed := List.mem_of_getElem? there
      have before : ∀ write ∈ outcome.writes.take count, Sound p dir payload write :=
        fun earlier member => sound earlier (List.mem_of_mem_take member)
      exact consistent_tear left (consistent_puts consistent before) (sound write listed).known

end Steps

/-! ## Commands -/

section Commands

variable {p : Primitives} {dir : List Char} {station : Station} {root : RootMetadata}
  {targets : SortedMap String TargetEntry} {children : ChildFiles} {payload : Option Files}

def Describes (p : Primitives) (dir : List Char) (files : Files)
    (targets : SortedMap String TargetEntry) : Prop :=
  ∀ target ∈ targets.entries, ∃ file,
    files.read (UnixPath.join dir target.1.toList) = some file ∧ target.2 = entryFor p file

theorem describes_of_load {files : Files}
    (done : loadManifestTargets p files dir = .ok targets) : Describes p dir files targets := by
  simp only [loadManifestTargets, bind_eq_ok] at done
  obtain ⟨manifest, -, entries, -, done⟩ := done
  have onward : ∀ (entries : List (List Char × List Char)) (map : SortedMap String TargetEntry),
      Describes p dir files map →
      entries.foldlM (fun targets entry => do
        let path := String.ofList entry.2
        return SortedMap.insert targets path (← fileTarget p files dir path)) map = .ok targets →
      Describes p dir files targets := by
    intro entries
    induction entries with
    | nil =>
        intro map describes done
        obtain rfl := Except.ok.inj done
        exact describes
    | cons entry rest ih =>
        intro map describes done
        rw [List.foldlM_cons, bind_eq_ok] at done
        obtain ⟨grown, first, done⟩ := done
        simp only [fileTarget, bind_eq_ok, okOr_eq_ok, pure_eq_ok] at first
        obtain ⟨_, ⟨file, stored, rfl⟩, rfl⟩ := first
        refine ih _ (fun target listed => ?_) done
        rcases mem_insertEntry listed with rfl | before
        · exact ⟨file, stored, rfl⟩
        · exact describes target before
  exact onward entries .empty (fun target listed => absurd listed List.not_mem_nil) done

theorem sound_children (chain : Chain p root targets children)
    (describes : ∀ files, payload = some files → Describes p dir files targets) :
    ∀ write ∈ children.writes, Sound p dir payload write := by
  have lists : ∀ files, payload = some files → Lists p dir files children.targets := by
    intro files stored
    obtain ⟨version, expires, envelope, signs⟩ := chain.targets
    exact ⟨envelope, ⟨version, expires, targets⟩, signs.parsed,
      signs.object ▸ TargetsMetadata.fromJson_toJson _, describes files stored⟩
  have first : "targets" ≠ "root" := by decide
  have second : "snapshot" ≠ "root" ∧ "snapshot" ≠ "targets" := by decide
  have third : "timestamp" ≠ "root" ∧ "timestamp" ≠ "targets" := by decide
  have other {name : String} {bytes : Bytes} (known : name ∈ roleNames)
      (apart : name ≠ "root" ∧ name ≠ "targets") : Sound p dir payload ⟨name, bytes⟩ :=
    ⟨known, fun here => absurd here apart.1, fun here => absurd here apart.2⟩
  refine List.forall_mem_cons.2
    ⟨⟨targets_known, fun here => absurd here first, fun _ => lists⟩, ?_⟩
  exact List.forall_mem_cons.2 ⟨other snapshot_known second,
    List.forall_mem_singleton.2 (other timestamp_known third)⟩

theorem sound_root {envelope : SignedMeta} {bytes : Bytes} (file : RootFile bytes envelope root)
    (made : Made p envelope root) : Sound p dir payload ⟨"root", bytes⟩ := by
  have apart : "root" ≠ "targets" := by decide
  exact ⟨root_known, fun _ => ⟨envelope, root, file, made⟩, fun here => absurd here apart⟩

theorem rootFile_of_signs {envelope : SignedMeta} {bytes : Bytes}
    (signs : Signs p root "root" root.toJson envelope bytes) : RootFile bytes envelope root :=
  ⟨signs.parsed, signs.object ▸ RootMetadata.fromJson_toJson root⟩

/-- What the station holds once the three files below a root are written. -/
structure Wrote (dir : List Char) (before after : Station) (children : ChildFiles) : Prop where
  directory : after.files.isDir (UnixPath.lexical (UnixPath.join dir metadataDirName)) = true
  root : after.root = before.root
  targets : after.files.read (metadataPath dir "targets") = some children.targets
  snapshot : after.files.read (metadataPath dir "snapshot") = some children.snapshot
  timestamp : after.files.read (metadataPath dir "timestamp") = some children.timestamp

theorem wrote_puts (station : Station) (payload : Option Files) (children : ChildFiles) :
    Wrote dir station (station.puts dir payload children.writes) children := by
  have keep {files : Files} {name other : String} {bytes found : Bytes} (known : name ∈ roleNames)
      (known' : other ∈ roleNames) (apart : other ≠ name)
      (read : files.read (metadataPath dir other) = some found) :
      (writeMetadata files dir name bytes).read (metadataPath dir other) = some found :=
    (read_writeMetadata_of_ne bytes known known' apart).trans read
  have first : "targets" ≠ "snapshot" ∧ "targets" ≠ "timestamp" := by decide
  have second : "snapshot" ≠ "timestamp" := by decide
  refine ⟨Function.update_self .., rfl, ?_, ?_, read_writeMetadata ..⟩
  · exact keep timestamp_known targets_known first.2
      (keep snapshot_known targets_known first.1 (read_writeMetadata ..))
  · exact keep timestamp_known snapshot_known second (read_writeMetadata ..)

theorem linked_of_chain {before after : Station} (chain : Chain p root targets children)
    (wrote : Wrote dir before after children) : Linked p dir after.files root := by
  obtain ⟨version, expires, targetsEnv, targetsSigned⟩ := chain.targets
  obtain ⟨version', expires', snapshotEnv, snapshotSigned⟩ := chain.snapshot
  obtain ⟨version'', expires'', timestampEnv, timestampSigned⟩ := chain.timestamp
  have targetsRead := readEnvelope_eq_ok.2 ⟨_, wrote.targets, targetsSigned.parsed⟩
  have snapshotRead := readEnvelope_eq_ok.2 ⟨_, wrote.snapshot, snapshotSigned.parsed⟩
  have timestampRead := readEnvelope_eq_ok.2 ⟨_, wrote.timestamp, timestampSigned.parsed⟩
  refine ⟨?_, ?_, ?_, ?_⟩
  · refine List.forall_mem_cons.2 ⟨⟨_, targetsRead, targetsSigned.authorized⟩, ?_⟩
    exact List.forall_mem_cons.2 ⟨⟨_, snapshotRead, snapshotSigned.authorized⟩,
      List.forall_mem_singleton.2 ⟨_, timestampRead, timestampSigned.authorized⟩⟩
  · exact ⟨timestampEnv, children.snapshot, _, timestampRead, readMetadata_eq_ok.2 wrote.snapshot,
      timestampSigned.object ▸ rfl, TargetEntry.fromJson_toJson _⟩
  · exact ⟨snapshotEnv, children.targets, _, snapshotRead, readMetadata_eq_ok.2 wrote.targets,
      snapshotSigned.object ▸ rfl, TargetEntry.fromJson_toJson _⟩
  · exact ⟨targetsEnv, _, targetsRead,
      targetsSigned.object ▸ TargetsMetadata.fromJson_toJson _⟩

theorem root_unique {bytes : Bytes} {envelope envelope' : SignedMeta} {root' : RootMetadata}
    (file : RootFile bytes envelope root) (file' : RootFile bytes envelope' root') :
    envelope' = envelope ∧ root' = root := by
  obtain rfl := Option.some.inj (file'.parsed.symm.trans file.parsed)
  exact ⟨rfl, Option.some.inj (file'.isRoot.symm.trans file.isRoot)⟩

theorem consistent_failed {err : CliError} {previous : Option Bytes}
    (torn : Option (Nat × Bytes)) (consistent : Consistent p dir station) :
    Consistent p dir (station.settle dir ⟨[], .error err⟩ payload previous torn) :=
  consistent_settle torn consistent (List.forall_mem_nil _) fun _ same => by cases same

/-- How the writing of a whole chain ends. -/
inductive ChainOutcome (p : Primitives) (root : RootMetadata)
    (keys : List (String × p.SigningKey)) (targets : SortedMap String TargetEntry) :
    Outcome → Prop where
  | refused (err : CliError) : ChainOutcome p root keys targets ⟨[], .error err⟩
  | rooted (rootBytes : Bytes) (err : CliError)
      (signs : Signs p root "root" root.toJson
        ⟨root.toJson, signaturesBy p (canonicalRuntime p root.toJson) keys⟩ rootBytes) :
      ChainOutcome p root keys targets ⟨[⟨"root", rootBytes⟩], .error err⟩
  | whole (rootBytes : Bytes) (children : ChildFiles) (message : String)
      (signs : Signs p root "root" root.toJson
        ⟨root.toJson, signaturesBy p (canonicalRuntime p root.toJson) keys⟩ rootBytes)
      (chain : Chain p root targets children) :
      ChainOutcome p root keys targets ⟨⟨"root", rootBytes⟩ :: children.writes, .ok message⟩

theorem chainOutcome_of_write (root : RootMetadata) (keys : List (String × p.SigningKey))
    (targets : SortedMap String TargetEntry) (expires : String)
    (versions : UInt64 × UInt64 × UInt64) (message : String) :
    ChainOutcome p root keys targets
      (writeChain p root keys targets expires versions message) := by
  unfold writeChain
  cases rooted : signVerified p root "root" root.toJson keys with
  | error err => exact .refused err
  | ok rootBytes =>
      have signs := signs_of_signVerified root.signable rooted
      dsimp only
      cases written : writeChildChain p root keys targets expires versions with
      | error err => exact .rooted rootBytes err signs
      | ok writes =>
          obtain ⟨children, rfl, chain⟩ := chain_of_writeChildChain written
          exact .whole rootBytes children message signs chain

theorem consistent_chain {keys : List (String × p.SigningKey)} {outcome : Outcome}
    {previous : Option Bytes} (torn : Option (Nat × Bytes)) (consistent : Consistent p dir station)
    (role : ∃ ids, root.roles.find? "root" = some ⟨ids, 1⟩ ∧ ∀ id ∈ ids, ∃ key,
      id = keyidFor p (p.verifyingKey key) ∧ root.keys.find? id = some (keyEntryFor p key))
    (describes : ∀ files, payload = some files → Describes p dir files targets)
    (rotation : ∀ old rootBytes, previous = some old → Signs p root "root" root.toJson
      ⟨root.toJson, signaturesBy p (canonicalRuntime p root.toJson) keys⟩ rootBytes →
        Rotation p old rootBytes)
    (written : ChainOutcome p root keys targets outcome) :
    Consistent p dir (station.settle dir outcome payload previous torn) := by
  cases written with
  | refused err => exact consistent_failed torn consistent
  | rooted rootBytes err signs =>
      refine consistent_settle torn consistent (List.forall_mem_singleton.2 ?_)
        fun _ same => by cases same
      exact sound_root (rootFile_of_signs signs) ⟨signs.object, signs.authorized, role⟩
  | whole rootBytes children message signs chain =>
      have file := rootFile_of_signs signs
      refine consistent_settle torn consistent (List.forall_mem_cons.2
        ⟨sound_root file ⟨signs.object, signs.authorized, role⟩, sound_children chain describes⟩)
        fun _ _ => ?_
      have wrote := @wrote_puts dir (station.put dir payload ⟨"root", rootBytes⟩) payload children
      have put : (station.put dir payload ⟨"root", rootBytes⟩).root = some rootBytes := by
        simp only [Station.put, if_true]
      have held := wrote.root.trans put
      rw [puts_cons]
      refine ⟨wrote.directory, fun bytes envelope root' stored file' => ?_,
        fun old bytes before stored => ?_⟩
      · obtain rfl := Option.some.inj (held.symm.trans stored)
        rw [(root_unique file file').2]
        exact linked_of_chain chain wrote
      · obtain rfl := Option.some.inj (held.symm.trans stored)
        exact rotation old rootBytes before signs

theorem consistent_orFail {computed : CliResult Outcome} {previous : Option Bytes}
    {torn : Option (Nat × Bytes)} (consistent : Consistent p dir station)
    (each : ∀ outcome, computed = .ok outcome →
      Consistent p dir (station.settle dir outcome payload previous torn)) :
    Consistent p dir (station.settle dir (orFail computed) payload previous torn) := by
  cases computed with
  | error err => exact consistent_failed torn consistent
  | ok outcome => exact each outcome rfl

theorem consistent_init {keyPath : List Char} {expiresDays : UInt64} {now : Int}
    (torn : Option (Nat × Bytes)) (consistent : Consistent p dir station) :
    Consistent p dir (station.settle dir (init p station.files now dir keyPath expiresDays)
      (some station.files) none torn) := by
  refine consistent_orFail consistent fun outcome done => ?_
  simp only [bind_eq_ok, pure_eq_ok] at done
  obtain ⟨key, -, targets, load, rfl⟩ := done
  refine consistent_chain torn consistent (role_of_new 1 _ key) ?_ (fun _ _ held => by cases held)
    (chainOutcome_of_write _ _ targets _ _ _)
  rintro _ ⟨⟩
  exact describes_of_load load

theorem readRootFile_found {files : Files} {path : List Char}
    {found : Bytes × SignedMeta × RootMetadata} : readRootFile files path = .ok found ↔
      files.read path = some found.1 ∧ RootFile found.1 found.2.1 found.2.2 :=
  readRootFile_eq_ok

theorem consistent_sign {keyPath : List Char} {now : Int} (torn : Option (Nat × Bytes))
    (consistent : Consistent p dir station) :
    Consistent p dir (station.settle dir (sign p station.files now dir keyPath)
      (some station.files) none torn) := by
  refine consistent_orFail consistent fun outcome done => ?_
  simp only [bind_eq_ok, mapError_eq_ok, readRootFile_found, pure_eq_ok] at done
  obtain ⟨key, -, ⟨rootBytes, envelope, root⟩, ⟨read, file⟩, -, -, -, -, versions, -, targets, load,
    writes, written, rfl⟩ := done
  obtain ⟨children, rfl, chain⟩ := chain_of_writeChildChain written
  refine consistent_settle torn consistent (sound_children chain ?_) fun _ _ => ?_
  · rintro _ ⟨⟩
    exact describes_of_load load
  have wrote := @wrote_puts dir station (some station.files) children
  refine ⟨wrote.directory, fun bytes envelope' root' stored file' => ?_,
    fun _ _ held => by cases held⟩
  obtain ⟨read', -⟩ := consistent.root bytes (wrote.root.symm.trans stored)
  obtain rfl : rootBytes = bytes := Option.some.inj (read.symm.trans read')
  rw [(root_unique file file').2]
  exact linked_of_chain chain wrote

theorem describes_of_payload {files : Files} {envelope : SignedMeta} {old : TargetsMetadata}
    (consistent : Consistent p dir station) (held : station.payload = some files)
    (read : readEnvelope station.files dir "targets" = .ok envelope)
    (parsed : TargetsMetadata.fromJson envelope.signed = some old) :
    Describes p dir files old.targets := by
  obtain ⟨bytes, stored, envelope', old', isEnvelope, parsed', describes⟩ :=
    consistent.payload files held
  obtain ⟨bytes', stored', isEnvelope'⟩ := readEnvelope_eq_ok.1 read
  obtain rfl := Option.some.inj (stored'.symm.trans stored)
  obtain rfl := Option.some.inj (isEnvelope'.symm.trans isEnvelope)
  obtain rfl := Option.some.inj (parsed'.symm.trans parsed)
  exact describes

theorem consistent_rotate {newKeyPath oldKeyPath : List Char} {now : Int}
    (torn : Option (Nat × Bytes)) (consistent : Consistent p dir station) :
    Consistent p dir (station.settle dir (rotate p station.files now dir newKeyPath oldKeyPath)
      station.payload station.root torn) := by
  refine consistent_orFail consistent fun outcome done => ?_
  simp only [bind_eq_ok, readRootFile_found, okOr_eq_ok, pure_eq_ok] at done
  obtain ⟨oldKey, -, newKey, -, ⟨rootBytes, envelope, root⟩, ⟨read, file⟩, -, -, ⟨⟩, known,
    versions, -, targetsEnv, targetsRead, -, -, targets, parsed, rfl⟩ := done
  refine consistent_chain torn consistent (role_of_rotated root _ newKey oldKey) ?_ ?_
    (chainOutcome_of_write _ _ targets.targets _ _ _)
  · exact fun files held => describes_of_payload consistent held targetsRead parsed
  · intro old newBytes held signs
    obtain ⟨read', madeEnv, madeRoot, madeFile, made⟩ := consistent.root old held
    obtain rfl : rootBytes = old := Option.some.inj (read.symm.trans read')
    obtain ⟨rfl, rfl⟩ := root_unique file madeFile
    refine ⟨_, _, _, _, file, made.signed, rootFile_of_signs signs, rfl, ?_⟩
    exact authorizes_of_made made (not_not.1 (refuse_eq_ok.1 known)) (.tail _ (.head _))

end Commands

/-! ## Runs -/

section Runs

variable {p : Primitives} {dir : List Char} {station : Station}

theorem linked_congr {files files' : Files} {root : RootMetadata}
    (kept : ∀ name ∈ roleNames,
      files'.read (metadataPath dir name) = files.read (metadataPath dir name))
    (linked : Linked p dir files root) : Linked p dir files' root := by
  have bytes : ∀ name ∈ roleNames, readMetadata files' dir name = readMetadata files dir name := by
    intro name known
    rw [readMetadata, readMetadata, kept name known]
  have envelopes : ∀ name ∈ roleNames,
      readEnvelope files' dir name = readEnvelope files dir name := by
    intro name known
    rw [readEnvelope, readEnvelope, bytes name known]
  refine ⟨fun name listed => ?_, ?_, ?_, ?_⟩
  · rw [envelopes name (List.mem_cons_of_mem _ listed)]
    exact linked.child name listed
  · rw [States, envelopes _ timestamp_known, bytes _ snapshot_known]
    exact linked.snapshot
  · rw [States, envelopes _ snapshot_known, bytes _ targets_known]
    exact linked.targets
  · rw [envelopes _ targets_known]
    exact linked.listed

theorem consistent_alter {path : List Char} {content : Option Bytes}
    (consistent : Consistent p dir station)
    (other : UnixPath.lexical path ∉ chainPaths dir) :
    Consistent p dir { station with
      files.content :=
        Function.update station.files.content (UnixPath.lexical path) content } := by
  have kept : ∀ name ∈ roleNames, Files.read
      { station.files with
        content := Function.update station.files.content (UnixPath.lexical path) content }
      (metadataPath dir name) = station.files.read (metadataPath dir name) := fun name known =>
    Function.update_of_ne (fun same => other (List.mem_map.2 ⟨name, known, same⟩)) ..
  refine ⟨fun bytes stored => ?_, fun files held => ?_, fun done => ?_⟩
  · obtain ⟨read, made⟩ := consistent.root bytes stored
    exact ⟨(kept _ root_known).trans read, made⟩
  · obtain ⟨bytes, read, lists⟩ := consistent.payload files held
    exact ⟨bytes, (kept _ targets_known).trans read, lists⟩
  · obtain ⟨directory, linked, rotation⟩ := consistent.finished done
    exact ⟨directory, fun bytes envelope root stored file =>
      linked_congr kept (linked bytes envelope root stored file), rotation⟩

theorem consistent_exec (action : Action) (consistent : Consistent p dir station) :
    Consistent p dir (exec p dir station action) := by
  cases action with
  | alter path content =>
      rw [exec]
      split
      case isTrue => exact consistent
      case isFalse other => exact consistent_alter consistent other
  | init keyPath expiresDays now torn => exact consistent_init torn consistent
  | sign keyPath now torn => exact consistent_sign torn consistent
  | rotate newKeyPath oldKeyPath now torn => exact consistent_rotate torn consistent

theorem accepted_of_finished {now : Int} {rootBytes pinBytes : Bytes} {pinEnv rootEnv : SignedMeta}
    {pin root : RootMetadata} (consistent : Consistent p dir station)
    (complete : station.complete = true) (held : station.root = some rootBytes)
    (ready : Ready p dir station now) (pinFile : RootFile pinBytes pinEnv pin)
    (pinSigned : Authorizes p pin "root" pinEnv) (file : RootFile rootBytes rootEnv root)
    (follows : TufTrust.Follows p pinBytes rootBytes rootEnv pin root) :
    AcceptedUnder p dir station now pinBytes rootBytes := by
  intro pinPath pinStored
  obtain ⟨read, madeEnv, madeRoot, madeFile, made⟩ := consistent.root rootBytes held
  obtain ⟨rfl, rfl⟩ := root_unique file madeFile
  obtain ⟨directory, linked, -⟩ := consistent.finished complete
  have linked := linked rootBytes madeEnv madeRoot held file
  obtain ⟨envelope, targets, targetsRead, parsed⟩ := linked.listed
  obtain ⟨nonempty, payload, payloadHeld, unchanged⟩ :=
    ready.unchanged envelope targets targetsRead parsed
  have describes := describes_of_payload consistent payloadHeld targetsRead parsed
  have fresh : Fresh p now madeRoot.expires := by
    obtain ⟨envelope', read', fresh⟩ := ready.fresh "root" root_known
    obtain ⟨bytes, stored, isEnvelope⟩ := readEnvelope_eq_ok.1 read'
    obtain rfl := Option.some.inj (stored.symm.trans read)
    obtain rfl := Option.some.inj (isEnvelope.symm.trans file.parsed)
    rwa [made.object] at fresh
  refine ⟨⟨pin, rootBytes, madeRoot, targets⟩, checkBundle_eq_ok.2 ?_, rfl⟩
  refine ⟨directory, ⟨pinBytes, pinEnv, madeEnv, pinStored, read, ⟨pinFile, pinSigned, file,
    made.signed, fresh, follows⟩⟩, fun name listed => ?_, linked.snapshot, linked.targets,
    ⟨envelope, targetsRead, parsed⟩, nonempty, fun target listed => ?_⟩
  · obtain ⟨child, childRead, authorized⟩ := linked.child name listed
    obtain ⟨child', childRead', fresh'⟩ := ready.fresh name (List.mem_cons_of_mem _ listed)
    obtain rfl := Except.ok.inj (childRead'.symm.trans childRead)
    exact ⟨child', childRead', fresh', authorized⟩
  · obtain ⟨bytes, stored, entry⟩ := describes target listed
    exact ⟨bytes, (unchanged target listed).trans stored, entry⟩

theorem verifiable_of_consistent (consistent : Consistent p dir station) :
    Verifiable p dir station := by
  refine ⟨fun now rootBytes complete held ready => ?_,
    fun now rootBytes previous complete held before started ready => ?_⟩
  · obtain ⟨-, envelope, root, file, made⟩ := consistent.root rootBytes held
    exact accepted_of_finished consistent complete held ready file made.signed file (.same rfl rfl)
  · obtain ⟨oldEnv, old, newEnv, new, oldFile, oldSigned, newFile, version, consent⟩ :=
      (consistent.finished complete).rotation previous rootBytes before held
    refine consent.imp_left fun consent => ?_
    have next : new.version.toNat = old.version.toNat + 1 := by
      have bound := old.version.toNat_lt
      have sum : new.version.toNat = (old.version.toNat + 1) % 2 ^ 64 := by
        rw [version]
        exact UInt64.toNat_add old.version 1
      have positive : new.version.toNat ≠ 0 := by
        intro zero
        refine started ?_
        rw [versionOf, newFile.parsed, Option.bind_some, newFile.isRoot]
        exact congrArg some (UInt64.toNat_inj.1 zero)
      omega
    exact accepted_of_finished consistent complete held ready oldFile oldSigned newFile
      (.next next consent)

end Runs

end Forge.TufReleases
