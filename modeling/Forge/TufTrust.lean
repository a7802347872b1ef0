import Forge.Library.StateMachine
import Forge.TufCommands

/-! Hosts that verify bundles: what an accepted bundle has shown, and the roots that follow one
another as pins. -/

namespace Forge.TufTrust

open Forge.Library
open Forge.Library.Fallible
open Forge.Library.JsonDocument
open Forge.Library.StateMachine
open Forge.TufCommands
open Forge.TufMetadata

/-! ## Accepted bundles -/

/-- The bytes are a root in its envelope. -/
structure RootFile (bytes : Bytes) (envelope : SignedMeta) (root : RootMetadata) : Prop where
  parsed : SignedMeta.fromSlice bytes = some envelope
  isRoot : RootMetadata.fromJson envelope.signed = some root

section Spec

variable (p : Primitives) (files : Files) (now : Int) (dir : List Char)

def Fresh (expires : String) : Prop := ∃ time, p.parseRfc3339 expires = some time ∧ now ≤ time

/-- The root of a bundle against the pinned one: the same bytes, or the next version with the
consent of enough pinned keys. -/
inductive Follows (pinBytes rootBytes : Bytes) (rootEnv : SignedMeta) (pin root : RootMetadata) :
    Prop
  | same (version : root.version = pin.version) (equal : rootBytes = pinBytes)
  | next (version : root.version.toNat = pin.version.toNat + 1)
      (consent : Authorizes p pin "root" rootEnv)

/-- The roots of a bundle and of the host. -/
structure Rooted (pinBytes : Bytes) (verified : Verified) (pinEnv rootEnv : SignedMeta) : Prop where
  pin : RootFile pinBytes pinEnv verified.pin
  pinSigned : Authorizes p verified.pin "root" pinEnv
  root : RootFile verified.rootBytes rootEnv verified.root
  rootSigned : Authorizes p verified.root "root" rootEnv
  rootFresh : Fresh p now verified.root.expires
  follows : Follows p pinBytes verified.rootBytes rootEnv verified.pin verified.root

/-- A role of the root stands behind the file of its name, which has not expired. -/
structure Child (root : RootMetadata) (name : String) (envelope : SignedMeta) : Prop where
  stored : readEnvelope files dir name = .ok envelope
  fresh : Fresh p now (((envelope.signed.get "expires").bind Json.asStr).getD "")
  authorized : Authorizes p root name envelope

def States (source field target : String) : Prop :=
  ∃ envelope bytes stated, readEnvelope files dir source = .ok envelope
    ∧ readMetadata files dir target = .ok bytes ∧ envelope.signed.get field = some stated
    ∧ TargetEntry.fromJson stated = some (entryFor p bytes)

/-- What a bundle has to show. -/
structure Trusted (pinPath : List Char) (verified : Verified) : Prop where
  directory : files.isDir (UnixPath.lexical (UnixPath.join dir metadataDirName)) = true
  rooted : ∃ pinBytes pinEnv rootEnv, files.read pinPath = some pinBytes
    ∧ files.read (metadataPath dir "root") = some verified.rootBytes
    ∧ Rooted p now pinBytes verified pinEnv rootEnv
  children : ∀ name ∈ childNames, ∃ envelope, Child p files now dir verified.root name envelope
  snapshot : States p files dir "timestamp" "snapshot" "snapshot"
  targets : States p files dir "snapshot" "targets" "targets"
  listed : ∃ envelope, readEnvelope files dir "targets" = .ok envelope
    ∧ TargetsMetadata.fromJson envelope.signed = some verified.targets
  nonempty : verified.targets.targets.isEmpty = false
  payload : ∀ target ∈ verified.targets.targets.entries, ∃ bytes,
    files.read (UnixPath.join dir target.1.toList) = some bytes ∧ target.2 = entryFor p bytes

end Spec

section Checks

variable {p : Primitives} {files : Files} {now : Int} {dir pinPath : List Char}

theorem readRootFile_eq_ok {path : List Char} {bytes : Bytes} {envelope : SignedMeta}
    {root : RootMetadata} : readRootFile files path = .ok (bytes, envelope, root)
      ↔ files.read path = some bytes ∧ RootFile bytes envelope root := by
  simp only [readRootFile, bind_eq_ok, okOr_eq_ok, pure_eq_ok, Prod.mk.injEq]
  constructor
  · rintro ⟨_, stored, _, parsed, _, isRoot, rfl, rfl, rfl⟩
    exact ⟨stored, parsed, isRoot⟩
  · rintro ⟨stored, parsed, isRoot⟩
    exact ⟨_, stored, _, parsed, _, isRoot, rfl, rfl, rfl⟩

theorem checkExpiry_eq_ok {expires name : String} :
    checkExpiry p now expires name = .ok () ↔ Fresh p now expires := by
  simp only [checkExpiry, bind_eq_ok, okOr_eq_ok, refuse_eq_ok, not_lt, Fresh]

theorem checkLink_eq_ok {source field target : String} {envelope : SignedMeta} {bytes : Bytes} :
    checkLink p source field target envelope bytes = .ok () ↔
      ∃ stated, envelope.signed.get field = some stated
        ∧ TargetEntry.fromJson stated = some (entryFor p bytes) := by
  simp only [checkLink, bind_eq_ok, okOr_eq_ok, refuse_eq_ok, not_not]
  refine exists_congr fun stated => and_congr_right fun _ => ?_
  constructor
  · rintro ⟨expected, parsed, same⟩
    exact same ▸ parsed
  · exact fun parsed => ⟨_, parsed, rfl⟩

theorem checkTarget_eq_ok {target : String × TargetEntry} :
    checkTarget p files dir target = .ok () ↔ ∃ bytes,
      files.read (UnixPath.join dir target.1.toList) = some bytes
        ∧ target.2 = entryFor p bytes := by
  simp only [checkTarget, fileTarget, bind_eq_ok, okOr_eq_ok, refuse_eq_ok, not_not, pure_eq_ok]
  constructor
  · rintro ⟨_, ⟨bytes, stored, rfl⟩, same⟩
    exact ⟨bytes, stored, same⟩
  · rintro ⟨bytes, stored, same⟩
    exact ⟨_, ⟨bytes, stored, rfl⟩, same⟩

theorem checkChild_eq_ok {root : RootMetadata} {name : String} :
    checkChild p files now dir root name = .ok ()
      ↔ ∃ envelope, Child p files now dir root name envelope := by
  rw [checkChild, bind_eq_ok]
  refine exists_congr fun envelope => ?_
  rw [then_eq_ok, checkExpiry_eq_ok, verifyRole_eq_ok]
  exact ⟨fun ⟨stored, fresh, authorized⟩ => ⟨stored, fresh, authorized⟩,
    fun ⟨stored, fresh, authorized⟩ => ⟨stored, fresh, authorized⟩⟩

theorem next_version {old new : UInt64} (least : old ≤ new) :
    new = old + 1 ↔ new.toNat = old.toNat + 1 := by
  have bound := old.toNat_lt
  have bound' := new.toNat_lt
  have below := UInt64.le_iff_toNat_le.1 least
  have sum : (old + 1).toNat = (old.toNat + 1) % 2 ^ 64 := UInt64.toNat_add old 1
  rw [← UInt64.toNat_inj, sum]
  omega

theorem checkRoot_eq_ok {pinBytes rootBytes : Bytes} {rootEnv : SignedMeta}
    {pin root : RootMetadata} : checkRoot p pinBytes rootBytes rootEnv pin root = .ok ()
      ↔ Follows p pinBytes rootBytes rootEnv pin root := by
  rw [checkRoot, then_eq_ok, refuse_eq_ok, UInt64.not_lt]
  split
  case isTrue version =>
      rw [refuse_eq_ok, not_not]
      constructor
      · rintro ⟨_, equal⟩
        exact .same version equal
      · intro follows
        cases follows with
        | same _ equal => exact ⟨version ▸ UInt64.le_refl _, equal⟩
        | next more => rw [version] at more; omega
  case isFalse other =>
      rw [then_eq_ok, refuse_eq_ok, not_not, verifyRole_eq_ok]
      constructor
      · rintro ⟨least, version, consent⟩
        exact .next ((next_version least).1 version) consent
      · intro follows
        cases follows with
        | same version => exact absurd version other
        | next more consent =>
            have least : pin.version ≤ root.version := UInt64.le_iff_toNat_le.2 (by omega)
            exact ⟨least, (next_version least).2 more, consent⟩

theorem readMetadata_eq_ok {name : String} {bytes : Bytes} :
    readMetadata files dir name = .ok bytes ↔ files.read (metadataPath dir name) = some bytes := by
  rw [readMetadata, okOr_eq_ok]

theorem checkBundle_eq_ok {verified : Verified} :
    checkBundle p files now dir pinPath = .ok verified
      ↔ Trusted p files now dir pinPath verified := by
  unfold checkBundle
  simp only [bind_eq_ok, Unique.exists_iff, PUnit.default_eq_unit, Prod.exists, okOr_eq_ok,
    refuse_eq_ok, pure_eq_ok, checkRoot_eq_ok, verifyRole_eq_ok, checkExpiry_eq_ok,
    checkLink_eq_ok, checkTarget_eq_ok, checkChild_eq_ok, forM_eq_ok, readMetadata_eq_ok,
    readRootFile_eq_ok]
  constructor
  · rintro ⟨directory, pinBytes, pinEnv, pin, ⟨pinStored, pinFile⟩, pinSigned, rootBytes,
      rootStored, rootEnv, parsed, root, isRoot, rootFresh, follows, rootSigned, children,
      timestamp, timestampRead, snapshotBytes, snapshotStored, snapshot, snapshotRead,
      targetsBytes, targetsStored, snapshotLink, targetsLink, targetsEnv, targetsRead, targets,
      isTargets, some_, payload, rfl⟩
    obtain ⟨snapshotStated, snapshotField, snapshotEntry⟩ := snapshotLink
    obtain ⟨targetsStated, targetsField, targetsEntry⟩ := targetsLink
    exact
      { directory := eq_true_of_ne_false directory
        rooted := ⟨pinBytes, pinEnv, rootEnv, pinStored, rootStored,
          ⟨pinFile, pinSigned, ⟨parsed, isRoot⟩, rootSigned, rootFresh, follows⟩⟩
        children := children
        snapshot := ⟨timestamp, snapshotBytes, snapshotStated, timestampRead,
          readMetadata_eq_ok.2 snapshotStored, snapshotField, snapshotEntry⟩
        targets := ⟨snapshot, targetsBytes, targetsStated, snapshotRead,
          readMetadata_eq_ok.2 targetsStored, targetsField, targetsEntry⟩
        listed := ⟨targetsEnv, targetsRead, isTargets⟩
        nonempty := eq_false_of_ne_true some_
        payload := payload }
  · rintro ⟨directory, ⟨pinBytes, pinEnv, rootEnv, pinStored, rootStored, rooted⟩, children,
      ⟨timestamp, snapshotBytes, snapshotStated, timestampRead, snapshotStored, snapshotField,
        snapshotEntry⟩,
      ⟨snapshot, targetsBytes, targetsStated, snapshotRead, targetsStored, targetsField,
        targetsEntry⟩,
      ⟨targetsEnv, targetsRead, isTargets⟩, nonempty, payload⟩
    refine ⟨ne_false_of_eq_true directory, pinBytes, pinEnv, verified.pin, ⟨pinStored, rooted.pin⟩,
      rooted.pinSigned, verified.rootBytes, rootStored, rootEnv, rooted.root.parsed, verified.root,
      rooted.root.isRoot, rooted.rootFresh, rooted.follows, rooted.rootSigned, children, timestamp,
      timestampRead, snapshotBytes, readMetadata_eq_ok.1 snapshotStored, snapshot, snapshotRead,
      targetsBytes, readMetadata_eq_ok.1 targetsStored,
      ⟨snapshotStated, snapshotField, snapshotEntry⟩, ⟨targetsStated, targetsField, targetsEntry⟩,
      targetsEnv, targetsRead, verified.targets, isTargets, ne_true_of_eq_false nonempty, payload,
      rfl⟩

end Checks

/-! ## Hosts -/

structure Acceptance where
  files : Files
  now : Int
  dir : List Char
  verified : Verified

/-- What a host has on its disk. The contents that its pin has had, the newest first, and the
bundles that it has accepted, are history. -/
structure Host where
  files : Files
  pins : List Bytes
  accepted : List Acceptance

/-- Anyone may alter any file but the pin, and any directory; the host verifies a bundle at some
time, and its new pin may fail to be written. -/
inductive Action where
  | alter (path : List Char) (content : Option Bytes)
  | arrange (path : List Char) (present : Bool)
  | verify (dir : List Char) (now : Int) (persists : Bool)

section Runs

variable (p : Primitives) (pinPath : List Char)

/-- The replacement of the pin, if the root is newer, and what the host is told. -/
def conclude (host : Host) (acceptance : Acceptance) (persists : Bool) :
    Host × CliResult String :=
  let verified := acceptance.verified
  if verified.pin.version < verified.root.version then
    if persists then
      (⟨host.files.store pinPath verified.rootBytes, verified.rootBytes :: host.pins,
        acceptance :: host.accepted⟩, .ok (verifiedMessage verified))
    else (host, .error (.other s!"cannot replace root pin {display pinPath}"))
  else
    (⟨host.files, host.pins, acceptance :: host.accepted⟩, .ok (verifiedMessage verified))

def verify (host : Host) (dir : List Char) (now : Int) (persists : Bool) :
    Host × CliResult String :=
  match checkBundle p host.files now dir pinPath with
  | .error err => (host, .error err)
  | .ok verified => conclude pinPath host ⟨host.files, now, dir, verified⟩ persists

def exec (host : Host) : Action → Host
  | .alter path content =>
      if UnixPath.lexical path = UnixPath.lexical pinPath then host
      else { host with files.content :=
        Function.update host.files.content (UnixPath.lexical path) content }
  | .arrange path present =>
      { host with files.isDir :=
        Function.update host.files.isDir (UnixPath.lexical path) present }
  | .verify dir now persists => (verify p pinPath host dir now persists).1

def start (files : Files) : Host := ⟨files, (files.read pinPath).toList, []⟩

/-- The newer pin is the next version of the older one, and enough keys of the older one and of its
own have signed it. -/
def Succeeds (newer older : Bytes) : Prop :=
  ∃ oldEnv old newEnv new, RootFile older oldEnv old ∧ RootFile newer newEnv new
    ∧ new.version.toNat = old.version.toNat + 1 ∧ Authorizes p old "root" newEnv
    ∧ Authorizes p new "root" newEnv

/-- The pin is the newest of a chain of roots that starts with the one put there by hand. -/
structure Chained (files : Files) (host : Host) : Prop where
  current : host.files.read pinPath = host.pins.head?
  chain : host.pins.IsChain (Succeeds p)
  first : host.pins.getLast? = files.read pinPath

/-- Nothing is accepted that has not shown all it has to show, under a root that was or became the
pin. -/
def Accepts (host : Host) : Prop :=
  ∀ acceptance ∈ host.accepted,
    Trusted p acceptance.files acceptance.now acceptance.dir pinPath acceptance.verified
      ∧ acceptance.verified.rootBytes ∈ host.pins

end Runs

section Keeping

variable {p : Primitives} {pinPath dir : List Char} {files : Files} {host : Host}

theorem chained_start : Chained p pinPath files (start pinPath files) := by
  have head : ∀ stored : Option Bytes, stored.toList.head? = stored
      ∧ stored.toList.IsChain (Succeeds p) ∧ stored.toList.getLast? = stored := by
    rintro (_ | bytes)
    · exact ⟨rfl, .nil, rfl⟩
    · exact ⟨rfl, .singleton _, rfl⟩
  obtain ⟨current, chain, first⟩ := head (files.read pinPath)
  exact ⟨current.symm, chain, first⟩

theorem read_store (path : List Char) (bytes : Bytes) :
    (files.store path bytes).read path = some bytes :=
  Function.update_self ..

theorem root_of_trusted {now : Int} {verified : Verified} (chained : Chained p pinPath files host)
    (trusted : Trusted p host.files now dir pinPath verified) :
    if verified.pin.version < verified.root.version then
      (verified.rootBytes :: host.pins).IsChain (Succeeds p)
    else verified.rootBytes ∈ host.pins := by
  obtain ⟨pinBytes, pinEnv, rootEnv, pinStored, -, rooted⟩ := trusted.rooted
  obtain ⟨rest, pins⟩ := List.head?_eq_some_iff.1 (chained.current.symm.trans pinStored)
  cases rooted.follows with
  | same version equal =>
      rw [if_neg (by rw [version]; exact UInt64.lt_irrefl _), equal, pins]
      exact .head _
  | next version consent =>
      have newer : verified.pin.version < verified.root.version := by
        rw [UInt64.lt_iff_toNat_lt]
        omega
      have chain := chained.chain
      rw [pins] at chain
      rw [if_pos newer, pins]
      exact .cons_cons ⟨pinEnv, verified.pin, rootEnv, verified.root, rooted.pin, rooted.root,
        version, consent, rooted.rootSigned⟩ chain

theorem chained_conclude {now : Int} {verified : Verified} (persists : Bool)
    (chained : Chained p pinPath files host)
    (trusted : Trusted p host.files now dir pinPath verified) :
    Chained p pinPath files
      (conclude pinPath host ⟨host.files, now, dir, verified⟩ persists).1 := by
  have root := root_of_trusted chained trusted
  rw [conclude]
  split
  case isTrue newer =>
      rw [if_pos newer] at root
      split
      · obtain ⟨pin, rest, pins⟩ : ∃ pin rest, host.pins = pin :: rest := by
          obtain ⟨pinBytes, -, -, pinStored, -⟩ := trusted.rooted
          exact ⟨pinBytes, List.head?_eq_some_iff.1 (chained.current.symm.trans pinStored)⟩
        refine ⟨read_store pinPath verified.rootBytes, root, ?_⟩
        rw [← chained.first, pins]
        exact List.getLast?_cons_cons
      · exact chained
  case isFalse => exact ⟨chained.current, chained.chain, chained.first⟩

theorem accepts_conclude {now : Int} {verified : Verified} (persists : Bool)
    (chained : Chained p pinPath files host) (accepts : Accepts p pinPath host)
    (trusted : Trusted p host.files now dir pinPath verified) :
    Accepts p pinPath (conclude pinPath host ⟨host.files, now, dir, verified⟩ persists).1 := by
  have root := root_of_trusted chained trusted
  rw [conclude]
  split
  case isTrue newer =>
      split
      · refine List.forall_mem_cons.2 ⟨⟨trusted, .head _⟩, fun acceptance listed => ?_⟩
        exact ⟨(accepts acceptance listed).1, .tail _ (accepts acceptance listed).2⟩
      · exact accepts
  case isFalse older =>
      rw [if_neg older] at root
      exact List.forall_mem_cons.2 ⟨⟨trusted, root⟩, accepts⟩

theorem sound_exec (action : Action)
    (sound : Chained p pinPath files host ∧ Accepts p pinPath host) :
    Chained p pinPath files (exec p pinPath host action)
      ∧ Accepts p pinPath (exec p pinPath host action) := by
  obtain ⟨chained, accepts⟩ := sound
  cases action with
  | alter path content =>
      rw [exec]
      split
      case isTrue => exact ⟨chained, accepts⟩
      case isFalse other =>
          refine ⟨⟨?_, chained.chain, chained.first⟩, accepts⟩
          rw [← chained.current]
          exact Function.update_of_ne (Ne.symm other) ..
  | arrange path present =>
      exact ⟨⟨chained.current, chained.chain, chained.first⟩, accepts⟩
  | verify dir now persists =>
      rw [exec, verify]
      cases checked : checkBundle p host.files now dir pinPath with
      | error => exact ⟨chained, accepts⟩
      | ok verified =>
          have trusted := checkBundle_eq_ok.1 checked
          exact ⟨chained_conclude persists chained trusted,
            accepts_conclude persists chained accepts trusted⟩

theorem sound_run (p : Primitives) (pinPath : List Char) (files : Files) (actions : List Action) :
    Chained p pinPath files (run (exec p pinPath) (start pinPath files) actions)
      ∧ Accepts p pinPath (run (exec p pinPath) (start pinPath files) actions) := by
  have reached : Reachable (exec p pinPath) (· = start pinPath files) (fun _ _ => True)
      (run (exec p pinPath) (start pinPath files) actions) :=
    reachable_run rfl (allAllowed_of_forall (fun _ _ _ => trivial) _)
  have first : ∀ host, host = start pinPath files →
      Chained p pinPath files host ∧ Accepts p pinPath host := by
    rintro _ rfl
    exact ⟨chained_start, List.forall_mem_nil _⟩
  have keep : ∀ host action, Chained p pinPath files host ∧ Accepts p pinPath host → True →
      Chained p pinPath files (exec p pinPath host action)
        ∧ Accepts p pinPath (exec p pinPath host action) :=
    fun _ action sound _ => sound_exec action sound
  exact reached.invariant first keep

theorem sha256_eq {first second : Bytes} (same : entryFor p first = entryFor p second) :
    p.sha256 first = p.sha256 second := by
  have hex := congrArg TargetEntry.sha256 same
  have decoded := congrArg EnvelopeSigning.hexDecode hex
  exact Option.some.inj ((EnvelopeSigning.hexDecode_encode _).symm.trans
    (decoded.trans (EnvelopeSigning.hexDecode_encode _)))

end Keeping

/-- In every run the pins of a host are a chain: each was made with the consent of the one before
it, and is its next version. -/
theorem pins_chained (p : Primitives) (pinPath : List Char) (files : Files)
    (actions : List Action) :
    Chained p pinPath files (run (exec p pinPath) (start pinPath files) actions) :=
  (sound_run p pinPath files actions).1

def SameFile (p : Primitives) (first second : Acceptance) (target : String) : Prop :=
  ∃ bytes bytes', first.files.read (UnixPath.join first.dir target.toList) = some bytes
    ∧ second.files.read (UnixPath.join second.dir target.toList) = some bytes'
    ∧ (bytes = bytes' ∨ bytes ≠ bytes' ∧ p.sha256 bytes = p.sha256 bytes')

/-- In every run a host accepts only bundles that have shown all they have to show, and bundles
that list the same target have the same file there. -/
theorem accepted_trusted (p : Primitives) (pinPath : List Char) (files : Files)
    (actions : List Action) :
    Accepts p pinPath (run (exec p pinPath) (start pinPath files) actions)
      ∧ ∀ first ∈ (run (exec p pinPath) (start pinPath files) actions).accepted,
        ∀ second ∈ (run (exec p pinPath) (start pinPath files) actions).accepted,
          ∀ target ∈ first.verified.targets.targets.entries,
            target ∈ second.verified.targets.targets.entries →
              SameFile p first second target.1 := by
  have accepts := (sound_run p pinPath files actions).2
  refine ⟨accepts, fun first listed second listed' target named named' => ?_⟩
  obtain ⟨bytes, stored, entry⟩ := (accepts first listed).1.payload target named
  obtain ⟨bytes', stored', entry'⟩ := (accepts second listed').1.payload target named'
  have digests := @sha256_eq p bytes bytes' (entry.symm.trans entry')
  by_cases same : bytes = bytes'
  · exact ⟨bytes, bytes', stored, stored', .inl same⟩
  · exact ⟨bytes, bytes', stored, stored', .inr ⟨same, digests⟩⟩

end Forge.TufTrust
