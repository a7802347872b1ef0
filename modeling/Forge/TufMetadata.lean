import Forge.EnvelopeSigning
import Forge.Library.Base64
import Forge.Library.CanonicalJson
import Forge.Library.Fallible
import Forge.Library.Utf8

/-! The metadata of offline release bundles: the signed objects and their JSON, the keys and
thresholds of roles, and the signatures that a role asks for. -/

namespace Forge.TufMetadata

open Forge.EnvelopeSigning (hexEncode hexDecode hexDecode_encode)
open Forge.Library
open Forge.Library.CanonicalJson
open Forge.Library.Fallible
open Forge.Library.JsonDocument
open Forge.Library.JsonText
open Forge.Library.OrderedMap

/-- `CliError::Other`; the text of a cause that a library words is left out. -/
inductive CliError where
  | other (message : String)
deriving Repr, DecidableEq

abbrev CliResult := Except CliError

/-- `ok_or_else`. -/
def okOr {α : Type} (found : Option α) (message : String) : CliResult α :=
  found.elim (.error (.other message)) .ok

def refuse (condition : Prop) [Decidable condition] (message : String) : CliResult Unit :=
  if condition then .error (.other message) else .ok ()

theorem okOr_eq_ok {α : Type} {found : Option α} {message : String} {value : α} :
    okOr found message = .ok value ↔ found = some value :=
  elim_eq_ok

theorem refuse_eq_ok {condition : Prop} [Decidable condition] {message : String} :
    refuse condition message = .ok () ↔ ¬ condition := by
  rw [refuse]
  split
  case isTrue holds => exact iff_of_false (fun same => by cases same) (not_not.2 holds)
  case isFalse fails => exact iff_of_true rfl fails

abbrev Bytes := List UInt8

/-- The signatures, digests, times and float texts that the crates beneath provide. -/
structure Primitives where
  SigningKey : Type
  VerifyingKey : Type
  verifyingKey : SigningKey → VerifyingKey
  asBytes : VerifyingKey → Bytes
  fromBytes : Bytes → Option VerifyingKey
  sign : SigningKey → Bytes → Bytes
  verify : VerifyingKey → Bytes → Bytes → Bool
  sha256 : Bytes → Bytes
  fromPkcs8Pem : List Char → Option SigningKey
  parseRfc3339 : String → Option Int
  toRfc3339 : Int → String
  float : FloatText
  length_asBytes : ∀ key, (asBytes key).length = 32
  fromBytes_asBytes : ∀ key, fromBytes (asBytes key) = some key
  length_sign : ∀ key message, (sign key message).length = 64
  verify_sign : ∀ key message, verify (verifyingKey key) message (sign key message) = true

def metadataDirName : List Char := "metadata".toList
def defaultExpiryDays : UInt64 := 365
def keyType : String := "ed25519"

/-! ## The metadata model -/

structure KeyVal where
  publicKey : String
deriving Repr, DecidableEq

structure Key where
  keytype : String
  scheme : String
  keyval : KeyVal
deriving Repr, DecidableEq

structure Role where
  keyids : List String
  threshold : UInt32
deriving Repr, DecidableEq

structure RootMetadata where
  specVersion : String
  version : UInt64
  expires : String
  keys : SortedMap String Key
  roles : SortedMap String Role

structure TargetEntry where
  sha256 : String
  size : UInt64
deriving Repr, DecidableEq

structure TargetsMetadata where
  version : UInt64
  expires : String
  targets : SortedMap String TargetEntry

structure SnapshotMetadata where
  version : UInt64
  expires : String
  targets : TargetEntry

structure TimestampMetadata where
  version : UInt64
  expires : String
  snapshot : TargetEntry

structure Signature where
  keyid : String
  sig : String
deriving Repr, DecidableEq

structure SignedMeta where
  signed : Json
  signatures : List Signature

/-! ## What serde derives -/

section Serde

def number (value : Nat) : Json := .number value 0

def Key.toJson (key : Key) : Json :=
  .object [("keytype", .string key.keytype),
    ("keyval", .object [("public", .string key.keyval.publicKey)]), ("scheme", .string key.scheme)]

def Role.toJson (role : Role) : Json :=
  .object [("keyids", .array (role.keyids.map .string)), ("threshold", number role.threshold.toNat)]

def mapToJson {β : Type} (toJson : β → Json) (map : SortedMap String β) : Json :=
  .object (map.mapValues toJson).entries

def RootMetadata.toJson (root : RootMetadata) : Json :=
  .object [("expires", .string root.expires), ("keys", mapToJson Key.toJson root.keys),
    ("roles", mapToJson Role.toJson root.roles), ("spec_version", .string root.specVersion),
    ("version", number root.version.toNat)]

def TargetEntry.toJson (entry : TargetEntry) : Json :=
  .object [("sha256", .string entry.sha256), ("size", number entry.size.toNat)]

def TargetsMetadata.toJson (targets : TargetsMetadata) : Json :=
  .object [("expires", .string targets.expires),
    ("targets", mapToJson TargetEntry.toJson targets.targets),
    ("version", number targets.version.toNat)]

def SnapshotMetadata.toJson (snapshot : SnapshotMetadata) : Json :=
  .object [("expires", .string snapshot.expires), ("targets", snapshot.targets.toJson),
    ("version", number snapshot.version.toNat)]

def TimestampMetadata.toJson (timestamp : TimestampMetadata) : Json :=
  .object [("expires", .string timestamp.expires), ("snapshot", timestamp.snapshot.toJson),
    ("version", number timestamp.version.toNat)]

def Signature.toJson (signature : Signature) : Json :=
  .object [("keyid", .string signature.keyid), ("sig", .string signature.sig)]

def SignedMeta.toJson (envelope : SignedMeta) : Json :=
  .object [("signed", envelope.signed),
    ("signatures", .array (envelope.signatures.map Signature.toJson))]

def structFields (names : List String) : Json → Option (List Json)
  | .object fields => names.mapM fun name =>
      match fields.filter fun field => field.1 == name with
      | [field] => some field.2
      | _ => none
  | .array items => if items.length = names.length then some items else none
  | _ => none

def asUnsigned (bound : Nat) (document : Json) : Option Nat :=
  (asU64 document).filter (· < bound)

def asU64Value (document : Json) : Option UInt64 := (asUnsigned (2 ^ 64) document).map .ofNat

def asU32Value (document : Json) : Option UInt32 := (asUnsigned (2 ^ 32) document).map .ofNat

def mapFromJson {β : Type} (fromJson : Json → Option β) : Json → Option (SortedMap String β)
  | .object fields => (fields.mapM fun field => (fromJson field.2).map fun value =>
      (field.1, value)).map .ofList
  | _ => none

def KeyVal.fromJson (document : Json) : Option KeyVal := do
  match ← structFields ["public"] document with
  | [text] => some ⟨← text.asStr⟩
  | _ => none

def Key.fromJson (document : Json) : Option Key := do
  match ← structFields ["keytype", "scheme", "keyval"] document with
  | [keytype, scheme, keyval] =>
      some ⟨← keytype.asStr, ← scheme.asStr, ← KeyVal.fromJson keyval⟩
  | _ => none

def Role.fromJson (document : Json) : Option Role := do
  match ← structFields ["keyids", "threshold"] document with
  | [keyids, threshold] => some ⟨← (← keyids.asArray).mapM Json.asStr, ← asU32Value threshold⟩
  | _ => none

def RootMetadata.fromJson (document : Json) : Option RootMetadata := do
  match ← structFields ["spec_version", "version", "expires", "keys", "roles"] document with
  | [specVersion, version, expires, keys, roles] =>
      some ⟨← specVersion.asStr, ← asU64Value version, ← expires.asStr,
        ← mapFromJson Key.fromJson keys, ← mapFromJson Role.fromJson roles⟩
  | _ => none

def TargetEntry.fromJson (document : Json) : Option TargetEntry := do
  match ← structFields ["sha256", "size"] document with
  | [sha256, size] => some ⟨← sha256.asStr, ← asU64Value size⟩
  | _ => none

def TargetsMetadata.fromJson (document : Json) : Option TargetsMetadata := do
  match ← structFields ["version", "expires", "targets"] document with
  | [version, expires, targets] =>
      some ⟨← asU64Value version, ← expires.asStr, ← mapFromJson TargetEntry.fromJson targets⟩
  | _ => none

def Signature.fromJson (document : Json) : Option Signature := do
  match ← structFields ["keyid", "sig"] document with
  | [keyid, sig] => some ⟨← keyid.asStr, ← sig.asStr⟩
  | _ => none

def SignedMeta.fromJson (document : Json) : Option SignedMeta := do
  match ← structFields ["signed", "signatures"] document with
  | [signed, signatures] =>
      some ⟨normalize signed, ← (← signatures.asArray).mapM Signature.fromJson⟩
  | _ => none

/-- `serde_json::from_slice` of an envelope. -/
def SignedMeta.fromSlice (bytes : Bytes) : Option SignedMeta := do
  SignedMeta.fromJson (← readDocument (← Utf8.decode bytes))

end Serde

section RoundTrips

theorem mapM_map {α β : Type} {print : β → α} {read : α → Option β}
    (back : ∀ value, read (print value) = some value) (values : List β) :
    (values.map print).mapM read = some values := by
  induction values with
  | nil => rfl
  | cons value rest ih =>
      rw [List.map_cons, List.mapM_cons, back, ih]
      rfl

theorem mapFromJson_mapToJson {β : Type} {toJson : β → Json} {fromJson : Json → Option β}
    (back : ∀ value, fromJson (toJson value) = some value) (map : SortedMap String β) :
    mapFromJson fromJson (mapToJson toJson map) = some map := by
  have each (entry : String × β) : ((fromJson (toJson entry.2)).map fun value => (entry.1, value))
      = some entry := by rw [back, Option.map_some]
  have all := @mapM_map (String × Json) (String × β) (fun entry => (entry.1, toJson entry.2))
    (fun field => (fromJson field.2).map fun value => (field.1, value)) each map.entries
  show (((map.entries.map fun entry => (entry.1, toJson entry.2)).mapM fun field =>
    (fromJson field.2).map fun value => (field.1, value)).map _) = _
  rw [all, Option.map_some, SortedMap.ofList_entries]

theorem asU64_number (value : Nat) (small : value < 2 ^ 64) :
    asU64 (number value) = some value := by
  rw [number, asU64, if_pos ⟨Int.natCast_nonneg _, by exact_mod_cast small⟩, Int.toNat_natCast]

theorem asU64Value_number (value : UInt64) : asU64Value (number value.toNat) = some value := by
  have small := value.toNat_lt
  rw [asU64Value, asUnsigned, asU64_number _ small]
  simp [Option.filter, small]

theorem asU32Value_number (value : UInt32) : asU32Value (number value.toNat) = some value := by
  have small := value.toNat_lt
  rw [asU32Value, asUnsigned, asU64_number _ (by omega)]
  simp [Option.filter, small]

@[simp] theorem asStr_string (text : String) : Json.asStr (.string text) = some text := rfl

theorem Key.fromJson_toJson (key : Key) : Key.fromJson key.toJson = some key := rfl

section Fields

variable {document a b c d e : Json}

theorem Role.fromJson_eq (fields : structFields ["keyids", "threshold"] document = some [a, b]) :
    Role.fromJson document = a.asArray.bind fun items => (items.mapM Json.asStr).bind fun keyids =>
      (asU32Value b).bind fun threshold => some ⟨keyids, threshold⟩ := by
  rw [Role.fromJson, fields]
  rfl

theorem RootMetadata.fromJson_eq
    (fields : structFields ["spec_version", "version", "expires", "keys", "roles"] document
      = some [a, b, c, d, e]) :
    RootMetadata.fromJson document = a.asStr.bind fun specVersion =>
      (asU64Value b).bind fun version => c.asStr.bind fun expires =>
        (mapFromJson Key.fromJson d).bind fun keys =>
          (mapFromJson Role.fromJson e).bind fun roles =>
            some ⟨specVersion, version, expires, keys, roles⟩ := by
  rw [RootMetadata.fromJson, fields]
  rfl

theorem TargetEntry.fromJson_eq (fields : structFields ["sha256", "size"] document = some [a, b]) :
    TargetEntry.fromJson document = a.asStr.bind fun sha256 => (asU64Value b).bind fun size =>
      some ⟨sha256, size⟩ := by
  rw [TargetEntry.fromJson, fields]
  rfl

theorem TargetsMetadata.fromJson_eq
    (fields : structFields ["version", "expires", "targets"] document = some [a, b, c]) :
    TargetsMetadata.fromJson document = (asU64Value a).bind fun version =>
      b.asStr.bind fun expires => (mapFromJson TargetEntry.fromJson c).bind fun targets =>
        some ⟨version, expires, targets⟩ := by
  rw [TargetsMetadata.fromJson, fields]
  rfl

end Fields

theorem Role.fromJson_toJson (role : Role) : Role.fromJson role.toJson = some role := by
  have fields : structFields ["keyids", "threshold"] role.toJson
      = some [.array (role.keyids.map .string), number role.threshold.toNat] := rfl
  rw [Role.fromJson_eq fields, Json.asArray, Option.bind_some, mapM_map asStr_string,
    Option.bind_some, asU32Value_number, Option.bind_some]

theorem RootMetadata.fromJson_toJson (root : RootMetadata) :
    RootMetadata.fromJson root.toJson = some root := by
  have fields : structFields ["spec_version", "version", "expires", "keys", "roles"] root.toJson
      = some [.string root.specVersion, number root.version.toNat, .string root.expires,
        mapToJson Key.toJson root.keys, mapToJson Role.toJson root.roles] := rfl
  rw [RootMetadata.fromJson_eq fields, asStr_string, asStr_string, asU64Value_number,
    mapFromJson_mapToJson Key.fromJson_toJson, mapFromJson_mapToJson Role.fromJson_toJson]
  rfl

theorem TargetEntry.fromJson_toJson (entry : TargetEntry) :
    TargetEntry.fromJson entry.toJson = some entry := by
  have fields : structFields ["sha256", "size"] entry.toJson
      = some [.string entry.sha256, number entry.size.toNat] := rfl
  rw [TargetEntry.fromJson_eq fields, asStr_string, asU64Value_number]
  rfl

theorem TargetsMetadata.fromJson_toJson (targets : TargetsMetadata) :
    TargetsMetadata.fromJson targets.toJson = some targets := by
  have fields : structFields ["version", "expires", "targets"] targets.toJson
      = some [number targets.version.toNat, .string targets.expires,
        mapToJson TargetEntry.toJson targets.targets] := rfl
  rw [TargetsMetadata.fromJson_eq fields, asStr_string, asU64Value_number,
    mapFromJson_mapToJson TargetEntry.fromJson_toJson]
  rfl

theorem Signature.fromJson_toJson (signature : Signature) :
    Signature.fromJson signature.toJson = some signature := rfl

/-- An object that a signer signs: in order, and with integers only. -/
structure Signable (document : Json) : Prop where
  integral : Integral document
  ordered : Ordered document

variable {fields : List (String × Json)}

theorem signable_object (sorted : (fields.map Prod.fst).Pairwise (· < ·))
    (below : ∀ field ∈ fields, Signable field.2) : Signable (.object fields) :=
  ⟨integral_object.2 fun field member => (below field member).integral,
    ordered_object.2 ⟨List.pairwise_map.1 sorted, fun field member => (below field member).ordered⟩⟩

theorem signable_string (text : String) : Signable (.string text) :=
  ⟨integral_string text, ordered_string text⟩

theorem signable_strings (texts : List String) : Signable (.array (texts.map .string)) := by
  have each : ∀ item ∈ texts.map Json.string, Signable item := by
    intro item member
    obtain ⟨text, -, rfl⟩ := List.mem_map.1 member
    exact signable_string text
  exact ⟨integral_array.2 fun item member => (each item member).integral,
    ordered_array.2 fun item member => (each item member).ordered⟩

theorem signable_number {value : Nat} (small : value < 2 ^ 64) : Signable (number value) := by
  refine ⟨everywhere_of_leaf trivial ⟨rfl, ?_⟩, ordered_number _ _⟩
  rw [isMachineInt, Bool.and_eq_true]
  constructor <;> exact decide_eq_true (by omega)

theorem signable_map {β : Type} {toJson : β → Json} (each : ∀ value, Signable (toJson value))
    (map : SortedMap String β) : Signable (mapToJson toJson map) := by
  refine signable_object (List.pairwise_map.2 (map.mapValues toJson).sorted) fun field member => ?_
  obtain ⟨entry, -, rfl⟩ := List.mem_map.1 member
  exact each entry.2

theorem signable_cons {key : String} {value : Json} (here : Signable value)
    (below : ∀ field ∈ fields, Signable field.2) :
    ∀ field ∈ (key, value) :: fields, Signable field.2 :=
  List.forall_mem_cons.2 ⟨here, below⟩

theorem signable_fields (sorted : (fields.map fun field => field.1.toList).Pairwise (· < ·))
    (below : ∀ field ∈ fields, Signable field.2) : Signable (.object fields) := by
  refine signable_object (List.pairwise_map.2 ?_) below
  exact (List.pairwise_map.1 sorted).imp String.lt_iff_toList_lt.2

theorem Key.signable (key : Key) : Signable key.toJson := by
  have inner : Signable (.object [("public", .string key.keyval.publicKey)]) :=
    signable_fields (List.pairwise_singleton _ _)
      (signable_cons (signable_string _) (List.forall_mem_nil _))
  exact signable_fields (show ["keytype".toList, "keyval".toList, "scheme".toList].Pairwise _
    by decide) (signable_cons (signable_string _) (signable_cons inner
      (signable_cons (signable_string _) (List.forall_mem_nil _))))

theorem Role.signable (role : Role) : Signable role.toJson :=
  signable_fields (show ["keyids".toList, "threshold".toList].Pairwise _ by decide)
    (signable_cons (signable_strings _) (signable_cons
      (signable_number (role.threshold.toNat_lt.trans (by decide))) (List.forall_mem_nil _)))

theorem RootMetadata.signable (root : RootMetadata) : Signable root.toJson :=
  signable_fields (show ["expires".toList, "keys".toList, "roles".toList, "spec_version".toList,
    "version".toList].Pairwise _ by decide)
    (signable_cons (signable_string _) (signable_cons (signable_map Key.signable _)
      (signable_cons (signable_map Role.signable _) (signable_cons (signable_string _)
        (signable_cons (signable_number root.version.toNat_lt) (List.forall_mem_nil _))))))

theorem TargetEntry.signable (entry : TargetEntry) : Signable entry.toJson :=
  signable_fields (show ["sha256".toList, "size".toList].Pairwise _ by decide)
    (signable_cons (signable_string _)
      (signable_cons (signable_number entry.size.toNat_lt) (List.forall_mem_nil _)))

theorem TargetsMetadata.signable (targets : TargetsMetadata) : Signable targets.toJson :=
  signable_fields (show ["expires".toList, "targets".toList, "version".toList].Pairwise _
    by decide)
    (signable_cons (signable_string _) (signable_cons (signable_map TargetEntry.signable _)
      (signable_cons (signable_number targets.version.toNat_lt) (List.forall_mem_nil _))))

theorem SnapshotMetadata.signable (snapshot : SnapshotMetadata) : Signable snapshot.toJson :=
  signable_fields (show ["expires".toList, "targets".toList, "version".toList].Pairwise _
    by decide)
    (signable_cons (signable_string _) (signable_cons snapshot.targets.signable
      (signable_cons (signable_number snapshot.version.toNat_lt) (List.forall_mem_nil _))))

theorem TimestampMetadata.signable (timestamp : TimestampMetadata) : Signable timestamp.toJson :=
  signable_fields (show ["expires".toList, "snapshot".toList, "version".toList].Pairwise _
    by decide)
    (signable_cons (signable_string _) (signable_cons timestamp.snapshot.signable
      (signable_cons (signable_number timestamp.version.toNat_lt) (List.forall_mem_nil _))))

end RoundTrips

/-! ## Keys, signatures and roles -/

section Roles

variable (p : Primitives)

def keyEntryFor (key : p.SigningKey) : Key :=
  ⟨keyType, "ed25519",
    ⟨String.ofList (Base64.encodeStandard (p.asBytes (p.verifyingKey key)))⟩⟩

def keyidFor (verifying : p.VerifyingKey) : String :=
  hexEncode (p.sha256 (Utf8.encode "ed25519:".toList ++ p.asBytes verifying))

def roleNames : List String := ["root", "targets", "snapshot", "timestamp"]

def RootMetadata.new (version : UInt64) (expires : String) (key : p.SigningKey) : RootMetadata :=
  let keyid := keyidFor p (p.verifyingKey key)
  let newRole : Role := ⟨[keyid], 1⟩
  ⟨"1.0.0", version, expires, .ofList [(keyid, keyEntryFor p key)],
    .ofList (roleNames.map fun name => (name, newRole))⟩

def RootMetadata.keyIds (root : RootMetadata) : List String :=
  ((root.roles.find? "root").map Role.keyids).getD []

/-- Serde JSON of the runtime `signed` value: the bytes that the signer signs. -/
def canonicalRuntime (value : Json) : Bytes := Utf8.encode (print p.float value)

def signaturesBy (payload : Bytes) (keys : List (String × p.SigningKey)) : List Signature :=
  keys.map fun entry => ⟨entry.1, hexEncode (p.sign entry.2 payload)⟩

def signObject (signed : Json) (keys : List (String × p.SigningKey)) : Bytes :=
  canonicalRuntime p
    (SignedMeta.toJson ⟨signed, signaturesBy p (canonicalRuntime p signed) keys⟩)

def rawPublicKey (key : Key) : CliResult p.VerifyingKey := do
  refuse (key.keytype ≠ keyType ∨ key.scheme ≠ keyType)
    (s!"unsupported key type/scheme: {key.keytype}/{key.scheme} " ++ "(expected ed25519/ed25519)")
  let bytes ← okOr (Base64.decodeStandard key.keyval.publicKey.toList) "keyval.public base64 decode"
  refuse (bytes.length ≠ 32) "keyval.public must be a 32-byte Ed25519 public key"
  okOr (p.fromBytes bytes) "invalid Ed25519 public key"

def countSigner (root : RootMetadata) (authorized : List String) (payload : Bytes)
    (valid : List String) (entry : Signature) : CliResult (List String) := do
  if entry.keyid ∉ authorized ∨ entry.keyid ∈ valid then return valid
  -- The keys of all authorized ids are there.
  let some key := root.keys.find? entry.keyid | return valid
  let some raw := hexDecode entry.sig | return valid
  if raw.length ≠ 64 then return valid
  let verifying ← rawPublicKey p key
  return if p.verify verifying payload raw then valid ++ [entry.keyid] else valid

def verifyRole (signed : SignedMeta) (root : RootMetadata) (roleName : String) :
    CliResult Unit := do
  let role ← okOr (root.roles.find? roleName) s!"root.json has no {roleName} role"
  let authorized := (SortedMap.ofList (role.keyids.map fun id => (id, ()))).keys
  let threshold := role.threshold.toNat
  refuse (threshold = 0 ∨ authorized.length < threshold)
    (s!"invalid {roleName} threshold {threshold} for {authorized.length} " ++
      "unique authorized keys")
  authorized.forM fun keyid => do
    let key ← okOr (root.keys.find? keyid) s!"{roleName} role references missing key {keyid}"
    discard (rawPublicKey p key)
  let payload := canonicalRuntime p signed.signed
  let valid ← signed.signatures.foldlM (countSigner p root authorized payload) []
  refuse (valid.length < threshold)
    (s!"{roleName} signature verification failed: {valid.length} of {threshold} " ++
      "required unique signatures valid")

end Roles

section Envelopes

variable {p : Primitives} {signed : Json} {keys : List (String × p.SigningKey)}

theorem Signature.signable (signature : Signature) : Signable signature.toJson :=
  signable_fields (show ["keyid".toList, "sig".toList].Pairwise _ by decide)
    (signable_cons (signable_string _) (signable_cons (signable_string _) (List.forall_mem_nil _)))

theorem SignedMeta.integral {envelope : SignedMeta} (signable : Signable envelope.signed) :
    Integral envelope.toJson := by
  have signatures : Integral (.array (envelope.signatures.map Signature.toJson)) := by
    refine integral_array.2 fun item member => ?_
    obtain ⟨signature, -, rfl⟩ := List.mem_map.1 member
    exact signature.signable.integral
  exact integral_object.2 (List.forall_mem_cons.2
    ⟨signable.integral, List.forall_mem_singleton.2 signatures⟩)

theorem SignedMeta.fromJson_eq {document a b : Json}
    (fields : structFields ["signed", "signatures"] document = some [a, b]) :
    SignedMeta.fromJson document = b.asArray.bind fun items =>
      (items.mapM Signature.fromJson).bind fun signatures =>
        some ⟨normalize a, signatures⟩ := by
  rw [SignedMeta.fromJson, fields]
  rfl

theorem fromSlice_signObject (signable : Signable signed) :
    SignedMeta.fromSlice (signObject p signed keys)
      = some ⟨signed, signaturesBy p (canonicalRuntime p signed) keys⟩ := by
  have fields : ∀ signatures, structFields ["signed", "signatures"]
      (SignedMeta.toJson ⟨signed, signatures⟩)
        = some [signed, .array (signatures.map Signature.toJson)] := fun _ => rfl
  rw [SignedMeta.fromSlice, signObject, canonicalRuntime, Utf8.decode_encode]
  have read := @readDocument_print p.float
    (SignedMeta.toJson ⟨signed, signaturesBy p (canonicalRuntime p signed) keys⟩)
    (SignedMeta.integral signable)
  rw [Option.bind_eq_bind, Option.bind_some, read, Option.bind_eq_bind, Option.bind_some,
    SignedMeta.fromJson_eq (fields _), Json.asArray, Option.bind_some,
    mapM_map Signature.fromJson_toJson, Option.bind_some, normalize_of_ordered _ signable.ordered]

end Envelopes

section Authority

variable {p : Primitives} {root : RootMetadata}

def Verifies (p : Primitives) (root : RootMetadata) (payload : Bytes) (entry : Signature) : Prop :=
  ∃ key verifying raw, root.keys.find? entry.keyid = some key
    ∧ rawPublicKey p key = .ok verifying ∧ hexDecode entry.sig = some raw ∧ raw.length = 64
    ∧ p.verify verifying payload raw = true

def Keyed (p : Primitives) (root : RootMetadata) (ids : List String) : Prop :=
  ∀ id ∈ ids, ∃ key, root.keys.find? id = some key
    ∧ ∃ verifying, rawPublicKey p key = .ok verifying

/-- Enough of a role's ids have signed the object, and all of its ids have keys. -/
structure Meets (p : Primitives) (root : RootMetadata) (role : Role) (envelope : SignedMeta) :
    Prop where
  positive : role.threshold.toNat ≠ 0
  keyed : Keyed p root role.keyids
  signed : ∃ signers : List String, signers.Nodup ∧ role.threshold.toNat ≤ signers.length
    ∧ ∀ id ∈ signers, id ∈ role.keyids ∧ ∃ entry ∈ envelope.signatures, entry.keyid = id
      ∧ Verifies p root (canonicalRuntime p envelope.signed) entry

def Authorizes (p : Primitives) (root : RootMetadata) (roleName : String)
    (envelope : SignedMeta) : Prop :=
  ∃ role, root.roles.find? roleName = some role ∧ Meets p root role envelope

section Counting

variable {authorized valid : List String} {payload : Bytes} {entry : Signature}

def isSignature (p : Primitives) (verifying : p.VerifyingKey) (payload : Bytes)
    (entry : Signature) : Bool :=
  (hexDecode entry.sig).any fun raw => raw.length = 64 && p.verify verifying payload raw

theorem verifies_iff {key : Key} {verifying : p.VerifyingKey}
    (found : root.keys.find? entry.keyid = some key)
    (readable : rawPublicKey p key = .ok verifying) :
    Verifies p root payload entry ↔ isSignature p verifying payload entry = true := by
  rw [isSignature, Option.any_eq_true]
  simp only [Bool.and_eq_true, decide_eq_true_eq]
  constructor
  · rintro ⟨key', verifying', raw, found', readable', decoded, length, verified⟩
    obtain rfl := Option.some.inj (found.symm.trans found')
    obtain rfl := Except.ok.inj (readable.symm.trans readable')
    exact ⟨raw, decoded, length, verified⟩
  · rintro ⟨raw, decoded, length, verified⟩
    exact ⟨key, verifying, raw, found, readable, decoded, length, verified⟩

theorem countSigner_eq {key : Key} {verifying : p.VerifyingKey} (listed : entry.keyid ∈ authorized)
    (fresh : entry.keyid ∉ valid) (found : root.keys.find? entry.keyid = some key)
    (readable : rawPublicKey p key = .ok verifying) :
    countSigner p root authorized payload valid entry
      = .ok (if isSignature p verifying payload entry then valid ++ [entry.keyid] else valid) := by
  rw [countSigner, if_neg (not_or.2 ⟨not_not.2 listed, fresh⟩), found, isSignature]
  cases decoded : hexDecode entry.sig with
  | none => rfl
  | some raw =>
      by_cases length : raw.length = 64
      · simp only [Option.any_some, length, decide_true, Bool.true_and]
        rw [if_neg (not_not.2 rfl), readable]
        rfl
      · simp only [Option.any_some, length, decide_false, Bool.false_and]
        rw [if_pos length]
        rfl

theorem countSigner_ok
    (keyed : Keyed p root authorized) (nodup : valid.Nodup) :
    ∃ next, countSigner p root authorized payload valid entry = .ok next ∧ next.Nodup
      ∧ ∀ id, id ∈ next ↔ id ∈ valid
        ∨ id ∈ authorized ∧ entry.keyid = id ∧ Verifies p root payload entry := by
  by_cases out : entry.keyid ∉ authorized ∨ entry.keyid ∈ valid
  · refine ⟨valid, by rw [countSigner, if_pos out]; rfl, nodup, fun id => ⟨.inl, ?_⟩⟩
    rintro (here | ⟨listed, rfl, -⟩)
    · exact here
    · exact out.resolve_left (not_not.2 listed)
  · obtain ⟨listed, fresh⟩ := not_or.1 out
    rw [not_not] at listed
    obtain ⟨key, found, verifying, readable⟩ := keyed _ listed
    refine ⟨_, countSigner_eq listed fresh found readable, ?_⟩
    rw [verifies_iff found readable]
    cases isSignature p verifying payload entry with
    | false => exact ⟨nodup, fun id => by simp⟩
    | true =>
        refine ⟨List.nodup_append.2 ⟨nodup, List.nodup_singleton _, ?_⟩, fun id => ?_⟩
        · rintro _ here _ there rfl
          exact fresh (List.mem_singleton.1 there ▸ here)
        · rw [if_pos rfl, List.mem_append, List.mem_singleton]
          refine or_congr_right ⟨?_, fun both => both.2.1.symm⟩
          rintro rfl
          exact ⟨listed, rfl, rfl⟩

theorem countSigners_ok
    (keyed : Keyed p root authorized) (signatures : List Signature) (nodup : valid.Nodup) :
    ∃ counted, signatures.foldlM (countSigner p root authorized payload) valid = .ok counted
      ∧ counted.Nodup ∧ ∀ id, id ∈ counted ↔ id ∈ valid
        ∨ id ∈ authorized ∧ ∃ entry ∈ signatures, entry.keyid = id
          ∧ Verifies p root payload entry := by
  induction signatures generalizing valid with
  | nil => exact ⟨valid, rfl, nodup, fun id => by simp⟩
  | cons entry rest ih =>
      obtain ⟨next, first, distinct, members⟩ :=
        @countSigner_ok p root authorized valid payload entry keyed nodup
      obtain ⟨counted, others, apart, all⟩ := ih distinct
      refine ⟨counted, ?_, apart, fun id => ?_⟩
      · rw [List.foldlM_cons, first]
        exact others
      · rw [all, members, or_assoc, ← and_or_left]
        simp only [List.mem_cons, exists_eq_or_imp]

end Counting

theorem mem_authorized {role : Role} {id : String} :
    id ∈ (SortedMap.ofList (role.keyids.map fun id => (id, ()))).keys ↔ id ∈ role.keyids := by
  rw [SortedMap.mem_keys_ofList, List.map_map]
  simp

theorem discard_eq_ok {α : Type} {result : CliResult α} :
    discard result = .ok () ↔ ∃ value, result = .ok value := by
  cases result with
  | error failure => exact iff_of_false (fun same => by cases same) (fun ⟨_, same⟩ => by cases same)
  | ok value => exact iff_of_true rfl ⟨value, rfl⟩

theorem verifyRole_eq_ok {envelope : SignedMeta} {roleName : String} :
    verifyRole p envelope root roleName = .ok () ↔ Authorizes p root roleName envelope := by
  rw [verifyRole, bind_eq_ok, Authorizes]
  refine exists_congr fun role => ?_
  rw [okOr_eq_ok]
  refine and_congr_right fun found => ?_
  dsimp only
  rw [then_eq_ok, refuse_eq_ok, then_eq_ok, forM_eq_ok]
  simp only [bind_eq_ok, okOr_eq_ok, discard_eq_ok, mem_authorized, refuse_eq_ok]
  set authorized := (SortedMap.ofList (role.keyids.map fun id => (id, ()))).keys with ids
  have counting (keyed : Keyed p root role.keyids) := @countSigners_ok p root authorized []
    (canonicalRuntime p envelope.signed) (fun id listed => keyed id (mem_authorized.1 listed))
    envelope.signatures List.nodup_nil
  constructor
  · rintro ⟨bounds, keyed, valid, counted, enough⟩
    obtain ⟨signers, same, nodup, members⟩ := counting keyed
    obtain rfl := Except.ok.inj (same.symm.trans counted)
    refine ⟨fun zero => bounds (.inl zero), keyed, signers, nodup, not_lt.1 enough, ?_⟩
    intro id listed
    obtain ⟨authority, signature⟩ := ((members id).1 listed).resolve_left List.not_mem_nil
    exact ⟨mem_authorized.1 authority, signature⟩
  · rintro ⟨positive, keyed, signers, nodup, enough, each⟩
    obtain ⟨valid, counted, -, members⟩ := counting keyed
    have among : signers.length ≤ authorized.length :=
      (List.subperm_of_subset nodup fun id listed =>
        mem_authorized.2 (each id listed).1).length_le
    have found : signers.length ≤ valid.length := (List.subperm_of_subset nodup fun id listed =>
      (members id).2 (.inr ⟨mem_authorized.2 (each id listed).1, (each id listed).2⟩)).length_le
    exact ⟨not_or.2 ⟨positive, not_lt.2 (enough.trans among)⟩, keyed, valid, counted,
      not_lt.2 (enough.trans found)⟩

end Authority

end Forge.TufMetadata
