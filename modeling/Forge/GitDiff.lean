import Forge.Library.KeyedTable
import Forge.Library.Text
import Mathlib.Data.List.Sort

/-! Trees of a git repository, the differences of two trees with rename detection, and the names
that `git diff` prints. -/

namespace Forge.GitDiff

open Forge.Library.KeyedTable
open Forge.Library.Text

structure Path where
  bytes : List UInt8
  nonempty : bytes ≠ []
deriving DecidableEq

def Path.text (path : Path) : List Char :=
  path.bytes.map fun byte => Char.ofNat byte.toNat

inductive FileMode where
  | regular | executable | symlink | gitlink
deriving DecidableEq, Repr

def FileMode.text : FileMode → List Char
  | regular => "100644".toList
  | executable => "100755".toList
  | symlink => "120000".toList
  | gitlink => "160000".toList

structure TreeEntry where
  path : Path
  mode : FileMode
  object : String
deriving DecidableEq

abbrev Tree := Table TreeEntry TreeEntry.path

section Differences

def Tree.at (tree : Tree) (path : Path) : Option TreeEntry :=
  tree.find? fun entry => entry.path == path

variable (base staged : Tree)

def missing : List TreeEntry :=
  base.rows.filter fun entry => (Tree.at staged entry.path).isNone

def changedPaths : List Path :=
  (base.rows.filter fun entry => Tree.at staged entry.path != some entry).map TreeEntry.path
    ++ (missing staged base).map TreeEntry.path

structure Rename where
  old : TreeEntry
  new : TreeEntry
  score : Nat
deriving DecidableEq

structure RenameDetection where
  renames : Tree → Tree → List Rename
  sources : ∀ base staged, ∀ rename ∈ renames base staged, rename.old ∈ missing base staged
  targets : ∀ base staged, ∀ rename ∈ renames base staged, rename.new ∈ missing staged base
  distinct : ∀ base staged, (renames base staged).Pairwise fun one other =>
    one.old ≠ other.old ∧ one.new ≠ other.new

/-- A difference of two trees as `git diff` reports it. -/
inductive Change where
  | added (new : TreeEntry)
  | deleted (old : TreeEntry)
  | modified (old new : TreeEntry)
  | renamed (rename : Rename)
deriving DecidableEq

/-- The path under which `--name-only` lists a change. -/
def Change.name : Change → Path
  | added new => new.path
  | deleted old => old.path
  | modified _ new => new.path
  | renamed rename => rename.new.path

def Change.isDeleted : Change → Bool
  | deleted _ => true
  | _ => false

variable (detection : RenameDetection)

def deletion (old : TreeEntry) : Option Change :=
  if (Tree.at staged old.path).isNone
      && !(detection.renames base staged).any fun rename => rename.old == old
  then some (.deleted old) else none

def addition (new : TreeEntry) : Option Change :=
  match Tree.at base new.path with
  | some old => if old = new then none else some (.modified old new)
  | none =>
      match (detection.renames base staged).find? fun rename => rename.new == new with
      | some rename => some (.renamed rename)
      | none => some (.added new)

def changes : List Change :=
  (base.rows.filterMap (deletion base staged detection)
      ++ staged.rows.filterMap (addition base staged detection)).insertionSort
    fun one other => one.name.bytes ≤ other.name.bytes

variable {base staged detection} {path : Path} {entry : TreeEntry}

theorem at_eq_some {tree : Tree} : tree.at path = some entry ↔ entry ∈ tree ∧ entry.path = path := by
  constructor
  · intro found
    obtain ⟨member, same⟩ := Table.mem_of_find? found
    exact ⟨member, beq_iff_eq.1 same⟩
  · rintro ⟨member, same⟩
    exact Table.find?_key member same

theorem at_eq_none {tree : Tree} : tree.at path = none ↔ ∀ entry ∈ tree, entry.path ≠ path := by
  rw [Tree.at, Table.find?_eq_none]
  simp only [beq_eq_false_iff_ne]

theorem mem_missing : entry ∈ missing base staged ↔ entry ∈ base ∧ staged.at entry.path = none := by
  rw [missing, List.mem_filter, Option.isNone_iff_eq_none, Table.mem_iff]

theorem mem_changedPaths : path ∈ changedPaths base staged ↔ base.at path ≠ staged.at path := by
  simp only [changedPaths, List.mem_append, List.mem_map, List.mem_filter, bne_iff_ne, mem_missing]
  constructor
  · rintro (⟨entry, ⟨member, differs⟩, rfl⟩ | ⟨entry, ⟨member, absent⟩, rfl⟩)
    · rw [at_eq_some.2 ⟨Table.mem_iff.2 member, rfl⟩]
      exact differs.symm
    · rw [absent, at_eq_some.2 ⟨member, rfl⟩]
      nofun
  · intro differs
    cases old : base.at path with
    | some entry =>
        obtain ⟨member, rfl⟩ := at_eq_some.1 old
        exact .inl ⟨entry, ⟨member, fun same => differs (old.trans same.symm)⟩, rfl⟩
    | none =>
        cases new : staged.at path with
        | none => exact absurd (old.trans new.symm) differs
        | some entry =>
            obtain ⟨member, rfl⟩ := at_eq_some.1 new
            exact .inr ⟨entry, ⟨member, old⟩, rfl⟩

theorem nodup_changedPaths (base staged : Tree) : (changedPaths base staged).Nodup := by
  rw [changedPaths, List.nodup_append]
  refine ⟨base.distinct.sublist (List.filter_sublist.map _),
    staged.distinct.sublist (List.filter_sublist.map _), ?_⟩
  rintro _ first _ second rfl
  obtain ⟨old, there, same⟩ := List.mem_map.1 first
  obtain ⟨new, absent, rfl⟩ := List.mem_map.1 second
  exact at_eq_none.1 (mem_missing.1 absent).2 old (List.mem_of_mem_filter there) same

section Changes

theorem mem_changes {change : Change} :
    change ∈ changes base staged detection ↔
      (∃ old ∈ base, deletion base staged detection old = some change)
        ∨ ∃ new ∈ staged, addition base staged detection new = some change := by
  rw [changes, (List.perm_insertionSort _ _).mem_iff, List.mem_append, List.mem_filterMap,
    List.mem_filterMap]
  rfl

theorem deletion_eq_some {old : TreeEntry} {change : Change}
    (deleted : deletion base staged detection old = some change) :
    change = .deleted old ∧ staged.at old.path = none
      ∧ ∀ rename ∈ detection.renames base staged, rename.old ≠ old := by
  rw [deletion] at deleted
  split at deleted
  case isFalse => cases deleted
  case isTrue gone =>
      obtain rfl := Option.some.inj deleted
      simpa using gone

theorem name_of_addition {new : TreeEntry} {change : Change}
    (added : addition base staged detection new = some change) :
    change.name = new.path ∧ change.isDeleted = false ∧ base.at new.path ≠ some new := by
  rw [addition] at added
  split at added
  case h_1 old found =>
      split at added
      case isTrue => cases added
      case isFalse differs =>
          obtain rfl := Option.some.inj added
          exact ⟨rfl, rfl, fun same => differs (Option.some.inj (found.symm.trans same))⟩
  case h_2 absent =>
      rw [absent]
      split at added
      case h_1 rename found =>
          obtain rfl := Option.some.inj added
          have same : rename.new = new := by simpa using List.find?_some found
          exact ⟨congrArg TreeEntry.path same, rfl, nofun⟩
      case h_2 =>
          obtain rfl := Option.some.inj added
          exact ⟨rfl, rfl, nofun⟩

theorem sublist_names {f : TreeEntry → Option Change}
    (names : ∀ entry change, f entry = some change → change.name = entry.path)
    (entries : List TreeEntry) :
    ((entries.filterMap f).map Change.name).Sublist (entries.map TreeEntry.path) := by
  induction entries with
  | nil => exact .slnil
  | cons entry rest ih =>
      cases reported : f entry with
      | none =>
          rw [List.filterMap_cons_none reported]
          exact ih.cons _
      | some change =>
          rw [List.filterMap_cons_some reported, List.map_cons, List.map_cons,
            names entry change reported]
          exact ih.cons_cons _

theorem nodup_names (base staged : Tree) (detection : RenameDetection) :
    ((changes base staged detection).map Change.name).Nodup := by
  rw [changes, ((List.perm_insertionSort _ _).map _).nodup_iff, List.map_append, List.nodup_append]
  refine ⟨base.distinct.sublist (sublist_names ?_ _), staged.distinct.sublist
    (sublist_names (fun _ _ added => (name_of_addition added).1) _), ?_⟩
  · intro old change deleted
    rw [(deletion_eq_some deleted).1]
    rfl
  · rintro _ first _ second rfl
    obtain ⟨change, removed, named⟩ := List.mem_map.1 first
    obtain ⟨other, grown, same⟩ := List.mem_map.1 second
    obtain ⟨old, -, deleted⟩ := List.mem_filterMap.1 removed
    obtain ⟨new, there, added⟩ := List.mem_filterMap.1 grown
    obtain ⟨rfl, gone, -⟩ := deletion_eq_some deleted
    refine at_eq_none.1 gone new there ?_
    rw [← (name_of_addition added).1, same, ← named]
    rfl

theorem name_mem_changedPaths {change : Change} (member : change ∈ changes base staged detection) :
    change.name ∈ changedPaths base staged := by
  rw [mem_changedPaths]
  rcases mem_changes.1 member with ⟨old, there, deleted⟩ | ⟨new, there, added⟩
  · obtain ⟨rfl, gone, -⟩ := deletion_eq_some deleted
    rw [Change.name, gone, at_eq_some.2 ⟨there, rfl⟩]
    nofun
  · obtain ⟨named, -, differs⟩ := name_of_addition added
    rw [named, at_eq_some.2 ⟨there, rfl⟩]
    exact differs

theorem name_ne_source {rename : Rename} (member : rename ∈ detection.renames base staged)
    {change : Change} (listed : change ∈ changes base staged detection) :
    change.name ≠ rename.old.path := by
  obtain ⟨present, gone⟩ := mem_missing.1 (detection.sources base staged rename member)
  intro same
  rcases mem_changes.1 listed with ⟨old, there, deleted⟩ | ⟨new, there, added⟩
  · obtain ⟨rfl, -, others⟩ := deletion_eq_some deleted
    exact others rename member (Table.eq_of_key_eq present there same.symm)
  · exact at_eq_none.1 gone new there ((name_of_addition added).1.symm.trans same)

section Plain

variable (unrenamed : detection.renames base staged = [])
include unrenamed

theorem deletion_of_missing {old : TreeEntry} (gone : staged.at old.path = none) :
    deletion base staged detection old = some (.deleted old) := by
  rw [deletion, unrenamed, gone]
  rfl

theorem mem_names_of_changed (changed : path ∈ changedPaths base staged) :
    path ∈ (changes base staged detection).map Change.name := by
  rw [mem_changedPaths] at changed
  cases new : staged.at path with
  | none =>
      obtain ⟨old, found⟩ := Option.ne_none_iff_exists'.1 (new ▸ changed)
      obtain ⟨there, rfl⟩ := at_eq_some.1 found
      exact List.mem_map.2
        ⟨_, mem_changes.2 (.inl ⟨old, there, deletion_of_missing unrenamed new⟩), rfl⟩
  | some entry =>
      obtain ⟨there, rfl⟩ := at_eq_some.1 new
      have reported : ∃ change, addition base staged detection entry = some change := by
        rw [addition, unrenamed]
        cases old : base.at entry.path with
        | none => exact ⟨_, rfl⟩
        | some old' =>
            refine ⟨_, if_neg ?_⟩
            rintro rfl
            exact changed (old.trans new.symm)
      obtain ⟨change, added⟩ := reported
      exact List.mem_map.2
        ⟨change, mem_changes.2 (.inr ⟨entry, there, added⟩), (name_of_addition added).1⟩

theorem perm_names :
    ((changes base staged detection).map Change.name).Perm (changedPaths base staged) := by
  refine (List.perm_ext_iff_of_nodup (nodup_names _ _ _) (nodup_changedPaths _ _)).2 fun path => ?_
  constructor
  · intro listed
    obtain ⟨change, member, rfl⟩ := List.mem_map.1 listed
    exact name_mem_changedPaths member
  · exact mem_names_of_changed unrenamed

theorem perm_deleted :
    (((changes base staged detection).filter Change.isDeleted).map Change.name).Perm
      ((missing base staged).map TreeEntry.path) := by
  refine (List.perm_ext_iff_of_nodup ((nodup_names _ _ _).sublist (List.filter_sublist.map _))
    (base.distinct.sublist (List.filter_sublist.map _))).2 fun path => ?_
  simp only [List.mem_map]
  constructor
  · rintro ⟨change, listed, rfl⟩
    obtain ⟨member, removed⟩ := List.mem_filter.1 listed
    rcases mem_changes.1 member with ⟨old, there, deleted⟩ | ⟨new, there, added⟩
    · obtain ⟨rfl, gone, -⟩ := deletion_eq_some deleted
      exact ⟨old, mem_missing.2 ⟨there, gone⟩, rfl⟩
    · cases (name_of_addition added).2.1.symm.trans removed
  · rintro ⟨old, absent, rfl⟩
    obtain ⟨there, gone⟩ := mem_missing.1 absent
    refine ⟨.deleted old, List.mem_filter.2 ⟨mem_changes.2 (.inl ⟨old, there, ?_⟩), rfl⟩, rfl⟩
    exact deletion_of_missing unrenamed gone

end Plain

end Changes

end Differences

section Quoting

/-- The bytes that `core.quotePath` (on unless it is switched off) does not print as they are. -/
def needsQuoting (byte : UInt8) : Bool :=
  byte < 0x20 || byte == 0x22 || byte == 0x5c || 0x7f ≤ byte

/-- The escape of a byte in a quoted name. -/
def escape (byte : UInt8) : List Char :=
  match byte.toNat with
  | 7 => ['\\', 'a']
  | 8 => ['\\', 'b']
  | 9 => ['\\', 't']
  | 10 => ['\\', 'n']
  | 11 => ['\\', 'v']
  | 12 => ['\\', 'f']
  | 13 => ['\\', 'r']
  | 34 => ['\\', '"']
  | 92 => ['\\', '\\']
  | number => '\\' :: (digits 8 3 number).map Nat.digitChar

def Path.plain (path : Path) : Bool :=
  !path.bytes.any needsQuoting

def Path.printed (path : Path) : List Char :=
  if path.plain then path.text
  else '"' :: path.bytes.flatMap (fun byte =>
    if needsQuoting byte then escape byte else [Char.ofNat byte.toNat]) ++ ['"']

theorem toNat_char (byte : UInt8) : (Char.ofNat byte.toNat).toNat = byte.toNat := by
  have small := byte.toNat_lt
  have valid : byte.toNat.isValidChar := .inl (by omega)
  rw [Char.ofNat, dif_pos valid]
  rfl

theorem text_injective {one other : Path} (same : one.text = other.text) : one = other := by
  have inj : Function.Injective fun byte : UInt8 => Char.ofNat byte.toNat := by
    intro left right equal
    have values := congrArg Char.toNat equal
    rw [toNat_char, toNat_char] at values
    exact UInt8.toNat_inj.1 values
  have bytes := List.map_injective_iff.2 inj same
  cases one
  cases other
  cases bytes
  rfl

theorem escape_spec (byte : UInt8) :
    2 ≤ (escape byte).length ∧ '\n' ∉ escape byte ∧ '\r' ∉ escape byte := by
  rw [escape]
  split
  case h_10 => exact ⟨by simp, by simp, by simp⟩
  all_goals decide

theorem char_of_plain {byte : UInt8} (plain : needsQuoting byte = false) :
    Char.ofNat byte.toNat ≠ '\n' ∧ Char.ofNat byte.toNat ≠ '\r' := by
  have printable : 0x20 ≤ byte.toNat := by
    simp only [needsQuoting, Bool.or_eq_false_iff, decide_eq_false_iff_not, UInt8.not_lt] at plain
    exact UInt8.le_iff_toNat_le.1 plain.1.1.1
  constructor <;> intro same <;> have value := congrArg Char.toNat same <;>
    rw [toNat_char] at value <;> simp at value <;> omega

theorem needsQuoting_of_plain {path : Path} (plain : path.plain = true) :
    ∀ byte ∈ path.bytes, needsQuoting byte = false := by
  simpa [Path.plain] using plain

theorem printed_clean (path : Path) : '\n' ∉ path.printed ∧ '\r' ∉ path.printed := by
  have shown : ∀ byte, ('\n' ∉ if needsQuoting byte then escape byte else [Char.ofNat byte.toNat])
      ∧ '\r' ∉ if needsQuoting byte then escape byte else [Char.ofNat byte.toNat] := by
    intro byte
    cases quoting : needsQuoting byte with
    | true => exact (escape_spec byte).2
    | false => simpa [eq_comm] using char_of_plain quoting
  rw [Path.printed]
  split
  case isTrue plain =>
      have chars := fun byte member => char_of_plain (needsQuoting_of_plain plain byte member)
      constructor
      · simpa [Path.text] using fun byte member => (chars byte member).1
      · simpa [Path.text] using fun byte member => (chars byte member).2
  case isFalse =>
      constructor
      · simpa using fun byte _ => (shown byte).1
      · simpa using fun byte _ => (shown byte).2

theorem printed_ne_nil (path : Path) : path.printed ≠ [] := by
  rw [Path.printed]
  split
  · simpa [Path.text] using path.nonempty
  · exact List.cons_ne_nil _ _

theorem printed_of_plain {path : Path} (plain : path.plain = true) : path.printed = path.text :=
  if_pos plain

theorem length_lt_printed {path : Path} (quoted : path.plain = false) :
    path.text.length < path.printed.length := by
  have each : ∀ bytes : List UInt8, bytes.length ≤ (bytes.flatMap fun byte =>
      if needsQuoting byte then escape byte else [Char.ofNat byte.toNat]).length := by
    intro bytes
    induction bytes with
    | nil => exact Nat.zero_le _
    | cons byte rest ih =>
        have here : 1 ≤
            (if needsQuoting byte then escape byte else [Char.ofNat byte.toNat]).length := by
          split
          · have long := (escape_spec byte).1
            omega
          · exact Nat.le_refl 1
        rw [List.flatMap_cons, List.length_append, List.length_cons]
        omega
  have inner := each path.bytes
  rw [Path.printed, if_neg (by simp [quoted]), Path.text, List.length_map, List.length_append,
    List.length_cons]
  omega

def nameOnly (changes : List Change) : List Char :=
  changes.flatMap fun change => change.name.printed ++ ['\n']

def zeros : List Char :=
  "0000000".toList

/-- A line of `--raw`: the modes, the objects, the status, and the names. -/
def rawLine (oldMode newMode oldObject newObject status names : List Char) : List Char :=
  ':' :: oldMode ++ ' ' :: newMode ++ ' ' :: oldObject ++ ' ' :: newObject ++ ' ' :: status
    ++ '\t' :: names

def FileMode.isFile : FileMode → Bool
  | regular => true
  | executable => true
  | _ => false

def Change.raw : Change → List Char
  | added new => rawLine "000000".toList new.mode.text zeros new.object.toList ['A'] new.path.printed
  | deleted old =>
      rawLine old.mode.text "000000".toList old.object.toList zeros ['D'] old.path.printed
  | modified old new =>
      let sameKind := old.mode == new.mode || old.mode.isFile && new.mode.isFile
      rawLine old.mode.text new.mode.text old.object.toList new.object.toList
        [if sameKind then 'M' else 'T'] new.path.printed
  | renamed rename =>
      rawLine rename.old.mode.text rename.new.mode.text rename.old.object.toList
        rename.new.object.toList ('R' :: (digits 10 3 rename.score).map Nat.digitChar)
        (rename.old.path.printed ++ '\t' :: rename.new.path.printed)

def rawLines (changes : List Change) : List Char :=
  changes.flatMap fun change => change.raw ++ ['\n']

end Quoting

end Forge.GitDiff
