import Forge.Library.Fallible
import Forge.SelfFixRebuild

/-! What the rebuild takes for the change of a commit, beside the paths at which the trees
differ. -/

namespace Forge.ChangeExactness

open Forge.GitDiff
open Forge.Library.Fallible
open Forge.Library.Text
open Forge.SelfFixDomain
open Forge.SelfFixRebuild

section Exactness

variable (detection : RenameDetection) (base staged : Tree)

/-- The names, the counts and the review status of a change are those of the real change. -/
structure SeesChange : Prop where
  names : ∀ name, name ∈ changedFiles detection base staged ↔
    ∃ path ∈ changedPaths base staged, path.text = name
  changed : (changedFiles detection base staged).length = (changedPaths base staged).length
  deleted : deletions detection base staged = (missing base staged).length
  status : reviewStatus (changedFiles detection base staged) =
    reviewStatus ((changedPaths base staged).map Path.text)

def Undisguised : Prop :=
  (∀ path ∈ changedPaths base staged, path.plain = true)
  ∧ detection.renames base staged = []

variable {detection base staged}

theorem listed_nameOnly (changes : List Change) :
    listed (nameOnly changes) = changes.map fun change => change.name.printed := by
  have lines : lines (nameOnly changes) = changes.map fun change => change.name.printed := by
    have clean : ∀ piece ∈ changes.map fun change : Change => change.name.printed,
        '\n' ∉ piece ∧ '\r' ∉ piece := by
      simpa using fun (change : Change) _ => printed_clean change.name
    have pieces := lines_terminated clean
    rw [List.flatMap_map] at pieces
    exact pieces
  rw [listed, lines, List.filter_eq_self]
  simpa using fun (change : Change) _ => printed_ne_nil change.name

theorem changedFiles_eq (detection : RenameDetection) (base staged : Tree) :
    changedFiles detection base staged =
      ((changes base staged detection).map Change.name).map Path.printed := by
  rw [changedFiles, listed_nameOnly, List.map_map]
  rfl

theorem deletions_eq (detection : RenameDetection) (base staged : Tree) :
    deletions detection base staged =
      (((changes base staged detection).filter Change.isDeleted).map Change.name).length := by
  rw [deletions, listed_nameOnly, List.length_map, List.length_map]

theorem plain_of_names
    (names : ∀ path ∈ changedPaths base staged, path.text ∈ changedFiles detection base staged) :
    ∀ path ∈ changedPaths base staged, path.plain = true := by
  have shorter : ∀ length, ∀ path ∈ changedPaths base staged, path.text.length = length →
      path.plain = true := by
    intro length
    induction length using Nat.strongRecOn with
    | ind length ih =>
        rintro path changed rfl
        have listed := names path changed
        rw [changedFiles_eq, List.map_map, List.mem_map] at listed
        obtain ⟨change, member, same⟩ := listed
        have source := name_mem_changedPaths member
        cases plain : change.name.plain with
        | true =>
            rw [Function.comp_apply, printed_of_plain plain] at same
            rw [← text_injective same]
            exact plain
        | false =>
            have longer := length_lt_printed plain
            rw [show change.name.printed = path.text from same] at longer
            cases plain.symm.trans (ih _ longer _ source rfl)
  exact fun path changed => shorter _ path changed rfl

theorem undisguised_of_names
    (names : ∀ path ∈ changedPaths base staged, path.text ∈ changedFiles detection base staged) :
    Undisguised detection base staged := by
  have plain := plain_of_names names
  refine ⟨plain, List.eq_nil_iff_forall_not_mem.2 fun rename found => ?_⟩
  obtain ⟨present, gone⟩ := mem_missing.1 (detection.sources base staged rename found)
  have changed : rename.old.path ∈ changedPaths base staged := by
    rw [mem_changedPaths, gone, at_eq_some.2 ⟨present, rfl⟩]
    nofun
  have listed := names _ changed
  rw [changedFiles_eq, List.map_map, List.mem_map] at listed
  obtain ⟨change, member, same⟩ := listed
  rw [Function.comp_apply, printed_of_plain (plain _ (name_mem_changedPaths member))] at same
  exact name_ne_source found member (text_injective same)

theorem perm_changedFiles (undisguised : Undisguised detection base staged) :
    (changedFiles detection base staged).Perm ((changedPaths base staged).map Path.text) := by
  obtain ⟨plain, unrenamed⟩ := undisguised
  have texts : (changedPaths base staged).map Path.printed =
      (changedPaths base staged).map Path.text :=
    List.map_congr_left fun path changed => printed_of_plain (plain path changed)
  rw [changedFiles_eq, ← texts]
  exact (perm_names unrenamed).map _

theorem touchesSensitive_perm {one other : List (List Char)} (perm : one.Perm other) :
    SensitivePathPolicy.touchesSensitive one = SensitivePathPolicy.touchesSensitive other := by
  rw [SensitivePathPolicy.touchesSensitive, SensitivePathPolicy.touchesSensitive,
    Bool.eq_iff_iff, List.any_eq_true, List.any_eq_true]
  exact exists_congr fun name => and_congr_left fun _ => perm.mem_iff

end Exactness

namespace Sample

def path (text : String) (nonempty : text.toList ≠ []) : Path where
  bytes := text.toList.map fun c => UInt8.ofNat c.toNat
  nonempty := by simpa using nonempty

/-- Files that are found unchanged under another path are renamed. -/
def sameObject : RenameDetection where
  renames base staged :=
    ((missing base staged).flatMap fun old =>
      ((missing staged base).filter fun new => new.object = old.object).map
        fun new => ⟨old, new, 100⟩).pwFilter fun one other =>
          one.old ≠ other.old ∧ one.new ≠ other.new
  sources base staged rename found := by
    obtain ⟨old, member, paired⟩ := List.mem_flatMap.1 (List.pwFilter_subset _ found)
    obtain ⟨new, -, rfl⟩ := List.mem_map.1 paired
    exact member
  targets base staged rename found := by
    obtain ⟨old, -, paired⟩ := List.mem_flatMap.1 (List.pwFilter_subset _ found)
    obtain ⟨new, there, rfl⟩ := List.mem_map.1 paired
    exact List.mem_of_mem_filter there
  distinct base staged := List.pairwise_pwFilter _

def secret : TreeEntry :=
  ⟨path "rust/crates/auth/token.rs" (by decide), .regular, "1"⟩

def base : Tree :=
  ⟨[secret], by decide⟩

def moved : Tree :=
  ⟨[⟨path "docs/token.rs" (by decide), .regular, "1"⟩], by decide⟩

def named : Tree :=
  ⟨[secret, ⟨path "rust/crates/auth/ä.rs" (by decide), .regular, "2"⟩], by decide⟩

end Sample

end Forge.ChangeExactness
