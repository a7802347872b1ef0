import Forge.Library.Regex
import Forge.Library.Text

/-! The certificate identities with which a published image may be signed. -/

namespace Forge.SignerIdentity

open Forge.Library.Regex
open Forge.Library.Text

def publishImagesWorkflow : List Char := ".github/workflows/publish-images.yml".toList

def cliRebuildWorkflow : List Char := ".github/workflows/watch-cli-versions.yml".toList

def releaseWorkflow : List Char := ".github/workflows/release.yml".toList

def trustedImageWorkflowRef : List Char := "refs/heads/main".toList

def isPublicCliOverlay (image : List Char) : Bool :=
  let leaf := (image.splitOn '/').getLastD image
  let name := leaf.takeWhile fun c => c ≠ '@' && c ≠ ':'
  ["agent-opencode".toList, "agent-codex".toList, "agent-gemini".toList].contains name

def special : List Char :=
  ['\\', '.', '+', '*', '?', '(', ')', '[', ']', '\x7b', '\x7d', '^', '$', '|']

def escapeRegex (value : List Char) : List Char :=
  value.flatMap fun c => if c ∈ special then ['\\', c] else [c]

def workflows (image : List Char) : List (List Char) :=
  if isPublicCliOverlay image then [publishImagesWorkflow, cliRebuildWorkflow, releaseWorkflow]
  else [publishImagesWorkflow, releaseWorkflow]

def cosignIdentityRegexp (repo image : List Char) (gitRef : Option (List Char)) : List Char :=
  let gitRef := gitRef.getD trustedImageWorkflowRef
  "^https://github\\.com/".toList ++ escapeRegex repo ++ "/(".toList
    ++ List.intercalate ['|'] ((workflows image).map escapeRegex) ++ ")@".toList
    ++ escapeRegex gitRef ++ "$".toList

def host : List Char := "https://github.com/".toList

def identity (repo workflow gitRef : List Char) : List Char :=
  host ++ repo ++ '/' :: workflow ++ '@' :: gitRef

section Reading

theorem isPunctuation_of_mem_special {c : Char} (listed : c ∈ special) : isPunctuation c = true := by
  have all : special.all isPunctuation = true := by decide
  exact List.all_eq_true.1 all c listed

theorem isSpecial_of_not_mem_special {c : Char} (unlisted : c ∉ special) : isSpecial c = false := by
  have all : ['\\', '^', '$', '.', '|', '(', ')', '*', '+', '?', '[', '\x7b'].all special.contains =
      true := by decide
  rw [isSpecial, Bool.eq_false_iff, Ne, List.contains_iff_mem]
  exact fun one => unlisted (List.contains_iff_mem.1 (List.all_eq_true.1 all c one))

theorem spells_escapeRegex : Spells escapeRegex := by
  intro reader word rest unescaped
  induction word generalizing reader with
  | nil => rw [escapeRegex, List.flatMap_nil, List.nil_append, List.map_nil, push_nil unescaped]
  | cons c word ih =>
      have pushed : reader.push ((c :: word).map .char) =
          (reader.push [.char c]).push (word.map .char) := by
        rw [push_push, List.map_cons, List.singleton_append]
      rw [pushed, ← ih _ rfl, escapeRegex, List.flatMap_cons, List.append_assoc]
      split
      case isTrue listed => exact read_escaped (isPunctuation_of_mem_special listed) unescaped
      case isFalse unlisted => exact read_plain (isSpecial_of_not_mem_special unlisted) unescaped

def front (repo : List Char) : List Char :=
  host ++ repo ++ ['/']

variable {items : List Pattern} {frame : Frame} {rest : List Char}

theorem read_host : Reader.read ⟨false, [], .new⟩ ("^https://github\\.com/".toList ++ rest) =
    Reader.read ⟨false, [], ⟨[], .start :: host.map .char⟩⟩ rest := by
  rw [read_append]
  rfl

theorem read_enter : Reader.read ⟨false, [], ⟨[], items⟩⟩ ("/(".toList ++ rest) =
    Reader.read ⟨false, [⟨[], items ++ [.char '/']⟩], .new⟩ rest := by
  rw [read_append]
  rfl

theorem read_leave : Reader.read ⟨false, [⟨[], items⟩], frame⟩ (")@".toList ++ rest) =
    Reader.read ⟨false, [], ⟨[], items ++ [frame.close] ++ [.char '@']⟩⟩ rest := by
  rw [read_append]
  rfl

def pattern (repo : List Char) (group : Pattern) (gitRef : List Char) : Pattern :=
  sequence (.start :: ((front repo).map .char ++
    group :: (('@' :: gitRef).map .char ++ [.finish])))

theorem parse_cosignIdentityRegexp (repo image : List Char) (gitRef : Option (List Char)) :
    ∃ words last, words ++ [last] = workflows image
      ∧ parse (cosignIdentityRegexp repo image gitRef) =
        some (pattern repo (choice (words.map literal) (literal last))
          (gitRef.getD trustedImageWorkflowRef)) := by
  obtain ⟨workflow, others, listed⟩ : ∃ workflow others, workflows image = workflow :: others := by
    rw [workflows]
    split
    · exact ⟨_, _, rfl⟩
    · exact ⟨_, _, rfl⟩
  refine ⟨_, _, (List.dropLast_append_getLast (List.cons_ne_nil workflow others)).trans
    listed.symm, ?_⟩
  have inside (outer : List Frame) (rest : List Char) :
      ∃ frame, Reader.read ⟨false, outer, .new⟩
            (List.intercalate ['|'] ((workflow :: others).map escapeRegex) ++ rest) =
          Reader.read ⟨false, outer, frame⟩ rest
        ∧ frame.close = choice ([] ++ ((workflow :: others).dropLast.map literal))
          (literal ((workflow :: others).getLast (List.cons_ne_nil _ _))) :=
    read_branches spells_escapeRegex
  obtain ⟨frame, branches, closed⟩ := inside [⟨[], .start :: (front repo).map .char⟩]
    (")@".toList ++ (escapeRegex (gitRef.getD trustedImageWorkflowRef) ++ "$".toList))
  have spelled : cosignIdentityRegexp repo image gitRef = "^https://github\\.com/".toList ++
      (escapeRegex repo ++ ("/(".toList ++
        (List.intercalate ['|'] ((workflow :: others).map escapeRegex) ++
          (")@".toList ++ (escapeRegex (gitRef.getD trustedImageWorkflowRef) ++ "$".toList))))) := by
    unfold cosignIdentityRegexp
    simp only [listed, List.append_assoc]
  have entered : Reader.read ⟨false, [], .new⟩ (cosignIdentityRegexp repo image gitRef) =
      Reader.read ⟨false, [⟨[], .start :: (front repo).map .char⟩], frame⟩
        (")@".toList ++ (escapeRegex (gitRef.getD trustedImageWorkflowRef) ++ "$".toList)) := by
    have same : Pattern.start :: host.map .char ++ repo.map .char ++ [.char '/'] =
        .start :: (front repo).map .char := by
      simp [front]
    refine (congrArg _ spelled).trans (read_host.trans
      ((spells_escapeRegex _ _ _ rfl).trans (read_enter.trans ?_)))
    rw [same]
    exact branches
  rw [parse, entered, read_leave, spells_escapeRegex _ _ _ rfl, Reader.push, Frame.push]
  refine congrArg some ?_
  rw [pattern, ← List.nil_append (List.map literal _), ← closed]
  simp [Frame.close, Frame.push, choice]

end Reading

section Identities

variable {repo other image workflow gitRef : List Char}

def IsRepository (repo : List Char) : Prop :=
  ∃ owner name, repo = owner ++ '/' :: name ∧ '/' ∉ owner ∧ '@' ∉ owner ∧ '@' ∉ name
    ∧ '/' ∉ name

theorem not_mem_of_mem_workflows (listed : workflow ∈ workflows image) : '@' ∉ workflow := by
  have all : ∀ workflow ∈ [publishImagesWorkflow, cliRebuildWorkflow, releaseWorkflow],
      '@' ∉ workflow := by decide
  have fewer : [publishImagesWorkflow, releaseWorkflow] ⊆
      [publishImagesWorkflow, cliRebuildWorkflow, releaseWorkflow] := by simp
  rw [workflows] at listed
  split at listed
  · exact all workflow listed
  · exact all workflow (fewer listed)

theorem identity_inj {otherWorkflow otherRef : List Char} (named : IsRepository repo)
    (otherNamed : IsRepository other) (plain : '@' ∉ workflow) (otherPlain : '@' ∉ otherWorkflow)
    (same : identity other otherWorkflow otherRef = identity repo workflow gitRef) :
    other = repo ∧ otherWorkflow = workflow ∧ otherRef = gitRef := by
  obtain ⟨owner, name, rfl, ownerFlat, ownerPlain, namePlain, nameFlat⟩ := named
  obtain ⟨owner', name', rfl, ownerFlat', ownerPlain', namePlain', nameFlat'⟩ := otherNamed
  simp only [identity, List.append_assoc, List.cons_append, List.append_cancel_left_eq] at same
  obtain ⟨sameOwner, behindOwner⟩ := append_separator_inj ownerFlat' ownerFlat same
  obtain ⟨sameName, behindName⟩ := append_separator_inj nameFlat' nameFlat behindOwner
  obtain ⟨sameWorkflow, sameRef⟩ := append_separator_inj otherPlain plain behindName
  rw [sameOwner, sameName]
  exact ⟨rfl, sameWorkflow, sameRef⟩

/-- The regular expression is found in the identities of the allowed workflows on the ref, and
in no other text; so an identity of another repository, workflow or ref does not satisfy it. -/
theorem matches_cosignIdentityRegexp (repo image : List Char) (gitRef : Option (List Char)) :
    (∀ text, Matches (cosignIdentityRegexp repo image gitRef) text ↔
        ∃ workflow ∈ workflows image,
          text = identity repo workflow (gitRef.getD trustedImageWorkflowRef)) ∧
      ∀ other workflow ref, IsRepository repo → IsRepository other → '@' ∉ workflow →
        Matches (cosignIdentityRegexp repo image gitRef) (identity other workflow ref) →
        other = repo ∧ workflow ∈ workflows image
          ∧ ref = gitRef.getD trustedImageWorkflowRef := by
  obtain ⟨words, last, listed, parsed⟩ := parse_cosignIdentityRegexp repo image gitRef
  have found (text : List Char) : Matches (cosignIdentityRegexp repo image gitRef) text ↔
      ∃ workflow ∈ workflows image,
        text = identity repo workflow (gitRef.getD trustedImageWorkflowRef) := by
    rw [Matches, parsed]
    simp only [Option.some.injEq, exists_eq_left', pattern, finds_anchored, listed]
    refine exists_congr fun workflow => and_congr_right fun _ => ?_
    rw [front, identity]
    simp
  refine ⟨found, fun other workflow ref named otherNamed plain matched => ?_⟩
  obtain ⟨allowed, member, same⟩ := (found _).1 matched
  obtain ⟨rfl, rfl, rfl⟩ :=
    identity_inj named otherNamed (not_mem_of_mem_workflows member) plain same
  exact ⟨rfl, member, rfl⟩

end Identities

end Forge.SignerIdentity
