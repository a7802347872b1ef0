import Forge.PresenceSafety
import Mathlib.Data.List.Sort
import Mathlib.Data.String.Basic

/-! What a capability fingerprint tells apart: it keeps the comma-separated parts of the sorted
capabilities, and nothing of where one capability ends. -/

namespace Forge.CapabilityFingerprint

open Forge.Library.Identifier
open Forge.Presence
open Forge.PresenceSafety
open Forge.Schema

/-- The comma-separated parts of the capabilities, in the order of the sorted list. No capability
counts as one empty part. -/
def parts (capabilities : List String) : List (List Char) :=
  if capabilities = [] then [[]]
  else (capabilities.mergeSort fun a b => a ≤ b).flatMap fun capability =>
    capability.toList.splitOn ','

/-- Two lists of capabilities are told apart: by their fingerprints, and by two beats of an agent
that are recorded one after the other. -/
def ToldApart (before after : List String) : Prop :=
  (capabilityFingerprint before = capabilityFingerprint after ↔ before.Perm after) ∧
    ∀ (backend : Backend) (agentId : Uuid) (first second : Redis)
      (setAt noteAt laterSetAt laterNoteAt : Timestamp), first.reached →
      let beaten := (backend.record agentId (capabilityFingerprint before) first setAt noteAt).1
      (beaten.record agentId (capabilityFingerprint after) second laterSetAt laterNoteAt).2 =
        .steadyState → before.Perm after

theorem splitOn_intercalate_flatMap {ls : List (List Char)} (hls : ls ≠ []) :
    (List.intercalate [','] ls).splitOn ',' = ls.flatMap fun l => l.splitOn ',' := by
  induction ls with
  | nil => exact absurd rfl hls
  | cons head tail ih =>
      rcases tail with _ | ⟨next, rest⟩
      · simp
      · have hsplit := List.splitOn_append_cons_self head
          (List.intercalate [','] (next :: rest)) (a := ',')
        rw [ih (List.cons_ne_nil next rest)] at hsplit
        rw [List.intercalate_cons_cons]
        simpa using hsplit

theorem splitOn_fingerprint (capabilities : List String) :
    (capabilityFingerprint capabilities).splitOn ',' = parts capabilities := by
  unfold capabilityFingerprint parts
  split_ifs with hnone
  · subst hnone
    simp
  · have hsorted : (capabilities.mergeSort fun a b => a ≤ b).map String.toList ≠ [] := by
      intro hempty
      have hlength := congrArg List.length hempty
      simp only [List.length_map, List.length_mergeSort, List.length_nil] at hlength
      exact hnone (List.eq_nil_of_length_eq_zero hlength)
    rw [splitOn_intercalate_flatMap hsorted, List.flatMap_map]

theorem fingerprint_eq_iff {before after : List String} :
    capabilityFingerprint before = capabilityFingerprint after ↔
      parts before = parts after := by
  constructor
  · intro heq
    rw [← splitOn_fingerprint, ← splitOn_fingerprint, heq]
  · intro heq
    rw [← splitOn_fingerprint, ← splitOn_fingerprint] at heq
    have hjoined := congrArg (List.intercalate [',']) heq
    rwa [List.intercalate_splitOn, List.intercalate_splitOn] at hjoined

theorem fingerprint_of_perm {before after : List String} (hperm : before.Perm after) :
    capabilityFingerprint before = capabilityFingerprint after := by
  have hsorted : (before.mergeSort fun a b => a ≤ b) = after.mergeSort fun a b => a ≤ b := by
    have hbefore := List.pairwise_mergeSort' (· ≤ ·) before
    have hafter := List.pairwise_mergeSort' (· ≤ ·) after
    have hcommon := (List.mergeSort_perm before fun a b => a ≤ b).trans
      (hperm.trans (List.mergeSort_perm after fun a b => a ≤ b).symm)
    exact hcommon.eq_of_pairwise' hbefore hafter
  unfold capabilityFingerprint
  rw [hsorted]

theorem key_of_steady {backend : Backend} {agentId : Uuid} {fingerprint : List Char}
    {redis : Redis} {setAt noteAt : Timestamp}
    (hsteady : (backend.record agentId fingerprint redis setAt noteAt).2 = .steadyState) :
    ∃ key, backend.keys agentId = some key ∧ key.fingerprint = fingerprint := by
  have henabled := steadyState_enabled hsteady
  unfold Backend.record at hsteady
  simp only [henabled, Bool.not_true, Bool.false_eq_true, if_false] at hsteady
  cases redis with
  | down => exact absurd hsteady nofun
  | failed reached => exact absurd hsteady nofun
  | answered =>
      simp only at hsteady
      split at hsteady
      case isTrue heq =>
          obtain ⟨key, hlive, hfingerprint⟩ := Option.map_eq_some_iff.mp heq
          exact ⟨key, (Option.filter_eq_some_iff.mp hlive).1, hfingerprint⟩
      case isFalse => exact absurd hsteady nofun

theorem fingerprint_of_steady {backend : Backend} {agentId : Uuid} {before after : List Char}
    {first second : Redis} {setAt noteAt laterSetAt laterNoteAt : Timestamp}
    (hreached : first.reached = true)
    (hsteady : ((backend.record agentId before first setAt noteAt).1.record agentId after second
      laterSetAt laterNoteAt).2 = .steadyState) : before = after := by
  have henabled := steadyState_enabled hsteady
  obtain ⟨hkept, -, hkeys⟩ :=
    @record_keeps backend agentId before first setAt noteAt
  rw [hkept] at henabled
  obtain ⟨key, hheld, hfingerprint⟩ := key_of_steady hsteady
  rw [hkeys, henabled, hreached] at hheld
  simp only [Bool.and_self, if_true, Function.update_self, Option.some.injEq] at hheld
  rw [← hfingerprint, ← hheld]

theorem toldApart_of {before after : List String}
    (hperm : capabilityFingerprint before = capabilityFingerprint after → before.Perm after) :
    ToldApart before after := by
  refine ⟨⟨hperm, fingerprint_of_perm⟩, ?_⟩
  intro backend agentId first second setAt noteAt laterSetAt laterNoteAt hreached beaten hsteady
  exact hperm (fingerprint_of_steady hreached hsteady)

/-- The fingerprint tells two lists apart exactly when they differ in more than where their
capabilities end. -/
theorem toldApart_iff (before after : List String) :
    ToldApart before after ↔ before.Perm after ∨ parts before ≠ parts after := by
  constructor
  · rintro ⟨hsame, -⟩
    by_cases hparts : parts before = parts after
    · exact .inl (hsame.mp (fingerprint_eq_iff.mpr hparts))
    · exact .inr hparts
  · intro hcondition
    apply toldApart_of
    intro heq
    rcases hcondition with hperm | hdiffer
    · exact hperm
    · exact absurd (fingerprint_eq_iff.mp heq) hdiffer

/-- One capability with a comma and the two capabilities around it. -/
theorem comma_not_toldApart : ¬ToldApart ["code,vision"] ["code", "vision"] := by
  have hsorted : (["code", "vision"].mergeSort fun a b => a ≤ b) = ["code", "vision"] := by
    apply List.mergeSort_of_pairwise
    decide
  have hfingerprints :
      capabilityFingerprint ["code,vision"] = capabilityFingerprint ["code", "vision"] := by
    unfold capabilityFingerprint
    rw [hsorted, List.mergeSort_singleton]
    decide
  rintro ⟨hsame, -⟩
  have hlength := (hsame.mp hfingerprints).length_eq
  exact absurd hlength (by decide)

end Forge.CapabilityFingerprint
