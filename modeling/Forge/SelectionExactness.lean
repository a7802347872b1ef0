import Forge.ContextResolver

/-! What a selection applies and suggests, exactly: when nothing is lost, doubled or overspent. -/

namespace Forge.SelectionExactness

open Forge.ContextResolver
open Forge.Library.Identifier
open Forge.Schema (Timestamp)

section Statements

/-- What a selection has to make of the default items. -/
structure Selects (resolved : ResolvedContext) (selection : ContextSelection)
    (selected : ResolvedContext) : Prop where
  unique : (selected.applied.map fun item => item.id).Nodup
  memories : ∀ item ∈ selected.applied, item ∈ resolved.items ∧ item.kind = .memory
  pinsFirst : ∃ pinned rest, selected.applied = pinned ++ rest
    ∧ (pinned.map fun item => item.id).Sublist selection.pinnedItemIds
    ∧ ∀ item ∈ rest, item.id ∉ selection.pinnedItemIds
  all : (selected.applied ++ selected.suggested).Perm
    (resolved.items.filter fun item => item.id ∉ selection.removedItemIds)
  apart : ∀ item ∈ selected.applied, ∀ other ∈ selected.suggested, item.id ≠ other.id

/-- A pin applies what it names if that are memories only; other default items are applied if the
budget allowed it. -/
def Applies (resolved : ResolvedContext) (selection : ContextSelection) (id : Uuid) : Prop :=
  if id ∈ selection.pinnedItemIds then
    (∃ item ∈ resolved.items, item.id = id)
      ∧ ∀ item ∈ resolved.items, item.id = id → item.kind = .memory
  else ∃ item ∈ resolved.applied, item.id = id

/-- Whatever is applied stands for one default item, a memory, and is pinned once at most. -/
def Clean (resolved : ResolvedContext) (selection : ContextSelection) : Prop :=
  ∀ id ∉ selection.removedItemIds, Applies resolved selection id →
    (∃ item : ResolvedItemRef, item.kind = .memory
      ∧ resolved.items.filter (fun other => other.id = id) = [item])
    ∧ selection.pinnedItemIds.count id ≤ 1

end Statements

section Pins

variable {items : List ResolvedItemRef} {id : Uuid} {item : ResolvedItemRef}

instance : Std.Total fun left right => itemLe left right = true where
  total left right := by
    simp only [itemLe, decide_eq_true_iff]
    cases left.kind <;> cases right.kind <;> simp [ContextItemKind.discriminant] <;> omega

instance : IsTrans ResolvedItemRef fun left right => itemLe left right = true where
  trans left middle right := by
    simp only [itemLe, decide_eq_true_iff]
    cases left.kind <;> cases middle.kind <;> cases right.kind <;>
      simp [ContextItemKind.discriminant] <;> omega

theorem byId_eq_some (found : byId items id = some item) :
    item ∈ items ∧ item.id = id
      ∧ (item.kind = .memory → ∀ other ∈ items, other.id = id → other.kind = .memory) := by
  have member := List.mem_filter.1 (List.mem_of_getLast? found)
  refine ⟨(List.mem_insertionSort _).1 member.1, of_decide_eq_true member.2, ?_⟩
  intro memory other inside same
  have sorted := List.pairwise_insertionSort (fun left right => itemLe left right = true) items
  have ordered := sorted.filter fun item => decide (item.id = id)
  obtain ⟨front, split⟩ := List.getLast?_eq_some_iff.1 found
  have listed : other ∈ front ++ [item] := by
    rw [← split]
    exact List.mem_filter.2 ⟨(List.mem_insertionSort _).2 inside, decide_eq_true same⟩
  rw [split] at ordered
  rcases List.mem_append.1 listed with before | last
  · have less := (List.pairwise_append.1 ordered).2.2 other before item (.head _)
    simp only [itemLe, decide_eq_true_iff, memory, ContextItemKind.discriminant] at less
    rcases less with smaller | equal
    · exact absurd smaller (Nat.not_lt_zero _)
    · exact equal.1
  · rw [List.mem_singleton.1 last]
    exact memory

theorem exists_byId (member : item ∈ items) : ∃ found, byId items item.id = some found := by
  refine Option.ne_none_iff_exists'.1 fun nothing => ?_
  have empty := List.getLast?_eq_none_iff.1 nothing
  have listed := List.filter_eq_nil_iff.1 empty item ((List.mem_insertionSort _).2 member)
  exact listed (decide_eq_true rfl)

variable (resolved : ResolvedContext) (removed : List Uuid)

def pinnable (id : Uuid) : Option ResolvedItemRef :=
  if id ∈ removed then none else (byId resolved.items id).filter fun item => item.kind = .memory

theorem pinItems_eq (pins : List Uuid) :
    (pinItems resolved removed pins).1 = pins.filterMap (pinnable resolved removed) := by
  induction pins with
  | nil => rfl
  | cons id rest ih =>
      rw [pinItems, List.filterMap_cons, ← ih, pinnable]
      obtain ⟨applied, warnings⟩ := pinItems resolved removed rest
      dsimp only
      by_cases gone : id ∈ removed
      · rw [if_pos gone, if_pos gone]
      · rw [if_neg gone, if_neg gone]
        cases byId resolved.items id with
        | none => rfl
        | some item =>
            dsimp only
            by_cases memory : item.kind = .memory
            · have chosen : (some item).filter (fun item => decide (item.kind = .memory)) =
                  some item :=
                Option.filter_eq_some_iff.2 ⟨rfl, decide_eq_true memory⟩
              rw [if_neg fun other => other memory, chosen]
              split
              · rfl
              · rfl
            · rw [if_pos memory, Option.filter_some_neg (by simpa using memory)]

variable {resolved removed}

theorem pinnable_eq_some (pinned : pinnable resolved removed id = some item) :
    id ∉ removed ∧ item ∈ resolved.items ∧ item.id = id ∧ item.kind = .memory
      ∧ ∀ other ∈ resolved.items, other.id = id → other.kind = .memory := by
  rw [pinnable] at pinned
  split at pinned
  case isTrue => exact nomatch pinned
  case isFalse kept =>
      obtain ⟨found, kind⟩ := Option.filter_eq_some_iff.1 pinned
      obtain ⟨inside, same, memories⟩ := byId_eq_some found
      have memory := of_decide_eq_true kind
      exact ⟨kept, inside, same, memory, memories memory⟩

theorem exists_pinnable (kept : id ∉ removed) (offered : ∃ item ∈ resolved.items, item.id = id)
    (memories : ∀ item ∈ resolved.items, item.id = id → item.kind = .memory) :
    ∃ item, pinnable resolved removed id = some item := by
  obtain ⟨item, member, rfl⟩ := offered
  obtain ⟨found, entry⟩ := exists_byId member
  obtain ⟨inside, same, -⟩ := byId_eq_some entry
  refine ⟨found, ?_⟩
  rw [pinnable, if_neg kept, entry]
  exact Option.filter_eq_some_iff.2 ⟨rfl, decide_eq_true (memories found inside same)⟩

end Pins

section Applied

variable {resolved : ResolvedContext} {selection : ContextSelection} {item : ResolvedItemRef}
  {id : Uuid}

abbrev pinnedItems (resolved : ResolvedContext) (selection : ContextSelection) :
    List ResolvedItemRef :=
  selection.pinnedItemIds.filterMap (pinnable resolved selection.removedItemIds)

abbrev keptItems (resolved : ResolvedContext) (selection : ContextSelection) :
    List ResolvedItemRef :=
  resolved.applied.filter fun item =>
    !(decide (item.id ∈ selection.removedItemIds) || decide (item.id ∈ selection.pinnedItemIds))

abbrev selectedOf (resolved : ResolvedContext) (selection : ContextSelection) : ResolvedContext :=
  (applyContextSelection resolved selection).resolved

theorem applied_eq :
    (selectedOf resolved selection).applied
      = pinnedItems resolved selection ++ keptItems resolved selection :=
  congrArg (· ++ _) (pinItems_eq resolved selection.removedItemIds selection.pinnedItemIds)

theorem mem_keptItems : item ∈ keptItems resolved selection ↔
    item ∈ resolved.applied ∧ item.id ∉ selection.removedItemIds
      ∧ item.id ∉ selection.pinnedItemIds := by
  rw [List.mem_filter, Bool.not_eq_true', Bool.or_eq_false_iff, decide_eq_false_iff_not,
    decide_eq_false_iff_not]

theorem mem_suggested : item ∈ (selectedOf resolved selection).suggested ↔
    item ∈ resolved.items
      ∧ item.id ∉ (selectedOf resolved selection).applied.map (fun item => item.id)
      ∧ item.id ∉ selection.removedItemIds := by
  refine List.mem_filter.trans ?_
  rw [Bool.and_eq_true, Bool.not_eq_true', Bool.not_eq_true', decide_eq_false_iff_not,
    decide_eq_false_iff_not, ResolvedContext.items, List.mem_append, List.mem_append, or_comm]
  rfl

theorem ids_pinnedItems :
    ((pinnedItems resolved selection).map fun item => item.id) =
      selection.pinnedItemIds.filter fun id =>
        (pinnable resolved selection.removedItemIds id).isSome := by
  rw [pinnedItems]
  induction selection.pinnedItemIds with
  | nil => rfl
  | cons id rest ih =>
      rw [List.filterMap_cons, List.filter_cons]
      cases pinned : pinnable resolved selection.removedItemIds id with
      | none => exact ih
      | some item =>
          rw [Option.isSome_some, if_pos rfl, List.map_cons, ih, (pinnable_eq_some pinned).2.2.1]

theorem of_mem_applied (member : item ∈ (selectedOf resolved selection).applied) :
    item ∈ resolved.items ∧ item.id ∉ selection.removedItemIds
      ∧ Applies resolved selection item.id := by
  rw [applied_eq] at member
  rcases List.mem_append.1 member with pinned | kept
  · obtain ⟨id, listed, named⟩ := List.mem_filterMap.1 pinned
    obtain ⟨kept, inside, rfl, -, memories⟩ := pinnable_eq_some named
    refine ⟨inside, kept, ?_⟩
    rw [Applies, if_pos listed]
    exact ⟨⟨item, inside, rfl⟩, memories⟩
  · obtain ⟨inside, kept, unpinned⟩ := mem_keptItems.1 kept
    refine ⟨List.mem_append_left _ inside, kept, ?_⟩
    rw [Applies, if_neg unpinned]
    exact ⟨item, inside, rfl⟩

theorem exists_applied (kept : id ∉ selection.removedItemIds)
    (applies : Applies resolved selection id) :
    ∃ item ∈ (selectedOf resolved selection).applied, item.id = id := by
  rw [applied_eq]
  by_cases listed : id ∈ selection.pinnedItemIds
  · rw [Applies, if_pos listed] at applies
    obtain ⟨item, pinned⟩ := exists_pinnable kept applies.1 applies.2
    refine ⟨item, List.mem_append_left _ (List.mem_filterMap.2 ⟨id, listed, pinned⟩), ?_⟩
    exact (pinnable_eq_some pinned).2.2.1
  · rw [Applies, if_neg listed] at applies
    obtain ⟨item, inside, rfl⟩ := applies
    exact ⟨item, List.mem_append_right _ (mem_keptItems.2 ⟨inside, kept, listed⟩), rfl⟩

theorem apart : ∀ item ∈ (selectedOf resolved selection).applied,
    ∀ other ∈ (selectedOf resolved selection).suggested, item.id ≠ other.id := by
  intro item applied other suggested same
  refine (mem_suggested.1 suggested).2.1 ?_
  rw [← same]
  exact List.mem_map_of_mem applied

theorem pinsFirst : ∃ pinned rest, (selectedOf resolved selection).applied = pinned ++ rest
    ∧ (pinned.map fun item => item.id).Sublist selection.pinnedItemIds
    ∧ ∀ item ∈ rest, item.id ∉ selection.pinnedItemIds := by
  refine ⟨_, _, applied_eq, ?_, fun item inside => (mem_keptItems.1 inside).2.2⟩
  rw [ids_pinnedItems]
  exact List.filter_sublist

end Applied

section Exactness

variable {resolved : ResolvedContext} {selection : ContextSelection} {item : ResolvedItemRef}
  {id : Uuid}

theorem single_of_clean (clean : Clean resolved selection)
    (member : item ∈ (selectedOf resolved selection).applied) :
    item.kind = .memory ∧ resolved.items.filter (fun other => other.id = item.id) = [item]
      ∧ selection.pinnedItemIds.count item.id ≤ 1 := by
  obtain ⟨inside, kept, applies⟩ := of_mem_applied member
  obtain ⟨⟨only, memory, copies⟩, once⟩ := clean item.id kept applies
  have listed : item ∈ resolved.items.filter fun other => other.id = item.id :=
    List.mem_filter.2 ⟨inside, decide_eq_true rfl⟩
  rw [copies] at listed
  obtain rfl := List.mem_singleton.1 listed
  exact ⟨memory, copies, once⟩

theorem nodup_ids_of_single {items some_ : List ResolvedItemRef} (within : some_.Sublist items)
    (single : ∀ item ∈ some_, items.filter (fun other => other.id = item.id) = [item]) :
    (some_.map fun item => item.id).Nodup := by
  rw [List.nodup_iff_count_le_one]
  intro id
  by_cases listed : id ∈ some_.map fun item => item.id
  · obtain ⟨item, inside, rfl⟩ := List.mem_map.1 listed
    refine ((within.map fun item => item.id).count_le item.id).trans ?_
    have copies := congrArg List.length (single item inside)
    rw [List.count_eq_countP, List.countP_map, List.countP_eq_length_filter]
    exact copies.le
  · rw [List.count_eq_zero_of_not_mem listed]
    exact Nat.zero_le 1

theorem unique_of_clean (clean : Clean resolved selection) :
    ((selectedOf resolved selection).applied.map fun item => item.id).Nodup := by
  have single := fun item (member : item ∈ (selectedOf resolved selection).applied) =>
    single_of_clean clean member
  rw [applied_eq] at single ⊢
  rw [List.map_append, List.nodup_append]
  refine ⟨?_, ?_, ?_⟩
  · rw [List.nodup_iff_count_le_one]
    intro id
    by_cases listed : id ∈ (pinnedItems resolved selection).map fun item => item.id
    · obtain ⟨item, inside, rfl⟩ := List.mem_map.1 listed
      have once := (single item (List.mem_append_left _ inside)).2.2
      rw [ids_pinnedItems]
      exact (List.filter_sublist.count_le item.id).trans once
    · rw [List.count_eq_zero_of_not_mem listed]
      exact Nat.zero_le 1
  · have within : (keptItems resolved selection).Sublist resolved.items :=
      List.filter_sublist.trans (List.sublist_append_left _ _)
    exact nodup_ids_of_single within fun item inside =>
      (single item (List.mem_append_right _ inside)).2.1
  · rintro first pinned second kept rfl
    obtain ⟨item, inside, rfl⟩ := List.mem_map.1 kept
    rw [ids_pinnedItems] at pinned
    exact (mem_keptItems.1 inside).2.2 (List.mem_filter.1 pinned).1

abbrev offered (resolved : ResolvedContext) (selection : ContextSelection) : List ResolvedItemRef :=
  (resolved.items.filter fun item => item.id ∉ selection.removedItemIds).filter fun item =>
    decide (item.id ∈ (selectedOf resolved selection).applied.map fun item => item.id)

theorem applied_perm (clean : Clean resolved selection) :
    (selectedOf resolved selection).applied.Perm (offered resolved selection) := by
  have single : ∀ item ∈ offered resolved selection,
      item ∈ (selectedOf resolved selection).applied := by
    intro item inside
    obtain ⟨kept, named⟩ := List.mem_filter.1 inside
    obtain ⟨other, applied, same⟩ := List.mem_map.1 (of_decide_eq_true named)
    have listed : item ∈ resolved.items.filter fun item => item.id = other.id :=
      List.mem_filter.2 ⟨(List.mem_filter.1 kept).1, decide_eq_true same.symm⟩
    rw [(single_of_clean clean applied).2.1] at listed
    exact List.mem_singleton.1 listed ▸ applied
  have within : (offered resolved selection).Sublist resolved.items :=
    List.filter_sublist.trans List.filter_sublist
  have distinct := nodup_ids_of_single within fun item inside =>
    (single_of_clean clean (single item inside)).2.1
  refine (List.perm_ext_iff_of_nodup (List.Nodup.of_map _ (unique_of_clean clean))
    (List.Nodup.of_map _ distinct)).2 fun item => ⟨fun applied => ?_, single item⟩
  obtain ⟨inside, kept, -⟩ := of_mem_applied applied
  refine List.mem_filter.2 ⟨List.mem_filter.2 ⟨inside, decide_eq_true kept⟩, decide_eq_true ?_⟩
  exact List.mem_map_of_mem applied

theorem suggested_perm :
    (selectedOf resolved selection).suggested.Perm
      ((resolved.items.filter fun item => item.id ∉ selection.removedItemIds).filter fun item =>
        !decide (item.id ∈ (selectedOf resolved selection).applied.map fun item => item.id)) := by
  rw [List.filter_filter, ResolvedContext.items]
  refine (List.perm_append_comm.filter _).trans (List.Perm.of_eq ?_)
  refine List.filter_congr fun item _ => ?_
  rw [decide_not]
  rfl

theorem selects_of_clean (clean : Clean resolved selection) :
    Selects resolved selection (selectedOf resolved selection) where
  unique := unique_of_clean clean
  memories _ member := ⟨(of_mem_applied member).1, (single_of_clean clean member).1⟩
  pinsFirst := pinsFirst
  all := ((applied_perm clean).append suggested_perm).trans (List.filter_append_perm _ _)
  apart := apart

theorem clean_of_selects (selects : Selects resolved selection (selectedOf resolved selection)) :
    Clean resolved selection := by
  intro id kept applies
  obtain ⟨item, applied, rfl⟩ := exists_applied kept applies
  have counted : ∀ other ∈ (selectedOf resolved selection).applied, other.id = item.id →
      other = item := fun other member same =>
    List.inj_on_of_nodup_map selects.unique member applied same
  refine ⟨⟨item, (selects.memories item applied).2, ?_⟩, ?_⟩
  · have copies := selects.all.filter fun other => decide (other.id = item.id)
    have none_suggested : (selectedOf resolved selection).suggested.filter
        (fun other => decide (other.id = item.id)) = [] :=
      List.filter_eq_nil_iff.2 fun other member same =>
        selects.apart item applied other member (of_decide_eq_true same).symm
    have one_applied : (selectedOf resolved selection).applied.filter
        (fun other => decide (other.id = item.id)) = [item] := by
      have same : ∀ other ∈ (selectedOf resolved selection).applied,
          decide (other.id = item.id) = decide (other = item) := fun other member =>
        decide_eq_decide.2 ⟨counted other member, congrArg ResolvedItemRef.id⟩
      rw [List.filter_congr same, List.filter_eq,
        List.count_eq_one_of_mem (List.Nodup.of_map _ selects.unique) applied, List.replicate_one]
    rw [List.filter_append, none_suggested, one_applied, List.filter_filter] at copies
    have same : (resolved.items.filter fun other =>
        decide (other.id = item.id) && decide (other.id ∉ selection.removedItemIds)) =
        resolved.items.filter fun other => other.id = item.id := by
      refine List.filter_congr fun other _ => ?_
      by_cases equal : other.id = item.id
      · simp [equal, kept]
      · simp [equal]
    rw [← same]
    exact (List.singleton_perm.1 copies).symm
  · by_cases listed : item.id ∈ selection.pinnedItemIds
    · rw [Applies, if_pos listed] at applies
      obtain ⟨named, pinned⟩ := exists_pinnable kept applies.1 applies.2
      have once := List.nodup_iff_count_le_one.1 selects.unique item.id
      rw [applied_eq, List.map_append, List.count_append, ids_pinnedItems,
        List.count_filter (by rw [pinned]; rfl)] at once
      omega
    · rw [List.count_eq_zero_of_not_mem listed]
      exact Nat.zero_le 1

end Exactness

section Budget

variable {Confidence : Type} {memoryWhy : Option Confidence → Option Timestamp → String}
  {maxContextTokens : UInt32} {rows : List (MemoryCandidate Confidence)} {budget : Budget}

def total (items : List ResolvedItemRef) : Nat :=
  (items.map fun item => item.estimatedTokens.toNat).sum

/-- What a budget has to make of the rows. -/
structure Budgets (memoryWhy : Option Confidence → Option Timestamp → String)
    (rows : List (MemoryCandidate Confidence)) (maxContextTokens : UInt32) : Prop where
  order : (applyBudget memoryWhy rows maxContextTokens).applied.Sublist
    (rows.map (memoryItem memoryWhy))
  all : ((applyBudget memoryWhy rows maxContextTokens).applied
    ++ (applyBudget memoryWhy rows maxContextTokens).suggested).Perm
      (rows.map (memoryItem memoryWhy))
  prefixes : ∀ first rest, rows = first ++ rest →
    (applyBudget memoryWhy first maxContextTokens).applied
      <+: (applyBudget memoryWhy rows maxContextTokens).applied
  affordable : total (applyBudget memoryWhy rows maxContextTokens).applied
    ≤ maxContextTokens.toNat

def Bounded (memoryWhy : Option Confidence → Option Timestamp → String)
    (rows : List (MemoryCandidate Confidence)) (maxContextTokens : UInt32) : Prop :=
  maxContextTokens.toNat < 2 ^ 32 - 1 ∨ total (rows.map (memoryItem memoryWhy)) ≤ 2 ^ 32 - 1

theorem total_append (first second : List ResolvedItemRef) :
    total (first ++ second) = total first + total second := by
  rw [total, List.map_append, List.sum_append]
  rfl

theorem toNat_saturatingAdd (left right : UInt32) :
    (saturatingAdd left right).toNat = min (left.toNat + right.toNat) (2 ^ 32 - 1) :=
  UInt32.toNat_ofNat_of_lt' ((Nat.min_le_right _ _).trans_lt (by decide))

theorem spend_cases (row : MemoryCandidate Confidence) :
    (saturatingAdd budget.used (memoryItem memoryWhy row).estimatedTokens ≤ maxContextTokens
      ∧ spend memoryWhy maxContextTokens budget row =
        { budget with
          used := saturatingAdd budget.used (memoryItem memoryWhy row).estimatedTokens
          applied := budget.applied ++ [memoryItem memoryWhy row] })
    ∨ (¬ saturatingAdd budget.used (memoryItem memoryWhy row).estimatedTokens ≤ maxContextTokens
      ∧ spend memoryWhy maxContextTokens budget row =
        { budget with
          truncated := true
          suggested := budget.suggested ++ [memoryItem memoryWhy row] }) := by
  by_cases fits : saturatingAdd budget.used (memoryItem memoryWhy row).estimatedTokens
      ≤ maxContextTokens
  · exact .inl ⟨fits, if_pos fits⟩
  · exact .inr ⟨fits, if_neg fits⟩

theorem fold_adds (rows : List (MemoryCandidate Confidence)) (budget : Budget) :
    ∃ applied suggested,
      (rows.foldl (spend memoryWhy maxContextTokens) budget).applied = budget.applied ++ applied
      ∧ (rows.foldl (spend memoryWhy maxContextTokens) budget).suggested
        = budget.suggested ++ suggested
      ∧ applied.Sublist (rows.map (memoryItem memoryWhy))
      ∧ (applied ++ suggested).Perm (rows.map (memoryItem memoryWhy)) := by
  induction rows generalizing budget with
  | nil => exact ⟨[], [], by simp, by simp, List.nil_sublist _, .nil⟩
  | cons row rest ih =>
      rw [List.foldl_cons, List.map_cons]
      obtain ⟨applied, suggested, taken, left, within, all⟩ :=
        ih (spend memoryWhy maxContextTokens budget row)
      rw [taken, left]
      rcases @spend_cases Confidence memoryWhy maxContextTokens budget row with
        ⟨-, next⟩ | ⟨-, next⟩
      · rw [next]
        exact ⟨memoryItem memoryWhy row :: applied, suggested, by simp, rfl, within.cons_cons _,
          all.cons _⟩
      · rw [next]
        exact ⟨applied, memoryItem memoryWhy row :: suggested, rfl, by simp, within.cons _,
          List.perm_middle.trans (all.cons _)⟩

theorem fold_used (rows : List (MemoryCandidate Confidence)) (budget : Budget)
    (counts : budget.used.toNat = min (total budget.applied) (2 ^ 32 - 1)) :
    (rows.foldl (spend memoryWhy maxContextTokens) budget).used.toNat =
      min (total (rows.foldl (spend memoryWhy maxContextTokens) budget).applied) (2 ^ 32 - 1) := by
  induction rows generalizing budget with
  | nil => exact counts
  | cons row rest ih =>
      refine ih _ ?_
      rcases @spend_cases Confidence memoryWhy maxContextTokens budget row with
        ⟨-, next⟩ | ⟨-, next⟩
      · rw [next, total_append, toNat_saturatingAdd, counts]
        simp only [total, List.map_cons, List.map_nil, List.sum_cons, List.sum_nil]
        omega
      · rw [next]
        exact counts

theorem fold_within (rows : List (MemoryCandidate Confidence)) (budget : Budget)
    (within : budget.used ≤ maxContextTokens) :
    (rows.foldl (spend memoryWhy maxContextTokens) budget).used ≤ maxContextTokens := by
  induction rows generalizing budget with
  | nil => exact within
  | cons row rest ih =>
      refine ih _ ?_
      rcases @spend_cases Confidence memoryWhy maxContextTokens budget row with
        ⟨fits, next⟩ | ⟨-, next⟩
      · rw [next]
        exact fits
      · rw [next]
        exact within

theorem fold_unlimited (unlimited : maxContextTokens.toNat = 2 ^ 32 - 1)
    (rows : List (MemoryCandidate Confidence)) (budget : Budget) :
    (rows.foldl (spend memoryWhy maxContextTokens) budget).applied =
      budget.applied ++ rows.map (memoryItem memoryWhy) := by
  induction rows generalizing budget with
  | nil => exact (List.append_nil _).symm
  | cons row rest ih =>
      rw [List.foldl_cons, ih, List.map_cons]
      rcases @spend_cases Confidence memoryWhy maxContextTokens budget row with
        ⟨-, next⟩ | ⟨full, -⟩
      · rw [next]
        exact List.append_assoc _ _ _
      · refine absurd (UInt32.le_iff_toNat_le.2 ?_) full
        rw [toNat_saturatingAdd, unlimited]
        exact Nat.min_le_right _ _

theorem total_applied_le :
    total (applyBudget memoryWhy rows maxContextTokens).applied
      ≤ total (rows.map (memoryItem memoryWhy)) := by
  obtain ⟨applied, suggested, taken, -, -, all⟩ :=
    @fold_adds Confidence memoryWhy maxContextTokens rows ⟨0, false, [], []⟩
  have same : total (applied ++ suggested) = total (rows.map (memoryItem memoryWhy)) :=
    (all.map _).sum_nat
  rw [applyBudget, taken, List.nil_append, ← same, total_append]
  exact Nat.le_add_right _ _

theorem affordable_iff :
    total (applyBudget memoryWhy rows maxContextTokens).applied ≤ maxContextTokens.toNat ↔
      Bounded memoryWhy rows maxContextTokens := by
  have used := @fold_used Confidence memoryWhy maxContextTokens rows ⟨0, false, [], []⟩ rfl
  have within := UInt32.le_iff_toNat_le.1 (@fold_within Confidence memoryWhy maxContextTokens rows
    ⟨0, false, [], []⟩ (UInt32.le_iff_toNat_le.2 (Nat.zero_le _)))
  have bound := maxContextTokens.toNat_lt
  rw [← applyBudget] at used within
  constructor
  · intro affordable
    by_cases unlimited : maxContextTokens.toNat = 2 ^ 32 - 1
    · have every := @fold_unlimited Confidence memoryWhy maxContextTokens unlimited rows
        ⟨0, false, [], []⟩
      rw [applyBudget, every, List.nil_append] at affordable
      exact .inr (unlimited ▸ affordable)
    · exact .inl (by omega)
  · rintro (limited | small)
    · omega
    · have less := @total_applied_le Confidence memoryWhy maxContextTokens rows
      omega

theorem budgets_iff : Budgets memoryWhy rows maxContextTokens ↔
    Bounded memoryWhy rows maxContextTokens := by
  refine ⟨fun budgets => affordable_iff.1 budgets.affordable, fun bounded => ?_⟩
  obtain ⟨applied, suggested, taken, left, within, all⟩ :=
    @fold_adds Confidence memoryWhy maxContextTokens rows ⟨0, false, [], []⟩
  refine ⟨?_, ?_, fun first rest split => ?_, affordable_iff.2 bounded⟩
  · rw [applyBudget, taken]
    exact within
  · rw [applyBudget, taken, left]
    exact all
  · obtain ⟨more, -, added, -⟩ := @fold_adds Confidence memoryWhy maxContextTokens rest
      (applyBudget memoryWhy first maxContextTokens)
    have later : (applyBudget memoryWhy rows maxContextTokens).applied =
        (applyBudget memoryWhy first maxContextTokens).applied ++ more := by
      rw [split, ← added]
      exact congrArg Budget.applied List.foldl_append
    rw [later]
    exact List.prefix_append _ _

end Budget

section Result

variable {Confidence : Type}

/-- A selection loses and doubles nothing, and the budget is not overspent, exactly if what is
applied stands for one memory that is pinned once at most, and the tokens cannot exceed a word. -/
theorem selection_exact (memoryWhy : Option Confidence → Option Timestamp → String)
    (resolved : ResolvedContext) (selection : ContextSelection)
    (rows : List (MemoryCandidate Confidence)) (maxContextTokens : UInt32) :
    Selects resolved selection (applyContextSelection resolved selection).resolved
        ∧ Budgets memoryWhy rows maxContextTokens ↔
      Clean resolved selection ∧ Bounded memoryWhy rows maxContextTokens :=
  and_congr ⟨clean_of_selects, selects_of_clean⟩ budgets_iff

def oneMemory : ResolvedContext where
  applied := [⟨⟨1⟩, .memory, "title", none, none, none, 1, none, none, "why"⟩]
  suggested := []
  capability := ⟨none, none, .api, 4096, false, false, false, false, false, false⟩
  degradation := []
  envelopeVersion := "v1"

/-- A memory that is pinned twice is applied twice. -/
theorem pinned_twice_applied_twice :
    ¬ ∀ resolved selection,
      Selects resolved selection (applyContextSelection resolved selection).resolved := by
  intro selects
  have unique := (selects oneMemory ⟨[⟨1⟩, ⟨1⟩], []⟩).unique
  exact absurd unique (by decide)

end Result

end Forge.SelectionExactness
