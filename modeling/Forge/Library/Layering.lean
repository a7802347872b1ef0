import Mathlib.Data.Finite.Defs
import Mathlib.Data.Set.Finite.Basic
import Mathlib.Logic.Relation
import Mathlib.Order.Bounds.Basic
import Mathlib.Order.WellFounded

/-! Layers of a relation: what is below a member of a layer is in an earlier one. -/

namespace Forge.Library.Layering

open Relation

variable {α : Type} {below : α → α → Prop}

theorem exists_minimal (acyclic : ∀ item, ¬ TransGen below item item) {items : List α}
    (nonempty : items ≠ []) : ∃ item ∈ items, ∀ other ∈ items, ¬ below other item := by
  let Item := { item // item ∈ items }
  let lower (first second : Item) : Prop := TransGen below first.1 second.1
  have transitive : IsTrans Item lower := ⟨fun _ _ _ => TransGen.trans⟩
  have irreflexive : Std.Irrefl lower := ⟨fun item => acyclic item.1⟩
  have finite : Finite Item := (List.finite_toSet items).to_subtype
  have wellFounded : WellFounded lower := Finite.wellFounded_of_trans_of_irrefl lower
  obtain ⟨first, member⟩ := List.exists_mem_of_ne_nil items nonempty
  obtain ⟨item, _, least⟩ := wellFounded.has_min Set.univ ⟨⟨first, member⟩, trivial⟩
  exact ⟨item.1, item.2, fun other there lies => least ⟨other, there⟩ trivial (.single lies)⟩

def At (layers : List (List α)) (k : Nat) (item : α) : Prop :=
  ∃ layer, layers[k]? = some layer ∧ item ∈ layer

/-- A chain of so many items, each below the next, under the item. -/
inductive Chain (known : α → Prop) (below : α → α → Prop) : Nat → α → Prop
  | start (item : α) (member : known item) : Chain known below 0 item
  | next (length : Nat) (lower item : α) (chain : Chain known below length lower)
      (lies : below lower item) : Chain known below (length + 1) item

/-- What is below an item is earlier, and an item is as early as it can be. -/
structure Layered (below : α → α → Prop) (layers : List (List α)) : Prop where
  earlier : ∀ k item, At layers k item → ∀ lower, below lower item → ∃ j < k, At layers j lower
  tight : ∀ k item, At layers (k + 1) item → ∃ lower, below lower item ∧ At layers k lower

section Layered

variable {layers : List (List α)} (layered : Layered below layers)
include layered

theorem Layered.earlier_trans {k : Nat} {lower item : α} (lies : TransGen below lower item)
    (at_ : At layers k item) : ∃ j < k, At layers j lower := by
  induction lies generalizing k with
  | single lies => exact layered.earlier k _ at_ _ lies
  | tail _ lies ih =>
      obtain ⟨j, before, there⟩ := layered.earlier k _ at_ _ lies
      obtain ⟨i, earlier, here⟩ := ih there
      exact ⟨i, earlier.trans before, here⟩

theorem Layered.acyclic (covered : ∀ lower item, below lower item → ∃ k, At layers k item)
    (item : α) : ¬ TransGen below item item := by
  have never (k : Nat) (cycle : TransGen below item item) : ¬ At layers k item := by
    induction k using Nat.strong_induction_on with
    | _ k ih =>
        intro at_
        obtain ⟨j, before, there⟩ := layered.earlier_trans cycle at_
        exact ih j before there
  intro cycle
  obtain ⟨lower, _, lies⟩ := TransGen.tail'_iff.mp cycle
  obtain ⟨k, at_⟩ := covered lower item lies
  exact never k cycle at_

theorem Layered.chain_le {known : α → Prop} {length k : Nat} {item : α}
    (chain : Chain known below length item) (at_ : At layers k item) : length ≤ k := by
  induction chain generalizing k with
  | start => exact Nat.zero_le k
  | next length lower item chain lies ih =>
      obtain ⟨j, before, there⟩ := layered.earlier k item at_ lower lies
      have := ih there
      omega

theorem Layered.chain {known : α → Prop} (covers : ∀ k item, At layers k item → known item)
    {k : Nat} {item : α} (at_ : At layers k item) : Chain known below k item := by
  induction k generalizing item with
  | zero => exact .start item (covers 0 item at_)
  | succ k ih =>
      obtain ⟨lower, lies, there⟩ := layered.tight k item at_
      exact .next k lower item (ih there) lies

theorem Layered.longest {known : α → Prop} (covers : ∀ k item, At layers k item → known item)
    {k : Nat} {item : α} (at_ : At layers k item) :
    IsGreatest { length : Nat | Chain known below length item } k :=
  ⟨layered.chain covers at_, fun _ chain => layered.chain_le chain at_⟩

end Layered

end Forge.Library.Layering
