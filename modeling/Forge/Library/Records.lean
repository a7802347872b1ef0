import Mathlib.Algebra.Order.Group.Int
import Mathlib.Data.List.Basic

/-! The records of a stream of numbered items: those whose number is above every earlier one. A
machine with a cursor that ignores late items goes through the records only. -/

namespace Forge.Library.Records

variable {α σ : Type}

def records (number : α → Int) : Int → List α → List α
  | _, [] => []
  | top, item :: rest =>
      if top < number item then item :: records number (number item) rest
      else records number top rest

def highest (number : α → Int) (top : Int) (items : List α) : Int :=
  items.foldl (fun top item => max top (number item)) top

theorem highest_le_iff {number : α → Int} {items : List α} {top bound : Int} :
    highest number top items ≤ bound ↔ top ≤ bound ∧ ∀ item ∈ items, number item ≤ bound := by
  induction items generalizing top with
  | nil => simp [highest]
  | cons item rest ih =>
      rw [highest, List.foldl_cons]
      change highest number _ rest ≤ bound ↔ _
      rw [ih, max_le_iff, List.forall_mem_cons, and_assoc]

theorem highest_eq_of_numbers {number : α → Int} {left right : List α} (top : Int)
    (same : ∀ n, n ∈ left.map number ↔ n ∈ right.map number) :
    highest number top left = highest number top right := by
  have bounds : ∀ bound, highest number top left ≤ bound ↔ highest number top right ≤ bound := by
    intro bound
    have all : ∀ items : List α, (∀ item ∈ items, number item ≤ bound)
        ↔ ∀ n ∈ items.map number, n ≤ bound := fun items => by simp
    rw [highest_le_iff, highest_le_iff, all, all]
    simp only [same]
  exact le_antisymm ((bounds _).2 le_rfl) ((bounds _).1 le_rfl)

theorem lt_of_mem_records {number : α → Int} {items : List α} {top : Int} {item : α}
    (member : item ∈ records number top items) : top < number item := by
  induction items generalizing top with
  | nil => cases member
  | cons head rest ih =>
      rw [records] at member
      split at member
      case isTrue above =>
          rcases List.mem_cons.1 member with rfl | later
          · exact above
          · exact above.trans (ih later)
      case isFalse => exact ih member

theorem pairwise_records (number : α → Int) (top : Int) (items : List α) :
    (records number top items).Pairwise fun a b => number a < number b := by
  induction items generalizing top with
  | nil => exact List.Pairwise.nil
  | cons head rest ih =>
      rw [records]
      split
      · exact List.pairwise_cons.2 ⟨fun item later => lt_of_mem_records later, ih _⟩
      · exact ih top

theorem mem_records_iff {number : α → Int} {items : List α} {top : Int} {item : α} :
    item ∈ records number top items ↔ ∃ before after, items = before ++ item :: after
      ∧ top < number item ∧ ∀ earlier ∈ before, number earlier < number item := by
  induction items generalizing top with
  | nil => simp [records]
  | cons head rest ih =>
      rw [records]
      split
      case isTrue above =>
          rw [List.mem_cons, ih]
          constructor
          · rintro (rfl | ⟨before, after, rfl, higher, all⟩)
            · exact ⟨[], rest, rfl, above, by simp⟩
            · refine ⟨head :: before, after, rfl, above.trans higher, ?_⟩
              exact List.forall_mem_cons.2 ⟨higher, all⟩
          · rintro ⟨before, after, split, higher, all⟩
            cases before with
            | nil =>
                cases split
                exact .inl rfl
            | cons first before =>
                cases split
                exact .inr ⟨before, after, rfl, all _ List.mem_cons_self,
                  fun earlier member => all earlier (List.mem_cons_of_mem _ member)⟩
      case isFalse below =>
          rw [ih]
          constructor
          · rintro ⟨before, after, rfl, higher, all⟩
            exact ⟨head :: before, after, rfl, higher,
              List.forall_mem_cons.2 ⟨by omega, all⟩⟩
          · rintro ⟨before, after, split, higher, all⟩
            cases before with
            | nil =>
                cases split
                exact absurd higher below
            | cons first before =>
                cases split
                exact ⟨before, after, rfl, higher,
                  fun earlier member => all earlier (List.mem_cons_of_mem _ member)⟩

theorem eq_records {number : α → Int} {items ordered : List α} {top : Int}
    (sorted : ordered.Pairwise fun a b => number a < number b)
    (same : ∀ item, item ∈ ordered ↔ item ∈ records number top items) :
    ordered = records number top items := by
  have nodup : ∀ {list : List α}, list.Pairwise (fun a b => number a < number b) → list.Nodup := by
    intro list increasing
    refine increasing.imp ?_
    rintro a _ below rfl
    omega
  have perm := (List.perm_ext_iff_of_nodup (nodup sorted)
    (nodup (pairwise_records number top items))).2 same
  refine perm.eq_of_pairwise ?_ sorted (pairwise_records number top items)
  intro a b _ _ below above
  omega

section Cursor

variable {number : α → Int} {cursor : σ → Int} {step : σ → α → σ}

/-- A step that ignores items up to its cursor, and moves the cursor to any item above. -/
structure Follows (number : α → Int) (cursor : σ → Int) (step : σ → α → σ) : Prop where
  late : ∀ state item, number item ≤ cursor state → step state item = state
  moves : ∀ state item, cursor state < number item → cursor (step state item) = number item

theorem Follows.foldl_records (follows : Follows number cursor step) (state : σ)
    (items : List α) :
    items.foldl step state = (records number (cursor state) items).foldl step state := by
  induction items generalizing state with
  | nil => rfl
  | cons item rest ih =>
      rw [records, List.foldl_cons, ih]
      split
      case isTrue above => rw [List.foldl_cons, follows.moves state item above]
      case isFalse below => rw [follows.late state item (by omega)]

theorem Follows.cursor_foldl (follows : Follows number cursor step) (state : σ)
    (items : List α) :
    cursor (items.foldl step state) = highest number (cursor state) items := by
  induction items generalizing state with
  | nil => rfl
  | cons item rest ih =>
      rw [List.foldl_cons, ih, highest, highest, List.foldl_cons]
      congr 1
      rcases lt_or_ge (cursor state) (number item) with above | below
      · rw [follows.moves state item above, max_eq_right above.le]
      · rw [follows.late state item below, max_eq_left below]

end Cursor

end Forge.Library.Records
