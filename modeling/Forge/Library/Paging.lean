import Mathlib.Data.List.Infix
import Mathlib.Data.List.Sort
import Mathlib.Data.List.TakeDrop

/-! Pages that are cut from the end of a list, the next one from what stands before it. -/

namespace Forge.Library.Paging

variable {α : Type}

def startIndex (size count : Nat) : Nat := count - size

def slices (items : List α) : List Nat → List (List α × Bool)
  | [] => []
  | size :: sizes =>
      let start := startIndex size items.length
      (items.drop start, decide (0 < start))
        :: if 0 < start then slices (items.take start) sizes else []

theorem slices_complete {items : List α} {sizes : List Nat} (nonempty : sizes ≠ [])
    (enough : items.length ≤ sizes.length) (positive : ∀ size ∈ sizes, 0 < size) :
    (slices items sizes).reverse.flatMap Prod.fst = items
      ∧ (slices items sizes).getLast?.map Prod.snd = some false := by
  induction sizes generalizing items with
  | nil => exact absurd rfl nonempty
  | cons size sizes ih =>
      have one : 0 < size := positive size (.head _)
      rw [slices]
      by_cases more : 0 < startIndex size items.length
      · have less : startIndex size items.length < items.length := by
          unfold startIndex at more ⊢
          omega
        have short : (items.take (startIndex size items.length)).length ≤ sizes.length := by
          rw [List.length_take, List.length_cons] at *
          omega
        have left : sizes ≠ [] := by
          rintro rfl
          rw [List.length_take, List.length_nil] at short
          omega
        obtain ⟨whole, last⟩ := ih left short fun other member => positive other (.tail _ member)
        rw [if_pos more]
        constructor
        · rw [List.reverse_cons, List.flatMap_append, whole]
          simp [List.take_append_drop]
        · cases rest : slices (items.take (startIndex size items.length)) sizes with
          | nil =>
              rw [rest] at last
              cases last
          | cons head others =>
              rw [rest] at last
              rwa [List.getLast?_cons_cons]
      · rw [if_neg more]
        have zero : startIndex size items.length = 0 := Nat.eq_zero_of_not_pos more
        simp [zero]

theorem filter_before {items : List α} {before : α → α → Bool}
    (ordered : items.Pairwise fun left right => before left right = true)
    (asymm : ∀ left right, before left right = true → before right left = false)
    {index : Nat} {item : α} (there : items[index]? = some item) :
    items.filter (fun other => before other item) = items.take index := by
  induction items generalizing index with
  | nil => simp at there
  | cons head rest ih =>
      obtain ⟨first, others⟩ := List.pairwise_cons.1 ordered
      cases index with
      | zero =>
          obtain rfl : head = item := by simpa using there
          have self : before head head = false := by
            by_contra holds
            rw [Bool.not_eq_false] at holds
            have reverse := asymm head head holds
            rw [holds] at reverse
            cases reverse
          rw [List.filter_cons_of_neg (by simp [self]), List.take_zero, List.filter_eq_nil_iff]
          intro other member
          rw [asymm head other (first other member)]
          decide
      | succ index =>
          have inside : rest[index]? = some item := by simpa using there
          have earlier := first item (List.mem_of_getElem? inside)
          rw [List.filter_cons, if_pos earlier, List.take_succ_cons, ih others inside]

section Sorting

variable {r : α → α → Prop} [DecidableRel r]

theorem filter_orderedInsert [IsTrans α r] {items : List α} (inOrder : items.Pairwise r)
    (p : α → Bool) (item : α) : (items.orderedInsert r item).filter p
      = if p item then (items.filter p).orderedInsert r item else items.filter p := by
  induction items with
  | nil =>
      rw [List.orderedInsert_nil, List.filter_cons]
      rfl
  | cons head rest ih =>
      obtain ⟨first, others⟩ := List.pairwise_cons.1 inOrder
      by_cases here : r item head
      · rw [List.orderedInsert_cons_of_le r rest here, List.filter_cons]
        split
        case isFalse => rfl
        case isTrue =>
            cases kept : (head :: rest).filter p with
            | nil => rfl
            | cons other more =>
                have member : other ∈ head :: rest :=
                  (List.mem_filter.1 (kept ▸ List.mem_cons_self)).1
                refine (List.orderedInsert_cons_of_le r more ?_).symm
                rcases List.mem_cons.1 member with rfl | member
                · exact here
                · exact Trans.trans here (first other member)
      · rw [List.orderedInsert_of_not_le r rest here, List.filter_cons, List.filter_cons, ih others]
        split
        case isFalse => rfl
        case isTrue =>
            split
            · rw [List.orderedInsert_of_not_le r _ here]
            · rfl

theorem filter_insertionSort [IsTrans α r] [Std.Total r] (p : α → Bool) (items : List α) :
    (items.insertionSort r).filter p = (items.filter p).insertionSort r := by
  induction items with
  | nil => rfl
  | cons item rest ih =>
      rw [List.insertionSort_cons, filter_orderedInsert (List.pairwise_insertionSort r rest), ih,
        List.filter_cons]
      split <;> rfl

omit [DecidableRel r] in
theorem filter_append_filter_not {items : List α} {p : α → Bool} (inOrder : items.Pairwise r)
    (before : ∀ left right, r left right → p right = true → p left = true) :
    items.filter p ++ items.filter (fun item => !p item) = items := by
  induction items with
  | nil => rfl
  | cons head rest ih =>
      obtain ⟨first, others⟩ := List.pairwise_cons.1 inOrder
      by_cases kept : p head = true
      · rw [List.filter_cons_of_pos kept, List.filter_cons_of_neg (by simp [kept]),
          List.cons_append, ih others]
      · have none_ : rest.filter p = [] := by
          refine List.filter_eq_nil_iff.2 fun item member keeps => ?_
          exact kept (before head item (first item member) keeps)
        have rest_ := ih others
        rw [none_, List.nil_append] at rest_
        rw [List.filter_cons_of_neg kept, List.filter_cons_of_pos (by simp [kept]), none_,
          List.nil_append, rest_]

end Sorting

end Forge.Library.Paging
