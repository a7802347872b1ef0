import Forge.Library.UnixPath
import Mathlib.Data.List.DropRight

/-! Tails of paths: what a tail adds to the path it is joined to, and what is left of a path behind
its first components. -/

namespace Forge.Library.PathTail

open Forge.Library.UnixPath

section Joining

variable {path tail : List Char}

def tailComponents (tail : List Char) : List Component :=
  (tail.splitOn '/').filterMap component

theorem components_eq (path : List Char) : components path = leading path ++ tailComponents path :=
  rfl

theorem components_join_tail (relative : isAbsolute tail = false) (full : path ≠ []) :
    components (join path tail) = components path ++ tailComponents tail := by
  rw [join, relative, if_neg Bool.false_ne_true]
  obtain ⟨c, rest, rfl⟩ := List.exists_cons_of_ne_nil full
  split
  case isTrue ended =>
      have nothing : (List.splitOn '/' []).filterMap component = [] := rfl
      obtain ⟨front, split⟩ := List.getLast?_eq_some_iff.1 (ended.resolve_left full)
      rw [split, List.append_assoc, List.singleton_append, components, components,
        leading_separator front tail [], List.splitOn_append_cons_self,
        List.splitOn_append_cons_self, List.filterMap_append, List.filterMap_append, nothing,
        List.append_nil, List.append_assoc, tailComponents]
  case isFalse =>
      rw [components, components, leading_cons, List.splitOn_append_cons_self,
        List.filterMap_append, List.append_assoc, tailComponents]

theorem lexical_join_tail (relative : isAbsolute tail = false) (full : path ≠ []) :
    lexical (join path tail) = (tailComponents tail).foldl resolveStep (lexical path) := by
  rw [lexical, components_join_tail relative full, List.foldl_append, lexical]

theorem foldl_resolveStep_names (names : List (List Char)) (tail : List (List Char)) :
    (tail.map Component.normal).foldl resolveStep names = names ++ tail := by
  induction tail generalizing names with
  | nil => exact (List.append_nil names).symm
  | cons name rest ih =>
      rw [List.map_cons, List.foldl_cons, ih, resolveStep, List.append_assoc, List.singleton_append]

theorem component_cases {piece : List Char} {one : Component} (read : component piece = some one) :
    one = .parentDir ∨ one = .normal piece := by
  unfold component at read
  split at read
  · exact nomatch read
  · split at read
    · exact .inl (Option.some.inj read).symm
    · exact .inr (Option.some.inj read).symm

theorem names_of_tail (plain : .parentDir ∉ tailComponents tail) :
    ∃ names : List (List Char), tailComponents tail = names.map Component.normal := by
  rw [tailComponents] at plain ⊢
  generalize tail.splitOn '/' = pieces at plain ⊢
  induction pieces with
  | nil => exact ⟨[], rfl⟩
  | cons piece pieces ih =>
      rw [List.filterMap_cons] at plain ⊢
      cases read : component piece with
      | none =>
          rw [read] at plain
          exact ih plain
      | some one =>
          rw [read] at plain
          obtain ⟨names, same⟩ := ih fun member => plain (.tail _ member)
          rcases component_cases read with rfl | rfl
          · exact absurd (.head _) plain
          · exact ⟨piece :: names, by rw [same]; rfl⟩

end Joining

section Remainder

def unnamed (piece : List Char) : Bool := (component piece).isNone

def dropNamed : Nat → List (List Char) → List (List Char)
  | 0, pieces => pieces
  | _ + 1, [] => []
  | count + 1, piece :: rest =>
      if unnamed piece then dropNamed (count + 1) rest else dropNamed count rest

def trimPieces (pieces : List (List Char)) : List (List Char) :=
  (pieces.dropWhile unnamed).rdropWhile unnamed

/-- What is left of an absolute path behind the root and some more components, as
`Components::as_path` tells it. -/
def remainder (path : List Char) (count : Nat) : List Char :=
  List.intercalate ['/'] (trimPieces (dropNamed (count - 1) (path.splitOn '/')))

variable {pieces : List (List Char)} {path : List Char} {count : Nat}

theorem filterMap_dropNamed (count : Nat) (pieces : List (List Char)) :
    (dropNamed count pieces).filterMap component = (pieces.filterMap component).drop count := by
  induction pieces generalizing count with
  | nil => cases count <;> rfl
  | cons piece rest ih =>
      cases count with
      | zero => rfl
      | succ count =>
          rw [dropNamed, List.filterMap_cons]
          cases read : component piece with
          | none => rw [unnamed, read, Option.isNone_none, if_pos rfl, ih]
          | some one =>
              rw [unnamed, read, Option.isNone_some, if_neg Bool.false_ne_true, ih,
                List.drop_succ_cons]

theorem filterMap_of_unnamed (all : ∀ piece ∈ pieces, unnamed piece = true) :
    pieces.filterMap component = [] :=
  List.filterMap_eq_nil_iff.2 fun piece member => Option.isNone_iff_eq_none.1 (all piece member)

theorem filterMap_trimPieces (pieces : List (List Char)) :
    (trimPieces pieces).filterMap component = pieces.filterMap component := by
  have front : ∀ pieces : List (List Char),
      (pieces.dropWhile unnamed).filterMap component = pieces.filterMap component := by
    intro pieces
    have gone := filterMap_of_unnamed fun piece (member : piece ∈ pieces.takeWhile unnamed) =>
      List.mem_takeWhile_imp member
    conv_rhs => rw [← @List.takeWhile_append_dropWhile _ unnamed pieces]
    rw [List.filterMap_append, gone, List.nil_append]
  rw [trimPieces, List.rdropWhile, List.filterMap_reverse, front, List.filterMap_reverse,
    List.reverse_reverse, front]

theorem mem_dropNamed {piece : List Char} (member : piece ∈ dropNamed count pieces) :
    piece ∈ pieces := by
  induction pieces generalizing count with
  | nil => cases count <;> exact absurd member List.not_mem_nil
  | cons first rest ih =>
      cases count with
      | zero => exact member
      | succ count =>
          rw [dropNamed] at member
          split at member
          · exact .tail _ (ih member)
          · exact .tail _ (ih member)

theorem mem_trimPieces {piece : List Char} (member : piece ∈ trimPieces pieces) : piece ∈ pieces :=
  (List.dropWhile_suffix unnamed).mem ((List.rdropWhile_prefix unnamed _).mem member)

theorem named_head (full : trimPieces pieces ≠ []) :
    unnamed ((trimPieces pieces).head full) = false := by
  have more : pieces.dropWhile unnamed ≠ [] := by
    intro nothing
    rw [trimPieces, nothing] at full
    exact full rfl
  have first : (trimPieces pieces).head full = (pieces.dropWhile unnamed).head more := by
    obtain ⟨rest, split⟩ := List.rdropWhile_prefix unnamed (pieces.dropWhile unnamed)
    have heads := congrArg List.head? split
    rw [← trimPieces, List.head?_append_of_ne_nil _ full, List.head?_eq_some_head full,
      List.head?_eq_some_head more] at heads
    exact Option.some.inj heads
  rw [first]
  exact List.head_dropWhile_not unnamed more

theorem splitOn_remainder (full : trimPieces (dropNamed (count - 1) (path.splitOn '/')) ≠ []) :
    (remainder path count).splitOn '/' =
      trimPieces (dropNamed (count - 1) (path.splitOn '/')) :=
  List.splitOn_intercalate '/' (fun _ member =>
    not_mem_of_mem_splitOn (mem_dropNamed (mem_trimPieces member))) full

theorem tailComponents_remainder (absolute : isAbsolute path = true) (some_ : 0 < count) :
    tailComponents (remainder path count) = (components path).drop count := by
  obtain ⟨count, rfl⟩ := Nat.exists_eq_add_one.2 some_
  have expected : (components path).drop (count + 1) =
      (trimPieces (dropNamed count (path.splitOn '/'))).filterMap component := by
    rw [filterMap_trimPieces, filterMap_dropNamed, components, leading, if_pos absolute]
    rfl
  rw [expected, tailComponents]
  by_cases empty : trimPieces (dropNamed count (path.splitOn '/')) = []
  · have nothing : remainder path (count + 1) = [] := by
      rw [remainder, Nat.add_sub_cancel, empty]
      rfl
    rw [nothing, empty]
    rfl
  · exact congrArg _ (@splitOn_remainder path (count + 1) empty)

theorem remainder_plain (path : List Char) (count : Nat) :
    isAbsolute (remainder path count) = false ∧ leading (remainder path count) = [] := by
  by_cases empty : trimPieces (dropNamed (count - 1) (path.splitOn '/')) = []
  · have nothing : remainder path count = [] := by
      rw [remainder, empty]
      rfl
    rw [nothing]
    exact ⟨rfl, rfl⟩
  · obtain ⟨first, rest, split⟩ := List.exists_cons_of_ne_nil empty
    have named := named_head empty
    simp only [split, List.head_cons] at named
    have full : first ≠ [] ∧ first ≠ ['.'] := by
      constructor <;> rintro rfl <;> exact absurd named (by decide)
    have flat : '/' ∉ first := by
      have listed : first ∈ trimPieces (dropNamed (count - 1) (path.splitOn '/')) := split ▸ .head _
      exact not_mem_of_mem_splitOn (mem_dropNamed (mem_trimPieces listed))
    have relative : isAbsolute (remainder path count) = false := by
      refine decide_eq_false fun head => ?_
      obtain ⟨c, more, rfl⟩ := List.exists_cons_of_ne_nil full.1
      rw [remainder, split] at head
      have begins : (List.intercalate ['/'] ((c :: more) :: rest)).head? = some c := by
        cases rest <;> simp [List.intercalate]
      rw [begins] at head
      exact flat (Option.some.inj head ▸ .head _)
    refine ⟨relative, ?_⟩
    rw [leading, relative, if_neg Bool.false_ne_true, splitOn_remainder empty, split,
      List.head?_cons, if_neg fun dot => full.2 (Option.some.inj dot)]

end Remainder

end Forge.Library.PathTail
