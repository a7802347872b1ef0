import Mathlib.Data.List.Infix

/-! Paths of a Unix system as texts, and the components they are read as. -/

namespace Forge.Library.UnixPath

inductive Component where
  | rootDir | curDir | parentDir
  | normal (name : List Char)
deriving DecidableEq

def isAbsolute (path : List Char) : Bool := path.head? = some '/'

def component (piece : List Char) : Option Component :=
  if piece = [] ∨ piece = ['.'] then none
  else if piece = ['.', '.'] then some .parentDir
  else some (.normal piece)

def leading (path : List Char) : List Component :=
  if isAbsolute path then [.rootDir]
  else if (path.splitOn '/').head? = some ['.'] then [.curDir]
  else []

def components (path : List Char) : List Component :=
  leading path ++ (path.splitOn '/').filterMap component

/-- `Path::join`. -/
def join (path tail : List Char) : List Char :=
  if isAbsolute tail then tail
  else if path = [] ∨ path.getLast? = some '/' then path ++ tail
  else path ++ '/' :: tail

def stripPrefix (path base : List Char) : Option (List Component) :=
  if components base <+: components path then
    some ((components path).drop (components base).length)
  else none

section Joining

variable {path name : List Char}

theorem component_of_plain (full : name ≠ []) (noDot : '.' ∉ name) :
    component name = some (.normal name) := by
  have dots : name ≠ ['.'] ∧ name ≠ ['.', '.'] :=
    ⟨fun same => noDot (same ▸ .head _), fun same => noDot (same ▸ .head _)⟩
  rw [component, if_neg (not_or.2 ⟨full, dots.1⟩), if_neg dots.2]

theorem leading_cons (c : Char) (tail : List Char) (name : List Char) :
    leading ((c :: tail) ++ '/' :: name) = leading (c :: tail) := by
  obtain ⟨piece, pieces, split⟩ :=
    List.exists_cons_of_ne_nil (List.splitOn_ne_nil '/' (c :: tail))
  rw [leading, leading, List.splitOn_append_cons_self, split]
  rfl

theorem leading_separator (front first second : List Char) :
    leading (front ++ '/' :: first) = leading (front ++ '/' :: second) := by
  cases front with
  | nil => rfl
  | cons c tail => rw [leading_cons, leading_cons]

theorem components_join (flat : '/' ∉ name) (full : name ≠ []) (noDot : '.' ∉ name) :
    components (join path name) = components path ++ [.normal name] := by
  have relative : isAbsolute name = false := by
    cases name with
    | nil => rfl
    | cons c rest => exact decide_eq_false fun same => flat (Option.some.inj same ▸ .head _)
  have one : [name].filterMap component = [.normal name] := by
    rw [List.filterMap_cons_some (component_of_plain full noDot), List.filterMap_nil]
  rw [join, relative, if_neg Bool.false_ne_true]
  cases path with
  | nil =>
      have dot : name ≠ ['.'] := fun same => noDot (same ▸ .head _)
      rw [if_pos (.inl rfl), List.nil_append, components, leading, relative,
        List.splitOn_eq_singleton flat, one, if_neg Bool.false_ne_true, List.head?_singleton,
        if_neg fun same => dot (Option.some.inj same)]
      rfl
  | cons c tail =>
      split
      case isTrue ended =>
          have nothing : (List.splitOn '/' []).filterMap component = [] := rfl
          obtain ⟨front, split⟩ := List.getLast?_eq_some_iff.1 (ended.resolve_left
            (List.cons_ne_nil c tail))
          rw [split, List.append_assoc, List.singleton_append, components, components,
            leading_separator front name [], List.splitOn_append_cons_self,
            List.splitOn_append_cons_self, List.filterMap_append, List.filterMap_append,
            List.splitOn_eq_singleton flat, one, nothing, List.append_nil, List.append_assoc]
      case isFalse =>
          rw [components, components, leading_cons, List.splitOn_append_cons_self,
            List.filterMap_append, List.splitOn_eq_singleton flat, one, List.append_assoc]

end Joining

section Resolution

def resolveStep (names : List (List Char)) : Component → List (List Char)
  | .normal name => names ++ [name]
  | .parentDir => names.dropLast
  | .rootDir | .curDir => names

def lexical (path : List Char) : List (List Char) :=
  (components path).foldl resolveStep []

def render (names : List (List Char)) : List Char :=
  '/' :: List.intercalate ['/'] names

def Names (names : List (List Char)) : Prop :=
  ∀ name ∈ names, name ≠ [] ∧ '/' ∉ name

theorem not_mem_of_mem_splitOn {path piece : List Char} (member : piece ∈ path.splitOn '/') :
    '/' ∉ piece := by
  induction path generalizing piece with
  | nil => exact List.mem_singleton.1 member ▸ nofun
  | cons c rest ih =>
      obtain ⟨first, pieces, split⟩ :=
        List.exists_cons_of_ne_nil (List.splitOn_ne_nil '/' rest)
      rw [List.splitOn_cons_eq_if_modifyHead, split] at member
      rw [split] at ih
      split at member
      case isTrue =>
          rcases List.mem_cons.1 member with rfl | later
          · exact nofun
          · exact ih later
      case isFalse other =>
          rcases List.mem_cons.1 member with rfl | later
          · intro inside
            rcases List.mem_cons.1 inside with rfl | inside
            · exact other (beq_self_eq_true _)
            · exact ih (.head _) inside
          · exact ih (.tail _ later)

theorem names_of_mem_components {path name : List Char} (member : .normal name ∈ components path) :
    name ≠ [] ∧ '/' ∉ name := by
  rcases List.mem_append.1 member with first | later
  · have : leading path = [.rootDir] ∨ leading path = [.curDir] ∨ leading path = [] := by
      grind [leading]
    rcases this with rooted | dotted | bare
    · rw [rooted] at first
      cases List.mem_singleton.1 first
    · rw [dotted] at first
      cases List.mem_singleton.1 first
    · rw [bare] at first
      exact absurd first List.not_mem_nil
  · obtain ⟨piece, split, read⟩ := List.mem_filterMap.1 later
    unfold component at read
    split at read
    case isTrue => exact nomatch read
    case isFalse plain =>
        split at read
        case isTrue => exact nomatch Option.some.inj read
        case isFalse =>
            obtain rfl := Component.normal.inj (Option.some.inj read)
            exact ⟨(not_or.1 plain).1, not_mem_of_mem_splitOn split⟩

theorem names_resolveStep {names : List (List Char)} (wellFormed : Names names) {one : Component}
    (plain : ∀ name, one = .normal name → name ≠ [] ∧ '/' ∉ name) :
    Names (resolveStep names one) := by
  intro name member
  cases one with
  | rootDir | curDir => exact wellFormed name member
  | parentDir => exact wellFormed name (List.mem_of_mem_dropLast member)
  | normal last =>
      rcases List.mem_append.1 member with member | member
      · exact wellFormed name member
      · exact plain name (congrArg _ (List.mem_singleton.1 member).symm)

theorem names_lexical (path : List Char) : Names (lexical path) :=
  List.foldlRecOn (components path) resolveStep (motive := Names) (fun _ nothing => nomatch nothing)
    fun _ wellFormed _ member => names_resolveStep wellFormed fun _ same =>
      names_of_mem_components (same ▸ member)

variable {root names first second : List (List Char)}

theorem intercalate_append {front back : List (List Char)} (full : front ≠ []) (more : back ≠ []) :
    List.intercalate ['/'] (front ++ back) =
      List.intercalate ['/'] front ++ '/' :: List.intercalate ['/'] back := by
  induction front with
  | nil => exact absurd rfl full
  | cons name rest ih =>
      cases rest with
      | nil =>
          rw [List.singleton_append, List.intercalate_cons_of_ne_nil more,
            List.intercalate_singleton, List.append_assoc, List.singleton_append]
      | cons next rest =>
          rw [List.cons_append, List.cons_append, List.intercalate_cons_cons, ← List.cons_append,
            ih (List.cons_ne_nil _ _), List.intercalate_cons_cons]
          simp only [List.append_assoc]

theorem splitOn_render (wellFormed : Names names) (full : names ≠ []) :
    (render names).splitOn '/' = [] :: names := by
  have split := List.splitOn_intercalate '/' (fun name member => (wellFormed name member).2) full
  rw [render, ← List.nil_append ('/' :: _), List.splitOn_append_cons_self, split]
  rfl

theorem render_injective (wellFormed : Names first) (wellFormed' : Names second)
    (same : render first = render second) : first = second := by
  have bare (names : List (List Char)) (plain : Names names) (empty : render [] = render names) :
      names = [] := by
    by_contra full
    have split := splitOn_render plain full
    rw [← empty] at split
    have one : names = [[]] := (List.cons.inj split).2.symm
    exact (plain [] (one ▸ .head _)).1 rfl
  by_cases none : first = []
  · rw [none, bare second wellFormed' (none ▸ same)]
  by_cases none' : second = []
  · rw [none', bare first wellFormed (none' ▸ same.symm)]
  have split := splitOn_render wellFormed none
  rw [same, splitOn_render wellFormed' none'] at split
  exact (List.cons.inj split).2.symm

theorem render_below_iff (wellFormed : Names names) (rootWellFormed : Names root)
    (full : root ≠ []) :
    render root ++ ['/'] <+: render names ↔ root <+: names ∧ names ≠ root := by
  constructor
  · rintro ⟨rest, same⟩
    have nonempty : names ≠ [] := by
      rintro rfl
      have lengths := congrArg List.length same
      simp [render] at lengths
    have split := splitOn_render wellFormed nonempty
    rw [← same, List.append_assoc, List.singleton_append, List.splitOn_append_cons_self,
      splitOn_render rootWellFormed full] at split
    have whole := (List.cons.inj split).2
    refine ⟨⟨_, whole⟩, fun equal => List.splitOn_ne_nil '/' rest ?_⟩
    rw [equal] at whole
    exact List.append_right_eq_self.1 whole
  · rintro ⟨⟨rest, rfl⟩, proper⟩
    have more : rest ≠ [] := fun none => proper (none ▸ List.append_nil root)
    refine ⟨List.intercalate ['/'] rest, ?_⟩
    rw [render, render, intercalate_append full more, List.append_assoc, List.cons_append,
      List.singleton_append]

end Resolution

end Forge.Library.UnixPath
