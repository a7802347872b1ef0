import Forge.Library.Identifier
import Forge.Library.PathTail
import Forge.OrchestrationView
import Forge.SkillDomain

/-! The working directories of agents: how a request is mapped to a path in the container, and that
path to one of the host. -/

namespace Forge.AgentWorkspace

open Forge.Library.Identifier
open Forge.Library.PathTail
open Forge.Library.Text (strip stripText stripText_append stripText_eq_some)
open Forge.Library.UnixPath
open Forge.OrchestrationView (isWhitespace)
open Forge.SkillDomain (AppResult ErrorKind)

section Source

def containerWorkspaceRoot : List Char := "/workspace".toList

structure WorkspaceMountScope where
  orgId : Uuid
  workspaceId : Uuid

structure AgentWorkspacePaths where
  hostProjectsRoot : List Char
  containerCwd : List Char
deriving DecidableEq

def workspaceProjectsRoot (workspaceRoot : List Char) (scope : WorkspaceMountScope) : List Char :=
  let root := workspaceRoot.rdropWhile fun c => c == '/'
  join (join (join (join (join root "orgs".toList) scope.orgId.toText.toList)
    "workspaces".toList) scope.workspaceId.toText.toList) "projects".toList

def escaping : ErrorKind := .validation "cwd must not escape the managed workspace root"

def isUnsafe (one : Component) : Bool := one = .parentDir || one = .rootDir

def containerCwdFromRelativePath (relativePath : List Char) : AppResult (List Char) :=
  if relativePath = [] ∨ components relativePath = [.curDir] then .ok containerWorkspaceRoot
  else if (components relativePath).any isUnsafe then .error escaping
  else .ok (containerWorkspaceRoot ++ '/' :: relativePath.dropWhile fun c => c == '/')

def safeJoinUnder (root relative : List Char) : AppResult (List Char) :=
  if (components relative).any isUnsafe then .error escaping else .ok (join root relative)

/-- `Path::strip_prefix`, of an absolute path. -/
def stripRoot (root path : List Char) : Option (List Char) :=
  if components root <+: components path then
    some (remainder path (components root).length)
  else none

def legacyUserProjectsRelative (workspaceRoot requested : List Char) : Option (List Char) :=
  let root := workspaceRoot.rdropWhile fun c => c == '/'
  if components root <+: components requested then
    match (components requested).drop (components root).length with
    | .normal userId :: .normal directory :: _ =>
        if (Uuid.parseStr (String.ofList userId)).isSome ∧ directory = "projects".toList then
          some (remainder requested ((components root).length + 2))
        else none
    | _ => none
  else none

def managedRelative (workspaceRoot hostProjectsRoot requested : List Char) : Option (List Char) :=
  (stripRoot hostProjectsRoot requested).or (legacyUserProjectsRelative workspaceRoot requested)

def normalizeContainerCwd (workspaceRoot hostProjectsRoot : List Char)
    (requestedCwd : Option (List Char)) : AppResult (List Char) :=
  match (requestedCwd.map (strip isWhitespace)).filter fun value => value ≠ [] with
  | none => .ok containerWorkspaceRoot
  | some raw =>
      if raw ∈ [".".toList, "~".toList, "~/projects".toList, containerWorkspaceRoot] then
        .ok containerWorkspaceRoot
      else match (stripText "~/projects/".toList raw).or (stripText "/workspace/".toList raw) with
      | some relative => containerCwdFromRelativePath relative
      | none =>
          if isAbsolute raw then
            if .parentDir ∈ components raw then .error escaping
            else match managedRelative workspaceRoot hostProjectsRoot raw with
            | some relative => containerCwdFromRelativePath relative
            | none => .error (.validation ("cwd must stay under managed workspace root "
                ++ String.ofList hostProjectsRoot))
          else if "~/".toList <+: raw then
            .error (.validation "cwd must be relative to ~/projects or /workspace")
          else containerCwdFromRelativePath raw

def resolveAgentWorkspacePaths (workspaceRoot : List Char) (scope : WorkspaceMountScope)
    (requestedCwd : Option (List Char)) : AppResult AgentWorkspacePaths := do
  let hostProjectsRoot := workspaceProjectsRoot workspaceRoot scope
  let containerCwd ← normalizeContainerCwd workspaceRoot hostProjectsRoot requestedCwd
  return ⟨hostProjectsRoot, containerCwd⟩

def hostPathForContainerCwd (hostProjectsRoot containerCwd : List Char) : AppResult (List Char) :=
  if containerCwd = containerWorkspaceRoot then .ok hostProjectsRoot
  else match stripText "/workspace/".toList containerCwd with
  | none => .error (.validation "cwd must be under /workspace")
  | some relative => safeJoinUnder hostProjectsRoot relative

end Source

section Statements

/-- The accepted paths are contained: normalising again changes nothing, and the container and the
host name the same place below their roots. -/
structure Governed (workspaceRoot : List Char) (scope : WorkspaceMountScope)
    (paths : AgentWorkspacePaths) : Prop where
  again : resolveAgentWorkspacePaths workspaceRoot scope (some paths.containerCwd) = .ok paths
  places : ∃ names path,
    (paths.containerCwd = containerWorkspaceRoot ∨ names ≠ [])
    ∧ components paths.containerCwd =
      .rootDir :: (("workspace".toList :: names).map Component.normal)
    ∧ lexical paths.containerCwd = "workspace".toList :: names
    ∧ hostPathForContainerCwd paths.hostProjectsRoot paths.containerCwd = .ok path
    ∧ lexical path = lexical paths.hostProjectsRoot ++ names

def absoluteRelative (workspaceRoot hostProjectsRoot raw : List Char) : Option (List Char) :=
  if isAbsolute raw ∧ raw ≠ containerWorkspaceRoot ∧ ¬ "/workspace/".toList <+: raw
      ∧ .parentDir ∉ components raw then
    managedRelative workspaceRoot hostProjectsRoot raw
  else none

/-- The part of a request below a managed root does not end in a blank. -/
def Tight (workspaceRoot : List Char) (scope : WorkspaceMountScope)
    (requestedCwd : Option (List Char)) : Prop :=
  ∀ cwd rest c, requestedCwd = some cwd →
    absoluteRelative workspaceRoot (workspaceProjectsRoot workspaceRoot scope)
      (strip isWhitespace cwd) = some rest →
    rest.getLast? = some c → isWhitespace c = false

end Statements

section Inside

variable {path : List Char}

/-- A relative path with names, that does not lead upwards. -/
structure Inside (path : List Char) : Prop where
  relative : isAbsolute path = false
  plain : .parentDir ∉ tailComponents path
  names : tailComponents path ≠ []

theorem eq_nil_of_bare (relative : isAbsolute path = false) (bare : leading path = [])
    (empty : tailComponents path = []) : path = [] := by
  obtain ⟨first, rest, split⟩ := List.exists_cons_of_ne_nil (List.splitOn_ne_nil '/' path)
  have whole : List.intercalate ['/'] (path.splitOn '/') = path := List.intercalate_splitOn ..
  rw [tailComponents, split, List.filterMap_eq_nil_iff] at empty
  rw [split] at whole
  have unnamed := empty first (.head _)
  unfold component at unnamed
  split at unnamed
  case isFalse => split at unnamed <;> cases unnamed
  case isTrue blank =>
      rcases blank with rfl | rfl
      · cases rest with
        | nil => exact whole.symm
        | cons second rest =>
            rw [List.intercalate_cons_cons] at whole
            rw [← whole] at relative
            exact absurd relative (by simp [isAbsolute])
      · rw [leading, relative, if_neg Bool.false_ne_true, split] at bare
        exact absurd bare (by simp)

theorem mem_leading {one : Component} (member : one ∈ leading path)
    (relative : isAbsolute path = false) : one = .curDir := by
  rw [leading, relative, if_neg Bool.false_ne_true] at member
  split at member
  · exact List.mem_singleton.1 member
  · exact absurd member List.not_mem_nil

theorem isAbsolute_of_rootDir : .rootDir ∈ components path ↔ isAbsolute path = true := by
  constructor
  · intro member
    by_contra relative
    rw [Bool.not_eq_true] at relative
    rcases List.mem_append.1 member with first | later
    · exact nomatch mem_leading first relative
    · obtain ⟨piece, -, read⟩ := List.mem_filterMap.1 later
      rcases component_cases read with same | same <;> exact nomatch same
  · intro absolute
    rw [components, leading, if_pos absolute]
    exact .head _

theorem any_isUnsafe : (components path).any isUnsafe = false ↔
    isAbsolute path = false ∧ .parentDir ∉ tailComponents path := by
  have unsafe_ : (components path).any isUnsafe = true ↔
      .parentDir ∈ components path ∨ .rootDir ∈ components path := by
    simp only [List.any_eq_true, isUnsafe, Bool.or_eq_true, decide_eq_true_iff]
    constructor
    · rintro ⟨one, member, rfl | rfl⟩
      · exact .inl member
      · exact .inr member
    · rintro (member | member)
      · exact ⟨_, member, .inl rfl⟩
      · exact ⟨_, member, .inr rfl⟩
  rw [← Bool.not_eq_true, unsafe_, not_or, isAbsolute_of_rootDir, Bool.not_eq_true]
  constructor
  · rintro ⟨parent, relative⟩
    exact ⟨relative, fun member => parent (List.mem_append_right _ member)⟩
  · rintro ⟨relative, parent⟩
    refine ⟨fun member => ?_, relative⟩
    rcases List.mem_append.1 member with first | later
    · exact nomatch mem_leading first relative
    · exact parent later

theorem Inside.accepted (inside : Inside path) :
    containerCwdFromRelativePath path = .ok ("/workspace/".toList ++ path) := by
  have proper : ¬ (path = [] ∨ components path = [.curDir]) := by
    rintro (rfl | dot)
    · exact inside.names rfl
    · obtain ⟨one, rest, split⟩ := List.exists_cons_of_ne_nil inside.names
      have lengths := congrArg List.length dot
      rw [components_eq, split, List.length_append, List.length_cons] at lengths
      have first : leading path = [] := List.length_eq_zero_iff.1 (by simp at lengths; omega)
      have read : one ∈ components path := by
        rw [components_eq, split]
        exact List.mem_append_right _ (.head _)
      rw [dot] at read
      have listed : one ∈ tailComponents path := split ▸ .head _
      obtain ⟨piece, -, named⟩ := List.mem_filterMap.1 listed
      rw [List.mem_singleton.1 read] at named
      rcases component_cases named with same | same <;> exact nomatch same
  have safe := any_isUnsafe.2 ⟨inside.relative, inside.plain⟩
  have whole : path.dropWhile (fun c => c == '/') = path := by
    cases path with
    | nil => rfl
    | cons c rest =>
        have other : c ≠ '/' := fun same => by
          have relative := inside.relative
          rw [same] at relative
          exact absurd relative (by simp [isAbsolute])
        exact List.dropWhile_cons_of_neg (by simpa using other)
  rw [containerCwdFromRelativePath, if_neg proper, safe, if_neg Bool.false_ne_true, whole]
  rfl

theorem containerCwd_cases {cwd : List Char}
    (accepted : containerCwdFromRelativePath path = .ok cwd) :
    cwd = containerWorkspaceRoot ∨ Inside path ∧ cwd = "/workspace/".toList ++ path := by
  have answered := accepted
  rw [containerCwdFromRelativePath] at accepted
  split at accepted
  case isTrue => exact .inl (Except.ok.inj accepted).symm
  case isFalse proper =>
      split at accepted
      case isTrue => cases accepted
      case isFalse safe =>
          rw [Bool.not_eq_true] at safe
          obtain ⟨relative, plain⟩ := any_isUnsafe.1 safe
          have inside : Inside path := by
            refine ⟨relative, plain, fun empty => ?_⟩
            have only : components path = leading path := by
              rw [components_eq, empty, List.append_nil]
            by_cases bare : leading path = []
            · exact proper (.inl (eq_nil_of_bare relative bare empty))
            · refine proper (.inr (only.trans ?_))
              rw [leading, relative, if_neg Bool.false_ne_true] at bare ⊢
              split
              · rfl
              · rename_i other
                rw [if_neg other] at bare
                exact absurd rfl bare
          exact .inr ⟨inside, (Except.ok.inj (inside.accepted.symm.trans answered)).symm⟩

end Inside

section Normalising

variable {root host path cwd : List Char} {requested : Option (List Char)}

def Closed (path : List Char) : Prop := ∀ c, path.getLast? = some c → isWhitespace c = false

theorem rdropWhile_eq_self_iff_closed :
    path.rdropWhile isWhitespace = path ↔ Closed path := by
  rw [List.rdropWhile_eq_self_iff]
  constructor
  · intro last c same
    have full : path ≠ [] := by
      rintro rfl
      exact nomatch same
    rw [List.getLast?_eq_some_getLast full, Option.some.injEq] at same
    exact same ▸ Bool.eq_false_iff.2 (last full)
  · intro closed full
    exact Bool.eq_false_iff.1 (closed _ (List.getLast?_eq_some_getLast full))

theorem strip_front {blank : Char → Bool} {front : List Char} (full : front ≠ [])
    (head : front.dropWhile blank = front) (foot : front.rdropWhile blank = front)
    (path : List Char) : strip blank (front ++ path) = front ++ path.rdropWhile blank := by
  have stop : front.reverse.dropWhile blank = front.reverse := by
    rw [List.rdropWhile, List.reverse_eq_iff] at foot
    exact foot
  rw [strip, List.dropWhile_append, head, if_neg fun empty => full (List.isEmpty_iff.1 empty),
    List.rdropWhile, List.rdropWhile, List.reverse_append, List.dropWhile_append]
  split
  case isTrue empty =>
      rw [List.isEmpty_iff.1 empty, stop, List.reverse_reverse, List.reverse_nil, List.append_nil]
  case isFalse => rw [List.reverse_append, List.reverse_reverse]

theorem strip_below (path : List Char) : strip isWhitespace ("/workspace/".toList ++ path) =
    "/workspace/".toList ++ path.rdropWhile isWhitespace :=
  strip_front (by decide) (by decide) (by decide) path

theorem length_below (path : List Char) : 10 < ("/workspace/".toList ++ path).length := by
  have start : "/workspace/".toList.length = 11 := by decide
  rw [List.length_append, start]
  omega

theorem length_of_shorthand {raw : List Char} (member : raw ∈
    [".".toList, "~".toList, "~/projects".toList, containerWorkspaceRoot]) : raw.length ≤ 10 := by
  rcases List.mem_cons.1 member with rfl | member
  · decide
  rcases List.mem_cons.1 member with rfl | member
  · decide
  rcases List.mem_cons.1 member with rfl | member
  · decide
  rw [List.mem_singleton.1 member]
  decide

theorem root_shorthand : containerWorkspaceRoot ∈
    [".".toList, "~".toList, "~/projects".toList, containerWorkspaceRoot] :=
  List.mem_cons_of_mem _ (List.mem_cons_of_mem _ (List.mem_cons_of_mem _ (.head _)))

theorem normalize_below (path : List Char) :
    normalizeContainerCwd root host (some ("/workspace/".toList ++ path)) =
      containerCwdFromRelativePath (path.rdropWhile isWhitespace) := by
  have full : "/workspace/".toList ++ path.rdropWhile isWhitespace ≠ [] := by simp
  have other : "/workspace/".toList ++ path.rdropWhile isWhitespace ∉
      [".".toList, "~".toList, "~/projects".toList, containerWorkspaceRoot] := fun member =>
    absurd (length_of_shorthand member) (Nat.not_le.2 (length_below _))
  have home : stripText "~/projects/".toList
      ("/workspace/".toList ++ path.rdropWhile isWhitespace) = none := by
    refine if_neg fun first => ?_
    simp at first
  rw [normalizeContainerCwd, Option.map_some, strip_below, Option.filter_some,
    if_pos (decide_eq_true full)]
  simp only
  rw [if_neg other, home, Option.none_or, stripText_append]

theorem again_iff (inside : Inside path) :
    normalizeContainerCwd root host (some ("/workspace/".toList ++ path)) =
      .ok ("/workspace/".toList ++ path) ↔ Closed path := by
  rw [normalize_below, ← rdropWhile_eq_self_iff_closed]
  constructor
  · intro same
    rcases containerCwd_cases same with short | ⟨-, long⟩
    · have long := length_below path
      rw [short] at long
      exact absurd long (by decide)
    · exact (List.append_cancel_left long).symm
  · intro same
    rw [same]
    exact inside.accepted

theorem closed_of_suffix {tail : List Char} (suffix : tail <:+ path) (full : tail ≠ [])
    (closed : Closed path) : Closed tail := by
  obtain ⟨front, rfl⟩ := suffix
  intro c last
  exact closed c ((List.getLast?_append_of_ne_nil _ full).trans last)

theorem closed_strip (path : List Char) : Closed (strip isWhitespace path) := by
  rw [← rdropWhile_eq_self_iff_closed, strip]
  exact List.rdropWhile_idempotent _ _

theorem closed_of_inside {raw : List Char} (inside : Inside path) (suffix : path <:+ raw)
    (closed : Closed raw) : Closed path := by
  refine closed_of_suffix suffix ?_ closed
  rintro rfl
  exact inside.names rfl

theorem normalize_cases (accepted : normalizeContainerCwd root host requested = .ok cwd) :
    cwd = containerWorkspaceRoot ∨ ∃ path, Inside path ∧ cwd = "/workspace/".toList ++ path ∧
      (Closed path ∨ ∃ asked, requested = some asked ∧
        absoluteRelative root host (strip isWhitespace asked) = some path) := by
  unfold normalizeContainerCwd at accepted
  split at accepted
  case h_1 => exact .inl (Except.ok.inj accepted).symm
  case h_2 raw filtered =>
      obtain ⟨asked, rfl, rfl⟩ : ∃ text, requested = some text ∧ strip isWhitespace text = raw := by
        obtain ⟨mapped, -⟩ := Option.filter_eq_some_iff.1 filtered
        exact Option.map_eq_some_iff.1 mapped
      have closed := closed_strip asked
      split at accepted
      case isTrue => exact .inl (Except.ok.inj accepted).symm
      case isFalse long =>
          split at accepted
          case h_1 relative stripped =>
              rcases containerCwd_cases accepted with short | ⟨inside, same⟩
              · exact .inl short
              · have suffix : relative <:+ strip isWhitespace asked := by
                  rcases Option.or_eq_some_iff.1 stripped with home | ⟨-, mounted⟩
                  · exact ⟨_, (stripText_eq_some home).symm⟩
                  · exact ⟨_, (stripText_eq_some mounted).symm⟩
                exact .inr ⟨relative, inside, same, .inl (closed_of_inside inside suffix closed)⟩
          case h_2 other =>
              split at accepted
              case isTrue absolute =>
                  split at accepted
                  case isTrue => cases accepted
                  case isFalse plain =>
                      split at accepted
                      case h_2 => cases accepted
                      case h_1 relative managed =>
                          rcases containerCwd_cases accepted with short | ⟨inside, same⟩
                          · exact .inl short
                          refine .inr ⟨relative, inside, same, .inr ⟨asked, rfl, ?_⟩⟩
                          have mounted := (Option.or_eq_none_iff.1 other).2
                          have below : ¬ "/workspace/".toList <+: strip isWhitespace asked := by
                            intro first
                            rw [stripText, if_pos first] at mounted
                            exact Option.some_ne_none _ mounted
                          rw [absoluteRelative, if_pos ⟨absolute,
                            fun same => long (same ▸ root_shorthand), below, plain⟩, managed]
              case isFalse =>
                  split at accepted
                  case isTrue => cases accepted
                  case isFalse =>
                      rcases containerCwd_cases accepted with short | ⟨inside, same⟩
                      · exact .inl short
                      · exact .inr ⟨_, inside, same, .inl closed⟩

end Normalising

section Managed

variable {root host path raw : List Char} {scope : WorkspaceMountScope}

theorem components_projectsRoot (root : List Char) (scope : WorkspaceMountScope) :
    ∃ names, components (workspaceProjectsRoot root scope) =
      names ++ [.normal "projects".toList] :=
  ⟨_, components_join (by decide) (by decide) (by decide)⟩

theorem projectsRoot_ne_nil (root : List Char) (scope : WorkspaceMountScope) :
    workspaceProjectsRoot root scope ≠ [] := by
  obtain ⟨names, ended⟩ := components_projectsRoot root scope
  intro empty
  rw [empty] at ended
  exact absurd ended.symm (by simp [components, leading, isAbsolute, component])

theorem managedRelative_cases
    (managed : managedRelative root (workspaceProjectsRoot root scope) raw = some path) :
    ∃ count, 0 < count ∧ path = remainder raw count := by
  rcases Option.or_eq_some_iff.1 managed with present | ⟨-, legacy⟩
  · unfold stripRoot at present
    split at present
    case isTrue =>
        obtain ⟨names, ended⟩ := components_projectsRoot root scope
        refine ⟨_, ?_, (Option.some.inj present).symm⟩
        rw [ended, List.length_append, List.length_singleton]
        exact Nat.succ_pos _
    case isFalse => exact nomatch present
  · unfold legacyUserProjectsRelative at legacy
    simp only at legacy
    split at legacy
    case isTrue =>
        split at legacy
        case h_1 =>
            split at legacy
            case isTrue => exact ⟨_, Nat.succ_pos _, (Option.some.inj legacy).symm⟩
            case isFalse => exact nomatch legacy
        case h_2 => exact nomatch legacy
    case isFalse => exact nomatch legacy

theorem inside_of_absolute
    (managed : absoluteRelative root (workspaceProjectsRoot root scope) raw = some path)
    (full : path ≠ []) : Inside path := by
  unfold absoluteRelative at managed
  split at managed
  case isTrue guard =>
      obtain ⟨absolute, -, -, plain⟩ := guard
      obtain ⟨count, positive, rfl⟩ := managedRelative_cases managed
      obtain ⟨relative, bare⟩ := remainder_plain raw count
      refine ⟨relative, fun parent => plain ?_, fun empty => full ?_⟩
      · rw [tailComponents_remainder absolute positive] at parent
        exact List.mem_of_mem_drop parent
      · exact eq_nil_of_bare relative bare empty
  case isFalse => exact nomatch managed

theorem normalize_absolute {asked : List Char}
    (managed : absoluteRelative root host (strip isWhitespace asked) = some path) :
    normalizeContainerCwd root host (some asked) = containerCwdFromRelativePath path := by
  unfold absoluteRelative at managed
  split at managed
  case isFalse => exact nomatch managed
  case isTrue guard =>
      obtain ⟨absolute, other, below, plain⟩ := guard
      obtain ⟨rest, split⟩ := List.head?_eq_some_iff.1 (of_decide_eq_true absolute)
      have filtered : (Option.map (strip isWhitespace) (some asked)).filter
          (fun value => value ≠ []) = some (strip isWhitespace asked) := by
        rw [Option.map_some, Option.filter_some, split]
        rfl
      have long : strip isWhitespace asked ∉
          [".".toList, "~".toList, "~/projects".toList, containerWorkspaceRoot] := by
        intro member
        rcases List.mem_cons.1 member with same | member
        · rw [split] at same
          exact absurd same (by simp)
        rcases List.mem_cons.1 member with same | member
        · rw [split] at same
          exact absurd same (by simp)
        rcases List.mem_cons.1 member with same | member
        · rw [split] at same
          exact absurd same (by simp)
        exact other (List.mem_singleton.1 member)
      have home : stripText "~/projects/".toList (strip isWhitespace asked) = none := by
        refine if_neg fun first => ?_
        rw [split] at first
        simp at first
      have mounted : stripText "/workspace/".toList (strip isWhitespace asked) = none :=
        if_neg below
      rw [normalizeContainerCwd, filtered]
      simp only
      rw [if_neg long, home, mounted, Option.none_or]
      simp only
      rw [if_pos absolute, if_neg plain, managed]

end Managed

section Places

variable {root host path : List Char} {scope : WorkspaceMountScope}

theorem below_eq_join (path : List Char) (relative : isAbsolute path = false) :
    "/workspace/".toList ++ path = join containerWorkspaceRoot path := by
  have ended : ¬ (containerWorkspaceRoot = [] ∨ containerWorkspaceRoot.getLast? = some '/') := by
    decide
  rw [join, relative, if_neg Bool.false_ne_true, if_neg ended]
  rfl

theorem workspace_ne_nil : containerWorkspaceRoot ≠ [] := by decide

theorem components_root : components containerWorkspaceRoot =
    [.rootDir, .normal "workspace".toList] := by decide

theorem lexical_root : lexical containerWorkspaceRoot = ["workspace".toList] := by decide

theorem places_of_inside (inside : Inside path) (full : host ≠ []) :
    ∃ names mapped, names ≠ []
    ∧ components ("/workspace/".toList ++ path) =
      .rootDir :: (("workspace".toList :: names).map Component.normal)
    ∧ lexical ("/workspace/".toList ++ path) = "workspace".toList :: names
    ∧ hostPathForContainerCwd host ("/workspace/".toList ++ path) = .ok mapped
    ∧ lexical mapped = lexical host ++ names := by
  obtain ⟨names, same⟩ := names_of_tail inside.plain
  have more : names ≠ [] := by
    rintro rfl
    exact inside.names same
  have safe := any_isUnsafe.2 ⟨inside.relative, inside.plain⟩
  have long : "/workspace/".toList ++ path ≠ containerWorkspaceRoot := by
    intro short
    have longer := length_below path
    rw [short] at longer
    exact absurd longer (by decide)
  refine ⟨names, join host path, more, ?_, ?_, ?_, ?_⟩
  · rw [below_eq_join path inside.relative, components_join_tail inside.relative workspace_ne_nil,
      components_root, same]
    rfl
  · rw [below_eq_join path inside.relative, lexical_join_tail inside.relative workspace_ne_nil,
      lexical_root, same, foldl_resolveStep_names]
    rfl
  · rw [hostPathForContainerCwd, if_neg long, stripText_append]
    simp only [safeJoinUnder, safe, if_neg Bool.false_ne_true]
  · rw [lexical_join_tail inside.relative full, same, foldl_resolveStep_names]

end Places

section Results

variable {root cwd : List Char} {scope : WorkspaceMountScope} {requested : Option (List Char)}

theorem resolve_eq (root : List Char) (scope : WorkspaceMountScope)
    (requested : Option (List Char)) : resolveAgentWorkspacePaths root scope requested =
      (normalizeContainerCwd root (workspaceProjectsRoot root scope) requested).map
        (AgentWorkspacePaths.mk (workspaceProjectsRoot root scope)) := by
  unfold resolveAgentWorkspacePaths
  generalize workspaceProjectsRoot root scope = host
  simp only
  cases normalizeContainerCwd root host requested <;> rfl

theorem resolve_eq_ok_iff {host : List Char} :
    resolveAgentWorkspacePaths root scope requested = .ok ⟨host, cwd⟩ ↔
      workspaceProjectsRoot root scope = host
      ∧ normalizeContainerCwd root (workspaceProjectsRoot root scope) requested = .ok cwd := by
  rw [resolve_eq]
  generalize workspaceProjectsRoot root scope = managed
  cases normalizeContainerCwd root managed requested with
  | error reason => exact ⟨nofun, fun both => nomatch both.2⟩
  | ok answer =>
      rw [Except.map, Except.ok.injEq, Except.ok.injEq, AgentWorkspacePaths.mk.injEq]

theorem normalize_root (root host : List Char) :
    normalizeContainerCwd root host (some containerWorkspaceRoot) = .ok containerWorkspaceRoot := by
  have filtered : (Option.map (strip isWhitespace) (some containerWorkspaceRoot)).filter
      (fun value => value ≠ []) = some containerWorkspaceRoot := by decide
  rw [normalizeContainerCwd, filtered]
  exact if_pos root_shorthand

theorem governed_root (root : List Char) (scope : WorkspaceMountScope) :
    Governed root scope ⟨workspaceProjectsRoot root scope, containerWorkspaceRoot⟩ where
  again := resolve_eq_ok_iff.2 ⟨rfl, normalize_root _ _⟩
  places := by
    generalize workspaceProjectsRoot root scope = host
    refine ⟨[], host, .inl rfl, components_root, lexical_root, ?_, (List.append_nil _).symm⟩
    rw [hostPathForContainerCwd, if_pos rfl]

theorem governed_below {path : List Char} (root : List Char) (scope : WorkspaceMountScope)
    (inside : Inside path) (closed : Closed path) :
    Governed root scope ⟨workspaceProjectsRoot root scope, "/workspace/".toList ++ path⟩ := by
  obtain ⟨names, mapped, more, named, resolved, answered, placed⟩ :=
    places_of_inside inside (projectsRoot_ne_nil root scope)
  constructor
  · rw [resolve_eq_ok_iff, again_iff inside]
    exact ⟨rfl, closed⟩
  · dsimp only
    exact ⟨names, mapped, .inr more, named, resolved, answered, placed⟩

/-- Every accepted working directory is contained, and normalising it again changes nothing, if and
only if what the request leaves below a managed root does not end in a blank. -/
theorem governed_iff_tight (root : List Char) (scope : WorkspaceMountScope)
    (requested : Option (List Char)) :
    (∀ paths, resolveAgentWorkspacePaths root scope requested = .ok paths →
      Governed root scope paths) ↔ Tight root scope requested := by
  constructor
  · rintro governed asked rest c rfl managed last
    have full : rest ≠ [] := by
      rintro rfl
      exact nomatch last
    have inside := inside_of_absolute managed full
    have accepted := (normalize_absolute managed).trans inside.accepted
    have resolved : resolveAgentWorkspacePaths root scope (some asked) =
        .ok ⟨workspaceProjectsRoot root scope, "/workspace/".toList ++ rest⟩ := by
      rw [resolve_eq, accepted, Except.map]
    have again := resolve_eq_ok_iff.1 (governed _ resolved).again
    exact (again_iff inside).1 again.2 c last
  · rintro tight ⟨hostRoot, cwd⟩ accepted
    obtain ⟨rfl, normal⟩ := resolve_eq_ok_iff.1 accepted
    rcases normalize_cases normal with rfl | ⟨path, inside, rfl, ended⟩
    · exact governed_root root scope
    · refine governed_below root scope inside ?_
      rcases ended with closed | ⟨asked, rfl, managed⟩
      · exact closed
      · exact fun c last => tight asked path c rfl managed last

/-- The request is trimmed before its last separator is dropped, so the accepted directory ends in a
blank, and normalising it again leads elsewhere. -/
theorem blank_tail_moves :
    ∃ root scope requested paths moved,
      resolveAgentWorkspacePaths root scope (some requested) = .ok paths
      ∧ paths.containerCwd = "/workspace/a ".toList
      ∧ resolveAgentWorkspacePaths root scope (some paths.containerCwd) = .ok moved
      ∧ moved.containerCwd = "/workspace/a".toList
      ∧ ¬ Governed root scope paths := by
  let scope : WorkspaceMountScope := ⟨⟨1⟩, ⟨2⟩⟩
  let host := workspaceProjectsRoot "/data".toList scope
  have first : resolveAgentWorkspacePaths "/data".toList scope (some (host ++ "/a /".toList)) =
      .ok ⟨host, "/workspace/a ".toList⟩ := by decide +kernel
  have second : resolveAgentWorkspacePaths "/data".toList scope (some "/workspace/a ".toList) =
      .ok ⟨host, "/workspace/a".toList⟩ := by decide +kernel
  refine ⟨_, _, _, _, _, first, rfl, second, rfl, fun governed => ?_⟩
  have same := Except.ok.inj (second.symm.trans governed.again)
  exact absurd (congrArg AgentWorkspacePaths.containerCwd same) (by decide)

end Results

end Forge.AgentWorkspace
