import Forge.Library.Text
import Forge.Library.UnixPath
import Mathlib.Data.List.Infix

/-! The security policy of containers: which sources may be mounted, when a configuration is
accepted, and what the daemon must report of a container before it is used. -/

namespace Forge.MountPolicy

open Forge.Library.UnixPath

section Types

structure Mount where
  source : List Char
  target : List Char
  readOnly : Bool
deriving DecidableEq

structure ResourceLimits where
  memoryBytes : Option Int
  pidsLimit : Option Int
deriving DecidableEq

structure ContainerConfig where
  resources : ResourceLimits
  network : Option (List Char)
  mounts : List Mount
  privileged : Bool
  hostPid : Bool
deriving DecidableEq

inductive SecurityViolation where
  | privileged | hostPid | hostNetwork
  | forbiddenNetworkMode (mode : List Char)
  | forbiddenMount (source : List Char)
  | noResourceLimits | missingPidsLimit | unverifiedRuntimeConfig | capabilities
  | noNewPrivileges | sharedPid
deriving DecidableEq

/-- The real path of a path that exists; its text is missing if it is not UTF-8. -/
abbrev Canonicalize := List Component → Option (Option (List Char))

end Types

section Source

def forbiddenMountRoots : List (List Char) :=
  ["/etc".toList, "/proc".toList, "/sys".toList, "/dev".toList, "/run".toList, "/var/run".toList,
    "/var/lib/docker".toList, "/boot".toList, "/root".toList]

def segmentStep (parts : List (List Char)) (segment : List Char) : List (List Char) :=
  if segment = [] ∨ segment = ['.'] then parts
  else if segment = ['.', '.'] then parts.dropLast
  else parts ++ [segment]

def normalizeMountSource (source : List Char) : Option (List Char) :=
  if isAbsolute source then
    some ('/' :: List.intercalate ['/'] ((source.splitOn '/').foldl segmentStep []))
  else none

def isForbiddenNormalized (path : List Char) : Bool :=
  (path.splitOn '/').getLast? = some "docker.sock".toList || path = ['/'] ||
    forbiddenMountRoots.any fun root => path = root || (root ++ ['/']).isPrefixOf path

/-- The loop of `resolve_symlinks_best_effort`; the components of `cur` stand last first, and
those of `suffix` first first. -/
def resolveFrom (canonicalize : Canonicalize) (cur : List Component) (suffix : List (List Char)) :
    Option (List Char) :=
  match canonicalize cur.reverse, cur with
  | some real, _ => real.map (suffix.foldl join)
  | none, .normal name :: above => resolveFrom canonicalize above (name :: suffix)
  | none, _ => none

def resolveSymlinksBestEffort (canonicalize : Canonicalize) (source : List Char) :
    Option (List Char) :=
  resolveFrom canonicalize (components source).reverse []

def isForbiddenMount (canonicalize : Canonicalize) (source : List Char) : Bool :=
  match normalizeMountSource source with
  | none => false
  | some norm =>
      isForbiddenNormalized norm ||
        (resolveSymlinksBestEffort canonicalize norm).any isForbiddenNormalized

def sharesNamespace (net : List Char) : Bool :=
  "container:".toList.isPrefixOf net || "ns:".toList.isPrefixOf net ||
    "service:".toList.isPrefixOf net

def networkViolations : Option (List Char) → List SecurityViolation
  | none => []
  | some net =>
      if net = "host".toList then [.hostNetwork]
      else if sharesNamespace net then [.forbiddenNetworkMode net]
      else []

def unlimited (limit : Option Int) : Bool := limit.all (· ≤ 0)

def mountViolations (canonicalize : Canonicalize) (sources : List (List Char)) :
    List SecurityViolation :=
  (sources.filter (isForbiddenMount canonicalize)).map .forbiddenMount

def violation (found : Bool) (one : SecurityViolation) : List SecurityViolation :=
  if found then [one] else []

def securityViolations (canonicalize : Canonicalize) (config : ContainerConfig) :
    List SecurityViolation :=
  violation config.privileged .privileged ++ violation config.hostPid .hostPid ++
    violation (unlimited config.resources.memoryBytes) .noResourceLimits ++
    violation (unlimited config.resources.pidsLimit) .missingPidsLimit ++
    networkViolations config.network ++
    mountViolations canonicalize (config.mounts.map (·.source))

def verdict (violations : List SecurityViolation) : Except (List SecurityViolation) Unit :=
  if violations = [] then .ok () else .error violations

def validateSecurity (canonicalize : Canonicalize) (config : ContainerConfig) :
    Except (List SecurityViolation) Unit :=
  verdict (securityViolations canonicalize config)

/-- The entry of `HostConfig.Binds` for a mount. -/
def bindSpec (mount : Mount) : List Char :=
  mount.source ++ ':' :: mount.target ++ (if mount.readOnly then ":ro".toList else [])

end Source

section Runtime

inductive MountType where
  | bind | volume | tmpfs | other
deriving DecidableEq

structure HostMount where
  typ : Option MountType
  source : Option (List Char)
  target : Option (List Char)

structure MountPoint where
  typ : Option (List Char)
  source : Option (List Char)
  destination : Option (List Char)
  rw : Option Bool

structure HostConfig where
  privileged : Option Bool
  networkMode : Option (List Char)
  capDrop : Option (List (List Char))
  capAdd : Option (List (List Char))
  securityOpt : Option (List (List Char))
  pidMode : Option (List Char)
  binds : Option (List (List Char))
  mounts : Option (List HostMount)
  memory : Option Int
  pidsLimit : Option Int

structure ContainerInspectResponse where
  hostConfig : Option HostConfig
  mounts : Option (List MountPoint)

/-- The settings of the host configuration apart from its mounts. -/
def settingViolations (host : HostConfig) : List SecurityViolation :=
  let nnp := (host.securityOpt.getD []).filter ("no-new-privileges".toList.isPrefixOf ·)
  violation host.privileged.isNone .unverifiedRuntimeConfig ++
    violation (host.networkMode.all (· = [])) .unverifiedRuntimeConfig ++
    violation (!(host.capDrop.getD []).any (fun cap => cap.map Char.toUpper = "ALL".toList) ||
      !(host.capAdd.getD []).isEmpty) .capabilities ++
    violation (nnp.isEmpty || nnp.any fun option =>
      option ∉ ["no-new-privileges".toList, "no-new-privileges:true".toList,
        "no-new-privileges=true".toList]) .noNewPrivileges ++
    violation (host.pidMode.any fun mode =>
      mode ∉ ["".toList, "private".toList, "host".toList]) .sharedPid

def hasMount (actual : List MountPoint) (kind target : List Char) : Bool :=
  actual.any fun mount => mount.typ = some kind && mount.destination = some target

def bindViolations (canonicalize : Canonicalize) (actual : List MountPoint) (bind : List Char) :
    List SecurityViolation :=
  match bind.splitOn ':' with
  | first :: second :: rest =>
      if 1 < rest.length ∨ first = [] ∨ isAbsolute second = false then [.unverifiedRuntimeConfig]
      else
        let kind := if isAbsolute first then "bind".toList else "volume".toList
        violation (!hasMount actual kind second) .unverifiedRuntimeConfig ++
          mountViolations canonicalize [first]
  | _ => [.unverifiedRuntimeConfig]

def absolutePath (path : Option (List Char)) : Option (List Char) := path.filter isAbsolute

def hostMountViolations (canonicalize : Canonicalize) (actual : List MountPoint)
    (mount : HostMount) : List SecurityViolation :=
  match absolutePath mount.target, mount.typ with
  | none, _ => [.unverifiedRuntimeConfig]
  | some target, some .bind =>
      match absolutePath mount.source with
      | none => [.unverifiedRuntimeConfig]
      | some source =>
          violation (!hasMount actual "bind".toList target) .unverifiedRuntimeConfig ++
            mountViolations canonicalize [source]
  | some target, some .volume =>
      violation (!hasMount actual "volume".toList target) .unverifiedRuntimeConfig
  | some _, some .tmpfs => []
  | some _, _ => [.unverifiedRuntimeConfig]

/-- What the daemon reports of a mount, as a mount of a configuration, or a violation; volumes and
memory are neither. -/
def readMountPoint (mount : MountPoint) : Except SecurityViolation (Option Mount) :=
  match absolutePath mount.destination with
  | none => .error .unverifiedRuntimeConfig
  | some target =>
      if mount.typ = some "bind".toList then
        match absolutePath mount.source with
        | some source => .ok (some ⟨source, target, mount.rw = some false⟩)
        | none => .error .unverifiedRuntimeConfig
      else if mount.typ = some "volume".toList ∨ mount.typ = some "tmpfs".toList then .ok none
      else .error .unverifiedRuntimeConfig

def readViolation (mount : MountPoint) : Option SecurityViolation :=
  match readMountPoint mount with
  | .error violation => some violation
  | .ok _ => none

def readMount (mount : MountPoint) : Option Mount :=
  match readMountPoint mount with
  | .ok mount => mount
  | .error _ => none

def runtimeConfig (host : HostConfig) (actual : List MountPoint) : ContainerConfig where
  resources := ⟨host.memory, host.pidsLimit⟩
  network := host.networkMode
  mounts := actual.filterMap readMount
  privileged := host.privileged = some true
  hostPid := host.pidMode = some "host".toList

def validateRuntimeSecurity (canonicalize : Canonicalize) (container : ContainerInspectResponse) :
    Except (List SecurityViolation) Unit :=
  match container.hostConfig with
  | none => .error [.unverifiedRuntimeConfig]
  | some host =>
      let actual := container.mounts.getD []
      verdict (settingViolations host ++
        (host.binds.getD []).flatMap (bindViolations canonicalize actual) ++
        (host.mounts.getD []).flatMap (hostMountViolations canonicalize actual) ++
        actual.filterMap readViolation ++
        securityViolations canonicalize (runtimeConfig host actual))

end Runtime

section Purpose

def hostPath (names : List String) : List (List Char) := names.map String.toList

def socketName : List Char := "docker.sock".toList

def protectedRoots : List (List (List Char)) :=
  [hostPath ["etc"], hostPath ["proc"], hostPath ["sys"], hostPath ["dev"], hostPath ["run"],
    hostPath ["var", "run"], hostPath ["var", "lib", "docker"], hostPath ["boot"],
    hostPath ["root"]]

def engineSockets : List (List (List Char)) :=
  [hostPath ["run", "docker.sock"], hostPath ["var", "run", "docker.sock"]]

/-- Mounting the path hands over a socket of the engine or a protected root: it is one, or lies
below one, or has one below it. -/
def Exposes (path : List (List Char)) : Prop :=
  path.getLast? = some socketName ∨
    ∃ root ∈ protectedRoots ++ engineSockets, root <+: path ∨ path <+: root

def unlistedParents : List (List (List Char)) := [hostPath ["var"], hostPath ["var", "lib"]]

/-- The engine takes what stands before the first colon for a path of the host if it is
absolute, else for the name of a volume. -/
def engineBinds (mount : Mount) : Bool := isAbsolute ((bindSpec mount).takeWhile (· ≠ ':'))

def Safe (mount : Mount) : Prop :=
  (isAbsolute mount.source → ¬ Exposes (lexical mount.source)) ∧
    (engineBinds mount → normalizeMountSource mount.source ≠ none)

end Purpose

section Normalization

theorem segmentStep_eq (parts : List (List Char)) (segment : List Char) :
    segmentStep parts segment = (component segment).elim parts (resolveStep parts) := by
  unfold segmentStep component
  split
  case isTrue => rfl
  case isFalse => split <;> rfl

theorem foldl_segmentStep (segments parts : List (List Char)) :
    segments.foldl segmentStep parts =
      (segments.filterMap component).foldl resolveStep parts := by
  induction segments generalizing parts with
  | nil => rfl
  | cons segment rest ih =>
      rw [List.foldl_cons, segmentStep_eq, ih, List.filterMap_cons]
      cases component segment with
      | none => rfl
      | some one => rfl

theorem normalizeMountSource_of_absolute {source : List Char} (absolute : isAbsolute source) :
    normalizeMountSource source = some (render (lexical source)) := by
  rw [normalizeMountSource, if_pos absolute, foldl_segmentStep, render, lexical, components,
    leading, if_pos absolute, List.singleton_append, List.foldl_cons]
  rfl

theorem normalizeMountSource_eq_none {source : List Char} :
    normalizeMountSource source = none ↔ isAbsolute source = false := by
  unfold normalizeMountSource
  split
  case isTrue absolute => simp [absolute]
  case isFalse relative => simpa using relative

theorem engineBinds_eq (mount : Mount) : engineBinds mount = isAbsolute mount.source := by
  unfold engineBinds bindSpec
  cases mount.source with
  | nil => rfl
  | cons c rest =>
      by_cases colon : c = ':'
      · rw [colon]
        rfl
      · rw [List.cons_append, List.cons_append, List.takeWhile_cons_of_pos (by simpa using colon)]
        rfl

end Normalization

section Forbidden

theorem forbiddenMountRoots_eq : forbiddenMountRoots = protectedRoots.map render := by
  decide

theorem socketName_ne_nil : socketName ≠ [] := by
  decide

theorem isForbiddenNormalized_eq (path : List Char) :
    isForbiddenNormalized path = true ↔
      ((path.splitOn '/').getLast? = some socketName ∨ path = ['/']) ∨
        ((protectedRoots.map render).any fun root =>
          path = root || (root ++ ['/']).isPrefixOf path) = true := by
  rw [← forbiddenMountRoots_eq]
  unfold isForbiddenNormalized socketName
  simp only [Bool.or_eq_true, decide_eq_true_iff]

theorem names_protectedRoots : ∀ root ∈ protectedRoots, Names root ∧ root ≠ [] := by
  unfold Names
  decide

variable {names : List (List Char)}

theorem getLast_splitOn_render (wellFormed : Names names) {last : List Char} (full : last ≠ []) :
    ((render names).splitOn '/').getLast? = some last ↔ names.getLast? = some last := by
  cases names with
  | nil => exact ⟨fun empty => absurd (Option.some.inj empty).symm full, nofun⟩
  | cons name rest =>
      rw [splitOn_render wellFormed (List.cons_ne_nil _ _), List.getLast?_cons_cons]

theorem under_iff {root : List (List Char)} (wellFormed : Names names) (plain : Names root)
    (full : root ≠ []) :
    (render names = render root ∨ render root ++ ['/'] <+: render names) ↔ root <+: names := by
  rw [render_below_iff wellFormed plain full]
  constructor
  · rintro (same | ⟨below, -⟩)
    · exact render_injective wellFormed plain same ▸ List.prefix_rfl
    · exact below
  · intro below
    by_cases same : names = root
    · exact .inl (congrArg render same)
    · exact .inr ⟨below, same⟩

theorem any_root_iff {roots : List (List (List Char))}
    (plain : ∀ root ∈ roots, Names root ∧ root ≠ []) (wellFormed : Names names) :
    ((roots.map render).any fun root =>
        render names = root || (root ++ ['/']).isPrefixOf (render names)) = true ↔
      ∃ root ∈ roots, root <+: names := by
  rw [List.any_map, List.any_eq_true]
  refine exists_congr fun root => and_congr_right fun member => ?_
  rw [← under_iff wellFormed (plain root member).1 (plain root member).2, Function.comp_apply,
    Bool.or_eq_true, decide_eq_true_iff, List.isPrefixOf_iff_prefix]

theorem isForbiddenNormalized_iff (wellFormed : Names names) :
    isForbiddenNormalized (render names) = true ↔
      names.getLast? = some socketName ∨ names = [] ∨ ∃ root ∈ protectedRoots, root <+: names := by
  have root : render names = ['/'] ↔ names = [] :=
    ⟨fun same => render_injective wellFormed (fun _ member => nomatch member) same,
      fun same => same ▸ rfl⟩
  have socket : ((render names).splitOn '/').getLast? = some socketName ↔ _ :=
    getLast_splitOn_render wellFormed socketName_ne_nil
  rw [isForbiddenNormalized_eq, any_root_iff names_protectedRoots wellFormed, socket, root, or_assoc]

def ancestors : List (List (List Char)) := (protectedRoots ++ engineSockets).flatMap List.inits

theorem mem_ancestors {path : List (List Char)} :
    path ∈ ancestors ↔ ∃ root ∈ protectedRoots ++ engineSockets, path <+: root := by
  rw [ancestors, List.mem_flatMap]
  simp only [List.mem_inits]

theorem ancestors_cases : ∀ path ∈ ancestors,
    path = [] ∨ (∃ root ∈ protectedRoots, root <+: path) ∨ path ∈ unlistedParents := by
  decide

theorem unlistedParents_exposed : ∀ path ∈ unlistedParents, path ∈ ancestors := by
  decide

theorem engineSockets_protected : ∀ path ∈ engineSockets, ∃ root ∈ protectedRoots, root <+: path := by
  decide

theorem exposes_iff (wellFormed : Names names) :
    Exposes names ↔ isForbiddenNormalized (render names) = true ∨ names ∈ unlistedParents := by
  rw [isForbiddenNormalized_iff wellFormed, Exposes]
  constructor
  · rintro (socket | ⟨root, member, below | above⟩)
    · exact .inl (.inl socket)
    · rcases List.mem_append.1 member with listed | socket
      · exact .inl (.inr (.inr ⟨root, listed, below⟩))
      · obtain ⟨listed, member, further⟩ := engineSockets_protected root socket
        exact .inl (.inr (.inr ⟨listed, member, further.trans below⟩))
    · rcases ancestors_cases names (mem_ancestors.2 ⟨root, member, above⟩) with
        top | listed | unlisted
      · exact .inl (.inr (.inl top))
      · exact .inl (.inr (.inr listed))
      · exact .inr unlisted
  · have first : protectedRoots.head? = some (hostPath ["etc"]) := rfl
    rintro ((socket | rfl | ⟨root, listed, below⟩) | unlisted)
    · exact .inl socket
    · exact .inr ⟨_, List.mem_append_left _ (List.mem_of_head? first), .inr List.nil_prefix⟩
    · exact .inr ⟨root, List.mem_append_left _ listed, .inl below⟩
    · obtain ⟨root, member, above⟩ := mem_ancestors.1 (unlistedParents_exposed names unlisted)
      exact .inr ⟨root, member, .inr above⟩

theorem forbidden_of_normalized {canonicalize : Canonicalize} {source : List Char}
    (absolute : isAbsolute source)
    (forbidden : isForbiddenNormalized (render (lexical source)) = true) :
    isForbiddenMount canonicalize source = true := by
  rw [isForbiddenMount, normalizeMountSource_of_absolute absolute]
  exact Bool.or_eq_true_iff.2 (.inl forbidden)

end Forbidden

section Acceptance

variable {canonicalize : Canonicalize}

theorem verdict_ok {violations : List SecurityViolation} :
    verdict violations = .ok () ↔ violations = [] := by
  unfold verdict
  split
  case isTrue none => simp [none]
  case isFalse some => simp [some]

theorem allowed_of_mountViolations {sources : List (List Char)}
    (none : mountViolations canonicalize sources = []) {source : List Char}
    (member : source ∈ sources) : isForbiddenMount canonicalize source = false := by
  rw [mountViolations, List.map_eq_nil_iff, List.filter_eq_nil_iff] at none
  exact Bool.eq_false_iff.2 (none source member)

theorem allowed_of_securityViolations {config : ContainerConfig}
    (none : securityViolations canonicalize config = []) {mount : Mount}
    (member : mount ∈ config.mounts) : isForbiddenMount canonicalize mount.source = false :=
  allowed_of_mountViolations (List.append_eq_nil_iff.1 none).2 (List.mem_map_of_mem member)

theorem exposes_of_allowed {source : List Char} (absolute : isAbsolute source)
    (allowed : isForbiddenMount canonicalize source = false) :
    Exposes (lexical source) ↔ lexical source ∈ unlistedParents := by
  rw [exposes_iff (names_lexical source)]
  refine or_iff_right fun forbidden => ?_
  exact absurd (forbidden_of_normalized absolute forbidden) (Bool.eq_false_iff.1 allowed)

theorem accepted_mounts_safe_iff (canonicalize : Canonicalize) (config : ContainerConfig)
    (accepted : validateSecurity canonicalize config = .ok ()) :
    (∀ mount ∈ config.mounts, Safe mount) ↔
      ∀ mount ∈ config.mounts, isAbsolute mount.source →
        lexical mount.source ∉ [hostPath ["var"], hostPath ["var", "lib"]] := by
  refine forall₂_congr fun mount member => ?_
  have allowed := allowed_of_securityViolations (verdict_ok.1 accepted) member
  have checked : engineBinds mount → normalizeMountSource mount.source ≠ none := by
    rw [engineBinds_eq]
    intro absolute unchecked
    exact absurd absolute (Bool.eq_false_iff.1 (normalizeMountSource_eq_none.1 unchecked))
  rw [Safe, and_iff_left checked]
  exact forall_congr' fun absolute => not_congr (exposes_of_allowed absolute allowed)

def mounting (source : String) : ContainerConfig where
  resources := ⟨some 536870912, some 256⟩
  network := none
  mounts := [⟨source.toList, "/data".toList, true⟩]
  privileged := false
  hostPid := false

def noLinks : Canonicalize := fun path => some (some (render (path.foldl resolveStep [])))

theorem workspace_mount_safe :
    validateSecurity noLinks (mounting "/srv//projects/./a/../b/") = .ok () ∧
      ∀ mount ∈ (mounting "/srv//projects/./a/../b/").mounts, Safe mount :=
  have accepted : validateSecurity noLinks (mounting "/srv//projects/./a/../b/") = .ok () :=
    verdict_ok.2 (by decide)
  ⟨accepted, (accepted_mounts_safe_iff _ _ accepted).2 (by decide)⟩

theorem parent_mount_accepted :
    ¬ ∀ canonicalize config, validateSecurity canonicalize config = .ok () →
      ∀ mount ∈ config.mounts, Safe mount := by
  intro safe
  have accepted : securityViolations noLinks (mounting "/var") = [] := by decide
  have absolute : isAbsolute "/var".toList = true := by decide
  have exposed : lexical "/var".toList ∈ unlistedParents := by decide
  have allowed := allowed_of_securityViolations accepted (List.mem_cons_self ..)
  exact (safe noLinks _ (verdict_ok.2 accepted) _ (List.mem_cons_self ..)).1 absolute
    ((exposes_of_allowed absolute allowed).2 exposed)

end Acceptance

section Reported

variable {canonicalize : Canonicalize}

/-- The sources that the daemon reports of a container: of the binds it was created with, of the
mounts it was created with, and of those it has. -/
def reportedSources (host : HostConfig) (actual : List MountPoint) : List (List Char) :=
  (host.binds.getD []).filterMap (fun bind => (bind.splitOn ':').head?) ++
    (host.mounts.getD []).filterMap (fun mount => if mount.typ = some .bind then mount.source
      else none) ++
    (actual.filter fun mount => mount.typ = some "bind".toList).filterMap (·.source)

theorem absolutePath_eq_some {path : Option (List Char)} {text : List Char} :
    absolutePath path = some text ↔ path = some text ∧ isAbsolute text = true := by
  rw [absolutePath, Option.filter_eq_some_iff]

theorem allowed_of_bindViolations {actual : List MountPoint} {bind source : List Char}
    (clear : bindViolations canonicalize actual bind = [])
    (first : (bind.splitOn ':').head? = some source) :
    isForbiddenMount canonicalize source = false := by
  unfold bindViolations at clear
  split at clear
  case h_1 piece second rest pieces =>
      rw [pieces] at first
      obtain rfl := Option.some.inj first
      split at clear
      case isTrue => exact nomatch clear
      case isFalse =>
          exact allowed_of_mountViolations (List.append_eq_nil_iff.1 clear).2 (.head _)
  case h_2 => exact nomatch clear

theorem allowed_of_hostMountViolations {actual : List MountPoint} {mount : HostMount}
    {source : List Char} (clear : hostMountViolations canonicalize actual mount = [])
    (bound : mount.typ = some .bind) (given : mount.source = some source) :
    isForbiddenMount canonicalize source = false := by
  unfold hostMountViolations at clear
  rw [bound] at clear
  split at clear
  case h_1 => exact nomatch clear
  case h_2 =>
      split at clear
      case h_1 => exact nomatch clear
      case h_2 checked =>
          obtain rfl := Option.some.inj (given.symm.trans (absolutePath_eq_some.1 checked).1)
          exact allowed_of_mountViolations (List.append_eq_nil_iff.1 clear).2 (.head _)
  case h_3 same => exact nomatch same
  case h_4 same => exact nomatch same
  case h_5 other _ _ => exact absurd rfl other

theorem allowed_of_readViolation {actual : List MountPoint} {host : HostConfig} {mount : MountPoint}
    {source : List Char} (read : readViolation mount = none)
    (clear : securityViolations canonicalize (runtimeConfig host actual) = [])
    (member : mount ∈ actual) (bound : mount.typ = some "bind".toList)
    (given : mount.source = some source) : isForbiddenMount canonicalize source = false := by
  unfold readViolation readMountPoint at read
  simp only [if_pos bound] at read
  cases target : absolutePath mount.destination with
  | none => simp [target] at read
  | some path =>
      cases checked : absolutePath mount.source with
      | none => simp [target, checked] at read
      | some text =>
          obtain rfl := Option.some.inj (given.symm.trans (absolutePath_eq_some.1 checked).1)
          have reported : readMount mount = some ⟨source, path, mount.rw = some false⟩ := by
            unfold readMount readMountPoint
            simp only [if_pos bound, target, checked]
          have mounted : _ ∈ (runtimeConfig host actual).mounts :=
            List.mem_filterMap.2 ⟨mount, member, reported⟩
          exact allowed_of_securityViolations clear mounted

/-- What the daemon reports of a container that is let run is no more exposed than what a
configuration may mount. -/
theorem runtime_accepted {container : ContainerInspectResponse}
    (accepted : validateRuntimeSecurity canonicalize container = .ok ()) :
    ∃ host, container.hostConfig = some host ∧
      ∀ source ∈ reportedSources host (container.mounts.getD []), isAbsolute source →
        (Exposes (lexical source) ↔ lexical source ∈ unlistedParents) := by
  unfold validateRuntimeSecurity at accepted
  cases given : container.hostConfig with
  | none => simp [given] at accepted
  | some host =>
      rw [given] at accepted
      have clear := verdict_ok.1 accepted
      simp only [List.append_eq_nil_iff] at clear
      obtain ⟨⟨⟨⟨-, binds⟩, mounts⟩, reads⟩, config⟩ := clear
      refine ⟨host, rfl, fun source member absolute => ?_⟩
      suffices allowed : isForbiddenMount canonicalize source = false from
        exposes_of_allowed absolute allowed
      simp only [reportedSources, List.mem_append, List.mem_filterMap, List.mem_filter] at member
      rcases member with (⟨bind, member, first⟩ | ⟨mount, member, given⟩) | ⟨mount, member, given⟩
      · exact allowed_of_bindViolations (List.flatMap_eq_nil_iff.1 binds bind member) first
      · split at given
        case isTrue bound =>
            exact allowed_of_hostMountViolations (List.flatMap_eq_nil_iff.1 mounts mount member)
              bound given
        case isFalse => exact nomatch given
      · exact allowed_of_readViolation (List.filterMap_eq_nil_iff.1 reads mount member.1) config
          member.1 (of_decide_eq_true member.2) given

/-- An agent's container with its workspace, on a host without symbolic links. -/
def reported : ContainerInspectResponse where
  hostConfig := some {
    privileged := some false
    networkMode := some "bridge".toList
    capDrop := some ["ALL".toList]
    capAdd := none
    securityOpt := some ["no-new-privileges".toList]
    pidMode := none
    binds := some ["/srv/work:/work".toList]
    mounts := none
    memory := some 1
    pidsLimit := some 1 }
  mounts := some [⟨some "bind".toList, some "/srv/work".toList, some "/work".toList, some true⟩]

theorem reported_accepted : ∃ host, reported.hostConfig = some host ∧
    ∀ source ∈ reportedSources host (reported.mounts.getD []), isAbsolute source →
      (Exposes (lexical source) ↔ lexical source ∈ unlistedParents) :=
  @runtime_accepted (fun _ => none) reported (by decide)

end Reported

end Forge.MountPolicy
