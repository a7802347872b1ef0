import Forge.Library.Fallible
import Mathlib.Data.List.Count
import Mathlib.Data.List.Nodup
import Mathlib.Data.List.Perm.Basic

/-! Workflow graphs and the layers in which their nodes are run. -/

namespace Forge.WorkflowDag

open Forge.Library.Fallible

inductive WorkflowError where
  | invalidInput (message : String)
  | notFound
  | internal (message : String)
deriving DecidableEq, Repr

inductive NodeType where
  | agentTask | humanReview | gate
deriving DecidableEq, Repr

structure NodeRequest where
  name : Option String
  dependsOn : List String
deriving DecidableEq, Repr

def NodeRequest.key (node : NodeRequest) : String :=
  node.name.getD ""

structure Iteration where
  order : List String → List String
  perm : ∀ keys, (order keys).Perm keys

section Validation

def collectNames : List NodeRequest → List String → Except WorkflowError (List String)
  | [], names => .ok names
  | node :: rest, names =>
      match node.name with
      | none => .error (.invalidInput "node name is required")
      | some name =>
          if name ∈ names then .error (.invalidInput ("duplicate node name: \"" ++ name ++ "\""))
          else collectNames rest (names ++ [name])

def checkDependencies (names : List String) (node : NodeRequest) : Except WorkflowError Unit :=
  match node.dependsOn.find? fun dep => dep ∉ names with
  | none => .ok ()
  | some dep => .error (.invalidInput
      ("node \"" ++ node.key ++ "\" depends on unknown node \"" ++ dep ++ "\""))

abbrev Indegree := List (String × Nat)

/-- `dependents`: once for each time that a node lists the name. -/
def dependents (nodes : List NodeRequest) (name : String) : List String :=
  nodes.flatMap fun node =>
    (node.dependsOn.filter (· = name)).map fun _ => node.key

def decrement (indegree : Indegree) (name : String) : Indegree :=
  indegree.map fun entry => if entry.1 = name then (entry.1, entry.2 - 1) else entry

def removeNode (nodes : List NodeRequest) (indegree : Indegree) (name : String) : Indegree :=
  (dependents nodes name).foldl decrement (indegree.filter fun entry => entry.1 ≠ name)

/-- The loop that takes out a layer of nodes without open dependencies; `fuel` is the number of
nodes that remain. -/
def takeLayers (iteration : Iteration) (nodes : List NodeRequest) :
    Nat → Indegree → Except WorkflowError (List (List String))
  | _, [] => .ok []
  | 0, _ => .error (.invalidInput "cycle detected in workflow graph")
  | fuel + 1, indegree =>
      let layer := iteration.order ((indegree.filter fun entry => entry.2 = 0).map Prod.fst)
      if layer.isEmpty then .error (.invalidInput "cycle detected in workflow graph")
      else (takeLayers iteration nodes fuel (layer.foldl (removeNode nodes) indegree)).map
        (layer :: ·)

/-- `validate_dag`. -/
def validateDag (iteration : Iteration) (nodes : List NodeRequest) :
    Except WorkflowError (List (List String)) :=
  if nodes.isEmpty then .error (.invalidInput "workflow must have at least one node")
  else do
    let names ← collectNames nodes []
    nodes.forM (checkDependencies names)
    let indegree := nodes.map fun node => (node.key, node.dependsOn.length)
    takeLayers iteration nodes indegree.length indegree

end Validation

/-- Every node of a layer depends on nodes of earlier layers only. -/
def Layered (nodes : List NodeRequest) : List String → List (List String) → Prop
  | _, [] => True
  | done, layer :: rest =>
      (∀ node ∈ nodes, node.key ∈ layer → ∀ dep ∈ node.dependsOn, dep ∈ done)
      ∧ Layered nodes (done ++ layer) rest

section Layers

variable {iteration : Iteration} {nodes : List NodeRequest} {indegree : Indegree}
  {remaining : List String} {name : String}

/-- The nodes that remain, each with the number of its dependencies that remain. -/
structure Degrees (nodes : List NodeRequest) (remaining : List String) (indegree : Indegree) :
    Prop where
  keys : indegree.map Prod.fst = remaining
  degree : ∀ node ∈ nodes, ∀ count, (node.key, count) ∈ indegree →
    count = node.dependsOn.countP (· ∈ remaining)

theorem foldl_decrement (names : List String) (indegree : Indegree) :
    names.foldl decrement indegree =
      indegree.map fun entry => (entry.1, entry.2 - names.count entry.1) := by
  induction names generalizing indegree with
  | nil => simp
  | cons first rest ih =>
      rw [List.foldl_cons, ih, decrement, List.map_map]
      refine List.map_congr_left fun entry _ => ?_
      by_cases same : entry.1 = first
      · simp [same, Nat.sub_sub, Nat.add_comm]
      · simp [same, List.count_cons_of_ne (Ne.symm same)]

theorem dependents_cons (node : NodeRequest) (rest : List NodeRequest) (name : String) :
    dependents (node :: rest) name =
      List.replicate (node.dependsOn.count name) node.key ++ dependents rest name := by
  have own : (node.dependsOn.filter (· = name)).length = node.dependsOn.count name := by
    rw [List.count_eq_length_filter]
    exact congrArg (fun p => (node.dependsOn.filter p).length) (funext fun dep => rfl)
  rw [dependents, List.flatMap_cons, List.map_const', own, dependents]

theorem count_dependents_absent {key : String} (absent : key ∉ nodes.map NodeRequest.key) :
    (dependents nodes name).count key = 0 := by
  induction nodes with
  | nil => rfl
  | cons first rest ih =>
      rw [List.map_cons, List.mem_cons, not_or] at absent
      rw [dependents_cons, List.count_append, ih absent.2, List.count_replicate,
        if_neg (by simpa using Ne.symm absent.1)]

theorem count_dependents {node : NodeRequest} (distinct : (nodes.map NodeRequest.key).Nodup)
    (member : node ∈ nodes) :
    (dependents nodes name).count node.key = node.dependsOn.count name := by
  induction nodes with
  | nil => cases member
  | cons first rest ih =>
      obtain ⟨fresh, others⟩ := List.nodup_cons.1 distinct
      rw [dependents_cons, List.count_append, List.count_replicate]
      rcases List.mem_cons.1 member with rfl | later
      · rw [if_pos (beq_self_eq_true _), count_dependents_absent fresh, Nat.add_zero]
      · have other : first.key ≠ node.key := by
          intro same
          exact fresh (same ▸ List.mem_map_of_mem later)
        rw [if_neg (by simpa using other), ih others later, Nat.zero_add]

theorem Degrees.remove (degrees : Degrees nodes remaining indegree)
    (distinct : (nodes.map NodeRequest.key).Nodup) (member : name ∈ remaining) :
    Degrees nodes (remaining.filter (· ≠ name)) (removeNode nodes indegree name) := by
  have split : ∀ deps : List String, deps.countP (· ∈ remaining) =
      deps.countP (· ∈ remaining.filter (· ≠ name)) + deps.count name := by
    intro deps
    induction deps with
    | nil => rfl
    | cons dep rest ih =>
        by_cases same : dep = name
        · subst same
          simp [ih, member, Nat.add_assoc]
        · rw [List.countP_cons, List.countP_cons, ih, List.count_cons_of_ne same]
          simp [same]
          omega
  constructor
  · rw [removeNode, foldl_decrement, List.map_map, ← degrees.keys, List.filter_map]
    rfl
  · intro node there count found
    rw [removeNode, foldl_decrement] at found
    obtain ⟨entry, kept, same⟩ := List.mem_map.1 found
    obtain ⟨key, before⟩ := Prod.mk.inj same
    have old := degrees.degree node there entry.2 (by
      rw [← key]
      exact List.mem_of_mem_filter kept)
    rw [← before, old, key, count_dependents distinct there, split]
    omega

theorem Degrees.removeAll {layer : List String} (degrees : Degrees nodes remaining indegree)
    (distinct : (nodes.map NodeRequest.key).Nodup) (members : ∀ name ∈ layer, name ∈ remaining)
    (nodup : layer.Nodup) :
    Degrees nodes (remaining.filter (· ∉ layer)) (layer.foldl (removeNode nodes) indegree) := by
  induction layer generalizing remaining indegree with
  | nil => simpa using degrees
  | cons name rest ih =>
      obtain ⟨first, others⟩ := List.forall_mem_cons.1 members
      obtain ⟨fresh, distinctRest⟩ := List.nodup_cons.1 nodup
      have removed := ih (degrees.remove distinct first) (fun other member => ?_) distinctRest
      · have same : (remaining.filter (· ≠ name)).filter (· ∉ rest) =
            remaining.filter (· ∉ name :: rest) := by
          rw [List.filter_filter]
          refine List.filter_congr fun other _ => ?_
          simp [Bool.and_comm]
        rw [← same]
        exact removed
      · refine List.mem_filter.2 ⟨others other member, decide_eq_true ?_⟩
        rintro rfl
        exact fresh member

/-- The nodes that remain and have no dependency that remains. -/
structure FreeLayer (nodes : List NodeRequest) (remaining layer : List String) : Prop where
  nodup : layer.Nodup
  members : ∀ name ∈ layer, name ∈ remaining
  free : ∀ node ∈ nodes, node.key ∈ remaining →
    (node.key ∈ layer ↔ ∀ dep ∈ node.dependsOn, dep ∉ remaining)

theorem Degrees.freeLayer (iteration : Iteration) (degrees : Degrees nodes remaining indegree)
    (nodup : remaining.Nodup) :
    FreeLayer nodes remaining
      (iteration.order ((indegree.filter fun entry => entry.2 = 0).map Prod.fst)) := by
  have perm := iteration.perm ((indegree.filter fun entry => entry.2 = 0).map Prod.fst)
  have freeKeys : ((indegree.filter fun entry => entry.2 = 0).map Prod.fst).Sublist remaining := by
    rw [← degrees.keys]
    exact List.filter_sublist.map _
  refine ⟨perm.nodup_iff.2 (nodup.sublist freeKeys),
    fun name member => freeKeys.subset (perm.mem_iff.1 member), fun node there remains => ?_⟩
  have none (count : Nat) (present : (node.key, count) ∈ indegree) :
      count = 0 ↔ ∀ dep ∈ node.dependsOn, dep ∉ remaining := by
    rw [degrees.degree node there count present, List.countP_eq_zero]
    simp
  rw [perm.mem_iff, List.mem_map]
  constructor
  · rintro ⟨found, listedFree, key⟩
    obtain ⟨present, zero⟩ := List.mem_filter.1 listedFree
    exact (none found.2 (key ▸ present)).1 (of_decide_eq_true zero)
  · intro isFree
    rw [← degrees.keys] at remains
    obtain ⟨found, present, key⟩ := List.mem_map.1 remains
    have zero := (none found.2 (key ▸ present)).2 isFree
    exact ⟨found, List.mem_filter.2 ⟨present, decide_eq_true zero⟩, key⟩

theorem Degrees.takeLayers_cases {fuel : Nat} {layers : List (List String)}
    (degrees : Degrees nodes remaining indegree) (distinct : (nodes.map NodeRequest.key).Nodup)
    (nodup : remaining.Nodup) (taken : takeLayers iteration nodes fuel indegree = .ok layers) :
    (remaining = [] ∧ layers = []) ∨ ∃ fuel' next layer rest, fuel = fuel' + 1
      ∧ layers = layer :: rest ∧ layer ≠ [] ∧ FreeLayer nodes remaining layer
      ∧ Degrees nodes (remaining.filter (· ∉ layer)) next
      ∧ takeLayers iteration nodes fuel' next = .ok rest := by
  cases indegree with
  | nil =>
      have none : layers = [] := by
        cases fuel <;> exact (Except.ok.inj taken).symm
      exact .inl ⟨by rw [← degrees.keys]; rfl, none⟩
  | cons entry others =>
      cases fuel with
      | zero => cases taken
      | succ fuel =>
          rw [takeLayers] at taken
          case x_2 => nofun
          have free := degrees.freeLayer iteration nodup
          generalize iteration.order
            (((entry :: others).filter fun entry => entry.2 = 0).map Prod.fst) = layer at taken free
          split at taken
          case isTrue => cases taken
          case isFalse nonempty =>
              obtain ⟨rest, goes, rfl⟩ := map_eq_ok.1 taken
              exact .inr ⟨fuel, _, layer, rest, rfl, rfl, by simpa using nonempty, free,
                degrees.removeAll distinct free.members free.nodup, goes⟩

theorem takeLayers_ok {fuel : Nat} {done : List String} {layers : List (List String)}
    (degrees : Degrees nodes remaining indegree) (distinct : (nodes.map NodeRequest.key).Nodup)
    (nodup : remaining.Nodup)
    (known : ∀ node ∈ nodes, ∀ dep ∈ node.dependsOn, dep ∈ done ∨ dep ∈ remaining)
    (taken : takeLayers iteration nodes fuel indegree = .ok layers) :
    layers.flatten.Perm remaining ∧ Layered nodes done layers := by
  induction layers generalizing fuel done remaining indegree with
  | nil =>
      obtain ⟨rfl, _⟩ | ⟨_, _, _, _, _, same, _⟩ := degrees.takeLayers_cases distinct nodup taken
      · exact ⟨.nil, trivial⟩
      · cases same
  | cons layer rest ih =>
      obtain ⟨_, same⟩ | ⟨fuel', next, layer, rest, rfl, same, _, free, degreesRest, goes⟩ :=
        degrees.takeLayers_cases distinct nodup taken
      · cases same
      obtain ⟨rfl, rfl⟩ := List.cons.inj same
      have knownRest : ∀ node ∈ nodes, ∀ dep ∈ node.dependsOn,
          dep ∈ done ++ layer ∨ dep ∈ remaining.filter (· ∉ layer) := by
        intro node there dep listed
        by_cases here : dep ∈ layer
        · exact .inl (List.mem_append_right _ here)
        · rcases known node there dep listed with before | after
          · exact .inl (List.mem_append_left _ before)
          · exact .inr (List.mem_filter.2 ⟨after, decide_eq_true here⟩)
      obtain ⟨permRest, layered⟩ := ih degreesRest (nodup.filter _) knownRest goes
      refine ⟨?_, fun node there member dep listed => ?_, layered⟩
      · have own : (remaining.filter (· ∈ layer)).Perm layer := by
          refine (List.perm_ext_iff_of_nodup (nodup.filter _) free.nodup).2 fun name => ?_
          rw [List.mem_filter, decide_eq_true_eq]
          exact ⟨fun both => both.2, fun member => ⟨free.members name member, member⟩⟩
        have halves := List.filter_append_perm (fun name => decide (name ∈ layer)) remaining
        refine (own.symm.append (permRest.trans (.of_eq ?_))).trans halves
        simp
      · have alone := (free.free node there (free.members _ member)).1 member
        exact (known node there dep listed).resolve_right (alone dep listed)

theorem length_removeNode (nodes : List NodeRequest) (indegree : Indegree) (name : String) :
    (removeNode nodes indegree name).length =
      (indegree.filter fun entry => entry.1 ≠ name).length := by
  rw [removeNode, foldl_decrement, List.length_map]

variable (nodes) in
theorem length_removeAll_le (layer : List String) (indegree : Indegree) :
    (layer.foldl (removeNode nodes) indegree).length ≤ indegree.length := by
  induction layer generalizing indegree with
  | nil => exact Nat.le_refl _
  | cons name rest ih =>
      refine Nat.le_trans (ih _) ?_
      rw [length_removeNode]
      exact List.length_filter_le _ _

theorem takeLayers_fuel {fuel : Nat} (enough : indegree.length ≤ fuel) (more : Nat) :
    takeLayers iteration nodes (fuel + more) indegree =
      takeLayers iteration nodes fuel indegree := by
  induction fuel generalizing indegree with
  | zero =>
      obtain rfl := List.length_eq_zero_iff.1 (Nat.le_zero.1 enough)
      cases more <;> rfl
  | succ fuel ih =>
      cases indegree with
      | nil =>
          rw [Nat.succ_add]
          rfl
      | cons entry rest =>
          rw [Nat.succ_add, takeLayers, takeLayers]
          case x_2 => nofun
          case x_2 => nofun
          have perm := iteration.perm
            (((entry :: rest).filter fun entry => entry.2 = 0).map Prod.fst)
          generalize iteration.order
            (((entry :: rest).filter fun entry => entry.2 = 0).map Prod.fst) = layer at perm
          cases layer with
          | nil => rfl
          | cons name others =>
              obtain ⟨found, listed, key⟩ := List.mem_map.1 (perm.mem_iff.1 (List.mem_cons_self ..))
              have dropped : (removeNode nodes (entry :: rest) name).length <
                  (entry :: rest).length := by
                rw [length_removeNode, List.length_filter_lt_length_iff_exists]
                exact ⟨found, List.mem_of_mem_filter listed, by simp [key]⟩
              have fewer := length_removeAll_le nodes others
                (removeNode nodes (entry :: rest) name)
              rw [List.foldl_cons, ih (by omega)]

theorem collectNames_ok {seen names : List String} (nodup : seen.Nodup)
    (collected : collectNames nodes seen = .ok names) :
    names = seen ++ nodes.map NodeRequest.key ∧ names.Nodup
      ∧ ∀ node ∈ nodes, node.name = some node.key := by
  induction nodes generalizing seen with
  | nil =>
      obtain rfl := Except.ok.inj collected
      exact ⟨(List.append_nil _).symm, nodup, fun _ => nofun⟩
  | cons node rest ih =>
      rw [collectNames] at collected
      split at collected
      case h_1 => cases collected
      case h_2 name named =>
          split at collected
          case isTrue => cases collected
          case isFalse fresh =>
              have key : node.key = name := by rw [NodeRequest.key, named]; rfl
              have grown : (seen ++ [name]).Nodup :=
                List.nodup_append_comm.1 (List.nodup_cons.2 ⟨fresh, nodup⟩)
              obtain ⟨rfl, distinct, others⟩ := ih grown collected
              refine ⟨?_, distinct, List.forall_mem_cons.2 ⟨?_, others⟩⟩
              · rw [List.map_cons, key, List.append_assoc, List.singleton_append]
              · rw [key, named]

theorem checkDependencies_ok {names : List String} {node : NodeRequest}
    (checked : checkDependencies names node = .ok ()) : ∀ dep ∈ node.dependsOn, dep ∈ names := by
  rw [checkDependencies] at checked
  split at checked
  case h_1 absent => simpa using List.find?_eq_none.1 absent
  case h_2 => cases checked

theorem checkAll_ok {names : List String}
    (checked : nodes.forM (checkDependencies names) = .ok ()) :
    ∀ node ∈ nodes, ∀ dep ∈ node.dependsOn, dep ∈ names := by
  induction nodes with
  | nil => exact fun _ => nofun
  | cons node rest ih =>
      obtain ⟨_, first, others⟩ := bind_eq_ok.1 checked
      exact List.forall_mem_cons.2 ⟨checkDependencies_ok first, ih others⟩

theorem degrees_start (distinct : (nodes.map NodeRequest.key).Nodup)
    (known : ∀ node ∈ nodes, ∀ dep ∈ node.dependsOn, dep ∈ nodes.map NodeRequest.key) :
    Degrees nodes (nodes.map NodeRequest.key)
      (nodes.map fun node => (node.key, node.dependsOn.length)) := by
  refine ⟨by rw [List.map_map]; rfl, fun node there count found => ?_⟩
  obtain ⟨other, present, same⟩ := List.mem_map.1 found
  obtain ⟨key, rfl⟩ := Prod.mk.inj same
  obtain rfl := List.inj_on_of_nodup_map distinct present there key
  exact (List.countP_eq_length.2 fun dep listed => decide_eq_true (known other there dep listed)).symm

theorem validateDag_cases {layers : List (List String)}
    (accepted : validateDag iteration nodes = .ok layers) :
    nodes ≠ [] ∧ (nodes.map NodeRequest.key).Nodup ∧ (∀ node ∈ nodes, node.name = some node.key)
      ∧ (∀ node ∈ nodes, ∀ dep ∈ node.dependsOn, dep ∈ nodes.map NodeRequest.key)
      ∧ takeLayers iteration nodes (nodes.map fun node => (node.key, node.dependsOn.length)).length
        (nodes.map fun node => (node.key, node.dependsOn.length)) = .ok layers := by
  rw [validateDag] at accepted
  split at accepted
  · cases accepted
  next nonempty =>
    obtain ⟨names, collected, checks⟩ := bind_eq_ok.1 accepted
    obtain ⟨_, checked, taken⟩ := bind_eq_ok.1 checks
    obtain ⟨rfl, distinct, named⟩ := collectNames_ok List.nodup_nil collected
    rw [List.nil_append] at distinct checked
    exact ⟨by simpa using nonempty, distinct, named, checkAll_ok checked, taken⟩

theorem validateDag_ok {layers : List (List String)}
    (accepted : validateDag iteration nodes = .ok layers) :
    (nodes.map NodeRequest.key).Nodup ∧ layers.flatten.Perm (nodes.map NodeRequest.key)
      ∧ Layered nodes [] layers := by
  obtain ⟨_, distinct, _, known, taken⟩ := validateDag_cases accepted
  exact ⟨distinct, takeLayers_ok (degrees_start distinct known) distinct distinct
    (fun node there dep listed => .inr (known node there dep listed)) taken⟩

end Layers

end Forge.WorkflowDag
