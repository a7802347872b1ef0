import Forge.Library.Layering
import Forge.WorkflowDag

/-! Which workflow graphs are accepted, and in which layer each node is. -/

namespace Forge.DagValidation

open Forge.Library.Fallible
open Forge.Library.Layering hiding Layered
open Forge.WorkflowDag

section Counters

inductive Run where
  | underflow
  | unfinished
  | returned (result : Except WorkflowError (List (List String)))
deriving DecidableEq

/-- Subtraction of `usize`. -/
def subtract (value amount : Nat) : Option Nat :=
  if amount ≤ value then some (value - amount) else none

def decrementChecked (indegree : Indegree) (name : String) : Option Indegree :=
  indegree.mapM fun entry =>
    if entry.1 = name then (subtract entry.2 1).map (Prod.mk entry.1) else some entry

def removeNodeChecked (nodes : List NodeRequest) (indegree : Indegree) (name : String) :
    Option Indegree :=
  (dependents nodes name).foldlM decrementChecked (indegree.filter fun entry => entry.1 ≠ name)

variable (iteration : Iteration) (nodes : List NodeRequest)

/-- The loop of `validate_dag` with its counters, for a number of turns. -/
def whileRemaining : Nat → Nat → Indegree → List (List String) → Run
  | 0, _, _, _ => .unfinished
  | turns + 1, remaining, indegree, layers =>
      if remaining = 0 then .returned (.ok layers)
      else
        let layer := iteration.order ((indegree.filter fun entry => entry.2 = 0).map Prod.fst)
        if layer.isEmpty then
          .returned (.error (.invalidInput "cycle detected in workflow graph"))
        else match layer.foldlM (removeNodeChecked nodes) indegree, subtract remaining layer.length with
          | some indegree, some remaining =>
              whileRemaining turns remaining indegree (layers ++ [layer])
          | _, _ => .underflow

/-- `validate_dag` with its counters. -/
def validateDagChecked (turns : Nat) : Run :=
  if nodes.isEmpty then .returned (.error (.invalidInput "workflow must have at least one node"))
  else match collectNames nodes [] with
    | .error err => .returned (.error err)
    | .ok names => match nodes.forM (checkDependencies names) with
      | .error err => .returned (.error err)
      | .ok _ =>
          let indegree := nodes.map fun node => (node.key, node.dependsOn.length)
          whileRemaining iteration nodes turns indegree.length indegree []

end Counters

section Graph

variable (nodes : List NodeRequest)

def Depends (dep name : String) : Prop :=
  ∃ node ∈ nodes, node.key = name ∧ dep ∈ node.dependsOn

structure Valid : Prop where
  nonempty : nodes ≠ []
  named : ∀ node ∈ nodes, node.name.isSome
  distinct : (nodes.map NodeRequest.key).Nodup
  known : ∀ node ∈ nodes, ∀ dep ∈ node.dependsOn, dep ∈ nodes.map NodeRequest.key
  acyclic : ∀ name, ¬ Relation.TransGen (Depends nodes) name name

/-- The layers of the nodes: the number of a layer is the length of the longest chain of
dependencies under each of its nodes. -/
structure Sorted (layers : List (List String)) : Prop where
  once : layers.flatten.Perm (nodes.map NodeRequest.key)
  earlier : ∀ k name, At layers k name → ∀ dep, Depends nodes dep name → ∃ j < k, At layers j dep
  longest : ∀ k name, At layers k name → IsGreatest
    { length : Nat | Chain (· ∈ nodes.map NodeRequest.key) (Depends nodes) length name } k

end Graph

section Layers

variable {iteration : Iteration} {nodes : List NodeRequest} {indegree : Indegree}
  {remaining : List String}

theorem at_cons {layer : List String} {rest : List (List String)} {k : Nat} {name : String} :
    At (layer :: rest) (k + 1) name ↔ At rest k name := by
  simp [At]

theorem at_zero {layer : List String} {rest : List (List String)} {name : String} :
    At (layer :: rest) 0 name ↔ name ∈ layer := by
  simp [At]

theorem earlier_of_layered {done : List String} {layers : List (List String)}
    (layered : Layered nodes done layers) {k : Nat} {name dep : String} (at_ : At layers k name)
    (depends : Depends nodes dep name) : dep ∈ done ∨ ∃ j < k, At layers j dep := by
  induction layers generalizing done k with
  | nil =>
      obtain ⟨layer, found, _⟩ := at_
      cases found
  | cons layer rest ih =>
      obtain ⟨first, later⟩ := layered
      cases k with
      | zero =>
          obtain ⟨node, there, rfl, listed⟩ := depends
          exact .inl (first node there (at_zero.mp at_) dep listed)
      | succ k =>
          rcases ih later (at_cons.mp at_) with before | ⟨j, before, there⟩
          · rcases List.mem_append.mp before with before | here
            · exact .inl before
            · exact .inr ⟨0, by omega, at_zero.mpr here⟩
          · exact .inr ⟨j + 1, by omega, at_cons.mpr there⟩

theorem tight_of_taken {fuel : Nat} {layers : List (List String)}
    (degrees : Degrees nodes remaining indegree) (distinct : (nodes.map NodeRequest.key).Nodup)
    (nodup : remaining.Nodup) (keys : ∀ name ∈ remaining, name ∈ nodes.map NodeRequest.key)
    (taken : takeLayers iteration nodes fuel indegree = .ok layers) {k : Nat} {name : String}
    (at_ : At layers (k + 1) name) : ∃ dep, Depends nodes dep name ∧ At layers k dep := by
  induction layers generalizing fuel remaining indegree k with
  | nil =>
      obtain ⟨layer, found, _⟩ := at_
      cases found
  | cons layer rest ih =>
      obtain ⟨_, same⟩ | ⟨fuel, next, layer, rest, rfl, same, _, free, degreesRest, goes⟩ :=
        degrees.takeLayers_cases distinct nodup taken
      · cases same
      obtain ⟨rfl, rfl⟩ := List.cons.inj same
      have keysRest : ∀ name ∈ remaining.filter (· ∉ layer), name ∈ nodes.map NodeRequest.key :=
        fun name member => keys name (List.mem_of_mem_filter member)
      rw [at_cons] at at_
      cases k with
      | succ k =>
          obtain ⟨dep, depends, there⟩ := ih degreesRest (nodup.filter _) keysRest goes at_
          exact ⟨dep, depends, at_cons.mpr there⟩
      | zero =>
          obtain ⟨_, rfl⟩ | ⟨_, _, second, _, _, rfl, _, freeRest, _⟩ :=
            degreesRest.takeLayers_cases distinct (nodup.filter _) goes
          · obtain ⟨layer, found, _⟩ := at_
            cases found
          have later := freeRest.members name (at_zero.mp at_)
          obtain ⟨remains, waits⟩ := List.mem_filter.mp later
          obtain ⟨node, there, rfl⟩ := List.mem_map.mp (keys name remains)
          have alone := (freeRest.free node there later).mp (at_zero.mp at_)
          have held : ¬ ∀ dep ∈ node.dependsOn, dep ∉ remaining := fun isFree =>
            of_decide_eq_true waits ((free.free node there remains).mpr isFree)
          push Not at held
          obtain ⟨dep, listed, open'⟩ := held
          refine ⟨dep, ⟨node, there, rfl, listed⟩, at_zero.mpr ?_⟩
          by_contra outside
          exact alone dep listed (List.mem_filter.mpr ⟨open', decide_eq_true outside⟩)

def freeNodes (iteration : Iteration) (indegree : Indegree) : List String :=
  iteration.order ((indegree.filter fun entry => entry.2 = 0).map Prod.fst)

theorem takeLayers_succ {fuel : Nat} (nonempty : indegree ≠ []) :
    takeLayers iteration nodes (fuel + 1) indegree =
      if (freeNodes iteration indegree).isEmpty then
        .error (.invalidInput "cycle detected in workflow graph")
      else (takeLayers iteration nodes fuel
        ((freeNodes iteration indegree).foldl (removeNode nodes) indegree)).map
          (freeNodes iteration indegree :: ·) := by
  cases indegree with
  | nil => exact absurd rfl nonempty
  | cons entry others =>
      rw [takeLayers]
      · rfl
      · exact fun empty => nonempty empty

theorem remaining_ne_nil (degrees : Degrees nodes remaining indegree) :
    indegree ≠ [] ↔ remaining ≠ [] := by
  rw [← degrees.keys, Ne, Ne, List.map_eq_nil_iff]

theorem length_remaining (degrees : Degrees nodes remaining indegree) :
    indegree.length = remaining.length := by
  rw [← degrees.keys, List.length_map]

theorem length_without {layer : List String} (free : FreeLayer nodes remaining layer)
    (nodup : remaining.Nodup) :
    (remaining.filter (· ∉ layer)).length + layer.length = remaining.length := by
  have own : (remaining.filter (· ∈ layer)).Perm layer := by
    refine (List.perm_ext_iff_of_nodup (nodup.filter _) free.nodup).mpr fun name => ?_
    rw [List.mem_filter, decide_eq_true_eq]
    exact ⟨fun both => both.2, fun member => ⟨free.members name member, member⟩⟩
  have halves := List.filter_append_perm (fun name => decide (name ∈ layer)) remaining
  have lengths := halves.length_eq
  rw [List.length_append, own.length_eq] at lengths
  have same : (remaining.filter fun name => !decide (name ∈ layer))
      = remaining.filter (· ∉ layer) := by simp
  rw [same] at lengths
  omega

theorem freeNodes_ne_nil (acyclic : ∀ name, ¬ Relation.TransGen (Depends nodes) name name)
    (free : FreeLayer nodes remaining (freeNodes iteration indegree))
    (keys : ∀ name ∈ remaining, name ∈ nodes.map NodeRequest.key) (nonempty : remaining ≠ []) :
    freeNodes iteration indegree ≠ [] := by
  obtain ⟨name, member, least⟩ := exists_minimal acyclic nonempty
  obtain ⟨node, there, rfl⟩ := List.mem_map.mp (keys name member)
  have isFree : ∀ dep ∈ node.dependsOn, dep ∉ remaining := fun dep listed remains =>
    least dep remains ⟨node, there, rfl, listed⟩
  exact List.ne_nil_of_mem ((free.free node there member).mpr isFree)

theorem taken_of_acyclic (iteration : Iteration)
    (acyclic : ∀ name, ¬ Relation.TransGen (Depends nodes) name name)
    (degrees : Degrees nodes remaining indegree) (distinct : (nodes.map NodeRequest.key).Nodup)
    (nodup : remaining.Nodup) (keys : ∀ name ∈ remaining, name ∈ nodes.map NodeRequest.key)
    {fuel : Nat} (enough : remaining.length ≤ fuel) :
    ∃ layers, takeLayers iteration nodes fuel indegree = .ok layers := by
  induction fuel generalizing remaining indegree with
  | zero =>
      have none : remaining = [] := List.length_eq_zero_iff.mp (Nat.le_zero.mp enough)
      have empty : indegree = [] := by
        by_contra nonempty
        exact (remaining_ne_nil degrees).mp nonempty none
      exact ⟨[], by rw [empty]; rfl⟩
  | succ fuel ih =>
      by_cases nonempty : indegree = []
      · exact ⟨[], by rw [nonempty]; rfl⟩
      have free := degrees.freeLayer iteration nodup
      have some := freeNodes_ne_nil acyclic free keys ((remaining_ne_nil degrees).mp nonempty)
      have fewer := length_without free nodup
      have positive := List.length_pos_iff.mpr some
      have degreesRest := degrees.removeAll distinct free.members free.nodup
      obtain ⟨rest, goes⟩ := ih degreesRest (nodup.filter _)
        (fun name member => keys name (List.mem_of_mem_filter member))
        (by rw [freeNodes] at positive; omega)
      refine ⟨freeNodes iteration indegree :: rest, ?_⟩
      rw [takeLayers_succ nonempty, if_neg (by simpa using some)]
      exact congrArg (Except.map _) goes

theorem decrementChecked_eq {name : String}
    (positive : ∀ entry ∈ indegree, entry.1 = name → 0 < entry.2) :
    decrementChecked indegree name = some (decrement indegree name) := by
  induction indegree with
  | nil => rfl
  | cons entry rest ih =>
      have others := ih fun other member => positive other (List.mem_cons_of_mem _ member)
      rw [decrementChecked] at others ⊢
      rw [List.mapM_cons, others, decrement, decrement, List.map_cons]
      by_cases same : entry.1 = name
      · have one : 1 ≤ entry.2 := positive entry (List.mem_cons_self ..) same
        rw [if_pos same, if_pos same, subtract, if_pos one]
        rfl
      · rw [if_neg same, if_neg same]
        rfl

theorem foldlM_decrementChecked {names : List String}
    (enough : ∀ entry ∈ indegree, names.count entry.1 ≤ entry.2) :
    names.foldlM decrementChecked indegree = some (names.foldl decrement indegree) := by
  induction names generalizing indegree with
  | nil => rfl
  | cons first rest ih =>
      have positive : ∀ entry ∈ indegree, entry.1 = first → 0 < entry.2 := by
        rintro entry member rfl
        have := enough entry member
        rw [List.count_cons_self] at this
        omega
      rw [List.foldlM_cons, decrementChecked_eq positive, Option.bind_eq_bind, Option.bind_some,
        List.foldl_cons]
      refine ih fun entry member => ?_
      obtain ⟨before, there, rfl⟩ := List.mem_map.mp member
      have bound := enough before there
      by_cases same : before.1 = first
      · rw [if_pos same]
        rw [same, List.count_cons_self] at bound
        show rest.count before.1 ≤ before.2 - 1
        rw [same]
        omega
      · rw [if_neg same]
        rwa [List.count_cons_of_ne (Ne.symm same)] at bound

theorem removeNodeChecked_eq {name : String} (degrees : Degrees nodes remaining indegree)
    (distinct : (nodes.map NodeRequest.key).Nodup)
    (keys : ∀ name ∈ remaining, name ∈ nodes.map NodeRequest.key) (member : name ∈ remaining) :
    removeNodeChecked nodes indegree name = some (removeNode nodes indegree name) := by
  refine foldlM_decrementChecked fun entry kept => ?_
  have present := List.mem_of_mem_filter kept
  have remains : entry.1 ∈ remaining := degrees.keys ▸ List.mem_map_of_mem present
  obtain ⟨node, there, key⟩ := List.mem_map.mp (keys entry.1 remains)
  rw [← key, count_dependents distinct there, degrees.degree node there entry.2 (key ▸ present),
    List.count]
  exact List.countP_mono_left fun dep _ same => by simpa [eq_of_beq same] using member

theorem foldlM_removeNodeChecked {layer : List String} (degrees : Degrees nodes remaining indegree)
    (distinct : (nodes.map NodeRequest.key).Nodup)
    (keys : ∀ name ∈ remaining, name ∈ nodes.map NodeRequest.key)
    (members : ∀ name ∈ layer, name ∈ remaining) (nodup : layer.Nodup) :
    layer.foldlM (removeNodeChecked nodes) indegree
      = some (layer.foldl (removeNode nodes) indegree) := by
  induction layer generalizing remaining indegree with
  | nil => rfl
  | cons name rest ih =>
      obtain ⟨first, others⟩ := List.forall_mem_cons.mp members
      obtain ⟨fresh, distinctRest⟩ := List.nodup_cons.mp nodup
      rw [List.foldlM_cons, removeNodeChecked_eq degrees distinct keys first, Option.bind_eq_bind,
        Option.bind_some, List.foldl_cons]
      refine ih (degrees.remove distinct first)
        (fun other member => keys other (List.mem_of_mem_filter member)) (fun other member => ?_)
        distinctRest
      refine List.mem_filter.mpr ⟨others other member, decide_eq_true ?_⟩
      rintro rfl
      exact fresh member

theorem whileRemaining_nil (turns : Nat) (taken : List (List String)) :
    whileRemaining iteration nodes (turns + 1) 0 [] taken
      = .returned ((takeLayers iteration nodes turns []).map (taken ++ ·)) := by
  have done : takeLayers iteration nodes turns [] = .ok [] := by cases turns <;> rfl
  rw [done, whileRemaining, if_pos rfl]
  simp [Except.map]

theorem whileRemaining_succ (turns left : Nat) (taken : List (List String)) :
    whileRemaining iteration nodes (turns + 1) left indegree taken =
      if left = 0 then .returned (.ok taken)
      else if (freeNodes iteration indegree).isEmpty then
        .returned (.error (.invalidInput "cycle detected in workflow graph"))
      else match (freeNodes iteration indegree).foldlM (removeNodeChecked nodes) indegree,
          subtract left (freeNodes iteration indegree).length with
        | some next, some rest =>
            whileRemaining iteration nodes turns rest next (taken ++ [freeNodes iteration indegree])
        | _, _ => .underflow := rfl

theorem whileRemaining_eq (degrees : Degrees nodes remaining indegree)
    (distinct : (nodes.map NodeRequest.key).Nodup) (nodup : remaining.Nodup)
    (keys : ∀ name ∈ remaining, name ∈ nodes.map NodeRequest.key) {turns : Nat}
    (enough : remaining.length ≤ turns) (taken : List (List String)) :
    whileRemaining iteration nodes (turns + 1) remaining.length indegree taken
      = .returned ((takeLayers iteration nodes turns indegree).map (taken ++ ·)) := by
  rw [← length_remaining degrees]
  induction turns generalizing remaining indegree taken with
  | zero =>
      obtain rfl := List.length_eq_zero_iff.mp
        ((length_remaining degrees).trans (Nat.le_zero.mp enough))
      exact whileRemaining_nil 0 taken
  | succ turns ih =>
      by_cases nonempty : indegree = []
      · rw [nonempty]
        exact whileRemaining_nil (turns + 1) taken
      have counted : indegree.length ≠ 0 := by simpa using nonempty
      have free : FreeLayer nodes remaining (freeNodes iteration indegree) :=
        degrees.freeLayer iteration nodup
      have fewer := length_without free nodup
      have same := length_remaining degrees
      have degreesRest := degrees.removeAll distinct free.members free.nodup
      have keysRest : ∀ name ∈ remaining.filter (· ∉ freeNodes iteration indegree),
          name ∈ nodes.map NodeRequest.key := fun name member =>
        keys name (List.mem_of_mem_filter member)
      rw [whileRemaining_succ, if_neg counted, takeLayers_succ nonempty]
      by_cases empty : (freeNodes iteration indegree).isEmpty
      · rw [if_pos empty, if_pos empty]
        rfl
      · rw [if_neg empty, if_neg empty]
        have some : 0 < (freeNodes iteration indegree).length := by
          rw [List.length_pos_iff]
          simpa using empty
        have removed := foldlM_removeNodeChecked degrees distinct keys free.members free.nodup
        have left : subtract indegree.length (freeNodes iteration indegree).length
            = .some ((freeNodes iteration indegree).foldl (removeNode nodes) indegree).length := by
          rw [subtract, if_pos (by omega), length_remaining degreesRest]
          congr 1
          omega
        have goes := ih degreesRest (nodup.filter _) keysRest (by omega)
          (taken ++ [freeNodes iteration indegree])
        rw [removed, left]
        refine goes.trans ?_
        cases takeLayers iteration nodes turns
          ((freeNodes iteration indegree).foldl (removeNode nodes) indegree) with
        | error err => rfl
        | ok rest => simp [Except.map]

end Layers

section Main

variable {iteration : Iteration} {nodes : List NodeRequest}

theorem collectNames_eq {seen : List String} (named : ∀ node ∈ nodes, node.name.isSome)
    (distinct : (seen ++ nodes.map NodeRequest.key).Nodup) :
    collectNames nodes seen = .ok (seen ++ nodes.map NodeRequest.key) := by
  induction nodes generalizing seen with
  | nil => rw [collectNames, List.map_nil, List.append_nil]
  | cons node rest ih =>
      obtain ⟨first, others⟩ := List.forall_mem_cons.mp named
      obtain ⟨name, isName⟩ := Option.isSome_iff_exists.mp first
      have key : node.key = name := by
        rw [NodeRequest.key, isName]
        rfl
      have apart : seen ++ (node :: rest).map NodeRequest.key
          = (seen ++ [name]) ++ rest.map NodeRequest.key := by
        rw [List.map_cons, key, List.append_assoc, List.singleton_append]
      rw [apart] at distinct ⊢
      have fresh : name ∉ seen := by
        have pair := (List.nodup_append.mp distinct).1
        intro member
        exact (List.nodup_append.mp pair).2.2 name member name (List.mem_singleton_self name) rfl
      rw [collectNames, isName]
      dsimp only
      rw [if_neg fresh, ih others distinct]

theorem checkAll_eq {names : List String}
    (known : ∀ node ∈ nodes, ∀ dep ∈ node.dependsOn, dep ∈ names) :
    nodes.forM (checkDependencies names) = .ok () := by
  induction nodes with
  | nil => rfl
  | cons node rest ih =>
      obtain ⟨first, others⟩ := List.forall_mem_cons.mp known
      have none : node.dependsOn.find? (fun dep => dep ∉ names) = none :=
        List.find?_eq_none.mpr fun dep listed => by simpa using first dep listed
      have passes : checkDependencies names node = .ok () := by rw [checkDependencies, none]
      exact bind_eq_ok.mpr ⟨(), passes, ih others⟩

theorem Valid.accepted (valid : Valid nodes) :
    ∃ layers, validateDag iteration nodes = .ok layers := by
  obtain ⟨nonempty, named, distinct, known, acyclic⟩ := valid
  have degrees := degrees_start distinct known
  obtain ⟨layers, taken⟩ := taken_of_acyclic iteration acyclic degrees distinct distinct
    (fun _ member => member) (Nat.le_of_eq (length_remaining degrees).symm)
  refine ⟨layers, ?_⟩
  have collected : collectNames nodes [] = .ok ([] ++ nodes.map NodeRequest.key) :=
    collectNames_eq named distinct
  rw [List.nil_append] at collected
  rw [validateDag, if_neg (by simpa using nonempty)]
  exact bind_eq_ok.mpr ⟨_, collected, bind_eq_ok.mpr ⟨(), checkAll_eq known, taken⟩⟩

theorem layered_of_accepted {layers : List (List String)}
    (accepted : validateDag iteration nodes = .ok layers) :
    Library.Layering.Layered (Depends nodes) layers := by
  obtain ⟨_, distinct, _, known, taken⟩ := validateDag_cases accepted
  have degrees := degrees_start distinct known
  refine ⟨?_, ?_⟩
  · intro k name at_ dep depends
    obtain ⟨_, _, layered⟩ := validateDag_ok accepted
    exact (earlier_of_layered layered at_ depends).resolve_left (by simp)
  · intro k name at_
    exact tight_of_taken degrees distinct distinct (fun _ member => member) taken at_

theorem at_iff_flatten {layers : List (List String)} {name : String} :
    name ∈ layers.flatten ↔ ∃ k, At layers k name := by
  rw [List.mem_flatten]
  constructor
  · rintro ⟨layer, listed, member⟩
    obtain ⟨k, found⟩ := List.mem_iff_getElem?.mp listed
    exact ⟨k, layer, found, member⟩
  · rintro ⟨k, layer, found, member⟩
    exact ⟨layer, List.mem_of_getElem? found, member⟩

theorem sorted_of_accepted {layers : List (List String)}
    (accepted : validateDag iteration nodes = .ok layers) : Sorted nodes layers := by
  have layered := layered_of_accepted accepted
  obtain ⟨_, once, _⟩ := validateDag_ok accepted
  refine ⟨once, layered.earlier, fun k name at_ => layered.longest (fun k name at_ => ?_) at_⟩
  exact once.mem_iff.mp (at_iff_flatten.mpr ⟨k, at_⟩)

theorem valid_of_accepted {layers : List (List String)}
    (accepted : validateDag iteration nodes = .ok layers) : Valid nodes := by
  obtain ⟨nonempty, distinct, named, known, _⟩ := validateDag_cases accepted
  obtain ⟨_, once, _⟩ := validateDag_ok accepted
  have acyclic := (layered_of_accepted accepted).acyclic fun dep name depends => by
    obtain ⟨node, there, rfl, _⟩ := depends
    exact at_iff_flatten.mp (once.mem_iff.mpr (List.mem_map_of_mem there))
  exact ⟨nonempty, fun node there => by simp [named node there], distinct, known, acyclic⟩

theorem validateDagChecked_eq {turns : Nat} (enough : nodes.length < turns) :
    validateDagChecked iteration nodes turns = .returned (validateDag iteration nodes) := by
  rw [validateDagChecked, validateDag]
  by_cases empty : nodes.isEmpty
  · rw [if_pos empty, if_pos empty]
  rw [if_neg empty, if_neg empty]
  cases collected : collectNames nodes [] with
  | error err => rfl
  | ok names =>
      obtain ⟨rfl, distinct, _⟩ := collectNames_ok List.nodup_nil collected
      rw [List.nil_append] at distinct ⊢
      simp only [bind, Except.bind]
      cases checked : nodes.forM (checkDependencies (nodes.map NodeRequest.key)) with
      | error err => rfl
      | ok done =>
          have degrees := degrees_start distinct (checkAll_ok checked)
          generalize (nodes.map fun node => (node.key, node.dependsOn.length)) = indegree at degrees
          have counted := length_remaining degrees
          rw [List.length_map] at counted
          obtain ⟨more, rfl⟩ := Nat.exists_eq_add_of_lt enough
          have bound : (nodes.map NodeRequest.key).length ≤ nodes.length + more := by simp
          have looped : whileRemaining iteration nodes _ _ _ [] = _ :=
            whileRemaining_eq degrees distinct distinct (fun _ member => member) bound []
          have fuel : takeLayers iteration nodes (nodes.length + more) indegree = _ :=
            takeLayers_fuel (Nat.le_of_eq counted) more
          rw [List.length_map, fuel] at looped
          dsimp only
          rw [counted, looped]
          cases takeLayers iteration nodes nodes.length indegree with
          | error err => rfl
          | ok layers => rfl

/-- What is accepted, what is returned then, and that the loop ends without a panic. -/
theorem validateDag_spec (iteration : Iteration) (nodes : List NodeRequest) :
    ((∃ layers, validateDag iteration nodes = .ok layers) ↔ Valid nodes)
      ∧ (∀ layers, validateDag iteration nodes = .ok layers → Sorted nodes layers)
      ∧ ∀ turns > nodes.length,
        validateDagChecked iteration nodes turns = .returned (validateDag iteration nodes) :=
  ⟨⟨fun ⟨_, accepted⟩ => valid_of_accepted accepted, Valid.accepted⟩,
    fun _ => sorted_of_accepted, fun _ enough => validateDagChecked_eq enough⟩

/-- The empty text is a name. -/
theorem empty_name_accepted : ¬ ∀ iteration nodes,
    (∃ layers, validateDag iteration nodes = .ok layers)
      ↔ Valid nodes ∧ ∀ node ∈ nodes, node.name ≠ some "" := by
  intro claimed
  have accepted : validateDag ⟨id, fun _ => .refl _⟩ [⟨some "", []⟩] = .ok [[""]] := by decide
  obtain ⟨_, named⟩ := (claimed _ _).mp ⟨_, accepted⟩
  exact named ⟨some "", []⟩ (List.mem_singleton_self _) rfl

end Main

end Forge.DagValidation
