import Forge.WorkflowRun

/-! How a run of a workflow ends, and what its nodes wait for. -/

namespace Forge.WorkflowOutcome

open Forge.Library.StateMachine
open Forge.WorkflowDag
open Forge.WorkflowRun

section Outcome

variable (graph : Graph)

def names : List String :=
  graph.nodes.map WorkflowNode.name

def Tells (run : Run) (status : WorkflowStatus) : Prop :=
  (status = .completed ∧ ∀ node ∈ graph.nodes, run.status node.name = .completed)
    ∨ (status = .failed ∧ ∃ node ∈ graph.nodes, run.status node.name ≠ .completed)

/-- Every node is started at most once and after its dependencies, and a run that is over has
left its outcome with the workflow. -/
structure Orderly (run : Run) : Prop where
  once : run.scheduled.Nodup
  ready : ∀ node ∈ graph.nodes, node.name ∈ run.scheduled → ∀ dep ∈ node.dependsOn,
    run.status dep = .completed
  concluded : run.stage = .ended → Tells graph run run.row

/-- The activity of a review does not end before its decision, the finalisation does not fail
before it has written, and `running` is not written after the finalisation. -/
def regular (run : Run) : Event → Prop
  | .activity name _ => ∀ future ∈ run.futures, future.node.name = name → future.phase ≠ .reviewing
  | .signal .. => True
  | .finalizeWrite => True
  | .finalizeEnd success => success = true ∨ ∀ status, run.stage ≠ .finalizing status false
  | .startWrite => run.startWritten = true ∨ (run.stage ≠ .ended
      ∧ ∀ status, run.stage ≠ .finalizing status true)

/-- What is known of the nodes of earlier layers and of the layer that was begun last. -/
structure Progress (past current : List String) (run : Run) : Prop where
  scheduled : run.scheduled = past ++ current
  fresh : (past ++ current).Nodup
  closed : ∀ node ∈ graph.nodes, node.name ∈ past ++ current → ∀ dep ∈ node.dependsOn, dep ∈ past
  completed : ∀ name ∈ past, run.status name = .completed

variable {graph} in
theorem Progress.of_same {past current : List String} {run later : Run}
    (progress : Progress graph past current run) (scheduled : later.scheduled = run.scheduled)
    (status : later.status = run.status) : Progress graph past current later := by
  refine ⟨scheduled.trans progress.scheduled, progress.fresh, progress.closed, ?_⟩
  rw [status]
  exact progress.completed

def Phase.Sound : Phase → Prop
  | .done status => status = .completed ∨ status = .failed
  | .error => False
  | _ => True

/-- The rest of the layers, beside the nodes that were begun. -/
structure Ahead (begun : List String) (layers : List (List String)) : Prop where
  perm : (begun ++ layers.flatten).Perm (names graph)
  layered : Layered (graph.nodes.map WorkflowNode.request) begun layers

def Good (run : Run) : Prop :=
  ∃ past current, Progress graph past current run ∧
    match run.stage with
    | .running layers => current = run.futures.map (fun future => future.node.name)
        ∧ Ahead graph (past ++ current) layers
        ∧ ∀ future ∈ run.futures, future.node ∈ graph.nodes ∧ Phase.Sound future.phase
    | .finalizing status written => (written = true → run.row = status) ∧ Tells graph run status
    | .ended => Tells graph run run.row

variable {graph} {run : Run} {past current : List String}

theorem Good.orderly (good : Good graph run) : Orderly graph run := by
  obtain ⟨past, current, progress, stage⟩ := good
  refine ⟨?_, fun node member begun dep listed => ?_, fun ended => ?_⟩
  · rw [progress.scheduled]
    exact progress.fresh
  · rw [progress.scheduled] at begun
    exact progress.completed dep (progress.closed node member begun dep listed)
  · rw [ended] at stage
    exact stage

section Begin

variable (graph) in
/-- What the beginning of nodes changes. -/
structure Began (before after : Run) (layer : List String) (added : List NodeFuture) : Prop where
  status : after.status = before.status
  row : after.row = before.row
  stage : after.stage = before.stage
  scheduled : after.scheduled = before.scheduled ++ layer
  futures : after.futures = before.futures ++ added
  named : added.map (fun future => future.node.name) = layer
  sound : ∀ future ∈ added, future.node ∈ graph.nodes ∧ Phase.Sound future.phase

theorem began_poll {node : WorkflowNode} (member : node ∈ graph.nodes)
    (depResults : List (String × NodeStatus)) :
    ∃ future, Began graph run (run.poll node depResults) [node.name] [future] := by
  have sound : ∀ phase, Phase.Sound phase → ∀ future ∈ [(⟨node, depResults, phase⟩ : NodeFuture)],
      future.node ∈ graph.nodes ∧ Phase.Sound future.phase := by
    rintro phase holds future listed
    obtain rfl := List.mem_singleton.1 listed
    exact ⟨member, holds⟩
  unfold Run.poll
  split
  · exact ⟨_, rfl, rfl, rfl, rfl, rfl, rfl, sound _ trivial⟩
  · exact ⟨_, rfl, rfl, rfl, rfl, rfl, rfl, sound _ trivial⟩
  · dsimp only
    split
    · exact ⟨_, rfl, rfl, rfl, rfl, rfl, rfl, sound _ trivial⟩
    · exact ⟨_, rfl, rfl, rfl, rfl, rfl, rfl, sound _ trivial⟩

theorem began_node {name : String} (distinct : (names graph).Nodup)
    (ready : ∃ node ∈ graph.nodes, node.name = name
      ∧ ∀ dep ∈ node.dependsOn, run.status dep = .completed) :
    ∃ future, Began graph run (beginNode graph run name) [name] [future] := by
  obtain ⟨node, member, rfl, completed⟩ := ready
  rw [beginNode]
  cases found : graph.nodes.find? fun other => other.name = node.name with
  | none => simpa using List.find?_eq_none.1 found node member
  | some other =>
      have same : other.name = node.name := by simpa using List.find?_some found
      obtain rfl := List.inj_on_of_nodup_map distinct (List.mem_of_find?_eq_some found) member same
      have calm : ((other.dependsOn.dedup.map fun dep => (dep, run.status dep)).any
          fun result => result.2 ≠ .completed) = false := by
        simpa using completed
      simp only [calm, Bool.false_eq_true, if_false]
      exact began_poll member _

theorem began_layer {layer : List String} (distinct : (names graph).Nodup)
    (ready : ∀ name ∈ layer, ∃ node ∈ graph.nodes, node.name = name
      ∧ ∀ dep ∈ node.dependsOn, run.status dep = .completed) :
    ∃ added, Began graph run (layer.foldl (beginNode graph) run) layer added := by
  induction layer generalizing run with
  | nil => exact ⟨[], rfl, rfl, rfl, (List.append_nil _).symm, (List.append_nil _).symm, rfl,
      fun _ => nofun⟩
  | cons name rest ih =>
      obtain ⟨first, others⟩ := List.forall_mem_cons.1 ready
      obtain ⟨future, one⟩ := began_node distinct first
      have later : ∀ name' ∈ rest, ∃ node ∈ graph.nodes, node.name = name'
          ∧ ∀ dep ∈ node.dependsOn, (beginNode graph run name).status dep = .completed := by
        rw [one.status]
        exact others
      obtain ⟨added, more⟩ := ih later
      refine ⟨future :: added, more.status.trans one.status, more.row.trans one.row,
        more.stage.trans one.stage, ?_, ?_, ?_, ?_⟩
      · rw [List.foldl_cons, more.scheduled, one.scheduled, List.append_assoc,
          List.singleton_append]
      · rw [List.foldl_cons, more.futures, one.futures, List.append_assoc, List.singleton_append]
      · rw [List.map_cons, more.named]
        exact congrArg (· :: rest) (List.cons.inj one.named).1
      · exact List.forall_mem_cons.2 ⟨one.sound future (List.mem_singleton_self _), more.sound⟩

end Begin

section Layers

theorem tells_of_anyFailed (failed : run.anyFailed graph = true) : Tells graph run .failed := by
  obtain ⟨node, member, status⟩ := List.any_eq_true.1 failed
  refine .inr ⟨rfl, node, member, ?_⟩
  rw [of_decide_eq_true status]
  nofun

theorem good_proceed {layers : List (List String)} (distinct : (names graph).Nodup)
    (progress : Progress graph past [] run) (ahead : Ahead graph past layers)
    (idle : run.futures = []) :
    Good graph (proceed graph layers run) ∧ (proceed graph layers run).status = run.status := by
  induction layers generalizing past run with
  | nil =>
      refine ⟨⟨past, [], progress.of_same rfl rfl, nofun, .inl ⟨rfl, fun node member => ?_⟩⟩, rfl⟩
      refine progress.completed _ ?_
      have perm := ahead.perm
      rw [List.flatten_nil, List.append_nil] at perm
      exact perm.mem_iff.2 (List.mem_map_of_mem member)
  | cons layer rest ih =>
      obtain ⟨waits, layered⟩ := ahead.layered
      have perm : (past ++ layer ++ rest.flatten).Perm (names graph) := by
        rw [List.append_assoc]
        exact ahead.perm
      have fresh : (past ++ layer).Nodup := (List.nodup_append.1 (perm.nodup_iff.2 distinct)).1
      have ready : ∀ name ∈ layer, ∃ node ∈ graph.nodes, node.name = name
          ∧ ∀ dep ∈ node.dependsOn, run.status dep = .completed := by
        intro name member
        have listed : name ∈ names graph :=
          perm.mem_iff.1 (List.mem_append_left _ (List.mem_append_right _ member))
        obtain ⟨node, there, rfl⟩ := List.mem_map.1 listed
        exact ⟨node, there, rfl, fun dep needed => progress.completed dep
          (waits node.request (List.mem_map_of_mem there) member dep needed)⟩
      have begun : ∃ added, Began graph { run with stage := .running rest }
          (layer.foldl (beginNode graph) { run with stage := .running rest }) layer added :=
        began_layer distinct ready
      rw [proceed]
      generalize layer.foldl (beginNode graph) { run with stage := .running rest } = after at begun
      obtain ⟨added, began⟩ := begun
      have futures : after.futures = added := began.futures.trans (by rw [idle, List.nil_append])
      have now : Progress graph past layer after := by
        refine ⟨?_, fresh, fun node there member dep needed => ?_, fun name member => ?_⟩
        · rw [began.scheduled, progress.scheduled, List.append_nil]
        · rcases List.mem_append.1 member with before | here
          · exact progress.closed node there (List.mem_append_left _ before) dep needed
          · exact waits node.request (List.mem_map_of_mem there) here dep needed
        · rw [began.status]
          exact progress.completed name member
      split
      case isTrue empty =>
          have none : layer = [] := by
            rw [← began.named, ← futures, List.isEmpty_iff.1 empty, List.map_nil]
          split
          case isTrue failed =>
              exact ⟨⟨past, layer, now.of_same rfl rfl, nofun, tells_of_anyFailed failed⟩,
                began.status⟩
          case isFalse =>
              subst none
              rw [List.append_nil] at perm layered
              obtain ⟨good, same⟩ := ih now ⟨perm, layered⟩ (List.isEmpty_iff.1 empty)
              exact ⟨good, same.trans began.status⟩
      case isFalse =>
          refine ⟨⟨past, layer, now, ?_⟩, began.status⟩
          rw [began.stage]
          refine ⟨?_, ⟨perm, layered⟩, ?_⟩
          · rw [futures, began.named]
          · rw [futures]
            exact began.sound

theorem settle_spec {futures : List NodeFuture} (status : String → NodeStatus)
    (distinct : (futures.map fun future => future.node.name).Nodup)
    (sound : ∀ future ∈ futures, Phase.Sound future.phase)
    (ready : ∀ future ∈ futures, future.isReady = true) :
    ∃ later, settle futures status = some later
      ∧ (∀ name, name ∉ futures.map (fun future => future.node.name) → later name = status name)
      ∧ ∀ name ∈ futures.map (fun future => future.node.name),
        later name = .completed ∨ later name = .failed := by
  induction futures generalizing status with
  | nil => exact ⟨status, rfl, fun _ _ => rfl, fun _ => nofun⟩
  | cons future rest ih =>
      obtain ⟨fresh, others⟩ := List.nodup_cons.1 distinct
      obtain ⟨first, soundRest⟩ := List.forall_mem_cons.1 sound
      obtain ⟨now, readyRest⟩ := List.forall_mem_cons.1 ready
      rw [settle]
      cases phase : future.phase with
      | done result =>
          obtain ⟨later, settled, same, results⟩ :=
            ih (Function.update status future.node.name result) others soundRest readyRest
          refine ⟨later, settled, fun name absent => ?_, List.forall_mem_cons.2 ⟨?_, results⟩⟩
          · rw [List.map_cons, List.mem_cons, not_or] at absent
            rw [same name absent.2, Function.update_of_ne absent.1]
          · rw [same _ fresh, Function.update_self]
            rw [phase] at first
            exact first
      | error =>
          rw [phase] at first
          exact first.elim
      | working => simp [NodeFuture.isReady, phase] at now
      | reviewing => simp [NodeFuture.isReady, phase] at now
      | decided decision => simp [NodeFuture.isReady, phase] at now

theorem good_advance (distinct : (names graph).Nodup) (good : Good graph run) :
    Good graph (run.advance graph) ∧ ∀ name, (run.advance graph).status name = run.status name
      ∨ (run.advance graph).status name = .completed
      ∨ (run.advance graph).status name = .failed := by
  rw [Run.advance]
  cases stage : run.stage with
  | finalizing status written => exact ⟨good, fun _ => .inl rfl⟩
  | ended => exact ⟨good, fun _ => .inl rfl⟩
  | running layers =>
      dsimp only
      split
      case isFalse => exact ⟨good, fun _ => .inl rfl⟩
      case isTrue ready =>
          obtain ⟨past, current, progress, here⟩ := good
          rw [stage] at here
          obtain ⟨rfl, ahead, sound⟩ := here
          have own := (List.nodup_append.1 progress.fresh).2.1
          obtain ⟨later, settled, same, results⟩ := settle_spec run.status own
            (fun future member => (sound future member).2) (List.all_eq_true.1 ready)
          have kept : ∀ name ∈ past, later name = .completed := by
            intro name member
            rw [same name fun again =>
              (List.nodup_append.1 progress.fresh).2.2 name member name again rfl]
            exact progress.completed name member
          have known : ∀ name, later name = run.status name
              ∨ later name = .completed ∨ later name = .failed := by
            intro name
            by_cases listed : name ∈ run.futures.map fun future => future.node.name
            · exact .inr (results name listed)
            · exact .inl (same name listed)
          rw [settled]
          dsimp only
          split
          case isTrue failed =>
              exact ⟨⟨past, _, ⟨progress.scheduled, progress.fresh, progress.closed, kept⟩, nofun,
                tells_of_anyFailed failed⟩, known⟩
          case isFalse calm =>
              suffices next : Progress graph (past ++ run.futures.map fun future =>
                  future.node.name) []
                  { run with status := later, futures := [], stage := .running layers } by
                obtain ⟨goes, unchanged⟩ := good_proceed distinct next ahead rfl
                refine ⟨goes, ?_⟩
                rw [unchanged]
                exact known
              refine ⟨?_, ?_, ?_, ?_⟩
              · rw [List.append_nil]
                exact progress.scheduled
              · rw [List.append_nil]
                exact progress.fresh
              · intro node there member dep needed
                rw [List.append_nil] at member
                exact List.mem_append_left _ (progress.closed node there member dep needed)
              · intro name member
                rcases List.mem_append.1 member with before | now
                · exact kept name before
                · refine (results name now).resolve_right fun failed => calm ?_
                  obtain ⟨future, listed, rfl⟩ := List.mem_map.1 now
                  exact List.any_eq_true.2
                    ⟨future.node, (sound future listed).1, decide_eq_true failed⟩

end Layers

section Events

theorem sound_resolve {future : NodeFuture} {success : Bool} (sound : Phase.Sound future.phase)
    (calm : future.phase ≠ .reviewing) : Phase.Sound (future.resolve success).phase := by
  rw [NodeFuture.resolve]
  split
  case h_1 => exact ite_eq_or_eq _ _ _
  case h_2 reviewing => exact absurd reviewing calm
  case h_3 decision _ =>
      cases decision
      · exact .inl rfl
      · exact .inr rfl
  case h_4 => exact sound

theorem node_resolve (future : NodeFuture) (success : Bool) :
    (future.resolve success).node = future.node := by
  rw [NodeFuture.resolve]
  split <;> rfl

theorem decide_spec {future : NodeFuture} {nodeId : String} {decision : Decision}
    (sound : Phase.Sound future.phase) :
    (future.decide nodeId decision).node = future.node
      ∧ Phase.Sound (future.decide nodeId decision).phase := by
  rw [NodeFuture.decide]
  split
  · exact ⟨rfl, trivial⟩
  · exact ⟨rfl, sound⟩

theorem Good.futures {change : NodeFuture → NodeFuture} (good : Good graph run)
    (changes : ∀ future ∈ run.futures, Phase.Sound future.phase →
      (change future).node = future.node ∧ Phase.Sound (change future).phase) :
    Good graph { run with futures := run.futures.map change } := by
  obtain ⟨past, current, progress, here⟩ := good
  refine ⟨past, current, progress.of_same rfl rfl, ?_⟩
  dsimp only
  split at here
  case h_1 layers _ =>
      obtain ⟨rfl, ahead, sound⟩ := here
      refine ⟨?_, ahead, fun future member => ?_⟩
      · rw [List.map_map]
        refine List.map_congr_left fun future member => ?_
        rw [Function.comp_apply, (changes future member (sound future member).2).1]
      · obtain ⟨old, there, rfl⟩ := List.mem_map.1 member
        obtain ⟨same, kept⟩ := changes old there (sound old there).2
        exact ⟨same ▸ (sound old there).1, kept⟩
  case h_2 => exact here
  case h_3 => exact here

theorem Good.reviews (good : Good graph run) (pendingReviews : List (String × Decision))
    (waitingReviews : List String) : Good graph { run with pendingReviews, waitingReviews } := by
  obtain ⟨past, current, progress, here⟩ := good
  exact ⟨past, current, progress.of_same rfl rfl, here⟩

theorem good_signal {nodeId : String} {decision : Decision} (good : Good graph run) :
    Good graph (run.signal nodeId decision) := by
  rw [Run.signal]
  split
  case isFalse => exact good.reviews _ _
  case isTrue => exact (good.futures fun future _ sound => decide_spec sound).reviews _ _

theorem good_exec {event : Event} (distinct : (names graph).Nodup) (good : Good graph run)
    (may : regular run event) : Good graph (exec graph run event) := by
  cases event with
  | activity name success =>
      rw [exec]
      split
      case h_1 =>
          refine (good_advance distinct (good.futures fun future member sound => ?_)).1
          split
          case isTrue named =>
              exact ⟨node_resolve _ _, sound_resolve sound (may future member named)⟩
          case isFalse => exact ⟨rfl, sound⟩
      case h_2 => exact good
  | signal nodeId decision =>
      rw [exec]
      split
      · exact good
      · exact good_signal good
  | finalizeWrite =>
      obtain ⟨past, current, progress, here⟩ := good
      rw [exec]
      split
      case h_1 status written stage =>
          rw [stage] at here
          exact ⟨past, current, progress.of_same rfl rfl, fun _ => rfl, here.2⟩
      case h_2 => exact ⟨past, current, progress, here⟩
  | finalizeEnd success =>
      obtain ⟨past, current, progress, here⟩ := good
      rw [exec]
      split
      case h_1 status written stage =>
          split
          case isTrue => exact ⟨past, current, progress, here⟩
          case isFalse ends =>
              rw [stage] at here
              have wrote : written = true := by
                rcases may with rfl | other
                · simpa using ends
                · cases written with
                  | true => rfl
                  | false => exact absurd stage (other status)
              refine ⟨past, current, progress.of_same rfl rfl, ?_⟩
              rw [← here.1 wrote] at here
              exact here.2
      case h_2 => exact ⟨past, current, progress, here⟩
  | startWrite =>
      obtain ⟨past, current, progress, here⟩ := good
      rw [exec]
      split
      case isTrue => exact ⟨past, current, progress, here⟩
      case isFalse fresh =>
          obtain ⟨going, unwritten⟩ := may.resolve_left fresh
          refine ⟨past, current, progress.of_same rfl rfl, ?_⟩
          dsimp only
          split at here
          case h_1 => exact here
          case h_2 status written stage =>
              refine ⟨fun wrote => ?_, here.2⟩
              subst wrote
              exact absurd stage (unwritten status)
          case h_3 stage => exact absurd stage going

end Events


section Runs

variable {iteration : Iteration} {layers : List (List String)} {row : WorkflowStatus}

theorem good_opening (row : WorkflowStatus) (accepted : workflowLayers iteration graph = .ok layers) :
    (names graph).Nodup ∧ Good graph (opening graph layers row) ∧
      (opening graph layers row).status = fun _ => .pending := by
  obtain ⟨distinct, perm, layered⟩ := validateDag_ok accepted
  have keys : (graph.nodes.map WorkflowNode.request).map NodeRequest.key = names graph := by
    rw [List.map_map]
    rfl
  rw [keys] at distinct perm
  exact ⟨distinct,
    good_proceed distinct ⟨rfl, List.nodup_nil, by simp, by simp⟩ ⟨perm, layered⟩ rfl⟩

/-- Every node of an accepted graph is started at most once and after its dependencies, and the
workflow of a run that is over is completed, exactly when all nodes are, or failed. -/
theorem run_outcome (accepted : workflowLayers iteration graph = .ok layers)
    (reached : Reachable (exec graph) (· = opening graph layers row) regular run) :
    Orderly graph run := by
  obtain ⟨distinct, good, -⟩ := good_opening row accepted
  have kept : Good graph run := by
    refine reached.invariant ?_ fun _ _ kept may => good_exec distinct kept may
    rintro _ rfl
    exact good
  exact kept.orderly

end Runs

end Outcome

namespace Sample

def iteration : Iteration := ⟨id, fun _ => .refl _⟩

def graph : Graph where
  nodes := [⟨"1", "build", .agentTask, [], none⟩, ⟨"2", "approve", .humanReview, ["build"], none⟩,
    ⟨"3", "release", .gate, ["approve"], some "any_success"⟩]
  distinct := by decide

def layers : List (List String) :=
  [["build"], ["approve"], ["release"]]

theorem accepted : workflowLayers iteration graph = .ok layers := by
  decide +kernel

def events : List Event :=
  [.startWrite, .activity "build" true, .signal "2" .approve, .activity "approve" false,
    .activity "release" true, .finalizeWrite, .finalizeEnd true]

def finished : Run :=
  run (exec graph) (opening graph layers .draft) events

theorem reached :
    Reachable (exec graph) (· = opening graph layers .draft) regular finished := by
  refine reachable_run rfl ⟨.inr ⟨nofun, fun _ => nofun⟩, ?_, trivial, ?_, ?_, trivial, .inl rfl,
    trivial⟩
  · show ∀ future ∈ Run.futures _, future.node.name = "build" → future.phase ≠ .reviewing
    decide +kernel
  · show ∀ future ∈ Run.futures _, future.node.name = "approve" → future.phase ≠ .reviewing
    decide +kernel
  · show ∀ future ∈ Run.futures _, future.node.name = "release" → future.phase ≠ .reviewing
    decide +kernel

def lost : Run :=
  run (exec graph) (opening graph layers .draft)
    [.startWrite, .activity "build" true, .activity "approve" false]

end Sample

open Sample in
theorem run_outcome_finished : finished.row = .completed ∧ Orderly graph finished :=
  ⟨by decide +kernel, run_outcome accepted reached⟩

open Sample in
/-- A review whose activity fails ends the run and leaves the workflow running. -/
theorem review_leaves_running :
    ¬ ∀ run, Reachable (exec graph) (· = opening graph layers .draft) (fun _ _ => True) run →
      Orderly graph run := by
  intro orderly
  have reached : Reachable (exec graph) (· = opening graph layers .draft) (fun _ _ => True) lost :=
    reachable_run rfl ⟨trivial, trivial, trivial, trivial⟩
  have ended : lost.stage = .ended := by decide +kernel
  have running : lost.row = .running := by decide +kernel
  rcases (orderly lost reached).concluded ended with ⟨completed, -⟩ | ⟨failed, -⟩
  · cases running.symm.trans completed
  · cases running.symm.trans failed

end Forge.WorkflowOutcome
