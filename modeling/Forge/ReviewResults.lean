import Forge.ReviewSignals
import Forge.WorkflowOutcome

/-! The statuses that a run holds for its human reviews: only signals bring them in, and no node is
skipped. -/

namespace Forge.ReviewResults

open Forge.Library.StateMachine
open Forge.WorkflowOutcome
open Forge.WorkflowRun

def verdict : Phase → Option NodeStatus
  | .decided decision => some decision.status
  | .done status => some status
  | _ => none

/-- The run has a status for a review: in a decision that waits for it, in its future, or among the
results of the layers before. -/
def RunVerdict (run : Run) (node : WorkflowNode) (status : NodeStatus) : Prop :=
  (∃ entry ∈ run.pendingReviews, entry.1 = node.id ∧ entry.2.status = status) ∨
    (∃ future ∈ run.futures, future.node = node ∧ verdict future.phase = some status) ∨
    (run.status node.name = status ∧ (status = .completed ∨ status = .failed))

def Typed (graph : Graph) (run : Run) : Prop :=
  ∀ future ∈ run.futures, future.node ∈ graph.nodes ∧
    (future.phase = .working → future.node.nodeType ≠ .humanReview)

def Shrinks (graph : Graph) (before after : Run) : Prop :=
  ∀ node ∈ graph.nodes, node.nodeType = .humanReview → ∀ status,
    RunVerdict after node status → RunVerdict before node status

section Runs

variable {graph : Graph} {run : Run}

theorem Shrinks.refl (run : Run) : Shrinks graph run run :=
  fun _ _ _ _ hverdict => hverdict

theorem Shrinks.trans {before middle after : Run} (first : Shrinks graph before middle)
    (second : Shrinks graph middle after) : Shrinks graph before after :=
  fun node hnode hreview status hverdict =>
    first node hnode hreview status (second node hnode hreview status hverdict)

theorem mem_of_lookup {entries : List (String × Decision)} {key : String} {decision : Decision}
    (hlookup : entries.lookup key = some decision) : (key, decision) ∈ entries := by
  induction entries with
  | nil => exact absurd hlookup nofun
  | cons entry rest ih =>
      obtain ⟨other, value⟩ := entry
      rw [List.lookup_cons] at hlookup
      split at hlookup
      case h_1 hsame =>
          rw [beq_iff_eq] at hsame
          obtain rfl := Option.some.inj hlookup
          rw [hsame]
          exact List.mem_cons_self
      case h_2 => exact List.mem_cons_of_mem _ (ih hlookup)

theorem typed_poll {node : WorkflowNode} {depResults : List (String × NodeStatus)}
    (typed : Typed graph run) (hnode : node ∈ graph.nodes) :
    Typed graph (run.poll node depResults) := by
  have hadded : ∀ phase, (phase = .working → node.nodeType ≠ .humanReview) →
      ∀ future ∈ run.futures ++ [(⟨node, depResults, phase⟩ : NodeFuture)],
        future.node ∈ graph.nodes ∧
          (future.phase = .working → future.node.nodeType ≠ .humanReview) := by
    intro phase hphase future hmem
    rcases List.mem_append.mp hmem with hbefore | hnew
    · exact typed future hbefore
    · rw [List.mem_singleton.mp hnew]
      exact ⟨hnode, hphase⟩
  unfold Run.poll
  split
  case h_1 htype => exact hadded .working fun _ => by rw [htype]; nofun
  case h_2 htype => exact hadded .working fun _ => by rw [htype]; nofun
  case h_3 htype =>
      dsimp only
      split
      case h_1 decision hlookup => exact hadded (.decided decision) nofun
      case h_2 => exact hadded .reviewing nofun

theorem shrinks_poll (node : WorkflowNode) (depResults : List (String × NodeStatus)) :
    Shrinks graph run (run.poll node depResults) := by
  intro wanted hwanted hreview status
  have hidle : ∀ phase, verdict phase = none →
      (∃ future ∈ run.futures ++ [(⟨node, depResults, phase⟩ : NodeFuture)],
        future.node = wanted ∧ verdict future.phase = some status) →
      ∃ future ∈ run.futures, future.node = wanted ∧ verdict future.phase = some status := by
    rintro phase hphase ⟨future, hmem, hfuture, hstatus⟩
    rcases List.mem_append.mp hmem with hbefore | hnew
    · exact ⟨future, hbefore, hfuture, hstatus⟩
    · rw [List.mem_singleton.mp hnew, hphase] at hstatus
      exact absurd hstatus nofun
  unfold Run.poll
  split
  case h_1 =>
      rintro (hpending | hfuture | hsettled)
      · exact .inl hpending
      · exact .inr (.inl (hidle .working rfl hfuture))
      · exact .inr (.inr hsettled)
  case h_2 =>
      rintro (hpending | hfuture | hsettled)
      · exact .inl hpending
      · exact .inr (.inl (hidle .working rfl hfuture))
      · exact .inr (.inr hsettled)
  case h_3 =>
      dsimp only
      split
      case h_1 decision hlookup =>
          rintro (⟨entry, hmem, hentry⟩ | ⟨future, hmem, hfuture, hstatus⟩ | hsettled)
          · exact .inl ⟨entry, List.mem_of_mem_filter hmem, hentry⟩
          · rcases List.mem_append.mp hmem with hbefore | hnew
            · exact .inr (.inl ⟨future, hbefore, hfuture, hstatus⟩)
            · rw [List.mem_singleton.mp hnew] at hfuture hstatus
              exact .inl ⟨_, mem_of_lookup hlookup, congrArg WorkflowNode.id hfuture,
                Option.some.inj hstatus⟩
          · exact .inr (.inr hsettled)
      case h_2 =>
          rintro (hpending | hfuture | hsettled)
          · exact .inl hpending
          · exact .inr (.inl (hidle .reviewing rfl hfuture))
          · exact .inr (.inr hsettled)

theorem shrinks_skip (name : String) :
    Shrinks graph run { run with status := Function.update run.status name .skipped } := by
  rintro node hnode hreview status (hpending | hfuture | ⟨hstatus, hended⟩)
  · exact .inl hpending
  · exact .inr (.inl hfuture)
  · by_cases hsame : node.name = name
    · rw [hsame] at hstatus
      simp only [Function.update_self] at hstatus
      subst hstatus
      rcases hended with hended | hended
      · exact absurd hended nofun
      · exact absurd hended nofun
    · simp only [Function.update_of_ne hsame] at hstatus
      exact .inr (.inr ⟨hstatus, hended⟩)

theorem beginNode_keeps (graph : Graph) (run : Run) (name : String) :
    (Typed graph run → Typed graph (beginNode graph run name)) ∧
      Shrinks graph run (beginNode graph run name) := by
  unfold beginNode
  split
  case h_1 => exact ⟨id, Shrinks.refl run⟩
  case h_2 node hfound =>
      dsimp only
      split_ifs
      · exact ⟨id, shrinks_skip node.name⟩
      · exact ⟨fun typed => typed_poll typed (List.mem_of_find?_eq_some hfound),
          shrinks_poll node _⟩

theorem foldl_beginNode_keeps (graph : Graph) (run : Run) (layer : List String) :
    (Typed graph run → Typed graph (layer.foldl (beginNode graph) run)) ∧
      Shrinks graph run (layer.foldl (beginNode graph) run) := by
  induction layer generalizing run with
  | nil => exact ⟨id, Shrinks.refl run⟩
  | cons name rest ih =>
      obtain ⟨htyped, hshrinks⟩ := beginNode_keeps graph run name
      obtain ⟨hrest, hothers⟩ := ih (beginNode graph run name)
      exact ⟨fun typed => hrest (htyped typed), hshrinks.trans hothers⟩

theorem settle_cases {futures : List NodeFuture} {before after : String → NodeStatus}
    (hsettled : settle futures before = some after) (name : String) :
    (∃ future ∈ futures, future.node.name = name ∧ future.phase = .done (after name)) ∨
      after name = before name := by
  induction futures generalizing before with
  | nil =>
      obtain rfl := Option.some.inj hsettled
      exact .inr rfl
  | cons future rest ih =>
      cases hphase : future.phase with
      | done result =>
          simp only [settle, hphase] at hsettled
          rcases ih hsettled with ⟨later, hmem, hfuture⟩ | hsame
          · exact .inl ⟨later, List.mem_cons_of_mem _ hmem, hfuture⟩
          · by_cases hname : future.node.name = name
            · rw [hname, Function.update_self] at hsame
              exact .inl ⟨future, List.mem_cons_self, hname, hphase.trans (by rw [hsame])⟩
            · rw [Function.update_of_ne (Ne.symm hname)] at hsame
              exact .inr hsame
      | working => simp [settle, hphase] at hsettled
      | reviewing => simp [settle, hphase] at hsettled
      | decided decision => simp [settle, hphase] at hsettled
      | error => simp [settle, hphase] at hsettled

theorem proceed_keeps (graph : Graph) (run : Run) (layers : List (List String)) :
    (Typed graph run → Typed graph (proceed graph layers run)) ∧
      Shrinks graph run (proceed graph layers run) := by
  induction layers generalizing run with
  | nil => exact ⟨id, Shrinks.refl run⟩
  | cons layer rest ih =>
      obtain ⟨htyped, hshrinks⟩ :=
        foldl_beginNode_keeps graph { run with stage := .running rest } layer
      rw [proceed]
      split_ifs
      · exact ⟨htyped, hshrinks⟩
      · obtain ⟨hrest, hothers⟩ :=
          ih (layer.foldl (beginNode graph) { run with stage := .running rest })
        exact ⟨fun typed => hrest (htyped typed), hshrinks.trans hothers⟩
      · exact ⟨htyped, hshrinks⟩

theorem shrinks_settled {status : String → NodeStatus} (distinct : (names graph).Nodup)
    (typed : Typed graph run) (hsettled : settle run.futures run.status = some status) :
    Shrinks graph run { run with status, futures := [] } := by
  rintro node hnode hreview wanted (hpending | ⟨future, hmem, -⟩ | ⟨hstatus, hended⟩)
  · exact .inl hpending
  · cases hmem
  · rcases settle_cases hsettled node.name with ⟨future, hmem, hname, hphase⟩ | hsame
    · have hfuture : future.node = node :=
        List.inj_on_of_nodup_map distinct (typed future hmem).1 hnode hname
      have hverdict : verdict future.phase = some wanted := by
        rw [hphase]
        exact congrArg some hstatus
      exact .inr (.inl ⟨future, hmem, hfuture, hverdict⟩)
    · exact .inr (.inr ⟨hsame.symm.trans hstatus, hended⟩)

theorem advance_keeps (distinct : (names graph).Nodup) (typed : Typed graph run) :
    Typed graph (run.advance graph) ∧ Shrinks graph run (run.advance graph) := by
  rw [Run.advance]
  split
  case h_2 => exact ⟨typed, Shrinks.refl run⟩
  case h_1 layers hstage =>
      split_ifs
      · cases hsettled : settle run.futures run.status with
        | none => exact ⟨typed, Shrinks.refl run⟩
        | some status =>
            have hshrinks := shrinks_settled distinct typed hsettled
            have hempty : Typed graph { run with status, futures := [] } := by rintro _ ⟨⟩
            dsimp only
            split_ifs
            · exact ⟨hempty, hshrinks⟩
            · obtain ⟨hrest, hothers⟩ := proceed_keeps graph
                { run with status, futures := [] } layers
              exact ⟨hrest hempty, hshrinks.trans hothers⟩
      · exact ⟨typed, Shrinks.refl run⟩

theorem verdict_resolve {future : NodeFuture} {success : Bool} {status : NodeStatus}
    (hwork : future.phase = .working → future.node.nodeType ≠ .humanReview)
    (hreview : future.node.nodeType = .humanReview)
    (hverdict : verdict (future.resolve success).phase = some status) :
    verdict future.phase = some status := by
  cases hphase : future.phase with
  | working => exact absurd hreview (hwork hphase)
  | reviewing =>
      simp only [NodeFuture.resolve, hphase] at hverdict
      cases hverdict
  | decided decision =>
      simp only [NodeFuture.resolve, hphase] at hverdict
      exact hverdict
  | done result =>
      simp only [NodeFuture.resolve, hphase] at hverdict
      exact hverdict
  | error =>
      simp only [NodeFuture.resolve, hphase] at hverdict
      cases hverdict

theorem working_resolve {future : NodeFuture} {success : Bool}
    (hphase : (future.resolve success).phase = .working) : False := by
  cases hbefore : future.phase with
  | working => simp [NodeFuture.resolve, hbefore] at hphase
  | reviewing => simp [NodeFuture.resolve, hbefore] at hphase
  | decided decision => simp [NodeFuture.resolve, hbefore] at hphase
  | done result => simp [NodeFuture.resolve, hbefore] at hphase
  | error => simp [NodeFuture.resolve, hbefore] at hphase

theorem activity_keeps (typed : Typed graph run) (name : String) (success : Bool) :
    let after := { run with
      futures := run.futures.map fun future =>
        if future.node.name = name then future.resolve success else future }
    Typed graph after ∧ Shrinks graph run after := by
  refine ⟨fun future hmem => ?_, fun node hnode hreview status => ?_⟩
  · obtain ⟨old, hold, rfl⟩ := List.mem_map.mp hmem
    split_ifs with hname
    · rw [node_resolve]
      exact ⟨(typed old hold).1, fun hphase => (working_resolve hphase).elim⟩
    · exact typed old hold
  · rintro (hpending | ⟨future, hmem, hfuture, hverdict⟩ | hsettled)
    · exact .inl hpending
    · obtain ⟨old, hold, rfl⟩ := List.mem_map.mp hmem
      refine .inr (.inl ⟨old, hold, ?_⟩)
      split_ifs at hfuture hverdict with hname
      · rw [node_resolve] at hfuture
        subst hfuture
        exact ⟨rfl, verdict_resolve (typed old hold).2 hreview hverdict⟩
      · exact ⟨hfuture, hverdict⟩
    · exact .inr (.inr hsettled)

theorem exec_keeps (distinct : (names graph).Nodup) (typed : Typed graph run) {event : Event}
    (hevent : ∀ nodeId decision, event ≠ .signal nodeId decision) :
    Typed graph (WorkflowRun.exec graph run event) ∧
      Shrinks graph run (WorkflowRun.exec graph run event) := by
  cases event with
  | activity name success =>
      rw [WorkflowRun.exec]
      split
      case h_1 =>
          obtain ⟨hactive, hshrinks⟩ := activity_keeps typed name success
          obtain ⟨hadvanced, hothers⟩ := advance_keeps distinct hactive
          exact ⟨hadvanced, hshrinks.trans hothers⟩
      case h_2 => exact ⟨typed, Shrinks.refl run⟩
  | signal nodeId decision => exact absurd rfl (hevent nodeId decision)
  | finalizeWrite =>
      rw [WorkflowRun.exec]
      split
      · exact ⟨typed, Shrinks.refl run⟩
      · exact ⟨typed, Shrinks.refl run⟩
  | finalizeEnd success =>
      rw [WorkflowRun.exec]
      split
      · split_ifs
        · exact ⟨typed, Shrinks.refl run⟩
        · exact ⟨typed, Shrinks.refl run⟩
      · exact ⟨typed, Shrinks.refl run⟩
  | startWrite =>
      rw [WorkflowRun.exec]
      split_ifs
      · exact ⟨typed, Shrinks.refl run⟩
      · exact ⟨typed, Shrinks.refl run⟩

theorem signal_brings (graph : Graph) (run : Run) (nodeId : String) (decision : Decision) :
    (Typed graph run → Typed graph (run.signal nodeId decision)) ∧
      ∀ node status, RunVerdict (run.signal nodeId decision) node status →
        RunVerdict run node status ∨ (nodeId = node.id ∧ decision.status = status) := by
  unfold Run.signal
  split
  case isTrue =>
      refine ⟨fun typed future hmem => ?_, fun node status => ?_⟩
      · obtain ⟨old, hold, rfl⟩ := List.mem_map.mp hmem
        rw [NodeFuture.decide]
        split_ifs
        · exact ⟨(typed old hold).1, by rintro ⟨⟩⟩
        · exact typed old hold
      · rintro (hpending | ⟨future, hmem, hfuture, hverdict⟩ | hsettled)
        · exact .inl (.inl hpending)
        · obtain ⟨old, hold, rfl⟩ := List.mem_map.mp hmem
          rw [NodeFuture.decide] at hfuture hverdict
          split_ifs at hfuture hverdict with hsame
          · exact .inr ⟨hsame.1.symm.trans (congrArg WorkflowNode.id hfuture),
              Option.some.inj hverdict⟩
          · exact .inl (.inr (.inl ⟨old, hold, hfuture, hverdict⟩))
        · exact .inl (.inr (.inr hsettled))
  case isFalse =>
      refine ⟨id, fun node status => ?_⟩
      rintro (⟨entry, hmem, hentry⟩ | hrest)
      · rcases List.mem_cons.mp hmem with rfl | hbefore
        · exact .inr hentry
        · exact .inl (.inl ⟨entry, List.mem_of_mem_filter hbefore, hentry⟩)
      · exact .inl (.inr hrest)

end Runs

/-- A node is skipped in no run: each result is that of a future, and a layer begins after the
nodes before it are completed. -/
structure Ready (graph : Graph) (run : Run) : Prop where
  calm : ∀ name, run.status name = .pending ∨ run.status name = .completed ∨
    run.status name = .failed
  layer : ∀ layers, run.stage = .running layers → ∃ past current,
    Progress graph past current run ∧
      current = run.futures.map (fun future => future.node.name) ∧
      Ahead graph (past ++ current) layers ∧
      ∀ future ∈ run.futures, future.node ∈ graph.nodes ∧
        ∀ status, future.phase = .done status → status = .completed ∨ status = .failed

section Results

variable {graph : Graph} {run : Run}

theorem Ready.of_good (good : Good graph run)
    (calm : ∀ name, run.status name = .pending ∨ run.status name = .completed ∨
      run.status name = .failed) : Ready graph run := by
  refine ⟨calm, fun layers hstage => ?_⟩
  obtain ⟨past, current, progress, here⟩ := good
  rw [hstage] at here
  obtain ⟨hcurrent, ahead, hsound⟩ := here
  refine ⟨past, current, progress, hcurrent, ahead, fun future hmem => ?_⟩
  refine ⟨(hsound future hmem).1, fun status hphase => ?_⟩
  have hstatus := (hsound future hmem).2
  rw [hphase] at hstatus
  exact hstatus

theorem Ready.of_stage {later : Run} (ready : Ready graph run) (hstatus : later.status = run.status)
    (hstage : ∀ layers, later.stage ≠ .running layers) : Ready graph later := by
  refine ⟨?_, fun layers hlayers => absurd hlayers (hstage layers)⟩
  rw [hstatus]
  exact ready.calm

theorem Ready.futures {change : NodeFuture → NodeFuture} (ready : Ready graph run)
    (hnode : ∀ future, (change future).node = future.node)
    (hdone : ∀ future ∈ run.futures,
      (∀ status, future.phase = .done status → status = .completed ∨ status = .failed) →
      ∀ status, (change future).phase = .done status → status = .completed ∨ status = .failed) :
    Ready graph { run with futures := run.futures.map change } := by
  refine ⟨ready.calm, fun layers hstage => ?_⟩
  obtain ⟨past, current, progress, hcurrent, ahead, hfutures⟩ := ready.layer layers hstage
  refine ⟨past, current, progress.of_same rfl rfl, ?_, ahead, fun future hmem => ?_⟩
  · rw [hcurrent, List.map_map]
    refine List.map_congr_left fun future _ => ?_
    rw [Function.comp_apply, hnode]
  · obtain ⟨old, hold, rfl⟩ := List.mem_map.mp hmem
    rw [hnode]
    exact ⟨(hfutures old hold).1, hdone old hold (hfutures old hold).2⟩

theorem Ready.reviews (ready : Ready graph run) (pendingReviews : List (String × Decision))
    (waitingReviews : List String) : Ready graph { run with pendingReviews, waitingReviews } := by
  refine ⟨ready.calm, fun layers hstage => ?_⟩
  obtain ⟨past, current, progress, hrest⟩ := ready.layer layers hstage
  exact ⟨past, current, progress.of_same rfl rfl, hrest⟩

theorem done_of_settle {futures : List NodeFuture} {before after : String → NodeStatus}
    (hsettled : settle futures before = some after) :
    ∀ future ∈ futures, ∃ status, future.phase = .done status := by
  induction futures generalizing before with
  | nil => exact fun _ => nofun
  | cons future rest ih =>
      cases hphase : future.phase with
      | done result =>
          simp only [settle, hphase] at hsettled
          exact List.forall_mem_cons.mpr ⟨⟨result, hphase⟩, ih hsettled⟩
      | working => simp [settle, hphase] at hsettled
      | reviewing => simp [settle, hphase] at hsettled
      | decided decision => simp [settle, hphase] at hsettled
      | error => simp [settle, hphase] at hsettled

theorem ready_advance (distinct : (names graph).Nodup) (ready : Ready graph run) :
    Ready graph (run.advance graph) := by
  cases hstage : run.stage with
  | finalizing status written =>
      rw [Run.advance, hstage]
      exact ready
  | ended =>
      rw [Run.advance, hstage]
      exact ready
  | running layers =>
      cases hsettled : settle run.futures run.status with
      | none =>
          rw [Run.advance, hstage]
          dsimp only
          rw [hsettled]
          split_ifs
          · exact ready.of_stage rfl (by rintro _ ⟨⟩)
          · exact ready
      | some status =>
          obtain ⟨past, current, progress, hcurrent, ahead, hfutures⟩ := ready.layer layers hstage
          have hsound : ∀ future ∈ run.futures,
              future.node ∈ graph.nodes ∧ Phase.Sound future.phase := by
            intro future hmem
            obtain ⟨result, hphase⟩ := done_of_settle hsettled future hmem
            refine ⟨(hfutures future hmem).1, ?_⟩
            rw [hphase]
            exact (hfutures future hmem).2 result hphase
          have good : Good graph run := by
            refine ⟨past, current, progress, ?_⟩
            rw [hstage]
            exact ⟨hcurrent, ahead, hsound⟩
          obtain ⟨hadvanced, hresults⟩ := good_advance distinct good
          refine Ready.of_good hadvanced fun name => ?_
          rcases hresults name with hsame | hresult
          · rw [hsame]
            exact ready.calm name
          · exact .inr hresult

theorem done_resolve {future : NodeFuture} {success : Bool}
    (hbefore : ∀ status, future.phase = .done status → status = .completed ∨ status = .failed)
    {status : NodeStatus} (hphase : (future.resolve success).phase = .done status) :
    status = .completed ∨ status = .failed := by
  cases hcase : future.phase with
  | working =>
      simp only [NodeFuture.resolve, hcase, Phase.done.injEq] at hphase
      rw [← hphase]
      exact ite_eq_or_eq _ _ _
  | reviewing =>
      simp only [NodeFuture.resolve, hcase] at hphase
      cases hphase
  | decided decision =>
      simp only [NodeFuture.resolve, hcase, Phase.done.injEq] at hphase
      rw [← hphase]
      cases decision with
      | approve => exact .inl rfl
      | reject => exact .inr rfl
  | done result =>
      simp only [NodeFuture.resolve, hcase, Phase.done.injEq] at hphase
      rw [← hphase]
      exact hbefore result hcase
  | error =>
      simp only [NodeFuture.resolve, hcase] at hphase
      cases hphase

theorem ready_signal (ready : Ready graph run) (nodeId : String) (decision : Decision) :
    Ready graph (run.signal nodeId decision) := by
  unfold Run.signal
  split
  case isFalse => exact ready.reviews _ _
  case isTrue =>
      have hchanged : Ready graph
          { run with futures := run.futures.map fun future => future.decide nodeId decision } := by
        refine ready.futures (fun future => ?_) fun future _ hdone status hphase => ?_
        · rw [NodeFuture.decide]
          split_ifs
          · rfl
          · rfl
        · rw [NodeFuture.decide] at hphase
          split_ifs at hphase
          exact hdone status hphase
      exact hchanged.reviews _ _

theorem ready_exec (distinct : (names graph).Nodup) (ready : Ready graph run) (event : Event) :
    Ready graph (WorkflowRun.exec graph run event) := by
  cases event with
  | activity name success =>
      rw [WorkflowRun.exec]
      split
      case h_1 =>
          refine ready_advance distinct (ready.futures (fun future => ?_) ?_)
          · split_ifs
            · exact node_resolve future success
            · rfl
          · intro future _ hdone status hphase
            split_ifs at hphase
            · exact done_resolve hdone hphase
            · exact hdone status hphase
      case h_2 => exact ready
  | signal nodeId decision =>
      rw [WorkflowRun.exec]
      split
      · exact ready
      · exact ready_signal ready nodeId decision
  | finalizeWrite =>
      rw [WorkflowRun.exec]
      split
      · exact ready.of_stage rfl (by rintro _ ⟨⟩)
      · exact ready
  | finalizeEnd success =>
      rw [WorkflowRun.exec]
      split
      · split_ifs
        · exact ready
        · exact ready.of_stage rfl (by rintro _ ⟨⟩)
      · exact ready
  | startWrite =>
      rw [WorkflowRun.exec]
      split_ifs
      · exact ready
      · refine ⟨ready.calm, fun layers hstage => ?_⟩
        obtain ⟨past, current, progress, hrest⟩ := ready.layer layers hstage
        exact ⟨past, current, progress.of_same rfl rfl, hrest⟩

end Results

end Forge.ReviewResults
