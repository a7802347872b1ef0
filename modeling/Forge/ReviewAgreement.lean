import Forge.ReviewResults

/-! The row of a human review and the outcome that its run uses, over runs with requests that
signal decisions. -/

namespace Forge.ReviewAgreement

open Forge.Library.StateMachine
open Forge.ReviewSignals
open Forge.ReviewResults
open Forge.WorkflowDag
open Forge.WorkflowOutcome
open Forge.WorkflowRun

def isSent (request : SignalRequest) : Bool :=
  match request.step with
  | .signalled _ => true
  | .written _ => true
  | _ => false

def Sent (request : SignalRequest) (nodeId : String) (status : NodeStatus) : Prop :=
  request.nodeId = some nodeId ∧ request.decision.map Decision.status = some status ∧
    isSent request = true

def Verdict (world : World) (node : WorkflowNode) (status : NodeStatus) : Prop :=
  (∃ entry ∈ world.inbox, entry.1 = node.id ∧ entry.2.status = status) ∨
    RunVerdict world.run node status

section Agreement

variable (graph : Graph)

/-- The row of a review holds the result of a run that is over, and the request that changes a row
has signalled a review that awaited. -/
structure Agrees (world : World) : Prop where
  concluded : world.run.stage = .ended → ∀ node ∈ graph.nodes, node.nodeType = .humanReview →
    world.run.status node.name ≠ .pending → world.rows node.id = world.run.status node.name
  awaited : ∀ i outcome, (world.exec graph (.step i outcome)).rows ≠ world.rows →
    ∃ request, world.requests[i]? = some request ∧ request.step = .signalled true

/-- The decision is the first for a review that awaits and whose activity has begun, or repeats one
that its row shows. -/
def Fits (world : World) (nodeId : String) (decision : Decision) : Prop :=
  (awaits world.run nodeId = true ∧ nodeId ∈ world.begun ∧
      ∀ request ∈ world.requests, request.nodeId = some nodeId → isSent request = false) ∨
    (world.rows nodeId = decision.status ∧
      ∃ request ∈ world.requests, request.nodeId = some nodeId ∧
        request.decision = some decision ∧ isSent request = true)

/-- A signal that the engine accepts fits and is known to be accepted, and the row of a review that
awaited is written. -/
def StepGuarded (world : World) (request : SignalRequest) (outcome : Outcome) : Prop :=
  match request.step, request.nodeId, request.decision with
  | .checked, some nodeId, some decision =>
      world.run.stage = .ended ∨ outcome = .failed false ∨
        (outcome = .ok ∧ Fits world nodeId decision)
  | .signalled awaited, _, _ => awaited = true → outcome.reached = true
  | _, _, _ => True

/-- The run does not end between a signal and the write of its row. -/
def Guarded (world : World) : Action → Prop
  | .event event => (WorkflowRun.exec graph world.run event).stage = .ended →
      ∀ request ∈ world.requests, request.step ≠ .signalled true
  | .step i outcome => ∀ request ∈ world.requests[i]?, StepGuarded world request outcome
  | _ => True

instance (world : World) (nodeId : String) (decision : Decision) :
    Decidable (Fits world nodeId decision) :=
  inferInstanceAs (Decidable (_ ∨ _))

instance (world : World) (outcome : Outcome) :
    ∀ request, Decidable (StepGuarded world request outcome)
  | ⟨some _, some _, .checked⟩ => inferInstanceAs (Decidable (_ ∨ _ ∨ _))
  | ⟨none, _, .checked⟩ => isTrue trivial
  | ⟨some _, none, .checked⟩ => isTrue trivial
  | ⟨_, _, .signalled _⟩ => inferInstanceAs (Decidable (_ → _))
  | ⟨_, _, .received⟩ => isTrue trivial
  | ⟨_, _, .written _⟩ => isTrue trivial
  | ⟨_, _, .concluded⟩ => isTrue trivial

instance (world : World) : ∀ action, Decidable (Guarded graph world action)
  | .event _ => inferInstanceAs (Decidable (_ → _))
  | .step _ _ => inferInstanceAs (Decidable (∀ request ∈ _, _))
  | .dispatch => isTrue trivial
  | .reviewBegins _ _ => isTrue trivial
  | .otherWrites _ _ => isTrue trivial
  | .request _ _ => isTrue trivial

/-- The signals agree with each other, with the run and, once they are written, with the rows. -/
structure Agreed (world : World) : Prop where
  typed : Typed graph world.run
  ready : Ready graph world.run
  source : ∀ node ∈ graph.nodes, node.nodeType = .humanReview → ∀ status,
    Verdict world node status → ∃ request ∈ world.requests, Sent request node.id status
  sent : ∀ request ∈ world.requests, ∀ nodeId status, Sent request nodeId status →
    nodeId ∈ world.begun ∧ ∃ node ∈ graph.nodes, node.id = nodeId ∧ node.nodeType = .humanReview
  single : ∀ request ∈ world.requests, ∀ other ∈ world.requests, ∀ nodeId status status',
    Sent request nodeId status → Sent other nodeId status' → status = status'
  row : ∀ request ∈ world.requests, ∀ nodeId status, Sent request nodeId status →
    request.step ≠ .signalled true → world.rows nodeId = status
  concluded : world.run.stage = .ended → ∀ request ∈ world.requests, request.step ≠ .signalled true

variable {graph} {world : World}

theorem advance_cases (graph : Graph) (world : World) (i : Nat) (request : SignalRequest)
    (outcome : Outcome) :
    world.advance graph i request outcome = world ∨
      (∃ step, (step = .checked ∨ step = .concluded) ∧ isSent request = false ∧
        world.advance graph i request outcome = world.setStep i request step) ∨
      (∃ nodeId decision, request.step = .checked ∧ request.nodeId = some nodeId ∧
        request.decision = some decision ∧ outcome.reached = true ∧ world.run.stage ≠ .ended ∧
        world.advance graph i request outcome =
          World.setStep { world with inbox := world.inbox ++ [(nodeId, decision)] } i request
            (if outcome = .ok then .signalled (awaits world.run nodeId) else .concluded)) ∨
      ∃ nodeId decision awaited, request.step = .signalled awaited ∧
        request.nodeId = some nodeId ∧ request.decision = some decision ∧
        world.advance graph i request outcome =
          (world.writeRow nodeId decision.status outcome).setStep i request (.written awaited) := by
  obtain ⟨nodeId, decision, step⟩ := request
  cases step with
  | received =>
      refine .inr (.inl ?_)
      rcases nodeId with _ | nodeId
      · exact ⟨.concluded, .inr rfl, rfl, rfl⟩
      rcases decision with _ | decision
      · exact ⟨.concluded, .inr rfl, rfl, rfl⟩
      · exact ⟨_, ite_eq_or_eq _ _ _, rfl, rfl⟩
  | checked =>
      rcases nodeId with _ | nodeId
      · exact .inl rfl
      rcases decision with _ | decision
      · exact .inl rfl
      by_cases haccepted : outcome.reached = true ∧ world.run.stage ≠ .ended
      · refine .inr (.inr (.inl ⟨nodeId, decision, rfl, rfl, rfl, haccepted.1, haccepted.2, ?_⟩))
        simp [World.advance, World.signal, haccepted]
      · refine .inr (.inl ⟨.concluded, .inr rfl, rfl, ?_⟩)
        have hrefused : ¬ (outcome = .ok ∧ world.run.stage ≠ .ended) :=
          fun hok => haccepted ⟨by rw [hok.1]; rfl, hok.2⟩
        simp only [World.advance, World.signal, Bool.and_eq_true, decide_eq_true_eq, if_neg haccepted,
          if_neg hrefused]
  | signalled awaited =>
      rcases nodeId with _ | nodeId
      · exact .inl rfl
      rcases decision with _ | decision
      · exact .inl rfl
      exact .inr (.inr (.inr ⟨nodeId, decision, awaited, rfl, rfl, rfl, rfl⟩))
  | written awaited => exact .inl rfl
  | concluded => exact .inl rfl

theorem Agreed.agrees (agreed : Agreed graph world) : Agrees graph world := by
  constructor
  · intro hended node hnode hreview hstatus
    have hknown := (agreed.ready.calm node.name).resolve_left hstatus
    obtain ⟨request, hrequest, hsent⟩ :=
      agreed.source node hnode hreview _ (.inr (.inr (.inr ⟨rfl, hknown⟩)))
    exact agreed.row request hrequest node.id _ hsent (agreed.concluded hended request hrequest)
  · intro i outcome hchanged
    cases hrequest : world.requests[i]? with
    | none => simp [World.exec, hrequest] at hchanged
    | some request =>
        refine ⟨request, rfl, ?_⟩
        simp only [World.exec, hrequest] at hchanged
        rcases advance_cases graph world i request outcome with
          hsame | ⟨step, -, -, hmoved⟩ | ⟨nodeId, decision, -, -, -, -, -, hsignal⟩ |
            ⟨nodeId, decision, awaited, hstep, hnode, hdecision, hwrite⟩
        · rw [hsame] at hchanged
          exact absurd rfl hchanged
        · rw [hmoved] at hchanged
          exact absurd rfl hchanged
        · rw [hsignal] at hchanged
          exact absurd rfl hchanged
        · by_contra hawaited
          have hsent : Sent request nodeId decision.status := by
            refine ⟨hnode, ?_, ?_⟩
            · rw [hdecision]
              rfl
            · rw [isSent, hstep]
          have hrow := agreed.row request (List.mem_of_getElem? hrequest) _ _ hsent hawaited
          apply hchanged
          rw [hwrite, World.setStep, World.writeRow]
          split_ifs
          · exact hrow ▸ Function.update_eq_self nodeId world.rows
          · rfl

theorem Agreed.ofRun {run : Run} {inbox : List (String × Decision)} (agreed : Agreed graph world)
    (typed : Typed graph run) (ready : Ready graph run)
    (hverdict : ∀ node ∈ graph.nodes, node.nodeType = .humanReview → ∀ status,
      Verdict { world with run, inbox } node status → Verdict world node status)
    (hover : run.stage = .ended → ∀ request ∈ world.requests, request.step ≠ .signalled true) :
    Agreed graph { world with run, inbox } where
  typed
  ready
  source node hnode hreview status h :=
    agreed.source node hnode hreview status (hverdict node hnode hreview status h)
  sent := agreed.sent
  single := agreed.single
  row := agreed.row
  concluded := hover

theorem agreed_event {event : Event} (distinct : (names graph).Nodup) (agreed : Agreed graph world)
    (guarded : Guarded graph world (.event event)) :
    Agreed graph (world.exec graph (.event event)) := by
  have hother : (∀ nodeId decision, event ≠ .signal nodeId decision) → Agreed graph
      { world with run := WorkflowRun.exec graph world.run event } := by
    intro hevent
    obtain ⟨typed, hshrinks⟩ := exec_keeps distinct agreed.typed hevent
    refine agreed.ofRun typed (ready_exec distinct agreed.ready event) ?_ guarded
    rintro node hnode hreview status (hinbox | hrun)
    · exact .inl hinbox
    · exact .inr (hshrinks node hnode hreview status hrun)
  cases event with
  | signal nodeId decision => exact agreed
  | activity name success => exact hother fun _ _ => nofun
  | finalizeWrite => exact hother fun _ _ => nofun
  | finalizeEnd success => exact hother fun _ _ => nofun
  | startWrite => exact hother fun _ _ => nofun

theorem stage_signal (run : Run) (nodeId : String) (decision : Decision) :
    (run.signal nodeId decision).stage = run.stage := by
  unfold Run.signal
  split
  · rfl
  · rfl

theorem agreed_dispatch (agreed : Agreed graph world) :
    Agreed graph (world.exec graph .dispatch) := by
  rw [World.exec]
  split
  case h_2 => exact agreed
  case h_1 nodeId decision inbox hinbox =>
      split_ifs with hended
      · exact agreed
      have hsignal : WorkflowRun.exec graph world.run (.signal nodeId decision) =
          world.run.signal nodeId decision := by
        rw [WorkflowRun.exec]
        split
        case h_1 hstage => exact absurd hstage hended
        case h_2 => rfl
      obtain ⟨htyped, hbrings⟩ :=
        signal_brings graph world.run nodeId decision
      rw [hsignal]
      refine agreed.ofRun (htyped agreed.typed) (ready_signal agreed.ready nodeId decision) ?_ ?_
      · rintro node hnode hreview status (⟨entry, hmem, hentry⟩ | hrun)
        · refine .inl ⟨entry, ?_, hentry⟩
          rw [hinbox]
          exact List.mem_cons_of_mem _ hmem
        · rcases hbrings node status hrun with hbefore | hown
          · exact .inr hbefore
          · refine .inl ⟨(nodeId, decision), ?_, hown⟩
            rw [hinbox]
            exact List.mem_cons_self
      · rw [stage_signal]
        exact fun hstage => absurd hstage hended

theorem Agreed.writeRow {begun : List String} {nodeId : String} (agreed : Agreed graph world)
    (status : NodeStatus) (outcome : Outcome) (hbegun : ∀ id ∈ world.begun, id ∈ begun)
    (hfree : ∀ request ∈ world.requests, ∀ status, ¬ Sent request nodeId status) :
    Agreed graph { world.writeRow nodeId status outcome with begun } := by
  have hrows : ∀ request ∈ world.requests, ∀ id status', Sent request id status' →
      (world.writeRow nodeId status outcome).rows id = world.rows id := by
    intro request hrequest id status' hsent
    rw [World.writeRow]
    split_ifs
    · refine Function.update_of_ne ?_ _ _
      rintro rfl
      exact hfree request hrequest status' hsent
    · rfl
  have hsame : ∃ rows, world.writeRow nodeId status outcome = { world with rows } := by
    rw [World.writeRow]
    split_ifs
    · exact ⟨_, rfl⟩
    · exact ⟨world.rows, rfl⟩
  obtain ⟨rows, hwritten⟩ := hsame
  rw [hwritten] at hrows ⊢
  refine ⟨agreed.typed, agreed.ready, agreed.source, ?_, agreed.single, ?_, agreed.concluded⟩
  · intro request hrequest id status' hsent
    obtain ⟨hmem, hnode⟩ := agreed.sent request hrequest id status' hsent
    exact ⟨hbegun id hmem, hnode⟩
  · intro request hrequest id status' hsent hstep
    exact (hrows request hrequest id status' hsent).trans
      (agreed.row request hrequest id status' hsent hstep)

theorem agreed_reviewBegins (agreed : Agreed graph world) (nodeId : String) (outcome : Outcome) :
    Agreed graph (world.exec graph (.reviewBegins nodeId outcome)) := by
  rw [World.exec]
  split_ifs with hbegins
  · refine agreed.writeRow .running outcome (fun id => List.mem_cons_of_mem _) ?_
    intro request hrequest status hsent
    exact hbegins.1 (agreed.sent request hrequest nodeId status hsent).1
  · exact agreed

theorem agreed_otherWrites (agreed : Agreed graph world) (nodeId : String) (status : NodeStatus) :
    Agreed graph (world.exec graph (.otherWrites nodeId status)) := by
  rw [World.exec]
  split_ifs with hother
  · refine agreed.writeRow status .ok (fun _ hmem => hmem) ?_
    intro request hrequest status' hsent
    obtain ⟨-, review, hreview, hid, htype⟩ := agreed.sent request hrequest nodeId status' hsent
    obtain ⟨node, hnode, hsame, hkind⟩ := hother
    have heq : node = review :=
      List.inj_on_of_nodup_map graph.distinct hnode hreview (hsame.trans hid.symm)
    exact hkind (heq ▸ htype)
  · exact agreed

theorem step_ne_of_unsent {request : SignalRequest} (hunsent : isSent request = false) :
    request.step ≠ .signalled true := by
  intro hstep
  rw [isSent, hstep] at hunsent
  exact absurd hunsent nofun

theorem Agreed.ofRequests {requests : List SignalRequest} (agreed : Agreed graph world)
    (hnew : ∀ request ∈ requests, request ∈ world.requests ∨ isSent request = false)
    (hold : ∀ request ∈ world.requests, isSent request = true → request ∈ requests) :
    Agreed graph { world with requests } := by
  have hsent : ∀ request ∈ requests, ∀ nodeId status, Sent request nodeId status →
      request ∈ world.requests := by
    intro request hrequest nodeId status hsent
    refine (hnew request hrequest).resolve_right fun hunsent => ?_
    rw [hsent.2.2] at hunsent
    exact absurd hunsent nofun
  refine ⟨agreed.typed, agreed.ready, ?_, ?_, ?_, ?_, ?_⟩
  · intro node hnode hreview status hverdict
    obtain ⟨request, hrequest, hown⟩ := agreed.source node hnode hreview status hverdict
    exact ⟨request, hold request hrequest hown.2.2, hown⟩
  · intro request hrequest nodeId status hown
    exact agreed.sent request (hsent request hrequest nodeId status hown) nodeId status hown
  · intro request hrequest other hother nodeId status status' hown htheirs
    exact agreed.single request (hsent request hrequest nodeId status hown) other
      (hsent other hother nodeId status' htheirs) nodeId status status' hown htheirs
  · intro request hrequest nodeId status hown
    exact agreed.row request (hsent request hrequest nodeId status hown) nodeId status hown
  · intro hended request hrequest
    rcases hnew request hrequest with hbefore | hunsent
    · exact agreed.concluded hended request hbefore
    · exact step_ne_of_unsent hunsent

theorem mem_set_of_ne {requests : List SignalRequest} {i : Nat} {old other : SignalRequest}
    (new : SignalRequest) (hold : requests[i]? = some old) (hmem : other ∈ requests)
    (hne : other ≠ old) : other ∈ requests.set i new := by
  obtain ⟨j, hj⟩ := List.mem_iff_getElem?.mp hmem
  have hplace : i ≠ j := by
    rintro rfl
    exact hne (Option.some.inj (hj.symm.trans hold))
  refine List.mem_of_getElem? (i := j) ?_
  rw [List.getElem?_set_ne hplace]
  exact hj

theorem mem_set_self {requests : List SignalRequest} {i : Nat} {old : SignalRequest}
    (new : SignalRequest) (hold : requests[i]? = some old) : new ∈ requests.set i new :=
  List.mem_set (List.getElem?_eq_some_iff.mp hold).1 new

theorem agreed_moved {i : Nat} {request : SignalRequest} {step : ReviewSignals.Step}
    (agreed : Agreed graph world) (hplace : world.requests[i]? = some request)
    (hstep : step = .checked ∨ step = .concluded) (hunsent : isSent request = false) :
    Agreed graph (world.setStep i request step) := by
  refine agreed.ofRequests (fun other hother => ?_) fun other hother hsent => ?_
  · rcases List.mem_or_eq_of_mem_set hother with hbefore | rfl
    · exact .inl hbefore
    · rcases hstep with rfl | rfl
      · exact .inr rfl
      · exact .inr rfl
  · refine mem_set_of_ne _ hplace hother ?_
    rintro rfl
    rw [hsent] at hunsent
    exact absurd hunsent nofun

theorem agreed_request (agreed : Agreed graph world) (nodeId : Option String)
    (decision : Option Decision) :
    Agreed graph (world.exec graph (.request nodeId decision)) := by
  refine agreed.ofRequests (fun other hother => ?_) fun other hother _ =>
    List.mem_append_left _ hother
  rcases List.mem_append.mp hother with hbefore | hnew
  · exact .inl hbefore
  · rw [List.mem_singleton.mp hnew]
    exact .inr rfl

theorem fits_spec {nodeId : String} {decision : Decision} (agreed : Agreed graph world)
    (hfits : Fits world nodeId decision) :
    (nodeId ∈ world.begun ∧
        ∃ node ∈ graph.nodes, node.id = nodeId ∧ node.nodeType = .humanReview) ∧
      (∀ request ∈ world.requests, ∀ status, Sent request nodeId status →
        status = decision.status) ∧
      (awaits world.run nodeId = false → world.rows nodeId = decision.status) := by
  rcases hfits with ⟨hawaits, hbegun, hnone⟩ | ⟨hrow, earlier, hearlier, hnode, hdecision, hsent⟩
  · refine ⟨⟨hbegun, ?_⟩, fun request hrequest status hown => ?_, fun hnot => ?_⟩
    · obtain ⟨future, hfuture, hkind⟩ := List.any_eq_true.mp hawaits
      simp only [Bool.and_eq_true, decide_eq_true_eq] at hkind
      exact ⟨future.node, (agreed.typed future hfuture).1, hkind.1.1, hkind.1.2⟩
    · have hunsent := hnone request hrequest hown.1
      rw [hown.2.2] at hunsent
      exact absurd hunsent nofun
    · rw [hawaits] at hnot
      exact absurd hnot nofun
  · have hown : Sent earlier nodeId decision.status := by
      refine ⟨hnode, ?_, hsent⟩
      rw [hdecision]
      rfl
    refine ⟨agreed.sent earlier hearlier _ _ hown, fun request hrequest status htheirs => ?_,
      fun _ => hrow⟩
    exact agreed.single request hrequest earlier hearlier nodeId status _ htheirs hown

theorem agreed_signalled {i : Nat} {request : SignalRequest} {nodeId : String}
    {decision : Decision} (agreed : Agreed graph world)
    (hplace : world.requests[i]? = some request) (hchecked : request.step = .checked)
    (hnode : request.nodeId = some nodeId) (hdecision : request.decision = some decision)
    (hgoing : world.run.stage ≠ .ended) (hfits : Fits world nodeId decision) :
    Agreed graph (World.setStep { world with inbox := world.inbox ++ [(nodeId, decision)] } i
      request (.signalled (awaits world.run nodeId))) := by
  obtain ⟨hreview, hagree, hunawaited⟩ := fits_spec agreed hfits
  obtain ⟨id, verdict, step⟩ := request
  dsimp only at hchecked hnode hdecision
  subst hchecked hnode hdecision
  rw [World.setStep]
  dsimp only
  -- the new request has signalled this decision and nothing else
  have hnew : ∀ id status, Sent ⟨some nodeId, some decision,
      .signalled (awaits world.run nodeId)⟩ id status → id = nodeId ∧ status = decision.status :=
    fun id status hown =>
      ⟨(Option.some.inj hown.1).symm, (Option.some.inj hown.2.1).symm⟩
  refine ⟨agreed.typed, agreed.ready, ?_, ?_, ?_, ?_, fun hended => absurd hended hgoing⟩
  · have hearlier : ∀ node ∈ graph.nodes, node.nodeType = .humanReview → ∀ status,
        Verdict world node status → ∃ request ∈ world.requests.set i ⟨some nodeId, some decision,
          .signalled (awaits world.run nodeId)⟩, Sent request node.id status := by
      intro node hnode hkind status hverdict
      obtain ⟨other, hother, hown⟩ := agreed.source node hnode hkind status hverdict
      refine ⟨other, mem_set_of_ne _ hplace hother ?_, hown⟩
      rintro rfl
      exact absurd hown.2.2 nofun
    rintro node hnode hkind status (⟨entry, hmem, hentry⟩ | hrun)
    · rcases List.mem_append.mp hmem with hbefore | hlast
      · exact hearlier node hnode hkind status (.inl ⟨entry, hbefore, hentry⟩)
      · obtain rfl := List.mem_singleton.mp hlast
        refine ⟨_, mem_set_self _ hplace, congrArg some hentry.1, congrArg some hentry.2, rfl⟩
    · exact hearlier node hnode hkind status (.inr hrun)
  · intro other hother id status hown
    rcases List.mem_or_eq_of_mem_set hother with hbefore | rfl
    · exact agreed.sent other hbefore id status hown
    · rw [(hnew id status hown).1]
      exact hreview
  · have hsingle : ∀ other ∈ world.requests.set i ⟨some nodeId, some decision,
        .signalled (awaits world.run nodeId)⟩, ∀ status, Sent other nodeId status →
          status = decision.status := by
      intro other hother status hown
      rcases List.mem_or_eq_of_mem_set hother with hbefore | rfl
      · exact hagree other hbefore status hown
      · exact (hnew nodeId status hown).2
    intro other hother another hanother id status status' hown htheirs
    rcases List.mem_or_eq_of_mem_set hother with hbefore | rfl
    · rcases List.mem_or_eq_of_mem_set hanother with hsecond | rfl
      · exact agreed.single other hbefore another hsecond id status status' hown htheirs
      · obtain ⟨rfl, rfl⟩ := hnew id status' htheirs
        exact hsingle other hother status hown
    · obtain ⟨rfl, rfl⟩ := hnew id status hown
      exact (hsingle another hanother status' htheirs).symm
  · intro other hother id status hown hstep
    rcases List.mem_or_eq_of_mem_set hother with hbefore | rfl
    · exact agreed.row other hbefore id status hown hstep
    · obtain ⟨rfl, rfl⟩ := hnew id status hown
      refine hunawaited ?_
      rw [Bool.eq_false_iff]
      exact fun hawaits => hstep (congrArg ReviewSignals.Step.signalled hawaits)

theorem agreed_written {i : Nat} {request : SignalRequest} {nodeId : String}
    {decision : Decision} {awaited : Bool} {outcome : Outcome} (agreed : Agreed graph world)
    (hplace : world.requests[i]? = some request) (hstep : request.step = .signalled awaited)
    (hnode : request.nodeId = some nodeId) (hdecision : request.decision = some decision)
    (hreached : awaited = true → outcome.reached = true) :
    Agreed graph ((world.writeRow nodeId decision.status outcome).setStep i request
      (.written awaited)) := by
  have hmem := List.mem_of_getElem? hplace
  obtain ⟨id, verdict, step⟩ := request
  dsimp only at hstep hnode hdecision
  subst hstep hnode hdecision
  have howner : Sent ⟨some nodeId, some decision, .signalled awaited⟩ nodeId decision.status :=
    ⟨rfl, rfl, rfl⟩
  have hrows : (world.writeRow nodeId decision.status outcome).rows =
      Function.update world.rows nodeId decision.status := by
    rw [World.writeRow]
    split_ifs with hnow
    · rfl
    · have hstill : world.rows nodeId = decision.status := by
        refine agreed.row _ hmem nodeId _ howner fun hawaited => hnow (hreached ?_)
        exact ReviewSignals.Step.signalled.inj hawaited
      exact (hstill ▸ Function.update_eq_self nodeId world.rows).symm
  have hworld : world.writeRow nodeId decision.status outcome =
      { world with rows := Function.update world.rows nodeId decision.status } := by
    rw [← hrows, World.writeRow]
    split_ifs
    · rfl
    · rfl
  rw [hworld, World.setStep]
  dsimp only
  -- a request has signalled now what one had before
  have hback : ∀ other ∈ world.requests.set i ⟨some nodeId, some decision, .written awaited⟩,
      ∀ id status, Sent other id status → ∃ before ∈ world.requests, Sent before id status := by
    intro other hother id status hown
    rcases List.mem_or_eq_of_mem_set hother with hbefore | rfl
    · exact ⟨other, hbefore, hown⟩
    · exact ⟨_, hmem, hown.1, hown.2.1, rfl⟩
  refine ⟨agreed.typed, agreed.ready, ?_, ?_, ?_, ?_, ?_⟩
  · intro node hnode hkind status hverdict
    obtain ⟨other, hother, hown⟩ := agreed.source node hnode hkind status hverdict
    by_cases hsame : other = ⟨some nodeId, some decision, .signalled awaited⟩
    · subst hsame
      exact ⟨_, mem_set_self _ hplace, hown.1, hown.2.1, rfl⟩
    · exact ⟨other, mem_set_of_ne _ hplace hother hsame, hown⟩
  · intro other hother id status hown
    obtain ⟨before, hbefore, htheirs⟩ := hback other hother id status hown
    exact agreed.sent before hbefore id status htheirs
  · intro other hother another hanother id status status' hown htheirs
    obtain ⟨first, hfirst, hone⟩ := hback other hother id status hown
    obtain ⟨second, hsecond, htwo⟩ := hback another hanother id status' htheirs
    exact agreed.single first hfirst second hsecond id status status' hone htwo
  · intro other hother id status hown hplain
    show Function.update world.rows nodeId decision.status id = status
    by_cases hsame : id = nodeId
    · subst hsame
      obtain ⟨before, hbefore, htheirs⟩ := hback other hother id status hown
      rw [Function.update_self]
      exact agreed.single _ hmem before hbefore id _ status howner htheirs
    · rw [Function.update_of_ne hsame]
      rcases List.mem_or_eq_of_mem_set hother with hbefore | rfl
      · exact agreed.row other hbefore id status hown hplain
      · exact absurd (Option.some.inj hown.1).symm hsame
  · intro hended other hother
    rcases List.mem_or_eq_of_mem_set hother with hbefore | rfl
    · exact agreed.concluded hended other hbefore
    · exact nofun

theorem agreed_step {i : Nat} {outcome : Outcome} (agreed : Agreed graph world)
    (guarded : Guarded graph world (.step i outcome)) :
    Agreed graph (world.exec graph (.step i outcome)) := by
  cases hplace : world.requests[i]? with
  | none =>
      rw [World.exec, hplace]
      exact agreed
  | some request =>
      have hguard := guarded request hplace
      rw [World.exec, hplace]
      dsimp only
      rcases advance_cases graph world i request outcome with
        hsame | ⟨step, hstep, hunsent, hmoved⟩ |
          ⟨nodeId, decision, hstep, hnode, hdecision, hreached, hgoing, hsignal⟩ |
            ⟨nodeId, decision, awaited, hstep, hnode, hdecision, hwrite⟩
      · rw [hsame]
        exact agreed
      · rw [hmoved]
        exact agreed_moved agreed hplace hstep hunsent
      · rw [StepGuarded, hstep, hnode, hdecision] at hguard
        rcases hguard with hended | rfl | ⟨rfl, hfits⟩
        · exact absurd hended hgoing
        · exact absurd hreached nofun
        · rw [hsignal, if_pos rfl]
          exact agreed_signalled agreed hplace hstep hnode hdecision hgoing hfits
      · rw [StepGuarded, hstep] at hguard
        rw [hwrite]
        exact agreed_written agreed hplace hstep hnode hdecision hguard

theorem agreed_exec {action : Action} (distinct : (names graph).Nodup)
    (agreed : Agreed graph world) (guarded : Guarded graph world action) :
    Agreed graph (world.exec graph action) := by
  cases action with
  | event event => exact agreed_event distinct agreed guarded
  | dispatch => exact agreed_dispatch agreed
  | reviewBegins nodeId outcome => exact agreed_reviewBegins agreed nodeId outcome
  | otherWrites nodeId status => exact agreed_otherWrites agreed nodeId status
  | request nodeId decision => exact agreed_request agreed nodeId decision
  | step i outcome => exact agreed_step agreed guarded

section Runs

variable {iteration : Iteration} {layers : List (List String)}

def started (graph : Graph) (layers : List (List String)) (row : WorkflowStatus) : World where
  run := opening graph layers row
  inbox := []
  rows := fun _ => .pending
  begun := []
  requests := []

theorem agreed_started {row : WorkflowStatus}
    (accepted : workflowLayers iteration graph = .ok layers) :
    Agreed graph (started graph layers row) := by
  obtain ⟨-, good, hstatus⟩ := good_opening row accepted
  obtain ⟨htyped, hshrinks⟩ := proceed_keeps graph
    ⟨fun _ => .pending, [], [], [], .running layers, row, false, []⟩ layers
  refine ⟨htyped fun _ => nofun, Ready.of_good good ?_, ?_, fun _ => nofun, fun _ => nofun,
    fun _ => nofun, fun _ _ => nofun⟩
  · exact fun name => .inl (congrFun hstatus name)
  · rintro node hnode hreview status (⟨entry, hmem, -⟩ | hrun)
    · cases hmem
    · rcases hshrinks node hnode hreview status hrun with
        ⟨entry, hmem, -⟩ | ⟨future, hmem, -⟩ | ⟨rfl, hended⟩
      · cases hmem
      · cases hmem
      · rcases hended with hended | hended
        · exact absurd hended nofun
        · exact absurd hended nofun

/-- Rows and runs agree where only a review that awaits is signalled, once or again as its row
shows. -/
theorem reviews_agree {row : WorkflowStatus}
    (accepted : workflowLayers iteration graph = .ok layers)
    (reached : Reachable (World.exec graph) (· = started graph layers row) (Guarded graph) world) :
    Agrees graph world := by
  obtain ⟨distinct, -, -⟩ := good_opening row accepted
  have agreed : Agreed graph world := by
    apply reached.invariant
    · rintro _ rfl
      exact agreed_started accepted
    · exact fun _ _ before guarded => agreed_exec distinct before guarded
  exact agreed.agrees

end Runs

end Agreement

namespace Sample

open WorkflowOutcome.Sample

def actions : List Action :=
  [.event .startWrite, .otherWrites "1" .completed, .event (.activity "build" true),
    .reviewBegins "2" .ok, .request (some "2") (some .approve), .step 0 .ok, .step 0 .ok,
    .dispatch, .step 0 .ok, .request (some "2") (some .approve), .step 1 .ok, .step 1 .ok,
    .event (.activity "approve" false), .dispatch, .step 1 .ok, .event (.activity "release" true),
    .event .finalizeWrite, .event (.finalizeEnd true)]

def finished : World :=
  run (World.exec graph) (started graph layers .draft) actions

theorem reached :
    Reachable (World.exec graph) (· = started graph layers .draft) (Guarded graph) finished :=
  reachable_run rfl (by decide +kernel)

def early : World :=
  run (World.exec graph) (started graph layers .draft)
    [.event .startWrite, .request (some "2") (some .approve), .step 0 .ok, .step 0 .ok,
      .step 0 .ok, .event (.activity "build" true), .reviewBegins "2" .ok, .dispatch,
      .event (.activity "approve" false), .event (.activity "release" true),
      .event .finalizeWrite, .event (.finalizeEnd true)]

end Sample

open Sample in
theorem reviews_agree_finished : finished.run.stage = .ended ∧ finished.rows "2" = .completed ∧
    Agrees WorkflowOutcome.Sample.graph finished :=
  ⟨by decide +kernel, by decide +kernel, reviews_agree WorkflowOutcome.Sample.accepted reached⟩

open Sample in
/-- A decision that comes before its review starts completes the row, which the activity of the
review then sets back to `running` for good. -/
theorem early_decision_lost :
    ¬ ∀ world, Reachable (World.exec WorkflowOutcome.Sample.graph)
        (· = started WorkflowOutcome.Sample.graph WorkflowOutcome.Sample.layers .draft)
        (fun _ _ => True) world → Agrees WorkflowOutcome.Sample.graph world := by
  intro agree
  have hreached : Reachable (World.exec WorkflowOutcome.Sample.graph)
      (· = started WorkflowOutcome.Sample.graph WorkflowOutcome.Sample.layers .draft)
      (fun _ _ => True) early :=
    reachable_run rfl (allAllowed_of_forall (fun _ _ _ => trivial) _)
  have hrow := (agree early hreached).concluded (by decide +kernel)
    ⟨"2", "approve", .humanReview, ["build"], none⟩ (by decide) rfl (by decide +kernel)
  have hrunning : early.rows "2" = .running := by decide +kernel
  have hresult : early.run.status "approve" = .completed := by decide +kernel
  exact absurd (hrunning.symm.trans (hrow.trans hresult)) nofun

end Forge.ReviewAgreement
