import Forge.WorkflowRequests

/-! The status in which a run of a workflow ends, among the requests that race with the run. -/

namespace Forge.StatusStability

open Forge.Library.StateMachine
open Forge.WorkflowRun (WorkflowStatus)
open Forge.WorkflowRequests

def IsEnd (status : WorkflowStatus) : Prop :=
  status = .completed ∨ status = .failed ∨ status = .cancelled

/-- The action is the last step of a start request that has read `failed` since the last end. -/
def StartsOver (world : World) (action : Action) : Prop :=
  ∃ request outcome run, action = .start request outcome
    ∧ world.starts request = .running ⟨.failed, world.ends⟩ run
    ∧ world.status = .failed ∧ (exec world action).status = .running

def EndStays (world : World) (action : Action) : Prop :=
  IsEnd world.status → (exec world action).status ≠ world.status → StartsOver world action

/-- The end of a run can be written: the run is the newest, no other end was written for it, and
its request has written `running`, or has read `draft` since the last end. -/
def MayEnd (world : World) (index : Nat) (status : WorkflowStatus) : Prop :=
  index + 1 = world.accepted ∧
    match (world.runs index).ended with
    | some (written, _) => written = status
    | none => (world.runs index).startWritten ∨ (world.runs index).reading = ⟨.draft, world.ends⟩

/-- No write comes late: `running` is written while no end was written since the request has read
the workflow, or over `running`, and an end where it can be. -/
def timely (world : World) : Action → Prop
  | .start request outcome =>
      match world.starts request with
      | .running reading _ =>
          outcome.reached → reading.ends = world.ends ∨ world.status = .running
      | _ => True
  | .cancel request outcome =>
      match world.cancels request with
      | .cancelled run => outcome.reached → MayEnd world run .cancelled
      | _ => True
  | .finalize index => ∀ status, (world.runs index).result = some status →
      MayEnd world index status
  | _ => True

def reading : StartStep → Option Reading
  | .reset reading => some reading
  | .nodes reading => some reading
  | .engine reading => some reading
  | .ids reading _ => some reading
  | .running reading _ => some reading
  | _ => none

def started : StartStep → Option (Reading × Nat)
  | .ids reading run => some (reading, run)
  | .running reading run => some (reading, run)
  | _ => none

/-- What a request has read allows a start, and holds until an end is written or the workflow
is running. -/
structure Held (status : WorkflowStatus) (ends : Nat) (reading : Reading) : Prop where
  startable : reading.status = .draft ∨ reading.status = .failed
  past : reading.ends ≤ ends
  current : reading.ends = ends → status = reading.status ∨ status = .running

def Precedes (runs : Nat → EngineRun) (ends : Nat) (reading : Reading) (run : Nat) : Prop :=
  ∀ later status number, run ≤ later → (runs later).ended = some (status, number) →
    reading.ends < number ∧ number ≤ ends

def Stands (status : WorkflowStatus) (run : EngineRun) : Prop :=
  match run.ended with
  | some (written, _) => status = written ∧ IsEnd written
  | none => run.startWritten → status = .running

structure Good (world : World) : Prop where
  readings : ∀ request what, reading (world.starts request) = some what →
    Held world.status world.ends what
  runs : ∀ index < world.accepted, Held world.status world.ends (world.runs index).reading
  unused : ∀ index, world.accepted ≤ index → (world.runs index).ended = none
  started : ∀ request what run, started (world.starts request) = some (what, run) →
    run < world.accepted ∧ Precedes world.runs world.ends what run
  results : ∀ index status, (world.runs index).result = some status → IsEnd status
  newest : ∀ index, index + 1 = world.accepted → Stands world.status (world.runs index)

theorem good_created : Good created where
  readings := nofun
  runs := nofun
  unused _ _ := rfl
  started := nofun
  results := nofun
  newest := nofun

theorem Stands.congr {status : WorkflowStatus} {run other : EngineRun}
    (stands : Stands status run) (written : other.startWritten = run.startWritten)
    (ended : other.ended = run.ended) : Stands status other := by
  rw [Stands] at stands ⊢
  rwa [written, ended]

theorem not_isEnd_running : ¬ IsEnd .running :=
  nofun

theorem reading_of_started {step : StartStep} {what : Reading} {run : Nat}
    (found : started step = some (what, run)) : reading step = some what := by
  cases step with
  | ids | running =>
      cases found
      rfl
  | read | reset | nodes | engine | concluded => cases found

section Held

variable {status : WorkflowStatus} {ends : Nat} {what : Reading}

theorem Held.running (held : Held status ends what) : Held .running ends what :=
  ⟨held.startable, held.past, fun _ => .inr rfl⟩

theorem Held.ended {written : WorkflowStatus} (held : Held status ends what) :
    Held written (ends + 1) what := by
  have past := held.past
  exact ⟨held.startable, by omega, fun now => by omega⟩

end Held

namespace Good

variable {world : World} (good : Good world)

include good

theorem setStart {request : Nat} {step : StartStep}
    (held : ∀ what, reading step = some what → Held world.status world.ends what)
    (precedes : ∀ what run, StatusStability.started step = some (what, run) →
      run < world.accepted ∧ Precedes world.runs world.ends what run) :
    Good (world.setStart request step) := by
  refine ⟨fun other what read => ?_, good.runs, good.unused, fun other what run read => ?_,
    good.results, good.newest⟩
  · change reading (Function.update world.starts request step other) = some what at read
    rw [Function.update_apply] at read
    split at read
    · exact held what read
    · exact good.readings other what read
  · change StatusStability.started (Function.update world.starts request step other) = _ at read
    rw [Function.update_apply] at read
    split at read
    · exact precedes what run read
    · exact good.started other what run read

theorem setStart_over {request : Nat} : Good (world.setStart request .concluded) :=
  good.setStart nofun nofun

theorem setCancel {request : Nat} {step : CancelStep} : Good (world.setCancel request step) :=
  ⟨good.readings, good.runs, good.unused, good.started, good.results, good.newest⟩

theorem setTemporalIds {index : Nat} : Good (world.setTemporalIds index) :=
  ⟨good.readings, good.runs, good.unused, good.started, good.results, good.newest⟩

theorem runs_congr {runs : Nat → EngineRun}
    (same : ∀ index, (runs index).reading = (world.runs index).reading)
    (written : ∀ index, (runs index).startWritten = (world.runs index).startWritten)
    (ended : ∀ index, (runs index).ended = (world.runs index).ended)
    (result : ∀ index status, (runs index).result = some status → IsEnd status) :
    Good { world with runs } := by
  refine ⟨good.readings, fun index bound => ?_, fun index bound => ?_,
    fun request what run read => ?_, result, fun index last => ?_⟩
  · rw [same]
    exact good.runs index bound
  · rw [ended]
    exact good.unused index bound
  · obtain ⟨bound, precedes⟩ := good.started request what run read
    refine ⟨bound, fun later status number after found => ?_⟩
    rw [ended] at found
    exact precedes later status number after found
  · exact (good.newest index last).congr (written index) (ended index)

theorem setRun {index : Nat} {run : EngineRun} (same : run.reading = (world.runs index).reading)
    (written : run.startWritten = (world.runs index).startWritten)
    (ended : run.ended = (world.runs index).ended)
    (result : ∀ status, run.result = some status → IsEnd status) :
    Good (world.setRun index run) := by
  refine good.runs_congr ?_ ?_ ?_ ?_
  · intro other
    rw [Function.update_apply]
    split
    case isTrue here => rw [here, same]
    case isFalse => rfl
  · intro other
    rw [Function.update_apply]
    split
    case isTrue here => rw [here, written]
    case isFalse => rfl
  · intro other
    rw [Function.update_apply]
    split
    case isTrue here => rw [here, ended]
    case isFalse => rfl
  · intro other status found
    rw [Function.update_apply] at found
    split at found
    · exact result status found
    · exact good.results other status found

theorem ended_accept {what : Reading} {other : Nat} :
    ((world.accept what).runs other).ended = (world.runs other).ended := by
  show (if other = world.accepted then _ else _ : EngineRun).ended = _
  split
  case isTrue here => exact (good.unused other (Nat.le_of_eq here.symm)).symm
  case isFalse => rfl

theorem accept {what : Reading} (held : Held world.status world.ends what) :
    Good (world.accept what) := by
  refine ⟨good.readings, fun other bound => ?_, fun other bound => ?_,
    fun request reading run read => ?_, fun other status found => ?_, fun other last => ?_⟩
  · show Held world.status world.ends (if other = world.accepted then _ else _ : EngineRun).reading
    split
    case isTrue => exact held
    case isFalse old => exact good.runs other (Nat.lt_of_le_of_ne (Nat.le_of_lt_succ bound) old)
  · rw [good.ended_accept]
    exact good.unused other (Nat.le_of_succ_le bound)
  · obtain ⟨bound, precedes⟩ := good.started request reading run read
    refine ⟨Nat.lt_succ_of_lt bound, fun later status number after found => ?_⟩
    rw [good.ended_accept] at found
    exact precedes later status number after found
  · change (if other = world.accepted then _ else _ : EngineRun).result = some status at found
    split at found
    · cases found
    · exact good.results other status found
  · have here : other = world.accepted := Nat.succ.inj last
    have new : (world.accept what).runs other = ⟨true, none, what, false, none⟩ := if_pos here
    rw [new]
    exact nofun

theorem writeRunning {index : Nat} {what : Reading}
    (precedes : Precedes world.runs world.ends what index)
    (bound : index < world.accepted)
    (may : what.ends = world.ends ∨ world.status = .running) :
    Good (world.writeRunning index) := by
  have history : ∀ other, ((world.writeRunning index).runs other).ended = (world.runs other).ended
      ∧ ((world.writeRunning index).runs other).reading = (world.runs other).reading
      ∧ ((world.writeRunning index).runs other).result = (world.runs other).result := by
    intro other
    rw [World.writeRunning]
    dsimp only
    rcases eq_or_ne other index with rfl | others
    · rw [Function.update_self]
      exact ⟨rfl, rfl, rfl⟩
    · rw [Function.update_of_ne others]
      exact ⟨rfl, rfl, rfl⟩
  refine ⟨fun request what read => (good.readings request what read).running,
    fun other bound => ?_, fun other bound => ?_, fun request reading run read => ?_,
    fun other status found => ?_, fun other last => ?_⟩
  · rw [(history other).2.1]
    exact (good.runs other bound).running
  · rw [(history other).1]
    exact good.unused other bound
  · obtain ⟨bound, precedes⟩ := good.started request reading run read
    refine ⟨bound, fun later status number after found => ?_⟩
    rw [(history later).1] at found
    exact precedes later status number after found
  · rw [(history other).2.2] at found
    exact good.results other status found
  · have stands := good.newest other last
    rw [Stands] at stands ⊢
    rw [(history other).1]
    split
    case h_1 written number ended =>
        rw [ended] at stands
        rcases may with now | running
        · have late := precedes other written number (by
            have : other + 1 = world.accepted := last
            omega) ended
          omega
        · rw [← stands.1, running] at stands
          exact absurd stands.2 not_isEnd_running
    case h_2 => exact fun _ => rfl

theorem over_of_mayEnd {index : Nat} {status : WorkflowStatus}
    (may : MayEnd world index status) :
    (∃ number, (world.runs index).ended = some (status, number)) ∧ world.status = status
      ∨ (world.runs index).ended = none ∧ ¬ IsEnd world.status := by
  obtain ⟨last, may⟩ := may
  have stands := good.newest index last
  rw [Stands] at stands
  split at may
  case h_1 written number ended =>
      subst may
      rw [ended] at stands
      exact .inl ⟨⟨number, ended⟩, stands.1⟩
  case h_2 ended =>
      rw [ended] at stands
      refine .inr ⟨ended, ?_⟩
      rcases may with written | fresh
      · rw [stands written]
        exact not_isEnd_running
      · have held := good.runs index (by omega)
        rw [fresh] at held
        rcases held.current rfl with draft | running
        · rw [draft]
          exact nofun
        · rw [running]
          exact not_isEnd_running

theorem writeEnd {index : Nat} {status : WorkflowStatus} (ends : IsEnd status)
    (may : MayEnd world index status) : Good (world.writeEnd index status) := by
  rcases good.over_of_mayEnd may with ⟨⟨number, ended⟩, same⟩ | ⟨fresh, -⟩
  · have written : (world.runs index).ended.map Prod.fst = some status := by rw [ended]; rfl
    have unchanged : world.writeEnd index status = world := by
      rw [World.writeEnd, if_pos written, ← same]
    rw [unchanged]
    exact good
  · have unwritten : ¬ (world.runs index).ended.map Prod.fst = some status := by
      rw [fresh]
      nofun
    have last := may.1
    rw [World.writeEnd, if_neg unwritten]
    refine ⟨fun request what read => (good.readings request what read).ended,
      fun other bound => ?_, fun other bound => ?_, fun request reading run read => ?_,
      fun other result found => ?_, fun other newest => ?_⟩
    · dsimp only
      rw [Function.update_apply]
      split
      case isTrue here => exact (good.runs index (by omega)).ended
      case isFalse => exact (good.runs other bound).ended
    · dsimp only at bound ⊢
      rw [Function.update_of_ne (by omega)]
      exact good.unused other bound
    · obtain ⟨bound, precedes⟩ := good.started request reading run read
      have held := good.readings request reading (reading_of_started read)
      refine ⟨bound, fun later written number after found => ?_⟩
      have past := held.past
      dsimp only at found ⊢
      rw [Function.update_apply] at found
      split at found
      case isTrue =>
          cases found
          omega
      case isFalse =>
          have before := precedes later written number after found
          omega
    · dsimp only at found
      rw [Function.update_apply] at found
      split at found
      case isTrue => exact good.results index result found
      case isFalse => exact good.results other result found
    · have here : other = index := by
        have : other + 1 = world.accepted := newest
        omega
      subst here
      dsimp only
      rw [Function.update_self]
      exact ⟨rfl, ends⟩

theorem start {request : Nat} {outcome : Outcome} (may : timely world (.start request outcome)) :
    Good (world.start request outcome) := by
  have bounds := good.started request
  have held := good.readings request
  rw [timely] at may
  rw [World.start]
  split
  case h_1 here =>
      split
      case isTrue =>
          refine good.setStart ?_ ?_
          · intro what found
            split at found
            case isTrue failed =>
                cases found
                exact ⟨.inr failed, Nat.le_refl _, fun _ => .inl rfl⟩
            case isFalse =>
                split at found
                case isTrue draft =>
                    cases found
                    exact ⟨.inl draft, Nat.le_refl _, fun _ => .inl rfl⟩
                case isFalse => cases found
          · intro what run found
            split at found
            case isTrue => cases found
            case isFalse =>
                split at found <;> cases found
      case isFalse => exact good.setStart_over
  case h_2 what here =>
      rw [here] at held
      split
      · exact good.setStart held nofun
      · exact good.setStart_over
  case h_3 what here =>
      rw [here] at held
      split
      · exact good.setStart held nofun
      · exact good.setStart_over
  case h_4 what here =>
      rw [here] at held
      have accepted := good.accept (held what rfl)
      cases outcome with
      | ok =>
          refine accepted.setStart (fun what same => ?_) fun what run found => ?_
          · cases same
            exact held what rfl
          · cases found
            refine ⟨Nat.lt_succ_self _, fun later status number after ended => ?_⟩
            rw [good.ended_accept, good.unused later after] at ended
            cases ended
      | failed reached =>
          cases reached with
          | true => exact accepted.setStart_over
          | false => exact good.setStart_over
  case h_5 what run here =>
      rw [here] at held bounds
      cases outcome with
      | ok => exact good.setTemporalIds.setStart held bounds
      | failed reached =>
          cases reached with
          | true => exact good.setTemporalIds.setStart_over
          | false => exact good.setStart_over
  case h_6 what run here =>
      rw [here] at bounds may
      obtain ⟨bound, precedes⟩ := bounds what run rfl
      cases outcome with
      | ok => exact (good.writeRunning precedes bound (may rfl)).setStart_over
      | failed reached =>
          cases reached with
          | true => exact (good.writeRunning precedes bound (may rfl)).setStart_over
          | false => exact good.setStart_over
  case h_7 => exact good

theorem cancel {request : Nat} {outcome : Outcome} (may : timely world (.cancel request outcome)) :
    Good (world.cancel request outcome) := by
  rw [timely] at may
  unfold World.cancel
  split
  case h_1 => exact good.setCancel
  case h_2 => exact good.setCancel
  case h_3 run here =>
      rw [here] at may
      cases outcome with
      | ok => exact (good.writeEnd (.inr (.inr rfl)) (may rfl)).setCancel
      | failed reached =>
          cases reached with
          | true => exact (good.writeEnd (.inr (.inr rfl)) (may rfl)).setCancel
          | false => exact good.setCancel
  case h_4 => exact good

theorem exec {action : Action} (may : timely world action) :
    Good (WorkflowRequests.exec world action) := by
  cases action with
  | start request outcome => exact good.start may
  | cancel request outcome => exact good.cancel may
  | decide index success =>
      rw [WorkflowRequests.exec]
      split
      · refine good.setRun rfl rfl rfl fun status found => ?_
        cases found
        cases success with
        | true => exact .inl rfl
        | false => exact .inr (.inl rfl)
      · exact good
  | finalize index =>
      rw [WorkflowRequests.exec]
      split
      case h_1 status decided =>
          exact good.writeEnd (good.results index status decided) (may status decided)
      case h_2 => exact good
  | close index =>
      exact good.setRun rfl rfl rfl fun status found => good.results index status found

end Good

section Steps

variable {world : World}

/-- A start request writes no status but `running`, with its last step. -/
theorem status_start (request : Nat) (outcome : Outcome) :
    (world.start request outcome).status = world.status
      ∨ (∃ what run, world.starts request = .running what run) ∧ outcome.reached
        ∧ (world.start request outcome).status = .running := by
  rw [World.start]
  split
  case h_1 => split <;> exact .inl rfl
  case h_2 => exact .inl rfl
  case h_3 => exact .inl rfl
  case h_4 =>
      rw [World.call]
      split <;> exact .inl rfl
  case h_5 =>
      rw [World.call]
      split <;> exact .inl rfl
  case h_6 what run here =>
      rw [World.call]
      split
      case isTrue reached => exact .inr ⟨⟨what, run, here⟩, reached, rfl⟩
      case isFalse => exact .inl rfl
  case h_7 => exact .inl rfl

theorem status_cancel (request : Nat) (outcome : Outcome) :
    (world.cancel request outcome).status = world.status
      ∨ ∃ run, world.cancels request = .cancelled run ∧ outcome.reached
        ∧ (world.cancel request outcome).status = (world.writeEnd run .cancelled).status := by
  unfold World.cancel
  split
  case h_1 => exact .inl rfl
  case h_2 => exact .inl rfl
  case h_3 run here =>
      rw [World.call]
      split
      case isTrue reached => exact .inr ⟨run, here, reached, rfl⟩
      case isFalse => exact .inl rfl
  case h_4 => exact .inl rfl

theorem status_writeEnd (index : Nat) (status : WorkflowStatus) :
    (world.writeEnd index status).status = status := by
  rw [World.writeEnd]
  split <;> rfl

theorem Good.writeEnd_stays (good : Good world) {index : Nat} {status : WorkflowStatus}
    (may : MayEnd world index status) (ended : IsEnd world.status) :
    (world.writeEnd index status).status = world.status := by
  rw [status_writeEnd]
  rcases good.over_of_mayEnd may with ⟨-, same⟩ | ⟨-, going⟩
  · exact same.symm
  · exact absurd ended going

end Steps

theorem good_of_reachable {world : World}
    (reached : Reachable exec (· = created) timely world) : Good world := by
  refine reached.invariant ?_ fun _ _ good may => good.exec may
  rintro _ rfl
  exact good_created

/-- Among writes that do not come late, the status in which a run ended is overwritten by a new
start alone. -/
theorem ends_stay {world : World} {action : Action}
    (reached : Reachable exec (· = created) timely world) (may : timely world action) :
    EndStays world action := by
  have good := good_of_reachable reached
  intro ended changed
  cases action with
  | start request outcome =>
      obtain ⟨⟨what, run, here⟩, effective, running⟩ := (status_start request outcome).resolve_left
        changed
      rw [timely, here] at may
      have held := good.readings request what (by rw [here]; rfl)
      have going : world.status ≠ .running := by
        intro going
        rw [going] at ended
        exact not_isEnd_running ended
      have now := (may effective).resolve_right going
      have same := (held.current now).resolve_right going
      have failed : what.status = .failed := by
        refine held.startable.resolve_left fun draft => ?_
        rw [same, draft] at ended
        exact absurd ended nofun
      refine ⟨request, outcome, run, rfl, ?_, same.trans failed, running⟩
      rw [here, ← failed, ← now]
  | cancel request outcome =>
      obtain ⟨run, here, effective, written⟩ := (status_cancel request outcome).resolve_left changed
      rw [timely, here] at may
      exact absurd (written.trans (good.writeEnd_stays (may effective) ended)) changed
  | decide index success =>
      refine absurd ?_ changed
      rw [exec]
      split <;> rfl
  | finalize index =>
      refine absurd ?_ changed
      rw [exec]
      split
      case h_1 status decided => exact good.writeEnd_stays (may status decided) ended
      case h_2 => rfl
  | close index => exact absurd rfl changed

namespace Sample

def starting (request : Nat) (reset : Bool) : List Action :=
  List.replicate (if reset then 5 else 4) (.start request .ok)

def again : World :=
  run exec created
    (starting 0 false ++ [.start 0 .ok, .decide 0 false, .finalize 0] ++ starting 1 true)

theorem again_reached : Reachable exec (· = created) timely again := by
  refine reachable_run rfl ⟨trivial, trivial, trivial, trivial, fun _ => .inl rfl, trivial, ?_,
    trivial, trivial, trivial, trivial, trivial, trivial⟩
  exact fun _ _ => ⟨rfl, .inl rfl⟩

/-- A run is completed before its request has written `running`. -/
def overtaken : World :=
  run exec created (starting 0 false ++ [.decide 0 true, .finalize 0])

end Sample

open Sample in
theorem ends_stay_again :
    again.status = .failed ∧ (exec again (.start 1 .ok)).status = .running
      ∧ EndStays again (.start 1 .ok) :=
  ⟨rfl, rfl, ends_stay again_reached fun _ => .inl rfl⟩

open Sample in
/-- The request that started a run writes `running` after the run was completed. -/
theorem start_overwrites_completed :
    ¬ ∀ world action, Reachable exec (· = created) (fun _ _ => True) world →
      EndStays world action := by
  intro stays
  have reached : Reachable exec (· = created) (fun _ _ => True) overtaken :=
    reachable_run rfl (allAllowed_of_forall (fun _ _ _ => trivial) created)
  obtain ⟨request, outcome, run, action, reading, -⟩ :=
    stays overtaken (.start 0 .ok) reached (.inl rfl) nofun
  cases action
  cases reading

end Forge.StatusStability
