import Forge.OrchestratorSafety

/-! The verdicts on code reviews: each review has one at most, as long as no verdict transaction
comes too late, and the escalation reaper passes over the decided ones. -/

namespace Forge.ReviewVerdicts

open Forge.Library.Identifier
open Forge.Library.Interleaving
open Forge.Library.KeyedTable
open Forge.Library.StateMachine
open Forge.Orchestrator
open Forge.OrchestratorChanges
open Forge.OrchestratorDiscipline
open Forge.OrchestratorSafety
open Forge.OrchestratorStore
open Forge.Schema (Timestamp)

variable {services : Services} {state : State} {action : Action} {world after : World}
  {operation : Op} {actor : Actor} {request : Nat} {id : Uuid}

def verdictLogs (db : Db) (id : Uuid) : List AuditLog :=
  db.auditLogs.filter fun log => log.action != .reviewCreate && log.resourceId == id

def Keeps (before after : Db) : Prop :=
  ∀ review ∈ before.reviews.rows, review.state.isTerminal = true →
    ∃ later ∈ after.reviews.rows, later.id = review.id ∧ later.state = review.state

instance (before after : Db) : Decidable (Keeps before after) :=
  inferInstanceAs (Decidable (∀ _ ∈ before.reviews.rows, _))

/-- A review has one verdict at most, with one audit record at most; feedback comes with a
verdict, and an audit record tells of one. -/
structure Once (world : World) : Prop where
  verdicts : world.decisions.Nodup
  feedback : world.db.comments.length ≤ world.decisions.length
  logs : ∀ id, (verdictLogs world.db id).length ≤ 1
  decided : ∀ log ∈ world.db.auditLogs, log.action ≠ .reviewCreate →
    log.resourceId ∈ world.decisions

def SparesDecided (before after : World) : Prop :=
  ∀ review ∈ before.db.reviews.rows, review.id ∈ before.decisions ∨
    review.state.isTerminal = true → review ∈ after.db.reviews.rows

/-! ## The condition -/

def Fits (read : Option ReviewState) (verdict : ReviewState) (review : CodeReview) : Prop :=
  read = some review.state ∨ canTransition review.state verdict = true

instance (read : Option ReviewState) (verdict : ReviewState) (review : CodeReview) :
    Decidable (Fits read verdict review) :=
  inferInstanceAs (Decidable (_ ∨ _))

/-- A verdict transaction comes in time. -/
def InTime (world : World) : Op → Prop
  | .applyVerdict request reviewId orgId verdict _ _ _ =>
      ∀ review ∈ world.db.reviews.rows, review.isAt reviewId orgId = true →
        Fits (world.past request).readReview verdict review
  | _ => True

instance (world : World) : DecidablePred (InTime world) := fun operation => by
  cases operation with
  | applyVerdict => exact inferInstanceAs (Decidable (∀ _ ∈ world.db.reviews.rows, _))
  | _ => exact isTrue trivial

/-- The next operation of an actor, if any, comes in time. -/
def Timely (state : State) : Action → Prop
  | .step actor _ =>
      match state.threads actor with
      | .done _ => True
      | .op operation _ => InTime state.state operation
  | _ => True

instance (state : State) : DecidablePred (Timely state)
  | .step actor _ => by
      rw [Timely]
      exact match state.threads actor with
      | .done _ => isTrue trivial
      | .op operation _ => inferInstanceAs (Decidable (InTime state.state operation))
  | .request _ => isTrue trivial
  | .drop _ => isTrue trivial
  | .reapDispatches _ _ _ => isTrue trivial
  | .reapReviews _ _ _ _ => isTrue trivial

/-! ## Terminal states -/

theorem terminal_of_isVerdict {verdict : ReviewState} {target : TaskState}
    (isVerdict : IsVerdict verdict target) : verdict.isTerminal = true := by
  cases isVerdict with
  | approve => rfl
  | reject => rfl

theorem canTransition_of_terminal {source : ReviewState} (terminal : source.isTerminal = true)
    (target : ReviewState) : canTransition source target = false := by
  cases source with
  | pending => cases terminal
  | inReview => cases terminal
  | _ => rfl

theorem may_verdict {reviewId taskId : Uuid} {orgId : String} {verdict : ReviewState}
    {target : TaskState} {feedback : Option ReviewComment}
    (may : May actor world
      (.applyVerdict request reviewId orgId verdict taskId target feedback)) :
    (world.past request).decided = none ∧ IsVerdict verdict target ∧
      ∃ read, (world.past request).readReview = some read ∧
        canTransition read verdict = true := by
  obtain ⟨rfl, _⟩ := owner_of_may may rfl
  exact may.2.2

theorem open_of_inTime {reviewId taskId : Uuid} {orgId : String} {verdict : ReviewState}
    {target : TaskState} {feedback : Option ReviewComment}
    (may : May actor world (.applyVerdict request reviewId orgId verdict taskId target feedback))
    (inTime : InTime world
      (.applyVerdict request reviewId orgId verdict taskId target feedback))
    {review : CodeReview} (member : review ∈ world.db.reviews)
    (hit : review.isAt reviewId orgId = true) : review.state.isTerminal = false := by
  refine eq_false_of_ne_true fun terminal => ?_
  have illegal := canTransition_of_terminal terminal verdict
  obtain ⟨_, _, read, found, legal⟩ := may_verdict may
  rcases inTime review member hit with same | still
  · obtain rfl := Option.some.inj (found.symm.trans same)
    cases illegal.symm.trans legal
  · cases illegal.symm.trans still

theorem terminal_of_step {review later : CodeReview} (may : May actor world operation)
    (step : ReviewStep operation review later) (terminal : review.state.isTerminal = true) :
    later.state.isTerminal = true := by
  rcases step with same | ⟨number, taskId, target, feedback, rfl⟩
  · rwa [same]
  · exact terminal_of_isVerdict (may_verdict may).2.1

theorem keeps_of_effect (may : May actor world operation) (inTime : InTime world operation)
    (effect : Effect world operation after) : Keeps world.db after.db := by
  intro review member terminal
  obtain ⟨later, there, same, step⟩ := (reviews_evolve effect).forward member
  refine ⟨later, there, same, ?_⟩
  rcases step with kept | ⟨number, taskId, target, feedback, rfl⟩
  · exact kept
  · have unruled := open_of_inTime may inTime member (by simp [CodeReview.isAt])
    cases unruled.symm.trans terminal

/-! ## Decided reviews -/

def Ruled (world : World) : Prop :=
  ∀ id ∈ world.decisions, ∃ review ∈ world.db.reviews, review.id = id ∧
    review.state.isTerminal = true

theorem review_of_applied {db later : Db} {reviewId taskId : Uuid} {orgId : String}
    {verdict : ReviewState} {target : TaskState} {feedback : Option ReviewComment}
    {now : Timestamp}
    (applied : ReviewStore.applyVerdict db reviewId orgId verdict taskId target feedback now =
      (later, .ok ())) :
    (∃ review ∈ db.reviews, review.isAt reviewId orgId = true ∧
      ∃ written ∈ later.reviews, written.id = reviewId ∧ written.state = verdict) ∧
    later.comments = feedback.toList ++ db.comments ∧ later.auditLogs = db.auditLogs := by
  rw [ReviewStore.applyVerdict] at applied
  split at applied
  case isFalse => cases applied
  case isTrue there =>
      cases applied
      obtain ⟨review, member, hit⟩ := Table.any_eq_true.mp (Bool.and_eq_true_iff.mp there).1
      have written := @Table.mem_update_of_hit _ _ _ _ (CodeReview.isAt reviewId orgId)
        (fun review => { review with state := verdict, updatedAt := now }) (fun _ => rfl) _
          member hit
      refine ⟨⟨review, member, hit, _, written, ?_, rfl⟩, rfl, rfl⟩
      rw [CodeReview.isAt, Bool.and_eq_true_iff] at hit
      exact beq_iff_eq.mp hit.1

def Verdictless (operation : Op) : Prop :=
  ∀ request reviewId orgId verdict taskId target feedback,
    operation ≠ .applyVerdict request reviewId orgId verdict taskId target feedback

theorem decisions_of_effect (effect : Effect world operation after)
    (verdictless : Verdictless operation) :
    after.decisions = world.decisions ∧ after.db.comments = world.db.comments := by
  cases effect with
  | applyVerdict => exact absurd rfl (verdictless _ _ _ _ _ _ _)
  | _ => exact ⟨rfl, rfl⟩

theorem Ruled.effect (ruled : Ruled world) (may : May actor world operation)
    (effect : Effect world operation after) : Ruled after := by
  have keeps : ∀ id ∈ world.decisions, ∃ review ∈ after.db.reviews, review.id = id ∧
      review.state.isTerminal = true := by
    intro id decided
    obtain ⟨review, member, rfl, terminal⟩ := ruled id decided
    obtain ⟨later, there, same, step⟩ := (reviews_evolve effect).forward member
    exact ⟨later, there, same, terminal_of_step may step terminal⟩
  by_cases verdictless : Verdictless operation
  · intro id decided
    rw [(decisions_of_effect effect verdictless).1] at decided
    exact keeps id decided
  · simp only [Verdictless, not_forall, not_not] at verdictless
    obtain ⟨number, reviewId, orgId, verdict, taskId, target, feedback, rfl⟩ := verdictless
    cases effect with
    | same => exact ruled
    | applyVerdict now applied =>
        intro id decided
        rcases List.mem_cons.mp decided with rfl | before
        · obtain ⟨⟨_, _, _, written, there, same, rfl⟩, _⟩ := review_of_applied applied
          exact ⟨written, there, same, terminal_of_isVerdict (may_verdict may).2.1⟩
        · exact keeps id before

/-! ## Verdicts and their records -/

/-- Which requests passed verdicts and recorded them. -/
structure Recorded (world : World) : Prop where
  verdicts : world.decisions.Nodup
  feedback : world.db.comments.length ≤ world.decisions.length
  decided : ∀ {request id}, (world.past request).decided = some id → id ∈ world.decisions
  single : ∀ {request other id}, (world.past request).decided = some id →
    (world.past other).decided = some id → request = other
  logged : ∀ log ∈ world.db.auditLogs, log.action ≠ .reviewCreate → ∃ request,
    (world.past request).decided = some log.resourceId ∧ (world.past request).recorded = true
  logs : ∀ id, (verdictLogs world.db id).length ≤ 1

theorem Recorded.once (recorded : Recorded world) : Once world := by
  refine ⟨recorded.verdicts, recorded.feedback, recorded.logs, fun log member verdict => ?_⟩
  obtain ⟨request, decided, _⟩ := recorded.logged log member verdict
  exact recorded.decided decided

/-- What the requests have decided and recorded is as it was. -/
structure Unmoved (world after : World) : Prop where
  decisions : after.decisions = world.decisions
  comments : after.db.comments = world.db.comments
  logs : after.db.auditLogs = world.db.auditLogs
  decided : ∀ request, (after.past request).decided = (world.past request).decided
  recorded : ∀ request, (after.past request).recorded = (world.past request).recorded

theorem Recorded.unmoved (recorded : Recorded world) (unmoved : Unmoved world after) :
    Recorded after := by
  refine ⟨?_, ?_, fun now => ?_, fun left right => ?_, fun log member verdict => ?_, fun id => ?_⟩
  · exact unmoved.decisions ▸ recorded.verdicts
  · rw [unmoved.comments, unmoved.decisions]
    exact recorded.feedback
  · rw [unmoved.decided] at now
    exact unmoved.decisions ▸ recorded.decided now
  · rw [unmoved.decided] at left right
    exact recorded.single left right
  · rw [unmoved.logs] at member
    obtain ⟨request, decided, done⟩ := recorded.logged log member verdict
    exact ⟨request, (unmoved.decided request).trans decided,
      (unmoved.recorded request).trans done⟩
  · rw [verdictLogs, unmoved.logs]
    exact recorded.logs id

theorem unmoved_amend {set : Past → Past}
    (decided : (set (world.past request)).decided = (world.past request).decided)
    (recorded : (set (world.past request)).recorded = (world.past request).recorded) :
    Unmoved world (world.amend request set) := by
  refine ⟨rfl, rfl, rfl, fun other => ?_, fun other => ?_⟩
  · by_cases same : other = request
    · subst same
      rw [amend_past_self, decided]
    · rw [amend_past_of_ne _ _ same]
  · by_cases same : other = request
    · subst same
      rw [amend_past_self, recorded]
    · rw [amend_past_of_ne _ _ same]

theorem unmoved_interrupt (world : World) (request : Nat) :
    Unmoved world (world.interrupt request) := unmoved_amend rfl rfl

theorem unmoved_release (world : World) (request : Nat) :
    Unmoved world (world.release request) := unmoved_amend rfl rfl

theorem unmoved_of_effect (effect : Effect world operation after)
    (verdictless : Verdictless operation)
    (logless : ∀ request log, operation ≠ .createAudit request log) : Unmoved world after := by
  cases effect with
  | applyVerdict => exact absurd rfl (verdictless _ _ _ _ _ _ _)
  | createAudit => exact absurd rfl (logless _ _)
  | getTask found => exact unmoved_amend rfl rfl
  | getReview found => exact unmoved_amend rfl rfl
  | assign now hit =>
      obtain ⟨_, _, _, decided, recorded⟩ := @unmoved_amend world _
        (fun past => { past with wrote := true }) rfl rfl
      exact ⟨rfl, rfl, rfl, decided, recorded⟩
  | @createDispatch _ taskId _ row _ queued free inserted =>
      obtain ⟨_, _, _, decided, recorded⟩ := @unmoved_amend world _
        (fun past => { past with dispatched := some taskId, unspawned := some row.id }) rfl rfl
      exact ⟨rfl, rfl, rfl, decided, recorded⟩
  | spawn => exact unmoved_release world _
  | respond =>
      obtain ⟨_, _, _, decided, recorded⟩ := unmoved_release world _
      exact ⟨rfl, rfl, rfl, decided, recorded⟩
  | _ => exact ⟨rfl, rfl, rfl, fun _ => rfl, fun _ => rfl⟩

/-- A request passed its verdict on a review. -/
structure Passed (request : Nat) (id : Uuid) (world after : World) : Prop where
  decisions : after.decisions = id :: world.decisions
  comments : after.db.comments.length ≤ world.db.comments.length + 1
  logs : after.db.auditLogs = world.db.auditLogs
  own : (after.past request).decided = some id
  others : ∀ other, other ≠ request → after.past other = world.past other

theorem passed_of_effect {reviewId taskId : Uuid} {orgId : String} {verdict : ReviewState}
    {target : TaskState} {feedback : Option ReviewComment} {db : Db} {now : Timestamp}
    (applied : ReviewStore.applyVerdict world.db reviewId orgId verdict taskId target feedback
      now = (db, .ok ())) :
    Passed request reviewId world
      ((({ withDb world db with decisions := reviewId :: world.decisions }).credit taskId
        none).amend request fun past => { past with decided := some reviewId }) := by
  obtain ⟨_, comments, logs⟩ := review_of_applied applied
  refine ⟨rfl, ?_, logs, by rw [amend_past_self], fun other differs => ?_⟩
  · show db.comments.length ≤ _
    rw [comments, List.length_append]
    have one : feedback.toList.length ≤ 1 := by cases feedback <;> simp
    lia
  · exact amend_past_of_ne _ _ differs

theorem Recorded.passed (recorded : Recorded world)
    (undecided : (world.past request).decided = none) (fresh : id ∉ world.decisions)
    (passed : Passed request id world after) : Recorded after := by
  have mine : ∀ {number decided}, (after.past number).decided = some decided →
      number = request ∧ decided = id ∨
        number ≠ request ∧ (world.past number).decided = some decided := by
    intro number decided now
    by_cases same : number = request
    · subst same
      exact .inl ⟨rfl, Option.some.inj (now.symm.trans passed.own)⟩
    · rw [passed.others number same] at now
      exact .inr ⟨same, now⟩
  refine ⟨?_, ?_, fun now => ?_, fun left right => ?_, fun log member verdict => ?_, fun id => ?_⟩
  · rw [passed.decisions]
    exact List.nodup_cons.mpr ⟨fresh, recorded.verdicts⟩
  · rw [passed.decisions, List.length_cons]
    exact passed.comments.trans (Nat.succ_le_succ recorded.feedback)
  · rw [passed.decisions]
    rcases mine now with ⟨_, rfl⟩ | ⟨_, before⟩
    · exact List.mem_cons_self
    · exact List.mem_cons_of_mem _ (recorded.decided before)
  · rcases mine left with ⟨rfl, rfl⟩ | ⟨_, first⟩
    · rcases mine right with ⟨rfl, _⟩ | ⟨_, second⟩
      · rfl
      · exact absurd (recorded.decided second) fresh
    · rcases mine right with ⟨rfl, rfl⟩ | ⟨_, second⟩
      · exact absurd (recorded.decided first) fresh
      · exact recorded.single first second
  · rw [passed.logs] at member
    obtain ⟨number, decided, done⟩ := recorded.logged log member verdict
    have differs : number ≠ request := by
      rintro rfl
      cases undecided.symm.trans decided
    rw [← passed.others number differs] at decided done
    exact ⟨number, decided, done⟩
  · rw [verdictLogs, passed.logs]
    exact recorded.logs id

/-- A request recorded something. -/
structure Told (request : Nat) (log : AuditLog) (world after : World) : Prop where
  decisions : after.decisions = world.decisions
  comments : after.db.comments = world.db.comments
  logs : after.db.auditLogs = log :: world.db.auditLogs
  decided : ∀ number, (after.past number).decided = (world.past number).decided
  own : (after.past request).recorded = true
  others : ∀ other, other ≠ request → after.past other = world.past other

theorem told_of_effect (world : World) (request : Nat) (log : AuditLog) :
    Told request log world
      ((withDb world { world.db with auditLogs := log :: world.db.auditLogs }).amend request
        fun past => { past with recorded := true }) := by
  refine ⟨rfl, rfl, rfl, fun number => ?_, by rw [amend_past_self], fun other differs => ?_⟩
  · by_cases same : number = request
    · subst same
      rw [amend_past_self]
    · rw [amend_past_of_ne _ _ same]
  · exact amend_past_of_ne _ _ differs

theorem Recorded.told {log : AuditLog} (recorded : Recorded world)
    (own : log.action ≠ .reviewCreate →
      (world.past request).decided = some log.resourceId ∧
        (world.past request).recorded = false)
    (told : Told request log world after) : Recorded after := by
  refine ⟨?_, ?_, fun now => ?_, fun left right => ?_, fun other member verdict => ?_,
    fun id => ?_⟩
  · rw [told.decisions]
    exact recorded.verdicts
  · rw [told.comments, told.decisions]
    exact recorded.feedback
  · rw [told.decided] at now
    rw [told.decisions]
    exact recorded.decided now
  · rw [told.decided] at left right
    exact recorded.single left right
  · rw [told.logs] at member
    rcases List.mem_cons.mp member with rfl | before
    · exact ⟨request, (told.decided request).trans (own verdict).1, told.own⟩
    · obtain ⟨number, decided, done⟩ := recorded.logged other before verdict
      refine ⟨number, (told.decided number).trans decided, ?_⟩
      by_cases same : number = request
      · exact same ▸ told.own
      · rwa [told.others number same]
  · rw [verdictLogs, told.logs, List.filter_cons]
    split
    case isFalse => exact recorded.logs id
    case isTrue mine =>
        -- an earlier record of the review were this request's own, which recorded nothing yet
        obtain ⟨verdict, rfl⟩ : log.action ≠ .reviewCreate ∧ log.resourceId = id := by
          simpa using mine
        obtain ⟨decided, unrecorded⟩ := own verdict
        suffices none_before : verdictLogs world.db log.resourceId = [] by
          rw [verdictLogs] at none_before
          rw [none_before]
          exact le_rfl
        refine List.eq_nil_iff_forall_not_mem.mpr fun other member => ?_
        rw [verdictLogs, List.mem_filter] at member
        obtain ⟨also, same⟩ : other.action ≠ .reviewCreate ∧
            other.resourceId = log.resourceId := by
          simpa using member.2
        obtain ⟨number, earlier, done⟩ := recorded.logged other member.1 also
        obtain rfl := recorded.single decided (same ▸ earlier)
        cases unrecorded.symm.trans done

theorem fresh_of_inTime {reviewId taskId : Uuid} {orgId : String} {verdict : ReviewState}
    {target : TaskState} {feedback : Option ReviewComment} {db : Db} {now : Timestamp}
    (ruled : Ruled world)
    (may : May actor world (.applyVerdict request reviewId orgId verdict taskId target feedback))
    (inTime : InTime world
      (.applyVerdict request reviewId orgId verdict taskId target feedback))
    (applied : ReviewStore.applyVerdict world.db reviewId orgId verdict taskId target feedback
      now = (db, .ok ())) : reviewId ∉ world.decisions := by
  intro decided
  obtain ⟨review, member, rfl, terminal⟩ := ruled _ decided
  obtain ⟨⟨other, there, hit, _⟩, _⟩ := review_of_applied applied
  obtain rfl : other = review := by
    refine Table.eq_of_key_eq there member ?_
    rw [CodeReview.isAt, Bool.and_eq_true_iff] at hit
    exact beq_iff_eq.mp hit.1
  cases (open_of_inTime may inTime member hit).symm.trans terminal

theorem Recorded.effect (recorded : Recorded world) (ruled : Ruled world)
    (may : May actor world operation) (inTime : InTime world operation)
    (effect : Effect world operation after) : Recorded after := by
  by_cases verdictless : Verdictless operation
  · by_cases logless : ∀ request log, operation ≠ .createAudit request log
    · exact recorded.unmoved (unmoved_of_effect effect verdictless logless)
    · simp only [not_forall, not_not] at logless
      obtain ⟨number, log, rfl⟩ := logless
      cases effect with
      | same => exact recorded
      | createAudit =>
          obtain ⟨rfl, _⟩ := owner_of_may may rfl
          exact recorded.told may.2.2 (told_of_effect world number log)
  · simp only [Verdictless, not_forall, not_not] at verdictless
    obtain ⟨number, reviewId, orgId, verdict, taskId, target, feedback, rfl⟩ := verdictless
    cases effect with
    | same => exact recorded
    | applyVerdict now applied =>
        exact recorded.passed (may_verdict may).1 (fresh_of_inTime ruled may inTime applied)
          (passed_of_effect applied)

/-! ## The escalation reaper -/

theorem spares_reap {graceSecs limit : Nat} {locked : List Uuid} {now : Timestamp}
    (ruled : Ruled world) :
    SparesDecided world
      { world with db := reapOverdueReviews world.db graceSecs limit locked now } := by
  intro review member decided
  have terminal : review.state.isTerminal = true := by
    refine decided.elim (fun decided => ?_) id
    obtain ⟨other, there, same, terminal⟩ := ruled _ decided
    rwa [← Table.eq_of_key_eq there member same]
  refine @Table.mem_update_of_miss _ _ _ _ _ _ (by exact fun _ => rfl) _ member ?_
  rw [terminal, Bool.not_true, Bool.and_false, Bool.false_and]

/-! ## Runs -/

abbrev Reached (services : Services) (state : State) : Prop :=
  Reachable (exec services) (· = start) Timely state

theorem ruled_exec (good : Good (rules services) state) (ruled : Ruled state.state)
    (action : Action) : Ruled (exec services state action).state := by
  cases action with
  | request req => exact ruled
  | step actor choice =>
      rcases step_effect state actor choice with idle | ⟨operation, next, middle, due, effect, done⟩
      · rwa [idle]
      · have middle_ruled := ruled.effect (good.may due) effect
        rcases done with done | ⟨whom, _, done⟩
        · rwa [done]
        · rw [done]
          exact middle_ruled
  | drop actor => cases actor <;> exact ruled
  | reapDispatches ttlSecs locked now => exact ruled
  | reapReviews graceSecs limit locked now =>
      intro id decided
      obtain ⟨review, member, rfl, terminal⟩ := ruled id decided
      exact ⟨review, spares_reap ruled review member (.inr terminal), rfl, terminal⟩

theorem ruled_of_reachable {allowed : State → Action → Prop}
    (reached : Reachable (exec services) (· = start) allowed state) : Ruled state.state := by
  obtain ⟨_, rfl, later⟩ := reached
  have keep : ∀ pool action, Good (rules services) pool → Ruled pool.state →
      allowed pool action → Ruled (exec services pool action).state :=
    fun _ action good ruled _ => ruled_exec good ruled action
  exact stable_of_good good_start keep later fun id decided => absurd decided List.not_mem_nil

theorem keeps_exec (good : Good (rules services) state) (timely : Timely state action) :
    Keeps state.state.db (exec services state action).state.db := by
  have same : Keeps state.state.db state.state.db := fun review member _ => ⟨review, member, rfl, rfl⟩
  cases action with
  | request req => exact same
  | step actor choice =>
      rcases step_db state actor choice with idle | ⟨operation, next, middle, due, effect, done⟩
      · rwa [idle]
      · rw [Timely, due] at timely
        rw [done]
        exact keeps_of_effect (good.may due) timely effect
  | drop actor => cases actor <;> exact same
  | reapDispatches ttlSecs locked now => exact same
  | reapReviews graceSecs limit locked now =>
      intro review member _
      obtain ⟨later, there, id, reaped⟩ := reviews_reap.forward member
      exact ⟨later, there, id, reaped.1⟩

theorem Keeps.trans {first second third : Db} (left : Keeps first second)
    (right : Keeps second third) : Keeps first third := by
  intro review member terminal
  obtain ⟨middle, between, id, same⟩ := left review member terminal
  obtain ⟨later, there, key, kept⟩ := right middle between (same ▸ terminal)
  exact ⟨later, there, key.trans id, kept.trans same⟩

theorem recorded_exec (good : Good (rules services) state) (ruled : Ruled state.state)
    (recorded : Recorded state.state) (timely : Timely state action) :
    Recorded (exec services state action).state := by
  cases action with
  | request req => exact recorded.unmoved ⟨rfl, rfl, rfl, fun _ => rfl, fun _ => rfl⟩
  | step actor choice =>
      rcases step_effect state actor choice with idle | ⟨operation, next, middle, due, effect, done⟩
      · rwa [idle]
      · rw [Timely, due] at timely
        have middle_recorded := recorded.effect ruled (good.may due) timely effect
        rcases done with done | ⟨whom, _, done⟩
        · rwa [done]
        · rw [done]
          exact middle_recorded.unmoved (unmoved_interrupt middle whom)
  | drop actor =>
      cases actor with
      | request number => exact recorded.unmoved (unmoved_release state.state number)
      | spawn id => exact recorded
  | reapDispatches ttlSecs locked now =>
      exact recorded.unmoved ⟨rfl, rfl, rfl, fun _ => rfl, fun _ => rfl⟩
  | reapReviews graceSecs limit locked now =>
      exact recorded.unmoved ⟨rfl, rfl, rfl, fun _ => rfl, fun _ => rfl⟩

theorem recorded_start : Recorded start.state :=
  ⟨List.nodup_nil, le_rfl, nofun, nofun, nofun, fun _ => Nat.zero_le _⟩

theorem recorded_of_reached (reached : Reached services state) : Recorded state.state := by
  obtain ⟨_, rfl, later⟩ := reached
  have keep : ∀ pool action, Good (rules services) pool →
      Ruled pool.state ∧ Recorded pool.state → Timely pool action →
        Ruled (exec services pool action).state ∧ Recorded (exec services pool action).state :=
    fun _ action good ⟨ruled, recorded⟩ timely =>
      ⟨ruled_exec good ruled action, recorded_exec good ruled recorded timely⟩
  exact (stable_of_good good_start keep later
    ⟨fun id decided => absurd decided List.not_mem_nil, recorded_start⟩).2

theorem keeps_of_reaches (good : Good (rules services) state) {later : State}
    (reaches : Reaches (exec services) Timely state later) :
    Keeps state.state.db later.state.db := by
  have keep : ∀ pool action, Good (rules services) pool → Keeps state.state.db pool.state.db →
      Timely pool action → Keeps state.state.db (exec services pool action).state.db :=
    fun _ _ good kept timely => kept.trans (keeps_exec good timely)
  exact stable_of_good good keep reaches fun review member _ => ⟨review, member, rfl, rfl⟩

/-! ## Runs on one review -/

def audited : Services := ⟨false, false, true⟩

def theReview : CodeReview where
  id := theId
  taskId := theId
  sessionId := "session"
  diffRef := "diff"
  state := .pending
  assignedTo := none
  orgId := "org"
  createdBy := "creator"
  createdAt := 0
  updatedAt := 0
  dueAt := some 0
  escalatedAt := none

def reviewer : Reviewer := ⟨"org", "reviewer", "human"⟩

def asking : List Action :=
  serve 0 (.createTask theTask) {} ++ serve 1 (.createReview theReview) {}

def approving : Request := .approve reviewer theId

def rejecting : Request := .reject reviewer theId (some "feedback")

def racing : List Action :=
  asking ++ .request approving :: steps (.request 2) 1 {} ++ serve 3 rejecting {}

/-- However verdict requests and the escalation reaper interleave, as long as the verdict
transactions come in time: a review in a terminal state keeps it, one verdict at most takes effect
on a review, with one audit record at most; and the reaper leaves the decided reviews as they are. -/
theorem review_verdicts (services : Services) {state : State} (reached : Reached services state) :
    (∀ later, Reaches (exec services) Timely state later → Keeps state.state.db later.state.db) ∧
    Once state.state ∧
    ∀ graceSecs limit locked now, SparesDecided state.state
      (exec services state (.reapReviews graceSecs limit locked now)).state := by
  refine ⟨fun later reaches => keeps_of_reaches (good_of_reachable reached) reaches,
    (recorded_of_reached reached).once, fun graceSecs limit locked now => ?_⟩
  exact spares_reap (ruled_of_reachable reached)

/-- The review is approved, and a later request to reject it is refused. -/
theorem review_verdicts_approving :
    (run (exec audited) start (asking ++ serve 2 approving {})).state.decisions = [theId] ∧
    Keeps (run (exec audited) start (asking ++ serve 2 approving {})).state.db
      (run (exec audited) (run (exec audited) start (asking ++ serve 2 approving {}))
        (serve 3 rejecting {})).state.db ∧
    Once (run (exec audited) start (asking ++ serve 2 approving {})).state ∧
    SparesDecided (run (exec audited) start (asking ++ serve 2 approving {})).state
      (exec audited (run (exec audited) start (asking ++ serve 2 approving {}))
        (.reapReviews 0 1 [] 1)).state := by
  have reached : Reached audited (run (exec audited) start (asking ++ serve 2 approving {})) :=
    reachable_run rfl (by decide +kernel)
  obtain ⟨keeps, once, spares⟩ := review_verdicts audited reached
  exact ⟨by decide +kernel, keeps _ (reaches_run (by decide +kernel)), once, spares 0 1 [] 1⟩

/-- The rejected review is approved: both verdicts take effect, and both are recorded. -/
theorem decided_twice :
    ¬Keeps (run (exec audited) start racing).state.db
        (run (exec audited) start (racing ++ steps (.request 2) 3 {})).state.db ∧
      ¬Once (run (exec audited) start (racing ++ steps (.request 2) 3 {})).state ∧
      (verdictLogs (run (exec audited) start
        (racing ++ steps (.request 2) 3 {})).state.db theId).length = 2 := by
  refine ⟨by decide +kernel, fun once => ?_, by decide +kernel⟩
  have logs := once.logs theId
  revert logs
  decide +kernel

end Forge.ReviewVerdicts
