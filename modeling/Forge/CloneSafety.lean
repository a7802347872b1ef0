import Forge.CloneDiscipline
import Forge.Library.StateMachine

/-! The worker, its reconciler and a retry request keep to the rules, in whatever order they run. -/

namespace Forge.CloneSafety

open Forge.CloneChanges hiding withDb withDisk
open Forge.CloneDiscipline
open Forge.CloneDomain
open Forge.CloneOperations
open Forge.CloneRepository
open Forge.CloneWorker
open Forge.Library.Batch
open Forge.Library.Identifier
open Forge.Library.Interleaving
open Forge.Library.Interleaving.Attempt hiding call
open Forge.Library.KeyedTable
open Forge.Library.StateMachine

variable {config : CloneWorkerConfig} {state later : World} {actor : Actor} {operation : Op}
  {choice : Choice} {row : ProjectCloneAttempt} {id : Uuid} {workerId : String} {free : Bool}

/-! ## Replies -/

theorem access_ok {α : Type} {result : World × Except AppError α} {value : α}
    (same : (access state choice result).2 = .ok value) : access state choice result = result := by
  rw [access] at same ⊢
  split at same
  case h_1 => cases same
  case h_2 => rfl

theorem reading_ok {α : Type} {answer value : α}
    (same : (reading state choice answer).2 = .ok value) : answer = value := by
  have done := access_ok same
  rw [reading, done] at same
  exact Except.ok.inj same

theorem deciding_ok {α : Type} {recovery : Option Recovery} {goesOn : α → Bool}
    {result : World × Except AppError α} {value : α}
    (same : (deciding recovery goesOn result).2 = .ok value) : result.2 = .ok value := by
  obtain ⟨world, err | answer⟩ := result
  · cases same
  · exact same

theorem given_of_deciding {α : Type} {recovery : Recovery} {goesOn : α → Bool}
    {result : World × Except AppError α}
    (stops : ∀ value, result.2 = .ok value → goesOn value = false) :
    recovery ∈ (deciding (some recovery) goesOn result).1.givenUp := by
  obtain ⟨world, err | answer⟩ := result
  · exact List.mem_cons_self
  · have stop := stops answer rfl
    rw [deciding, if_neg (Bool.eq_false_iff.mp stop)]
    exact List.mem_cons_self

theorem follows_perform (world : World) (operation : Op) (choice : Choice) (free : Bool) :
    Follows world.db (perform world operation choice free).1.db := by
  obtain ⟨middle, effect, done | done⟩ := perform_effect world operation choice free
  · exact done ▸ follows_of_effect effect
  · rw [done, giveUp_db]
    exact follows_of_effect effect

theorem owns_perform (sound : Sound state) (owns : Owns state workerId id) (operation : Op)
    (choice : Choice) (free : Bool) : Owns (perform state operation choice free).1 workerId id := by
  obtain ⟨middle, effect, done | done⟩ := perform_effect state operation choice free
  · exact done ▸ owner_of_effect sound effect owns
  · rw [done, Owns, giveUp_owner]
    exact owner_of_effect sound effect owns

theorem past_perform (differs : concerns operation ≠ some actor) (choice : Choice) (free : Bool) :
    (perform state operation choice free).1.past actor = state.past actor := by
  obtain ⟨middle, effect, done | done⟩ := perform_effect state operation choice free
  · exact done ▸ past_of_effect effect differs
  · rw [done, giveUp_past]
    exact past_of_effect effect differs

theorem publications_perform
    (unpublishing : ∀ worker id projectId target success,
      operation ≠ .publishReadyLocked worker id projectId target success) (choice : Choice)
    (free : Bool) : (perform state operation choice free).1.publications = state.publications := by
  obtain ⟨middle, effect, done⟩ := perform_effect state operation choice free
  have same : middle.publications = state.publications := by
    rcases publications_of_effect effect with same | ⟨_, _, _, _, _, rfl, _⟩
    · exact same
    · exact absurd rfl (unpublishing _ _ _ _ _)
  rcases done with done | done
  · rw [done, same]
  · rw [done, giveUp_publications, same]

/-! ## Rules for programs -/

theorem safe_keeping {fact : World → Prop} (now : fact state)
    (lasts : ∀ before after, Relies actor before after → fact before → fact after)
    (may : ∀ later, Sound later → fact later → May config actor later operation)
    (own : ∀ later choice free, Sound later → fact later →
      fact (perform later operation choice free).1) :
    Safe (rules config) actor (call operation) (fun _ later => fact later) state := by
  intro before relies sound
  have holds := lasts state before relies now
  refine ⟨may before sound holds, fun choice free _ after relies _ => ?_⟩
  exact lasts _ after relies (own before choice free sound holds)

theorem safe_reply {fact : World → Prop} {post : Except AppError (Answer operation) → World → Prop}
    (now : fact state)
    (lasts : ∀ before after, Relies actor before after → fact before → fact after)
    (may : ∀ later, Sound later → fact later → May config actor later operation)
    (replies : ∀ later choice free, Sound later → fact later →
      post (perform later operation choice free).2 (perform later operation choice free).1)
    (stays : ∀ reply before after, Relies actor before after → post reply before →
      post reply after) :
    Safe (rules config) actor (call operation) post state := by
  intro before relies sound
  have holds := lasts state before relies now
  refine ⟨may before sound holds, fun choice free _ after relies _ => ?_⟩
  exact stays _ _ after relies (replies before choice free sound holds)

theorem safe_done {α : Type} {value : Except AppError α} :
    Safe (rules config) actor (Prog.done value : Io α) (fun _ _ => True) state :=
  fun _ _ _ => trivial

theorem safe_orElse {α β : Type} {io : Io α} {onError : Io β} {rest : α → Io β}
    {middle : Except AppError α → World → Prop} {post : Except AppError β → World → Prop}
    (first : Safe (rules config) actor io middle state)
    (errors : ∀ err later, Sound later → middle (.error err) later →
      Safe (rules config) actor onError post later)
    (values : ∀ value later, Sound later → middle (.ok value) later →
      Safe (rules config) actor (rest value) post later) :
    Safe (rules config) actor (orElse io onError rest) post state := by
  refine safe_observe first fun outcome later sound holds => ?_
  cases outcome with
  | error err => exact errors err later sound holds
  | ok value => exact values value later sound holds

theorem safe_then {α β : Type} {io : Io α} {rest : α → Io β}
    {middle : Except AppError α → World → Prop} (first : Safe (rules config) actor io middle state)
    (values : ∀ value later, Sound later → middle (.ok value) later →
      Safe (rules config) actor (rest value) (fun _ _ => True) later) :
    Safe (rules config) actor (io >>= rest : Io β) (fun _ _ => True) state :=
  safe_bind first values fun _ _ _ _ _ _ => trivial

theorem safe_bestEffort {α : Type} {io : Io α} {fact : World → Prop}
    (lasts : ∀ before after, Relies actor before after → fact before → fact after)
    (first : Safe (rules config) actor io (fun _ later => fact later) state) :
    Safe (rules config) actor (bestEffort io) (fun _ later => fact later) state := by
  refine safe_observe first fun _ later _ holds after relies _ => ?_
  exact lasts later after relies holds

theorem safe_attempt {α : Type} {io : Io α}
    (first : Safe (rules config) actor io (fun _ _ => True) state) :
    Safe (rules config) actor (bestEffort io) (fun _ _ => True) state :=
  safe_observe first fun _ _ _ _ => safe_done

theorem safe_free (may : ∀ later, May config actor later operation) :
    Safe (rules config) actor (call operation) (fun _ _ => True) state :=
  fun before _ _ => ⟨may before, fun _ _ _ => safe_done⟩

theorem only_trivial {α : Type} (io : Io α) : Prog.Only (fun _ => True) io := by
  induction io with
  | done value => trivial
  | op operation next ih => exact ⟨trivial, ih⟩

theorem safe_lasting {α : Type} {io : Io α} {post : Except AppError α → World → Prop}
    (fact : Db → Prop) (lasts : ∀ db next, Follows db next → fact db → fact next)
    (safe : Safe (rules config) actor io post state) (now : fact state.db) :
    Safe (rules config) actor io (fun outcome later => post outcome later ∧ fact later.db)
      state := by
  have own : ∀ later operation choice free, Sound later → May config actor later operation →
      True → True → fact later.db → fact (perform later operation choice free).1.db :=
    fun later operation choice free _ _ _ _ => lasts _ _ (follows_perform ..)
  have others : ∀ before after, Relies actor before after → fact before.db → fact after.db :=
    fun before after relies => lasts _ _ relies.follows
  exact Safe.frame safe (only_trivial io) own others now

theorem safe_forEach {α : Type} {each : α → Io Unit} {items : List α} (fact : α → Db → Prop)
    (lasts : ∀ item db next, Follows db next → fact item db → fact item next)
    (safe : ∀ item later, Sound later → fact item later.db →
      Safe (rules config) actor (each item) (fun _ _ => True) later)
    (sound : Sound state) (now : ∀ item ∈ items, fact item state.db) :
    Safe (rules config) actor (forEach each items) (fun _ _ => True) state := by
  induction items generalizing state with
  | nil => exact safe_done
  | cons item rest ih =>
      have all : ∀ db next, Follows db next → (∀ other ∈ rest, fact other db) →
          ∀ other ∈ rest, fact other next :=
        fun db next follows holds other member => lasts other db next follows (holds other member)
      have first := safe item state sound (now item List.mem_cons_self)
      have framed := safe_lasting (fun db => ∀ other ∈ rest, fact other db) all first
        fun other member => now other (List.mem_cons_of_mem _ member)
      exact safe_then framed fun _ _ sound holds => ih sound holds.2

theorem safe_scan {α : Type} {query : Io (List α)} {each : α → Io Unit} (fact : α → Db → Prop)
    (lasts : ∀ item db next, Follows db next → fact item db → fact item next)
    (first : Safe (rules config) actor query
      (fun reply later => ∀ items, reply = .ok items → ∀ item ∈ items, fact item later.db) state)
    (safe : ∀ item later, Sound later → fact item later.db →
      Safe (rules config) actor (each item) (fun _ _ => True) later) :
    Safe (rules config) actor (scan query each) (fun _ _ => True) state := by
  refine safe_orElse first (fun _ _ _ _ => safe_done) fun items later sound holds => ?_
  exact safe_forEach fact lasts safe sound (holds items rfl)

/-! ## The worker -/

/-- The worker claimed the attempt, and did not publish it so far. -/
structure Mine (workerId : String) (row : ProjectCloneAttempt) (world : World) : Prop where
  owns : Owns world workerId row.id
  fresh : Unpublished world row.id
  known : Known world.db row

theorem Mine.onward {after : World} (mine : Mine workerId row state)
    (relies : Relies (.worker workerId) state after) : Mine workerId row after :=
  ⟨relies.owner _ _ mine.owns, relies.unpublished _ _ rfl mine.owns mine.fresh,
    mine.known.onward relies.follows⟩

theorem Mine.perform (mine : Mine workerId row state) (sound : Sound state)
    (unpublishing : ∀ worker id projectId target success,
      operation ≠ .publishReadyLocked worker id projectId target success) (choice : Choice)
    (free : Bool) : Mine workerId row (perform state operation choice free).1 := by
  refine ⟨owns_perform sound mine.owns .., ?_, mine.known.onward (follows_perform ..)⟩
  intro publication listed
  rw [publications_perform unpublishing] at listed
  exact mine.fresh publication listed

theorem safe_mine (mine : Mine workerId row state)
    (may : ∀ later, Mine workerId row later → MayWork config later workerId operation)
    (unpublishing : ∀ worker id projectId target success,
      operation ≠ .publishReadyLocked worker id projectId target success) :
    Safe (rules config) (.worker workerId) (call operation)
      (fun _ later => Mine workerId row later) state :=
  safe_keeping mine (fun _ _ relies mine => mine.onward relies) (fun later _ mine => may later mine)
    fun _ choice free sound mine => mine.perform sound unpublishing choice free

section Worker

variable {target : TargetPath} {success : CloneSuccess}

theorem effective {α : Type} {world : World} {result : World × Except AppError α} {value : α}
    (same : (access world choice result).2 = .ok value) :
    (access world choice result).1 = result.1 ∧ result.2 = .ok value := by
  have done := access_ok same
  exact ⟨congrArg Prod.fst done, by rwa [done] at same⟩

theorem ended_finalizeFailed {db : Db} (known : Known db row) :
    Ended (finalizeFailed db row.id).1 row.id := by
  obtain ⟨current, member, later⟩ := known
  refine ⟨_, mem_transition.mpr ⟨current, member, rfl⟩, ?_, ?_⟩
  · split
    · exact later.same.id
    · exact later.same.id
  · split
    · rfl
    case isFalse missed =>
        have closed : inFlight current.status = false := by
          simpa [openAt, later.same.id] using missed
        revert closed
        cases current.status with
        | queued =>
            intro closed
            cases closed
        | cloning =>
            intro closed
            cases closed
        | _ => exact fun _ => rfl

/-- The failure is recorded, and the attempt is closed. -/
structure Failed (actor : Actor) (row : ProjectCloneAttempt) (world : World) : Prop where
  known : Known world.db row
  ended : Ended world.db row.id
  failed : ∃ hit, (world.past actor).failure = some (row.id, hit)

theorem Failed.onward {after : World} (failed : Failed actor row state)
    (relies : Relies actor state after) : Failed actor row after :=
  ⟨failed.known.onward relies.follows, failed.ended.onward relies.follows,
    relies.past ▸ failed.failed⟩

theorem failed_perform (known : Known state.db row) (choice : Choice) (free : Bool)
    (same : (perform state (.finalizeFailed actor row.id) choice free).2 = .ok ()) :
    Failed actor row (perform state (.finalizeFailed actor row.id) choice free).1 := by
  rw [perform, settled] at same ⊢
  cases outcome : (access state choice (performFail state row.id)).2 with
  | error err =>
      rw [outcome] at same
      cases same
  | ok hit =>
      obtain ⟨reached, done⟩ := effective outcome
      rw [reached]
      have onward : Onward (fun _ => False) state.db (finalizeFailed state.db row.id).1 := onward_fail
      have follows := follows_of_onward onward
      refine ⟨known.onward follows, ended_finalizeFailed known, hit, ?_⟩
      simp

theorem safe_scheduleRetryFor (failed : Failed actor row state)
    (own : ∀ world delay, MayRetry config world actor row →
      May config actor world (.scheduleRetry actor row none delay)) :
    Safe (rules config) actor (scheduleRetryFor config actor row) (fun _ _ => True) state := by
  rw [scheduleRetryFor]
  split
  case isTrue => exact safe_done
  case isFalse below =>
      refine safe_attempt fun before relies _ => ⟨own before _ ?_, fun _ _ _ => safe_done⟩
      have failed := failed.onward relies
      exact ⟨failed.known, failed.ended, by omega, failed.failed⟩

theorem safe_finishFailed (mine : Mine workerId row state) :
    Safe (rules config) (.worker workerId) (finishFailed config workerId row) (fun _ _ => True)
      state := by
  have closed : Safe (rules config) (.worker workerId)
      (call (.finalizeFailed (.worker workerId) row.id))
      (fun reply later => reply = .ok () → Failed (.worker workerId) row later) state := by
    refine safe_reply mine (fun _ _ relies mine => mine.onward relies) ?_ ?_ ?_
    · exact fun later _ mine => ⟨rfl, mine.owns, mine.fresh⟩
    · exact fun later choice free _ mine same => failed_perform mine.known choice free same
    · exact fun reply before after relies failed same => (failed same).onward relies
  refine safe_then closed fun _ later _ failed => ?_
  exact safe_scheduleRetryFor (failed rfl) fun _ _ may => ⟨rfl, rfl, may⟩

theorem safe_cleanup (mine : Mine workerId row state) :
    Safe (rules config) (.worker workerId) (cleanup row) (fun _ later => Mine workerId row later)
      state :=
  safe_bestEffort (fun _ _ relies mine => mine.onward relies)
    (safe_mine mine (fun _ _ => trivial) nofun)

theorem safe_cleanupAndFail (mine : Mine workerId row state) :
    Safe (rules config) (.worker workerId) (cleanupAndFail config workerId row) (fun _ _ => True)
      state :=
  safe_then (safe_cleanup mine) fun _ _ _ mine => safe_finishFailed mine

theorem safe_force : Safe (rules config) (.worker workerId) (force row success) (fun _ _ => True)
    state :=
  safe_then (safe_free fun _ => trivial) fun _ _ _ _ => safe_done

theorem safe_cleanup_free : Safe (rules config) (.worker workerId) (cleanup row) (fun _ _ => True)
    state :=
  safe_attempt (safe_free fun _ => trivial)

theorem publish_cases {outcome : PublishOutcome} {projectId : Uuid} {free : Bool}
    (same : (perform state (.publishReadyLocked workerId id projectId target success) choice
      free).2 = .ok outcome) :
    (∃ finalized, outcome = .published finalized) ∨
      (perform state (.publishReadyLocked workerId id projectId target success) choice free).1 =
          state ∧
        (outcome = .renameFailed ∨
          outcome = .projectGone ∧ liveDirName state.db projectId ≠ some target.dirName.value) := by
  rw [perform, performPublish] at same ⊢
  split at same
  case isTrue live =>
      rw [if_pos live]
      split at same
      case h_1 disk tree renamed granted =>
          dsimp only at same
          split at same
          · exact .inl ⟨_, (Except.ok.inj same).symm⟩
          · cases same
      case h_2 refused =>
          exact .inr ⟨reading_state _ _ _, .inl (reading_ok same).symm⟩
  case isFalse gone =>
      rw [if_neg gone]
      exact .inr ⟨reading_state _ _ _, .inr ⟨(reading_ok same).symm, gone⟩⟩

theorem dead_of_gone {db : Db} {organizationId projectId : Uuid}
    (isOf : IsOf db id organizationId projectId) (aims : Aims db id target)
    (gone : liveDirName db projectId ≠ some target.dirName.value) : Dead db id := by
  obtain ⟨current, member, rfl, -, rfl⟩ := isOf
  obtain ⟨other, there, same, -, -, project, listed, key, name⟩ := aims
  obtain rfl := Table.eq_of_key_eq there member same
  refine ⟨other, there, same, project, listed, key, ?_⟩
  by_contra alive
  rw [Bool.not_eq_false] at alive
  refine gone ?_
  rw [liveDirName]
  cases found : db.projects.find? fun project => project.id == other.projectId && project.isLive with
  | none =>
      have missed := Table.find?_eq_none.mp found project listed
      simp [key, alive] at missed
  | some first =>
      obtain ⟨first_listed, hit⟩ := Table.mem_of_find? found
      simp only [Bool.and_eq_true, beq_iff_eq] at hit
      obtain rfl := Table.eq_of_key_eq first_listed listed (hit.1.trans key.symm)
      rw [Option.map_some, name]

/-- What the worker knows when it is about to publish. -/
structure Ready (workerId : String) (row : ProjectCloneAttempt) (target : TargetPath)
    (world : World) : Prop where
  mine : Mine workerId row world
  aims : Aims world.db row.id target

theorem Ready.onward {after : World} (ready : Ready workerId row target state)
    (relies : Relies (.worker workerId) state after) : Ready workerId row target after :=
  ⟨ready.mine.onward relies, ready.aims.onward relies.follows⟩

theorem safe_ready (ready : Ready workerId row target state)
    (may : ∀ later, Ready workerId row target later → MayWork config later workerId operation)
    (unpublishing : ∀ worker id projectId target success,
      operation ≠ .publishReadyLocked worker id projectId target success) :
    Safe (rules config) (.worker workerId) (call operation)
      (fun _ later => Ready workerId row target later) state :=
  safe_keeping ready (fun _ _ relies ready => ready.onward relies)
    (fun later _ ready => may later ready) fun _ choice free sound ready =>
      ⟨ready.mine.perform sound unpublishing choice free,
        ready.aims.onward (follows_perform ..)⟩

theorem isOf_of_known {db : Db} (known : Known db row) :
    IsOf db row.id row.organizationId row.projectId := by
  obtain ⟨current, member, later⟩ := known
  exact ⟨current, member, later.same.id, later.same.organizationId, later.same.projectId⟩

/-- What the outcome of a publication leaves the worker with. -/
structure Published (workerId : String) (row : ProjectCloneAttempt)
    (reply : Except AppError PublishOutcome) (world : World) : Prop where
  gone : reply = .ok .projectGone → Dead world.db row.id
  failed : reply = .ok .renameFailed → Mine workerId row world

theorem safe_publish (ready : Ready workerId row target state) :
    Safe (rules config) (.worker workerId)
      (call (.publishReadyLocked workerId row.id row.projectId target success))
      (Published workerId row) state := by
  refine safe_reply ready (fun _ _ relies ready => ready.onward relies) ?_ ?_ ?_
  · intro later _ ready
    exact ⟨rfl, ready.mine.owns, ⟨_, isOf_of_known ready.mine.known⟩, ready.aims⟩
  · intro later choice free _ ready
    constructor
    · intro same
      rcases publish_cases same with ⟨_, differs⟩ | ⟨unchanged, differs | ⟨-, gone⟩⟩
      · cases differs
      · cases differs
      · rw [unchanged]
        exact dead_of_gone (isOf_of_known ready.mine.known) ready.aims gone
    · intro same
      rcases publish_cases same with ⟨_, differs⟩ | ⟨unchanged, _⟩
      · cases differs
      · rw [unchanged]
        exact ready.mine
  · intro reply before after relies published
    exact ⟨fun same => (published.gone same).onward relies.follows,
      fun same => (published.failed same).onward relies⟩

theorem safe_afterPublish {outcome : PublishOutcome}
    (published : Published workerId row (.ok outcome) state) :
    Safe (rules config) (.worker workerId) (afterPublish config workerId row success outcome)
      (fun _ _ => True) state := by
  cases outcome with
  | published finalized =>
      refine safe_then safe_cleanup_free fun _ _ _ _ => ?_
      split
      · exact safe_done
      · exact safe_force
  | projectGone =>
      have dead : Safe (rules config) (.worker workerId) (cleanup row)
          (fun _ later => True ∧ Dead later.db row.id) state :=
        safe_lasting (Dead · row.id) (fun _ _ follows dead => dead.onward follows)
          safe_cleanup_free (published.gone rfl)
      refine safe_then dead fun _ _ _ holds => ?_
      refine safe_attempt fun before relies _ => ⟨?_, fun _ _ _ => safe_done⟩
      exact Dead.onward relies.follows holds.2
  | renameFailed => exact safe_cleanupAndFail (published.failed rfl)

theorem safe_finishReady (ready : Ready workerId row target state) :
    Safe (rules config) (.worker workerId) (finishReady config workerId row target success)
      (fun _ _ => True) state := by
  refine safe_observe (safe_ready ready (fun _ _ => rfl) nofun) fun outcome later _ ready => ?_
  cases outcome with
  | ok _ =>
      dsimp only
      split
      · exact safe_then safe_cleanup_free fun _ _ _ _ => safe_force
      · exact safe_cleanupAndFail ready.mine
  | error _ =>
      refine safe_orElse (safe_ready ready (fun _ _ => trivial) nofun)
        (fun _ _ _ ready => safe_cleanupAndFail ready.mine) fun _ _ _ ready => ?_
      exact safe_then (safe_publish ready) fun _ _ _ published => safe_afterPublish published

theorem safe_finish {outcome : CloneRunOutcome × Int} (ready : Ready workerId row target state) :
    Safe (rules config) (.worker workerId) (finish config workerId row target outcome)
      (fun _ _ => True) state := by
  obtain ⟨outcome, durationMs⟩ := outcome
  cases outcome with
  | ready branch headSha bytes => exact safe_finishReady ready
  | _ => exact safe_cleanupAndFail ready.mine

theorem safe_launch (ready : Ready workerId row target state) :
    Safe (rules config) (.worker workerId) (launch config workerId row target) (fun _ _ => True)
      state := by
  refine safe_then (safe_bestEffort (fun _ _ relies ready => ready.onward relies)
    (safe_ready ready (fun _ _ => trivial) nofun)) fun _ _ _ ready => ?_
  exact safe_orElse (safe_ready ready (fun _ _ => trivial) nofun)
    (fun _ _ _ ready => safe_cleanupAndFail ready.mine) fun _ _ _ ready => safe_finish ready

theorem safe_withCredential {credential : Option Uuid} (ready : Ready workerId row target state) :
    Safe (rules config) (.worker workerId) (withCredential config workerId row target credential)
      (fun _ _ => True) state := by
  cases credential with
  | none => exact safe_launch ready
  | some credentialId =>
      exact safe_orElse (safe_ready ready (fun _ _ => trivial) nofun)
        (fun _ _ _ ready => safe_cleanupAndFail ready.mine) fun _ _ _ ready => safe_launch ready

theorem safe_stageAndRun (ready : Ready workerId row target state) :
    Safe (rules config) (.worker workerId) (stageAndRun config workerId row target)
      (fun _ _ => True) state := by
  refine safe_orElse (safe_ready ready (fun _ _ => trivial) nofun)
    (fun _ _ _ ready => safe_finishFailed ready.mine) fun _ _ _ ready => ?_
  exact safe_orElse (safe_ready ready (fun _ _ => trivial) nofun)
    (fun _ _ _ ready => safe_cleanupAndFail ready.mine) fun _ _ _ ready =>
      safe_withCredential ready

/-! ## Directory names -/

theorem aims_of_name {db : Db} {raw : String} {name : WorkspaceDirName} (known : Known db row)
    (found : CloneRepository.projectDirName db row.organizationId row.projectId = some raw)
    (parsed : WorkspaceDirName.parse raw = some name) : Aims db row.id (targetOf row name) := by
  obtain ⟨current, member, later⟩ := known
  obtain ⟨project, first, rfl⟩ := Option.map_eq_some_iff.mp found
  obtain ⟨listed, hit⟩ := Table.mem_of_find? first
  simp only [Bool.and_eq_true, beq_iff_eq] at hit
  refine ⟨current, member, later.same.id, later.same.organizationId.symm,
    later.same.workspaceId.symm, project, listed, ?_, ?_⟩
  · exact hit.1.1.trans later.same.projectId.symm
  · exact (WorkspaceDirName.value_of_parse parsed).symm

theorem dirName_ok {recovery : Option Recovery} {organizationId projectId : Uuid}
    {found : Option String} {free : Bool}
    (same : (perform state (.projectDirName recovery organizationId projectId) choice free).2 =
      .ok found) : CloneRepository.projectDirName state.db organizationId projectId = found :=
  reading_ok (deciding_ok same)

theorem safe_projectDirName (mine : Mine workerId row state) :
    Safe (rules config) (.worker workerId)
      (CloneWorker.projectDirName none row.organizationId row.projectId)
      (fun outcome later => Mine workerId row later ∧
        ∀ name, outcome = .ok name → Aims later.db row.id (targetOf row name)) state := by
  have read : Safe (rules config) (.worker workerId)
      (call (.projectDirName none row.organizationId row.projectId))
      (fun reply later => Mine workerId row later ∧ ∀ raw name, reply = .ok (some raw) →
        WorkspaceDirName.parse raw = some name → Aims later.db row.id (targetOf row name)) state := by
    refine safe_reply mine (fun _ _ relies mine => mine.onward relies) (fun _ _ _ => rfl) ?_ ?_
    · intro later choice free sound mine
      refine ⟨mine.perform sound (by exact nofun) choice free, fun raw name same parsed => ?_⟩
      exact (aims_of_name mine.known (dirName_ok same) parsed).onward (follows_perform ..)
    · rintro reply before after relies ⟨mine, aims⟩
      exact ⟨mine.onward relies,
        fun raw name same parsed => (aims raw name same parsed).onward relies.follows⟩
  refine safe_bind read ?_ ?_
  · rintro raw later _ ⟨mine, aims⟩
    cases raw with
    | none => exact fun after relies _ => ⟨Mine.onward mine relies, nofun⟩
    | some raw =>
        dsimp only
        cases parsed : WorkspaceDirName.parse raw with
        | none => exact fun after relies _ => ⟨Mine.onward mine relies, nofun⟩
        | some name =>
            intro after relies _
            refine ⟨Mine.onward mine relies, ?_⟩
            rintro _ ⟨⟩
            exact (aims raw name rfl parsed).onward (Relies.follows relies)
  · rintro err before after relies _ ⟨mine, -⟩
    exact ⟨Mine.onward mine relies, nofun⟩

theorem safe_executeClone (mine : Mine workerId row state) :
    Safe (rules config) (.worker workerId) (executeClone config workerId row) (fun _ _ => True)
      state := by
  refine safe_orElse (safe_projectDirName mine) (fun _ _ _ holds => safe_finishFailed holds.1) ?_
  exact fun name _ _ holds => safe_stageAndRun ⟨holds.1, holds.2 name rfl⟩

end Worker

section Processing

variable {projectId jobId : Uuid} {attempt : Nat}

theorem mine_of_claim {leaseTtl : Forge.Schema.Timestamp} {claimed : ProjectCloneAttempt}
    (sound : Sound state) (choice : Choice) (free : Bool)
    (same : (perform state (.claimForCloning workerId projectId attempt jobId leaseTtl) choice
      free).2 = .ok (some claimed)) :
    Mine workerId claimed
      (perform state (.claimForCloning workerId projectId attempt jobId leaseTtl) choice free).1 := by
  rw [perform] at same ⊢
  obtain ⟨reached, same⟩ := effective same
  rw [reached]
  cases found : state.db.attempts.find? (claimable projectId attempt) with
  | none =>
      rw [performClaim, claimForCloning, transition_none found] at same
      cases same
  | some row =>
      obtain ⟨member, hit⟩ := Table.mem_of_find? found
      have queued : row.status = .queued := by
        simp only [claimable, Bool.and_eq_true, beq_iff_eq] at hit
        exact hit.2
      have unpublished : Unpublished state row.id := by
        rintro publication listed sameId
        obtain ⟨current, there, key, claimed⟩ := sound.owned (sound.published publication listed)
        rw [Table.eq_of_key_eq there member (key.trans sameId)] at claimed
        exact claimed queued
      rw [performClaim, claimForCloning, transition_some found] at same ⊢
      cases same
      refine ⟨Function.update_self .., unpublished, _, ?_, .refl _⟩
      apply Table.mem_update.mpr
      · exact ⟨row, member, by rw [hit]; rfl⟩
      · exact fun _ => rfl

theorem safe_claimAndRun :
    Safe (rules config) (.worker workerId) (claimAndRun config workerId projectId attempt jobId)
      (fun _ _ => True) state := by
  have claiming : Safe (rules config) (.worker workerId)
      (call (.claimForCloning workerId projectId attempt jobId config.leaseTtl))
      (fun reply later => ∀ claimed, reply = .ok (some claimed) → Mine workerId claimed later)
      state := by
    refine fun before _ sound => ⟨rfl, fun choice free _ after relies _ claimed same => ?_⟩
    exact (mine_of_claim sound choice free same).onward relies
  refine safe_then claiming fun claimed later _ mine => ?_
  cases claimed with
  | none => exact safe_done
  | some claimed => exact safe_executeClone (mine claimed rfl)

theorem findAttempt_ok {organizationId : Uuid} (choice : Choice) (free : Bool)
    (same : (perform state (.findAttempt organizationId projectId attempt) choice free).2 =
      .ok (some row)) : Known state.db row ∧ row.projectId = projectId := by
  have found : findAttempt state.db organizationId projectId attempt = some row := reading_ok same
  obtain ⟨member, hit⟩ := Table.mem_of_find? found
  simp only [Bool.and_eq_true, beq_iff_eq] at hit
  exact ⟨⟨row, member, .refl row⟩, hit.1.1⟩

theorem dead_of_projectIsLive {db : Db} (known : Known db row)
    (rooted : ∀ row ∈ db.attempts, ∃ project ∈ db.projects,
      project.id = row.projectId ∧ project.organizationId = row.organizationId)
    (absent : projectIsLive db row.projectId = false) : Dead db row.id := by
  obtain ⟨current, member, later⟩ := known
  obtain ⟨project, listed, key, -⟩ := rooted current member
  refine ⟨current, member, later.same.id, project, listed, key, ?_⟩
  have missed := Table.any_eq_false.mp absent project listed
  rw [key, later.same.projectId, beq_self_eq_true, Bool.true_and] at missed
  exact missed

theorem safe_processAttempt {payload : CloneOutboxPayload} :
    Safe (rules config) (.worker workerId) (processAttempt config workerId payload jobId)
      (fun _ _ => True) state := by
  have finding : Safe (rules config) (.worker workerId)
      (call (.findAttempt payload.organizationId payload.projectId payload.attempt))
      (fun reply later => ∀ row, reply = .ok (some row) →
        Known later.db row ∧ row.projectId = payload.projectId) state := by
    refine fun before _ _ => ⟨trivial, fun choice free _ after relies _ row same => ?_⟩
    obtain ⟨known, project⟩ := findAttempt_ok choice free same
    exact ⟨(known.onward (follows_perform ..)).onward (Relies.follows relies), project⟩
  refine safe_then finding fun found later _ read => ?_
  cases found with
  | none => exact safe_done
  | some row =>
      obtain ⟨known, project⟩ := read row rfl
      dsimp only
      split
      · exact safe_done
      · have looking : Safe (rules config) (.worker workerId)
            (call (.projectIsLive payload.projectId))
            (fun reply later => reply = .ok false → Dead later.db row.id) later := by
          refine fun before relies sound => ⟨trivial, fun choice free _ after step _ same => ?_⟩
          have known := known.onward (Relies.follows relies)
          have absent := reading_ok same
          rw [← project] at absent
          have dead := dead_of_projectIsLive known sound.rooted absent
          exact (dead.onward (follows_perform ..)).onward (Relies.follows step)
        refine safe_then looking fun live later _ dead => ?_
        cases live with
        | true => exact safe_claimAndRun
        | false =>
            refine safe_attempt fun before relies _ => ⟨?_, fun _ _ _ => safe_done⟩
            exact Dead.onward relies.follows (dead rfl)

theorem safe_completeJob :
    Safe (rules config) (.worker workerId) (completeJob workerId jobId) (fun _ _ => True) state :=
  safe_orElse (safe_free fun _ => rfl) (fun _ _ _ _ => safe_attempt (safe_free fun _ => rfl))
    fun _ _ _ _ => safe_done

theorem safe_dequeueAndProcess :
    Safe (rules config) (.worker workerId) (dequeueAndProcess config workerId) (fun _ _ => True)
      state := by
  refine safe_then (safe_free fun _ => rfl) fun found later _ _ => ?_
  cases found with
  | none => exact safe_done
  | some job =>
      dsimp only
      cases decodeOutboxPayload job.payload with
      | none => exact safe_completeJob
      | some payload =>
          exact safe_then (safe_attempt safe_processAttempt) fun _ _ _ _ => safe_completeJob

end Processing

/-! ## The reconciler -/

section Reconciler

variable {candidate : ReconcileCandidate} {recovererId : String} {target : TargetPath}

theorem givenUp_perform {recovery : Recovery} (given : recovery ∈ state.givenUp)
    (apart : ∀ subject attemptId, operation ≠ .finalizeFailed subject attemptId)
    (choice : Choice) (free : Bool) :
    recovery ∈ (perform state operation choice free).1.givenUp := by
  obtain ⟨middle, effect, done⟩ := perform_effect state operation choice free
  have kept : recovery ∈ middle.givenUp := by
    rcases givenUp_of_effect effect with same | ⟨subject, attemptId, rfl, _⟩
    · rwa [same]
    · exact absurd rfl (apart subject attemptId)
  rcases done with done | done
  · rwa [done]
  · rw [done]
    exact mem_giveUp.mpr (.inr kept)

theorem findAttemptById_ok {organizationId : Uuid} (choice : Choice) (free : Bool)
    (same : (perform state (.findAttemptById organizationId id) choice free).2 = .ok (some row)) :
    Known state.db row ∧ row.id = id := by
  have found : findAttemptById state.db organizationId id = some row := reading_ok same
  obtain ⟨member, hit⟩ := Table.mem_of_find? found
  simp only [Bool.and_eq_true, beq_iff_eq] at hit
  exact ⟨⟨row, member, .refl row⟩, hit.1⟩

theorem safe_loadAttempt (left : Left state.db candidate.id) :
    Safe (rules config) (.reconciler recovererId) (loadAttempt candidate)
      (fun outcome later => Left later.db candidate.id ∧ ∀ row, outcome = .ok (some row) →
        Known later.db row ∧ row.id = candidate.id) state := by
  have finding : Safe (rules config) (.reconciler recovererId)
      (call (.findAttemptById candidate.organizationId candidate.id))
      (fun reply later => Left later.db candidate.id ∧ ∀ row, reply = .ok (some row) →
        Known later.db row ∧ row.id = candidate.id) state := by
    refine fun before relies _ => ⟨trivial, fun choice free _ after step _ => ⟨?_, ?_⟩⟩
    · have now := left.onward (Relies.follows relies)
      exact (now.onward (follows_perform ..)).onward (Relies.follows step)
    · intro row same
      obtain ⟨known, key⟩ := findAttemptById_ok choice free same
      exact ⟨(known.onward (follows_perform ..)).onward (Relies.follows step), key⟩
  refine safe_orElse finding ?_ ?_
  · intro err later _ holds after step _
    refine ⟨holds.1.onward (Relies.follows step), ?_⟩
    rintro row ⟨⟩
  · intro found later _ holds after step _
    refine ⟨holds.1.onward (Relies.follows step), ?_⟩
    rintro row ⟨⟩
    obtain ⟨known, same⟩ := holds.2 row rfl
    exact ⟨known.onward (Relies.follows step), same⟩

theorem safe_recoverMaterialized :
    Safe (rules config) (.reconciler recovererId) (recoverMaterialized candidate) (fun _ _ => True)
      state := by
  have loaded : Safe (rules config) (.reconciler recovererId) (loadAttempt candidate)
      (fun _ _ => True) state :=
    safe_orElse (safe_free fun _ => trivial) (fun _ _ _ _ => safe_done) fun _ _ _ _ => safe_done
  refine safe_then loaded fun found later _ _ => ?_
  cases found with
  | none => exact safe_done
  | some attempt =>
      refine safe_observe (safe_free fun _ => trivial) fun stored later _ _ => ?_
      match stored with
      | .error _ => exact safe_done
      | .ok none => exact safe_done
      | .ok (some success) => exact safe_attempt (safe_free fun _ => trivial)

def GivenUp (recovery : Recovery) (outcome : Except AppError Bool) (world : World) : Prop :=
  outcome = .ok false → recovery ∈ world.givenUp

/-- What the reconciler knows of the attempt that it recovers. -/
structure Recovering (row : ProjectCloneAttempt) (db : Db) : Prop where
  left : Left db row.id
  known : Known db row

theorem Recovering.onward {db next : Db} (recovering : Recovering row db)
    (follows : Follows db next) : Recovering row next :=
  ⟨recovering.left.onward follows, recovering.known.onward follows⟩

def Found (recovererId : String) (id : Uuid) (world : World) : Prop :=
  ∃ tree, (world.past (.reconciler recovererId)).found = some (id, tree)

theorem look_ok {recovery : Recovery} (choice : Choice) (free : Bool)
    (same : (perform state (.symlinkMetadata (some recovery) target) choice free).2 = .ok ()) :
    Found recovery.recovererId recovery.attemptId
      (perform state (.symlinkMetadata (some recovery) target) choice free).1 := by
  rw [perform] at same ⊢
  have answer := deciding_ok same
  obtain ⟨reached, looked⟩ := effective answer
  have stays : (deciding (some recovery) (fun _ => true)
      (access state choice (performLook state (some recovery) target))).1 =
        (performLook state (some recovery) target).1 := by
    rw [← reached]
    generalize access state choice (performLook state (some recovery) target) = result at answer
    obtain ⟨world, err | value⟩ := result
    · cases answer
    · rfl
  rw [stays]
  cases found : state.disk.target target with
  | none =>
      simp only [performLook, found] at looked
      cases looked
  | some tree =>
      refine ⟨tree, ?_⟩
      simp [performLook, found]

theorem given_of_error {α : Type} {recovery : Recovery} {goesOn : α → Bool} {err : AppError}
    {result : World × Except AppError α}
    (same : (deciding (some recovery) goesOn result).2 = .error err) :
    recovery ∈ (deciding (some recovery) goesOn result).1.givenUp := by
  refine given_of_deciding fun value done => ?_
  obtain ⟨world, err | answer⟩ := result
  · cases done
  · cases same

theorem Found.perform {recovererId : String} (found : Found recovererId id state)
    (apart : concerns operation ≠ some (.reconciler recovererId)) (choice : Choice) (free : Bool) :
    Found recovererId id (perform state operation choice free).1 := by
  obtain ⟨tree, same⟩ := found
  exact ⟨tree, (congrArg Past.found (past_perform apart choice free)).trans same⟩

theorem safe_adopt (recovering : Recovering row state.db) (aims : Aims state.db row.id target) :
    Safe (rules config) (.reconciler recovererId) (adopt ⟨recovererId, row.id⟩ target)
      (GivenUp ⟨recovererId, row.id⟩) state := by
  have looking : Safe (rules config) (.reconciler recovererId)
      (call (.symlinkMetadata (some ⟨recovererId, row.id⟩) target))
      (fun reply later => (∀ err, reply = .error err → ⟨recovererId, row.id⟩ ∈ later.givenUp) ∧
        (reply = .ok () → Recovering row later.db ∧ Found recovererId row.id later)) state := by
    refine fun before relies _ => ⟨⟨row.id, rfl, ?_, ?_⟩, fun choice free _ after step _ => ⟨?_, ?_⟩⟩
    · exact recovering.left.onward (Relies.follows relies)
    · exact aims.onward (Relies.follows relies)
    · exact fun err same => step.givenUp _ rfl (given_of_error same)
    · intro same
      obtain ⟨tree, found⟩ := look_ok choice free same
      refine ⟨?_, tree, step.past ▸ found⟩
      exact ((recovering.onward (Relies.follows relies)).onward (follows_perform ..)).onward
        (Relies.follows step)
  refine safe_orElse looking ?_ fun _ later _ holds => ?_
  · intro err later _ holds after step _ _
    exact step.givenUp _ rfl (holds.1 err rfl)
  · have loading : Safe (rules config) (.reconciler recovererId) (call (.loadCloneSuccess row.id))
        (fun _ later => Recovering row later.db ∧ Found recovererId row.id later) later := by
      refine safe_keeping (holds.2 rfl) ?_ (fun _ _ _ => trivial) ?_
      · rintro before after relies ⟨recovering, tree, found⟩
        exact ⟨recovering.onward relies.follows, tree, relies.past ▸ found⟩
      · rintro world choice free _ ⟨recovering, found⟩
        exact ⟨recovering.onward (follows_perform ..), found.perform (by exact nofun) choice free⟩
    refine safe_observe loading fun stored later _ holds => ?_
    have adopting : Safe (rules config) (.reconciler recovererId)
        (call (.adoptPublishedReady ⟨recovererId, row.id⟩ (storedSuccess stored)))
        (fun reply later => reply ≠ .ok true → ⟨recovererId, row.id⟩ ∈ later.givenUp) later := by
      obtain ⟨recovering, tree, found⟩ := holds
      refine fun before relies _ => ⟨⟨rfl, ?_, tree, ?_⟩, fun choice free _ after step _ failed => ?_⟩
      · exact recovering.left.onward (Relies.follows relies)
      · exact (Relies.past relies) ▸ found
      · refine step.givenUp _ rfl (given_of_deciding fun value done => ?_)
        cases value with
        | false => rfl
        | true =>
            refine absurd ?_ failed
            show (deciding _ _ _).2 = _
            generalize access before choice (performAdopt before ⟨recovererId, row.id⟩
              (storedSuccess stored) choice.now) = result at done
            obtain ⟨world, err | answer⟩ := result
            · cases done
            · exact done
    refine safe_orElse adopting ?_ fun adopted later _ holds => ?_
    · intro err later _ holds after step _ _
      exact step.givenUp _ rfl (holds nofun)
    · intro after step _ same
      cases same
      exact step.givenUp _ rfl (holds nofun)

/-- What the reading of the directory's name leaves the recovery with. -/
structure Named (recovererId : String) (row : ProjectCloneAttempt)
    (outcome : Except AppError WorkspaceDirName) (world : World) : Prop where
  recovering : Recovering row world.db
  given : ∀ err, outcome = .error err → ⟨recovererId, row.id⟩ ∈ world.givenUp
  aims : ∀ name, outcome = .ok name → Aims world.db row.id (targetOf row name)

theorem Named.onward {outcome : Except AppError WorkspaceDirName} {after : World}
    (named : Named recovererId row outcome state)
    (relies : Relies (.reconciler recovererId) state after) :
    Named recovererId row outcome after :=
  ⟨named.recovering.onward relies.follows,
    fun err same => relies.givenUp _ rfl (named.given err same),
    fun name same => (named.aims name same).onward relies.follows⟩

def nameOf : Except AppError (Option String) → Except AppError WorkspaceDirName
  | .error err => .error err
  | .ok none => .error (.internal "project not found or soft-deleted")
  | .ok (some raw) =>
      match WorkspaceDirName.parse raw with
      | none => .error (.internal "invalid workspace_dir_name")
      | some name => .ok name

theorem projectDirName_eq (recovery : Option Recovery) (organizationId projectId : Uuid) :
    CloneWorker.projectDirName recovery organizationId projectId =
      Prog.op (.projectDirName recovery organizationId projectId) fun reply =>
        Prog.done (nameOf reply) := by
  refine congrArg (Prog.op _) (funext fun reply => ?_)
  match reply with
  | .error err => rfl
  | .ok none => rfl
  | .ok (some raw) =>
      rw [nameOf]
      show (match WorkspaceDirName.parse raw with
        | none => Attempt.fail (AppError.internal "invalid workspace_dir_name")
        | some name => pure name) = _
      cases WorkspaceDirName.parse raw with
      | none => rfl
      | some name => rfl

theorem named_perform (recovering : Recovering row state.db) (choice : Choice) (free : Bool) :
    Named recovererId row
      (nameOf (perform state (.projectDirName (some ⟨recovererId, row.id⟩) row.organizationId
        row.projectId) choice free).2)
      (perform state (.projectDirName (some ⟨recovererId, row.id⟩) row.organizationId
        row.projectId) choice free).1 := by
  refine ⟨recovering.onward (follows_perform ..), fun err same => ?_, fun name same => ?_⟩
  · refine given_of_deciding fun found done => ?_
    have answer : (perform state (.projectDirName (some ⟨recovererId, row.id⟩)
        row.organizationId row.projectId) choice free).2 = .ok found := by
      show (deciding _ _ _).2 = _
      generalize reading state choice (CloneRepository.projectDirName state.db
        row.organizationId row.projectId) = result at done
      obtain ⟨world, err | answer⟩ := result
      · cases done
      · exact done
    rw [answer] at same
    cases found with
    | none => rfl
    | some raw =>
        rw [nameOf] at same
        cases parsed : WorkspaceDirName.parse raw with
        | none => simp [validDirName, parsed]
        | some name =>
            rw [parsed] at same
            cases same
  · generalize reply_eq : (perform state (.projectDirName (some ⟨recovererId, row.id⟩)
      row.organizationId row.projectId) choice free).2 = reply at same
    match reply with
    | .error err => cases same
    | .ok none => cases same
    | .ok (some raw) =>
        rw [nameOf] at same
        cases parsed : WorkspaceDirName.parse raw with
        | none =>
            rw [parsed] at same
            cases same
        | some other =>
            rw [parsed] at same
            cases same
            exact (aims_of_name recovering.known (dirName_ok reply_eq) parsed).onward
              (follows_perform ..)

theorem safe_recoverIfTargetPublished (recovering : Recovering row state.db) :
    Safe (rules config) (.reconciler recovererId) (recoverIfTargetPublished recovererId row)
      (GivenUp ⟨recovererId, row.id⟩) state := by
  have naming : Safe (rules config) (.reconciler recovererId)
      (CloneWorker.projectDirName (some ⟨recovererId, row.id⟩) row.organizationId row.projectId)
      (Named recovererId row) state := by
    rw [projectDirName_eq]
    intro before relies _
    have now := recovering.onward (Relies.follows relies)
    refine ⟨⟨row.id, rfl, now.left, isOf_of_known now.known⟩, fun choice free _ => ?_⟩
    exact fun after relies _ => (named_perform now choice free).onward relies
  refine safe_orElse naming ?_ ?_
  · exact fun err later _ named after relies _ _ => (named.onward relies).given err rfl
  · exact fun name later _ named => safe_adopt named.recovering (named.aims name rfl)

theorem safe_failRecovered (recovering : Recovering row state.db) (same : row.id = candidate.id)
    (given : ⟨recovererId, row.id⟩ ∈ state.givenUp) :
    Safe (rules config) (.reconciler recovererId) (failRecovered config recovererId candidate row)
      (fun _ _ => True) state := by
  have holding : ∀ {operation : Op}, (∀ later, May config (.reconciler recovererId) later operation) →
      (∀ subject attemptId, operation ≠ .finalizeFailed subject attemptId) →
      Safe (rules config) (.reconciler recovererId) (call operation) (fun _ later =>
        Recovering row later.db ∧ ⟨recovererId, row.id⟩ ∈ later.givenUp) state := by
    intro operation may apart
    refine safe_keeping ⟨recovering, given⟩ ?_ (fun later _ _ => may later) ?_
    · rintro before after relies ⟨recovering, given⟩
      exact ⟨recovering.onward relies.follows, relies.givenUp _ rfl given⟩
    · rintro later choice free _ ⟨recovering, given⟩
      exact ⟨recovering.onward (follows_perform ..), givenUp_perform given apart choice free⟩
  refine safe_then (safe_bestEffort ?_ (holding (fun _ => trivial) nofun)) ?_
  · rintro before after relies ⟨recovering, given⟩
    exact ⟨recovering.onward relies.follows, relies.givenUp _ rfl given⟩
  · rintro _ later _ ⟨recovering, given⟩
    rw [← same]
    have closed : Safe (rules config) (.reconciler recovererId)
        (call (.finalizeFailed (.reconciler recovererId) row.id))
        (fun reply later => reply = .ok () → Failed (.reconciler recovererId) row later) later := by
      intro before relies _
      have now := recovering.onward (Relies.follows relies)
      refine ⟨⟨rfl, now.left, Relies.givenUp relies _ rfl given⟩, fun choice free _ => ?_⟩
      exact fun after step _ same => (failed_perform now.known choice free same).onward step
    refine safe_orElse closed (fun _ _ _ _ => safe_done) fun _ later _ failed => ?_
    exact safe_scheduleRetryFor (failed rfl) fun _ _ may => ⟨rfl, rfl, may⟩

theorem safe_recoverExpiredCloning (left : Left state.db candidate.id) :
    Safe (rules config) (.reconciler recovererId)
      (recoverExpiredCloning config recovererId candidate) (fun _ _ => True) state := by
  have swept : Safe (rules config) (.reconciler recovererId) (bestEffort (call .sweepOrphans))
      (fun _ later => True ∧ Left later.db candidate.id) state :=
    safe_lasting (Left · candidate.id) (fun _ _ follows left => left.onward follows)
      (safe_attempt (safe_free fun _ => trivial)) left
  refine safe_then swept fun _ later _ holds => ?_
  refine safe_then (safe_loadAttempt holds.2) fun found later _ loaded => ?_
  cases found with
  | none => exact safe_done
  | some attempt =>
      obtain ⟨known, same⟩ := loaded.2 attempt rfl
      have recovering : Recovering attempt later.db := ⟨same ▸ loaded.1, known⟩
      have looked : Safe (rules config) (.reconciler recovererId)
          (recoverIfTargetPublished recovererId attempt) (fun outcome later =>
            GivenUp ⟨recovererId, attempt.id⟩ outcome later ∧ Recovering attempt later.db) later :=
        safe_lasting (Recovering attempt) (fun _ _ follows holds => holds.onward follows)
          (safe_recoverIfTargetPublished recovering) recovering
      refine safe_then looked fun adopted later _ holds => ?_
      cases adopted with
      | true => exact safe_done
      | false => exact safe_failRecovered holds.2 same (holds.1 rfl)

theorem expired_left {now : Forge.Schema.Timestamp} {limit : Nat} {locked : List Uuid} {db : Db}
    (member : candidate ∈ (expiredCloning db limit locked now).map reconcileCandidate) :
    Left db candidate.id := by
  obtain ⟨row, listed, rfl⟩ := List.mem_map.mp member
  obtain ⟨there, expired⟩ := List.mem_filter.mp (mem_of_mem_batch listed)
  refine ⟨row, there, rfl, ?_⟩
  simp only [isExpired, Bool.and_eq_true, beq_iff_eq] at expired
  rw [expired.1.1]
  exact nofun

theorem orphaned_hasNumber {olderThan : Forge.Schema.Timestamp} {limit : Nat} {db : Db}
    (member : candidate ∈ findOrphanedQueued db olderThan limit) :
    HasNumber db candidate.projectId candidate.attempt := by
  obtain ⟨row, listed, rfl⟩ := List.mem_map.mp member
  exact ⟨row, (List.mem_filter.mp (mem_of_mem_batch listed)).1, rfl, rfl⟩

theorem safe_reenqueue (has : HasNumber state.db candidate.projectId candidate.attempt) :
    Safe (rules config) (.reconciler recovererId) (reenqueue candidate) (fun _ _ => True) state := by
  refine safe_attempt fun before relies _ => ⟨?_, fun _ _ _ => safe_done⟩
  exact HasNumber.onward relies.follows has

theorem safe_runReconcilerOnce :
    Safe (rules config) (.reconciler recovererId) (runReconcilerOnce config recovererId)
      (fun _ _ => True) state := by
  have materialized : Safe (rules config) (.reconciler recovererId)
      (scan (call (.findMaterializedUnfinalized reconcileBatch)) recoverMaterialized)
      (fun _ _ => True) state := by
    refine safe_scan (fun _ : ReconcileCandidate => fun _ : Db => True) (fun _ _ _ _ _ => trivial) ?_ ?_
    · exact fun before _ _ => ⟨trivial, fun _ _ _ _ _ _ _ _ _ _ => trivial⟩
    · exact fun _ _ _ _ => safe_recoverMaterialized
  refine safe_then materialized fun _ later _ _ => ?_
  have expired : Safe (rules config) (.reconciler recovererId)
      (scan (call (.claimExpiredCloning recovererId config.leaseTtl reconcileBatch))
        (recoverExpiredCloning config recovererId)) (fun _ _ => True) later := by
    refine safe_scan (fun candidate db => Left db candidate.id)
      (fun _ _ _ follows left => left.onward follows) ?_ fun _ _ _ => safe_recoverExpiredCloning
    refine fun before _ _ => ⟨rfl, fun choice free _ after step _ items same item member => ?_⟩
    obtain ⟨-, done⟩ := effective same
    cases done
    exact ((expired_left member).onward (follows_perform ..)).onward (Relies.follows step)
  refine safe_then expired fun _ later _ _ => ?_
  refine safe_scan (fun candidate db => HasNumber db candidate.projectId candidate.attempt)
    (fun _ _ _ follows has => has.onward follows) ?_ fun _ _ _ => safe_reenqueue
  refine fun before _ _ => ⟨trivial, fun choice free _ after step _ items same item member => ?_⟩
  have found := reading_ok same
  rw [← found] at member
  exact ((orphaned_hasNumber member).onward (follows_perform ..)).onward (Relies.follows step)

theorem safe_sweepOrphansOnce :
    Safe (rules config) (.reconciler recovererId) sweepOrphansOnce (fun _ _ => True) state := by
  refine safe_then (safe_attempt (safe_free fun _ => trivial)) fun _ later _ _ => ?_
  refine safe_orElse (safe_free fun _ => trivial) (fun _ _ _ _ => safe_done) fun keep later _ _ => ?_
  refine safe_scan (fun _ : Uuid × Uuid => fun _ : Db => True) (fun _ _ _ _ _ => trivial) ?_ ?_
  · exact fun before _ _ => ⟨trivial, fun _ _ _ _ _ _ _ _ _ _ => trivial⟩
  · intro root later _ _
    refine safe_orElse (safe_free fun _ => trivial) (fun _ _ _ _ => safe_done) ?_
    intro entries later sound _
    refine safe_forEach (fun _ : Uuid => fun _ : Db => True) (fun _ _ _ _ _ => trivial) ?_ sound
      fun _ _ => trivial
    exact fun _ _ _ _ => safe_attempt (safe_free fun _ => trivial)

theorem safe_reconcile :
    Safe (rules config) (.reconciler recovererId) (reconcile config recovererId) (fun _ _ => True)
      state :=
  safe_then safe_sweepOrphansOnce fun _ _ _ _ => safe_runReconcilerOnce

end Reconciler

/-! ## The retry request -/

section Request

variable {number : Nat} {organizationId projectId : Uuid}

theorem latestAttemptSummary_ok (choice : Choice) (free : Bool)
    (same : (perform state (.latestAttemptSummary organizationId projectId) choice free).2 =
      .ok (some row)) : Known state.db row := by
  have found : latestAttemptSummary state.db organizationId projectId = some row := reading_ok same
  have listed := ParticipantStatements.mem_of_selectFirst found
  exact ⟨row, (List.mem_filter.mp listed).1, .refl row⟩

theorem safe_retryLatest (known : Known state.db row)
    (ended : row.status = .failed → Ended state.db row.id) :
    Safe (rules config) (.request number) (retryLatest number organizationId projectId row)
      (fun _ _ => True) state := by
  rw [retryLatest]
  split
  case isFalse => exact safe_done
  case isTrue failed =>
      split
      case isFalse => exact safe_done
      case isTrue =>
          have scheduled : Safe (rules config) (.request number)
              (call (.scheduleRetry (.request number) row (some organizationId) none))
              (fun _ _ => True) state := by
            refine fun before relies _ => ⟨⟨rfl, rfl, ?_, ?_⟩, fun _ _ _ => safe_done⟩
            · exact known.onward (Relies.follows relies)
            · exact (ended failed).onward (Relies.follows relies)
          refine safe_then scheduled fun attempt later _ _ => ?_
          cases attempt with
          | none => exact safe_done
          | some attempt =>
              refine safe_then (safe_free fun _ => trivial) fun latest later _ _ => ?_
              cases latest with
              | none => exact safe_done
              | some latest => exact safe_done

theorem safe_retryClone :
    Safe (rules config) (.request number) (retryClone number organizationId projectId)
      (fun _ _ => True) state := by
  refine safe_then (safe_free fun _ => trivial) fun project later _ _ => ?_
  split
  · exact safe_done
  · have reading : Safe (rules config) (.request number)
        (call (.latestAttemptSummary organizationId projectId))
        (fun reply later => ∀ row, reply = .ok (some row) →
          Known later.db row ∧ (row.status = .failed → Ended later.db row.id)) later := by
      refine fun before _ _ => ⟨trivial, fun choice free _ after step _ row same => ?_⟩
      have known := latestAttemptSummary_ok choice free same
      have onward := ((known.onward (follows_perform ..)).onward (Relies.follows step))
      refine ⟨onward, fun failed => ?_⟩
      obtain ⟨current, member, later⟩ := onward
      exact ⟨current, member, later.same.id, later.ended (by rw [failed]; rfl)⟩
    refine safe_then reading fun latest later _ holds => ?_
    cases latest with
    | none => exact safe_done
    | some latest => exact safe_retryLatest (holds latest rfl).1 (holds latest rfl).2

end Request

/-! ## Runs -/

theorem safe_ending {α : Type} {io : Io α}
    (safe : Safe (rules config) actor io (fun _ _ => True) state) :
    Safe (rules config) actor (ending io) (fun _ _ => True) state :=
  Safe.bind safe fun _ _ _ _ _ _ _ => trivial

theorem good_start : Good (rules config) start := by
  refine ⟨⟨nofun, fun row member => ?_, nofun⟩, fun _ _ _ _ => trivial⟩
  exact absurd member (Table.not_mem_empty row)

theorem good_change {before after : State} (good : Good (rules config) before)
    (sound : Sound after.state)
    (each : ∀ actor, Safe (rules config) actor (after.threads actor) (fun _ _ => True) after.state ∨
      after.threads actor = before.threads actor ∧ Relies actor before.state after.state) :
    Good (rules config) after := by
  refine ⟨sound, fun actor => ?_⟩
  rcases each actor with safe | ⟨same, relies⟩
  · exact safe
  · rw [same]
    exact (good.safe actor).later relies

theorem safe_idle {world : World} :
    Safe (rules config) actor (.done () : Program) (fun _ _ => True) world :=
  fun _ _ _ => trivial

section Outside

variable {world : World} {next : Db} {pool : State}

theorem relies_withDb (follows : Follows world.db next) : Relies actor world { world with db := next } :=
  ⟨follows, rfl, fun _ _ owns => owns, fun _ _ _ _ fresh => fresh, fun _ _ given => given⟩

theorem sound_withDb (sound : Sound world) (onward : Onward (fun _ => False) world.db next) :
    Sound { world with db := next } := by
  refine ⟨fun owns => (sound.owned owns).onward (follows_of_onward onward), fun row member => ?_,
    sound.published⟩
  obtain ⟨old, was, -, step⟩ | ⟨born, -⟩ := onward.attempts.origin row member
  · obtain ⟨project, listed, key, organization⟩ := sound.rooted old was
    obtain ⟨later, there, -, moved⟩ := onward.projects.forward listed
    refine ⟨later, there, ?_, ?_⟩
    · exact moved.id.trans (key.trans step.same.projectId.symm)
    · exact moved.organizationId.trans (organization.trans step.same.organizationId.symm)
  · cases born

theorem good_withDb (good : Good (rules config) pool)
    (onward : Onward (fun _ => False) pool.state.db next) :
    Good (rules config) (withDb pool next) :=
  good_change good (sound_withDb good.inv onward)
    fun _ => .inr ⟨rfl, relies_withDb (follows_of_onward onward)⟩

theorem good_create {input : ProjectCreate} {attemptId outboxId : Uuid}
    {now : Forge.Schema.Timestamp} (good : Good (rules config) pool)
    (created : createWithClone pool.state.db input attemptId outboxId now = some next) :
    Good (rules config) (withDb pool next) := by
  have onward := onward_create created
  have follows := follows_of_onward onward
  refine good_change good ⟨fun owns => (good.inv.owned owns).onward follows, fun row member => ?_,
    good.inv.published⟩ fun _ => .inr ⟨rfl, relies_withDb follows⟩
  obtain ⟨old, was, -, step⟩ | ⟨⟨url, id, at_, rfl⟩, -⟩ := onward.attempts.origin row member
  · obtain ⟨project, listed, key, organization⟩ := good.inv.rooted old was
    obtain ⟨later, there, -, moved⟩ := onward.projects.forward listed
    refine ⟨later, there, ?_, ?_⟩
    · exact moved.id.trans (key.trans step.same.projectId.symm)
    · exact moved.organizationId.trans (organization.trans step.same.organizationId.symm)
  · obtain ⟨projects, inserted, rest⟩ := createWithClone_cases created
    have listed := ((Table.insert?_eq_some inserted).2 input.project).mpr (.inl rfl)
    refine ⟨input.project, ?_, rfl, rfl⟩
    obtain ⟨-, rfl⟩ | ⟨_, _, _, -, -, -, rfl⟩ := rest
    · exact listed
    · exact listed

theorem drop_threads (actor other : Actor) :
    (drop pool actor).threads other = if other = actor then .done () else pool.threads other :=
  Function.update_apply ..

theorem sound_amend (sound : Sound world) (actor : Actor) (set : Past → Past) :
    Sound (world.amend actor set) :=
  ⟨sound.owned, sound.rooted, sound.published⟩

theorem good_drop (good : Good (rules config) pool) (actor : Actor) :
    Good (rules config) (drop pool actor) := by
  have sound : Sound (drop pool actor).state :=
    sound_amend good.inv actor fun past => { past with failure := none }
  refine good_change good sound fun other => ?_
  by_cases same : other = actor
  · rw [drop_threads, if_pos same]
    exact .inl safe_idle
  · rw [drop_threads, if_neg same]
    refine .inr ⟨rfl, .refl _, Function.update_of_ne same .., fun _ _ owns => owns,
      fun _ _ _ _ fresh => fresh, fun _ _ given => given⟩

theorem relies_retire {recovererId : String} (apart : actor ≠ .reconciler recovererId) :
    Relies actor world (retire world recovererId) := by
  refine ⟨.refl _, rfl, fun _ _ owns => owns, fun _ _ _ _ fresh => fresh, ?_⟩
  rintro recovery rfl given
  refine List.mem_filter.mpr ⟨given, ?_⟩
  have differs : recovery.recovererId ≠ recovererId := by
    rintro rfl
    exact apart rfl
  simpa using differs

theorem good_retire (good : Good (rules config) pool) {workerId : String}
    (idle : isIdle pool (.reconciler workerId) = true) :
    Good (rules config) (withWorld pool (retire pool.state workerId)) := by
  have sound : Sound (retire pool.state workerId) :=
    ⟨good.inv.owned, good.inv.rooted, good.inv.published⟩
  refine good_change good sound fun actor => ?_
  by_cases reconciles : actor = .reconciler workerId
  · subst reconciles
    left
    show Safe _ _ (pool.threads _) _ _
    rw [isIdle] at idle
    cases due : pool.threads (.reconciler workerId) with
    | done value => exact safe_idle
    | op operation next =>
        rw [due] at idle
        cases idle
  · exact .inr ⟨rfl, relies_retire reconciles⟩

theorem stop_eq (workerId : String) :
    stop pool workerId =
      withWorld (drop (drop pool (.worker workerId)) (.reconciler workerId))
        (retire (drop (drop pool (.worker workerId)) (.reconciler workerId)).state workerId) :=
  rfl

theorem good_stop (good : Good (rules config) pool) (workerId : String) :
    Good (rules config) (stop pool workerId) := by
  rw [stop_eq]
  refine good_retire (good_drop (good_drop good _) _) ?_
  rw [isIdle, drop_threads, if_pos rfl]
  rfl

theorem good_beginReconcile (good : Good (rules config) pool) (workerId : String) :
    Good (rules config) (beginReconcile config pool workerId) :=
  good.put (safe_ending safe_reconcile)

theorem good_heartbeat (good : Good (rules config) pool) (workerId : String)
    (lease : Forge.Schema.Timestamp) : Good (rules config) (heartbeat pool workerId lease) := by
  rw [heartbeat]
  split
  · exact good_withDb good onward_extendLease
  · exact good

end Outside

theorem safeStarts : SafeStarts (rules config) := by
  intro actor world operation choice child program _ _ _ started
  cases started

theorem good_exec {pool : State} (good : Good (rules config) pool) (action : Action) :
    Good (rules config) (exec config pool action) := by
  have unchanged : ∀ world : World, world.db = pool.state.db → world.past = pool.state.past →
      world.owner = pool.state.owner → world.publications = pool.state.publications →
        world.givenUp = pool.state.givenUp → Good (rules config) (withWorld pool world) := by
    intro world db past owner publications givenUp
    have sound : Sound world := by
      obtain ⟨owned, rooted, published⟩ := good.inv
      constructor
      · rw [db]
        exact fun {id workerId} owns => owned (by rwa [Owns, ← owner])
      · rw [db]
        exact rooted
      · rw [publications]
        exact fun publication listed => by rw [Owns, owner]; exact published publication listed
    refine good_change good sound fun actor => .inr ⟨rfl, ?_⟩
    refine ⟨by rw [withWorld, db]; exact .refl _, congrFun past actor, ?_, ?_, ?_⟩
    · exact fun id workerId owns => by rw [Owns, withWorld, owner]; exact owns
    · exact fun _ _ _ _ fresh => by rw [Unpublished, withWorld, publications]; exact fresh
    · exact fun _ _ given => by rw [withWorld, givenUp]; exact given
  cases action with
  | create input attemptId outboxId now =>
      rw [exec]
      split
      case h_1 created => exact good_create good created
      case h_2 => exact good
  | delete => exact good_withDb good onward_delete
  | relay => exact good_withDb good onward_relay
  | releaseStaleLocks =>
      exact good_withDb good ⟨.refl AttemptStep.stay _, .refl ProjectStep.refl _⟩
  | occupy path empty => exact unchanged _ rfl rfl rfl rfl rfl
  | vacate path => exact unchanged _ rfl rfl rfl rfl rfl
  | retry organizationId projectId =>
      exact (unchanged (enlist pool.state) rfl rfl rfl rfl rfl).put (safe_ending safe_retryClone)
  | leave number => exact good_drop good _
  | launch workerId =>
      rw [exec]
      split
      · exact good
      · exact good_beginReconcile (unchanged (register pool.state workerId) rfl rfl rfl rfl rfl) _
  | iterate workerId =>
      rw [exec]
      split
      · exact good.put (safe_ending safe_dequeueAndProcess)
      · exact good
  | tick workerId =>
      rw [exec]
      split
      · exact good_beginReconcile (good_drop good _) workerId
      · exact good
  | signal workerId shutdown =>
      rw [exec]
      split
      · split
        · exact good_stop good workerId
        · exact good_drop good _
      · exact good
  | crash workerId => exact good_stop good workerId
  | step actor choice => exact good.step safeStarts fun _ _ _ => trivial
  | heartbeat workerId lease => exact good_heartbeat good workerId lease

theorem good_of_reachable {allowed : State → Action → Prop} {pool : State}
    (reached : Reachable (exec config) (· = start) allowed pool) : Good (rules config) pool := by
  have keep : ∀ pool action, Good (rules config) pool → allowed pool action →
      Good (rules config) (exec config pool action) :=
    fun _ action good _ => good_exec good action
  exact reached.invariant (fun _ same => same ▸ good_start) keep

theorem invariant_of_reachable {allowed : State → Action → Prop} {pool : State}
    {fact : State → Prop}
    (keep : ∀ pool action, Good (rules config) pool → fact pool → allowed pool action →
      fact (exec config pool action))
    (first : fact start) (reached : Reachable (exec config) (· = start) allowed pool) :
    fact pool := by
  let Both : State → Prop := fun pool => Good (rules config) pool ∧ fact pool
  have begins : ∀ pool, pool = start → Both pool := by
    rintro _ rfl
    exact ⟨good_start, first⟩
  have goes : ∀ pool action, Both pool → allowed pool action → Both (exec config pool action) := by
    rintro pool action ⟨good, holds⟩ may
    exact ⟨good_exec good action, keep pool action good holds may⟩
  exact (reached.invariant begins goes).2

theorem step_effect (pool : State) (actor : Actor) (choice : Choice) :
    exec config pool (.step actor choice) = pool ∨
      ∃ operation next middle, pool.threads actor = .op operation next ∧
        Effect pool.state operation middle ∧
          ((exec config pool (.step actor choice)).state = middle ∨
            (exec config pool (.step actor choice)).state = middle.giveUp (recovers operation)) := by
  cases due : pool.threads actor with
  | done value =>
      rw [exec]
      exact .inl (Pool.step_done due)
  | op operation next =>
      obtain ⟨middle, effect, done⟩ :=
        perform_effect pool.state operation choice (pool.free machine actor operation)
      refine .inr ⟨operation, next, middle, rfl, effect, ?_⟩
      rw [exec, Pool.step_state due]
      exact done

end Forge.CloneSafety
