import Forge.ResultMessages

/-! Result ownership: what a result message may change besides the work of its sender, and the
one check that binds its delivery to the sender. -/

namespace Forge.ResultOwnership

open Forge.Library.Identifier
open Forge.Library.JsonDocument
open Forge.Library.KeyedTable
open Forge.LivenessChanges
open Forge.ParticipantStatements
open Forge.ResultConsumer
open Forge.ResultMessages
open Forge.Schema
open Forge.System
open Forge.TaskStatements
open Forge.Transactions

def awaits (organizationId taskId : Uuid) (task : Task) : Bool :=
  task.organizationId == organizationId
    && (task.parentTaskId == some taskId
      || (arrow task.params "dependency_ids").any (·.hasKey taskId.toText))
    && waitsForDependency task

def AwaitsSender (w : World) (organizationId : Uuid) (result : TaskResult) (task : Task) : Prop :=
  awaits organizationId result.taskId task = true ∧ ∃ own ∈ w.db.tasks,
    own.id = result.taskId ∧ own.status = .working ∧ own.assignedAgentId = some result.agentId

/-- A step leaves everything of other agents alone: their tasks, apart from exempt ones that it
queues, the runs of their tasks, their participants, and their deliveries. -/
structure LeavesOthers (w after : World) (agentId : Uuid) (now : Timestamp)
    (exempt : Task → Prop) : Prop where
  tasks : ∀ task ∈ w.db.tasks, task.assignedAgentId ≠ some agentId → task ∈ after.db.tasks
    ∨ exempt task ∧ (releaseTo .queued now task).bumpRowVersion ∈ after.db.tasks
  runs : ∀ task ∈ w.db.tasks, task.assignedAgentId ≠ some agentId →
    ∀ run, run.orchestrationTaskId = task.id → (run ∈ after.db.runs ↔ run ∈ w.db.runs)
  participants : ∀ participant, participant.agentId ≠ agentId →
    (participant ∈ after.db.participants ↔ participant ∈ w.db.participants)
  inbox : ∀ row ∈ after.db.inbox, row ∉ w.db.inbox → ∀ issue ∈ w.issued,
    issue.deliveryId = row.deliveryId → issue.agentId = agentId

/-- The inbox has the delivery of the result, or its task does not exist, or its delivery was
issued to no other agent. -/
def SafeDelivery (w : World) (result : TaskResult) : Prop :=
  (∃ row ∈ w.db.inbox, some row.deliveryId = result.deliveryId)
    ∨ (∀ task ∈ w.db.tasks, task.id ≠ result.taskId)
    ∨ ∀ issue ∈ w.issued, some issue.deliveryId = result.deliveryId →
      issue.agentId = result.agentId

/-- The tasks that a result message queues: it completes the task of its delivery within the
contract, and they wait for nothing else. -/
def releasedBy (w : World) (a : Action) (organizationId : Uuid) (result : TaskResult)
    (task : Task) : Bool :=
  match result.deliveryId, result.attempt with
  | some deliveryId, some attempt =>
      let written := (resultSql false organizationId result.taskId deliveryId attempt
        result.outcome a.now).execute w.db.tasks
      !(w.db.inbox.any fun row => row.deliveryId == deliveryId)
        && w.db.tasks.any (isDelivery organizationId result.taskId deliveryId attempt)
        && result.outcome.status == .completed && !isHeld w.db.tasks organizationId result
        && (releaseTaskDependentsSql written organizationId result.taskId a.now).hits task
        && !a.missed.contains task.id
  | _, _ => false

theorem releasedBy_iff {w : World} {a : Action} {organizationId deliveryId : Uuid}
    {result : TaskResult} {attempt : Int} {task : Task}
    (delivery : result.deliveryId = some deliveryId) (tried : result.attempt = some attempt) :
    releasedBy w a organizationId result task = true ↔
      (∀ row ∈ w.db.inbox, row.deliveryId ≠ deliveryId)
      ∧ (∃ row ∈ w.db.tasks,
        isDelivery organizationId result.taskId deliveryId attempt row = true)
      ∧ result.outcome.status = .completed ∧ isHeld w.db.tasks organizationId result = false
      ∧ (releaseTaskDependentsSql ((resultSql false organizationId result.taskId deliveryId
        attempt result.outcome a.now).execute w.db.tasks) organizationId result.taskId
          a.now).hits task = true
      ∧ a.missed.contains task.id = false := by
  simp [releasedBy, delivery, tried, and_assoc]

section Settlement

variable {db : Db} {inbox : Table InboxRow InboxRow.deliveryId} {organizationId : Uuid}
  {result : TaskResult} {deliveryId : Uuid} {attempt : Int} {missed : List Uuid} {now : Timestamp}

theorem mem_settledDb_tasks (inbox : Table InboxRow InboxRow.deliveryId) (missed : List Uuid)
    (now : Timestamp) {task : Task} (member : task ∈ db.tasks)
    (other : isDelivery organizationId result.taskId deliveryId attempt task = false) :
    (if result.outcome.status = .completed ∧ isHeld db.tasks organizationId result = false
        ∧ (releaseTaskDependentsSql ((resultSql false organizationId result.taskId deliveryId
          attempt result.outcome now).execute db.tasks) organizationId result.taskId now).hits task
          = true
        ∧ missed.contains task.id = false
      then (releaseTo .queued now task).bumpRowVersion else task)
      ∈ (settledDb db inbox organizationId result deliveryId attempt missed now).tasks := by
  have kept : ∀ held, task ∈ (resultSql held organizationId result.taskId deliveryId attempt
      result.outcome now).execute db.tasks := by
    intro held
    refine (TaskUpdate.mem_execute _).2 ⟨task, member, ?_⟩
    rw [resultSql_hits, other]
    rfl
  rw [settledDb, settleDelivery]
  by_cases completes : result.outcome.status = .completed
      ∧ ¬isHeld db.tasks organizationId result = true
  · rw [if_pos completes]
    have held := Bool.eq_false_of_not_eq_true completes.2
    refine (TaskUpdate.mem_execute _).2 ⟨task, kept _, ?_⟩
    simp [completes.1, held, TaskUpdate.apply, releaseTaskDependentsSql]
  · rw [if_neg completes, if_neg fun all => completes ⟨all.1, by simp [all.2.1]⟩]
    exact kept _

theorem settledDb_runs :
    (settledDb db inbox organizationId result deliveryId attempt missed now).runs = (closeRuns db
      (isRunOf organizationId result.taskId deliveryId) result.outcome.runStatus now).runs := by
  rw [settledDb, settleDelivery]
  split <;> rfl

theorem mem_settledDb_runs {run : TaskRun} (other : run.orchestrationTaskId ≠ result.taskId) :
    run ∈ (settledDb db inbox organizationId result deliveryId attempt missed now).runs
      ↔ run ∈ db.runs := by
  rw [settledDb_runs, mem_closeRuns]
  constructor
  · rintro ⟨old, was, rfl⟩
    split at other
    case isTrue hit =>
        simp only [isRunOf, Bool.and_eq_true, beq_iff_eq] at hit
        exact absurd hit.1.1.2 other
    case isFalse miss => rwa [if_neg miss]
  · intro member
    exact ⟨run, member, by simp [isRunOf, other]⟩

theorem settledDb_participants :
    ∃ idle : Participant → Bool,
      (settledDb db inbox organizationId result deliveryId attempt missed now).participants
        = (setParticipants db (fun p => isParticipant organizationId result.agentId p && idle p)
          fun p => (if p.status = .offline then .offline else .available,
            p.lastHeartbeatAt)).participants := by
  rw [settledDb, settleDelivery]
  split <;> exact ⟨_, rfl⟩

theorem mem_settledDb_participants {participant : Participant}
    (other : participant.agentId ≠ result.agentId) :
    participant ∈ (settledDb db inbox organizationId result deliveryId attempt missed
      now).participants ↔ participant ∈ db.participants := by
  obtain ⟨idle, written⟩ := @settledDb_participants db inbox organizationId result deliveryId
    attempt missed now
  rw [written, mem_setParticipants]
  constructor
  · rintro ⟨old, was, rfl⟩
    split at other
    case isTrue hit =>
        simp only [isParticipant, Bool.and_eq_true, beq_iff_eq] at hit
        exact absurd hit.1.1 other
    case isFalse miss => rwa [if_neg miss]
  · intro member
    exact ⟨participant, member, by simp [isParticipant, other]⟩

theorem settledDb_inbox :
    (settledDb db inbox organizationId result deliveryId attempt missed now).inbox = inbox := by
  rw [settledDb, settleDelivery]
  split <;> rfl

end Settlement

section Ownership

variable {crypto : Crypto} {w : World} {a : Action} {organizationId : Uuid} {result : TaskResult}
  {exempt : Task → Prop}

theorem issued_of_safe (safe : SafeDelivery w result) {deliveryId : Uuid}
    (delivery : result.deliveryId = some deliveryId)
    (fresh : ∀ row ∈ w.db.inbox, row.deliveryId ≠ deliveryId)
    (there : ∃ task ∈ w.db.tasks, task.id = result.taskId) :
    ∀ issue ∈ w.issued, issue.deliveryId = deliveryId → issue.agentId = result.agentId := by
  intro issue known same
  rcases safe with ⟨row, was, taken⟩ | absent | issued
  · rw [delivery, Option.some.injEq] at taken
    exact absurd taken (fresh row was)
  · obtain ⟨task, member, id⟩ := there
    exact absurd id (absent task member)
  · exact issued issue known (by rw [same, delivery])

theorem assigned_of_issued (sound : SoundWorld w) {deliveryId : Uuid} {attempt : Int} {row : Task}
    (member : row ∈ w.db.tasks)
    (hit : isDelivery organizationId result.taskId deliveryId attempt row = true)
    (safe : ∀ issue ∈ w.issued, issue.deliveryId = deliveryId → issue.agentId = result.agentId) :
    row.assignedAgentId = some result.agentId := by
  obtain ⟨-, -, working, delivery, -⟩ := isDelivery_iff.1 hit
  obtain ⟨assigned, -⟩ := (sound.sound.rows row member).owned working
  obtain ⟨agentId, agent⟩ := Option.isSome_iff_exists.1 assigned
  have issued := sound.sound.current row member working agentId deliveryId agent delivery
  exact agent.trans (congrArg some (safe _ issued rfl))

theorem safe_of_leavesOthers (reports : Reports crypto w a organizationId result)
    (leaves : LeavesOthers w (exec crypto w a) result.agentId a.now exempt) :
    SafeDelivery w result := by
  obtain ⟨deliveryId, attempt, computed, delivery, -, applied, after⟩ := reports.applied
  have issued : ∀ inbox,
      w.db.inbox.insert? ⟨deliveryId, organizationId, result.taskId⟩ = some inbox →
        (exec crypto w a).db.inbox = inbox → SafeDelivery w result := by
    intro inbox inserted same
    obtain ⟨fresh, rows⟩ := Table.insert?_eq_some inserted
    refine .inr (.inr fun issue known carried => ?_)
    rw [delivery, Option.some.injEq] at carried
    refine leaves.inbox ⟨deliveryId, organizationId, result.taskId⟩ ?_ ?_ issue known carried
    · rw [same]
      exact (rows _).2 (.inl rfl)
    · exact fun was => fresh _ was rfl
  cases applied with
  | duplicate old known same => exact .inl ⟨old, known, by rw [same, delivery]⟩
  | unknown err absent => exact .inr (.inl absent)
  | recorded inbox inserted => exact issued inbox inserted (by rw [after, databaseAfter])
  | settled inbox inserted =>
      exact issued inbox inserted (by rw [after, databaseAfter, settledDb_inbox])

theorem leavesOthers_of_same (same : (exec crypto w a).db = w.db) :
    LeavesOthers w (exec crypto w a) result.agentId a.now exempt := by
  constructor <;> rw [same]
  · exact fun task member _ => .inl member
  · exact fun _ _ _ _ _ => Iff.rfl
  · exact fun _ _ => Iff.rfl
  · exact fun row member fresh => absurd member fresh

theorem leavesOthers_of_safe (sound : SoundWorld w)
    (reports : Reports crypto w a organizationId result) (safe : SafeDelivery w result)
    (released : ∀ task ∈ w.db.tasks, releasedBy w a organizationId result task = true →
      exempt task) : LeavesOthers w (exec crypto w a) result.agentId a.now exempt := by
  obtain ⟨deliveryId, attempt, computed, delivery, tried, applied, after⟩ := reports.applied
  have recorded : ∀ inbox,
      w.db.inbox.insert? ⟨deliveryId, organizationId, result.taskId⟩ = some inbox →
        (∃ task ∈ w.db.tasks, task.id = result.taskId) → ∀ row ∈ inbox, row ∉ w.db.inbox →
          ∀ issue ∈ w.issued, issue.deliveryId = row.deliveryId →
            issue.agentId = result.agentId := by
    intro inbox inserted there row member fresh issue known same
    obtain ⟨new, rows⟩ := Table.insert?_eq_some inserted
    rcases (rows row).1 member with rfl | was
    · exact issued_of_safe safe delivery new there issue known same
    · exact absurd was fresh
  cases applied with
  | duplicate => exact leavesOthers_of_same (by rw [after, databaseAfter])
  | unknown => exact leavesOthers_of_same (by rw [after, databaseAfter])
  | recorded inbox inserted there unmatched =>
      constructor <;> rw [after, databaseAfter]
      · exact fun task member _ => .inl member
      · exact fun _ _ _ _ _ => Iff.rfl
      · exact fun _ _ => Iff.rfl
      · exact recorded inbox inserted there
  | settled inbox inserted row member hit =>
      have there : ∃ task ∈ w.db.tasks, task.id = result.taskId :=
        ⟨row, member, (isDelivery_iff.1 hit).1⟩
      have own := assigned_of_issued sound member hit
        (issued_of_safe safe delivery (Table.insert?_eq_some inserted).1 there)
      have apart : ∀ task ∈ w.db.tasks, task.assignedAgentId ≠ some result.agentId →
          task.id ≠ result.taskId := by
        intro task other assigned id
        obtain rfl : task = row :=
          Table.eq_of_key_eq other member (id.trans (isDelivery_iff.1 hit).1.symm)
        exact assigned own
      constructor <;> rw [after, databaseAfter]
      · intro task other assigned
        have miss : isDelivery organizationId result.taskId deliveryId attempt task = false := by
          by_contra matched
          exact apart task other assigned
            (isDelivery_iff.1 (Bool.eq_true_of_not_eq_false matched)).1
        have next := mem_settledDb_tasks inbox a.missed a.now other miss
        split at next
        case isTrue completes =>
            refine .inr ⟨released task other ?_, next⟩
            exact (releasedBy_iff delivery tried).2
              ⟨(Table.insert?_eq_some inserted).1, ⟨row, member, hit⟩, completes⟩
        case isFalse => exact .inl next
      · exact fun task other assigned run of => mem_settledDb_runs (of ▸ apart task other assigned)
      · exact fun participant other => mem_settledDb_participants other
      · rw [settledDb_inbox]
        exact recorded inbox inserted there

theorem awaitsSender_of_released (sound : SoundWorld w)
    (reports : Reports crypto w a organizationId result) (safe : SafeDelivery w result)
    {task : Task} (released : releasedBy w a organizationId result task = true) :
    AwaitsSender w organizationId result task := by
  obtain ⟨deliveryId, attempt, -, delivery, tried, -, -⟩ := reports.applied
  obtain ⟨fresh, ⟨row, member, hit⟩, -, -, hits, -⟩ := (releasedBy_iff delivery tried).1 released
  obtain ⟨id, -, working, -, -⟩ := isDelivery_iff.1 hit
  have own := assigned_of_issued sound member hit
    (issued_of_safe safe delivery fresh ⟨row, member, id⟩)
  simp only [releaseTaskDependentsSql, Bool.and_eq_true] at hits
  exact ⟨by simp only [awaits, Bool.and_eq_true]; exact hits.1, row, member, id, working, own⟩

theorem not_leavesOthers_of_released (reports : Reports crypto w a organizationId result)
    {task : Task} (member : task ∈ w.db.tasks)
    (released : releasedBy w a organizationId result task = true) :
    ¬LeavesOthers w (exec crypto w a) result.agentId a.now fun _ => False := by
  intro leaves
  obtain ⟨deliveryId, attempt, computed, delivery, tried, applied, after⟩ := reports.applied
  obtain ⟨fresh, matched, completes⟩ := (releasedBy_iff delivery tried).1 released
  have waits : waitsForDependency task = true := by
    have hits := completes.2.2.1
    simp only [releaseTaskDependentsSql, Bool.and_eq_true] at hits
    exact hits.1.2
  obtain ⟨blocked, -, unassigned, -⟩ := TaskSteps.waitsForDependency_iff.1 waits
  have still := (leaves.tasks task member (by simp [unassigned])).resolve_right And.left
  cases applied with
  | duplicate old known same => exact fresh old known same
  | unknown err absent =>
      obtain ⟨row, there, hit⟩ := matched
      exact absent row there (isDelivery_iff.1 hit).1
  | recorded inbox inserted there unmatched =>
      obtain ⟨row, there, hit⟩ := matched
      exact absurd ((unmatched row there).symm.trans hit) Bool.noConfusion
  | settled inbox inserted row there hit =>
      have miss : isDelivery organizationId result.taskId deliveryId attempt task = false := by
        by_contra matched
        have working := (isDelivery_iff.1 (Bool.eq_true_of_not_eq_false matched)).2.2.1
        simp [blocked] at working
      have next := mem_settledDb_tasks inbox a.missed a.now member miss
      rw [if_pos completes] at next
      rw [after, databaseAfter] at still
      have one := congrArg Task.status (Table.eq_of_key_eq still next rfl)
      simp [blocked, releaseTo, Task.bumpRowVersion] at one

/-- A message leaves everything but the work of its sender alone, apart from tasks that wait for
a task of the sender, exactly when the delivery that it names is safe; it leaves those tasks
alone too exactly when besides it releases none. -/
theorem result_ownership (reachable : ReachableWorld crypto w)
    (reports : Reports crypto w a organizationId result) :
    (LeavesOthers w (exec crypto w a) result.agentId a.now (AwaitsSender w organizationId result)
      ↔ SafeDelivery w result)
    ∧ (LeavesOthers w (exec crypto w a) result.agentId a.now (fun _ => False)
      ↔ SafeDelivery w result
        ∧ ∀ task ∈ w.db.tasks, releasedBy w a organizationId result task = false) := by
  have sound := soundWorld_of_reachable reachable
  refine ⟨⟨safe_of_leavesOthers reports, fun safe => ?_⟩, ?_, ?_⟩
  · exact leavesOthers_of_safe sound reports safe fun task _ released =>
      awaitsSender_of_released sound reports safe released
  · intro leaves
    refine ⟨safe_of_leavesOthers reports leaves, fun task member => ?_⟩
    by_contra released
    exact not_leavesOthers_of_released reports member (Bool.eq_true_of_not_eq_false released)
      leaves
  · rintro ⟨safe, none⟩
    exact leavesOthers_of_safe sound reports safe fun task member released =>
      absurd ((none task member).symm.trans released) Bool.noConfusion

end Ownership

def deliveredWorld : World :=
  runFrom Sample.crypto .start
    (Sample.staffed ++ Sample.claimed (Sample.named 20) (Sample.named 10) 30)

def completion (agentId : Uuid) (attempt : Int) : TaskResult where
  deliveryId := some (Sample.named 30)
  attempt := some attempt
  taskId := Sample.named 20
  agentId
  outcome := .completed "done"

def genuine : Action := Sample.report (Sample.named 20) (Sample.named 10) 30 1

def forged : Action := Sample.report (Sample.named 20) (Sample.named 11) 30 2

def answerTo (a : Action) : Option (Except HandleError (Uuid × TaskResult)) :=
  match a.command with
  | .handleResult subjectPrefix subject payload =>
      some (authenticate Sample.crypto.verify (deliveredWorld.snapshot a.seen) subjectPrefix subject
        payload (a.now / second))
  | _ => none

theorem reports_of_answerTo {a : Action} {organizationId : Uuid} {result : TaskResult}
    (answered : answerTo a = some (.ok (organizationId, result))) :
    Reports Sample.crypto deliveredWorld a organizationId result := by
  rw [answerTo] at answered
  split at answered
  case h_1 received => exact ⟨_, _, _, received, Option.some.inj answered⟩
  case h_2 => cases answered

theorem deliveredWorld_evaluated :
    AllMeet Sample.crypto (fun _ _ => True) .start
        (Sample.staffed ++ Sample.claimed (Sample.named 20) (Sample.named 10) 30)
      ∧ answerTo genuine = some (.ok (Sample.organization, completion (Sample.named 10) 1))
      ∧ answerTo forged = some (.ok (Sample.organization, completion (Sample.named 11) 2))
      ∧ (∀ issue ∈ deliveredWorld.issued,
        some issue.deliveryId = (completion (Sample.named 10) 1).deliveryId →
          issue.agentId = (completion (Sample.named 10) 1).agentId)
      ∧ ((exec Sample.crypto deliveredWorld genuine).db.tasks.rows.map fun task => task.status)
        = [.completed]
      ∧ ((exec Sample.crypto (exec Sample.crypto deliveredWorld forged) genuine).db.tasks.rows.map
        fun task => task.status) = [.working]
      ∧ ∃ row ∈ (exec Sample.crypto deliveredWorld forged).db.inbox.rows,
        row ∉ deliveredWorld.db.inbox.rows ∧ ∃ issue ∈ deliveredWorld.issued,
          issue.deliveryId = row.deliveryId ∧ issue.agentId ≠ Sample.named 11 := by
  decide +kernel

theorem reachable_deliveredWorld : ReachableWorld Sample.crypto deliveredWorld :=
  reachableWhen_run deliveredWorld_evaluated.1

theorem reports_genuine : Reports Sample.crypto deliveredWorld genuine Sample.organization
    (completion (Sample.named 10) 1) :=
  reports_of_answerTo deliveredWorld_evaluated.2.1

theorem reports_forged : Reports Sample.crypto deliveredWorld forged Sample.organization
    (completion (Sample.named 11) 2) :=
  reports_of_answerTo deliveredWorld_evaluated.2.2.1

/-- The genuine message leaves everything of others alone. -/
theorem result_ownership_genuine :
    SafeDelivery deliveredWorld (completion (Sample.named 10) 1)
      ∧ LeavesOthers deliveredWorld (exec Sample.crypto deliveredWorld genuine) (Sample.named 10)
        genuine.now (AwaitsSender deliveredWorld Sample.organization
          (completion (Sample.named 10) 1)) := by
  have safe : SafeDelivery deliveredWorld (completion (Sample.named 10) 1) := by
    exact .inr (.inr deliveredWorld_evaluated.2.2.2.1)
  exact ⟨safe, (result_ownership reachable_deliveredWorld reports_genuine).1.2 safe⟩

/-- The forged message records the delivery of the first agent, so that the genuine result, which
would have completed the task, is discarded as a duplicate. -/
theorem forged_delivery_discards_result :
    (¬∀ w, ReachableWorld Sample.crypto w → ∀ a organizationId result,
      Reports Sample.crypto w a organizationId result →
        LeavesOthers w (exec Sample.crypto w a) result.agentId a.now
          (AwaitsSender w organizationId result))
    ∧ ((exec Sample.crypto deliveredWorld genuine).db.tasks.rows.map fun task => task.status)
        = [.completed]
    ∧ ((exec Sample.crypto (exec Sample.crypto deliveredWorld forged) genuine).db.tasks.rows.map
        fun task => task.status) = [.working] := by
  obtain ⟨-, -, -, -, completed, discarded, row, recorded, fresh, issue, known, same, other⟩ :=
    deliveredWorld_evaluated
  refine ⟨fun owned => ?_, completed, discarded⟩
  have leaves := owned _ reachable_deliveredWorld _ _ _ reports_forged
  exact other (leaves.inbox row recorded fresh issue known same)

end Forge.ResultOwnership
