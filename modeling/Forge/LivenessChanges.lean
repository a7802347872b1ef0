import Forge.LifecycleChanges
import Forge.ResultConsumer

/-! The transactions on participants and leases, the quarantine, the retirement and the
application of results, as chains of parts. -/

namespace Forge.LivenessChanges

open Forge.AssignmentChanges
open Forge.Changes
open Forge.DependencyReadiness
open Forge.Library.Fallible
open Forge.Library.Identifier
open Forge.Library.KeyedTable
open Forge.LifecycleChanges
open Forge.OrchestrationDomain
open Forge.OrchestrationService
open Forge.ParticipantLiveness
open Forge.ParticipantStatements
open Forge.ResultConsumer
open Forge.Schema
open Forge.TaskLifecycle
open Forge.TaskStatements
open Forge.TaskSteps

variable {gate : Lifecycle → Task → Prop} {db : Db} {issued : List Issue} {now : Timestamp}
  {outcome : Outcome} {organizationId agentId : Uuid}

section Tasks

theorem carries_retireStaleTasks {snapshot : Tasks} {groupId : Uuid} {days batch : Option Int}
    (allowed : ∀ validDays validBatch,
      TaskRetirePolicy.validate days batch = .ok (validDays, validBatch) → ∀ row ∈ db.tasks,
        (retireStaleTasksSql (staleTaskIds snapshot organizationId groupId validDays validBatch
          now) now).hits row = true → gate .retire row)
    (done : retireStaleTasks db snapshot organizationId groupId days batch now = .ok outcome) :
    Carries gate db issued outcome := by
  rw [retireStaleTasks] at done
  obtain ⟨⟨validDays, validBatch⟩, valid, done⟩ := bind_eq_ok.1 done
  obtain rfl := pure_eq_ok.1 done
  exact .single (.move (.of_rewrite fun row member hit =>
    .retire _ now (allowed validDays validBatch valid row member hit)))

theorem carries_quarantine :
    Carries gate db issued (invalidateActiveWorkForQuarantine db organizationId agentId now) := by
  have hits : ∀ task : Task, (invalidateActiveWorkSql organizationId agentId now).hits task
      = true ↔ task.organizationId = organizationId ∧ task.assignedAgentId = some agentId
        ∧ task.status = .working := by
    simp [invalidateActiveWorkSql, and_assoc]
  have failed : ∀ taskId, (db.tasks.any fun task => task.id == taskId
      && (invalidateActiveWorkSql organizationId agentId now).hits task) = true ↔
        ∃ task ∈ db.tasks, task.id = taskId
          ∧ (invalidateActiveWorkSql organizationId agentId now).hits task = true := by
    simp
  refine .head (.move (.of_settle db.inbox (fun task _ hit => ⟨((hits task).1 hit).2.2,
    .quarantine organizationId agentId now⟩) ?_ ?_))
    (.single (.move (.of_others rfl .unchanged (.of_delete ?_) .same .same)))
  · intro run _ closes
    simp only [Bool.and_eq_true, failed] at closes
    obtain ⟨-, task, member, id, hit⟩ := closes
    exact ⟨task, member, hit, id.symm⟩
  · intro task member hit run _ own
    obtain ⟨organization, assigned, -⟩ := (hits task).1 hit
    have agent : run.agentId = agentId := Option.some.inj (own.agent.symm.trans assigned)
    simp only [Bool.and_eq_true, failed, beq_iff_eq]
    exact ⟨⟨own.organization.trans organization, agent⟩, task, member, own.taskId.symm, hit⟩
  · intro task there working row _ aggregate
    by_contra taken
    simp only [Bool.not_eq_false, Bool.and_eq_true, failed] at taken
    obtain ⟨-, old, was, id, hit⟩ := taken
    rw [TaskUpdate.eq_of_mem_execute _ was there (aggregate.symm.trans id.symm), if_pos hit]
      at working
    cases working

end Tasks

section Participants

theorem carries_participants {participants : Participants}
    (move : ParticipantsMove db.tasks db.agents db.participants participants) :
    Carries gate db issued { db := { db with participants } } :=
  .single (.move (.of_others rfl .unchanged .same move .same))

theorem idle_of_ownership (free : ownershipStatus db organizationId agentId = .available) :
    hasWorkingTask db.tasks organizationId agentId = false := by
  rw [ownershipStatus] at free
  split at free
  case isTrue => cases free
  case isFalse idle => exact Bool.eq_false_of_not_eq_true idle

theorem agentOf_some {agent : Agent} (found : agentOf db organizationId agentId = some agent) :
    agent ∈ db.agents ∧ agent.id = agentId ∧ agent.organizationId = organizationId := by
  obtain ⟨member, named⟩ := Table.mem_of_find? found
  simp only [Bool.and_eq_true, beq_iff_eq] at named
  exact ⟨member, named⟩

theorem isParticipant_iff {participant : Participant} :
    isParticipant organizationId agentId participant = true ↔
      participant.agentId = agentId ∧ participant.organizationId = organizationId := by
  simp [isParticipant]

theorem carries_releaseIfIdle
    (done : releaseIfIdle db organizationId agentId = .ok outcome) :
    Carries gate db issued outcome := by
  rw [releaseIfIdle] at done
  obtain ⟨participant, -, done⟩ := bind_eq_ok.1 done
  obtain rfl := pure_eq_ok.1 done
  refine carries_participants (.of_set fun p member hit _ => .inr ?_)
  simp only [Bool.and_eq_true, Bool.not_eq_true'] at hit
  exact hit.2

theorem carries_registerParticipant {name : String} {capabilities : List String}
    (done : registerParticipant db organizationId agentId name capabilities = .ok outcome) :
    Carries gate db issued outcome := by
  rw [registerParticipant] at done
  obtain ⟨-, -, done⟩ := bind_eq_ok.1 done
  obtain ⟨agent, found, done⟩ := bind_eq_ok.1 done
  obtain ⟨known, named⟩ := agentOf_some (elim_eq_ok.1 found)
  dsimp only at done
  split at done
  case h_1 =>
      obtain rfl := pure_eq_ok.1 done
      refine carries_participants (.of_update (by intro; rfl) fun p member hit free => .inr ?_)
      obtain ⟨rfl, rfl⟩ := isParticipant_iff.1 hit
      exact idle_of_ownership free
  case h_2 =>
      split at done
      case h_2 => cases done
      case h_1 participants inserted =>
          obtain rfl := pure_eq_ok.1 done
          exact carries_participants (.of_insert inserted ⟨agent, known, named⟩ idle_of_ownership)

theorem carries_participantHeartbeat
    (done : participantHeartbeat db organizationId agentId now = .ok outcome) :
    Carries gate db issued outcome := by
  rw [participantHeartbeat] at done
  obtain ⟨participant, -, done⟩ := bind_eq_ok.1 done
  obtain rfl := pure_eq_ok.1 done
  refine carries_participants (.of_set fun p member hit free => ?_)
  split at free
  case isTrue => cases free
  case isFalse idle => exact .inr (Bool.eq_false_of_not_eq_true idle)

theorem carries_markParticipantOffline
    (done : markParticipantOffline db organizationId agentId = .ok outcome) :
    Carries gate db issued outcome := by
  rw [markParticipantOffline] at done
  split at done <;> cases done
  exact carries_participants (.of_set fun p member hit free => by cases free)

theorem carries_unregisterParticipant
    (done : unregisterParticipant db organizationId agentId = .ok outcome) :
    Carries gate db issued outcome := by
  rw [unregisterParticipant] at done
  split at done <;> cases done
  exact carries_participants .of_delete

theorem carries_sidecarHeartbeat {capabilities : List String}
    (done : sidecarHeartbeat db agentId capabilities now = .ok outcome) :
    Carries gate db issued outcome := by
  rw [sidecarHeartbeat] at done
  split at done
  case h_1 => cases done; exact .refl
  case h_2 agent found =>
      obtain ⟨known, named⟩ := Table.mem_of_find? found
      split at done
      case isTrue =>
          cases done
          refine carries_participants (.of_update (by intro; rfl) fun p member hit free => ?_)
          dsimp only at free
          split at free
          case isTrue => exact .inr (idle_of_ownership free)
          case isFalse => exact .inl free
      case isFalse =>
          split at done <;> cases done
          case h_1 participants inserted =>
              exact carries_participants (.of_insert inserted
                ⟨agent, known, by simpa using named, rfl⟩ idle_of_ownership)

theorem carries_markStaleOffline {staleAfterSecs : Int} :
    Carries gate db issued (markStaleOffline db staleAfterSecs now) :=
  carries_participants (.of_set fun p member hit free => by cases free)

theorem carries_markOfflineByAgentIds {agentIds : List Uuid} :
    Carries gate db issued (markOfflineByAgentIds db agentIds) :=
  carries_participants (.of_set fun p member hit free => by cases free)

theorem carries_reconcileOrphanedBusy :
    Carries gate db issued (reconcileOrphanedBusy db) := by
  refine carries_participants (.of_set fun p member hit _ => .inr ?_)
  simp only [Bool.and_eq_true, Bool.not_eq_true'] at hit
  exact hit.2.2

end Participants

section Leases

theorem carries_expireWorkingLeases {staleAfterSecs : Int} :
    Carries gate db issued (expireWorkingLeases db staleAfterSecs now) := by
  rw [expireWorkingLeases]
  refine .head (.move (.of_settle db.inbox (fun task member hit => ⟨?_, .expire _ _ now⟩) ?_ ?_))
    (carries_participants (.of_set fun p member hit free => ?_))
  · simp only [expireWorkingLeasesSql, Bool.and_eq_true, beq_iff_eq] at hit
    exact hit.1.1
  · intro run _ closes
    simp only [List.contains_eq_mem, List.mem_map, List.mem_filter, decide_eq_true_eq] at closes
    obtain ⟨task, ⟨member, hit⟩, id⟩ := closes
    exact ⟨task, member, hit, id.symm⟩
  · intro task member hit run _ own
    simp only [List.contains_eq_mem, List.mem_map, List.mem_filter, decide_eq_true_eq]
    exact ⟨task, ⟨member, hit⟩, own.taskId.symm⟩
  · dsimp only at free
    split_ifs at free with offline working stale
    exact .inr (Bool.eq_false_of_not_eq_true working)

end Leases

section Results

variable {result : TaskResult} {missed : List Uuid}

theorem isDelivery_iff {taskId deliveryId : Uuid} {attempt : Int} {task : Task} :
    isDelivery organizationId taskId deliveryId attempt task = true ↔
      task.id = taskId ∧ task.organizationId = organizationId ∧ task.status = .working
        ∧ task.lastAssignmentId = some deliveryId ∧ (task.attempt : Int) = attempt := by
  simp [isDelivery, and_assoc]

theorem resultSql_hits {held : Bool} {taskId deliveryId : Uuid} {attempt : Int}
    {body : TaskOutcome} :
    (resultSql held organizationId taskId deliveryId attempt body now).hits
      = isDelivery organizationId taskId deliveryId attempt := by
  cases held <;> rfl

theorem settle_of_result {held : Bool} {taskId deliveryId : Uuid} {attempt : Int}
    {body : TaskOutcome} (task : Task) :
    Settle task ((resultSql held organizationId taskId deliveryId attempt body now).apply
      task) := by
  cases held with
  | true => exact .hold _ _ _ _ _ _
  | false =>
      refine .result _ _ _ _ _ _ ?_
      cases body with
      | completed => exact .inl rfl
      | failed => exact .inr rfl

abbrev isRunOf (organizationId taskId deliveryId : Uuid) (run : TaskRun) : Bool :=
  run.organizationId == organizationId && run.orchestrationTaskId == taskId
    && run.idempotencyKey == deliveryId.toText

theorem moves_resultSql {held : Bool} {taskId deliveryId : Uuid} {attempt : Int}
    {body : TaskOutcome} {status : RunStatus} {inbox : Table InboxRow InboxRow.deliveryId}
    {row : Task} (member : row ∈ db.tasks)
    (hit : isDelivery organizationId taskId deliveryId attempt row = true) :
    Moves gate ⟨db, issued⟩ ⟨closeRuns { db with
      tasks := (resultSql held organizationId taskId deliveryId attempt body now).execute db.tasks
      inbox } (isRunOf organizationId taskId deliveryId) status now, issued⟩ := by
  refine .of_settle inbox (fun task _ matched => ⟨?_, settle_of_result task⟩) ?_ ?_
  · rw [resultSql_hits, isDelivery_iff] at matched
    exact matched.2.2.1
  · intro run _ closes
    simp only [Bool.and_eq_true, beq_iff_eq] at closes
    exact ⟨row, member, by rw [resultSql_hits, hit],
      closes.1.2.trans (isDelivery_iff.1 hit).1.symm⟩
  · intro task _ matched run _ own
    rw [resultSql_hits, isDelivery_iff] at matched
    obtain ⟨id, organization, -, delivery, -⟩ := matched
    obtain ⟨deliveryId', delivery', key⟩ := own.key
    have same : deliveryId' = deliveryId := Option.some.inj (delivery'.symm.trans delivery)
    simp [own.organization, own.taskId, key, id, organization, same]

theorem carries_dependents {dependents : Prop} [Decidable dependents] {taskId : Uuid}
    {closes : TaskRun → Bool} {status : RunStatus} :
    Relation.ReflTransGen (Change gate) ⟨closeRuns db closes status now, issued⟩
      ⟨closeRuns (if dependents then releaseTaskDependents db organizationId taskId missed now
        else db) closes status now, issued⟩ := by
  split
  · exact .single (.move moves_releaseTaskDependents)
  · exact .refl

abbrev settledDb (db : Db) (inbox : Table InboxRow InboxRow.deliveryId) (organizationId : Uuid)
    (result : TaskResult) (deliveryId : Uuid) (attempt : Int) (missed : List Uuid)
    (now : Timestamp) : Db :=
  let held := isHeld db.tasks organizationId result
  let tasks := (resultSql held organizationId result.taskId deliveryId attempt result.outcome
    now).execute db.tasks
  settleDelivery { db with tasks, inbox } organizationId result deliveryId held missed now

/-- What the transaction of a result comes to: nothing for a delivery that the inbox has, an
error for a task that does not exist, the inbox row alone when no row matches the delivery, and
the settled delivery otherwise. -/
inductive Applied (db : Db) (organizationId : Uuid) (result : TaskResult) (deliveryId : Uuid)
    (attempt : Int) (missed : List Uuid) (now : Timestamp) : Except AppError Outcome → Prop
  | duplicate (old : InboxRow) (known : old ∈ db.inbox) (same : old.deliveryId = deliveryId) :
      Applied db organizationId result deliveryId attempt missed now (.ok ⟨db, none⟩)
  | unknown (err : AppError) (absent : ∀ task ∈ db.tasks, task.id ≠ result.taskId) :
      Applied db organizationId result deliveryId attempt missed now (.error err)
  | recorded (inbox : Table InboxRow InboxRow.deliveryId)
      (inserted : db.inbox.insert? ⟨deliveryId, organizationId, result.taskId⟩ = some inbox)
      (there : ∃ task ∈ db.tasks, task.id = result.taskId)
      (unmatched : ∀ task ∈ db.tasks,
        isDelivery organizationId result.taskId deliveryId attempt task = false) :
      Applied db organizationId result deliveryId attempt missed now
        (.ok ⟨{ db with inbox }, none⟩)
  | settled (inbox : Table InboxRow InboxRow.deliveryId)
      (inserted : db.inbox.insert? ⟨deliveryId, organizationId, result.taskId⟩ = some inbox)
      (row : Task) (member : row ∈ db.tasks)
      (hit : isDelivery organizationId result.taskId deliveryId attempt row = true) :
      Applied db organizationId result deliveryId attempt missed now
        (.ok ⟨settledDb db inbox organizationId result deliveryId attempt missed now, none⟩)

theorem applied {deliveryId : Uuid} {attempt : Int} (delivery : result.deliveryId = some deliveryId)
    (tried : result.attempt = some attempt) :
    Applied db organizationId result deliveryId attempt missed now
      (apply db organizationId result missed now) := by
  simp only [apply, delivery, tried, Option.elim_some, bind, Except.bind]
  split
  case h_1 taken =>
      obtain ⟨old, known, same⟩ := Table.insert?_eq_none.1 taken
      exact .duplicate old known same
  case h_2 inbox inserted =>
      split
      case isTrue absent => exact .unknown _ (by simpa using absent)
      case isFalse there =>
          have there : ∃ task ∈ db.tasks, task.id = result.taskId := by simpa using there
          split
          case h_1 missed =>
              refine .recorded inbox inserted there fun task member => ?_
              rw [← resultSql_hits]
              exact TaskUpdate.executeOptional_none _ missed task member
          case h_2 tasks returned written =>
              obtain ⟨row, member, hit, rfl, -⟩ := TaskUpdate.executeOptional_some _ written
              rw [resultSql_hits] at hit
              exact .settled inbox inserted row member hit

theorem carries_apply (done : apply db organizationId result missed now = .ok outcome) :
    Carries gate db issued outcome := by
  obtain ⟨deliveryId, delivery, rest⟩ := bind_eq_ok.1 done
  obtain ⟨attempt, tried, -⟩ := bind_eq_ok.1 rest
  have how : Applied db organizationId result deliveryId attempt missed now (.ok outcome) :=
    done ▸ applied (elim_eq_ok.1 delivery) (elim_eq_ok.1 tried)
  cases how with
  | duplicate => exact .refl
  | recorded => exact .single (.move (.of_others rfl .unchanged .same .same .same))
  | settled inbox _ row member hit =>
      refine .head (.move (moves_resultSql member hit)) (.trans carries_dependents
        (carries_participants (.of_set fun p _ idle _ => .inr ?_)))
      simp only [Bool.and_eq_true, Bool.not_eq_true'] at idle
      exact idle.2

end Results

end Forge.LivenessChanges
