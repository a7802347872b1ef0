import Forge.Library.Fallible
import Forge.Soundness
import Forge.ParticipantLiveness

/-! The transactions that create, block, release and assign tasks, as chains of parts. -/

namespace Forge.AssignmentChanges

open Forge.Changes
open Forge.DependencyReadiness
open Forge.Library.Fallible
open Forge.Library.Identifier
open Forge.Library.JsonDocument
open Forge.Library.KeyedTable
open Forge.OrchestrationDomain
open Forge.OrchestrationService
open Forge.OrchestrationView
open Forge.ParticipantLiveness
open Forge.ParticipantStatements
open Forge.ReadinessAgreement
open Forge.Schema
open Forge.Soundness
open Forge.TaskStatements
open Forge.TaskSteps

abbrev Carries (gate : Lifecycle → Task → Prop) (db : Db) (issued : List Issue)
    (outcome : Outcome) : Prop :=
  Relation.ReflTransGen (Change gate) ⟨db, issued⟩
    ⟨outcome.db, outcome.issue.toList ++ issued⟩

def Trails (view : View) (tasks : Tasks) : Prop :=
  ∀ id, ∀ read ∈ view id, ∃ row ∈ tasks, row.id = read.id ∧ Later read row

section Reads

variable {view : View} {tasks : Tasks}

theorem findById_ok {organizationId id : Uuid} {task : Task}
    (found : findById tasks organizationId id = .ok task) :
    task ∈ tasks ∧ task.id = id ∧ task.organizationId = organizationId := by
  rw [findById] at found
  split at found
  case h_1 row read =>
      obtain rfl := Except.ok.inj found
      obtain ⟨member, hit⟩ := Table.mem_of_find? read
      simp only [Bool.and_eq_true, beq_iff_eq] at hit
      exact ⟨member, hit⟩
  case h_2 => cases found

theorem Trails.row_eq (trails : Trails view tasks) {id : Uuid} {read row : Task}
    (seen : read ∈ view id) (member : row ∈ tasks) (same : row.id = read.id)
    (version : row.rowVersion = read.rowVersion) : row = read := by
  obtain ⟨current, there, same', later⟩ := trails id read seen
  obtain rfl : row = current := Table.eq_of_key_eq member there (same.trans same'.symm)
  exact later.eq_of_version version

end Reads

section Plans

variable {view : View}

theorem parentStatus_isSome {organizationId : Uuid} {parentTaskId : Option Uuid}
    {status : Option String}
    (read : parentStatus view organizationId parentTaskId = .ok status) :
    status.isSome = parentTaskId.isSome := by
  cases parentTaskId with
  | none =>
      rw [parentStatus] at read
      cases read
      rfl
  | some parentId =>
      rw [parentStatus] at read
      split at read <;> cases read
      rfl

theorem plannedState_ok {organizationId : Uuid} {missingInputs : List String}
    {requiresApproval : Bool} {spec : TaskSpec} {state : TaskCreationInitialState}
    (planned : plannedState view organizationId missingInputs requiresApproval spec.params
      spec.parentTaskId = .ok state) :
    Planned spec requiresApproval state.initialStatus state.initialBlockedReason
      ∧ state.initialStatus ≠ .queued := by
  rw [plannedState] at planned
  obtain ⟨parent, read, planned⟩ := bind_eq_ok.1 planned
  obtain rfl := pure_eq_ok.1 planned
  have some_parent := parentStatus_isSome read
  rcases TaskCreationPolicy.initialUnassignedState_cases missingInputs requiresApproval parent
      (if dependenciesUnresolved view organizationId (TaskDependencyPolicy.fromParams spec.params)
        then TaskDependencyPolicy.fromParams spec.params else []) with
    ⟨status, reason⟩ | ⟨status, reason, required⟩ | ⟨status, reason, free, declared⟩
      | ⟨status, reason, free⟩
  · rw [status, reason]
    exact ⟨.input, by simp⟩
  · rw [status, reason]
    exact ⟨.approval required, by simp⟩
  · rw [status, reason]
    refine ⟨.dependency free (declared.imp (some_parent ▸ ·) fun nonempty => ?_), by simp⟩
    split at nonempty
    · exact nonempty
    · exact absurd rfl nonempty
  · rw [status, reason]
    exact ⟨.ready free (.inl rfl), by simp⟩

end Plans

section Creation

variable {gate : Lifecycle → Task → Prop} {db db' : Db} {issued : List Issue} {view : View}
  {outcome : Outcome} {now : Timestamp}

theorem createInTx_ok {organizationId : Uuid} {row : CreateTaskRow} {task : Task}
    (created : createInTx db organizationId row now = .ok (db', task)) :
    task = row.toTask organizationId now ∧
      ∃ tasks, db.tasks.insert? task = some tasks ∧ db' = { db with tasks } := by
  rw [createInTx] at created
  split at created <;> cases created
  case h_1 tasks inserted => exact ⟨rfl, tasks, inserted, rfl⟩

theorem born_toTask {organizationId : Uuid} {row : CreateTaskRow}
    (canonical : CanonicalDependencies row.params)
    (planned : Planned (row.toTask organizationId now).toTaskSpec row.requiresApproval
      row.initialStatus row.initialBlockedReason) : Born (row.toTask organizationId now) :=
  ⟨planned, rfl, rfl, rfl, canonical⟩

theorem carries_createInTx {organizationId : Uuid} {row : CreateTaskRow} {task : Task}
    (created : createInTx db organizationId row now = .ok (db', task))
    (canonical : CanonicalDependencies row.params)
    (planned : Planned (row.toTask organizationId now).toTaskSpec row.requiresApproval
      row.initialStatus row.initialBlockedReason) : Carries gate db issued { db := db' } := by
  obtain ⟨rfl, tasks, inserted, rfl⟩ := createInTx_ok created
  exact .single (.move (.of_insert (born_toTask canonical planned) inserted))

theorem carries_createRecurringTask {organizationId groupId taskId : Uuid}
    {title description priority : String} {requiresApproval : Bool}
    (created : createRecurringTask db organizationId groupId title description priority
      requiresApproval taskId now = .ok outcome) : Carries gate db issued outcome := by
  rw [createRecurringTask] at created
  obtain ⟨⟨db', task⟩, inserted, created⟩ := bind_eq_ok.1 created
  obtain rfl := pure_eq_ok.1 created
  refine carries_createInTx inserted (.inl rfl) ?_
  rcases TaskCreationPolicy.initialUnassignedState_cases [] requiresApproval none [] with
    ⟨status, reason⟩ | ⟨status, reason, required⟩ | ⟨-, -, -, declared⟩
      | ⟨status, reason, free⟩
  · rw [status, reason]
    exact .input
  · rw [status, reason]
    exact .approval required
  · simp at declared
  · rw [status, reason]
    exact .ready free (.inl rfl)

theorem carries_createMaintenanceTask {organizationId groupId taskId : Uuid}
    {title brief : String} {source : Json}
    (created : createMaintenanceTask db organizationId groupId title brief source taskId now
      = .ok outcome) : Carries gate db issued outcome := by
  rw [createMaintenanceTask] at created
  obtain ⟨⟨db', task⟩, inserted, created⟩ := bind_eq_ok.1 created
  obtain rfl := pure_eq_ok.1 created
  refine carries_createInTx inserted (.inl ?_) (.ready rfl (.inl rfl))
  simp [arrow, Json.get, List.lookup_cons]

end Creation

section Blocking

variable {gate : Lifecycle → Task → Prop} {db : Db} {issued : List Issue} {view : View}
  {outcome : Outcome} {now : Timestamp}

theorem carries_releaseReadyDependencyBlock {organizationId : Uuid} {task : Task}
    {readyStatus : TaskStatus} (start : readyStatus = .backlog ∨ readyStatus = .queued)
    (released : releaseReadyDependencyBlock db view organizationId task readyStatus now
      = .ok outcome) : Carries gate db issued outcome := by
  rw [releaseReadyDependencyBlock] at released
  split at released
  case isTrue => cases released; exact .refl
  case isFalse =>
      obtain ⟨-, -, released⟩ := bind_eq_ok.1 released
      obtain ⟨parent, -, released⟩ := bind_eq_ok.1 released
      dsimp only at released
      split at released <;> cases released
      case isTrue => exact .refl
      case isFalse =>
          refine .single (.move (.of_rewrite fun row member hit => ?_))
          simp only [releaseWaitingDependencySql, Bool.and_eq_true] at hit
          exact .release readyStatus now hit.2 start

theorem carries_markBlockedWaitingAgent (trails : Trails view db.tasks) {seen : Db}
    {organizationId : Uuid} {task : Task} (read : ∃ id, task ∈ view id)
    (enters : BlockedTaskPolicy.canEnterDispatch task.status task.blockedReason = true) :
    Carries gate db issued (markBlockedWaitingAgent db seen organizationId task now) := by
  obtain ⟨id, read⟩ := read
  refine .single (.move (.of_rewrite fun row member hit => ?_))
  simp only [markBlockedIfUnchangedSql, Bool.and_eq_true, isTask_iff, beq_iff_eq] at hit
  obtain ⟨⟨⟨same, -⟩, -⟩, version⟩ := hit
  obtain rfl := trails.row_eq read member same version
  exact .block organizationId row.id row.status row.rowVersion _ now enters

end Blocking

section Dispatch

variable {db : Db} {now : Timestamp}

theorem idle_of_admission {organizationId agentId : Uuid}
    (admitted : agentWorkAdmissionIsIdle db organizationId agentId now = some true) :
    hasWorkingTask db.tasks organizationId agentId = false
      ∧ ∃ agent ∈ db.agents, agent.id = agentId ∧ agent.organizationId = organizationId := by
  rw [agentWorkAdmissionIsIdle, Option.map_eq_some_iff] at admitted
  obtain ⟨agent, found, idle⟩ := admitted
  simp only [Bool.and_eq_true, Bool.not_eq_true'] at idle
  obtain ⟨known, named⟩ := Table.mem_of_find? found
  simp only [Bool.and_eq_true, beq_iff_eq] at named
  exact ⟨idle.2, agent, known, named⟩

theorem claimForTask_ok {organizationId agentId : Uuid} {expected : Task}
    {claimed : Db} {participant : Participant}
    (done : claimForTask db organizationId expected agentId now = .ok (claimed, participant)) :
    (∃ row ∈ db.tasks, row.id = expected.id ∧ row.organizationId = organizationId
        ∧ row.status = expected.status ∧ row.blockedReason = expected.blockedReason
        ∧ row.rowVersion = expected.rowVersion)
      ∧ hasWorkingTask db.tasks organizationId agentId = false
      ∧ (∃ agent ∈ db.agents, agent.id = agentId ∧ agent.organizationId = organizationId)
      ∧ claimed = setParticipants db (isParticipant organizationId agentId)
          (fun p => (.busy, p.lastHeartbeatAt))
      ∧ participant.agentId = agentId := by
  rw [claimForTask] at done
  split at done
  case isTrue => cases done
  case isFalse admitted =>
      rw [not_not] at admitted
      obtain ⟨idle, known⟩ := idle_of_admission admitted
      simp only at done
      split at done
      case h_2 => cases done
      case h_1 owner agent row foundParticipant foundAgent foundTask =>
          split at done <;> cases done
          obtain ⟨member, hit⟩ := Table.mem_of_find? foundTask
          simp only [Bool.and_eq_true, isTask_iff, beq_iff_eq] at hit
          obtain ⟨-, participates⟩ := Table.mem_of_find? foundParticipant
          simp only [Bool.and_eq_true, beq_iff_eq] at participates
          exact ⟨⟨row, member, hit.1.1.1.1.1, hit.1.1.1.1.2, hit.1.1.1.2, hit.1.1.2, hit.2⟩,
            idle, known, rfl, participates.1⟩

theorem createForAssignment_ok {organizationId runId : Uuid} {task : Task} {key : String}
    {created : Db}
    (done : createForAssignment db organizationId task runId key now = .ok created)
    (fresh : ∀ run ∈ db.runs, run.idempotencyKey ≠ key) :
    ∃ run runs, created = { db with runs } ∧ run.finishedAt = none
      ∧ run.organizationId = organizationId ∧ run.orchestrationTaskId = task.id
      ∧ task.assignedAgentId = some run.agentId ∧ run.idempotencyKey = key
      ∧ ∀ other, other ∈ runs ↔ other = run ∨ other ∈ db.runs := by
  rw [createForAssignment] at done
  split at done
  case h_1 => cases done
  case h_2 agentId assigned =>
      split at done
      case h_1 => cases done
      case h_2 agent found =>
          split at done
          case isTrue => cases done
          case isFalse =>
              split at done
              case isTrue taken =>
                  obtain ⟨run, member, same⟩ := Table.any_eq_true.1 taken
                  simp only [Bool.and_eq_true, beq_iff_eq] at same
                  exact absurd same.2 (fresh run member)
              case isFalse =>
                  split at done <;> cases done
                  case h_1 runs inserted =>
                      exact ⟨_, runs, rfl, rfl, rfl, rfl, assigned, rfl,
                        (Table.insert?_eq_some inserted).2⟩

theorem resolveAssignmentImages_ok {organizationId : Uuid} {participant : Participant}
    {task : Task} {materialized : Except AppError Unit} {resolved : Db}
    (done : resolveAssignmentImages db organizationId participant task materialized
      = .ok resolved) :
    resolved = db ∨
      resolved = { db with tasks := (touchSql organizationId task.id none).execute db.tasks } := by
  rw [resolveAssignmentImages] at done
  split at done
  case isTrue => exact .inl (Except.ok.inj done).symm
  case isFalse =>
      split at done
      case isTrue => cases done
      case isFalse =>
          obtain ⟨-, -, rfl⟩ := map_eq_ok.1 done
          exact .inr rfl

theorem build_ok {fingerprint : String → String} {task : Task} {runtimeKind : RuntimeKind}
    {hmacSecret : Option String} {assignment : TaskAssignment}
    (done : TaskAssignmentPolicy.build fingerprint task runtimeKind hmacSecret
      = .ok assignment) :
    task.assignedAgentId = some assignment.agentId
      ∧ assignment.deliveryId = task.lastAssignmentId ∧ assignment.taskId = task.id
      ∧ assignment.attempt = some task.attempt := by
  rw [TaskAssignmentPolicy.build] at done
  obtain ⟨agentId, assigned, done⟩ := bind_eq_ok.1 done
  obtain ⟨deliveryId, delivered, done⟩ := bind_eq_ok.1 done
  obtain ⟨lease, -, done⟩ := bind_eq_ok.1 done
  obtain ⟨generation, -, done⟩ := bind_eq_ok.1 done
  obtain rfl := pure_eq_ok.1 done
  exact ⟨elim_eq_ok.1 assigned, (elim_eq_ok.1 delivered).symm, rfl, rfl⟩

theorem insertAssignmentOutbox_ok {organizationId taskId : Uuid} {assignment : TaskAssignment}
    {posted : Db}
    (done : insertAssignmentOutbox db organizationId taskId assignment now = .ok posted) :
    ∃ row outbox, posted = { db with outbox } ∧ assignment.deliveryId = some row.id
      ∧ row.aggregateId = taskId ∧ row.payload = assignment
      ∧ ∀ other, other ∈ outbox ↔ other = row ∨ other ∈ db.outbox := by
  rw [insertAssignmentOutbox] at done
  split at done
  case h_1 => cases done
  case h_2 deliveryId given =>
      split at done <;> cases done
      case h_1 outbox inserted =>
          exact ⟨_, outbox, rfl, given, rfl, rfl, (Table.insert?_eq_some inserted).2⟩

end Dispatch

/-- What both dispatchers have checked when they assign a row. -/
structure Admitted (db : Db) (task : Task) (agentId : Uuid) : Prop where
  member : task ∈ db.tasks
  lane : task.status = .queued ∨ task.status = .blocked
  reason : task.blockedReason = none ∨ task.blockedReason = some .waitingAgent
    ∨ task.blockedReason = some .waitingVerification
  ready : prerequisitesReady db.tasks task.organizationId task.params task.parentTaskId = true
  idle : hasWorkingTask db.tasks task.organizationId agentId = false
  known : ∃ agent ∈ db.agents, agent.id = agentId
    ∧ agent.organizationId = task.organizationId

section Assignment

variable {gate : Lifecycle → Task → Prop} {db : Db} {issued : List Issue} {view : View}
  {outcome : Outcome} {now : Timestamp} {fingerprint : String → String} {draws : Draws}

theorem freshKey_of_sound (sound : Sound ⟨db, issued⟩) {deliveryId : Uuid}
    (fresh : ∀ issue ∈ issued, issue.deliveryId ≠ deliveryId) :
    ∀ run ∈ db.runs, run.idempotencyKey ≠ deliveryId.toText := by
  intro run member same
  obtain ⟨issue, known, key⟩ := sound.runKeys run member
  rw [same, Uuid.toText_inj] at key
  exact fresh issue known key.symm

theorem busy_of_claim {organizationId agentId : Uuid}
    {set : Participant → ParticipantStatus × Option Timestamp}
    (busy : ∀ participant, (set participant).1 = .busy) {hits : Participant → Bool}
    (own : ∀ participant ∈ db.participants, participant.key = (organizationId, agentId) →
      hits participant = true) :
    ∀ next ∈ (setParticipants db hits set).participants, ∃ last ∈ db.participants,
      last.key = next.key ∧ (next.status = .available →
        last.status = .available ∧ next.key ≠ (organizationId, agentId)) := by
  intro next member
  obtain ⟨last, was, rfl⟩ := mem_setParticipants.1 member
  refine ⟨last, was, ?_, ?_⟩
  · split <;> rfl
  · intro free
    by_cases hit : hits last = true
    · rw [if_pos hit, busy] at free
      cases free
    · rw [if_neg hit] at free ⊢
      exact ⟨free, fun same => hit (own last was same)⟩

theorem carries_dispatchClaimed {task : Task} {participant : Participant} {agent : Agent}
    {set : Participant → ParticipantStatus × Option Timestamp}
    (sound : Sound ⟨db, issued⟩)
    (fresh : ∀ issue ∈ issued, issue.deliveryId ≠ draws.deliveryId)
    (admitted : Admitted db task participant.agentId)
    (busy : ∀ participant, (set participant).1 = .busy)
    (done : dispatchClaimed fingerprint (setParticipants db
      (isParticipant task.organizationId participant.agentId) set) task.organizationId task.id
      participant agent draws now = .ok outcome) : Carries gate db issued outcome := by
  rw [dispatchClaimed] at done
  obtain ⟨⟨tasks, assigned⟩, written, done⟩ := bind_eq_ok.1 done
  obtain ⟨deliveryId, delivered, done⟩ := bind_eq_ok.1 done
  obtain ⟨created, ran, done⟩ := bind_eq_ok.1 done
  obtain ⟨resolved, images, done⟩ := bind_eq_ok.1 done
  obtain ⟨assignment, build, done⟩ := bind_eq_ok.1 done
  obtain ⟨posted, post, done⟩ := bind_eq_ok.1 done
  obtain rfl := pure_eq_ok.1 done
  obtain ⟨row, member, hit, rfl, rfl⟩ := TaskUpdate.executeOne_ok _ written
  obtain ⟨same, -⟩ := isTask_iff.1 hit
  obtain rfl : row = task := Table.eq_of_key_eq member admitted.member same
  obtain rfl := Option.some.inj (elim_eq_ok.1 delivered)
  obtain ⟨run, runs, rfl, opened, runOrganization, runTask, runAgent, runKey, allRuns⟩ :=
    createForAssignment_ok ran (freshKey_of_sound sound fresh)
  obtain ⟨builtAgent, builtDelivery, builtTask, builtAttempt⟩ := build_ok build
  obtain ⟨postRow, outbox, rfl, postId, postTask, payload, allPosts⟩ :=
    insertAssignmentOutbox_ok post
  have assign : Assign db.tasks participant.agentId draws.deliveryId row
      ((assignTaskSql row.organizationId row.id participant.agentId draws.deliveryId
        defaultAssignmentLeaseSecs now).apply row) :=
    ⟨⟨now, rfl⟩, admitted.lane, admitted.reason, admitted.ready⟩
  have started : Starts row participant.agentId draws.deliveryId ⟨db, issued⟩
      ⟨{ setParticipants db (isParticipant row.organizationId participant.agentId) set with
          tasks := (assignTaskSql row.organizationId row.id participant.agentId draws.deliveryId
            defaultAssignmentLeaseSecs now).execute db.tasks
          runs, outbox },
        ⟨draws.deliveryId, row.id, participant.agentId, row.attempt + 1⟩ :: issued⟩ := by
    refine ⟨admitted.member, ⟨_, ?_, assign, rfl⟩, admitted.idle, admitted.known, rfl,
      busy_of_claim busy ?_, ⟨run, opened, runOrganization, runTask, ?_, runKey, allRuns⟩,
      ⟨postRow, ?_, ?_⟩, fresh, rfl⟩
    · intro other there
      constructor
      · intro matched
        exact Table.eq_of_key_eq there admitted.member (isTask_iff.1 matched).1
      · rintro rfl
        exact hit
    · intro other there key
      simp only [Participant.key, Prod.mk.injEq] at key
      simp [isParticipant, key.1, key.2]
    · exact (Option.some.inj runAgent).symm
    · refine ⟨?_, postTask, ?_, ?_, ?_, ?_⟩
      · exact (Option.some.inj (builtDelivery.symm.trans postId)).symm
      · rw [payload, builtDelivery]
        rfl
      · rw [payload, builtTask]
        rfl
      · rw [payload]
        exact (Option.some.inj builtAgent).symm
      · rw [payload, builtAttempt]
        rfl
    · rcases resolveAssignmentImages_ok images with rfl | rfl <;> exact allPosts
  refine .head (.start row participant.agentId draws.deliveryId started) ?_
  rcases resolveAssignmentImages_ok images with rfl | rfl
  · exact .refl
  · exact .single (.move (.of_rewrite fun other _ _ => .touch _ _ _))

/-- The states that a dispatch may start from. -/
structure Dispatchable (task : Task) : Prop where
  lane : task.status = .queued ∨ task.status = .blocked
  reason : task.blockedReason = none ∨ task.blockedReason = some .waitingAgent
    ∨ task.blockedReason = some .waitingVerification

theorem carries_assignToParticipant {organizationId agentId : Uuid} {task : Task}
    (sound : Sound ⟨db, issued⟩)
    (fresh : ∀ issue ∈ issued, issue.deliveryId ≠ draws.deliveryId)
    (trails : Trails view db.tasks) (read : ∃ id, task ∈ view id)
    (dispatchable : Dispatchable task)
    (done : assignToParticipant fingerprint db organizationId task agentId draws now
      = .ok outcome) : Carries gate db issued outcome := by
  rw [assignToParticipant] at done
  obtain ⟨⟨claimed, participant⟩, claim, done⟩ := bind_eq_ok.1 done
  obtain ⟨⟨⟩, ready, done⟩ := bind_eq_ok.1 done
  obtain ⟨agent, -, done⟩ := bind_eq_ok.1 done
  obtain ⟨⟨row, member, same, rfl, -, -, version⟩, idle, known, rfl, rfl⟩ :=
    claimForTask_ok claim
  obtain ⟨id, read⟩ := read
  obtain rfl := trails.row_eq read member same version
  exact carries_dispatchClaimed sound fresh ⟨member, dispatchable.lane, dispatchable.reason,
    ensureTaskPrerequisitesReadyInTx_ok ready, idle, known⟩ (fun _ => rfl) done

theorem carries_tryAutoDispatch {seen : Db} {organizationId taskId : Uuid} {task : Task}
    (sound : Sound ⟨db, issued⟩)
    (fresh : ∀ issue ∈ issued, issue.deliveryId ≠ draws.deliveryId)
    (trails : Trails view db.tasks)
    (found : findById (view taskId) organizationId taskId = .ok task)
    (done : tryAutoDispatch fingerprint db view seen organizationId task draws now
      = .ok outcome) : Carries gate db issued outcome := by
  have read : ∃ id, task ∈ view id := ⟨taskId, (findById_ok found).1⟩
  rw [tryAutoDispatch] at done
  split at done
  case isTrue => cases done; exact .refl
  case isFalse enters =>
      rw [not_not] at enters
      have dispatchable : Dispatchable task := by
        obtain ⟨lane, reason⟩ := BlockedTaskPolicy.canEnterDispatch_iff.1 enters
        exact ⟨lane, reason.imp_right .inl⟩
      obtain ⟨parent, -, done⟩ := bind_eq_ok.1 done
      split at done
      case isTrue => cases done; exact .refl
      case isFalse =>
          split at done
          case isTrue =>
              cases done
              exact carries_markBlockedWaitingAgent trails read enters
          case isFalse =>
              split at done
              case h_1 participant available =>
                  exact carries_assignToParticipant sound fresh trails read dispatchable done
              case h_2 =>
                  cases done
                  exact carries_markBlockedWaitingAgent trails read enters

theorem dispatchable_of_operator {task : Task}
    (allowed : BlockedTaskPolicy.ensureOperatorCanDispatch task.status task.blockedReason
      = .ok ()) : Dispatchable task := by
  obtain ⟨lane, reason⟩ := BlockedTaskPolicy.ensureOperatorCanDispatch_ok allowed
  exact ⟨lane, reason.imp_right (Or.imp_right And.right)⟩

theorem carries_dispatchTask {seen : Db} {organizationId taskId : Uuid}
    (sound : Sound ⟨db, issued⟩)
    (fresh : ∀ issue ∈ issued, issue.deliveryId ≠ draws.deliveryId)
    (trails : Trails view db.tasks)
    (done : dispatchTask fingerprint db view seen organizationId taskId draws now
      = .ok outcome) : Carries gate db issued outcome := by
  rw [dispatchTask] at done
  obtain ⟨task, found, done⟩ := bind_eq_ok.1 done
  obtain ⟨⟨⟩, allowed, done⟩ := bind_eq_ok.1 done
  obtain ⟨-, -, done⟩ := bind_eq_ok.1 done
  split at done
  case h_1 participant available =>
      exact carries_assignToParticipant sound fresh trails ⟨taskId, (findById_ok found).1⟩
        (dispatchable_of_operator allowed) done
  case h_2 => cases done

theorem carries_assignExistingTask {seen : Db} {organizationId taskId agentId : Uuid}
    (sound : Sound ⟨db, issued⟩)
    (fresh : ∀ issue ∈ issued, issue.deliveryId ≠ draws.deliveryId)
    (trails : Trails view db.tasks)
    (done : assignExistingTaskToParticipant fingerprint db view seen organizationId taskId
      agentId draws now = .ok outcome) : Carries gate db issued outcome := by
  rw [assignExistingTaskToParticipant] at done
  obtain ⟨task, found, done⟩ := bind_eq_ok.1 done
  obtain ⟨⟨⟩, allowed, done⟩ := bind_eq_ok.1 done
  obtain ⟨-, -, done⟩ := bind_eq_ok.1 done
  obtain ⟨participant, -, done⟩ := bind_eq_ok.1 done
  obtain ⟨-, -, done⟩ := bind_eq_ok.1 done
  exact carries_assignToParticipant sound fresh trails ⟨taskId, (findById_ok found).1⟩
    (dispatchable_of_operator allowed) done

theorem carries_createTaskWithAssignee {organizationId agentId : Uuid} {row : CreateTaskRow}
    (sound : Sound ⟨db, issued⟩)
    (fresh : ∀ issue ∈ issued, issue.deliveryId ≠ draws.deliveryId)
    (canonical : CanonicalDependencies row.params)
    (done : createTaskWithAssignee fingerprint db organizationId row agentId draws now
      = .ok outcome) : Carries gate db issued outcome := by
  rw [createTaskWithAssignee] at done
  obtain ⟨candidate, -, done⟩ := bind_eq_ok.1 done
  obtain ⟨agent, -, done⟩ := bind_eq_ok.1 done
  obtain ⟨-, -, done⟩ := bind_eq_ok.1 done
  obtain ⟨⟨⟩, ready, done⟩ := bind_eq_ok.1 done
  obtain ⟨⟨created, task⟩, inserted, done⟩ := bind_eq_ok.1 done
  obtain ⟨⟨claimed, participant⟩, claim, done⟩ := bind_eq_ok.1 done
  obtain ⟨rfl, tasks, grown, rfl⟩ := createInTx_ok inserted
  have insert : Moves gate ⟨db, issued⟩ ⟨{ db with tasks }, issued⟩ :=
    .of_insert ⟨.ready rfl (.inr rfl), rfl, rfl, rfl, canonical⟩ grown
  obtain ⟨-, idle, known, rfl, rfl⟩ := claimForTask_ok claim
  refine .head (.move insert) (carries_dispatchClaimed (sound_of_moves insert sound) fresh ?_
    (fun _ => rfl) done)
  have members := (Table.insert?_eq_some grown).2
  refine ⟨(members _).2 (.inl rfl), .inl rfl, .inl rfl, ?_, idle, known⟩
  refine prerequisitesReady_mono (fun id completed => ?_)
    (ensureTaskPrerequisitesReadyInTx_ok ready)
  obtain ⟨earlier, was, facts⟩ := isCompleted_iff.1 completed
  exact isCompleted_iff.2 ⟨earlier, (members earlier).2 (.inr was), facts⟩

theorem canonical_of_request {input : Option CreateTaskParamsInput}
    (within : TaskDependencyPolicy.ensureWithinLimit (input.map createTaskParams) = .ok ()) :
    CanonicalDependencies (input.map createTaskParams) := by
  cases input with
  | none => exact .inl rfl
  | some given =>
      refine createTaskParams_canonical ?_
      by_contra many
      have nonempty : given.dependencyIds ≠ [] := by
        intro none
        simp [none] at many
      rw [Option.map_some, TaskDependencyPolicy.ensureWithinLimit,
        createTaskParams_dependency_ids, if_neg nonempty] at within
      simp only [arrayItems, Json.asArray, Option.bind_some, Option.getD_some, List.length_map]
        at within
      rw [if_pos (Nat.lt_of_not_le many)] at within
      cases within

theorem carries_createTask {scope : TenantScope} {request : CreateTaskRequest} {taskId : Uuid}
    (sound : Sound ⟨db, issued⟩)
    (fresh : ∀ issue ∈ issued, issue.deliveryId ≠ draws.deliveryId)
    (done : createTask fingerprint db view scope request taskId draws now = .ok outcome) :
    Carries gate db issued outcome := by
  rw [createTask] at done
  obtain ⟨-, -, done⟩ := bind_eq_ok.1 done
  obtain ⟨priority, -, done⟩ := bind_eq_ok.1 done
  obtain ⟨-, -, done⟩ := bind_eq_ok.1 done
  obtain ⟨-, done⟩ := guard_eq_ok.1 done
  obtain ⟨⟨⟩, within, done⟩ := bind_eq_ok.1 done
  have canonical := canonical_of_request within
  dsimp only at done
  split at done
  case h_1 agentId assigned =>
      obtain ⟨parent, -, done⟩ := bind_eq_ok.1 done
      obtain ⟨-, -, done⟩ := bind_eq_ok.1 done
      exact carries_createTaskWithAssignee sound fresh canonical done
  case h_2 =>
      obtain ⟨initial, plan, done⟩ := bind_eq_ok.1 done
      obtain ⟨⟨created, task⟩, inserted, done⟩ := bind_eq_ok.1 done
      obtain rfl := pure_eq_ok.1 done
      exact carries_createInTx inserted canonical (And.left (plannedState_ok plan))

end Assignment

section SelfClaim

variable {gate : Lifecycle → Task → Prop} {db : Db} {issued : List Issue} {outcome : Outcome}
  {now : Timestamp} {fingerprint : String → String} {draws : Draws}

theorem nextDispatchable_ready {participant : Participant} {agent : Agent} {locked : List Uuid}
    {next : Task} (found : nextDispatchable db participant agent locked = some next) :
    next ∈ db.tasks ∧ next.organizationId = participant.organizationId ∧
      prerequisitesReady db.tasks next.organizationId next.params next.parentTaskId = true := by
  have listed := mem_of_selectFirst found
  rw [List.mem_filter] at listed
  obtain ⟨member, holds⟩ := listed
  simp only [isNextDispatchable, Bool.and_eq_true, beq_iff_eq] at holds
  exact ⟨member, holds.2.1.1.1.1.1.1.1.1.1.1,
    prerequisitesReady_of_releaseReady (nextDispatchableReady_iff.1 holds.2.1.1.1.1.2).1⟩

theorem starts_of_claim {agentId : Uuid} {locked : List Uuid} {participant : Participant}
    {agent : Agent} {next task : Task} {tasks : Tasks} {joined : Task → Bool}
    {created posted : Db} {assignment : TaskAssignment}
    (sound : Sound ⟨db, issued⟩)
    (fresh : ∀ issue ∈ issued, issue.deliveryId ≠ draws.deliveryId)
    (lock : lockParticipant db agentId = some participant)
    (admitted : agentWorkAdmissionIsIdle db participant.organizationId agentId now = some true)
    (selected : nextDispatchable db participant agent locked = some next)
    (written : (claimTaskSql participant.organizationId next.id agentId draws.deliveryId
      defaultAssignmentLeaseSecs joined now).executeOptional db.tasks = some (tasks, task))
    (ran : createForAssignment { db with tasks } participant.organizationId task draws.runId
      draws.deliveryId.toText now = .ok created)
    (post : insertAssignmentOutbox (setParticipants created (fun p => p.key == participant.key)
        fun _ => (.busy, some now)) participant.organizationId task.id assignment now
      = .ok posted)
    (posts : assignment.deliveryId = task.lastAssignmentId ∧ assignment.taskId = task.id
      ∧ assignment.agentId = agentId ∧ assignment.attempt = some task.attempt) :
    ∃ row, Starts row agentId draws.deliveryId ⟨db, issued⟩
      ⟨posted, ⟨draws.deliveryId, task.id, agentId, task.attempt⟩ :: issued⟩ := by
  obtain ⟨idle, known⟩ := idle_of_admission admitted
  obtain ⟨listed, organization, ready⟩ := nextDispatchable_ready selected
  obtain ⟨row, member, hit, rfl, rfl⟩ := TaskUpdate.executeOptional_some _ written
  have hit' := hit
  simp only [claimTaskSql, Bool.and_eq_true, Bool.or_eq_true, isTask_iff, beq_iff_eq] at hit'
  obtain ⟨⟨⟨⟨⟨⟨⟨same, -⟩, lane⟩, reason⟩, -⟩, -⟩, -⟩, -⟩ := hit'
  obtain rfl : row = next := Table.eq_of_key_eq member listed same
  obtain ⟨run, runs, rfl, opened, runOrganization, runTask, runAgent, runKey, allRuns⟩ :=
    createForAssignment_ok ran (freshKey_of_sound sound fresh)
  obtain ⟨postRow, outbox, rfl, postId, postTask, payload, allPosts⟩ :=
    insertAssignmentOutbox_ok post
  obtain ⟨-, locked⟩ := Table.mem_of_find? lock
  simp only [Bool.and_eq_true, beq_iff_eq] at locked
  refine ⟨row, member, ⟨claimTaskSql participant.organizationId row.id agentId draws.deliveryId
      defaultAssignmentLeaseSecs joined now, ?_,
      ⟨⟨now, rfl⟩, lane, reason.imp_right .inl, ready⟩, rfl⟩,
    organization ▸ idle, organization ▸ known, rfl, busy_of_claim (fun _ => rfl) ?_,
    ⟨run, opened, runOrganization.trans organization.symm, runTask, ?_, runKey, allRuns⟩,
    ⟨postRow, ?_, allPosts⟩, fresh, rfl⟩
  · intro other there
    constructor
    · intro matched
      simp only [claimTaskSql, Bool.and_eq_true, isTask_iff] at matched
      exact Table.eq_of_key_eq there member matched.1.1.1.1.1.1.1
    · rintro rfl
      exact hit
  · intro other _ key
    rw [key, Participant.key, locked.1, organization, beq_self_eq_true]
  · exact (Option.some.inj runAgent).symm
  · obtain ⟨delivery, owner, worker, attempt⟩ := posts
    refine ⟨Option.some.inj (postId.symm.trans delivery), postTask, ?_, ?_, ?_, ?_⟩ <;>
      rw [payload]
    exacts [delivery, owner, worker, attempt]

theorem carries_claimNextTask {agentId : Uuid} {locked : List Uuid}
    (sound : Sound ⟨db, issued⟩)
    (fresh : ∀ issue ∈ issued, issue.deliveryId ≠ draws.deliveryId)
    (done : claimNextTask fingerprint db agentId locked draws now = .ok outcome) :
    Carries gate db issued outcome := by
  rw [claimNextTask] at done
  split at done
  case h_2 => cases done; exact .refl
  case h_1 participant lock =>
      split at done
      case isTrue => cases done; exact .refl
      case isFalse =>
          split at done
          case isTrue => cases done; exact .refl
          case isFalse admitted =>
              rw [not_not] at admitted
              split at done
              case h_2 => cases done; exact .refl
              case h_1 agent found =>
                  obtain ⟨generation, -, done⟩ := bind_eq_ok.1 done
                  split at done
                  case h_2 => cases done; exact .refl
                  case h_1 next selected =>
                      dsimp only at done
                      split at done
                      case h_1 => cases done; exact .refl
                      case h_2 tasks task written =>
                          obtain ⟨created, ran, done⟩ := bind_eq_ok.1 done
                          obtain ⟨posted, post, done⟩ := bind_eq_ok.1 done
                          obtain rfl := pure_eq_ok.1 done
                          obtain ⟨row, started⟩ := starts_of_claim sound fresh lock admitted
                            selected written (mapError_eq_ok.1 ran) post ⟨rfl, rfl, rfl, rfl⟩
                          exact .single (.start row agentId draws.deliveryId started)

end SelfClaim

end Forge.AssignmentChanges
