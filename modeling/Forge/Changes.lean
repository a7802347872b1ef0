import Forge.TaskSteps
import Forge.OrchestrationService

/-! What one part of a transaction does to the database: it moves rows without assigning a
task, or it starts one assignment. Every transaction is a chain of such parts. -/

namespace Forge.Changes

open Forge.DependencyReadiness
open Forge.Library.Identifier
open Forge.Library.KeyedTable
open Forge.OrchestrationService
open Forge.ParticipantStatements
open Forge.Schema
open Forge.TaskStatements
open Forge.TaskSteps

structure Stage where
  db : Db
  issued : List Issue

abbrev Runs := Table TaskRun TaskRun.id
abbrev Outbox := Table OutboxRow OutboxRow.id
abbrev Participants := Table Participant Participant.key
abbrev Agents := Table Agent Agent.id

/-- The run of a row's current assignment. -/
structure OwnRun (task : Task) (run : TaskRun) : Prop where
  organization : run.organizationId = task.organizationId
  taskId : run.orchestrationTaskId = task.id
  agent : task.assignedAgentId = some run.agentId
  key : ∃ deliveryId, task.lastAssignmentId = some deliveryId
    ∧ run.idempotencyKey = deliveryId.toText

/-- A later version of a run; a finished run stays finished. -/
structure SameRun (before after : TaskRun) : Prop where
  id : after.id = before.id
  organization : after.organizationId = before.organizationId
  task : after.orchestrationTaskId = before.orchestrationTaskId
  agent : after.agentId = before.agentId
  key : after.idempotencyKey = before.idempotencyKey
  finished : after.finishedAt = none → before.finishedAt = none

/-- A later version of an outbox row; a published row stays published. -/
structure SamePost (before after : OutboxRow) : Prop where
  id : after.id = before.id
  organization : after.organizationId = before.organizationId
  aggregate : after.aggregateId = before.aggregateId
  payload : after.payload = before.payload
  created : after.createdAt = before.createdAt
  published : after.publishedAt = none → before.publishedAt = none

section Moves

variable (gate : Lifecycle → Task → Prop)

/-- Runs keep what an assignment wrote, those of working rows stay open, and those of rows that
leave `working` are closed, unless a retirement took the row. -/
structure RunsMove (tasks tasks' : Tasks) (runs runs' : Runs) : Prop where
  origin : ∀ after ∈ runs', ∃ before ∈ runs, SameRun before after
  running : ∀ task ∈ tasks', task.status = .working → ∀ run ∈ runs, run.finishedAt = none →
    run.orchestrationTaskId = task.id → task.assignedAgentId = some run.agentId → run ∈ runs'
  closes : ∀ before ∈ tasks, before.status = .working → ∀ after ∈ tasks', after.id = before.id →
    after.status ≠ .working → gate .retire before ∨
      ∀ run ∈ runs, run.finishedAt = none → OwnRun before run →
        ∀ closed ∈ runs', closed.id = run.id → closed.finishedAt ≠ none

structure OutboxMove (tasks' : Tasks) (outbox outbox' : Outbox) : Prop where
  origin : ∀ after ∈ outbox', ∃ before ∈ outbox, SamePost before after
  posted : ∀ task ∈ tasks', task.status = .working → ∀ before ∈ outbox,
    before.aggregateId = task.id → ∃ after ∈ outbox', SamePost before after

/-- Participants belong to agents, and become available only without a working task. -/
structure ParticipantsMove (tasks' : Tasks) (agents' : Agents)
    (participants participants' : Participants) : Prop where
  origin : ∀ after ∈ participants', (∃ before ∈ participants, before.key = after.key)
    ∨ ∃ agent ∈ agents', agent.id = after.agentId
      ∧ agent.organizationId = after.organizationId
  available : ∀ after ∈ participants', after.status = .available →
    (∃ before ∈ participants, before.key = after.key ∧ before.status = .available)
      ∨ hasWorkingTask tasks' after.organizationId after.agentId = false

/-- Agents stay, unless no working task and no participant refers to them. -/
def AgentsMove (tasks' : Tasks) (participants' : Participants) (agents agents' : Agents) : Prop :=
  ∀ before ∈ agents, (∃ after ∈ agents', after.id = before.id
      ∧ after.organizationId = before.organizationId)
    ∨ (∀ task ∈ tasks', task.status = .working → task.assignedAgentId ≠ some before.id)
      ∧ ∀ participant ∈ participants', participant.agentId ≠ before.id

/-- A part of a transaction that assigns nothing. -/
structure Moves (before after : Stage) : Prop where
  tasks : Table.Evolves (TaskMove gate) Born before.db.tasks after.db.tasks
  runs : RunsMove gate before.db.tasks after.db.tasks before.db.runs after.db.runs
  outbox : OutboxMove after.db.tasks before.db.outbox after.db.outbox
  participants : ParticipantsMove after.db.tasks after.db.agents before.db.participants
    after.db.participants
  agents : AgentsMove after.db.tasks after.db.participants before.db.agents after.db.agents
  issued : after.issued = before.issued

end Moves

/-- The outbox row of an assignment. -/
structure IsPost (issue : Issue) (row : OutboxRow) : Prop where
  id : row.id = issue.deliveryId
  aggregate : row.aggregateId = issue.taskId
  delivery : row.payload.deliveryId = some issue.deliveryId
  task : row.payload.taskId = issue.taskId
  agent : row.payload.agentId = issue.agentId
  attempt : row.payload.attempt = some issue.attempt

/-- The part of a transaction that assigns a task to an agent. -/
structure Starts (task : Task) (agentId deliveryId : Uuid) (before after : Stage) : Prop where
  member : task ∈ before.db.tasks
  tasks : ∃ statement : TaskUpdate,
    (∀ row ∈ before.db.tasks, statement.hits row = true ↔ row = task)
      ∧ Assign before.db.tasks agentId deliveryId task (statement.apply task)
      ∧ after.db.tasks = statement.execute before.db.tasks
  idle : hasWorkingTask before.db.tasks task.organizationId agentId = false
  known : ∃ agent ∈ before.db.agents, agent.id = agentId
    ∧ agent.organizationId = task.organizationId
  agents : after.db.agents = before.db.agents
  participants : ∀ next ∈ after.db.participants, ∃ last ∈ before.db.participants,
    last.key = next.key ∧ (next.status = .available →
      last.status = .available ∧ next.key ≠ (task.organizationId, agentId))
  run : ∃ run : TaskRun, run.finishedAt = none ∧ run.organizationId = task.organizationId
    ∧ run.orchestrationTaskId = task.id ∧ run.agentId = agentId
    ∧ run.idempotencyKey = deliveryId.toText
    ∧ ∀ other, other ∈ after.db.runs ↔ other = run ∨ other ∈ before.db.runs
  outbox : ∃ row : OutboxRow, IsPost ⟨deliveryId, task.id, agentId, task.attempt + 1⟩ row
    ∧ ∀ other, other ∈ after.db.outbox ↔ other = row ∨ other ∈ before.db.outbox
  fresh : ∀ issue ∈ before.issued, issue.deliveryId ≠ deliveryId
  issued : after.issued = ⟨deliveryId, task.id, agentId, task.attempt + 1⟩ :: before.issued

/-- One part of a transaction. -/
inductive Change (gate : Lifecycle → Task → Prop) (before after : Stage) : Prop
  | move (moved : Moves gate before after)
  | start (task : Task) (agentId deliveryId : Uuid)
      (started : Starts task agentId deliveryId before after)

theorem SameRun.refl (run : TaskRun) : SameRun run run :=
  ⟨rfl, rfl, rfl, rfl, rfl, fun unfinished => unfinished⟩

theorem SamePost.refl (row : OutboxRow) : SamePost row row :=
  ⟨rfl, rfl, rfl, rfl, rfl, fun waiting => waiting⟩

theorem SamePost.trans {first second third : OutboxRow} (earlier : SamePost first second)
    (later : SamePost second third) : SamePost first third where
  id := later.id.trans earlier.id
  organization := later.organization.trans earlier.organization
  aggregate := later.aggregate.trans earlier.aggregate
  payload := later.payload.trans earlier.payload
  created := later.created.trans earlier.created
  published := fun waiting => earlier.published (later.published waiting)

theorem IsPost.same {issue : Issue} {row later : OutboxRow} (post : IsPost issue row)
    (same : SamePost row later) : IsPost issue later := by
  refine ⟨same.id.trans post.id, same.aggregate.trans post.aggregate, ?_, ?_, ?_, ?_⟩ <;>
    rw [same.payload]
  exacts [post.delivery, post.task, post.agent, post.attempt]

section Rows

variable {gate : Lifecycle → Task → Prop} {before after : Stage}

theorem Moves.work (moved : Moves gate before after) {task : Task}
    (member : task ∈ after.db.tasks) (working : task.status = .working) :
    ∃ earlier ∈ before.db.tasks, SameWork earlier task := by
  rcases moved.tasks.origin task member with ⟨earlier, was, -, step⟩ | ⟨born, -⟩
  · exact ⟨earlier, was, step.sameWork working⟩
  · exact absurd working born.status_ne_working

theorem OwnRun.same {task earlier : Task} {run later : TaskRun} (own : OwnRun earlier run)
    (same : SameWork earlier task) (kept : SameRun run later) : OwnRun task later := by
  obtain ⟨deliveryId, delivery, key⟩ := own.key
  refine ⟨?_, ?_, ?_, deliveryId, same.delivery.trans delivery, kept.key.trans key⟩
  · rw [kept.organization, same.organization, own.organization]
  · rw [kept.task, same.id, own.taskId]
  · rw [same.agent, kept.agent, own.agent]

theorem Starts.mem_tasks {task : Task} {agentId deliveryId : Uuid}
    (started : Starts task agentId deliveryId before after) :
    ∃ assigned, Assign before.db.tasks agentId deliveryId task assigned ∧
      ∀ row, row ∈ after.db.tasks ↔ row = assigned ∨ row ∈ before.db.tasks ∧ row ≠ task := by
  obtain ⟨statement, only, assign, written⟩ := started.tasks
  refine ⟨statement.apply task, assign, fun row => ?_⟩
  rw [written, TaskUpdate.mem_execute]
  constructor
  · rintro ⟨old, member, rfl⟩
    by_cases hit : statement.hits old = true
    · rw [if_pos hit]
      exact .inl (by rw [(only old member).1 hit])
    · rw [if_neg hit]
      exact .inr ⟨member, fun same => hit ((only old member).2 same)⟩
  · rintro (rfl | ⟨member, other⟩)
    · exact ⟨task, started.member, by rw [if_pos ((only task started.member).2 rfl)]⟩
    · exact ⟨row, member, by rw [if_neg fun hit => other ((only row member).1 hit)]⟩

theorem Change.evolves (change : Change gate before after) :
    Table.Evolves (TaskStep gate before.db.tasks) Born before.db.tasks after.db.tasks := by
  cases change with
  | move moved => exact moved.tasks.mono (fun _ _ _ _ => .move) fun _ => id
  | start task agentId deliveryId started =>
      obtain ⟨statement, only, assign, written⟩ := started.tasks
      rw [written]
      refine .of_update (fun row => .move (.stay rfl)) fun row member hit => ?_
      obtain rfl := (only row member).1 hit
      exact .assign agentId deliveryId assign

end Rows

section Tables

variable {gate : Lifecycle → Task → Prop} {tasks tasks' : Tasks} {runs : Runs} {outbox : Outbox}
  {participants participants' : Participants} {agents agents' : Agents}

theorem RunsMove.same (rests : ∀ before ∈ tasks, before.status = .working → ∀ after ∈ tasks',
    after.id = before.id → after.status ≠ .working → gate .retire before) :
    RunsMove gate tasks tasks' runs runs :=
  ⟨fun run member => ⟨run, member, .refl run⟩, fun _ _ _ _ member _ _ _ => member,
    fun before was working after there id left => .inl (rests before was working after there id left)⟩

theorem RunsMove.of_close {closes : TaskRun → Bool} {status : RunStatus} {now : Timestamp}
    {db : Db}
    (spares : ∀ task ∈ tasks', task.status = .working → ∀ run ∈ db.runs,
      run.orchestrationTaskId = task.id → task.assignedAgentId = some run.agentId →
        closes run = false)
    (covers : ∀ before ∈ tasks, before.status = .working → ∀ after ∈ tasks',
      after.id = before.id → after.status ≠ .working → gate .retire before ∨
        ∀ run ∈ db.runs, OwnRun before run → closes run = true) :
    RunsMove gate tasks tasks' db.runs (closeRuns db closes status now).runs := by
  constructor
  · intro after member
    obtain ⟨before, was, rfl⟩ := mem_closeRuns.1 member
    refine ⟨before, was, ?_⟩
    split
    · exact ⟨rfl, rfl, rfl, rfl, rfl, by simp⟩
    · exact .refl before
  · intro task there working run member unfinished owner agent
    refine mem_closeRuns.2 ⟨run, member, ?_⟩
    simp [spares task there working run member owner agent]
  · intro before was working after there id left
    refine (covers before was working after there id left).imp_right fun all => ?_
    intro run member unfinished own closed there' same
    obtain ⟨earlier, was', rfl⟩ := mem_closeRuns.1 there'
    have one : earlier = run := by
      refine Table.eq_of_key_eq was' member ?_
      rw [← same]
      split <;> rfl
    subst one
    simp [all earlier member own, unfinished]

theorem RunsMove.of_delete {hits : TaskRun → Bool}
    (spares : ∀ task ∈ tasks, task.status = .working → ∀ run ∈ runs,
      run.orchestrationTaskId = task.id → task.assignedAgentId = some run.agentId →
        hits run = false) :
    RunsMove gate tasks tasks runs (runs.deleteWhere hits) := by
  constructor
  · intro after member
    exact ⟨after, (Table.mem_deleteWhere.1 member).1, .refl after⟩
  · intro task there working run member _ owner agent
    exact Table.mem_deleteWhere.2 ⟨member, spares task there working run member owner agent⟩
  · intro before was working after there id left
    obtain rfl : after = before := Table.eq_of_key_eq there was id
    exact absurd working left

theorem OutboxMove.same : OutboxMove tasks' outbox outbox :=
  ⟨fun row member => ⟨row, member, .refl row⟩, fun _ _ _ row member _ => ⟨row, member, .refl row⟩⟩

theorem OutboxMove.of_update {hits : OutboxRow → Bool} {set : OutboxRow → OutboxRow}
    (keeps : ∀ row, (set row).id = row.id)
    (same : ∀ row, hits row = true → SamePost row (set row)) :
    OutboxMove tasks' outbox (outbox.update hits set keeps) := by
  have either : ∀ row, SamePost row (if hits row then set row else row) := by
    intro row
    split
    case isTrue hit => exact same row hit
    case isFalse => exact .refl row
  constructor
  · intro after member
    obtain ⟨before, was, rfl⟩ := Table.mem_update.1 member
    exact ⟨before, was, either before⟩
  · intro _ _ _ before was _
    exact ⟨_, Table.mem_update.2 ⟨before, was, rfl⟩, either before⟩

theorem ParticipantsMove.same : ParticipantsMove tasks' agents' participants participants :=
  ⟨fun p member => .inl ⟨p, member, rfl⟩, fun p member free => .inl ⟨p, member, rfl, free⟩⟩

theorem ParticipantsMove.of_update {hits : Participant → Bool} {set : Participant → Participant}
    (keeps : ∀ participant, (set participant).key = participant.key)
    (idle : ∀ participant ∈ participants, hits participant = true →
      (set participant).status = .available → participant.status = .available
        ∨ hasWorkingTask tasks' participant.organizationId participant.agentId = false) :
    ParticipantsMove tasks' agents' participants (participants.update hits set keeps) := by
  constructor
  · intro after member
    obtain ⟨before, was, rfl⟩ := Table.mem_update.1 member
    refine .inl ⟨before, was, ?_⟩
    split
    · exact (keeps before).symm
    · rfl
  · intro after member free
    obtain ⟨before, was, rfl⟩ := Table.mem_update.1 member
    by_cases hit : hits before = true
    · rw [if_pos hit] at free ⊢
      have key := keeps before
      rcases idle before was hit free with earlier | idle
      · exact .inl ⟨before, was, key.symm, earlier⟩
      · simp only [Participant.key, Prod.mk.injEq] at key
        exact .inr (by rwa [key.1, key.2])
    · rw [if_neg hit] at free ⊢
      exact .inl ⟨before, was, rfl, free⟩

theorem ParticipantsMove.of_set {db : Db} {hits : Participant → Bool}
    {set : Participant → ParticipantStatus × Option Timestamp}
    (idle : ∀ participant ∈ db.participants, hits participant = true →
      (set participant).1 = .available → participant.status = .available
        ∨ hasWorkingTask tasks' participant.organizationId participant.agentId = false) :
    ParticipantsMove tasks' agents' db.participants (setParticipants db hits set).participants :=
  .of_update (by intro; rfl) idle

theorem ParticipantsMove.of_insert {participant : Participant}
    (inserted : participants.insert? participant = some participants')
    (known : ∃ agent ∈ agents', agent.id = participant.agentId
      ∧ agent.organizationId = participant.organizationId)
    (idle : participant.status = .available →
      hasWorkingTask tasks' participant.organizationId participant.agentId = false) :
    ParticipantsMove tasks' agents' participants participants' := by
  have members := (Table.insert?_eq_some inserted).2
  constructor
  · intro after member
    rcases (members after).1 member with rfl | was
    · exact .inr known
    · exact .inl ⟨after, was, rfl⟩
  · intro after member free
    rcases (members after).1 member with rfl | was
    · exact .inr (idle free)
    · exact .inl ⟨after, was, rfl, free⟩

theorem ParticipantsMove.of_delete {hits : Participant → Bool} :
    ParticipantsMove tasks' agents' participants (participants.deleteWhere hits) :=
  ⟨fun p member => .inl ⟨p, (Table.mem_deleteWhere.1 member).1, rfl⟩,
    fun p member free => .inl ⟨p, (Table.mem_deleteWhere.1 member).1, rfl, free⟩⟩

theorem OutboxMove.of_delete {hits : OutboxRow → Bool}
    (spares : ∀ task ∈ tasks', task.status = .working → ∀ row ∈ outbox,
      row.aggregateId = task.id → hits row = false) :
    OutboxMove tasks' outbox (outbox.deleteWhere hits) :=
  ⟨fun row member => ⟨row, (Table.mem_deleteWhere.1 member).1, .refl row⟩,
    fun task there working row member aggregate => ⟨row,
      Table.mem_deleteWhere.2 ⟨member, spares task there working row member aggregate⟩,
      .refl row⟩⟩

theorem AgentsMove.same : AgentsMove tasks' participants' agents agents :=
  fun agent member => .inl ⟨agent, member, rfl, rfl⟩

theorem AgentsMove.of_update {hits : Agent → Bool} {set : Agent → Agent}
    (keeps : ∀ agent, (set agent).id = agent.id)
    (same : ∀ agent, hits agent = true →
      (set agent).organizationId = agent.organizationId) :
    AgentsMove tasks' participants' agents (agents.update hits set keeps) := by
  intro before was
  refine .inl ⟨_, Table.mem_update.2 ⟨before, was, rfl⟩, ?_⟩
  by_cases hit : hits before = true
  · rw [if_pos hit]
    exact ⟨keeps before, same before hit⟩
  · rw [if_neg hit]
    exact ⟨rfl, rfl⟩

theorem AgentsMove.of_insert {agent : Agent} (inserted : agents.insert? agent = some agents') :
    AgentsMove tasks' participants' agents agents' := by
  intro before was
  exact .inl ⟨before, ((Table.insert?_eq_some inserted).2 before).2 (.inr was), rfl, rfl⟩

theorem AgentsMove.of_delete {hits : Agent → Bool}
    (unused : ∀ agent ∈ agents, hits agent = true →
      (∀ task ∈ tasks', task.status = .working → task.assignedAgentId ≠ some agent.id)
        ∧ ∀ participant ∈ participants', participant.agentId ≠ agent.id) :
    AgentsMove tasks' participants' agents (agents.deleteWhere hits) := by
  intro before was
  by_cases hit : hits before = true
  · exact .inr (unused before was hit)
  · exact .inl ⟨before,
      Table.mem_deleteWhere.2 ⟨was, Bool.eq_false_of_not_eq_true hit⟩, rfl, rfl⟩

end Tables

section Parts

variable {gate : Lifecycle → Task → Prop} {db : Db} {issued : List Issue}

theorem Moves.of_tasks {tasks : Tasks} (evolves : Table.Evolves (TaskMove gate) Born db.tasks tasks)
    (rests : ∀ before ∈ db.tasks, before.status = .working → ∀ after ∈ tasks,
      after.id = before.id → after.status ≠ .working → gate .retire before) :
    Moves gate ⟨db, issued⟩ ⟨{ db with tasks }, issued⟩ :=
  ⟨evolves, .same rests, .same, .same, .same, rfl⟩

theorem Moves.of_rewrite {statement : TaskUpdate}
    (each : ∀ task ∈ db.tasks, statement.hits task = true →
      Rewrite gate task (statement.apply task)) :
    Moves gate ⟨db, issued⟩ ⟨{ db with tasks := statement.execute db.tasks }, issued⟩ := by
  refine .of_tasks (.of_update (fun task => .stay rfl)
    fun task member hit => .rewrite (each task member hit)) ?_
  intro before was working after there id left
  rw [statement.eq_of_mem_execute was there id] at left
  by_cases hit : statement.hits before = true
  · rw [if_pos hit] at left
    exact ((each before was hit).keeps_working working).resolve_left left
  · rw [if_neg hit] at left
    exact absurd working left

theorem Moves.of_insert {task : Task} {tasks : Tasks} (born : Born task)
    (inserted : db.tasks.insert? task = some tasks) :
    Moves gate ⟨db, issued⟩ ⟨{ db with tasks }, issued⟩ := by
  refine .of_tasks (.of_insert (fun task => .stay rfl) born inserted) ?_
  intro before was working after there id left
  have was' := ((Table.insert?_eq_some inserted).2 before).2 (.inr was)
  obtain rfl : after = before := Table.eq_of_key_eq there was' id
  exact absurd working left

theorem Moves.of_others {db' : Db} (tasks : db'.tasks = db.tasks)
    (runs : RunsMove gate db.tasks db.tasks db.runs db'.runs)
    (outbox : OutboxMove db.tasks db.outbox db'.outbox)
    (participants : ParticipantsMove db.tasks db'.agents db.participants db'.participants)
    (agents : AgentsMove db.tasks db'.participants db.agents db'.agents) :
    Moves gate ⟨db, issued⟩ ⟨db', issued⟩ := by
  refine ⟨?_, ?_, ?_, ?_, ?_, rfl⟩ <;> simp only [tasks]
  exacts [.refl (fun task => .stay rfl) _, runs, outbox, participants, agents]

theorem RunsMove.unchanged {tasks : Tasks} {runs : Runs} : RunsMove gate tasks tasks runs runs :=
  .same fun before was working after there id left =>
    absurd ((Table.eq_of_key_eq there was id : after = before) ▸ working) left

theorem Moves.of_settle {statement : TaskUpdate} {closes : TaskRun → Bool} {status : RunStatus}
    {now : Timestamp} (inbox : Table InboxRow InboxRow.deliveryId)
    (each : ∀ task ∈ db.tasks, statement.hits task = true →
      task.status = .working ∧ Settle task (statement.apply task))
    (only : ∀ run ∈ db.runs, closes run = true → ∃ task ∈ db.tasks,
      statement.hits task = true ∧ run.orchestrationTaskId = task.id)
    (covers : ∀ task ∈ db.tasks, statement.hits task = true → ∀ run ∈ db.runs,
      OwnRun task run → closes run = true) :
    Moves gate ⟨db, issued⟩ ⟨{ closeRuns db closes status now with
      tasks := statement.execute db.tasks, inbox }, issued⟩ := by
  have evolves : Table.Evolves (TaskMove gate) Born db.tasks (statement.execute db.tasks) :=
    .of_update (fun task => .stay rfl) fun task member hit =>
      .settle (each task member hit).1 (each task member hit).2
  refine ⟨evolves, .of_close ?_ ?_, .same, .same, .same, rfl⟩
  · intro task there working run member owner agent
    by_contra hit
    obtain ⟨ended, was, matched, id⟩ := only run member (by simpa using hit)
    rw [statement.eq_of_mem_execute was there (owner.symm.trans id), if_pos matched] at working
    exact (each ended was matched).2.status_ne_working working
  · intro before was working after there id left
    right
    by_cases hit : statement.hits before = true
    · exact covers before was hit
    · rw [statement.eq_of_mem_execute was there id, if_neg hit] at left
      exact absurd working left

end Parts

end Forge.Changes
