import Forge.Changes

/-! The invariant of the database that ties tasks, agents, participants, runs, outbox and the
assignments made so far together, and why every part of a transaction keeps it. -/

namespace Forge.Soundness

open Forge.Changes
open Forge.Library.Identifier
open Forge.Library.KeyedTable
open Forge.OrchestrationService
open Forge.ParticipantStatements
open Forge.Schema
open Forge.TaskSteps

/-- The invariant of every database that the system commits. -/
structure Sound (stage : Stage) : Prop where
  rows : ∀ task ∈ stage.db.tasks, RowInvariant task
  /-- An agent works on one task at a time. -/
  single : ∀ task ∈ stage.db.tasks, ∀ other ∈ stage.db.tasks, task.status = .working →
    other.status = .working → task.assignedAgentId = other.assignedAgentId → task = other
  available : ∀ participant ∈ stage.db.participants, participant.status = .available →
    hasWorkingTask stage.db.tasks participant.organizationId participant.agentId = false
  workers : ∀ task ∈ stage.db.tasks, task.status = .working → ∀ agentId,
    task.assignedAgentId = some agentId → ∃ agent ∈ stage.db.agents, agent.id = agentId
      ∧ agent.organizationId = task.organizationId
  members : ∀ participant ∈ stage.db.participants, ∃ agent ∈ stage.db.agents,
    agent.id = participant.agentId ∧ agent.organizationId = participant.organizationId
  /-- Every assignment that runs was recorded with its attempt. -/
  current : ∀ task ∈ stage.db.tasks, task.status = .working → ∀ agentId deliveryId,
    task.assignedAgentId = some agentId → task.lastAssignmentId = some deliveryId →
      ⟨deliveryId, task.id, agentId, task.attempt⟩ ∈ stage.issued
  attempts : ∀ issue ∈ stage.issued, ∃ task ∈ stage.db.tasks, task.id = issue.taskId
    ∧ issue.attempt ≤ task.attempt
  order : stage.issued.Pairwise fun newer older =>
    newer.taskId = older.taskId → older.attempt < newer.attempt
  fresh : (stage.issued.map Issue.deliveryId).Nodup
  runKeys : ∀ run ∈ stage.db.runs, ∃ issue ∈ stage.issued,
    run.idempotencyKey = issue.deliveryId.toText
  runsOnce : ∀ run ∈ stage.db.runs, ∀ other ∈ stage.db.runs,
    run.idempotencyKey = other.idempotencyKey → run = other
  running : ∀ task ∈ stage.db.tasks, task.status = .working →
    ∃ run ∈ stage.db.runs, run.finishedAt = none ∧ OwnRun task run
  posts : ∀ row ∈ stage.db.outbox, ∃ issue ∈ stage.issued, IsPost issue row
  posted : ∀ task ∈ stage.db.tasks, task.status = .working → ∀ agentId deliveryId,
    task.assignedAgentId = some agentId → task.lastAssignmentId = some deliveryId →
      ∃ row ∈ stage.db.outbox, IsPost ⟨deliveryId, task.id, agentId, task.attempt⟩ row

def RunsClosed (stage : Stage) : Prop :=
  ∀ run ∈ stage.db.runs, run.finishedAt = none →
    ∃ task ∈ stage.db.tasks, task.status = .working ∧ OwnRun task run

section Moves

variable {gate : Lifecycle → Task → Prop} {before after : Stage}

theorem idle_of_moves (moved : Moves gate before after) {organizationId agentId : Uuid}
    (idle : hasWorkingTask before.db.tasks organizationId agentId = false) :
    hasWorkingTask after.db.tasks organizationId agentId = false := by
  rw [hasWorkingTask_eq_false_iff] at idle ⊢
  intro task member organization assigned working
  obtain ⟨earlier, was, same⟩ := moved.work member working
  exact idle earlier was (same.organization ▸ organization) (same.agent ▸ assigned) same.working

theorem sound_of_moves (moved : Moves gate before after) (sound : Sound before) : Sound after := by
  have work : ∀ {task : Task}, task ∈ after.db.tasks → task.status = .working →
      ∃ earlier ∈ before.db.tasks, SameWork earlier task := moved.work
  constructor
  case rows =>
      exact moved.tasks.preserves (fun _ => Born.rowInvariant)
        (fun earlier _ task _ step inv => step.rowInvariant inv) sound.rows
  case single =>
      intro task member other member' working working' assigned
      obtain ⟨earlier, was, same⟩ := work member working
      obtain ⟨earlier', was', same'⟩ := work member' working'
      have one : earlier = earlier' := sound.single _ was _ was' same.working same'.working
        (same.agent.symm.trans (assigned.trans same'.agent))
      exact Table.eq_of_key_eq member member' (by rw [same.id, same'.id, one])
  case available =>
      intro participant member status
      rcases moved.participants.available _ member status with ⟨earlier, was, key, free⟩ | idle
      · have organization := congrArg Prod.fst key
        have agent := congrArg Prod.snd key
        have idle := idle_of_moves moved (sound.available _ was free)
        simp only [Participant.key] at organization agent
        rwa [organization, agent] at idle
      · exact idle
  case workers =>
      intro task member working agentId assigned
      obtain ⟨earlier, was, same⟩ := work member working
      obtain ⟨agent, known, rfl, organization⟩ :=
        sound.workers _ was same.working agentId (same.agent ▸ assigned)
      rcases moved.agents agent known with ⟨kept, there, id, organization'⟩ | ⟨unused, -⟩
      · exact ⟨kept, there, id, by rw [organization', organization, same.organization]⟩
      · exact absurd assigned (unused task member working)
  case members =>
      intro participant member
      rcases moved.participants.origin _ member with ⟨earlier, was, key⟩ | found
      · obtain ⟨agent, known, id, organization⟩ := sound.members _ was
        simp only [Participant.key, Prod.mk.injEq] at key
        rcases moved.agents agent known with ⟨kept, there, id', organization'⟩ | ⟨-, unused⟩
        · exact ⟨kept, there, by rw [id', id, key.2], by rw [organization', organization, key.1]⟩
        · exact absurd (key.2.symm.trans id.symm) (unused participant member)
      · exact found
  case current =>
      intro task member working agentId deliveryId assigned delivery
      obtain ⟨earlier, was, same⟩ := work member working
      rw [moved.issued, same.id, same.attempt]
      exact sound.current _ was same.working _ _ (same.agent ▸ assigned)
        (same.delivery ▸ delivery)
  case attempts =>
      intro issue issued
      rw [moved.issued] at issued
      obtain ⟨task, member, id, bound⟩ := sound.attempts issue issued
      obtain ⟨next, there, id', step⟩ := moved.tasks.forward member
      exact ⟨next, there, id'.trans id, step.attempt ▸ bound⟩
  case order => exact moved.issued ▸ sound.order
  case fresh => exact moved.issued ▸ sound.fresh
  case runKeys =>
      intro run member
      obtain ⟨earlier, was, same⟩ := moved.runs.origin run member
      rw [moved.issued, same.key]
      exact sound.runKeys earlier was
  case runsOnce =>
      intro run member other member' key
      obtain ⟨earlier, was, same⟩ := moved.runs.origin run member
      obtain ⟨earlier', was', same'⟩ := moved.runs.origin other member'
      have one := sound.runsOnce _ was _ was' (by rw [← same.key, ← same'.key, key])
      exact Table.eq_of_key_eq member member' (by rw [same.id, same'.id, one])
  case running =>
      intro task member working
      obtain ⟨earlier, was, same⟩ := work member working
      obtain ⟨run, there, unfinished, own⟩ := sound.running _ was same.working
      have own' := own.same same (.refl run)
      exact ⟨run, moved.runs.running task member working run there unfinished own'.taskId
        own'.agent, unfinished, own'⟩
  case posts =>
      intro row member
      obtain ⟨earlier, was, same⟩ := moved.outbox.origin row member
      obtain ⟨issue, issued, post⟩ := sound.posts earlier was
      exact ⟨issue, moved.issued ▸ issued, post.same same⟩
  case posted =>
      intro task member working agentId deliveryId assigned delivery
      obtain ⟨earlier, was, same⟩ := work member working
      obtain ⟨row, there, post⟩ := sound.posted _ was same.working _ _ (same.agent ▸ assigned)
        (same.delivery ▸ delivery)
      rw [← same.id, ← same.attempt] at post
      obtain ⟨next, there', same'⟩ :=
        moved.outbox.posted task member working row there post.aggregate
      exact ⟨next, there', post.same same'⟩

theorem runsClosed_of_moves (spares : ∀ task, gate .retire task → task.status ≠ .working)
    (moved : Moves gate before after) (closed : RunsClosed before) : RunsClosed after := by
  intro run member unfinished
  obtain ⟨earlier, was, kept⟩ := moved.runs.origin run member
  obtain ⟨task, there, working, own⟩ := closed earlier was (kept.finished unfinished)
  obtain ⟨next, there', id, step⟩ := moved.tasks.forward there
  by_cases still : next.status = .working
  · exact ⟨next, there', still, own.same (step.sameWork still) kept⟩
  · rcases moved.runs.closes task there working next there' id still with retired | ends
    · exact absurd working (spares task retired)
    · exact absurd unfinished (ends earlier was (kept.finished unfinished) own run member kept.id)

end Moves

section Starts

variable {before after : Stage} {task : Task} {agentId deliveryId : Uuid}

theorem unowned_of_starts (started : Starts task agentId deliveryId before after)
    (sound : Sound before) {other : Task} (member : other ∈ before.db.tasks)
    (working : other.status = .working) : other.assignedAgentId ≠ some agentId := by
  intro assigned
  obtain ⟨agent, known, id, organization⟩ := sound.workers _ member working _ assigned
  obtain ⟨agent', known', id', organization'⟩ := started.known
  have one : agent = agent' := Table.eq_of_key_eq known known' (id.trans id'.symm)
  have same : other.organizationId = task.organizationId := by
    rw [← organization, ← organization', one]
  exact hasWorkingTask_eq_false_iff.1 started.idle other member same assigned working

theorem sound_of_starts (started : Starts task agentId deliveryId before after)
    (sound : Sound before) : Sound after := by
  obtain ⟨assigned, assign, rows⟩ := started.mem_tasks
  have there : assigned ∈ after.db.tasks := (rows assigned).2 (.inl rfl)
  obtain ⟨run, unfinished, runOrganization, runTask, runAgent, runKey, runs⟩ := started.run
  obtain ⟨row, post, posts⟩ := started.outbox
  have unowned : ∀ {other : Task}, other ∈ before.db.tasks → other.status = .working →
      other.assignedAgentId ≠ some agentId := unowned_of_starts started sound
  have issued : ∀ issue, issue ∈ after.issued ↔
      issue = ⟨deliveryId, task.id, agentId, task.attempt + 1⟩ ∨ issue ∈ before.issued := by
    intro issue
    rw [started.issued, List.mem_cons]
  have freshKey : ∀ other ∈ before.db.runs, other.idempotencyKey ≠ deliveryId.toText := by
    intro other member key
    obtain ⟨issue, was, key'⟩ := sound.runKeys other member
    rw [key, Uuid.toText_inj] at key'
    exact started.fresh issue was key'.symm
  constructor
  case rows =>
      intro other member
      rcases (rows other).1 member with rfl | ⟨was, -⟩
      · exact assign.rowInvariant (sound.rows task started.member)
      · exact sound.rows other was
  case single =>
      intro one member other member' working working' same
      rcases (rows one).1 member with rfl | ⟨was, -⟩ <;>
        rcases (rows other).1 member' with rfl | ⟨was', -⟩
      · rfl
      · exact absurd (same.symm.trans assign.agent) (unowned was' working')
      · exact absurd (same.trans assign.agent) (unowned was working)
      · exact sound.single _ was _ was' working working' same
  case available =>
      intro participant member status
      obtain ⟨last, was, key, free⟩ := started.participants participant member
      obtain ⟨free, other⟩ := free status
      have idle := sound.available last was free
      simp only [Participant.key, Prod.mk.injEq] at key
      rw [key.1, key.2, hasWorkingTask_eq_false_iff] at idle
      rw [hasWorkingTask_eq_false_iff]
      intro one member' organization agent
      rcases (rows one).1 member' with rfl | ⟨was', -⟩
      · rw [assign.agent, Option.some.injEq] at agent
        rw [assign.organization] at organization
        exact absurd (by rw [Participant.key, organization, agent]) other
      · exact idle one was' organization agent
  case workers =>
      intro one member working agent of
      rw [started.agents]
      rcases (rows one).1 member with rfl | ⟨was, -⟩
      · rw [assign.agent, Option.some.injEq] at of
        rw [← of, assign.organization]
        exact started.known
      · exact sound.workers one was working agent of
  case members =>
      intro participant member
      obtain ⟨last, was, key, -⟩ := started.participants participant member
      simp only [Participant.key, Prod.mk.injEq] at key
      rw [started.agents, ← key.1, ← key.2]
      exact sound.members last was
  case current =>
      intro one member working agent delivery of under
      rw [issued]
      rcases (rows one).1 member with rfl | ⟨was, -⟩
      · rw [assign.agent, Option.some.injEq] at of
        rw [assign.delivery, Option.some.injEq] at under
        left
        rw [assign.id, assign.attempt, of, under]
      · exact .inr (sound.current one was working agent delivery of under)
  case attempts =>
      intro issue member
      rcases (issued issue).1 member with rfl | was
      · exact ⟨assigned, there, assign.id, assign.attempt.ge⟩
      · obtain ⟨one, member', id, bound⟩ := sound.attempts issue was
        by_cases same : one = task
        · subst same
          exact ⟨assigned, there, assign.id.trans id, by rw [assign.attempt]; omega⟩
        · exact ⟨one, (rows one).2 (.inr ⟨member', same⟩), id, bound⟩
  case order =>
      rw [started.issued, List.pairwise_cons]
      refine ⟨fun older was same => ?_, sound.order⟩
      obtain ⟨one, member, id, bound⟩ := sound.attempts older was
      have : one = task := Table.eq_of_key_eq member started.member (id.trans same.symm)
      subst this
      exact Nat.lt_succ_of_le bound
  case fresh =>
      rw [started.issued, List.map_cons, List.nodup_cons]
      refine ⟨fun taken => ?_, sound.fresh⟩
      obtain ⟨issue, was, same⟩ := List.mem_map.1 taken
      exact started.fresh issue was same
  case runKeys =>
      intro other member
      rcases (runs other).1 member with rfl | was
      · exact ⟨_, (issued _).2 (.inl rfl), runKey⟩
      · obtain ⟨issue, known, key⟩ := sound.runKeys other was
        exact ⟨issue, (issued issue).2 (.inr known), key⟩
  case runsOnce =>
      intro one member other member' same
      rcases (runs one).1 member with rfl | was <;> rcases (runs other).1 member' with rfl | was'
      · rfl
      · exact absurd (same.symm.trans runKey) (freshKey other was')
      · exact absurd (same.trans runKey) (freshKey one was)
      · exact sound.runsOnce one was other was' same
  case running =>
      intro one member working
      rcases (rows one).1 member with rfl | ⟨was, -⟩
      · refine ⟨run, (runs run).2 (.inl rfl), unfinished, ?_, ?_, ?_, deliveryId,
          assign.delivery, runKey⟩
        · rw [runOrganization, assign.organization]
        · rw [runTask, assign.id]
        · rw [runAgent, assign.agent]
      · obtain ⟨other, known, opened, own⟩ := sound.running one was working
        exact ⟨other, (runs other).2 (.inr known), opened, own⟩
  case posts =>
      intro other member
      rcases (posts other).1 member with rfl | was
      · exact ⟨_, (issued _).2 (.inl rfl), post⟩
      · obtain ⟨issue, known, post'⟩ := sound.posts other was
        exact ⟨issue, (issued issue).2 (.inr known), post'⟩
  case posted =>
      intro one member working agent delivery of under
      rcases (rows one).1 member with rfl | ⟨was, -⟩
      · rw [assign.agent, Option.some.injEq] at of
        rw [assign.delivery, Option.some.injEq] at under
        refine ⟨row, (posts row).2 (.inl rfl), ?_⟩
        rwa [assign.id, assign.attempt, ← of, ← under]
      · obtain ⟨other, known, post'⟩ := sound.posted one was working agent delivery of under
        exact ⟨other, (posts other).2 (.inr known), post'⟩

theorem runsClosed_of_starts (started : Starts task agentId deliveryId before after)
    (closed : RunsClosed before) : RunsClosed after := by
  obtain ⟨assigned, assign, rows⟩ := started.mem_tasks
  obtain ⟨run, unfinished, runOrganization, runTask, runAgent, runKey, runs⟩ := started.run
  intro other member opened
  rcases (runs other).1 member with rfl | was
  · refine ⟨assigned, (rows assigned).2 (.inl rfl), assign.status, ?_, ?_, ?_, deliveryId,
      assign.delivery, runKey⟩
    · rw [runOrganization, assign.organization]
    · rw [runTask, assign.id]
    · rw [runAgent, assign.agent]
  · obtain ⟨one, there, working, own⟩ := closed other was opened
    exact ⟨one, (rows one).2 (.inr ⟨there, fun same => assign.idle (same ▸ working)⟩), working,
      own⟩

end Starts

theorem sound_of_change {gate : Lifecycle → Task → Prop} {before after : Stage}
    (change : Change gate before after) (sound : Sound before) : Sound after := by
  cases change with
  | move moved => exact sound_of_moves moved sound
  | start task agentId deliveryId started => exact sound_of_starts started sound

theorem runsClosed_of_change {gate : Lifecycle → Task → Prop} {before after : Stage}
    (spares : ∀ task, gate .retire task → task.status ≠ .working)
    (change : Change gate before after) (closed : RunsClosed before) : RunsClosed after := by
  cases change with
  | move moved => exact runsClosed_of_moves spares moved closed
  | start task agentId deliveryId started => exact runsClosed_of_starts started closed

theorem sound_empty : Sound ⟨.empty, []⟩ := by
  constructor <;> simp [Db.empty]

section Chains

variable {gate : Lifecycle → Task → Prop} {before after : Stage}

theorem chain_induction {P : Stage → Prop}
    (keep : ∀ s t, Sound s → Change gate s t → P s → P t)
    (chain : Relation.ReflTransGen (Change gate) before after) (sound : Sound before)
    (holds : P before) : Sound after ∧ P after := by
  induction chain with
  | refl => exact ⟨sound, holds⟩
  | tail _ last ih => exact ⟨sound_of_change last ih.1, keep _ _ ih.1 last ih.2⟩

theorem sound_of_chain (chain : Relation.ReflTransGen (Change gate) before after)
    (sound : Sound before) : Sound after :=
  (chain_induction (fun _ _ _ _ _ => trivial) chain sound trivial).1

theorem evolves_of_chain {R : Task → Task → Prop} (stay : ∀ task, R task task)
    (trans : ∀ {a b c}, R a b → R b c → R a c)
    (step : ∀ s t, Sound s → Change gate s t → ∀ row ∈ s.db.tasks, ∀ next,
      TaskStep gate s.db.tasks row next → R row next)
    (chain : Relation.ReflTransGen (Change gate) before after) (sound : Sound before) :
    Table.Evolves R (fun _ => True) before.db.tasks after.db.tasks := by
  have keep : ∀ s t, Sound s → Change gate s t →
      Table.Evolves R (fun _ => True) before.db.tasks s.db.tasks →
        Table.Evolves R (fun _ => True) before.db.tasks t.db.tasks := by
    intro s t sound' change evolves
    exact evolves.trans trans (fun _ _ => trivial) (change.evolves.mono
      (fun row member next _ stepped => step s t sound' change row member next stepped)
        fun _ _ => trivial)
  exact (chain_induction keep chain sound (.refl stay _)).2

/-- Every outbox row is a later version of an old one, or carries a delivery that no earlier
assignment had; assignments stay recorded. -/
structure PostHistory (before after : Stage) : Prop where
  origin : ∀ row ∈ after.db.outbox, (∃ old ∈ before.db.outbox, SamePost old row)
    ∨ ∀ issue ∈ before.issued, issue.deliveryId ≠ row.id
  issued : ∀ issue ∈ before.issued, issue ∈ after.issued

theorem PostHistory.refl (stage : Stage) : PostHistory stage stage where
  origin := fun row member => .inl ⟨row, member, .refl row⟩
  issued := fun _ member => member

theorem PostHistory.trans {first second third : Stage} (earlier : PostHistory first second)
    (later : PostHistory second third) : PostHistory first third := by
  constructor
  case origin =>
      intro row member
      rcases later.origin row member with ⟨old, there, same⟩ | fresh
      · rcases earlier.origin old there with ⟨oldest, was, same'⟩ | fresh
        · exact .inl ⟨oldest, was, same'.trans same⟩
        · rw [← same.id] at fresh
          exact .inr fresh
      · exact .inr fun issue was => fresh issue (earlier.issued issue was)
  case issued => exact fun issue was => later.issued issue (earlier.issued issue was)

theorem postHistory_of_change (change : Change gate before after) : PostHistory before after := by
  cases change with
  | move moved =>
      constructor
      case origin => exact fun row member => .inl (moved.outbox.origin row member)
      case issued => exact fun issue was => moved.issued ▸ was
  | start task agentId deliveryId started =>
      obtain ⟨row, post, posts⟩ := started.outbox
      constructor
      case origin =>
          intro other member
          rcases (posts other).1 member with rfl | was
          · exact .inr fun issue earlier => post.id ▸ started.fresh issue earlier
          · exact .inl ⟨other, was, .refl other⟩
      case issued =>
          intro issue was
          rw [started.issued]
          exact List.mem_cons_of_mem _ was

theorem postHistory_of_chain (chain : Relation.ReflTransGen (Change gate) before after) :
    PostHistory before after := by
  induction chain with
  | refl => exact .refl before
  | tail _ last ih => exact ih.trans (postHistory_of_change last)

end Chains

end Forge.Soundness
