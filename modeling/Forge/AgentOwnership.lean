import Forge.Transactions

/-! Single ownership: in every world that runs reach, an agent works on at most one task, and an
available participant on none. -/

namespace Forge.AgentOwnership

open Forge.Library.KeyedTable
open Forge.Schema
open Forge.System
open Forge.Transactions

section Ownership

variable {crypto : Crypto} {w : World}

theorem idle_of_available (sound : SoundWorld w) {participant : Participant}
    (member : participant ∈ w.db.participants) (free : participant.status = .available)
    {task : Task} (there : task ∈ w.db.tasks)
    (assigned : task.assignedAgentId = some participant.agentId) : task.status ≠ .working := by
  intro working
  obtain ⟨agent, known, id, organization⟩ :=
    sound.sound.workers task there working _ assigned
  obtain ⟨agent', known', id', organization'⟩ := sound.sound.members participant member
  have one : agent = agent' := Table.eq_of_key_eq known known' (id.trans id'.symm)
  have same : task.organizationId = participant.organizationId := by
    rw [← organization, ← organization', one]
  have idle := sound.sound.available participant member free
  exact ParticipantStatements.hasWorkingTask_eq_false_iff.1 idle task there same assigned working

/-- Every agent has at most one working task, and an available participant has none. -/
theorem single_ownership (reachable : ReachableWorld crypto w) :
    (∀ agentId, ∀ task ∈ w.db.tasks, ∀ other ∈ w.db.tasks,
      task.status = .working → task.assignedAgentId = some agentId →
        other.status = .working → other.assignedAgentId = some agentId → task = other)
    ∧ ∀ participant ∈ w.db.participants, participant.status = .available →
        ∀ task ∈ w.db.tasks, task.assignedAgentId = some participant.agentId →
          task.status ≠ .working := by
  have sound := soundWorld_of_reachable reachable
  constructor
  · intro agentId task member other member' working assigned working' assigned'
    exact sound.sound.single task member other member' working working'
      (assigned.trans assigned'.symm)
  · intro participant member free task there assigned
    exact idle_of_available sound member free there assigned

def bothClaimed : List Action :=
  Sample.staffed ++ Sample.claimed (Sample.named 20) (Sample.named 10) 30
    ++ Sample.claimed (Sample.named 21) (Sample.named 11) 31

def bothClaimedWorld : World := runFrom Sample.crypto .start bothClaimed

theorem reachable_bothClaimed : ReachableWorld Sample.crypto bothClaimedWorld :=
  reachableWhen_run (by decide +kernel)

/-- Both tasks work; the first agent owns one of them alone. -/
theorem single_ownership_bothClaimed :
    (bothClaimedWorld.db.tasks.rows.map fun task => (task.status, task.assignedAgentId))
        = [(.working, some (Sample.named 11)), (.working, some (Sample.named 10))]
      ∧ ∀ task ∈ bothClaimedWorld.db.tasks, ∀ other ∈ bothClaimedWorld.db.tasks,
          task.status = .working → task.assignedAgentId = some (Sample.named 10) →
            other.status = .working → other.assignedAgentId = some (Sample.named 10) →
              task = other :=
  ⟨by decide +kernel, (single_ownership reachable_bothClaimed).1 (Sample.named 10)⟩

end Ownership

end Forge.AgentOwnership
