import Forge.HostEnrollment
import Forge.Library.StateMachine

/-! One agent for an idempotency key, through calls side by side, failures, expiry and deletions. -/

namespace Forge.EnrollmentSafety

open Forge.HostEnrollment
open Forge.Library.Identifier
open Forge.Library.KeyedTable
open Forge.Library.StateMachine
open Forge.Schema

def Live (world : World) (enrollment : Enrollment) : Prop :=
  enrollment.deleted = false ∧ world.now < enrollment.row.expiresAt

/-- The agents of an organisation, before the first enrollment. -/
structure Starts (world : World) : Prop where
  records : world.db.records.rows = []
  calls : world.calls = []
  history : world.history = []

/-- A transaction that takes effect finds no record, expired or not, under its key. -/
def Guarded (world : World) : Action → Prop
  | .step i (.commit _ commit) =>
      ∀ call ∈ world.calls[i]?, commit.reached = true →
        ∀ row ∈ world.db.records.rows, row.key ≠ call.key
  | _ => True

/-- No two agents were created for a key that is still live for both; a lookup finds the agent of
the key exactly while it is live; and what a call answers with was created for its key. -/
structure Idempotent (world : World) : Prop where
  single : world.history.Pairwise fun later earlier =>
    ¬(Live world later ∧ Live world earlier ∧ later.row.key = earlier.row.key)
  found : ∀ key agentId, world.db.lookup key world.now = some agentId ↔
    ∃ enrollment ∈ world.history, Live world enrollment ∧ enrollment.row.key = key ∧
      enrollment.row.agentId = agentId
  answered : ∀ call ∈ world.calls, ∀ agentId, call.stage.agent? = some agentId →
    ∃ enrollment ∈ world.history, enrollment.row.key = call.key ∧
      enrollment.row.agentId = agentId

/-- The records are those of the agents that exist, one for a key. -/
structure Recorded (world : World) : Prop where
  records : ∀ row, row ∈ world.db.records ↔
    ∃ enrollment ∈ world.history, enrollment.deleted = false ∧ enrollment.row = row
  single : world.history.Pairwise fun later earlier =>
    ¬(later.deleted = false ∧ earlier.deleted = false ∧ later.row.key = earlier.row.key)
  answered : ∀ call ∈ world.calls, ∀ agentId, call.stage.agent? = some agentId →
    ∃ enrollment ∈ world.history, enrollment.row.key = call.key ∧
      enrollment.row.agentId = agentId

section Steps

variable {world : World} {i : Nat} {call : Call}

theorem lookup_eq_some {db : EnrollmentDb} {key : EnrollmentKey} {now : Timestamp}
    {agentId : Uuid} :
    db.lookup key now = some agentId ↔
      ∃ row ∈ db.records, row.key = key ∧ now < row.expiresAt ∧ row.agentId = agentId := by
  unfold EnrollmentDb.lookup
  rw [Option.map_eq_some_iff]
  constructor
  · rintro ⟨row, hfound, hagent⟩
    obtain ⟨hmem, hrow⟩ := Table.mem_of_find? hfound
    simp only [Bool.and_eq_true, decide_eq_true_eq] at hrow
    exact ⟨row, hmem, hrow.1, hrow.2, hagent⟩
  · rintro ⟨row, hmem, hkey, hlive, hagent⟩
    cases hfound : db.records.find? fun row => row.key = key && now < row.expiresAt with
    | none =>
        have hnone := Table.find?_eq_none.mp hfound row hmem
        simp [hkey, hlive] at hnone
    | some other =>
        obtain ⟨hother, hrow⟩ := Table.mem_of_find? hfound
        simp only [Bool.and_eq_true, decide_eq_true_eq] at hrow
        have hsame := Table.eq_of_key_eq hother hmem (hrow.1.trans hkey.symm)
        exact ⟨other, rfl, hsame ▸ hagent⟩

theorem Recorded.setStage (recorded : Recorded world) (stage : Stage)
    (hanswered : ∀ agentId, stage.agent? = some agentId →
      ∃ enrollment ∈ world.history, enrollment.row.key = call.key ∧
        enrollment.row.agentId = agentId) :
    Recorded (world.setStage i call stage) where
  records := recorded.records
  single := recorded.single
  answered other hmem agentId hagent := by
    rcases List.mem_or_eq_of_mem_set hmem with hbefore | rfl
    · exact recorded.answered other hbefore agentId hagent
    · exact hanswered agentId hagent

theorem Recorded.enroll {after : World} {agentId : Uuid} {startedAt : Timestamp}
    {key : EnrollmentKey} (recorded : Recorded world)
    (hnew : ∀ row ∈ world.db.records, row.key ≠ key)
    (hafter : world.enrollInTx key agentId startedAt = some after) :
    Recorded after ∧ after.calls = world.calls ∧
      after.history = ⟨⟨key, agentId, startedAt + 86400 * second⟩, false⟩ :: world.history := by
  obtain ⟨db, hcreated, rfl⟩ := Option.map_eq_some_iff.mp hafter
  obtain ⟨agents, -, rfl⟩ := Option.map_eq_some_iff.mp hcreated
  refine ⟨?_, rfl, rfl⟩
  cases hinserted : world.db.records.insert? ⟨key, agentId, startedAt + 86400 * second⟩ with
  | none =>
      obtain ⟨old, hold, hkey⟩ := Table.insert?_eq_none.mp hinserted
      exact absurd hkey (hnew old hold)
  | some records =>
      obtain ⟨-, hgrown⟩ := Table.insert?_eq_some hinserted
      constructor
      case records =>
        intro row
        simp only [EnrollmentDb.storeInTx, hinserted, hgrown, recorded.records, List.mem_cons]
        constructor
        · rintro (rfl | ⟨enrollment, hmem, hkept, hrow⟩)
          · exact ⟨_, .inl rfl, rfl, rfl⟩
          · exact ⟨enrollment, .inr hmem, hkept, hrow⟩
        · rintro ⟨enrollment, rfl | hmem, hkept, hrow⟩
          · exact .inl hrow.symm
          · exact .inr ⟨enrollment, hmem, hkept, hrow⟩
      case single =>
        refine List.pairwise_cons.mpr ⟨?_, recorded.single⟩
        rintro earlier hmem ⟨-, hkept, hkey⟩
        exact hnew earlier.row ((recorded.records _).mpr ⟨earlier, hmem, hkept, rfl⟩) hkey.symm
      case answered =>
        intro other hmem agent hagent
        obtain ⟨enrollment, hhistory, hmatch⟩ := recorded.answered other hmem agent hagent
        exact ⟨enrollment, List.mem_cons_of_mem _ hhistory, hmatch⟩

theorem recorded_advance (recorded : Recorded world) {input : Input}
    (hcall : world.calls[i]? = some call) (guarded : Guarded world (.step i input)) :
    Recorded (world.advance i call call.stage input) := by
  have hmem := List.mem_of_getElem? hcall
  have hrejects : Recorded (world.setStage i call .rejected) := recorded.setStage .rejected nofun
  have hfinishes : ∀ agentId, call.stage.agent? = some agentId →
      Recorded (world.setStage i call
        (if world.db.hasAgent call.key.orgId agentId then .returned agentId else .rejected)) := by
    intro agentId hagent
    split_ifs
    · apply recorded.setStage
      rintro other heq
      obtain rfl := Option.some.inj heq
      exact recorded.answered call hmem agentId hagent
    · exact hrejects
  unfold World.advance
  split
  case h_1 hstage =>
      split
      case h_1 agentId hfound =>
          apply recorded.setStage
          intro other heq
          obtain rfl := Option.some.inj heq
          obtain ⟨row, hrow, hkey, -, hagent⟩ := lookup_eq_some.mp hfound
          obtain ⟨enrollment, hhistory, -, rfl⟩ := (recorded.records row).mp hrow
          exact ⟨enrollment, hhistory, hkey, hagent⟩
      case h_2 => exact recorded.setStage .missed nofun
  case h_2 => exact recorded.setStage (.begun world.now) nofun
  case h_3 startedAt agentId commit hstage =>
      split
      case h_1 after hafter =>
          split_ifs with hreached hcommitted
          · have hnew := guarded call hcall hreached
            obtain ⟨henrolled, hcalls, hhistory⟩ := recorded.enroll hnew hafter
            apply henrolled.setStage
            intro other heq
            obtain rfl := Option.some.inj heq
            rw [hhistory]
            exact ⟨_, List.mem_cons_self, rfl, rfl⟩
          · have hnew := guarded call hcall hreached
            exact (recorded.enroll hnew hafter).1.setStage .rejected nofun
          · exact hrejects
      case h_2 => exact hrejects
  case h_4 agentId hstage => exact hfinishes agentId (by rw [hstage]; rfl)
  case h_5 agentId hstage => exact hfinishes agentId (by rw [hstage]; rfl)
  all_goals first | exact recorded | exact hrejects

theorem recorded_delete (recorded : Recorded world) (agentId : Uuid) :
    Recorded (world.delete agentId) := by
  have hrow : ∀ enrollment : Enrollment,
      (if enrollment.row.agentId = agentId then { enrollment with deleted := true }
        else enrollment : Enrollment).row = enrollment.row := by
    intro enrollment
    split_ifs <;> rfl
  have hkept : ∀ enrollment : Enrollment,
      (if enrollment.row.agentId = agentId then { enrollment with deleted := true }
        else enrollment : Enrollment).deleted = false ↔
      enrollment.deleted = false ∧ enrollment.row.agentId ≠ agentId := by
    intro enrollment
    split_ifs with hagent
    · simp [hagent]
    · simp [hagent]
  constructor
  case records =>
    intro row
    simp only [World.delete, EnrollmentDb.deleteAgent, Table.mem_deleteWhere, List.mem_map,
      decide_eq_false_iff_not]
    constructor
    · rintro ⟨hmem, hother⟩
      obtain ⟨enrollment, hhistory, hpresent, rfl⟩ := (recorded.records row).mp hmem
      exact ⟨_, ⟨enrollment, hhistory, rfl⟩, (hkept enrollment).mpr ⟨hpresent, hother⟩,
        hrow enrollment⟩
    · rintro ⟨_, ⟨enrollment, hhistory, rfl⟩, hpresent, rfl⟩
      rw [hrow]
      obtain ⟨hbefore, hother⟩ := (hkept enrollment).mp hpresent
      exact ⟨(recorded.records _).mpr ⟨enrollment, hhistory, hbefore, rfl⟩, hother⟩
  case single =>
    refine List.pairwise_map.mpr (recorded.single.imp ?_)
    rintro later earlier hsingle ⟨hlater, hearlier, hkey⟩
    rw [hrow, hrow] at hkey
    exact hsingle ⟨((hkept later).mp hlater).1, ((hkept earlier).mp hearlier).1, hkey⟩
  case answered =>
    intro call hmem agent hagent
    obtain ⟨enrollment, hhistory, hkey, hcreated⟩ := recorded.answered call hmem agent hagent
    refine ⟨_, List.mem_map.mpr ⟨enrollment, hhistory, rfl⟩, ?_, ?_⟩
    · rw [hrow]
      exact hkey
    · rw [hrow]
      exact hcreated

theorem recorded_exec (recorded : Recorded world) {action : Action}
    (guarded : Guarded world action) : Recorded (world.exec action) := by
  cases action with
  | accept key =>
      refine ⟨recorded.records, recorded.single, ?_⟩
      intro call hmem agentId hagent
      rcases List.mem_append.mp hmem with hbefore | hnew
      · exact recorded.answered call hbefore agentId hagent
      · rw [List.mem_singleton.mp hnew] at hagent
        exact absurd hagent nofun
  | step i input =>
      cases hcall : world.calls[i]? with
      | none =>
          simp only [World.exec, hcall]
          exact recorded
      | some call =>
          simp only [World.exec, hcall]
          exact recorded_advance recorded hcall guarded
  | delete agentId => exact recorded_delete recorded agentId
  | wait duration => exact ⟨recorded.records, recorded.single, recorded.answered⟩

end Steps

section Runs

variable {world : World}

theorem recorded_starts (starts : Starts world) : Recorded world where
  records row := by
    simp [Table.mem_iff, starts.records, starts.history]
  single := by
    rw [starts.history]
    exact List.Pairwise.nil
  answered := by
    rw [starts.calls]
    exact nofun

theorem idempotent_of_recorded (recorded : Recorded world) : Idempotent world where
  single := by
    refine recorded.single.imp ?_
    rintro later earlier hsingle ⟨hlater, hearlier, hkey⟩
    exact hsingle ⟨hlater.1, hearlier.1, hkey⟩
  found key agentId := by
    rw [lookup_eq_some]
    constructor
    · rintro ⟨row, hmem, hkey, hlive, hagent⟩
      obtain ⟨enrollment, hhistory, hpresent, rfl⟩ := (recorded.records row).mp hmem
      exact ⟨enrollment, hhistory, ⟨hpresent, hlive⟩, hkey, hagent⟩
    · rintro ⟨enrollment, hhistory, ⟨hpresent, hlive⟩, hkey, hagent⟩
      exact ⟨enrollment.row, (recorded.records _).mpr ⟨enrollment, hhistory, hpresent, rfl⟩, hkey,
        hlive, hagent⟩
  answered := recorded.answered

/-- Runs in which no transaction finds a record of its key. -/
theorem enroll_idempotent (reachable : Reachable World.exec Starts Guarded world) :
    Idempotent world :=
  idempotent_of_recorded
    (reachable.invariant (fun _ => recorded_starts)
      fun _ _ recorded guarded => recorded_exec recorded guarded)

instance (world : World) (enrollment : Enrollment) : Decidable (Live world enrollment) :=
  inferInstanceAs (Decidable (_ ∧ _))

instance (world : World) (action : Action) : Decidable (Guarded world action) := by
  unfold Guarded
  split <;> infer_instance

def newKey : EnrollmentKey := ⟨⟨1⟩, ⟨2⟩, "laptop"⟩

def noAgents : World := ⟨⟨.empty, .empty⟩, 0, [], []⟩

theorem starts_noAgents : Starts noAgents := ⟨rfl, rfl, rfl⟩

def retried : List Action :=
  [.accept newKey, .step 0 .lookup, .step 0 .begin, .step 0 (.commit ⟨7⟩ (.failed true)),
    .accept newKey, .step 1 .lookup, .step 1 .finish]

theorem enroll_idempotent_retried : Idempotent (run World.exec noAgents retried) :=
  enroll_idempotent (reachable_run starts_noAgents (by decide))

def raced : List Action :=
  [.accept newKey, .accept newKey, .step 0 .lookup, .step 1 .lookup, .step 0 .begin,
    .step 1 .begin, .step 0 (.commit ⟨7⟩ .committed), .step 1 (.commit ⟨8⟩ .committed)]

def expired : List Action :=
  [.accept newKey, .step 0 .lookup, .step 0 .begin, .step 0 (.commit ⟨7⟩ .committed),
    .wait 90000000000, .accept newKey, .step 1 .lookup, .step 1 .begin,
    .step 1 (.commit ⟨8⟩ .committed)]

theorem second_agents :
    Starts noAgents ∧ ¬Idempotent (run World.exec noAgents raced) ∧
      ¬Idempotent (run World.exec noAgents expired) := by
  refine ⟨starts_noAgents, ?_, ?_⟩
  · intro idempotent
    exact absurd idempotent.single (by decide)
  · intro idempotent
    have hlive : ∃ enrollment ∈ (run World.exec noAgents expired).history,
        Live (run World.exec noAgents expired) enrollment ∧ enrollment.row.key = newKey ∧
          enrollment.row.agentId = ⟨8⟩ := by
      decide
    exact absurd ((idempotent.found newKey ⟨8⟩).mpr hlive) (by decide)

end Runs

end Forge.EnrollmentSafety
