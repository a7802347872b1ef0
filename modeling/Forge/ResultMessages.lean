import Forge.Transactions

/-! Result messages at the system level: who an authenticated message comes from, and which of
the results of applying it the next world shows. -/

namespace Forge.ResultMessages

open Forge.Library.Fallible
open Forge.Library.Identifier
open Forge.Library.KeyedTable
open Forge.LivenessChanges
open Forge.OrchestrationService
open Forge.ResultConsumer
open Forge.Schema
open Forge.System

/-- The agent whose key signed an envelope, on the subject that the envelope came on. -/
structure SignedBy (verify : String → SignedEnvelope → Bool) (seen : Db)
    (subjectPrefix subject : String) (envelope : SignedEnvelope) (agentId : Uuid) : Prop where
  ofSubject : parseResultSubject subject subjectPrefix = some agentId
  ofEnvelope : envelope.agentId = agentId.toText
  signature : ∃ agent ∈ seen.agents, agent.id = agentId ∧ ∃ secret, agent.hmacSecret = some secret
    ∧ verify secret envelope = true

theorem authenticate_ok {verify : String → SignedEnvelope → Bool} {seen : Db}
    {subjectPrefix subject : String} {payload : Option SignedEnvelope} {nowSecs : Int}
    {organizationId : Uuid} {result : TaskResult}
    (authentic : authenticate verify seen subjectPrefix subject payload nowSecs
      = .ok (organizationId, result)) :
    (∃ envelope, payload = some envelope
      ∧ SignedBy verify seen subjectPrefix subject envelope result.agentId)
    ∧ result.deliveryId.isSome = true ∧ result.attempt.isSome = true
    ∧ ∃ participant ∈ seen.participants, participant.agentId = result.agentId
      ∧ participant.organizationId = organizationId := by
  rw [authenticate] at authentic
  obtain ⟨subjectAgent, parsed, authentic⟩ := bind_eq_ok.1 authentic
  obtain ⟨envelope, given, authentic⟩ := bind_eq_ok.1 authentic
  obtain ⟨same, authentic⟩ := guard_eq_ok.1 authentic
  obtain ⟨-, authentic⟩ := guard_eq_ok.1 authentic
  obtain ⟨secret, known, authentic⟩ := bind_eq_ok.1 authentic
  obtain ⟨signed, authentic⟩ := guard_eq_ok.1 authentic
  obtain ⟨body, -, authentic⟩ := bind_eq_ok.1 authentic
  obtain ⟨sender, authentic⟩ := guard_eq_ok.1 authentic
  obtain ⟨delivery, authentic⟩ := guard_eq_ok.1 authentic
  obtain ⟨tried, authentic⟩ := guard_eq_ok.1 authentic
  obtain ⟨organization, found, authentic⟩ := bind_eq_ok.1 authentic
  cases pure_eq_ok.1 authentic
  simp only [ne_eq, not_not, Bool.not_eq_true, Option.isNone_eq_false_iff]
    at same sender delivery tried signed
  subst sender
  obtain ⟨agent, listed, secret_eq⟩ := Option.bind_eq_some_iff.1 (elim_eq_ok.1 known)
  obtain ⟨member, id⟩ := Table.mem_of_find? listed
  obtain ⟨participant, listed', rfl⟩ := Option.map_eq_some_iff.1 (elim_eq_ok.1 found)
  obtain ⟨member', id'⟩ := Table.mem_of_find? listed'
  refine ⟨⟨envelope, elim_eq_ok.1 given, elim_eq_ok.1 parsed, same,
    agent, member, by simpa using id, secret, secret_eq, by simpa using signed⟩, delivery, tried,
    participant, member', by simpa using id', rfl⟩

/-- An action handles a message that authenticates with this result for this organization. -/
def Reports (crypto : Crypto) (w : World) (a : Action) (organizationId : Uuid)
    (result : TaskResult) : Prop :=
  ∃ subjectPrefix subject payload, a.command = .handleResult subjectPrefix subject payload
    ∧ authenticate crypto.verify (w.snapshot a.seen) subjectPrefix subject payload (a.now / second)
      = .ok (organizationId, result)

section Messages

variable {crypto : Crypto} {w : World} {a : Action} {organizationId : Uuid} {result : TaskResult}

def databaseAfter (w : World) : Except AppError Outcome → Db
  | .ok outcome => outcome.db
  | .error _ => w.db

theorem db_exec_of_reports (reports : Reports crypto w a organizationId result) :
    (exec crypto w a).db
      = databaseAfter w (apply w.db organizationId result a.missed a.now) := by
  obtain ⟨subjectPrefix, subject, payload, command, authentic⟩ := reports
  rw [exec, transact, command]
  simp only [handleMessage, authentic, bind, Except.bind]
  cases apply w.db organizationId result a.missed a.now with
  | error err => rfl
  | ok outcome => rfl

theorem Reports.applied (reports : Reports crypto w a organizationId result) :
    ∃ deliveryId attempt computed, result.deliveryId = some deliveryId
      ∧ result.attempt = some attempt
      ∧ Applied w.db organizationId result deliveryId attempt a.missed a.now computed
      ∧ (exec crypto w a).db = databaseAfter w computed := by
  have ⟨subjectPrefix, subject, payload, _, authentic⟩ := reports
  obtain ⟨-, delivery, tried, -⟩ := authenticate_ok authentic
  obtain ⟨deliveryId, delivery⟩ := Option.isSome_iff_exists.1 delivery
  obtain ⟨attempt, tried⟩ := Option.isSome_iff_exists.1 tried
  exact ⟨deliveryId, attempt, _, delivery, tried, LivenessChanges.applied delivery tried,
    db_exec_of_reports reports⟩

end Messages

end Forge.ResultMessages
