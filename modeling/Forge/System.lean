import Forge.Library.StateMachine
import Forge.ParticipantLiveness
import Forge.ResultConsumer

/-! The whole orchestration system: one database that the API, the jobs and the surroundings
change by atomic transactions, in any order, with stale reads before them. -/

namespace Forge.System

open Forge.DependencyReadiness
open Forge.Library.Identifier
open Forge.Library.JsonDocument
open Forge.Library.StateMachine
open Forge.OrchestrationService
open Forge.ParticipantLiveness
open Forge.ParticipantStatements
open Forge.ResultConsumer
open Forge.Schema
open Forge.TaskLifecycle
open Forge.TaskStatements

structure Crypto where
  fingerprint : String → String
  verify : String → SignedEnvelope → Bool

/-- The current database, the committed ones before it, and every assignment ever made, both
newest first. -/
structure World where
  db : Db
  past : List Db
  issued : List Issue

namespace World

def start : World := ⟨.empty, [], []⟩

def snapshot (w : World) (commitsAgo : Nat) : Db :=
  (w.db :: w.past).getD commitsAgo w.db

def view (w : World) (commitsAgo : Uuid → Nat) : View :=
  fun id => (w.snapshot (commitsAgo id)).tasks

end World

inductive Command where
  | createTask (scope : TenantScope) (request : CreateTaskRequest) (taskId : Uuid)
  | createRecurringTask (organizationId groupId : Uuid) (title description priority : String)
      (requiresApproval : Bool) (taskId : Uuid)
  | createMaintenanceTask (organizationId groupId : Uuid) (title brief : String) (source : Json)
      (taskId : Uuid)
  | releaseReadyDependencyBlock (organizationId taskId : Uuid) (toQueued : Bool)
  | tryAutoDispatch (organizationId taskId : Uuid)
  | dispatchTask (organizationId taskId : Uuid)
  | assignTask (organizationId taskId agentId : Uuid)
  | updateTask (organizationId taskId : Uuid) (request : PatchTaskRequest)
  | completeTask (organizationId taskId : Uuid) (result : Json)
  | failTask (organizationId taskId : Uuid) (error : Json)
  | cancelTask (organizationId taskId : Uuid)
  | retryTask (organizationId taskId : Uuid)
  | approveTask (scope : TenantScope) (taskId : Uuid)
  | retireStaleTasks (organizationId groupId : Uuid) (olderThanDays batchLimit : Option Int)
  | quarantine (organizationId agentId : Uuid)
  | releaseIfIdle (organizationId agentId : Uuid)
  | registerParticipant (organizationId agentId : Uuid) (name : String)
      (capabilities : List String)
  | participantHeartbeat (organizationId agentId : Uuid)
  | markParticipantOffline (organizationId agentId : Uuid)
  | unregisterParticipant (organizationId agentId : Uuid)
  | sidecarHeartbeat (agentId : Uuid) (capabilities : List String)
  | markStaleOffline (staleAfterSecs : Int)
  | markOfflineByAgentIds (agentIds : List Uuid)
  | reconcileOrphanedBusy
  | expireWorkingLeases (staleAfterSecs : Int)
  | claimNextTask (agentId : Uuid) (locked : List Uuid)
  | reconcileDependencies
  | reapBlockedTasks (ttlSecs : Int)
  | handleResult (subjectPrefix subject : String) (payload : Option SignedEnvelope)
  | markOutboxPublished (id : Uuid)
  | touchTask (organizationId taskId : Uuid) (stamps : Bool)
  | purgeFinishedRuns (days : Int)
  | putAgent (agent : Agent)
  | deleteAgent (organizationId agentId : Uuid)
  | setRoutes (routes : Routes)

/-- One transaction: its command, its clock, how stale its reads are, what it draws, and the
dependents that its release statement misses. -/
structure Action where
  command : Command
  now : Timestamp
  reads : Uuid → Nat := fun _ => 0
  later : Uuid → Nat := fun _ => 0
  seen : Nat := 0
  draws : Draws
  missed : List Uuid := []

/-- `RECONCILE_SQL` as one tick. -/
def reconcileDependencies (db : Db) (now : Timestamp) : Outcome :=
  let tasks := (reconcileSql db.tasks now).execute db.tasks
  { db := { db with tasks } }

/-- `REAP_BLOCKED_TASKS_SQL` as one tick. -/
def reapBlockedTasks (db : Db) (ttlSecs : Int) (now : Timestamp) : Outcome :=
  let tasks := (reapBlockedTasksSql ttlSecs now).execute db.tasks
  { db := { db with tasks } }

/-- `MARK_OUTBOX_PUBLISHED_SQL`. -/
def markOutboxPublished (db : Db) (id : Uuid) (now : Timestamp) : Outcome :=
  let outbox := db.outbox.update (fun row => row.id == id && row.publishedAt.isNone)
    (fun row => { row with publishedAt := some now }) fun _ => rfl
  { db := { db with outbox } }

def touchTask (db : Db) (organizationId taskId : Uuid) (stamps : Bool) (now : Timestamp) :
    Outcome :=
  let tasks := (touchSql organizationId taskId (if stamps then some now else none)).execute
    db.tasks
  { db := { db with tasks } }

/-- `purge_finished_runs`. -/
def purgeFinishedRuns (db : Db) (days : Int) (now : Timestamp) : Outcome :=
  if days ≤ 0 then { db }
  else
    let runs := db.runs.deleteWhere fun run => db.tasks.any fun task =>
      task.id == run.orchestrationTaskId
        && (task.status == .completed || task.status == .failed || task.status == .canceled)
        && decide (task.updatedAt < now - days * 86400 * second)
    { db := { db with runs } }

def putAgent (db : Db) (agent : Agent) : Option Outcome :=
  match db.agents.insert? agent with
  | some agents => some { db := { db with agents } }
  | none =>
      let agents := db.agents.update
        (fun old => old.id == agent.id && old.organizationId == agent.organizationId)
        (fun old => { agent with id := old.id }) fun _ => rfl
      some { db := { db with agents } }

def cascade (db : Db) (agentId : Uuid) : Db :=
  let participants := db.participants.deleteWhere fun p => p.agentId == agentId
  let runs := db.runs.deleteWhere fun run => run.agentId == agentId
  { db with participants, runs }

def deleteAgent (db : Db) (organizationId agentId : Uuid) (now : Timestamp) : Option Outcome :=
  if agentWorkAdmissionIsIdle db organizationId agentId now = some true then
    let db := cascade db agentId
    let tasks := (clearAgentSql agentId).execute db.tasks
    let agents := db.agents.deleteWhere fun agent =>
      agent.id == agentId && agent.organizationId == organizationId
    some { db := { db with tasks, agents } }
  else none

section Machine

variable (crypto : Crypto)

/-- What an action commits, nothing when its transaction is refused or rolled back. -/
def transact (w : World) (a : Action) : Option Outcome :=
  let view := w.view a.reads
  let seen := w.snapshot a.seen
  match a.command with
  | .createTask scope request taskId =>
      (createTask crypto.fingerprint w.db view scope request taskId a.draws a.now).toOption
  | .createRecurringTask organizationId groupId title description priority approval taskId =>
      (OrchestrationService.createRecurringTask w.db organizationId groupId title description
        priority approval taskId a.now).toOption
  | .createMaintenanceTask organizationId groupId title brief source taskId =>
      (OrchestrationService.createMaintenanceTask w.db organizationId groupId title brief source
        taskId a.now).toOption
  | .releaseReadyDependencyBlock organizationId taskId toQueued => do
      let task ← (findById (view taskId) organizationId taskId).toOption
      (OrchestrationService.releaseReadyDependencyBlock w.db view organizationId task
        (if toQueued then .queued else .backlog) a.now).toOption
  | .tryAutoDispatch organizationId taskId => do
      let task ← (findById (view taskId) organizationId taskId).toOption
      (OrchestrationService.tryAutoDispatch crypto.fingerprint w.db view seen organizationId task
        a.draws a.now).toOption
  | .dispatchTask organizationId taskId =>
      (OrchestrationService.dispatchTask crypto.fingerprint w.db view seen organizationId taskId
        a.draws a.now).toOption
  | .assignTask organizationId taskId agentId =>
      (assignExistingTaskToParticipant crypto.fingerprint w.db view seen organizationId taskId
        agentId a.draws a.now).toOption
  | .updateTask organizationId taskId request =>
      (TaskLifecycle.updateTask crypto.fingerprint w.db view (w.view a.later) seen
        organizationId taskId request a.missed a.draws a.now).toOption
  | .completeTask organizationId taskId result =>
      (TaskLifecycle.completeTask w.db view organizationId taskId result a.missed
        a.now).toOption
  | .failTask organizationId taskId error =>
      (TaskLifecycle.failTask w.db view organizationId taskId error a.now).toOption
  | .cancelTask organizationId taskId =>
      (TaskLifecycle.cancelTask w.db view organizationId taskId a.now).toOption
  | .retryTask organizationId taskId =>
      (TaskLifecycle.retryTask w.db view organizationId taskId a.now).toOption
  | .approveTask scope taskId =>
      (TaskLifecycle.approveTask w.db view scope taskId a.now).toOption
  | .retireStaleTasks organizationId groupId days batch =>
      (TaskLifecycle.retireStaleTasks w.db seen.tasks organizationId groupId days batch
        a.now).toOption
  | .quarantine organizationId agentId =>
      some (invalidateActiveWorkForQuarantine w.db organizationId agentId a.now)
  | .releaseIfIdle organizationId agentId =>
      (TaskLifecycle.releaseIfIdle w.db organizationId agentId).toOption
  | .registerParticipant organizationId agentId name capabilities =>
      (TaskLifecycle.registerParticipant w.db organizationId agentId name capabilities).toOption
  | .participantHeartbeat organizationId agentId =>
      (TaskLifecycle.participantHeartbeat w.db organizationId agentId a.now).toOption
  | .markParticipantOffline organizationId agentId =>
      (TaskLifecycle.markParticipantOffline w.db organizationId agentId).toOption
  | .unregisterParticipant organizationId agentId =>
      (TaskLifecycle.unregisterParticipant w.db organizationId agentId).toOption
  | .sidecarHeartbeat agentId capabilities =>
      (ParticipantLiveness.sidecarHeartbeat w.db agentId capabilities a.now).toOption
  | .markStaleOffline staleAfterSecs =>
      some (ParticipantLiveness.markStaleOffline w.db staleAfterSecs a.now)
  | .markOfflineByAgentIds agentIds =>
      some (ParticipantLiveness.markOfflineByAgentIds w.db agentIds)
  | .reconcileOrphanedBusy => some (ParticipantLiveness.reconcileOrphanedBusy w.db)
  | .expireWorkingLeases staleAfterSecs =>
      some (ParticipantLiveness.expireWorkingLeases w.db staleAfterSecs a.now)
  | .claimNextTask agentId locked =>
      (ParticipantLiveness.claimNextTask crypto.fingerprint w.db agentId locked a.draws
        a.now).toOption
  | .reconcileDependencies => some (System.reconcileDependencies w.db a.now)
  | .reapBlockedTasks ttlSecs => some (System.reapBlockedTasks w.db ttlSecs a.now)
  | .handleResult subjectPrefix subject payload =>
      (handleMessage crypto.verify w.db seen subjectPrefix subject payload (a.now / second)
        a.missed a.now).toOption
  | .markOutboxPublished id => some (System.markOutboxPublished w.db id a.now)
  | .touchTask organizationId taskId stamps =>
      some (System.touchTask w.db organizationId taskId stamps a.now)
  | .purgeFinishedRuns days => some (System.purgeFinishedRuns w.db days a.now)
  | .putAgent agent => System.putAgent w.db agent
  | .deleteAgent organizationId agentId => System.deleteAgent w.db organizationId agentId a.now
  | .setRoutes routes => some { db := { w.db with routes } }

def World.commit (w : World) (outcome : Outcome) : World where
  db := outcome.db
  past := w.db :: w.past
  issued := outcome.issue.toList ++ w.issued

def exec (w : World) (a : Action) : World :=
  match transact crypto w a with
  | some outcome => w.commit outcome
  | none => w

def FreshDelivery (w : World) (a : Action) : Prop :=
  ∀ issue ∈ w.issued, issue.deliveryId ≠ a.draws.deliveryId

instance (w : World) (a : Action) : Decidable (FreshDelivery w a) :=
  inferInstanceAs (Decidable (∀ issue ∈ w.issued, issue.deliveryId ≠ a.draws.deliveryId))

def ReachableWhen (condition : World → Action → Prop) (w : World) : Prop :=
  Reachable (exec crypto) (· = World.start) (fun w a => FreshDelivery w a ∧ condition w a) w

def ReachesWhen (condition : World → Action → Prop) : World → World → Prop :=
  Reaches (exec crypto) fun w a => FreshDelivery w a ∧ condition w a

def ReachableWorld (w : World) : Prop :=
  ReachableWhen crypto (fun _ _ => True) w

def runFrom (w : World) (actions : List Action) : World :=
  run (exec crypto) w actions

def AllMeet (condition : World → Action → Prop) (w : World) (actions : List Action) : Prop :=
  AllAllowed (exec crypto) (fun w a => FreshDelivery w a ∧ condition w a) w actions

instance (condition : World → Action → Prop) [∀ w a, Decidable (condition w a)] (w : World)
    (actions : List Action) : Decidable (AllMeet crypto condition w actions) :=
  inferInstanceAs (Decidable (AllAllowed _ _ _ _))

variable {crypto}

theorem reachableWhen_run {condition : World → Action → Prop} {actions : List Action}
    (all : AllMeet crypto condition .start actions) :
    ReachableWhen crypto condition (runFrom crypto .start actions) :=
  reachable_run rfl all

theorem ReachableWhen.anyRun {condition : World → Action → Prop} {w : World}
    (reachable : ReachableWhen crypto condition w) : ReachableWorld crypto w :=
  Reachable.mono (fun _ _ allowed => ⟨allowed.1, trivial⟩) reachable

end Machine

/-! One organization with two agents on a live route, for runs on fixed inputs. -/

namespace Sample

def crypto : Crypto := ⟨fun secret => secret, fun _ _ => true⟩

def named (number : Nat) : Uuid := ⟨Fin.ofNat _ number⟩

def organization : Uuid := named 1
def group : Uuid := named 2
def project : Uuid := named 3
def workspace : Uuid := named 4
def scope : TenantScope := ⟨organization, named 5⟩

def routes : Routes where
  groups := [⟨group, organization, project, none⟩]
  projects := [⟨project, organization, workspace, none⟩]
  workspaces := [⟨workspace, organization, none⟩]

def agent (id : Uuid) : Agent where
  id
  organizationId := organization
  workspaceId := workspace
  projectId := none
  name := "agent"
  runtimeKind := .cli
  containerId := none
  containerImageIdentity := none
  hmacSecret := some "secret"
  interactiveLeaseExpiresAt := none

def act (now : Timestamp) (draw : Nat) (command : Command) : Action where
  command
  now
  draws := ⟨named draw, named draw, .ok ()⟩

def request (parentTaskId : Option Uuid) (requiresApproval : Bool) : CreateTaskRequest where
  title := some "task"
  description := none
  params := none
  priority := none
  groupId := some group
  assignedTo := none
  parentTaskId
  requiresApproval

def day : Timestamp := 86401 * second

def create (taskId : Uuid) (parentTaskId : Option Uuid) (requiresApproval : Bool) : Action :=
  act 0 0 (.createTask scope (request parentTaskId requiresApproval) taskId)

def queue (taskId : Uuid) : Action :=
  act 0 0 (.updateTask organization taskId ⟨some "queued", none, none, none⟩)

def join (agentId : Uuid) : List Action :=
  [act 0 0 (.putAgent (agent agentId)),
    act 0 0 (.registerParticipant organization agentId "agent" ["code"])]

def claimed (taskId agentId : Uuid) (draw : Nat) : List Action :=
  [create taskId none false, queue taskId, act day draw (.claimNextTask agentId [])]

def report (taskId agentId : Uuid) (draw : Nat) (attempt : Int) : Action :=
  act day 0 (.handleResult "results" ("results." ++ agentId.toText) (some {
    payload := .object [("delivery_id", .string (named draw).toText),
      ("attempt", .number attempt 0), ("task_id", .string taskId.toText),
      ("agent_id", .string agentId.toText),
      ("outcome", .object [("status", .string "completed"), ("stdout", .string "done")])]
    timestamp := day / second
    agentId := agentId.toText
    signature := "" }))

def staffed : List Action :=
  act 0 0 (.setRoutes routes) :: (join (named 10) ++ join (named 11))

end Sample

end Forge.System
