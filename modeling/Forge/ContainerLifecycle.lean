import Forge.Library.Effectful
import Mathlib.Logic.Function.Basic

/-! The container of an agent: its row, what Docker has, and the operations that start, stop,
replace, roll and reconcile it under the lifecycle lock. Every call may fail, and one that fails may
have taken effect. -/

namespace Forge.ContainerLifecycle

open Forge.Library.Effectful

inductive ContainerState where
  | created
  | running
  | stopped
deriving DecidableEq, Repr

structure Credentials where
  hmacSecret : Nat
  natsConnectPassword : Nat
deriving DecidableEq, Repr

/-- What the row of the agent has of its container; `lease` says whether the interactive lease is
live. -/
structure Row where
  containerId : Option Nat
  hmacSecret : Option Nat
  natsConnectPassword : Option Nat
  lease : Bool
deriving DecidableEq, Repr

namespace Row

/-- `clear_container`, nothing when the row names another container. -/
def clear (expected : Nat) (row : Row) : Option Row :=
  if row.containerId = some expected then some ⟨none, none, none, false⟩ else none

/-- `quarantine_container`. -/
def quarantine (expected : Nat) (row : Row) : Option Row :=
  if row.containerId = some expected then some ⟨some expected, none, none, false⟩ else none

/-- `set_container`, nothing when the row names a container. -/
def set (id : Nat) (credentials : Credentials) (row : Row) : Option Row :=
  if row.containerId = none then
    some ⟨some id, some credentials.hmacSecret, some credentials.natsConnectPassword, false⟩
  else none

end Row

inductive Operation where
  | start
  | stop
  | replace
  | roll
  | reconcile (containerId : Nat)
deriving DecidableEq, Repr

/-- The transaction that holds the lock: the row as it has written it, whether it invalidated the
active work, and whether a statement failed in it. -/
structure Transaction where
  row : Option Row
  invalidated : Bool
  aborted : Bool
deriving DecidableEq, Repr

structure Removal where
  operation : Operation
  idle : Bool
deriving DecidableEq, Repr

/-- The row, whether a task or a participant of the agent works, the containers, with the
environment that each was created with, and the operation with its transaction. `confirmed` lists
the containers that Docker said are absent, `cleared` those that the row named and names no more. -/
structure World where
  row : Row
  working : Bool
  containers : Nat → Option ContainerState
  credentials : Nat → Option Credentials
  nextContainer : Nat
  nextUuid : Nat
  operation : Operation
  transaction : Transaction
  confirmed : List Nat
  cleared : List Nat
  removals : List Removal

inductive Phase where
  | stopping
  | replacing
  | quarantining
deriving DecidableEq, Repr

inductive RemovalStep where
  | stop
  | stopAgain
  | remove
  | removeAgain
  | inspect
deriving DecidableEq, Repr

/-- The calls of an operation. -/
inductive Site where
  | docker
  | lock
  | read (phase : Phase)
  | inspect
  | admission
  | removal (phase : Phase) (step : RemovalStep)
  | clear (phase : Phase)
  | quarantine
  | invalidate
  | prepare
  | create
  | inspectCreated
  | persist
  | start
  | cleanup
  | clearFailed
  | commit
deriving DecidableEq, Repr

/-- How a call ends: the containers that exit before it, whether it answers or fails, whether it
took effect when it fails, and whether a check of its answer is passed. -/
structure Reply where
  exits : List Nat
  answers : Bool
  reached : Bool
  accepted : Bool
deriving DecidableEq, Repr

def Reply.took (reply : Reply) : Bool :=
  reply.answers || reply.reached

inductive Answer (α : Type) where
  | ok (value : α)
  | notFound
  | error
deriving DecidableEq, Repr

inductive Written where
  | done
  | unmatched
  | failed
deriving DecidableEq, Repr

inductive Admission where
  | admitted
  | unavailable
  | rejected
deriving DecidableEq, Repr

/-- `ensure_container_admission`, of a container that the row names. -/
def Reply.admission (reply : Reply) : Admission :=
  if reply.answers then .admitted else if reply.accepted then .unavailable else .rejected

inductive Failure where
  | dockerUnavailable
  | blockedByActiveWork
  | agentUnavailable
  | changedDuringLifecycle
  | actionUnavailable
  | admission
  | prepare
  | createContainer
  | imageIdentityUnavailable
  | startContainer
  | stillRunningAfterStop
  | stopUnverified
  | rollTargetChanged
  | database
deriving DecidableEq, Repr

inductive StartOutcome where
  | alreadyRunning (containerId : Nat)
  | started (containerId : Nat)
deriving DecidableEq, Repr

inductive StopOutcome where
  | stopped
  | stillRunning
  | unconfirmed
deriving DecidableEq, Repr

inductive ReplaceOutcome where
  | respawned
  | respawnFailed (failure : Failure)
  | stillRunning
  | unconfirmed
  | stopFailed (failure : Failure)
deriving DecidableEq, Repr

namespace World

variable (world : World)

/-- `agent_work_admission_is_idle_in_tx`. -/
def idle : Bool :=
  !world.working && !world.row.lease

def exit (ids : List Nat) : World :=
  { world with
    containers := fun id =>
      if id ∈ ids ∧ world.containers id = some .running then some .stopped
      else world.containers id }

def confirm (id : Nat) : World :=
  if id < world.nextContainer then { world with confirmed := id :: world.confirmed } else world

def setContainer (id : Nat) (state : Option ContainerState) : World :=
  { world with containers := Function.update world.containers id state }

def writeRow (row : Row) : World :=
  { world with
    row
    cleared :=
      if world.row.containerId = row.containerId then world.cleared
      else world.row.containerId.toList ++ world.cleared }

end World

section Calls

variable (reply : Reply)

def stopContainer (id : Nat) (world : World) : Answer Unit × World :=
  let world := world.exit reply.exits
  match world.containers id with
  | none => (if reply.answers then .notFound else .error, world)
  | some state =>
      (if reply.answers then .ok () else .error,
        if reply.took && state = .running then world.setContainer id (some .stopped) else world)

def removeContainer (id : Nat) (world : World) : Answer Unit × World :=
  let world := world.exit reply.exits
  let world := { world with removals := ⟨world.operation, world.idle⟩ :: world.removals }
  if reply.answers then
    (if world.containers id = none then .notFound else .ok (),
      (world.setContainer id none).confirm id)
  else (.error, if reply.reached then world.setContainer id none else world)

def inspectContainer (id : Nat) (world : World) : Answer ContainerState × World :=
  let world := world.exit reply.exits
  if reply.answers then
    match world.containers id with
    | none => (.notFound, world.confirm id)
    | some state => (.ok state, world)
  else (.error, world)

def createContainer (credentials : Credentials) (world : World) : Option Nat × World :=
  let world := world.exit reply.exits
  let id := world.nextContainer
  (if reply.answers then some id else none,
    if reply.took then
      { world.setContainer id (some .created) with
        credentials := Function.update world.credentials id (some credentials)
        nextContainer := id + 1 }
    else world)

def startContainer (id : Nat) (world : World) : Answer Unit × World :=
  let world := world.exit reply.exits
  match world.containers id with
  | none => (if reply.answers then .notFound else .error, world)
  | some _ =>
      (if reply.answers then .ok () else .error,
        if reply.took then world.setContainer id (some .running) else world)

def write (update : Row → Option Row) (world : World) : Written × World :=
  let world := world.exit reply.exits
  match update world.row with
  | none => (if reply.answers then .unmatched else .failed, world)
  | some row =>
      (if reply.answers then .done else .failed, if reply.took then world.writeRow row else world)

def writeInTransaction (update : Row → Option Row) (world : World) : Written × World :=
  let world := world.exit reply.exits
  if reply.answers && !world.transaction.aborted then
    match update (world.transaction.row.getD world.row) with
    | none => (.unmatched, world)
    | some row =>
        (.done, { world with transaction := { world.transaction with row := some row } })
  else
    (.failed, { world with transaction := { world.transaction with aborted := true } })

/-- `invalidate_active_work_for_quarantine_in_tx`. -/
def invalidate (world : World) : Bool × World :=
  if reply.answers then
    (true, { world with transaction := { world.transaction with invalidated := true } })
  else (false, { world with transaction := { world.transaction with aborted := true } })

def commit (world : World) : Bool × World :=
  (reply.answers,
    if reply.took && !world.transaction.aborted then
      { world.writeRow (world.transaction.row.getD world.row) with
        working := world.working && !world.transaction.invalidated }
    else world)

end Calls

def begin (world : World) : Unit × World :=
  ((), { world with transaction := ⟨none, false, false⟩ })

/-- `Uuid::new_v4`, twice. -/
def newCredentials (world : World) : Credentials × World :=
  (⟨world.nextUuid, world.nextUuid + 1⟩, { world with nextUuid := world.nextUuid + 2 })

abbrev Op :=
  Effect World Failure

section Operations

variable (replies : Site → Reply)

def call {α : Type} (step : Reply → World → α × World) (site : Site) : Op α :=
  act (step (replies site))

def query (site : Site) (failure : Failure) : Op Unit :=
  if (replies site).answers then pure () else throw failure

def readRow : Op Row :=
  act fun world => (world.row, world)

def isIdle : Op Bool :=
  act fun world => (world.idle, world)

/-- `idempotent_container_op`. -/
def idempotentContainerOp (step : Reply → World → Answer Unit × World) (first second : Site) :
    Op Unit := do
  match ← call replies step first with
  | .error =>
      let _ ← call replies step second
      pure ()
  | .ok _ => pure ()
  | .notFound => pure ()

def stopAndRemove (phase : Phase) (id : Nat) : Op Unit := do
  idempotentContainerOp replies (stopContainer · id) (.removal phase .stop)
    (.removal phase .stopAgain)
  idempotentContainerOp replies (removeContainer · id) (.removal phase .remove)
    (.removal phase .removeAgain)

/-- `reconcile_stopped_agent`. -/
def reconcileStoppedAgent (phase : Phase) (id : Nat) : Op Bool := do
  match ← call replies (write · (Row.clear id)) (.clear phase) with
  | .done => pure true
  | .unmatched => pure false
  | .failed => throw .database

/-- `stop_and_remove_container_locked`. -/
def stopAndRemoveContainerLocked (id : Nat) : Op StopOutcome := do
  query replies .docker .dockerUnavailable
  stopAndRemove replies .stopping id
  match ← call replies (inspectContainer · id) (.removal .stopping .inspect) with
  | .notFound => pure .stopped
  | .ok _ => pure .stillRunning
  | .error => pure .unconfirmed

/-- `stop_with_outcome_locked`. -/
def stopWithOutcomeLocked : Op StopOutcome := do
  query replies (.read .stopping) .agentUnavailable
  let row ← readRow
  match row.containerId with
  | none => pure .stopped
  | some id =>
      match ← stopAndRemoveContainerLocked replies id with
      | .stopped =>
          let _ ← reconcileStoppedAgent replies .stopping id
          pure .stopped
      | .stillRunning => pure .stillRunning
      | .unconfirmed => pure .unconfirmed

/-- `remove_container_for_replacement`. -/
def removeContainerForReplacement (id : Nat) : Op Unit := do
  stopAndRemove replies .replacing id
  match ← call replies (inspectContainer · id) (.removal .replacing .inspect) with
  | .notFound => pure ()
  | .ok _ => throw .stillRunningAfterStop
  | .error => throw .actionUnavailable

/-- `quarantine_unverified_container`. -/
def quarantineUnverifiedContainer (id : Nat) : Op Unit := do
  stopAndRemove replies .quarantining id
  match ← call replies (inspectContainer · id) (.removal .quarantining .inspect) with
  | .notFound =>
      let _ ← attempt (reconcileStoppedAgent replies .quarantining id)
      pure ()
  | .ok _ =>
      let _ ← call replies (write · (Row.quarantine id)) .quarantine
      pure ()
  | .error =>
      let _ ← call replies (write · (Row.quarantine id)) .quarantine
      pure ()

/-- The clearing of a container that `start_locked` replaces. -/
def clearReplaced (id : Nat) : Op Unit := do
  match ← call replies (write · (Row.clear id)) (.clear .replacing) with
  | .done => pure ()
  | .unmatched => throw .changedDuringLifecycle
  | .failed => throw .database

/-- The first part of `start_locked`: a container that runs stays, another one makes room. -/
def makeRoom : Op (Option StartOutcome) := do
  let row ← readRow
  match row.containerId with
  | none => pure none
  | some id =>
      match ← call replies (inspectContainer · id) .inspect with
      | .ok state =>
          if state = .running ∧ row.hmacSecret.isSome ∧ row.natsConnectPassword.isSome then
            match (replies .admission).admission with
            | .admitted => pure (some (.alreadyRunning id))
            | .unavailable => throw .admission
            | .rejected =>
                quarantineUnverifiedContainer replies id
                throw .admission
          else
            removeContainerForReplacement replies id
            clearReplaced replies id
            pure none
      | .notFound =>
          clearReplaced replies id
          pure none
      | .error => throw .actionUnavailable

/-- A new container, inspected. -/
def createVerified (credentials : Credentials) : Op Nat := do
  match ← call replies (createContainer · credentials) .create with
  | none => throw .createContainer
  | some id =>
      match ← call replies (inspectContainer · id) .inspectCreated with
      | .ok _ =>
          if (replies .inspectCreated).accepted then pure id
          else
            let _ ← call replies (removeContainer · id) .cleanup
            throw .imageIdentityUnavailable
      | .notFound =>
          let _ ← call replies (removeContainer · id) .cleanup
          throw .imageIdentityUnavailable
      | .error =>
          let _ ← call replies (removeContainer · id) .cleanup
          throw .imageIdentityUnavailable

/-- The start of a container that the row names, and the cleanup when it fails. -/
def startCreated (clear : Reply → World → Written × World) (id : Nat) : Op StartOutcome := do
  match ← call replies (startContainer · id) .start with
  | .ok _ => pure (.started id)
  | .notFound =>
      let _ ← call replies (removeContainer · id) .cleanup
      let _ ← call replies clear .clearFailed
      throw .startContainer
  | .error =>
      let _ ← call replies (removeContainer · id) .cleanup
      let _ ← call replies clear .clearFailed
      throw .startContainer

def startLocked : Op StartOutcome := do
  query replies .docker .dockerUnavailable
  query replies (.read .replacing) .agentUnavailable
  match ← makeRoom replies with
  | some outcome => pure outcome
  | none =>
      let credentials ← act newCredentials
      query replies .prepare .prepare
      let id ← createVerified replies credentials
      match ← call replies (write · (Row.set id credentials)) .persist with
      | .done => startCreated replies (write · (Row.clear id)) id
      | .unmatched =>
          let _ ← call replies (removeContainer · id) .cleanup
          throw .agentUnavailable
      | .failed =>
          let _ ← call replies (removeContainer · id) .cleanup
          throw .database

def startStoppedAsPlatformAdminLocked : Op StartOutcome := do
  query replies .docker .dockerUnavailable
  let credentials ← act newCredentials
  query replies .prepare .prepare
  let id ← createVerified replies credentials
  match ← call replies (writeInTransaction · (Row.set id credentials)) .persist with
  | .done => startCreated replies (writeInTransaction · (Row.clear id)) id
  | .unmatched =>
      let _ ← call replies (removeContainer · id) .cleanup
      throw .changedDuringLifecycle
  | .failed => throw .database

/-- `finish_lifecycle`. -/
def finishLifecycle {α : Type} (result : Except Failure α) : Op α := do
  match ← call replies commit .commit, result with
  | true, .ok value => pure value
  | false, .ok _ => throw .database
  | _, .error failure => throw failure

/-- `admit_idle_lifecycle` around an operation; `none` when work became active before. -/
def admitIdleLifecycle {α : Type} (operation : Op α) : Op (Option α) := do
  query replies .lock .database
  act begin
  if ← isIdle then
    let value ← operation
    pure (some value)
  else
    if ← call replies commit .commit then pure none else throw .database

def whileIdle {α : Type} (operation : Op α) : Op α := do
  match ← admitIdleLifecycle replies (attempt operation) with
  | none => throw .blockedByActiveWork
  | some result => finishLifecycle replies result

def start : Op StartOutcome :=
  whileIdle replies (startLocked replies)

def stopWithOutcome : Op StopOutcome :=
  whileIdle replies (stopWithOutcomeLocked replies)

def stop : Op Unit := do
  match ← stopWithOutcome replies with
  | .stopped => pure ()
  | .stillRunning => throw .stillRunningAfterStop
  | .unconfirmed => throw .stopUnverified

/-- The two steps of `replace_if_idle`. -/
def respawn : Op ReplaceOutcome := do
  match ← attempt (stopWithOutcomeLocked replies) with
  | .ok .stopped =>
      match ← attempt (startLocked replies) with
      | .ok _ => pure .respawned
      | .error failure => pure (.respawnFailed failure)
  | .ok .stillRunning => pure .stillRunning
  | .ok .unconfirmed => pure .unconfirmed
  | .error failure => pure (.stopFailed failure)

def replaceIfIdle : Op (Option ReplaceOutcome) := do
  match ← admitIdleLifecycle replies (respawn replies) with
  | none => pure none
  | some outcome =>
      if ← call replies commit .commit then pure (some outcome) else throw .database

/-- The steps of `replace_if_idle_as_platform_admin` under its lock. -/
def rollContainer (id : Nat) : Op ReplaceOutcome := do
  match ← attempt (stopAndRemoveContainerLocked replies id) with
  | .ok .stopped =>
      match ← call replies (writeInTransaction · (Row.clear id)) (.clear .stopping) with
      | .failed => throw .database
      | .unmatched => pure (.stopFailed .changedDuringLifecycle)
      | .done =>
          match ← attempt (startStoppedAsPlatformAdminLocked replies) with
          | .ok _ => pure .respawned
          | .error failure => pure (.respawnFailed failure)
  | .ok .stillRunning => pure .stillRunning
  | .ok .unconfirmed => pure .unconfirmed
  | .error failure => pure (.stopFailed failure)

def replaceIfIdleAsPlatformAdmin : Op (Option ReplaceOutcome) := do
  query replies .lock .database
  act begin
  let row ← readRow
  if !(replies .lock).accepted then
    if ← call replies commit .commit then throw .rollTargetChanged else throw .database
  else if ← isIdle then
    match row.containerId with
    | none =>
        if ← call replies commit .commit then throw .changedDuringLifecycle else throw .database
    | some id =>
        let outcome ← rollContainer replies id
        if ← call replies commit .commit then pure (some outcome) else throw .database
  else
    if ← call replies commit .commit then pure none else throw .database

/-- `reconcile_agent_if_container_absent_locked`. -/
def reconcileLocked (id : Nat) : Op Bool := do
  if !(replies .docker).answers then pure false
  else
    match ← call replies (inspectContainer · id) .inspect with
    | .notFound => reconcileStoppedAgent replies .stopping id
    | .ok _ =>
        query replies (.read .stopping) .agentUnavailable
        let row ← readRow
        if row.containerId ≠ some id then pure false
        else
          match (replies .admission).admission with
          | .admitted => pure (replies .admission).accepted
          | .unavailable => throw .admission
          | .rejected =>
              if ← call replies invalidate .invalidate then
                quarantineUnverifiedContainer replies id
                throw .admission
              else throw .database
    | .error => pure false

def reconcileAgentIfContainerAbsent (id : Nat) : Op Bool := do
  query replies .lock .database
  act begin
  let result ← attempt (reconcileLocked replies id)
  finishLifecycle replies result

end Operations

/-- Work of the agent is admitted or ends, its lease is renewed or runs out; a container exits or
goes away; or an operation runs, with the replies of its calls. -/
inductive Action where
  | work (working lease : Bool)
  | exits (id : Nat)
  | vanishes (id : Nat)
  | operate (operation : Operation) (replies : Site → Reply)

def operate (replies : Site → Reply) : Operation → World → World
  | .start, world => (perform (start replies) world).2
  | .stop, world => (perform (stop replies) world).2
  | .replace, world => (perform (replaceIfIdle replies) world).2
  | .roll, world => (perform (replaceIfIdleAsPlatformAdmin replies) world).2
  | .reconcile id, world => (perform (reconcileAgentIfContainerAbsent replies id) world).2

def exec (world : World) : Action → World
  | .work working lease => { world with working, row := { world.row with lease } }
  | .exits id => world.exit [id]
  | .vanishes id => world.setContainer id none
  | .operate operation replies => operate replies operation { world with operation }

/-- An agent that never had a container. -/
def fresh : World where
  row := ⟨none, none, none, false⟩
  working := false
  containers := fun _ => none
  credentials := fun _ => none
  nextContainer := 0
  nextUuid := 0
  operation := .stop
  transaction := ⟨none, false, false⟩
  confirmed := []
  cleared := []
  removals := []

end Forge.ContainerLifecycle
