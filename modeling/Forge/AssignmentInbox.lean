import Forge.ResultConsumer
import Forge.Library.DurableEntry
import Forge.Library.Interleaving
import Mathlib.Data.List.Sort

/-! The sidecar's assignment inbox: the files of every delivery, the programs that the main loop
and the spawned tasks run over them, and the runs in which these interleave. -/

namespace Forge.AssignmentInbox

open Forge.Library.DurableEntry
open Forge.Library.Identifier
open Forge.Library.Interleaving
open Forge.ResultConsumer
open Forge.Schema

/-! ## Files -/

structure PendingFile (id : Uuid) where
  assignment : TaskAssignment
  modified : Timestamp
  named : assignment.deliveryId = some id
deriving DecidableEq

structure ResultFile (id : Uuid) where
  result : TaskResult
  named : result.deliveryId = some id
deriving DecidableEq

inductive Dir where
  | pending | results | completed
deriving DecidableEq

/-- The three files of a delivery, the results of it that reached the result stream, and what
happened to it so far: a result or a tombstone got its name (`finished`) and was on disk when its
directory was synced (`kept`, `stored`), and a tombstone was purged. -/
structure Delivery (id : Uuid) where
  pending : Entry (PendingFile id)
  result : Entry (ResultFile id)
  completed : Entry Timestamp
  published : List TaskResult
  finished : Bool
  purged : Bool
  kept : Bool
  stored : List TaskResult

namespace Delivery

variable {id : Uuid}

/-- A delivery with these files on disk. -/
def opened (pending : Option (PendingFile id)) (result : Option (ResultFile id))
    (completed : Option Timestamp) : Delivery id where
  pending := .settled pending
  result := .settled result
  completed := .settled completed
  published := []
  finished := result.isSome || completed.isSome
  purged := false
  kept := result.isSome || completed.isSome
  stored := (result.map (·.result)).toList

def present (delivery : Delivery id) : Dir → Bool
  | .pending => delivery.pending.present
  | .results => delivery.result.present
  | .completed => delivery.completed.present

def linkPending (delivery : Delivery id) (file : PendingFile id) : Delivery id :=
  { delivery with pending := delivery.pending.change (some file) }

def linkResult (delivery : Delivery id) (file : ResultFile id) : Delivery id :=
  { delivery with result := delivery.result.change (some file), finished := true }

def linkTombstone (delivery : Delivery id) (modified : Timestamp) : Delivery id :=
  { delivery with completed := delivery.completed.change (some modified), finished := true }

def unlink (delivery : Delivery id) : Dir → Delivery id
  | .pending => { delivery with pending := delivery.pending.change none }
  | .results => { delivery with result := delivery.result.change none }
  | .completed =>
      { delivery with completed := delivery.completed.change none, purged := true }

def sync (delivery : Delivery id) : Dir → Delivery id
  | .pending => { delivery with pending := delivery.pending.sync }
  | .results =>
      { delivery with
        result := delivery.result.sync
        kept := delivery.kept || delivery.result.present
        stored := (delivery.result.current.map (·.result)).toList ++ delivery.stored }
  | .completed =>
      { delivery with
        completed := delivery.completed.sync
        kept := delivery.kept || delivery.completed.present }

def publish (delivery : Delivery id) (result : TaskResult) : Delivery id :=
  { delivery with published := result :: delivery.published }

/-- What a loss of power leaves: a version of every file. A result or a tombstone that was on disk
before or is now counts as kept, and nothing else as finished. -/
def restore (delivery : Delivery id) (pick : Dir → Nat) : Delivery id :=
  let result := delivery.result.restore (pick .results)
  let completed := delivery.completed.restore (pick .completed)
  let kept := delivery.kept || result.present || completed.present
  { delivery with
    pending := delivery.pending.restore (pick .pending)
    result
    completed
    finished := kept
    kept
    stored := (result.current.map (·.result)).toList ++ delivery.stored }

end Delivery

abbrev Inbox := ∀ id : Uuid, Delivery id

namespace Inbox

def edit (inbox : Inbox) (id : Uuid) (f : Delivery id → Delivery id) : Inbox :=
  Function.update inbox id (f (inbox id))

def sync (inbox : Inbox) (dir : Dir) : Inbox :=
  fun id => (inbox id).sync dir

def publish (inbox : Inbox) (result : TaskResult) : Inbox :=
  match result.deliveryId with
  | some id => inbox.edit id fun delivery => delivery.publish result
  | none => inbox

end Inbox

/-! ## Operations -/

inductive IoError where
  | alreadyExists | notFound | other
deriving DecidableEq

inductive DispatchAction where
  | ack | nak | term
deriving DecidableEq

inductive AssignmentInboxState where
  | accepted | pending | completed
deriving DecidableEq

inductive Asker where
  | accept | listing | storeResult | pendingResult | markCompleted
deriving DecidableEq

inductive Work where
  | assigned (assignment : TaskAssignment)
  | stored (result : TaskResult)

def Work.deliveryId : Work → Option Uuid
  | .assigned assignment => assignment.deliveryId
  | .stored result => result.deliveryId

/-- The awaited calls. Files are linked from a temporary file, a tombstone also from the pending
file; nothing else reads the temporary ones. -/
inductive Op where
  | ensureDirs
  | writeTemp (dir : Dir) (id : Uuid)
  | removeTemp (dir : Dir) (id : Uuid)
  | pathExists (asker : Asker) (dir : Dir) (id : Uuid)
  | readDir (dir : Dir)
  | readPending (id : Uuid)
  | readResult (id : Uuid)
  | linkPending (id : Uuid) (file : PendingFile id)
  | linkResult (id : Uuid) (file : ResultFile id)
  | linkTombstone (id : Uuid) (modified : Timestamp)
  | linkCompleted (id : Uuid)
  | syncDir (dir : Dir)
  | removeFile (dir : Dir) (id : Uuid)
  | modified (id : Uuid)
  | now
  | runCli (assignment : TaskAssignment)
  | publish (result : TaskResult)
  | tryStart (work : Work)
  | finish (id : Uuid)
  | answer (deliveryId : Option Uuid) (action : DispatchAction)

@[reducible] def Answer : Op → Type
  | .writeTemp _ _ => Timestamp
  | .pathExists _ _ _ => Bool
  | .readDir _ => List Uuid
  | .readPending id => PendingFile id
  | .readResult id => ResultFile id
  | .modified _ => Timestamp
  | .now => Timestamp
  | .runCli _ => TaskOutcome
  | .tryStart _ => Bool
  | _ => Unit

abbrev Io (α : Type) := Attempt Op Answer IoError α

/-- How an operation turns out: whether it fails, whether a result reached the stream all the
same, the names that a listing met while files came and went, the clock, what the CLI did. -/
structure Choice where
  fails : Bool := false
  reached : Bool := false
  names : List Uuid := []
  clock : Timestamp := 0
  outcome : TaskOutcome := .completed ""

def access {α : Type} (inbox : Inbox) (choice : Choice) (result : Inbox × Except IoError α) :
    Inbox × Except IoError α :=
  if choice.fails then (inbox, .error .other) else result

def Inbox.link (inbox : Inbox) (id : Uuid) (taken : Bool) (f : Delivery id → Delivery id) :
    Inbox × Except IoError Unit :=
  if taken then (inbox, .error .alreadyExists) else (inbox.edit id f, .ok ())

def found {α : Type} : Option α → Except IoError α
  | some file => .ok file
  | none => .error .notFound

def perform (inbox : Inbox) :
    (operation : Op) → Choice → Bool → Inbox × Except IoError (Answer operation)
  | .ensureDirs, choice, _ => access inbox choice (inbox, .ok ())
  | .writeTemp _ _, choice, _ => access inbox choice (inbox, .ok choice.clock)
  | .removeTemp _ _, choice, _ => access inbox choice (inbox, .ok ())
  | .pathExists _ dir id, choice, _ =>
      access inbox choice (inbox, .ok ((inbox id).present dir))
  | .readDir _, choice, _ => access inbox choice (inbox, .ok choice.names)
  | .readPending id, choice, _ =>
      access inbox choice (inbox, found (inbox id).pending.current)
  | .readResult id, choice, _ =>
      access inbox choice (inbox, found (inbox id).result.current)
  | .linkPending id file, choice, _ =>
      access inbox choice (inbox.link id (inbox id).pending.present (·.linkPending file))
  | .linkResult id file, choice, _ =>
      access inbox choice (inbox.link id (inbox id).result.present (·.linkResult file))
  | .linkTombstone id modified, choice, _ =>
      access inbox choice (inbox.link id (inbox id).completed.present (·.linkTombstone modified))
  | .linkCompleted id, choice, _ =>
      access inbox choice <|
        match (inbox id).pending.current with
        | none => (inbox, .error .notFound)
        | some file =>
            inbox.link id (inbox id).completed.present (·.linkTombstone file.modified)
  | .syncDir dir, choice, _ => access inbox choice (inbox.sync dir, .ok ())
  | .removeFile dir id, choice, _ =>
      access inbox choice <|
        if (inbox id).present dir then (inbox.edit id (·.unlink dir), .ok ())
        else (inbox, .error .notFound)
  | .modified id, choice, _ =>
      access inbox choice (inbox, found (inbox id).completed.current)
  | .now, choice, _ => (inbox, .ok choice.clock)
  | .runCli _, choice, _ => (inbox, .ok choice.outcome)
  | .publish result, choice, _ =>
      if choice.fails then
        (if choice.reached then inbox.publish result else inbox, .error .other)
      else (inbox.publish result, .ok ())
  | .tryStart _, _, free => (inbox, .ok free)
  | .finish _, _, _ => (inbox, .ok ())
  | .answer _ _, _, _ => (inbox, .ok ())

/-! ## The inbox -/

def call (operation : Op) : Io (Answer operation) := Attempt.call operation

def pathExists (asker : Asker) (dir : Dir) (id : Uuid) : Io Bool :=
  call (.pathExists asker dir id)

def moveFile (hardLink removeSource : Io Unit) (target source : Dir) : Io Unit := do
  hardLink
  call (.syncDir target)
  removeSource
  call (.syncDir target)
  if source ≠ target then call (.syncDir source) else pure ()

def removeIfPresent (remove : Io Unit) (dir : Dir) : Io Unit := do
  match ← remove.observe with
  | .ok () => call (.syncDir dir)
  | .error .notFound => pure ()
  | .error err => .fail err

/-- The pending file of a delivery that has none yet. -/
def writePending (id : Uuid) (assignment : TaskAssignment)
    (named : assignment.deliveryId = some id) : Io AssignmentInboxState := do
  let modified ← call (.writeTemp .pending id)
  match ← (moveFile (call (.linkPending id ⟨assignment, modified, named⟩))
      (call (.removeTemp .pending id)) .pending .pending).observe with
  | .ok () => pure .accepted
  | .error .alreadyExists =>
      let _ ← Attempt.observe (call (.removeTemp .pending id))
      pure .pending
  | .error err => .fail err

def accept (assignment : TaskAssignment) : Io AssignmentInboxState :=
  match named : assignment.deliveryId with
  | none => .fail .other
  | some id => do
      call .ensureDirs
      if ← pathExists .accept .completed id then pure .completed
      else if ← pathExists .accept .pending id then pure .pending
      else writePending id assignment named

def movePending (id : Uuid) : Io Unit := do
  match ← (moveFile (call (.linkCompleted id)) (call (.removeFile .pending id))
      .completed .pending).observe with
  | .ok () => pure ()
  | .error .alreadyExists => pure ()
  | .error err => .fail err

def writeTombstone (id : Uuid) : Io Unit := do
  let modified ← call (.writeTemp .completed id)
  match ← (moveFile (call (.linkTombstone id modified)) (call (.removeTemp .completed id))
      .completed .completed).observe with
  | .ok () => pure ()
  | .error .alreadyExists => removeIfPresent (call (.removeTemp .completed id)) .completed
  | .error err => .fail err

def commitTombstone (id : Uuid) : Io Unit := do
  if ← pathExists .markCompleted .completed id then pure ()
  else if ← pathExists .markCompleted .pending id then movePending id
  else writeTombstone id

def markCompleted (id : Uuid) : Io Unit := do
  call .ensureDirs
  commitTombstone id
  removeIfPresent (call (.removeFile .pending id)) .pending
  removeIfPresent (call (.removeFile .results id)) .results

def writeResult (id : Uuid) (file : ResultFile id) : Io Unit := do
  let _ ← call (.writeTemp .results id)
  match ← (moveFile (call (.linkResult id file)) (call (.removeTemp .results id))
      .results .results).observe with
  | .ok () => pure ()
  | .error .alreadyExists =>
      let _ ← Attempt.observe (call (.removeTemp .results id))
      pure ()
  | .error err => .fail err

def storeResult (result : TaskResult) : Io Unit :=
  match named : result.deliveryId with
  | none => .fail .other
  | some id => do
      call .ensureDirs
      if ← pathExists .storeResult .completed id then pure ()
      else if ← pathExists .storeResult .results id then pure ()
      else writeResult id ⟨result, named⟩

def pendingResult (id : Uuid) : Io (Option TaskResult) := do
  if ← pathExists .pendingResult .results id then
    let file ← call (.readResult id)
    pure (some file.result)
  else pure none

def sortPaths (names : List Uuid) : List Uuid :=
  names.insertionSort fun left right => left.value ≤ right.value

def readAssignments : List Uuid → Io (List TaskAssignment)
  | [] => pure []
  | id :: rest => do
      if ← pathExists .listing .completed id then
        markCompleted id
        readAssignments rest
      else
        let file ← call (.readPending id)
        let out ← readAssignments rest
        pure (file.assignment :: out)

def pendingAssignments : Io (List TaskAssignment) := do
  let names ← call (.readDir .pending)
  readAssignments (sortPaths names)

def readResults : List Uuid → Io (List TaskResult)
  | [] => pure []
  | id :: rest => do
      if ← pathExists .listing .completed id then
        markCompleted id
        readResults rest
      else
        let file ← call (.readResult id)
        let out ← readResults rest
        pure (file.result :: out)

def pendingResults : Io (List TaskResult) := do
  let names ← call (.readDir .results)
  readResults (sortPaths names)

def purgeTombstones (cutoff : Timestamp) : List Uuid → Nat → Io Nat
  | [], purged => pure purged
  | id :: rest, purged => do
      let modified : Timestamp ← call (.modified id)
      if modified ≤ cutoff then
        markCompleted id
        call (.removeFile .completed id)
        purgeTombstones cutoff rest (purged + 1)
      else purgeTombstones cutoff rest purged

def completedTombstoneMaxAge : Int := 24 * 60 * 60 * second

def purgeCompletedOlderThan (maxAge : Int) : Io Nat := do
  let now : Timestamp ← call .now
  let names ← call (.readDir .completed)
  let purged ← purgeTombstones (now - maxAge) names 0
  if 0 < purged then
    call (.syncDir .completed)
    pure purged
  else pure purged

/-! ## The handler -/

structure Sidecar where
  agentId : String
  containerGenerationFingerprint : Option String

def validateDurableAssignment (assignment : TaskAssignment) : Except String Unit :=
  if assignment.deliveryId = none then .error "missing_delivery_id"
  else if assignment.attempt = none then .error "missing_attempt"
  else if assignment.leaseExpiresAt = none then .error "missing_lease_expires_at"
  else .ok ()

def validateContainerGeneration (assignment : TaskAssignment)
    (expectedFingerprint : Option String) : Except String Unit :=
  match expectedFingerprint, assignment.containerGenerationFingerprint with
  | none, _ => .ok ()
  | some expected, some actual =>
      if actual = expected then .ok () else .error "stale_container_generation"
  | some _, none => .error "missing_container_generation_fingerprint"

def publishStoredResult (result : TaskResult) : Io Unit :=
  match result.deliveryId with
  | none => .fail .other
  | some id => do
      call (.publish result)
      markCompleted id

def executeAssignment (assignment : TaskAssignment) : Io Unit := do
  let outcome ← call (.runCli assignment)
  let result : TaskResult :=
    { deliveryId := assignment.deliveryId
      attempt := assignment.attempt.map Int.ofNat
      taskId := assignment.taskId
      agentId := assignment.agentId
      outcome }
  match result.deliveryId with
  | none => .fail .other
  | some _ =>
      storeResult result
      publishStoredResult result

def Work.body (id : Uuid) : Work → Io Unit
  | .assigned assignment => do
      match ← pendingResult id with
      | some result => publishStoredResult result
      | none => executeAssignment assignment
  | .stored result => publishStoredResult result

inductive Actor where
  | main
  | task (id : Uuid)
deriving DecidableEq

abbrev Program := Prog Op (fun operation => Except IoError (Answer operation)) Unit

def Work.task (id : Uuid) (work : Work) : Program :=
  Prog.bind (work.body id) fun _ => .op (.finish id) fun _ => .done ()

def machine : Machine Inbox Actor Op Choice fun operation => Except IoError (Answer operation)
    where
  perform := perform
  starts
    | .tryStart work => work.deliveryId.map fun id => (.task id, work.task id)
    | _ => none

def scheduleAssignment (assignment : TaskAssignment) : Io Unit :=
  match assignment.deliveryId with
  | none => pure ()
  | some _ => do
      let _ ← call (.tryStart (.assigned assignment))
      pure ()

def scheduleStoredResult (result : TaskResult) : Io Unit :=
  match result.deliveryId with
  | none => pure ()
  | some _ => do
      let _ ← call (.tryStart (.stored result))
      pure ()

namespace Sidecar

variable (sidecar : Sidecar)

def Admits (assignment : TaskAssignment) : Prop :=
  assignment.agentId.toText = sidecar.agentId ∧
  validateContainerGeneration assignment sidecar.containerGenerationFingerprint = .ok () ∧
  validateDurableAssignment assignment = .ok ()

/-- The decoding of the payload is given. -/
def dispatch (payload : Except String TaskAssignment) : Io DispatchAction :=
  match payload with
  | .error _ => pure .term
  | .ok assignment =>
      if assignment.agentId.toText ≠ sidecar.agentId then pure .term
      else
        match validateContainerGeneration assignment sidecar.containerGenerationFingerprint,
          validateDurableAssignment assignment with
        | .error _, _ => pure .term
        | .ok (), .error _ => pure .term
        | .ok (), .ok () => do
            match ← (accept assignment).observe with
            | .ok .accepted =>
                scheduleAssignment assignment
                pure .ack
            | .ok .pending =>
                scheduleAssignment assignment
                pure .ack
            | .ok .completed => pure .ack
            | .error _ => pure .nak

def onMessage (payload : Except String TaskAssignment) : Program :=
  Prog.bind (sidecar.dispatch payload) fun
    | .ok action =>
        .op (.answer (payload.toOption.bind (·.deliveryId)) action) fun _ => .done ()
    | .error _ => .done ()

def dropAssignment (assignment : TaskAssignment) : Io Unit :=
  match assignment.deliveryId with
  | none => pure ()
  | some id => do
      let _ ← (markCompleted id).observe
      pure ()

def replayAssignment (assignment : TaskAssignment) : Io Unit :=
  if assignment.agentId.toText ≠ sidecar.agentId then pure ()
  else
    match validateContainerGeneration assignment sidecar.containerGenerationFingerprint,
      validateDurableAssignment assignment with
    | .error _, _ => dropAssignment assignment
    | .ok (), .error _ => dropAssignment assignment
    | .ok (), .ok () => scheduleAssignment assignment

def replayReadyResults : Io Unit := do
  let results ← pendingResults
  results.forM scheduleStoredResult

def replayPending : Io Unit := do
  replayReadyResults
  let pending ← pendingAssignments
  pending.forM sidecar.replayAssignment
  let _ ← purgeCompletedOlderThan completedTombstoneMaxAge
  pure ()

def onReplay : Program :=
  Prog.bind sidecar.replayPending fun _ => .done ()

end Sidecar

/-! ## Runs -/

abbrev State := Pool Inbox Actor Op fun operation => Except IoError (Answer operation)

/-- The main loop takes a message or a replay tick when it is done with the last; a kill ends the
process, a loss of power also leaves the disk as it was. -/
inductive Action where
  | step (actor : Actor) (choice : Choice)
  | message (payload : Except String TaskAssignment)
  | replay
  | kill
  | powerLoss (pick : Uuid → Dir → Nat)

def started (inbox : Inbox) : State :=
  ⟨inbox, fun _ => .done ()⟩

def exec (sidecar : Sidecar) (state : State) : Action → State
  | .step actor choice => state.step machine actor choice
  | .message payload => state.begin .main (sidecar.onMessage payload)
  | .replay => state.begin .main sidecar.onReplay
  | .kill => started state.state
  | .powerLoss pick => started fun id => (state.state id).restore (pick id)

end Forge.AssignmentInbox
