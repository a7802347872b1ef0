import Forge.Library.CountedStore
import Mathlib.Data.List.Perm.Basic
import Mathlib.Data.String.Basic

/-! The write-ahead log of a sidecar: its files and counter, the connections that append to it, and
the task that drains it. -/

namespace Forge.SidecarWal

/-- A file of the log: the time that names it, its bytes, and the connection that appended it,
unless it is left from an earlier process. -/
structure WalFile where
  nanos : Int
  data : List UInt8
  writer : Option Nat
deriving DecidableEq, Repr

/-- What becomes of `move_file` without replacement: nothing is published; or the name is, and the
steps after that succeed or fail. -/
inductive FileMove where
  | failed
  | linked
  | unsynced
deriving DecidableEq, Repr

structure Wal where
  files : List WalFile
  pending : Nat
  dropped : Nat
  maxPending : Nat
deriving DecidableEq, Repr

namespace Wal

variable (wal : Wal)

def holds (nanos : Int) : Bool :=
  wal.files.any fun file => file.nanos = nanos

/-- `init_pending`, by a scan of the directory that may fail. -/
def initPending (scanned : Bool) : Wal :=
  { wal with pending := if scanned then wal.files.length else 0 }

/-- The check of `append`. -/
def full : Bool :=
  wal.maxPending ≤ wal.pending

def drop : Wal :=
  { wal with dropped := wal.dropped + 1 }

def publishFile (file : WalFile) (move : FileMove) : Wal :=
  if move = .failed || wal.holds file.nanos then wal
  else { wal with files := wal.files ++ [file] }

def publishes (file : WalFile) (move : FileMove) : Bool :=
  move = .linked && !wal.holds file.nanos

def countAppended : Wal :=
  { wal with pending := wal.pending + 1 }

/-- `remove_file`. -/
def removeFile (nanos : Int) : Wal :=
  { wal with files := wal.files.eraseP fun file => file.nanos = nanos }

/-- The saturating decrement of `acknowledge`. -/
def countAcknowledged : Wal :=
  { wal with pending := wal.pending - 1 }

/-- The names that `replay` reads, in order. -/
def sortedNames : List Int :=
  (wal.files.map WalFile.nanos).mergeSort fun a b => s!"{a}.json" ≤ s!"{b}.json"

end Wal

/-- Where `durably_publish` stands: before the check of `append`, past it, past the publication of
the file, past `append`, past a confirmed publish, past the removal of the file, at its end. -/
inductive Stage where
  | accepted (data : List UInt8)
  | admitted (data : List UInt8)
  | linked (nanos : Int)
  | appended (nanos : Int)
  | confirmed (nanos : Int)
  | removed
  | concluded
deriving DecidableEq, Repr

namespace Stage

/-- The check of `append` is past, and its file is not published yet. -/
def admits : Stage → Bool
  | .admitted _ => true
  | _ => false

def arrives : Stage → Bool
  | .linked _ => true
  | _ => false

def leaves : Stage → Bool
  | .removed => true
  | _ => false

def name? : Stage → Option Int
  | .linked nanos | .appended nanos | .confirmed nanos => some nanos
  | _ => none

end Stage

/-- Where the drain stands: between two drains; reading files up to a cutoff; publishing the first
of its entries; past a confirmed publish; past the removal of a file. -/
inductive Drain where
  | resting
  | reading (cutoff : Int) (names : List Int) (entries : List WalFile)
  | publishing (entries : List WalFile)
  | confirmed (entry : WalFile) (entries : List WalFile)
  | removed (entries : List WalFile)
deriving DecidableEq, Repr

namespace Drain

def leaves : Drain → Bool
  | .removed _ => true
  | _ => false

def entries : Drain → List WalFile
  | .resting => []
  | .reading _ _ entries => entries
  | .publishing entries => entries
  | .confirmed entry entries => entry :: entries
  | .removed entries => entries

end Drain

/-- A step of a connection: the check, the publication of its file at some time, the increment, the
publish with its flush, the removal, and the decrement. -/
inductive Input where
  | check
  | write (nanos : Int) (move : FileMove)
  | count
  | publish (confirmed : Bool)
  | remove (executed : Bool)
  | discount
deriving DecidableEq, Repr

/-- A step of the drain: the list of the files at some time, the read of the next one, the publish
of an entry with its flush, the removal, and the decrement. -/
inductive DrainInput where
  | list (now : Int)
  | read (executed : Bool)
  | publish (confirmed : Bool)
  | remove (executed : Bool)
  | discount
deriving DecidableEq, Repr

inductive Action where
  | accept (data : List UInt8)
  | connection (i : Nat) (input : Input)
  | drain (input : DrainInput)
  | restart (scanned : Bool)
deriving DecidableEq, Repr

/-- The log, the connections in the order in which they were accepted, and the drain. `returned`
and `delivered` record the connections whose `append` returned a path and those whose event a
confirmed publish carried. -/
structure World where
  wal : Wal
  connections : List Stage
  drain : Drain
  returned : List Nat
  delivered : List Nat
deriving DecidableEq, Repr

/-- `FLUSH_CONFIRM_TIMEOUT` in nanoseconds. -/
def flushConfirmTimeout : Int := 5000000000

namespace World

variable (world : World)

def setStage (i : Nat) (stage : Stage) : World :=
  { world with connections := world.connections.set i stage }

def setWal (wal : Wal) : World :=
  { world with wal }

def setDrain (drain : Drain) : World :=
  { world with drain }

/-- `durably_publish`, one step at a time. -/
def advance (i : Nat) : Stage → Input → World
  | .accepted data, .check =>
      if world.wal.full then (world.setStage i .concluded).setWal world.wal.drop
      else world.setStage i (.admitted data)
  | .admitted data, .write nanos move =>
      let file : WalFile := ⟨nanos, data, some i⟩
      (world.setStage i (if world.wal.publishes file move then .linked nanos else .concluded)).setWal
        (world.wal.publishFile file move)
  | .linked nanos, .count =>
      { (world.setStage i (.appended nanos)).setWal world.wal.countAppended with
        returned := i :: world.returned }
  | .appended nanos, .publish confirmed =>
      if confirmed then
        { world.setStage i (.confirmed nanos) with delivered := i :: world.delivered }
      else world.setStage i .concluded
  | .confirmed nanos, .remove executed =>
      if executed && world.wal.holds nanos then
        (world.setStage i .removed).setWal (world.wal.removeFile nanos)
      else world.setStage i .concluded
  | .removed, .discount => (world.setStage i .concluded).setWal world.wal.countAcknowledged
  | _, _ => world

/-- The entries of a completed `replay` that `replay_older_than` keeps. -/
def older (cutoff : Int) (entries : List WalFile) : List WalFile :=
  entries.filter fun entry => entry.nanos ≤ cutoff

/-- `drain_wal`, one step at a time. An entry that cannot be decoded is skipped like one whose
publish was not confirmed. -/
def drainStep : Drain → DrainInput → World
  | .resting, .list now =>
      world.setDrain (.reading (now - flushConfirmTimeout) world.wal.sortedNames [])
  | .reading cutoff names entries, .read executed =>
      match names with
      | [] => world.setDrain (.publishing (older cutoff entries))
      | name :: names =>
          match world.wal.files.find? fun file => file.nanos = name with
          | some file =>
              if executed then world.setDrain (.reading cutoff names (entries ++ [file]))
              else world.setDrain .resting
          | none => world.setDrain .resting
  | .publishing [], _ => world.setDrain .resting
  | .publishing (entry :: entries), .publish confirmed =>
      if confirmed then
        { world.setDrain (.confirmed entry entries) with
          delivered := entry.writer.toList ++ world.delivered }
      else world.setDrain (.publishing entries)
  | .confirmed entry entries, .remove executed =>
      if executed && world.wal.holds entry.nanos then
        (world.setDrain (.removed entries)).setWal (world.wal.removeFile entry.nanos)
      else world.setDrain (.publishing entries)
  | .removed entries, .discount =>
      (world.setDrain (.publishing entries)).setWal world.wal.countAcknowledged
  | _, _ => world

def restart (scanned : Bool) : World :=
  { world with
    wal := world.wal.initPending scanned
    connections := world.connections.map fun _ => .concluded
    drain := .resting }

def exec : Action → World
  | .accept data => { world with connections := world.connections ++ [.accepted data] }
  | .connection i input =>
      match world.connections[i]? with
      | some stage => world.advance i stage input
      | none => world
  | .drain input => world.drainStep world.drain input
  | .restart scanned => world.restart scanned

end World

end Forge.SidecarWal
