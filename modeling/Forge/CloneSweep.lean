import Forge.Library.Interleaving
import Forge.Library.MachineInt
import Forge.OrchestrationView

/-! The containers in which projects are cloned: how one is run, and how the sweep removes those
that crashed workers have left behind. -/

namespace Forge.CloneSweep

open Forge.Library.Interleaving
open Forge.Library.MachineInt
open Forge.Library.Text (splitOnce strip)
open Forge.OrchestrationView (isWhitespace)

section Times

/-- `splitn(3, …)`, if there are three pieces. -/
def splitThree (separator : Char) (text : List Char) :
    Option (List Char × List Char × List Char) := do
  let (first, rest) ← splitOnce separator text
  let (second, third) ← splitOnce separator rest
  return (first, second, third)

def parseI64 (text : List Char) : Option Int64 := parse (strip isWhitespace text)

/-- `none` is a panic. -/
def civilToUnixSecs (build : Build) (y m d hh mm ss : Int64) : Option Int64 :=
  if ¬ (1 ≤ m ∧ m ≤ 12) ∨ ¬ (1 ≤ d ∧ d ≤ 31) then some 0
  else do
    let y ← if m ≤ 2 then sub build y 1 else some y
    let era ← div build (← if 0 ≤ y then some y else sub build y 399) 400
    let yoe ← sub build y (← mul build era 400)
    let shifted ← if 2 < m then sub build m 3 else add build m 9
    let months ← div build (← add build (← mul build 153 shifted) 2) 5
    let doy ← sub build (← add build months d) 1
    let leap ← sub build (← add build (← mul build yoe 365) (← div build yoe 4))
      (← div build yoe 100)
    let doe ← add build leap doy
    let days ← sub build (← add build (← mul build era 146097) doe) 719468
    let hours ← add build (← mul build days 86400) (← mul build hh 3600)
    add build (← add build hours (← mul build mm 60)) ss

def readRfc3339 (text : List Char) : Option (Int64 × Int64 × Int64 × Int64 × Int64 × Int64) := do
  let (date, rest) ← splitOnce 'T' text
  let (y, mo, da) ← splitThree '-' date
  let timePart := (rest.takeWhile fun c => c ≠ 'Z' ∧ c ≠ '+').takeWhile (· ≠ '-')
  let (h, mi, se) ← splitThree ':' (timePart.takeWhile (· ≠ '.'))
  return (← parseI64 y, ← parseI64 mo, ← parseI64 da, ← parseI64 h, ← parseI64 mi, ← parseI64 se)

/-- Zero stands for a text that is not read; `none` is a panic. -/
def parseRfc3339Secs (build : Build) (text : List Char) : Option Int64 :=
  match readRfc3339 text with
  | none => some 0
  | some (y, mo, da, h, mi, se) => civilToUnixSecs build y mo da h mi se

example : parseRfc3339Secs .checked "2020-01-01T00:00:01.500000000Z".toList = some 1577836801 := by
  decide +kernel

end Times

section Calls

abbrev Id := Nat

inductive Phase where
  | created | running | exited
deriving DecidableEq

inductive Caller where
  | run | sweep
deriving DecidableEq

/-- The calls of the engine, the clock and the disk. -/
inductive Op where
  | unixNow
  | ensureEgressNetwork
  | writeSecretFile
  | createContainer (attempt : Nat)
  | startContainer (id : Id)
  | waitExit (id : Id)
  | inspectContainer (caller : Caller) (id : Id)
  | logsTail (id : Id)
  | readResultFile
  | forceRemove (caller : Caller) (id : Id)
  | listCloneContainers
deriving DecidableEq

structure Inspected where
  running : Option Bool
  exitCode : Option Int64
  created : Option (List Char)

structure Listed where
  id : Option Id
  state : Option Phase
  created : Option Int64

structure CloneResultFile where
  branch : Option (List Char)
  headSha : List Char
  bytes : UInt64
deriving DecidableEq

abbrev Answer : Op → Type
  | .unixNow => Int64
  | .createContainer _ => Id
  | .waitExit _ => Option Int64
  | .inspectContainer _ _ => Option Inspected
  | .readResultFile => CloneResultFile
  | .listCloneContainers => List Listed
  | _ => Unit

inductive Failure where
  | engine
  | rejected
  | panicked
deriving DecidableEq

abbrev Docker (α : Type) := Attempt Op Answer Failure α

def call (operation : Op) : Docker (Answer operation) := Attempt.call operation

structure CloneContainerState where
  running : Bool
  exitCode : Int64
  createdEpochSecs : Int64
deriving DecidableEq

structure CloneContainerSummary where
  id : Id
  createdEpochSecs : Int64
  running : Bool
deriving DecidableEq

variable (build : Build)

def Inspected.createdEpochSecs (info : Inspected) : Option Int64 :=
  match info.created with
  | none => some 0
  | some text => parseRfc3339Secs build text

def inspectContainer (caller : Caller) (id : Id) : Docker (Option CloneContainerState) := do
  match ← call (.inspectContainer caller id) with
  | none => return none
  | some info =>
      match info.createdEpochSecs build with
      | none => Attempt.fail .panicked
      | some created => return some ⟨info.running.getD false, info.exitCode.getD 0, created⟩

def Listed.summary (listed : Listed) : Option CloneContainerSummary :=
  listed.id.map fun id => ⟨id, listed.created.getD 0, listed.state = some .running⟩

def listCloneContainers : Docker (List CloneContainerSummary) := do
  let summaries : List Listed ← call .listCloneContainers
  return summaries.filterMap Listed.summary

end Calls

section Sweep

variable (build : Build) (maxAge : Int64)

def resolve (summary : CloneContainerSummary) : Docker (Option (Bool × Int64)) :=
  if summary.createdEpochSecs = 0 then do
    match ← (inspectContainer build .sweep summary.id).observe with
    | .ok (some state) => return some (state.running, state.createdEpochSecs)
    | .ok none => return none
    | .error .panicked => Attempt.fail .panicked
    | .error _ => return none
  else pure (some (summary.running, summary.createdEpochSecs))

def shouldReap (now : Int64) (running : Bool) (createdEpochSecs : Int64) : Bool :=
  !running || createdEpochSecs = 0 || decide (maxAge ≤ saturatingSub now createdEpochSecs)

def sweepOne (now : Int64) (reaped : Nat) (summary : CloneContainerSummary) : Docker Nat := do
  match ← resolve build summary with
  | none => return reaped
  | some (running, created) =>
      if shouldReap maxAge now running created then
        match ← (call (.forceRemove .sweep summary.id)).observe with
        | .ok () => return reaped + 1
        | .error _ => return reaped
      else return reaped

def sweepEach (now : Int64) : Nat → List CloneContainerSummary → Docker Nat
  | reaped, [] => pure reaped
  | reaped, summary :: rest => do
      sweepEach now (← sweepOne build maxAge now reaped summary) rest

def sweepOrphans : Docker Nat := do
  let now : Int64 ← call .unixNow
  sweepEach build maxAge now 0 (← listCloneContainers)

end Sweep

section Run

structure CloneRunSpec where
  attempt : Nat
  /-- Whether there is a credential, which is then written to a file. -/
  credential : Bool
  /-- Whether the security policy accepts the configuration. -/
  secure : Bool

inductive CloneRunOutcome where
  | ready (result : CloneResultFile)
  | failed (exitCode : Int64)
  | tooLarge
  | timeout
deriving DecidableEq

def cloneExitTooLarge : Int64 := 5

def resultValid (result : CloneResultFile) : Bool := strip isWhitespace result.headSha ≠ []

def captureLogTail (id : Id) : Docker Unit := do
  let _ ← (call (.logsTail id)).observe
  return ()

def guardRun (id : Id) : Docker Unit := do
  let _ ← (call (.forceRemove .run id)).observe
  return ()

def classifyExit (id : Id) (exitCode : Int64) : Docker CloneRunOutcome :=
  if exitCode = cloneExitTooLarge then do
    captureLogTail id
    return .tooLarge
  else if exitCode ≠ 0 then do
    captureLogTail id
    return .failed exitCode
  else do
    match ← (call .readResultFile).observe with
    | .ok result =>
        if resultValid result then return .ready { result with branch := result.branch.filter (· ≠ []) }
        else
          captureLogTail id
          return .failed (-1)
    | .error _ =>
        captureLogTail id
        return .failed (-1)

variable (build : Build)

def recoverExitCode (id : Id) : Docker (Option Int64) := do
  match ← (inspectContainer build .run id).observe with
  | .ok (some state) => return if state.running then none else some state.exitCode
  | .error .panicked => Attempt.fail .panicked
  | _ => return none

def recoverFinishedAtTimeout (id : Id) : Docker (Option CloneRunOutcome) := do
  match ← (inspectContainer build .run id).observe with
  | .ok (some state) =>
      if state.running ∨ state.exitCode ≠ 0 then return none
      else
        match ← (call .readResultFile).observe with
        | .ok result =>
            return if resultValid result then
              some (.ready { result with branch := result.branch.filter (· ≠ []) })
            else none
        | .error _ => return none
  | .error .panicked => Attempt.fail .panicked
  | _ => return none

/-- The container has been started: it is waited for, and what came out is told. -/
def awaitClone (id : Id) : Docker CloneRunOutcome := do
  match ← (call (.waitExit id)).observe with
  | .ok (some code) =>
      let outcome ← classifyExit id code
      guardRun id
      return outcome
  | .error err =>
      match ← recoverExitCode build id with
      | some code =>
          let outcome ← classifyExit id code
          guardRun id
          return outcome
      | none =>
          guardRun id
          Attempt.fail err
  | .ok none =>
      let outcome ← recoverFinishedAtTimeout build id
      guardRun id
      return outcome.getD .timeout

def runContainer (spec : CloneRunSpec) : Docker CloneRunOutcome :=
  if spec.secure then do
    let id : Id ← call (.createContainer spec.attempt)
    match ← (call (.startContainer id)).observe with
    | .ok () => awaitClone build id
    | .error err =>
        guardRun id
        Attempt.fail err
  else Attempt.fail .rejected

def runClone (spec : CloneRunSpec) : Docker CloneRunOutcome := do
  call .ensureEgressNetwork
  if spec.credential then
    call .writeSecretFile
    runContainer build spec
  else runContainer build spec

end Run

end Forge.CloneSweep
