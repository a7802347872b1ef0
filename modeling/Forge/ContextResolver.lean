import Forge.CredentialConsumer
import Mathlib.Data.List.Sort

/-! The context that is resolved for a task: memories within a budget, suggestions, and what a
user pins and removes. -/

namespace Forge.ContextResolver

open Forge.CredentialConsumer (CliToolKind)
open Forge.Library.Identifier
open Forge.Schema

inductive ContextItemKind where
  | memory | skill
deriving DecidableEq, Repr

def ContextItemKind.discriminant : ContextItemKind → Nat
  | memory => 0
  | skill => 1

inductive DegradationReason where
  | budgetTruncated | runtimeCapabilityFallback
deriving DecidableEq, Repr

structure RuntimeCapability where
  cliTool : Option CliToolKind
  providerName : Option String
  runtimeKind : RuntimeKind
  maxContextTokens : UInt32
  supportsSkillsMount : Bool
  supportsHooks : Bool
  supportsSubagents : Bool
  supportsMcpBridge : Bool
  supportsTerminal : Bool
  supportsImageInput : Bool
deriving DecidableEq

structure ResolvedItemRef where
  id : Uuid
  kind : ContextItemKind
  title : String
  scopeKind : Option String
  scopeId : Option Uuid
  sensitivity : Option String
  estimatedTokens : UInt32
  lastUsedAt : Option Timestamp
  lastVerifiedAt : Option Timestamp
  why : String
deriving DecidableEq

structure ResolvedContext where
  applied : List ResolvedItemRef
  suggested : List ResolvedItemRef
  capability : RuntimeCapability
  degradation : List DegradationReason
  envelopeVersion : String
deriving DecidableEq

def ResolvedContext.items (resolved : ResolvedContext) : List ResolvedItemRef :=
  resolved.applied ++ resolved.suggested

structure ContextSelection where
  pinnedItemIds : List Uuid
  removedItemIds : List Uuid

structure SelectedContext where
  resolved : ResolvedContext
  warnings : List String

section Selection

def itemLe (left right : ResolvedItemRef) : Bool :=
  decide (left.kind.discriminant < right.kind.discriminant
    ∨ left.kind = right.kind ∧ left.id.value ≤ right.id.value)

def byId (items : List ResolvedItemRef) (id : Uuid) : Option ResolvedItemRef :=
  ((items.insertionSort fun left right => itemLe left right).filter fun item =>
    item.id = id).getLast?

def notInjectable (id : Uuid) : String :=
  "pinned item " ++ id.toText ++ " is not injectable by the current envelope"

def outsideDefault (id : Uuid) : String :=
  "pinned item " ++ id.toText ++ " was outside the default selection"

/-- The items that the pins name, in the order of the pins, and what is warned of. -/
def pinItems (resolved : ResolvedContext) (removed : List Uuid) :
    List Uuid → List ResolvedItemRef × List String
  | [] => ([], [])
  | id :: rest =>
      let (applied, warnings) := pinItems resolved removed rest
      if id ∈ removed then (applied, warnings)
      else match byId resolved.items id with
        | none => (applied, warnings)
        | some item =>
            if item.kind ≠ .memory then (applied, notInjectable id :: warnings)
            else if resolved.suggested.any fun candidate => candidate.id = id then
              (item :: applied, outsideDefault id :: warnings)
            else (item :: applied, warnings)

def applyContextSelection (resolved : ResolvedContext) (selection : ContextSelection) :
    SelectedContext :=
  let removed := selection.removedItemIds
  let pinned := pinItems resolved removed selection.pinnedItemIds
  let applied := pinned.1 ++ resolved.applied.filter fun item =>
    !(decide (item.id ∈ removed) || decide (item.id ∈ selection.pinnedItemIds))
  let appliedIds := applied.map fun item => item.id
  let suggested := (resolved.suggested ++ resolved.applied).filter fun item =>
    !decide (item.id ∈ appliedIds) && !decide (item.id ∈ removed)
  { resolved := { resolved with applied := applied, suggested := suggested }
    warnings := pinned.2 }

end Selection

/-- A row of the memories; how sure one is of it is a number that only the reason prints. -/
structure MemoryCandidate (Confidence : Type) where
  id : Uuid
  title : String
  scopeKind : String
  scopeId : Uuid
  sensitivity : String
  estimatedTokens : Int64
  lastUsedAt : Option Timestamp
  lastVerifiedAt : Option Timestamp
  confidence : Option Confidence

section Budget

variable {Confidence : Type} (memoryWhy : Option Confidence → Option Timestamp → String)

/-- `u32::saturating_add`. -/
def saturatingAdd (left right : UInt32) : UInt32 :=
  UInt32.ofNat (min (left.toNat + right.toNat) (2 ^ 32 - 1))

/-- `u32::try_from(tokens.max(1)).unwrap_or(u32::MAX)`. -/
def estimate (tokens : Int64) : UInt32 :=
  UInt32.ofNat (min (max tokens.toInt 1).toNat (2 ^ 32 - 1))

def memoryItem (row : MemoryCandidate Confidence) : ResolvedItemRef where
  id := row.id
  kind := .memory
  title := row.title
  scopeKind := some row.scopeKind
  scopeId := some row.scopeId
  sensitivity := some row.sensitivity
  estimatedTokens := estimate row.estimatedTokens
  lastUsedAt := row.lastUsedAt
  lastVerifiedAt := row.lastVerifiedAt
  why := memoryWhy row.confidence row.lastVerifiedAt

structure Budget where
  used : UInt32
  truncated : Bool
  applied : List ResolvedItemRef
  suggested : List ResolvedItemRef

def spend (maxContextTokens : UInt32) (budget : Budget) (row : MemoryCandidate Confidence) :
    Budget :=
  let item := memoryItem memoryWhy row
  let used := saturatingAdd budget.used item.estimatedTokens
  if used ≤ maxContextTokens then
    { budget with used := used, applied := budget.applied ++ [item] }
  else { budget with truncated := true, suggested := budget.suggested ++ [item] }

def applyBudget (rows : List (MemoryCandidate Confidence)) (maxContextTokens : UInt32) : Budget :=
  rows.foldl (spend memoryWhy maxContextTokens) ⟨0, false, [], []⟩

end Budget

end Forge.ContextResolver
