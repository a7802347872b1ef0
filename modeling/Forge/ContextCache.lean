import Forge.ContextResolver
import Forge.Library.CompactJson
import Forge.Library.Interleaving
import Forge.SkillService

/-! The resolver of contexts with its caches: a memo of each instance and a store that the
instances share, under a key of the task, the agent and the scope. -/

namespace Forge.ContextCache

open Forge.ContextResolver
open Forge.CredentialConsumer (CliToolKind)
open Forge.HookEvents (trim)
open Forge.Library.CompactJson
open Forge.Library.Identifier
open Forge.Library.Interleaving
open Forge.Library.JsonDocument (Json)
open Forge.OrchestrationView (trimIsEmpty)
open Forge.Schema (Timestamp second)
open Forge.SkillDomain (AppResult ErrorKind)
open Forge.SkillService (ScopedRead)

structure ContextTaskSnapshot where
  taskId : Uuid
  title : String
  description : Option String
  params : Option Json

structure AgentRuntimeRecord where
  cliTool : Option String
  provider : Option String

structure SkillSuggestionCandidate where
  id : Uuid
  name : String
  scopeKind : Option String
  scopeId : Option Uuid
  sensitivity : String

section Domain

def taskSearchText (snapshot : ContextTaskSnapshot) : String :=
  let named := fun (params : Json) => ["task", "message"].filterMap fun key =>
    (params.get key).bind Json.asStr
  " ".intercalate ([snapshot.title] ++ snapshot.description.toList
    ++ (snapshot.params.map named).getD [])

def skillSuggestionItem (candidate : SkillSuggestionCandidate) : ResolvedItemRef where
  id := candidate.id
  kind := .skill
  title := candidate.name
  scopeKind := candidate.scopeKind
  scopeId := candidate.scopeId
  sensitivity := some candidate.sensitivity
  estimatedTokens := 0
  lastUsedAt := none
  lastVerifiedAt := none
  why := "Skill trigger matched the task text."

def pushDegradation (items : List DegradationReason) (reason : DegradationReason) :
    List DegradationReason :=
  if reason ∈ items then items else items ++ [reason]

def taskNotFound (taskId : Uuid) : ErrorKind :=
  .notFound ("orchestration task " ++ taskId.toText)

def agentNotFound (agentId : Uuid) : ErrorKind :=
  .notFound ("agent " ++ agentId.toText)

def unsupportedCliTool (agentId : Uuid) (raw : String) : ErrorKind :=
  .internal ("agent " ++ agentId.toText ++ " has unsupported cli_tool: unsupported cli_tool: "
    ++ trim raw ++ " (expected claude|codex|gemini|opencode)")

/-- `RuntimeCapability::fallback_for_cli_tool` of a container. -/
def fallbackForCliTool (cliTool : CliToolKind) : RuntimeCapability :=
  ⟨some cliTool, none, .container, 1, false, false, false, false, false, false⟩

/-- `RuntimeCapability::api_provider_or_default`, for a limit that is not zero. -/
def apiProviderOrDefault (providerName : String) (maxContextTokens : UInt32) :
    RuntimeCapability :=
  ⟨none, if trimIsEmpty providerName then none else some providerName, .api, maxContextTokens,
    false, false, false, false, false, false⟩

def sortedTexts (ids : List Uuid) : List String :=
  (ids.map Uuid.toText).insertionSort fun left right => left ≤ right

def scopeMaterial (proof : ScopedRead) : Value scientific :=
  let texts := fun ids => Value.array ((sortedTexts ids).map Value.string)
  .object [
    ("org_id", .string proof.orgId.toText),
    ("project_ids", texts proof.projectIds),
    ("team_ids", texts proof.teamIds),
    ("user_id", .string proof.userId.toText),
    ("workspace_ids", texts proof.workspaceIds)]

/-- `scope_hash`, with the digest of a text as hexadecimal digits. -/
def scopeHash (digest : List Char → String) (proof : ScopedRead) : String :=
  digest (print (scopeMaterial proof))

def contextResolverCacheKey (digest : List Char → String) (taskId agentId : Uuid)
    (proof : ScopedRead) : String :=
  "context_resolver:" ++ taskId.toText ++ ":" ++ agentId.toText ++ ":" ++ scopeHash digest proof

end Domain

section Reading

structure Visible where
  org : Uuid
  user : Uuid
  workspace : Uuid → Bool
  team : Uuid → Bool
  project : Uuid → Bool

def visible (proof : ScopedRead) : Visible where
  org := proof.orgId
  user := proof.userId
  workspace id := proof.workspaceIds.contains id
  team id := proof.teamIds.contains id
  project id := proof.projectIds.contains id

structure Tables (Confidence : Type) where
  agents : Visible → Uuid → Option AgentRuntimeRecord
  memories : Timestamp → Visible → String → Nat → List (MemoryCandidate Confidence)
  skills : Timestamp → Visible → String → Nat → List SkillSuggestionCandidate
  /-- The rows of containers in the registry, read when the instance started. -/
  registry : CliToolKind → Option RuntimeCapability

structure Environment (Confidence : Type) where
  tables : Tables Confidence
  digest : List Char → String
  payload : ResolvedContext → Option String
  parse : String → Option ResolvedContext
  memoryWhy : Option Confidence → Option Timestamp → String

variable {Confidence : Type} (env : Environment Confidence)

/-- `CANDIDATE_LIMIT`. -/
def candidateLimit : Nat := 50

/-- `ENVELOPE_VERSION`. -/
def envelopeVersion : String := "v1"

/-- `MEMO_TTL`. -/
def memoTtl : Int := 60 * second

def agentRuntime (proof : ScopedRead) (agentId : Uuid) : Option AgentRuntimeRecord :=
  if proof.workspaceIds.isEmpty then none else env.tables.agents (visible proof) agentId

def visibleMemoryCandidates (now : Timestamp) (proof : ScopedRead) (searchText : String) :
    List (MemoryCandidate Confidence) :=
  if proof.workspaceIds.isEmpty then []
  else env.tables.memories now (visible proof) searchText candidateLimit

def visibleSkillSuggestions (now : Timestamp) (proof : ScopedRead) (searchText : String) :
    List SkillSuggestionCandidate :=
  if proof.workspaceIds.isEmpty then []
  else env.tables.skills now (visible proof) searchText candidateLimit

def forCliTool (cliTool : CliToolKind) : RuntimeCapability :=
  (env.tables.registry cliTool).getD (fallbackForCliTool cliTool)

def toolCapability (cliTool : CliToolKind) (capability : RuntimeCapability) :
    RuntimeCapability × List DegradationReason :=
  (capability, if capability = fallbackForCliTool cliTool then [.runtimeCapabilityFallback] else [])

/-- The context of what was read. -/
def assemble (capability : RuntimeCapability) (degradation : List DegradationReason)
    (rows : List (MemoryCandidate Confidence)) (skills : List SkillSuggestionCandidate) :
    ResolvedContext :=
  let budget := applyBudget env.memoryWhy rows capability.maxContextTokens
  { applied := budget.applied
    suggested := budget.suggested ++ skills.map skillSuggestionItem
    capability := capability
    degradation := if budget.truncated then pushDegradation degradation .budgetTruncated
      else degradation
    envelopeVersion := envelopeVersion }

end Reading

section Service

variable {Confidence : Type}

/-- A call of `resolve_for_task_snapshot` at an instance. -/
structure Call where
  node : Nat
  proof : ScopedRead
  snapshot : ContextTaskSnapshot
  agentId : Uuid

def Call.key (digest : List Char → String) (call : Call) : String :=
  contextResolverCacheKey digest call.snapshot.taskId call.agentId call.proof

inductive Op where
  | memoGet (node : Nat) (key : String)
  | redisGet (key : String)
  | agentRuntime (proof : ScopedRead) (agentId : Uuid)
  | forCliTool (cliTool : CliToolKind)
  | visibleMemoryCandidates (proof : ScopedRead) (searchText : String)
  | visibleSkillSuggestions (proof : ScopedRead) (searchText : String)
  | memoSet (node : Nat) (key : String) (resolved : ResolvedContext)
  | redisSet (key : String) (resolved : ResolvedContext)
  | answer (call : Call) (result : AppResult ResolvedContext)

abbrev Answer (Confidence : Type) : Op → Type
  | .memoGet _ _ => Option ResolvedContext
  | .redisGet _ => Option ResolvedContext
  | .agentRuntime _ _ => Option AgentRuntimeRecord
  | .forCliTool _ => RuntimeCapability
  | .visibleMemoryCandidates _ _ => List (MemoryCandidate Confidence)
  | .visibleSkillSuggestions _ _ => List SkillSuggestionCandidate
  | .memoSet _ _ _ => Unit
  | .redisSet _ _ => Unit
  | .answer _ _ => Unit

abbrev Resolving (Confidence α : Type) : Type :=
  Attempt Op (Answer Confidence) ErrorKind α

def ask (operation : Op) : Resolving Confidence (Answer Confidence operation) :=
  Attempt.call operation

def capabilityForAgent (proof : ScopedRead) (agentId : Uuid) :
    Resolving Confidence (RuntimeCapability × List DegradationReason) := do
  match ← ask (.agentRuntime proof agentId) with
  | none => Attempt.fail (agentNotFound agentId)
  | some row =>
      match row.cliTool with
      | none => return (apiProviderOrDefault (row.provider.getD "provider") 4096, [])
      | some raw =>
          match CliToolKind.parseLegacy raw with
          | none => Attempt.fail (unsupportedCliTool agentId raw)
          | some cliTool => return toolCapability cliTool (← ask (.forCliTool cliTool))

variable (env : Environment Confidence)

/-- What follows a miss of both caches. -/
def resolveFresh (call : Call) : Resolving Confidence ResolvedContext := do
  let key := call.key env.digest
  let searchText := taskSearchText call.snapshot
  let capability ← capabilityForAgent call.proof call.agentId
  let rows ← ask (.visibleMemoryCandidates call.proof searchText)
  let skills ← ask (.visibleSkillSuggestions call.proof searchText)
  let resolved := assemble env capability.1 capability.2 rows skills
  ask (.memoSet call.node key resolved)
  ask (.redisSet key resolved)
  return resolved

def resolveForTaskSnapshot (call : Call) : Resolving Confidence ResolvedContext := do
  let key := call.key env.digest
  match ← ask (.memoGet call.node key) with
  | some cached => return cached
  | none =>
      match ← ask (.redisGet key) with
      | some cached =>
          ask (.memoSet call.node key cached)
          return cached
      | none => resolveFresh env call

def serve (call : Call) :
    Prog Op (fun operation => Except ErrorKind (Answer Confidence operation)) Unit :=
  Prog.bind (resolveForTaskSnapshot env call) fun result =>
    Prog.op (.answer call result) fun _ => .done ()

/-- The capability of an agent, read without other calls in between. -/
def capabilityOf (proof : ScopedRead) (agentId : Uuid) :
    AppResult (RuntimeCapability × List DegradationReason) :=
  match agentRuntime env proof agentId with
  | none => .error (agentNotFound agentId)
  | some row =>
      match row.cliTool with
      | none => .ok (apiProviderOrDefault (row.provider.getD "provider") 4096, [])
      | some raw =>
          match CliToolKind.parseLegacy raw with
          | none => .error (unsupportedCliTool agentId raw)
          | some cliTool => .ok (toolCapability cliTool (forCliTool env cliTool))

/-- What a resolution without a cache answers when the memories and the skills are read at these
times. -/
def uncached (memoriesAt skillsAt : Timestamp) (call : Call) : AppResult ResolvedContext := do
  let searchText := taskSearchText call.snapshot
  let capability ← capabilityOf env call.proof call.agentId
  return assemble env capability.1 capability.2
    (visibleMemoryCandidates env memoriesAt call.proof searchText)
    (visibleSkillSuggestions env skillsAt call.proof searchText)

end Service

section Worlds

structure MemoEntry where
  expiresAt : Timestamp
  resolved : ResolvedContext

structure World where
  now : Timestamp
  memos : Nat → String → Option MemoEntry
  redis : String → Option (Timestamp × String)
  answers : List (Call × AppResult ResolvedContext)

def World.empty : World := ⟨0, fun _ _ => none, fun _ => none, []⟩

/-- Whether an operation on a table fails, and whether one on the shared store takes effect and is
heard of. -/
structure Choice where
  failure : Option ErrorKind
  reached : Bool

variable {Confidence : Type} (env : Environment Confidence)

def World.memoGet (world : World) (node : Nat) (key : String) : World × Option ResolvedContext :=
  match world.memos node key with
  | none => (world, none)
  | some entry =>
      if entry.expiresAt ≤ world.now then
        ({ world with
          memos := Function.update world.memos node
            (Function.update (world.memos node) key none) }, none)
      else (world, some entry.resolved)

def World.memoSet (world : World) (node : Nat) (key : String) (resolved : ResolvedContext) :
    World :=
  { world with
    memos := Function.update world.memos node
      (Function.update (world.memos node) key (some ⟨world.now + memoTtl, resolved⟩)) }

def World.redisGet (world : World) (key : String) : Option ResolvedContext :=
  ((world.redis key).filter fun entry => world.now < entry.1).bind fun entry => env.parse entry.2

def World.redisSet (world : World) (key : String) (resolved : ResolvedContext) : World :=
  match env.payload resolved with
  | none => world
  | some text =>
      { world with redis := Function.update world.redis key (some (world.now + memoTtl, text)) }

def reading {α : Type} (choice : Choice) (value : α) : Except ErrorKind α :=
  match choice.failure with
  | none => .ok value
  | some err => .error err

def perform (world : World) (operation : Op) (choice : Choice) (_free : Bool) :
    World × Except ErrorKind (Answer Confidence operation) :=
  match operation with
  | .memoGet node key => ((world.memoGet node key).1, .ok (world.memoGet node key).2)
  | .redisGet key => (world, .ok (if choice.reached then world.redisGet env key else none))
  | .agentRuntime proof agentId => (world, reading choice (agentRuntime env proof agentId))
  | .forCliTool cliTool => (world, .ok (forCliTool env cliTool))
  | .visibleMemoryCandidates proof searchText =>
      (world, reading choice (visibleMemoryCandidates env world.now proof searchText))
  | .visibleSkillSuggestions proof searchText =>
      (world, reading choice (visibleSkillSuggestions env world.now proof searchText))
  | .memoSet node key resolved => (world.memoSet node key resolved, .ok ())
  | .redisSet key resolved =>
      (if choice.reached then world.redisSet env key resolved else world, .ok ())
  | .answer call result => ({ world with answers := (call, result) :: world.answers }, .ok ())

def machine : Machine World Nat Op Choice
    fun operation => Except ErrorKind (Answer Confidence operation) where
  perform := perform env
  starts _ := none

abbrev Calls (Confidence : Type) : Type :=
  Pool World Nat Op fun operation => Except ErrorKind (Answer Confidence operation)

/-- A call arrives, one goes on, time passes, an instance restarts or the shared store loses an
entry. -/
inductive Action where
  | call (label : Nat) (call : Call)
  | step (label : Nat) (choice : Choice)
  | wait (duration : Nat)
  | restart (node : Nat)
  | evict (key : String)

def exec (pool : Calls Confidence) : Action → Calls Confidence
  | .call label call => pool.begin label (serve env call)
  | .step label choice => pool.step (machine env) label choice
  | .wait duration =>
      { pool with state := { pool.state with now := pool.state.now + duration } }
  | .restart node =>
      { pool with
        state := { pool.state with memos := Function.update pool.state.memos node fun _ => none } }
  | .evict key =>
      { pool with state := { pool.state with redis := Function.update pool.state.redis key none } }

def opening : Calls Confidence := ⟨.empty, fun _ => .done ()⟩

end Worlds

end Forge.ContextCache
