import Forge.ContextCache
import Forge.Library.StateMachine

/-! What the caches of the resolver hold: contexts that a resolution without a cache would answer
for every call with their key. -/

namespace Forge.CacheSoundness

open Forge.ContextCache
open Forge.ContextResolver
open Forge.CredentialConsumer (CliToolKind)
open Forge.Library.CompactJson
open Forge.Library.Identifier
open Forge.Library.Interleaving
open Forge.Library.StateMachine
open Forge.Schema (Timestamp)
open Forge.SkillDomain (AppResult ErrorKind)
open Forge.SkillService (ScopedRead)

section Keys

theorem mem_sortedTexts {ids : List Uuid} {id : Uuid} : id.toText ∈ sortedTexts ids ↔ id ∈ ids := by
  rw [sortedTexts, List.mem_insertionSort]
  exact List.mem_map_of_injective Uuid.toText_injective

theorem contains_of_sortedTexts {first second : List Uuid}
    (same : sortedTexts first = sortedTexts second) :
    (fun id => first.contains id) = fun id => second.contains id := by
  funext id
  rw [Bool.eq_iff_iff, List.contains_iff_mem, List.contains_iff_mem, ← mem_sortedTexts, same,
    mem_sortedTexts]

theorem visible_of_material {first second : ScopedRead}
    (same : scopeMaterial first = scopeMaterial second) : visible first = visible second := by
  have texts : ∀ {first second : List Uuid},
      Value.array ((sortedTexts first).map Value.string)
        = (Value.array ((sortedTexts second).map Value.string) : Value scientific) →
      (fun id => first.contains id) = fun id => second.contains id := by
    intro first second equal
    refine contains_of_sortedTexts (List.map_injective_iff.2 ?_ (Value.array.inj equal))
    exact fun _ _ => Value.string.inj
  simp only [scopeMaterial, Value.object.injEq, List.cons.injEq, Prod.mk.injEq, true_and,
    and_true, Value.string.injEq] at same
  obtain ⟨org, projects, teams, user, workspaces⟩ := same
  rw [visible, visible, texts projects, texts teams, texts workspaces, Uuid.toText_injective org,
    Uuid.toText_injective user]

theorem isEmpty_of_visible {first second : ScopedRead} (same : visible first = visible second) :
    first.workspaceIds.isEmpty = second.workspaceIds.isEmpty := by
  have members : ∀ id, id ∈ first.workspaceIds ↔ id ∈ second.workspaceIds := by
    intro id
    have one := congrFun (congrArg Visible.workspace same) id
    rwa [visible, visible, Bool.eq_iff_iff, List.contains_iff_mem, List.contains_iff_mem] at one
  rw [Bool.eq_iff_iff, List.isEmpty_iff, List.isEmpty_iff, List.eq_nil_iff_forall_not_mem,
    List.eq_nil_iff_forall_not_mem]
  exact forall_congr' fun id => not_congr (members id)

theorem parts_inj {front between task task' agent agent' hash hash' : String}
    (tasks : task.toList.length = task'.toList.length)
    (agents : agent.toList.length = agent'.toList.length)
    (same : front ++ task ++ between ++ agent ++ between ++ hash
      = front ++ task' ++ between ++ agent' ++ between ++ hash') :
    task = task' ∧ agent = agent' ∧ hash = hash' := by
  have texts := congrArg String.toList same
  simp only [String.toList_append, List.append_assoc] at texts
  obtain ⟨first, rest⟩ := List.append_inj (List.append_cancel_left texts) tasks
  obtain ⟨second, rest⟩ := List.append_inj (List.append_cancel_left rest) agents
  exact ⟨String.toList_inj.1 first, String.toList_inj.1 second,
    String.toList_inj.1 (List.append_cancel_left rest)⟩

theorem cacheKey_inj {digest : List Char → String} {taskId taskId' agentId agentId' : Uuid}
    {proof proof' : ScopedRead}
    (same : contextResolverCacheKey digest taskId agentId proof
      = contextResolverCacheKey digest taskId' agentId' proof') :
    taskId = taskId' ∧ agentId = agentId' ∧ scopeHash digest proof = scopeHash digest proof' := by
  have sizes : ∀ id id' : Uuid, id.toText.toList.length = id'.toText.toList.length :=
    fun id id' => id.length_toText.trans id'.length_toText.symm
  obtain ⟨tasks, agents, hashes⟩ := parts_inj (sizes taskId taskId') (sizes agentId agentId') same
  exact ⟨Uuid.toText_injective tasks, Uuid.toText_injective agents, hashes⟩

end Keys

section Statements

variable {Confidence : Type} (env : Environment Confidence)

def DigestsApart (scopes : ScopedRead → Prop) : Prop :=
  ∀ first second, scopes first → scopes second →
    env.digest (print (scopeMaterial first)) = env.digest (print (scopeMaterial second)) →
      scopeMaterial first = scopeMaterial second

def ReadsBack : Prop :=
  ∀ resolved text, env.payload resolved = some text → env.parse text = some resolved

/-- A context is what a resolution without a cache answers to a call, when it reads the tables at
some times that have passed. -/
def Resolves (now : Timestamp) (call : Call) (context : ResolvedContext) : Prop :=
  ∃ memoriesAt skillsAt, memoriesAt ≤ now ∧ skillsAt ≤ now
    ∧ uncached env memoriesAt skillsAt call = .ok context

variable (texts : Uuid → String) (scopes : ScopedRead → Prop)

def Admitted (call : Call) : Prop :=
  scopes call.proof ∧ taskSearchText call.snapshot = texts call.snapshot.taskId

def admits (_pool : Calls Confidence) : Action → Prop
  | .call _ call => Admitted texts scopes call
  | _ => True

end Statements

section Sharing

variable {Confidence : Type} {env : Environment Confidence} {texts : Uuid → String}
  {scopes : ScopedRead → Prop} {now after : Timestamp} {call other : Call}
  {context : ResolvedContext}

/-- Every input that a resolution reads is equal. -/
structure SameInputs (first second : Call) : Prop where
  scope : visible first.proof = visible second.proof
  agent : first.agentId = second.agentId
  text : taskSearchText first.snapshot = taskSearchText second.snapshot

theorem uncached_congr (same : SameInputs call other) (memoriesAt skillsAt : Timestamp) :
    uncached env memoriesAt skillsAt call = uncached env memoriesAt skillsAt other := by
  simp only [uncached, capabilityOf, agentRuntime, visibleMemoryCandidates,
    visibleSkillSuggestions, same.scope, same.agent, same.text, isEmpty_of_visible same.scope]

theorem sameInputs_of_key (apart : DigestsApart env scopes) (admitted : Admitted texts scopes call)
    (admitted' : Admitted texts scopes other) (same : call.key env.digest = other.key env.digest) :
    SameInputs call other := by
  obtain ⟨tasks, agents, hashes⟩ := cacheKey_inj same
  refine ⟨visible_of_material (apart _ _ admitted.1 admitted'.1 hashes), agents, ?_⟩
  rw [admitted.2, admitted'.2, tasks]

theorem Resolves.later (resolves : Resolves env now call context) (passed : now ≤ after) :
    Resolves env after call context := by
  obtain ⟨memoriesAt, skillsAt, before, before', answered⟩ := resolves
  exact ⟨memoriesAt, skillsAt, before.trans passed, before'.trans passed, answered⟩

def Holds (env : Environment Confidence) (texts : Uuid → String) (scopes : ScopedRead → Prop)
    (now : Timestamp) (key : String) (context : ResolvedContext) : Prop :=
  ∃ call, Admitted texts scopes call ∧ call.key env.digest = key ∧ Resolves env now call context

variable {key : String}

theorem Holds.later (holds : Holds env texts scopes now key context) (passed : now ≤ after) :
    Holds env texts scopes after key context := by
  obtain ⟨call, admitted, named, resolves⟩ := holds
  exact ⟨call, admitted, named, resolves.later passed⟩

theorem Holds.resolves (holds : Holds env texts scopes now (call.key env.digest) context)
    (apart : DigestsApart env scopes) (admitted : Admitted texts scopes call) :
    Resolves env now call context := by
  obtain ⟨other, admitted', named, memoriesAt, skillsAt, before, before', answered⟩ := holds
  refine ⟨memoriesAt, skillsAt, before, before', ?_⟩
  rw [← answered]
  exact uncached_congr (sameInputs_of_key apart admitted admitted' named.symm) memoriesAt skillsAt

end Sharing

section Discipline

variable {Confidence : Type} {env : Environment Confidence} {texts : Uuid → String}
  {scopes : ScopedRead → Prop} {world : World} {operation : Op} {choice : Choice}

/-- Whatever is cached belongs under its key, and whatever was answered is right. -/
structure Genuine (env : Environment Confidence) (texts : Uuid → String)
    (scopes : ScopedRead → Prop) (world : World) : Prop where
  memos : ∀ node key entry, world.memos node key = some entry →
    Holds env texts scopes world.now key entry.resolved
  redis : ∀ key entry, world.redis key = some entry → ∃ resolved,
    env.payload resolved = some entry.2 ∧ Holds env texts scopes world.now key resolved
  answers : ∀ call context, (call, .ok context) ∈ world.answers →
    Resolves env world.now call context

/-- Only what belongs under a key is stored, and only what is right is answered. -/
def May (env : Environment Confidence) (texts : Uuid → String) (scopes : ScopedRead → Prop)
    (world : World) : Op → Prop
  | .memoSet _ key resolved => Holds env texts scopes world.now key resolved
  | .redisSet key resolved => Holds env texts scopes world.now key resolved
  | .answer call result => ∀ context, result = .ok context → Resolves env world.now call context
  | _ => True

theorem now_memoGet (node : Nat) (key : String) : (world.memoGet node key).1.now = world.now := by
  unfold World.memoGet
  split
  · rfl
  · split
    · rfl
    · rfl

theorem now_redisSet (key : String) (resolved : ResolvedContext) :
    (world.redisSet env key resolved).now = world.now := by
  unfold World.redisSet
  split
  · rfl
  · rfl

theorem now_perform (free : Bool) :
    (perform env world operation choice free).1.now = world.now := by
  cases operation with
  | memoGet node key => exact now_memoGet node key
  | redisSet key resolved =>
      rw [perform]
      dsimp only
      split
      · exact now_redisSet key resolved
      · rfl
  | _ => rfl

theorem memo_of_update {memos : Nat → String → Option MemoEntry} {node other : Nat}
    {key name : String} {written : Option MemoEntry} {entry : MemoEntry}
    (found : Function.update memos node (Function.update (memos node) key written) other name
      = some entry) :
    memos other name = some entry ∨ key = name ∧ written = some entry := by
  by_cases same : other = node
  · subst same
    rw [Function.update_self] at found
    by_cases named : name = key
    · subst named
      rw [Function.update_self] at found
      exact .inr ⟨rfl, found⟩
    · rw [Function.update_of_ne named] at found
      exact .inl found
  · rw [Function.update_of_ne same] at found
    exact .inl found

theorem Genuine.memoGet (genuine : Genuine env texts scopes world) (node : Nat) (key : String) :
    Genuine env texts scopes (world.memoGet node key).1 := by
  unfold World.memoGet
  split
  case h_1 => exact genuine
  case h_2 =>
      split
      case isFalse => exact genuine
      case isTrue =>
          refine { genuine with memos := fun other name entry found => ?_ }
          rcases memo_of_update found with before | ⟨-, nothing⟩
          · exact genuine.memos other name entry before
          · exact nomatch nothing

theorem Genuine.memoSet (genuine : Genuine env texts scopes world) {node : Nat} {key : String}
    {resolved : ResolvedContext} (holds : Holds env texts scopes world.now key resolved) :
    Genuine env texts scopes (world.memoSet node key resolved) := by
  refine { genuine with memos := fun other name entry found => ?_ }
  rcases memo_of_update found with before | ⟨rfl, written⟩
  · exact genuine.memos other name entry before
  · obtain rfl := Option.some.inj written
    exact holds

theorem Genuine.redisSet (genuine : Genuine env texts scopes world) {key : String}
    {resolved : ResolvedContext} (holds : Holds env texts scopes world.now key resolved) :
    Genuine env texts scopes (world.redisSet env key resolved) := by
  unfold World.redisSet
  split
  case h_1 => exact genuine
  case h_2 text stored =>
      refine { genuine with redis := fun name entry found => ?_ }
      simp only [Function.update_apply] at found
      split at found
      · rename_i same
        obtain rfl := Option.some.inj found
        exact ⟨resolved, stored, same ▸ holds⟩
      · exact genuine.redis name entry found

theorem Genuine.perform (genuine : Genuine env texts scopes world)
    (may : May env texts scopes world operation) (free : Bool) :
    Genuine env texts scopes (perform env world operation choice free).1 := by
  cases operation with
  | memoGet node key => exact genuine.memoGet node key
  | memoSet node key resolved => exact genuine.memoSet may
  | redisSet key resolved =>
      rw [ContextCache.perform]
      dsimp only
      split
      · exact genuine.redisSet may
      · exact genuine
  | answer call result =>
      refine { genuine with answers := fun other context listed => ?_ }
      rcases List.mem_cons.1 listed with same | before
      · obtain ⟨rfl, equal⟩ := Prod.mk.inj same
        exact may context equal.symm
      · exact genuine.answers other context before
  | _ => exact genuine

variable (env texts scopes) in
def rules : Discipline (machine env) where
  Inv := Genuine env texts scopes
  allowed _ _ _ _ _ := True
  may _ := May env texts scopes
  rely _ before after := before.now ≤ after.now
  refl _ _ := le_rfl
  trans := le_trans
  keeps {_ _ _ _ free} genuine may _ := genuine.perform may free
  spares {_ _ _ _ _ free} _ _ _ _ := (now_perform free).ge

end Discipline

section Safety

variable {Confidence : Type} {env : Environment Confidence} {texts : Uuid → String}
  {scopes : ScopedRead → Prop} {state : World} {label : Nat} {call : Call}

theorem ensures_ask {operation : Op}
    (may : ∀ before, state.now ≤ before.now → Genuine env texts scopes before →
      May env texts scopes before operation) :
    Attempt.Ensures (rules env texts scopes) label (ask operation)
      (fun value later => ∃ before choice free, state.now ≤ before.now ∧ before.now ≤ later.now
        ∧ Genuine env texts scopes before
        ∧ (perform env before operation choice free).2 = .ok value) state := by
  refine Safe.mono (Attempt.safe_call may) fun outcome later _ performed value same => ?_
  obtain ⟨before, choice, free, passed, genuine, -, -, told, after⟩ := performed
  refine ⟨before, choice, free, passed, ?_, genuine, told.trans same⟩
  exact (@now_perform Confidence env before operation choice free).symm.le.trans after

theorem ok_of_reading {α : Type} {choice : Choice} {value read : α}
    (told : reading choice value = .ok read) : value = read := by
  unfold reading at told
  split at told
  · exact Except.ok.inj told
  · exact nomatch told

theorem ensures_capability (proof : ScopedRead) (agentId : Uuid) :
    Attempt.Ensures (rules env texts scopes) label (capabilityForAgent proof agentId)
      (fun capability later => state.now ≤ later.now
        ∧ capabilityOf env proof agentId = .ok capability) state := by
  refine Attempt.Ensures.bind (ensures_ask fun _ _ _ => trivial) fun row later _ told => ?_
  obtain ⟨before, choice, free, passed, onward, -, answered⟩ := told
  have read : agentRuntime env proof agentId = row := ok_of_reading answered
  rw [capabilityOf, read]
  cases row with
  | none => exact Attempt.Ensures.fail _
  | some row =>
      dsimp only
      cases row.cliTool with
      | none => exact Attempt.Ensures.pure fun _ step _ => ⟨(passed.trans onward).trans step, rfl⟩
      | some raw =>
          dsimp only
          cases CliToolKind.parseLegacy raw with
          | none => exact Attempt.Ensures.fail _
          | some cliTool =>
              refine Attempt.Ensures.bind (ensures_ask fun _ _ _ => trivial)
                fun capability after _ told => ?_
              obtain ⟨middle, choice, free, passed', onward', -, answered⟩ := told
              obtain rfl : forCliTool env cliTool = capability := Except.ok.inj answered
              have since := (passed.trans onward).trans (passed'.trans onward')
              exact Attempt.Ensures.pure fun last step _ => ⟨since.trans step, rfl⟩

theorem ensures_resolveFresh (admitted : Admitted texts scopes call) :
    Attempt.Ensures (rules env texts scopes) label (resolveFresh env call)
      (fun context later => Resolves env later.now call context) state := by
  refine Attempt.Ensures.bind (ensures_capability call.proof call.agentId)
    fun capability second _ told => ?_
  obtain ⟨-, capable⟩ := told
  refine Attempt.Ensures.bind (ensures_ask fun _ _ _ => trivial) fun rows third _ told => ?_
  obtain ⟨memories, choice, free, -, passed, -, answered⟩ := told
  obtain rfl := ok_of_reading answered
  refine Attempt.Ensures.bind (ensures_ask fun _ _ _ => trivial) fun found fourth _ told => ?_
  obtain ⟨skills, choice, free, onward, passed', -, answered⟩ := told
  obtain rfl := ok_of_reading answered
  have resolves : ∀ now, fourth.now ≤ now → Resolves env now call
      (assemble env capability.1 capability.2
        (visibleMemoryCandidates env memories.now call.proof (taskSearchText call.snapshot))
        (visibleSkillSuggestions env skills.now call.proof (taskSearchText call.snapshot))) := by
    intro now later
    have early := passed'.trans later
    refine ⟨memories.now, skills.now, (passed.trans onward).trans early, early, ?_⟩
    rw [uncached, capable]
    rfl
  refine Attempt.Ensures.bind (ensures_ask fun before later _ => ?_) fun _ fifth _ told => ?_
  · exact ⟨call, admitted, rfl, resolves before.now later⟩
  · obtain ⟨before, -, -, step, step', -⟩ := told
    refine Attempt.Ensures.bind (ensures_ask fun before later _ => ?_) fun _ sixth _ told => ?_
    · exact ⟨call, admitted, rfl, resolves before.now ((step.trans step').trans later)⟩
    · obtain ⟨middle, -, -, onward, onward', -⟩ := told
      have since := (step.trans step').trans (onward.trans onward')
      exact Attempt.Ensures.pure fun last after _ => resolves last.now (since.trans after)

theorem Genuine.found {world : World} (genuine : Genuine env texts scopes world) {node : Nat}
    {key : String} {cached : ResolvedContext} (found : (world.memoGet node key).2 = some cached) :
    Holds env texts scopes world.now key cached := by
  unfold World.memoGet at found
  split at found
  case h_1 => exact nomatch found
  case h_2 entry there =>
      split at found
      case isTrue => exact nomatch found
      case isFalse =>
          obtain rfl := Option.some.inj found
          exact genuine.memos node key entry there

theorem Genuine.shared {world : World} (genuine : Genuine env texts scopes world)
    (reads : ReadsBack env) {key : String} {cached : ResolvedContext}
    (found : world.redisGet env key = some cached) :
    Holds env texts scopes world.now key cached := by
  obtain ⟨entry, there, parsed⟩ := Option.bind_eq_some_iff.1 found
  obtain ⟨resolved, stored, holds⟩ := genuine.redis key entry (Option.filter_eq_some_iff.1 there).1
  rw [reads resolved entry.2 stored] at parsed
  exact Option.some.inj parsed ▸ holds

variable (apart : DigestsApart env scopes) (reads : ReadsBack env)

include apart reads

theorem ensures_resolve (admitted : Admitted texts scopes call) :
    Attempt.Ensures (rules env texts scopes) label (resolveForTaskSnapshot env call)
      (fun context later => Resolves env later.now call context) state := by
  refine Attempt.Ensures.bind (ensures_ask fun _ _ _ => trivial) fun memo second _ told => ?_
  obtain ⟨first, choice, free, -, passed, genuine, answered⟩ := told
  cases memo with
  | some cached =>
      have holds := genuine.found (Except.ok.inj answered)
      refine Attempt.Ensures.pure fun last step _ => ?_
      exact (holds.resolves apart admitted).later (passed.trans step)
  | none =>
      refine Attempt.Ensures.bind (ensures_ask fun _ _ _ => trivial) fun shared third _ told => ?_
      obtain ⟨before, choice, free, -, passed, genuine, answered⟩ := told
      cases shared with
      | none => exact ensures_resolveFresh admitted
      | some cached =>
          have found := Except.ok.inj answered
          split at found
          case isFalse => exact nomatch found
          case isTrue =>
              have holds := genuine.shared reads found
              refine Attempt.Ensures.bind (ensures_ask fun later step _ => ?_)
                fun _ fourth _ told => ?_
              · exact holds.later (passed.trans step)
              · obtain ⟨middle, -, -, onward, onward', -⟩ := told
                refine Attempt.Ensures.pure fun last step _ => ?_
                have since := passed.trans ((onward.trans onward').trans step)
                exact (holds.resolves apart admitted).later since

theorem safe_serve (admitted : Admitted texts scopes call) :
    Safe (rules env texts scopes) label (serve env call) (fun _ _ => True) state := by
  refine Safe.bind (ensures_resolve apart reads admitted) fun result before _ right => ?_
  intro later step _
  refine ⟨fun context same => ?_, fun _ _ _ _ _ _ => trivial⟩
  exact (right context same).later step

end Safety

section Runs

variable {Confidence : Type} {env : Environment Confidence} {texts : Uuid → String}
  {scopes : ScopedRead → Prop} {pool : Calls Confidence}

theorem Genuine.wait {world : World} (genuine : Genuine env texts scopes world) (duration : Nat) :
    Genuine env texts scopes { world with now := world.now + duration } := by
  have passed : world.now ≤ world.now + (duration : Int) :=
    Int.le_add_of_nonneg_right (Int.natCast_nonneg duration)
  refine ⟨fun node key entry found => ?_, fun key entry found => ?_, fun call context listed => ?_⟩
  · exact (genuine.memos node key entry found).later passed
  · obtain ⟨resolved, stored, holds⟩ := genuine.redis key entry found
    exact ⟨resolved, stored, holds.later passed⟩
  · exact (genuine.answers call context listed).later passed

theorem good_exec (apart : DigestsApart env scopes) (reads : ReadsBack env)
    (good : Good (rules env texts scopes) pool) {action : Action}
    (admitted : admits texts scopes pool action) :
    Good (rules env texts scopes) (exec env pool action) := by
  cases action with
  | call label call => exact good.begin (safe_serve apart reads admitted)
  | step label choice =>
      refine good.step ?_ fun _ _ _ => trivial
      exact fun _ _ _ _ _ _ _ _ _ starts => nomatch starts
  | wait duration =>
      refine good.outside (good.inv.wait duration) fun _ => .inr ?_
      exact Int.le_add_of_nonneg_right (Int.natCast_nonneg duration)
  | restart node =>
      refine good.outside { good.inv with memos := fun other key entry found => ?_ }
        fun _ => .inr le_rfl
      dsimp only at found
      rw [Function.update_apply] at found
      split at found
      · exact nomatch found
      · exact good.inv.memos other key entry found
  | evict key =>
      refine good.outside { good.inv with redis := fun other entry found => ?_ }
        fun _ => .inr le_rfl
      dsimp only at found
      rw [Function.update_apply] at found
      split at found
      · exact nomatch found
      · exact good.inv.redis other entry found

theorem good_opening : Good (rules env texts scopes) opening where
  inv := ⟨fun _ _ _ found => (nomatch found), fun _ _ found => (nomatch found),
    fun _ _ listed => absurd listed List.not_mem_nil⟩
  safe _ := fun _ _ _ => trivial

theorem good_reachable (apart : DigestsApart env scopes) (reads : ReadsBack env)
    (reached : Reachable (exec env) (· = opening) (admits texts scopes) pool) :
    Good (rules env texts scopes) pool := by
  refine @Reachable.invariant _ _ _ _ _ (Good (rules env texts scopes)) (fun start first => ?_)
    (fun _ _ good admitted => good_exec apart reads good admitted) _ reached
  rw [first]
  exact good_opening

/-- While the tables stay as they are and a task is always resolved with one text, every context
that is answered, from a cache or not, is what a resolution without a cache would have answered to
the call at times that have passed; and calls share a key only if all they read is equal. -/
theorem answered_as_resolved (env : Environment Confidence) (texts : Uuid → String)
    (scopes : ScopedRead → Prop) (apart : DigestsApart env scopes) (reads : ReadsBack env)
    (pool : Calls Confidence)
    (reached : Reachable (exec env) (· = opening) (admits texts scopes) pool) :
    (∀ call context, (call, .ok context) ∈ pool.state.answers →
      Resolves env pool.state.now call context)
    ∧ ∀ first second, Admitted texts scopes first → Admitted texts scopes second →
        first.key env.digest = second.key env.digest → SameInputs first second :=
  ⟨(good_reachable apart reads reached).inv.answers,
    fun _ _ admitted admitted' same => sameInputs_of_key apart admitted admitted' same⟩

end Runs

def ofScopes {Confidence : Type} (scopes : ScopedRead → Prop) (_pool : Calls Confidence) :
    Action → Prop
  | .call _ call => scopes call.proof
  | _ => True

namespace Sample

def proof : ScopedRead where
  orgId := ⟨1⟩
  userId := ⟨2⟩
  workspaceIds := [⟨3⟩]
  teamIds := []
  projectIds := []

def call (title : String) : Call := ⟨0, proof, ⟨⟨4⟩, title, none, none⟩, ⟨5⟩⟩

def deployment : MemoryCandidate Unit :=
  ⟨⟨6⟩, "deploy", "user", ⟨2⟩, "internal", 7, none, none, none⟩

def tables : Tables Unit where
  agents _ _ := some ⟨none, none⟩
  memories _ _ searchText _ := if searchText = "deploy" then [deployment] else []
  skills _ _ _ _ := []
  registry _ := none

def capability : RuntimeCapability := apiProviderOrDefault "provider" 4096

def resolved : ResolvedContext where
  applied := [⟨⟨6⟩, .memory, "deploy", some "user", some ⟨2⟩, some "internal", 7, none, none,
    "Matched task text."⟩]
  suggested := []
  capability := capability
  degradation := []
  envelopeVersion := "v1"

def text : String :=
  "\x7b\"applied\":[\x7b\"id\":\"00000000-0000-0000-0000-000000000006\",\"kind\":\"memory\","
    ++ "\"title\":\"deploy\",\"scope_kind\":\"user\","
    ++ "\"scope_id\":\"00000000-0000-0000-0000-000000000002\",\"sensitivity\":\"internal\","
    ++ "\"estimated_tokens\":7,\"last_used_at\":null,\"last_verified_at\":null,"
    ++ "\"why\":\"Matched task text.\"\x7d],\"suggested\":[],"
    ++ "\"capability\":\x7b\"provider_name\":\"provider\",\"runtime_kind\":\"api\","
    ++ "\"max_context_tokens\":4096,\"supports_skills_mount\":false,\"supports_hooks\":false,"
    ++ "\"supports_subagents\":false,\"supports_mcp_bridge\":false,\"supports_terminal\":false,"
    ++ "\"supports_image_input\":false\x7d,\"degradation\":[],\"envelope_version\":\"v1\"\x7d"

def env : Environment Unit where
  tables := tables
  digest _ := "604eb2b132e576c7c371d9601bc626daccf6fbc2f2c2d2a72797584b0daa9a2d"
  payload context := if context = resolved then some text else none
  parse raw := if raw = text then some resolved else none
  memoryWhy _ _ := "Matched task text."

def onlyProof (scope : ScopedRead) : Prop := scope = proof

theorem apart : DigestsApart env onlyProof := by
  rintro _ _ rfl rfl _
  rfl

theorem readsBack : ReadsBack env := by
  intro context raw stored
  simp only [env] at stored ⊢
  split at stored
  · rename_i same
    obtain rfl := Option.some.inj stored
    rw [if_pos rfl, same]
  · exact nomatch stored

def serving (label : Nat) (title : String) (steps : Nat) : List Action :=
  .call label (call title) :: List.replicate steps (.step label ⟨none, true⟩)

def twice (first second : String) : List Action :=
  serving 0 first 8 ++ serving 1 second 2

theorem twice_cases {first second : String} {action : Action}
    (listed : action ∈ twice first second) :
    action = .call 0 (call first) ∨ action = .call 1 (call second)
      ∨ ∃ label choice, action = .step label choice := by
  simp only [twice, serving, List.mem_append, List.mem_cons, List.mem_replicate] at listed
  rcases listed with (same | ⟨-, step⟩) | same | ⟨-, step⟩
  · exact .inl same
  · exact .inr (.inr ⟨_, _, step⟩)
  · exact .inr (.inl same)
  · exact .inr (.inr ⟨_, _, step⟩)

def repeated : Calls Unit := run (exec env) opening (twice "deploy" "deploy")

theorem repeated_reached :
    Reachable (exec env) (· = opening) (admits (fun _ => "deploy") onlyProof) repeated := by
  refine reachable_run rfl (allAllowed_of_forall (fun action listed _ => ?_) opening)
  rcases twice_cases listed with rfl | rfl | ⟨label, choice, rfl⟩
  · exact ⟨rfl, rfl⟩
  · exact ⟨rfl, rfl⟩
  · exact trivial

def retitled : Calls Unit := run (exec env) opening (twice "deploy" "review")

theorem retitled_reached :
    Reachable (exec env) (· = opening) (ofScopes onlyProof) retitled := by
  refine reachable_run rfl (allAllowed_of_forall (fun action listed _ => ?_) opening)
  rcases twice_cases listed with rfl | rfl | ⟨label, choice, rfl⟩
  · exact rfl
  · exact rfl
  · exact trivial

end Sample

open Sample in
/-- The second call is answered from the memo. -/
theorem answered_twice :
    repeated.state.answers.map (fun answer => (answer.1.snapshot.title, answer.2.toOption))
      = [("deploy", some resolved), ("deploy", some resolved)]
    ∧ (∀ call context, (call, .ok context) ∈ repeated.state.answers →
      Resolves env repeated.state.now call context)
    ∧ ∀ first second, Admitted (fun _ => "deploy") onlyProof first →
        Admitted (fun _ => "deploy") onlyProof second →
          first.key env.digest = second.key env.digest → SameInputs first second :=
  ⟨by decide +kernel, answered_as_resolved env (fun _ => "deploy") onlyProof apart readsBack
    repeated repeated_reached⟩

open Sample in
/-- A call with another title is answered with the memories of the first title. -/
theorem retitled_answered_stale :
    ¬ ∀ (env : Environment Unit) (scopes : ScopedRead → Prop) (pool : Calls Unit),
      DigestsApart env scopes → ReadsBack env →
        Reachable (exec env) (· = opening) (ofScopes scopes) pool →
          ∀ call context, (call, .ok context) ∈ pool.state.answers →
            Resolves env pool.state.now call context := by
  intro right
  have told : retitled.state.answers.any (fun answer =>
      taskSearchText answer.1.snapshot = "review" && answer.2.toOption = some resolved) = true := by
    decide +kernel
  obtain ⟨⟨call, result⟩, listed, both⟩ := List.any_eq_true.1 told
  simp only [Bool.and_eq_true, decide_eq_true_iff] at both
  obtain ⟨titled, found⟩ := both
  cases result with
  | error err => exact nomatch found
  | ok context =>
      obtain rfl := Option.some.inj found
      obtain ⟨memoriesAt, skillsAt, -, -, answered⟩ := right env onlyProof retitled apart readsBack
        retitled_reached call resolved listed
      have nothing : visibleMemoryCandidates env memoriesAt call.proof "review" = [] := by
        unfold visibleMemoryCandidates
        split
        · rfl
        · rfl
      rw [uncached, titled, nothing] at answered
      cases known : capabilityOf env call.proof call.agentId with
      | error err =>
          rw [known] at answered
          exact nomatch answered
      | ok capability =>
          rw [known] at answered
          have empty := congrArg ResolvedContext.applied (Except.ok.inj answered)
          simp [resolved, assemble, applyBudget] at empty

end Forge.CacheSoundness
