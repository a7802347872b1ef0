import Forge.CredentialConsumer
import Forge.Library.PosixShell
import Forge.Library.PowerShell
import Mathlib.Data.String.Basic

/-! The environment of an agent on a host: how it is built, and the scripts that an operator pastes
into a shell to set it. -/

namespace Forge.AgentExports

open Forge.CredentialConsumer (CliToolKind)
open Forge.HookEvents (trim)
open Forge.Library
open Forge.Library.Identifier
open Forge.Library.Text

section Source

/-- `BTreeMap<String, String>`. -/
structure EnvMap where
  entries : List (String × String)
  sorted : entries.Pairwise fun first second => first.1 < second.1

def insertEntry (key value : String) : List (String × String) → List (String × String)
  | [] => [(key, value)]
  | entry :: rest =>
      if key < entry.1 then (key, value) :: entry :: rest
      else if key = entry.1 then (key, value) :: rest
      else entry :: insertEntry key value rest

theorem mem_insertEntry {key value : String} {entries : List (String × String)}
    {entry : String × String} (member : entry ∈ insertEntry key value entries) :
    entry = (key, value) ∨ entry ∈ entries := by
  induction entries with
  | nil => exact .inl (List.mem_singleton.1 member)
  | cons first rest ih =>
      rw [insertEntry] at member
      split at member
      · exact List.mem_cons.1 member
      split at member
      · exact (List.mem_cons.1 member).imp_right (.tail _)
      · rcases List.mem_cons.1 member with rfl | later
        · exact .inr (.head _)
        · exact (ih later).imp_right (.tail _)

theorem sorted_insertEntry (key value : String) {entries : List (String × String)}
    (sorted : entries.Pairwise fun first second => first.1 < second.1) :
    (insertEntry key value entries).Pairwise fun first second => first.1 < second.1 := by
  induction entries with
  | nil => exact List.pairwise_singleton _ _
  | cons first rest ih =>
      obtain ⟨least, behind⟩ := List.pairwise_cons.1 sorted
      rw [insertEntry]
      split
      case isTrue before =>
          refine List.pairwise_cons.2 ⟨fun entry member => ?_, sorted⟩
          rcases List.mem_cons.1 member with rfl | later
          · exact before
          · exact before.trans (least entry later)
      case isFalse notBefore =>
          split
          case isTrue same => exact List.pairwise_cons.2 ⟨same ▸ least, behind⟩
          case isFalse other =>
              refine List.pairwise_cons.2 ⟨fun entry member => ?_, ih behind⟩
              rcases mem_insertEntry member with rfl | later
              · exact lt_of_le_of_ne (not_lt.1 notBefore) (Ne.symm other)
              · exact least entry later

def EnvMap.insert (env : EnvMap) (key value : String) : EnvMap :=
  ⟨insertEntry key value env.entries, sorted_insertEntry key value env.sorted⟩

/-- `str::split_once` at a character. -/
def splitEntry (entry : String) : Option (String × String) :=
  (splitOnce '=' entry.toList).map fun parts => (String.ofList parts.1, String.ofList parts.2)

def envMap (env : List String) : EnvMap :=
  (env.filterMap splitEntry).foldl (fun map entry => map.insert entry.1 entry.2) ⟨[], .nil⟩

def sidecarCommand : String := "agentforge-sidecar"

def shellQuote (value : List Char) : List Char :=
  '\'' :: (value.flatMap fun c => if c = '\'' then "'\"'\"'".toList else [c]) ++ ['\'']

def powershellQuote (value : List Char) : List Char :=
  '\'' :: (value.flatMap fun c => if c = '\'' then "''".toList else [c]) ++ ['\'']

def shellExportLine (entry : String × String) : List Char :=
  "export ".toList ++ entry.1.toList ++ '=' :: shellQuote entry.2.toList

def shellExports (env : EnvMap) : List Char :=
  List.intercalate ['\n'] (env.entries.map shellExportLine ++ [sidecarCommand.toList])

def shellExportLines (env : EnvMap) : List Char :=
  List.intercalate ['\n'] (env.entries.map shellExportLine)

def powershellExportLines (env : EnvMap) : List Char :=
  List.intercalate ['\n'] (env.entries.map fun entry =>
    "$env:".toList ++ entry.1.toList ++ " = ".toList ++ powershellQuote entry.2.toList)

structure AgentContainerEnvInput where
  agentId : Uuid
  orgId : Uuid
  cliTool : Option String
  cliModel : Option String
  codexDefaultModel : Option String
  natsBaseUrl : Option String
  natsConnectPassword : String
  containerServerUrl : Option String
  workspaceHostPath : Option String
  hmacSecret : String
  contextInjectionEnabled : Bool

def cliModelEnvValue (cliTool model codexDefaultModel : Option String) : Option String :=
  (cliTool.bind CliToolKind.parseLegacy).bind fun tool =>
    let explicit := (((model.map trim).filter fun model => model ≠ "").filter fun model =>
      ¬ "agentforge-agent:".toList <+: model.toList).filter fun model =>
        CliToolKind.parseLegacy model = none
    match explicit with
    | some model => some model
    | none =>
        if tool = .codex then (codexDefaultModel.map trim).filter fun model => model ≠ ""
        else none

/-- `str::split_once` at `://`. -/
def splitScheme : List Char → Option (List Char × List Char)
  | [] => none
  | c :: rest =>
      if "://".toList <+: c :: rest then some ([], (c :: rest).drop 3)
      else (splitScheme rest).map fun parts => (c :: parts.1, parts.2)

def natsUrl (input : AgentContainerEnvInput) : Option String :=
  (input.natsBaseUrl.bind fun base => splitScheme base.toList).map fun parts =>
    String.ofList parts.1 ++ "://" ++ input.agentId.toText ++ ":" ++ input.natsConnectPassword
      ++ "@" ++ String.ofList parts.2

def boolText (value : Bool) : String := if value then "true" else "false"

def build (input : AgentContainerEnvInput) : List String :=
  ["AGENT_ID=" ++ input.agentId.toText, "ORG_ID=" ++ input.orgId.toText,
    "HMAC_SECRET=" ++ input.hmacSecret,
    "AGENTFORGE_CONTEXT_INJECTION_ENABLED=" ++ boolText input.contextInjectionEnabled]
  ++ (natsUrl input).toList.flatMap (fun url => ["AGENTFORGE_NATS_URL=" ++ url, "NATS_URL=" ++ url])
  ++ input.containerServerUrl.toList.map (fun url => "AGENTFORGE_SERVER_URL=" ++ url)
  ++ input.workspaceHostPath.toList.map (fun path => "AGENTFORGE_WORKSPACE_HOST_PATH=" ++ path)
  ++ (input.cliTool.bind CliToolKind.parseLegacy).toList.map (fun tool => "CLI_TOOL=" ++ tool.asStr)
  ++ (cliModelEnvValue input.cliTool input.cliModel input.codexDefaultModel).toList.map
    fun model => "AGENTFORGE_CLI_MODEL=" ++ model

end Source

section Statements

def posixSets (env : EnvMap) : List PosixShell.Action :=
  env.entries.map fun entry => .set entry.1.toList entry.2.toList

def powershellSets (env : EnvMap) : List PowerShell.Action :=
  env.entries.map fun entry => .set entry.1.toList entry.2.toList

/-- The scripts set the variables of the map to its values and do nothing else. -/
structure Exact (env : EnvMap) : Prop where
  posix : PosixShell.script (shellExportLines env) = some (posixSets env)
  powershell : PowerShell.script (powershellExportLines env) = some (powershellSets env)
  exports : PosixShell.script (shellExports env) =
    some (posixSets env ++ [.run [sidecarCommand.toList]])

def Plain (env : EnvMap) : Prop :=
  ∀ entry ∈ env.entries, ∀ c ∈ entry.2.toList, PowerShell.typographic c = false

/-- The keys are shell identifiers, and the values hold no NUL. -/
structure Settable (env : EnvMap) : Prop where
  named : ∀ entry ∈ env.entries, PosixShell.isName entry.1.toList = true
  noZero : ∀ entry ∈ env.entries, '\x00' ∉ entry.2.toList

end Statements

section Scripts

variable {env : EnvMap}

def exportCommand (entry : String × String) : List (List Char) :=
  ["export".toList, entry.1.toList ++ '=' :: entry.2.toList]

theorem reads_shellExportLine (settable : Settable env) {entry : String × String}
    (member : entry ∈ env.entries) :
    PosixShell.Reads (shellExportLine entry) (exportCommand entry) :=
  PosixShell.reads_export (settable.named entry member) (settable.noZero entry member)

theorem flatMap_actions {entries : List (String × String)}
    (named : ∀ entry ∈ entries, PosixShell.isName entry.1.toList = true) :
    (entries.map exportCommand).flatMap PosixShell.actions =
      entries.map fun entry => .set entry.1.toList entry.2.toList := by
  induction entries with
  | nil => rfl
  | cons entry rest ih =>
      obtain ⟨here, later⟩ := List.forall_mem_cons.1 named
      rw [List.map_cons, List.flatMap_cons, ih later, exportCommand,
        PosixShell.actions_export here, List.map_cons, List.singleton_append]

theorem script_shellExportLines (settable : Settable env) :
    PosixShell.script (shellExportLines env) = some (posixSets env) := by
  have read := @PosixShell.read_lines
    (env.entries.map fun entry => (shellExportLine entry, exportCommand entry)) (by
      intro line member
      obtain ⟨entry, listed, rfl⟩ := List.mem_map.1 member
      exact reads_shellExportLine settable listed)
  rw [List.map_map, List.map_map] at read
  rw [PosixShell.script, shellExportLines]
  refine (congrArg _ read).trans ?_
  rw [Option.map_some]
  exact congrArg _ (flatMap_actions settable.named)

theorem script_shellExports (settable : Settable env) : PosixShell.script (shellExports env) =
    some (posixSets env ++ [.run [sidecarCommand.toList]]) := by
  have plain : ∀ c ∈ sidecarCommand.toList, PosixShell.Plain c := by
    have all : sidecarCommand.toList.all (fun c => decide (PosixShell.Plain c)) = true := by decide
    exact fun c member => of_decide_eq_true (List.all_eq_true.1 all c member)
  have read := @PosixShell.read_lines
    ((env.entries.map fun entry => (shellExportLine entry, exportCommand entry))
      ++ [(sidecarCommand.toList, [sidecarCommand.toList])]) (by
      intro line member
      rcases List.mem_append.1 member with inside | last
      · obtain ⟨entry, listed, rfl⟩ := List.mem_map.1 inside
        exact reads_shellExportLine settable listed
      · rw [List.mem_singleton.1 last]
        exact PosixShell.reads_word plain (by decide) (by decide))
  rw [List.map_append, List.map_append, List.map_map, List.map_map] at read
  rw [PosixShell.script, shellExports]
  refine (congrArg _ read).trans ?_
  rw [Option.map_some, List.flatMap_append]
  refine congrArg some (congrArg₂ _ (flatMap_actions settable.named) ?_)
  rfl

theorem script_powershellExportLines (settable : Settable env) :
    PowerShell.script (powershellExportLines env) = some (powershellSets env) ↔ Plain env := by
  have lines := @PowerShell.script_setLines
    (env.entries.map fun entry => (entry.1.toList, entry.2.toList)) (by
      intro entry member
      obtain ⟨named, listed, rfl⟩ := List.mem_map.1 member
      exact PosixShell.nameChar_of_isName (settable.named named listed))
  rw [List.map_map, List.map_map] at lines
  refine lines.trans ⟨fun plain entry member => ?_, fun plain entry member => ?_⟩
  · exact plain _ (List.mem_map_of_mem member)
  · obtain ⟨original, listed, rfl⟩ := List.mem_map.1 member
    exact plain original listed

end Scripts

section Building

def Keyed (entry : String) : Prop :=
  ∃ name value, entry.toList = name ++ '=' :: value ∧ PosixShell.isName name = true

theorem keyed_append {label : String} {name : List Char} (ends : label.toList = name ++ ['='])
    (named : PosixShell.isName name = true) (value : String) : Keyed (label ++ value) := by
  refine ⟨name, value.toList, ?_, named⟩
  rw [String.toList_append, ends, List.append_assoc, List.singleton_append]

theorem keyed_build (input : AgentContainerEnvInput) : ∀ entry ∈ build input, Keyed entry := by
  have label (name : List Char) (label : String) (ends : label.toList = name ++ ['='])
      (named : PosixShell.isName name = true) (values : List String) :
      ∀ entry ∈ values.map fun value => label ++ value, Keyed entry := by
    intro entry member
    obtain ⟨value, -, rfl⟩ := List.mem_map.1 member
    exact keyed_append ends named value
  intro entry member
  simp only [build, List.mem_append] at member
  rcases member with ((((fixed | url) | server) | path) | tool) | model
  · simp only [List.mem_cons, List.not_mem_nil, or_false] at fixed
    rcases fixed with rfl | rfl | rfl | rfl
    · exact @keyed_append _ "AGENT_ID".toList (by simp) (by decide) _
    · exact @keyed_append _ "ORG_ID".toList (by simp) (by decide) _
    · exact @keyed_append _ "HMAC_SECRET".toList (by simp) (by decide) _
    · exact @keyed_append _ "AGENTFORGE_CONTEXT_INJECTION_ENABLED".toList (by simp) (by decide) _
  · obtain ⟨url, -, inside⟩ := List.mem_flatMap.1 url
    simp only [List.mem_cons, List.not_mem_nil, or_false] at inside
    rcases inside with rfl | rfl
    · exact @keyed_append _ "AGENTFORGE_NATS_URL".toList (by simp) (by decide) _
    · exact @keyed_append _ "NATS_URL".toList (by simp) (by decide) _
  · exact label "AGENTFORGE_SERVER_URL".toList _ (by simp) (by decide) _ entry server
  · exact label "AGENTFORGE_WORKSPACE_HOST_PATH".toList _ (by simp) (by decide) _ entry path
  · obtain ⟨tool, -, rfl⟩ := List.mem_map.1 tool
    exact @keyed_append _ "CLI_TOOL".toList (by simp) (by decide) _
  · exact label "AGENTFORGE_CLI_MODEL".toList _ (by simp) (by decide) _ entry model

theorem mem_envMap {env : List String} {entry : String × String}
    (member : entry ∈ (envMap env).entries) : entry ∈ env.filterMap splitEntry := by
  have inserted : ∀ (more : List (String × String)) (map : EnvMap),
      entry ∈ (more.foldl (fun map entry => map.insert entry.1 entry.2) map).entries →
        entry ∈ more ∨ entry ∈ map.entries := by
    intro more
    induction more with
    | nil => exact fun map member => .inr member
    | cons first rest ih =>
        intro map member
        rcases ih _ member with later | held
        · exact .inl (.tail _ later)
        · rcases mem_insertEntry held with rfl | before
          · exact .inl (.head _)
          · exact .inr before
  exact (inserted _ _ member).resolve_right List.not_mem_nil

theorem named_build (input : AgentContainerEnvInput) :
    ∀ entry ∈ (envMap (build input)).entries, PosixShell.isName entry.1.toList = true := by
  intro entry member
  obtain ⟨text, listed, split⟩ := List.mem_filterMap.1 (mem_envMap member)
  obtain ⟨name, value, whole, named⟩ := keyed_build input text listed
  rw [splitEntry, whole, splitOnce_append (PosixShell.not_mem_name named), Option.map_some,
    Option.some.injEq] at split
  rw [← split, String.toList_ofList]
  exact named

end Building

section Results

theorem exact_iff_plain {env : EnvMap} (settable : Settable env) : Exact env ↔ Plain env := by
  constructor
  · exact fun exact_ => (script_powershellExportLines settable).1 exact_.powershell
  · exact fun plain => {
      posix := script_shellExportLines settable
      powershell := (script_powershellExportLines settable).2 plain
      exports := script_shellExports settable }

/-- Evaluated under the rules of their shells, the scripts of a map set exactly its variables and do
nothing else, if and only if no value holds one of the quotes that only PowerShell knows. So do
those of a map that is built of the texts of an operator. -/
theorem scripts_exact_iff (env : EnvMap) (settable : Settable env) :
    (Exact env ↔ Plain env)
    ∧ ∀ input, (∀ entry ∈ (envMap (build input)).entries, '\x00' ∉ entry.2.toList) →
      (Exact (envMap (build input)) ↔ Plain (envMap (build input))) :=
  ⟨exact_iff_plain settable, fun input noZero => exact_iff_plain ⟨named_build input, noZero⟩⟩

theorem quoted_exact : ∃ env : EnvMap,
    env.entries = [("AGENT_ID", "agent-1"), ("HMAC_SECRET", "value'with-quote")] ∧ Exact env := by
  have sorted : [("AGENT_ID", "agent-1"), ("HMAC_SECRET", "value'with-quote")].Pairwise
      fun first second => first.1 < second.1 := by decide
  have named : ∀ entry ∈ [("AGENT_ID", "agent-1"), ("HMAC_SECRET", "value'with-quote")],
      PosixShell.isName entry.1.toList = true := by decide
  have noZero : ∀ entry ∈ [("AGENT_ID", "agent-1"), ("HMAC_SECRET", "value'with-quote")],
      '\x00' ∉ entry.2.toList := by decide
  refine ⟨⟨_, sorted⟩, rfl, (scripts_exact_iff _ ⟨named, noZero⟩).1.2 ?_⟩
  have all : [("AGENT_ID", "agent-1"), ("HMAC_SECRET", "value'with-quote")].all (fun entry =>
      entry.2.toList.all fun c => ! PowerShell.typographic c) = true := by decide
  intro entry member c inside
  exact Bool.not_eq_true' _ ▸ List.all_eq_true.1 (List.all_eq_true.1 all entry member) c inside

/-- The input of an agent whose model has a quote of typography in its name. -/
def modelInput (model : String) : AgentContainerEnvInput where
  agentId := ⟨1⟩
  orgId := ⟨2⟩
  cliTool := some "claude"
  cliModel := some model
  codexDefaultModel := none
  natsBaseUrl := none
  natsConnectPassword := ""
  containerServerUrl := none
  workspaceHostPath := none
  hmacSecret := ""
  contextInjectionEnabled := false

theorem entries_modelInput :
    (envMap (build (modelInput "x\u2019; whoami #"))).entries =
      [("AGENTFORGE_CLI_MODEL", "x\u2019; whoami #"),
        ("AGENTFORGE_CONTEXT_INJECTION_ENABLED", "false"),
        ("AGENT_ID", "00000000-0000-0000-0000-000000000001"), ("CLI_TOOL", "claude"),
        ("HMAC_SECRET", ""), ("ORG_ID", "00000000-0000-0000-0000-000000000002")] := by
  decide +kernel

/-- The name of a model closes the literal in PowerShell, and the rest of it runs. -/
theorem model_runs_command :
    ∃ input, Settable (envMap (build input)) ∧ ¬ Exact (envMap (build input))
      ∧ ∃ actions, PowerShell.script (powershellExportLines (envMap (build input))) = some actions
        ∧ PowerShell.Action.run "whoami ".toList ∈ actions := by
  have ran : ∃ actions, PowerShell.script (powershellExportLines
      (envMap (build (modelInput "x\u2019; whoami #")))) = some actions
        ∧ PowerShell.Action.run "whoami ".toList ∈ actions := by
    rw [powershellExportLines, entries_modelInput]
    exact ⟨_, Option.eq_some_of_isSome (by decide +kernel), by decide +kernel⟩
  have noZero : ∀ entry ∈ (envMap (build (modelInput "x\u2019; whoami #"))).entries,
      '\x00' ∉ entry.2.toList := by
    rw [entries_modelInput]
    decide
  refine ⟨modelInput "x\u2019; whoami #", ⟨named_build _, noZero⟩, ?_, ran⟩
  intro exact_
  obtain ⟨actions, script, member⟩ := ran
  rw [exact_.powershell, Option.some.injEq] at script
  rw [← script] at member
  obtain ⟨entry, -, other⟩ := List.mem_map.1 member
  exact nomatch other

end Results

end Forge.AgentExports
