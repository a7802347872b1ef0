import Forge.AuthCallout
import Forge.NatsPermissions

/-! The subjects under which agents publish events: what the builders write, and every spelling
that the parser reads. -/

namespace Forge.IngestSubject

open Forge.AuthCallout (parseRuntimeKind)
open Forge.Library.Identifier
open Forge.Library.Subject
open Forge.Library.Text
open Forge.NatsPermissions
open Forge.OrchestrationView (isWhitespace)
open Forge.OutboxPublisher (kindText)
open Forge.Schema

/-- `runtimeKind` is missing in the legacy shape. -/
structure ParsedEventSubject where
  agentId : Uuid
  runtimeKind : Option RuntimeKind
deriving DecidableEq

def ParsedEventSubject.isLegacy (parsed : ParsedEventSubject) : Bool :=
  parsed.runtimeKind.isNone

def parseTokens : List (List Char) → Option ParsedEventSubject
  | [agent] => do
      let agentId ← Uuid.parseStr (String.ofList agent)
      return ⟨agentId, none⟩
  | [kind, agent] => do
      let kind ← parseRuntimeKind (String.ofList kind)
      let agentId ← Uuid.parseStr (String.ofList agent)
      return ⟨agentId, some kind⟩
  | _ => none

/-- `EVENTS_INGEST_PREFIX` and a dot. -/
def ingestHead : List Char := "events.ingest".toList ++ ".".toList

def parseEventsIngestSubject (subject : String) : Option ParsedEventSubject :=
  if ingestHead.isPrefixOf subject.toList then
    parseTokens ((subject.toList.drop ingestHead.length).splitOn '.')
  else none

def ParsedEventSubject.build (parsed : ParsedEventSubject) : String :=
  match parsed.runtimeKind with
  | none => eventsIngestLegacySubject parsed.agentId
  | some kind => eventsIngestSubject kind parsed.agentId

/-- The subject has the tokens of one of the two shapes, and they spell the agent and its kind. -/
def Spells (subject : String) (parsed : ParsedEventSubject) : Prop :=
  ∃ kind agent, tokens subject = ["events".toList, "ingest".toList] ++ kind ++ [agent]
    ∧ Uuid.parseStr (String.ofList agent) = some parsed.agentId
    ∧ match parsed.runtimeKind with
      | none => kind = []
      | some runtimeKind =>
          ∃ token, kind = [token] ∧ parseRuntimeKind (String.ofList token) = some runtimeKind

section Spelling

variable {subject : String} {parsed : ParsedEventSubject}

theorem tokens_of_head {others : List Char}
    (starts : subject.toList = ingestHead ++ others) :
    tokens subject = "events".toList :: "ingest".toList :: others.splitOn '.' := by
  have cut : ingestHead ++ others =
      "events".toList ++ '.' :: ("ingest".toList ++ '.' :: others) := rfl
  rw [tokens, starts, cut, List.splitOn_append_cons_self_of_not_mem (by decide),
    List.splitOn_append_cons_self_of_not_mem (by decide)]

theorem head_of_tokens {rest : List (List Char)} (full : rest ≠ [])
    (cut : tokens subject = "events".toList :: "ingest".toList :: rest) :
    ∃ others, subject.toList = ingestHead ++ others
      ∧ others.splitOn '.' = rest := by
  have joined : subject.toList = ingestHead ++ List.intercalate ['.'] rest := by
    rw [← (List.intercalate_splitOn '.' : _ = subject.toList), ← tokens, cut,
      List.intercalate_cons_of_ne_nil (List.cons_ne_nil _ _),
      List.intercalate_cons_of_ne_nil full]
    rfl
  refine ⟨_, joined, ?_⟩
  have same := (tokens_of_head joined).symm.trans cut
  exact (List.cons.inj (List.cons.inj same).2).2

theorem parse_of_head {others : List Char} (starts : subject.toList = ingestHead ++ others) :
    parseEventsIngestSubject subject = parseTokens (others.splitOn '.') := by
  rw [parseEventsIngestSubject, starts, List.drop_left,
    if_pos (List.isPrefixOf_iff_prefix.2 (List.prefix_append _ _))]

theorem parse_iff_spells : parseEventsIngestSubject subject = some parsed ↔
    Spells subject parsed := by
  obtain ⟨agentId, runtimeKind⟩ := parsed
  constructor
  · intro read
    have starts : ∃ others, subject.toList = ingestHead ++ others := by
      rw [parseEventsIngestSubject] at read
      split at read
      case isTrue head =>
          obtain ⟨others, same⟩ := List.isPrefixOf_iff_prefix.1 head
          exact ⟨others, same.symm⟩
      case isFalse => cases read
    obtain ⟨others, starts⟩ := starts
    rw [parse_of_head starts] at read
    have cut := tokens_of_head starts
    generalize others.splitOn '.' = rest at *
    match rest, read with
    | [agent], read =>
        obtain ⟨found, agentRead, same⟩ := Option.bind_eq_some_iff.1 read
        obtain ⟨rfl, rfl⟩ := ParsedEventSubject.mk.inj (Option.some.inj same)
        exact ⟨[], agent, cut, agentRead, rfl⟩
    | [kind, agent], read =>
        obtain ⟨known, kindRead, read⟩ := Option.bind_eq_some_iff.1 read
        obtain ⟨found, agentRead, same⟩ := Option.bind_eq_some_iff.1 read
        obtain ⟨rfl, rfl⟩ := ParsedEventSubject.mk.inj (Option.some.inj same)
        exact ⟨[kind], agent, cut, agentRead, kind, rfl, kindRead⟩
  · rintro ⟨kind, agent, cut, agentRead, kinds⟩
    obtain ⟨others, starts, split⟩ := head_of_tokens (List.append_ne_nil_of_right_ne_nil kind
      (List.cons_ne_nil agent [])) (cut.trans (List.append_assoc _ _ _))
    rw [parse_of_head starts, split]
    cases runtimeKind with
    | none =>
        obtain rfl : kind = [] := kinds
        rw [List.nil_append, parseTokens, agentRead]
        rfl
    | some runtimeKind =>
        obtain ⟨token, rfl, kindRead⟩ := kinds
        rw [List.singleton_append, parseTokens, kindRead, agentRead]
        rfl

end Spelling

section Building

variable {subject : String} {parsed : ParsedEventSubject}

def builtTokens (parsed : ParsedEventSubject) : List (List Char) :=
  (parsed.runtimeKind.map fun kind => (kindText kind).toList).toList
    ++ [parsed.agentId.toText.toList]

theorem mem_builtTokens {token : List Char} (member : token ∈ builtTokens parsed) :
    (∃ kind, token = (kindText kind).toList) ∨ token = parsed.agentId.toText.toList := by
  rw [builtTokens, List.mem_append, List.mem_singleton] at member
  rcases member with kind | agent
  · obtain ⟨known, -, same⟩ := Option.map_eq_some_iff.1 (Option.mem_toList.1 kind)
    exact .inl ⟨known, same.symm⟩
  · exact .inr agent

theorem dot_not_mem_builtTokens : ∀ token ∈ builtTokens parsed, '.' ∉ token := by
  intro token built member
  rcases mem_builtTokens built with ⟨kind, same⟩ | same
  · rw [same] at member
    cases kind <;> revert member <;> decide
  · rw [same] at member
    rcases Uuid.mem_toText member with hyphen | ⟨d, small, char⟩
    · cases hyphen
    · have table : ∀ d < 16, '.' ≠ Nat.digitChar d := by decide
      exact table d small char

theorem dot_toList : ".".toList = ['.'] := by decide

theorem toList_legacy (agentId : Uuid) :
    (eventsIngestLegacySubject agentId).toList = ingestHead ++ agentId.toText.toList := by
  unfold eventsIngestLegacySubject ingestHead
  simp only [String.toList_append]

theorem toList_namespaced (kind : RuntimeKind) (agentId : Uuid) :
    (eventsIngestSubject kind agentId).toList =
      ingestHead ++ ((kindText kind).toList ++ '.' :: agentId.toText.toList) := by
  have dot : '.' :: agentId.toText.toList = ".".toList ++ agentId.toText.toList := by
    rw [dot_toList, List.singleton_append]
  unfold eventsIngestSubject ingestHead
  simp only [dot, String.toList_append, List.append_assoc]

theorem toList_build : parsed.build.toList =
    ingestHead ++ List.intercalate ['.'] (builtTokens parsed) := by
  obtain ⟨agentId, runtimeKind⟩ := parsed
  cases runtimeKind with
  | none =>
      refine (toList_legacy agentId).trans (congrArg _ ?_)
      exact List.intercalate_singleton.symm
  | some kind =>
      refine (toList_namespaced kind agentId).trans (congrArg _ ?_)
      exact (List.intercalate_cons_cons.trans (by rw [List.intercalate_singleton,
        List.append_assoc, List.singleton_append])).symm

theorem parseRuntimeKind_kindText (kind : RuntimeKind) :
    parseRuntimeKind (kindText kind) = some kind := by
  cases kind <;> decide

theorem parse_build (parsed : ParsedEventSubject) :
    parseEventsIngestSubject parsed.build = some parsed := by
  have cut : (List.intercalate ['.'] (builtTokens parsed)).splitOn '.' = builtTokens parsed :=
    List.splitOn_intercalate '.' dot_not_mem_builtTokens
      (List.append_ne_nil_of_right_ne_nil _ (List.cons_ne_nil _ _))
  rw [parse_of_head toList_build, cut]
  obtain ⟨agentId, runtimeKind⟩ := parsed
  cases runtimeKind with
  | none =>
      simp only [builtTokens, Option.map_none, Option.toList_none, List.nil_append, parseTokens,
        String.ofList_toList, Uuid.parseStr_toText]
      rfl
  | some kind =>
      simp only [builtTokens, Option.map_some, Option.toList_some, List.singleton_append,
        parseTokens, String.ofList_toList, Uuid.parseStr_toText, parseRuntimeKind_kindText]
      rfl

end Building

section Canonical

variable {subject : String} {parsed : ParsedEventSubject}

def isPlain (c : Char) : Bool := !c.isUpper && !isWhitespace c

def Canonical (subject : String) : Prop :=
  (∀ c ∈ subject.toList, isPlain c = true)
    ∧ ∀ agent ∈ (tokens subject).getLast?, agent.length = 36

theorem isPlain_digitChar {d : Nat} (small : d < 16) : isPlain (Nat.digitChar d) = true := by
  have table : ∀ d < 16, isPlain (Nat.digitChar d) = true := by decide
  exact table d small

theorem isPlain_builtTokens : ∀ token ∈ builtTokens parsed, ∀ c ∈ token, isPlain c = true := by
  intro token built c member
  rcases mem_builtTokens built with ⟨kind, same⟩ | same
  · have all : (kindText kind).toList.all isPlain = true := by cases kind <;> decide
    exact List.all_eq_true.1 all c (same ▸ member)
  · rcases Uuid.mem_toText (same ▸ member) with hyphen | ⟨d, small, char⟩
    · rw [hyphen]
      decide
    · rw [char]
      exact isPlain_digitChar small

theorem tokens_build : tokens parsed.build =
    "events".toList :: "ingest".toList :: builtTokens parsed := by
  rw [tokens_of_head toList_build, List.splitOn_intercalate '.' dot_not_mem_builtTokens
    (List.append_ne_nil_of_right_ne_nil _ (List.cons_ne_nil _ _))]

theorem canonical_build (parsed : ParsedEventSubject) : Canonical parsed.build := by
  constructor
  · intro c member
    rw [toList_build, List.mem_append] at member
    rcases member with inHead | inTokens
    · have all : ingestHead.all isPlain = true := by decide
      exact List.all_eq_true.1 all c inHead
    · rcases mem_intercalate inTokens with dot | ⟨token, listed, inside⟩
      · rw [List.mem_singleton.1 dot]
        decide
      · exact isPlain_builtTokens token listed c inside
  · intro agent last
    have concat : "events".toList :: "ingest".toList :: builtTokens parsed =
        ("events".toList :: "ingest".toList ::
          (parsed.runtimeKind.map fun kind => (kindText kind).toList).toList)
            ++ [parsed.agentId.toText.toList] := rfl
    rw [tokens_build, concat, List.getLast?_concat] at last
    rw [← Option.some.inj last, Uuid.length_toText]

theorem toLower_of_not_isUpper {c : Char} (lower : c.isUpper = false) : c.toLower = c := by
  exact dif_neg (of_decide_eq_false lower)

theorem kindText_of_parse {token : List Char} {kind : RuntimeKind}
    (plain : ∀ c ∈ token, isPlain c = true)
    (read : parseRuntimeKind (String.ofList token) = some kind) : (kindText kind).toList = token := by
  have both (c : Char) (member : c ∈ token) : c.isUpper = false ∧ isWhitespace c = false := by
    have here := plain c member
    simpa only [isPlain, Bool.and_eq_true, Bool.not_eq_true'] using here
  have lower : token.map Char.toLower = token :=
    (List.map_congr_left fun c member => toLower_of_not_isUpper (both c member).1).trans
      (List.map_id' token)
  have found := List.find?_some read
  rw [String.toList_ofList, strip_of_plain fun c member => (both c member).2, lower] at found
  exact eq_of_beq found

theorem build_of_canonical (read : parseEventsIngestSubject subject = some parsed)
    (canonical : Canonical subject) : parsed.build = subject := by
  obtain ⟨kind, agent, cut, agentRead, kinds⟩ := parse_iff_spells.1 read
  obtain ⟨others, starts, split⟩ := head_of_tokens (List.append_ne_nil_of_right_ne_nil kind
    (List.cons_ne_nil agent [])) (cut.trans (List.append_assoc _ _ _))
  have joined : others = List.intercalate ['.'] (kind ++ [agent]) := by
    rw [← split, List.intercalate_splitOn]
  have plain (token : List Char) (listed : token ∈ kind ++ [agent]) (c : Char)
      (inside : c ∈ token) : isPlain c = true := by
    refine canonical.1 c ?_
    rw [starts, joined]
    exact List.mem_append_right _ (mem_intercalate_of_mem listed inside)
  have full : agent.length = 36 := canonical.2 agent (by rw [cut, List.getLast?_concat]; rfl)
  have agentText : parsed.agentId.toText.toList = agent := by
    have lower : ∀ c ∈ (String.ofList agent).toList, c.isUpper = false := by
      intro c member
      rw [String.toList_ofList] at member
      have here := plain agent (List.mem_append_right _ (.head _)) c member
      simp only [isPlain, Bool.and_eq_true, Bool.not_eq_true'] at here
      exact here.1
    rw [Uuid.toText_of_parseStr (by rw [String.toList_ofList, full]) lower agentRead,
      String.toList_ofList]
  have tokens : builtTokens parsed = kind ++ [agent] := by
    obtain ⟨agentId, runtimeKind⟩ := parsed
    cases runtimeKind with
    | none =>
        obtain rfl : kind = [] := kinds
        exact congrArg (fun text => [text]) agentText
    | some runtimeKind =>
        obtain ⟨token, rfl, kindRead⟩ := kinds
        have kindSame := kindText_of_parse (plain token (.head _)) kindRead
        exact congrArg₂ (fun kind text => [kind, text]) kindSame agentText
  rw [← String.toList_inj, toList_build, tokens, starts, joined]

end Canonical

section Ingest

theorem isRuntimeKind_eq (token : List Char) :
    ResultConsumer.isRuntimeKind token = (parseRuntimeKind (String.ofList token)).isSome := by
  rw [ResultConsumer.isRuntimeKind, parseRuntimeKind, String.toList_ofList, Bool.eq_iff_iff,
    List.find?_isSome]
  simp [kindText]

theorem agentId_of_parse (subject : String) :
    (parseEventsIngestSubject subject).map ParsedEventSubject.agentId =
      EventIngest.parseEventsIngestSubject subject := by
  have head : "events.ingest".toList ++ ['.'] = ingestHead := by decide
  rw [EventIngest.parseEventsIngestSubject, ResultConsumer.parseResultSubject]
  simp only [head]
  rw [parseEventsIngestSubject]
  split
  case isFalse => rfl
  case isTrue =>
      generalize (subject.toList.drop ingestHead.length).splitOn '.' = rest
      match rest with
      | [] => rfl
      | [agent] =>
          rw [parseTokens]
          dsimp only
          cases Uuid.parseStr (String.ofList agent) with
          | none => rfl
          | some agentId => rfl
      | [kind, agent] =>
          rw [parseTokens]
          simp only [isRuntimeKind_eq]
          cases parseRuntimeKind (String.ofList kind) with
          | none => rfl
          | some known =>
              cases Uuid.parseStr (String.ofList agent) with
              | none => rfl
              | some agentId => rfl
      | _ :: _ :: _ :: _ => rfl

end Ingest

end Forge.IngestSubject
