import Forge.NatsPermissions

/-! Two agents on one bus: what one may publish and receive does not touch the other, but for the
inboxes, which they share. -/

namespace Forge.SubjectIsolation

open Forge.CredentialConsumer
open Forge.EventIngest
open Forge.Library.Identifier
open Forge.Library.Subject
open Forge.NatsPermissions
open Forge.OutboxPublisher
open Forge.ResultConsumer
open Forge.Schema

section Texts

variable {agentId other : Uuid} {kind : RuntimeKind}

theorem digitChar_ne_dot {d : Nat} (small : d < 16) : '.' ≠ Nat.digitChar d := by
  have table : ∀ d < 16, '.' ≠ Nat.digitChar d := by decide
  exact table d small

theorem dot_not_mem_hexDigits : '.' ∉ agentId.hexDigits := by
  intro member
  obtain ⟨d, small, same⟩ := Uuid.mem_hexDigits member
  exact digitChar_ne_dot small same

theorem dot_not_mem_toText : '.' ∉ agentId.toText.toList := by
  intro member
  rcases Uuid.mem_toText member with hyphen | ⟨d, small, same⟩
  · cases hyphen
  · exact digitChar_ne_dot small same

theorem toList_consumerName :
    (assignmentConsumerName agentId).toList = "orch-assignment-".toList ++ agentId.hexDigits :=
  String.toList_append.trans (congrArg _ String.toList_ofList)

theorem length_consumerName : (assignmentConsumerName agentId).toList.length = 48 := by
  simp [toList_consumerName, agentId.length_hexDigits]

theorem consumerName_inj :
    (assignmentConsumerName agentId).toList = (assignmentConsumerName other).toList ↔
      agentId = other := by
  refine ⟨fun same => ?_, fun same => same ▸ rfl⟩
  rw [toList_consumerName, toList_consumerName, List.append_cancel_left_eq] at same
  have read := Uuid.parseSimple_hexDigits agentId
  rw [same, Uuid.parseSimple_hexDigits] at read
  exact (Option.some.inj read).symm

@[simp] theorem tokens_toText : tokens agentId.toText = [agentId.toText.toList] :=
  tokens_of_plain dot_not_mem_toText

@[simp] theorem tokens_consumerName :
    tokens (assignmentConsumerName agentId) = [(assignmentConsumerName agentId).toList] := by
  refine tokens_of_plain ?_
  simp [toList_consumerName, dot_not_mem_hexDigits]

@[simp] theorem tokens_stream :
    tokens orchestrationAssignmentsStream = [orchestrationAssignmentsStream.toList] := by
  decide

end Texts

def Mentions (agentId : Uuid) (token : List Char) : Prop :=
  Uuid.parseStr (String.ofList token) = some agentId
    ∨ token = (assignmentConsumerName agentId).toList

section Mentions

variable {agentId other : Uuid} {token : List Char}

theorem length_of_parseStr (parsed : Uuid.parseStr (String.ofList token) = some agentId) :
    token.length = 32 ∨ token.length = 36 ∨ token.length = 38 ∨ token.length = 45 := by
  rw [Uuid.parseStr, String.toList_ofList] at parsed
  split at parsed
  case isTrue length => exact .inl length
  case isFalse =>
      split at parsed
      case isTrue length => exact .inr (.inl length)
      case isFalse =>
          split at parsed
          case isTrue braced => exact .inr (.inr (.inl braced.1))
          case isFalse =>
              split at parsed
              case isTrue urn => exact .inr (.inr (.inr urn.1))
              case isFalse => cases parsed

theorem not_mentions_of_short (short : token.length < 32) : ¬ Mentions agentId token := by
  rintro (parsed | same)
  · have lengths := length_of_parseStr parsed
    omega
  · have lengths := congrArg List.length same
    rw [length_consumerName] at lengths
    omega

theorem mentions_self : Mentions agentId agentId.toText.toList := by
  refine .inl ?_
  rw [String.ofList_toList, Uuid.parseStr_toText]

theorem mentions_toText (mentions : Mentions other agentId.toText.toList) : other = agentId := by
  rcases mentions with parsed | same
  · rw [String.ofList_toList, Uuid.parseStr_toText] at parsed
    exact (Option.some.inj parsed).symm
  · have lengths := congrArg List.length same
    rw [Uuid.length_toText, length_consumerName] at lengths
    omega

theorem mentions_consumerName (mentions : Mentions other (assignmentConsumerName agentId).toList) :
    other = agentId := by
  rcases mentions with parsed | same
  · have lengths := length_of_parseStr parsed
    rw [length_consumerName] at lengths
    omega
  · exact (consumerName_inj.1 same).symm

end Mentions

section Parsers

variable {agentId : Uuid} {subject resultPrefix : String}

theorem tokens_of_parseResultSubject
    (parsed : parseResultSubject subject resultPrefix = some agentId) :
    ∃ kind agent, tokens subject = tokens resultPrefix ++ kind ++ [agent]
      ∧ (kind = [] ∨ ∃ token, kind = [token] ∧ isRuntimeKind token = true)
      ∧ Uuid.parseStr (String.ofList agent) = some agentId := by
  rw [parseResultSubject] at parsed
  split at parsed
  case isFalse => cases parsed
  case isTrue starts =>
      obtain ⟨others, same⟩ := List.isPrefixOf_iff_prefix.1 starts
      rw [← same, List.drop_left] at parsed
      have cut : tokens subject = tokens resultPrefix ++ others.splitOn '.' := by
        rw [tokens, ← same, List.append_assoc, List.singleton_append,
          List.splitOn_append_cons_self]
        rfl
      rw [cut]
      split at parsed
      case h_1 agent alone => exact ⟨[], agent, by rw [alone, List.append_nil], .inl rfl, parsed⟩
      case h_2 kind agent pair =>
          split at parsed
          case isTrue known =>
              exact ⟨[kind], agent, by rw [pair, List.append_assoc]; rfl,
                .inr ⟨kind, rfl, known⟩, parsed⟩
          case isFalse => cases parsed
      case h_3 => cases parsed

theorem tokens_of_parseCreds (parsed : parseAgentIdFromCredsSubject subject = some agentId) :
    ∃ agent, tokens subject = ["creds".toList, agent]
      ∧ Uuid.parseStr (String.ofList agent) = some agentId := by
  unfold parseAgentIdFromCredsSubject at parsed
  dsimp only at parsed
  split at parsed
  case isFalse => cases parsed
  case isTrue known =>
      obtain ⟨starts, plain⟩ := Bool.and_eq_true_iff.1 known
      obtain ⟨others, same⟩ := List.isPrefixOf_iff_prefix.1 starts
      rw [← same, List.drop_left] at parsed plain
      refine ⟨others, ?_, parsed⟩
      have joined : subject.toList = "creds".toList ++ '.' :: others := same.symm
      have whole : others.splitOn '.' = [others] := List.splitOn_eq_singleton (by simpa using plain)
      rw [tokens, joined, List.splitOn_append_cons_self, whole]
      rfl

theorem tokens_of_parseHeartbeat (parsed : parseHeartbeatAgentId subject = some agentId) :
    ∃ agent, tokens subject = ["sidecar".toList, agent, "heartbeat".toList]
      ∧ Uuid.parseStr (String.ofList agent) = some agentId := by
  rw [parseHeartbeatAgentId] at parsed
  split at parsed
  case h_1 first agent last cut =>
      split at parsed
      case isTrue ends =>
          obtain ⟨rfl, rfl⟩ := ends
          exact ⟨agent, cut, parsed⟩
      case isFalse => cases parsed
  case h_2 => cases parsed

theorem mentions_of_actsAs (acts : ActsAs resultPrefix agentId subject) :
    ∃ token ∈ tokens subject, Mentions agentId token := by
  cases acts with
  | event parsed =>
      obtain ⟨kind, agent, cut, -, read⟩ := tokens_of_parseResultSubject parsed
      exact ⟨agent, by simp [cut], .inl read⟩
  | result parsed =>
      obtain ⟨kind, agent, cut, -, read⟩ := tokens_of_parseResultSubject parsed
      exact ⟨agent, by simp [cut], .inl read⟩
  | credentials parsed =>
      obtain ⟨agent, cut, read⟩ := tokens_of_parseCreds parsed
      exact ⟨agent, by simp [cut], .inl read⟩
  | heartbeat parsed =>
      obtain ⟨agent, cut, read⟩ := tokens_of_parseHeartbeat parsed
      exact ⟨agent, by simp [cut], .inl read⟩
  | request names =>
      obtain ⟨verb, others, cut⟩ := names
      exact ⟨_, by simp [cut], .inr rfl⟩
  | acknowledgement names =>
      obtain ⟨others, cut⟩ := names
      exact ⟨_, by simp [cut], .inr rfl⟩

end Parsers

section Grants

variable {agentId other : Uuid} {kind : RuntimeKind} {subject : String}

def Short (token : List Char) : Prop :=
  token.length < 32 ∧ token ≠ single ∧ token ≠ rest

instance (token : List Char) : Decidable (Short token) :=
  inferInstanceAs (Decidable (_ ∧ _))

def Owned (agentId : Uuid) (subject : String) : Prop :=
  ∀ token ∈ tokens subject, Short token ∨ token = agentId.toText.toList
    ∨ token = (assignmentConsumerName agentId).toList

theorem Owned.plain (owned : Owned agentId subject) : Plain (tokens subject) := by
  have long : ∀ token ∈ tokens subject, token ≠ single ∧ token ≠ rest := by
    intro token member
    rcases owned token member with ⟨-, plain⟩ | same | same
    · exact plain
    · have length := agentId.length_toText
      rw [← same] at length
      exact ⟨fun one => by simp [one, single] at length, fun one => by simp [one, rest] at length⟩
    · have length := @length_consumerName agentId
      rw [← same] at length
      exact ⟨fun one => by simp [one, single] at length, fun one => by simp [one, rest] at length⟩
  exact ⟨fun member => (long _ member).1 rfl, fun member => (long _ member).2 rfl⟩

theorem Owned.mentions (owned : Owned agentId subject) {token : List Char}
    (member : token ∈ tokens subject) (mentions : Mentions other token) : other = agentId := by
  rcases owned token member with ⟨short, -⟩ | same | same
  · exact absurd mentions (not_mentions_of_short short)
  · exact mentions_toText (same ▸ mentions)
  · exact mentions_consumerName (same ▸ mentions)

theorem Owned.join {left right : String} (first : Owned agentId left)
    (second : Owned agentId right) : Owned agentId (left ++ "." ++ right) := by
  intro token member
  rw [tokens_append_dot, List.mem_append] at member
  exact member.elim (first token) (second token)

theorem owned_words {words : String} (short : ∀ token ∈ tokens words, Short token) :
    Owned agentId words :=
  fun token member => .inl (short token member)

theorem owned_toText : Owned agentId agentId.toText := by
  intro token member
  rw [tokens_toText, List.mem_singleton] at member
  exact .inr (.inl member)

theorem owned_consumerName : Owned agentId (assignmentConsumerName agentId) := by
  intro token member
  rw [tokens_consumerName, List.mem_singleton] at member
  exact .inr (.inr member)

theorem owned_kindText : Owned agentId (kindText kind) := by
  refine owned_words ?_
  cases kind <;> decide

theorem owned_stream : Owned agentId orchestrationAssignmentsStream :=
  owned_words (by decide)

theorem owned_assignSubject : Owned agentId (assignSubject agentId) :=
  Owned.join (owned_words (by decide)) owned_toText

theorem owned_assignSubjectKind : Owned agentId (assignSubjectKind kind agentId) :=
  ((owned_words (by decide)).join owned_kindText).join owned_toText

theorem owned_heartbeat : Owned agentId (heartbeatSubject agentId) :=
  ((owned_words (by decide)).join owned_toText).join (owned_words (by decide))

theorem owned_command : Owned agentId (commandSubject agentId) :=
  ((owned_words (by decide)).join owned_toText).join (owned_words (by decide))

theorem owned_ack : Owned agentId (assignmentConsumerAckSubject agentId) :=
  ((owned_words (by decide)).join owned_stream).join owned_consumerName

def exactGrants (agentId : Uuid) (kind : RuntimeKind) : List String := [
  eventsIngestSubject kind agentId, eventsIngestLegacySubject agentId, heartbeatSubject agentId,
  resultSubjectKind kind agentId, resultSubject agentId, credsSubject agentId,
  assignmentConsumerCreateSubject agentId, assignmentConsumerCreateSubjectKind kind agentId,
  assignmentConsumerInfoSubject agentId, assignmentConsumerNextSubject agentId]

theorem pubAllow_eq : (buildAgentPermissions agentId kind).pubAllow = exactGrants agentId kind
    ++ [assignmentConsumerAckSubjectPattern agentId, "_INBOX.>"] :=
  rfl

theorem owned_exactGrants : ∀ pattern ∈ exactGrants agentId kind, Owned agentId pattern := by
  have words : ∀ {text}, (∀ token ∈ tokens text, Short token) → Owned agentId text := owned_words
  simp only [exactGrants, List.forall_mem_cons]
  refine ⟨?_, ?_, owned_heartbeat, ?_, ?_, ?_, ?_, ?_, ?_, ?_, nofun⟩
  · exact ((words (by decide)).join owned_kindText).join owned_toText
  · exact Owned.join (words (by decide)) owned_toText
  · exact ((words (by decide)).join owned_kindText).join owned_toText
  · exact Owned.join (words (by decide)) owned_toText
  · exact Owned.join (words (by decide)) owned_toText
  · exact (((words (by decide)).join owned_stream).join owned_consumerName).join
      owned_assignSubject
  · exact (((words (by decide)).join owned_stream).join owned_consumerName).join
      owned_assignSubjectKind
  · exact ((words (by decide)).join owned_stream).join owned_consumerName
  · exact ((words (by decide)).join owned_stream).join owned_consumerName

theorem mayPublish_cases (may : (buildAgentPermissions agentId kind).MayPublish subject) :
    Owned agentId subject
      ∨ (∃ tail, tail ≠ [] ∧
        tokens subject = tokens (assignmentConsumerAckSubject agentId) ++ tail)
      ∨ IsInbox subject := by
  obtain ⟨⟨pattern, member, matched⟩, -⟩ := may
  rw [pubAllow_eq, List.mem_append] at member
  rcases member with exactly | wild
  · have owned := owned_exactGrants pattern exactly
    have same := (matchTokens_plain owned.plain).1 matched
    refine .inl fun token here => owned token ?_
    rwa [same] at here
  · rw [List.mem_cons, List.mem_singleton] at wild
    rcases wild with same | same
    · rw [same, isMatch, assignmentConsumerAckSubjectPattern, tokens_append_dot] at matched
      exact .inr (.inl ((matchTokens_rest owned_ack.plain).1 matched))
    · rw [same, isMatch, show tokens "_INBOX.>" = tokens "_INBOX" ++ [rest] by decide] at matched
      have plain : Plain (tokens "_INBOX") := ⟨by decide, by decide⟩
      exact .inr (.inr ((matchTokens_rest plain).1 matched))

theorem tokens_ack : tokens (assignmentConsumerAckSubject agentId)
    = ["$JS".toList, "ACK".toList, orchestrationAssignmentsStream.toList,
      (assignmentConsumerName agentId).toList] := by
  rw [assignmentConsumerAckSubject, tokens_append_dot, tokens_append_dot, tokens_stream,
    tokens_consumerName, show tokens "$JS.ACK" = ["$JS".toList, "ACK".toList] by decide]
  rfl

def Apart (resultPrefix : String) (agentId : Uuid) : Prop :=
  ¬ tokens "_INBOX" <+: tokens resultPrefix
    ∧ ¬ tokens (assignmentConsumerAckSubject agentId) <+: tokens resultPrefix

theorem head_of_actsAs {resultPrefix : String} (acts : ActsAs resultPrefix other subject) :
    (∃ kind agent, tokens subject = tokens resultPrefix ++ kind ++ [agent]
        ∧ (kind = [] ∨ ∃ token, kind = [token] ∧ isRuntimeKind token = true))
      ∨ (tokens subject).head? ∈ [some "events".toList, some "creds".toList,
        some "sidecar".toList]
      ∨ IsConsumerRequest subject other ∨ IsAcknowledgement subject other := by
  cases acts with
  | event parsed =>
      obtain ⟨kind, agent, cut, -⟩ := tokens_of_parseResultSubject parsed
      rw [show tokens "events.ingest" = ["events".toList, "ingest".toList] by decide] at cut
      exact .inr (.inl (by simp [cut]))
  | result parsed =>
      obtain ⟨kind, agent, cut, kinds, -⟩ := tokens_of_parseResultSubject parsed
      exact .inl ⟨kind, agent, cut, kinds⟩
  | credentials parsed =>
      obtain ⟨agent, cut, -⟩ := tokens_of_parseCreds parsed
      exact .inr (.inl (by simp [cut]))
  | heartbeat parsed =>
      obtain ⟨agent, cut, -⟩ := tokens_of_parseHeartbeat parsed
      exact .inr (.inl (by simp [cut]))
  | request names => exact .inr (.inr (.inl names))
  | acknowledgement names => exact .inr (.inr (.inr names))

theorem not_kind_of_consumerName :
    isRuntimeKind (assignmentConsumerName agentId).toList = false := by
  have member : '-' ∈ (assignmentConsumerName agentId).toList := by
    simp [toList_consumerName]
  have kept : '-' ∈ (Library.Text.strip OrchestrationView.isWhitespace
      (assignmentConsumerName agentId).toList).map Char.toLower :=
    List.mem_map.2 ⟨'-', Library.Text.mem_strip member (by decide), by decide⟩
  by_contra known
  rw [Bool.not_eq_false, isRuntimeKind, List.any_eq_true] at known
  obtain ⟨kind, listed, same⟩ := known
  rw [← eq_of_beq same] at kept
  have hyphens : ∀ kind ∈ ["container", "cli", "api"], '-' ∉ kind.toList := by decide
  exact hyphens kind listed kept

theorem ack_not_result {resultPrefix : String} {tail kind : List (List Char)} {agent : List Char}
    (apart : Apart resultPrefix agentId) (some : tail ≠ [])
    (kinds : kind = [] ∨ ∃ token, kind = [token] ∧ isRuntimeKind token = true)
    (same : tokens (assignmentConsumerAckSubject agentId) ++ tail
      = tokens resultPrefix ++ kind ++ [agent]) : False := by
  have front : tokens (assignmentConsumerAckSubject agentId)
      <+: tokens resultPrefix ++ kind ++ [agent] := ⟨tail, same⟩
  have within : tokens resultPrefix <+: tokens resultPrefix ++ kind ++ [agent] :=
    ⟨kind ++ [agent], by rw [List.append_assoc]⟩
  have four : (tokens (assignmentConsumerAckSubject agentId)).length = 4 := by
    rw [tokens_ack]; rfl
  have lengths := congrArg List.length same
  have more : 0 < tail.length := List.length_pos_of_ne_nil some
  simp only [List.length_append, List.length_singleton, four] at lengths
  have short : (tokens resultPrefix).length < 4 := by
    by_contra long
    exact apart.2 (List.prefix_of_prefix_length_le front within (by omega))
  rcases kinds with rfl | ⟨token, rfl, known⟩
  · simp only [List.length_nil] at lengths
    omega
  · simp only [List.length_singleton] at lengths
    -- The kind is the fourth token, the consumer.
    have fourth := congrArg (·[3]?) same
    have three : (tokens resultPrefix).length = 3 := by omega
    rw [tokens_ack] at fourth
    simp [three] at fourth
    rw [← fourth, not_kind_of_consumerName] at known
    cases known

theorem not_actsAs_of_ack {resultPrefix : String} {tail : List (List Char)}
    (distinct : agentId ≠ other) (apart : Apart resultPrefix agentId) (some : tail ≠ [])
    (cut : tokens subject = tokens (assignmentConsumerAckSubject agentId) ++ tail) :
    ¬ ActsAs resultPrefix other subject := by
  intro acts
  rcases head_of_actsAs acts with ⟨kind, agent, read, kinds⟩ | first | names | names
  · exact ack_not_result apart some kinds (cut.symm.trans read)
  · rw [cut, tokens_ack] at first
    simp at first
  · obtain ⟨verb, others, read⟩ := names
    rw [cut, tokens_ack, show tokens "$JS.API.CONSUMER"
      = ["$JS".toList, "API".toList, "CONSUMER".toList] by decide] at read
    simp at read
  · obtain ⟨others, read⟩ := names
    rw [cut, tokens_ack, show tokens "$JS.ACK" = ["$JS".toList, "ACK".toList] by decide] at read
    simp only [List.cons_append, List.nil_append, List.cons.injEq, true_and] at read
    exact distinct (consumerName_inj.1 read.1)

theorem not_actsAs_of_inbox {resultPrefix : String} (apart : Apart resultPrefix agentId)
    (inbox : IsInbox subject) : ¬ ActsAs resultPrefix other subject := by
  intro acts
  obtain ⟨drawn, some, cut⟩ := inbox
  rw [show tokens "_INBOX" = ["_INBOX".toList] by decide] at cut
  rcases head_of_actsAs acts with ⟨kind, agent, read, kinds⟩ | first | names | names
  · refine apart.1 ?_
    rw [show tokens "_INBOX" = ["_INBOX".toList] by decide]
    refine List.prefix_of_prefix_length_le ⟨drawn, rfl⟩ ⟨kind ++ [agent], ?_⟩ ?_
    · rw [← List.append_assoc, ← read, cut]
    · exact List.length_pos_of_ne_nil (tokens_ne_nil _)
  · rw [cut] at first
    simp at first
  · obtain ⟨verb, others, read⟩ := names
    rw [cut, show tokens "$JS.API.CONSUMER"
      = ["$JS".toList, "API".toList, "CONSUMER".toList] by decide] at read
    simp at read
  · obtain ⟨others, read⟩ := names
    rw [cut, show tokens "$JS.ACK" = ["$JS".toList, "ACK".toList] by decide] at read
    simp at read

theorem not_actsAs {resultPrefix : String} (distinct : agentId ≠ other)
    (apart : Apart resultPrefix agentId)
    (may : (buildAgentPermissions agentId kind).MayPublish subject) :
    ¬ ActsAs resultPrefix other subject := by
  rcases mayPublish_cases may with owned | ⟨tail, some, cut⟩ | inbox
  · intro acts
    obtain ⟨token, member, mentions⟩ := mentions_of_actsAs acts
    exact distinct (owned.mentions member mentions).symm
  · exact not_actsAs_of_ack distinct apart some cut
  · exact not_actsAs_of_inbox apart inbox

theorem inbox_of_receives (distinct : agentId ≠ other)
    (receives : (buildAgentPermissions agentId kind).Receives subject)
    (carries : Carries other subject) : IsInbox subject := by
  obtain ⟨pattern, member, matched⟩ := receives.allowed
  have exactly : ∀ pattern, Owned agentId pattern → isMatch pattern subject = true →
      Owned agentId subject := by
    intro pattern owned matched token here
    rw [(matchTokens_plain owned.plain).1 matched] at here
    exact owned token here
  have foreign : Owned agentId subject → other.toText.toList ∉ tokens subject :=
    fun owned member => distinct (owned.mentions member mentions_self).symm
  have stranger : Owned agentId subject → IsInbox subject := by
    intro owned
    cases carries with
    | reply inbox => exact inbox
    | assignment =>
        refine absurd ?_ (foreign owned)
        rw [assignSubject, tokens_append_dot, tokens_toText]
        exact List.mem_append_right _ (List.mem_singleton_self _)
    | assignmentKind kind =>
        refine absurd ?_ (foreign owned)
        rw [assignSubjectKind, tokens_append_dot, tokens_toText]
        exact List.mem_append_right _ (List.mem_singleton_self _)
    | command =>
        refine absurd ?_ (foreign owned)
        rw [commandSubject, tokens_append_dot, tokens_append_dot, tokens_toText]
        exact List.mem_append_left _ (List.mem_append_right _ (List.mem_singleton_self _))
  simp only [buildAgentPermissions, List.mem_cons, List.not_mem_nil, or_false] at member
  rcases member with rfl | rfl | rfl
  · exact stranger (exactly _ owned_command matched)
  · exact stranger (exactly _ owned_assignSubject matched)
  · rw [isMatch, show tokens "_INBOX.>" = tokens "_INBOX" ++ [rest] by decide] at matched
    have plain : Plain (tokens "_INBOX") := ⟨by decide, by decide⟩
    exact (matchTokens_rest plain).1 matched

end Grants

section Own

variable {agentId : Uuid} {kind : RuntimeKind} {subject word : String}

def Incomparable (left right : String) : Prop :=
  ¬ tokens left <+: tokens right ∧ ¬ tokens right <+: tokens left

instance (left right : String) : Decidable (Incomparable left right) :=
  inferInstanceAs (Decidable (_ ∧ _))

theorem not_denied {denied : String} (plain : Plain (tokens denied))
    (begins : tokens word <+: tokens subject) (differs : Incomparable denied word) :
    isMatch (denied ++ "." ++ ">") subject = false := by
  by_contra matched
  rw [Bool.not_eq_false, isMatch, tokens_append_dot] at matched
  obtain ⟨tail, -, cut⟩ := (matchTokens_rest plain).1 matched
  rcases List.prefix_or_prefix_of_prefix ⟨tail, cut.symm⟩ begins with inside | outside
  · exact differs.1 inside
  · exact differs.2 outside

def deniedWords : List String := ["$SYS", "$SRV", "broadcast", "orchestration.assigned"]

theorem not_pubDeny (begins : tokens word <+: tokens subject)
    (differs : ∀ denied ∈ deniedWords, Incomparable denied word) :
    ∀ pattern ∈ (buildAgentPermissions agentId kind).pubDeny, isMatch pattern subject = false := by
  intro pattern member
  have shape : (buildAgentPermissions agentId kind).pubDeny
      = deniedWords.map (· ++ "." ++ ">") := by
    show ["$SYS.>", "$SRV.>", "broadcast.>", "orchestration.assigned.>"] = _
    decide
  rw [shape] at member
  obtain ⟨denied, listed, rfl⟩ := List.mem_map.1 member
  have plain : ∀ denied ∈ deniedWords, single ∉ tokens denied ∧ rest ∉ tokens denied := by decide
  exact not_denied (plain denied listed) begins (differs denied listed)

variable (word) in
theorem mayPublish_exactly (granted : subject ∈ exactGrants agentId kind)
    (begins : tokens word <+: tokens subject)
    (differs : ∀ denied ∈ deniedWords, Incomparable denied word) :
    (buildAgentPermissions agentId kind).MayPublish subject := by
  refine ⟨⟨subject, ?_, matchTokens_self _⟩, not_pubDeny begins differs⟩
  rw [pubAllow_eq]
  exact List.mem_append_left _ granted

theorem begins_join (word more : String) : tokens word <+: tokens (word ++ "." ++ more) := by
  rw [tokens_append_dot]
  exact List.prefix_append _ _

theorem mayPublish_of_sidecar (publishes : SidecarPublishes kind agentId subject) :
    (buildAgentPermissions agentId kind).MayPublish subject := by
  cases publishes with
  | event =>
      refine mayPublish_exactly "events.ingest" (by simp [exactGrants]) ?_ (by decide)
      exact (begins_join _ _).trans (begins_join _ _)
  | heartbeat =>
      refine mayPublish_exactly "sidecar" (by simp [exactGrants]) ?_ (by decide)
      exact (begins_join _ _).trans (begins_join _ _)
  | result =>
      refine mayPublish_exactly "orchestration.result" (by simp [exactGrants]) ?_ (by decide)
      exact (begins_join _ _).trans (begins_join _ _)
  | credentials =>
      exact mayPublish_exactly "creds" (by simp [exactGrants]) (begins_join _ _) (by decide)
  | create =>
      refine mayPublish_exactly "$JS.API.CONSUMER.CREATE" (by simp [exactGrants]) ?_ (by decide)
      exact (begins_join _ _).trans ((begins_join _ _).trans (begins_join _ _))
  | info =>
      refine mayPublish_exactly "$JS.API.CONSUMER.INFO" (by simp [exactGrants]) ?_ (by decide)
      exact (begins_join _ _).trans (begins_join _ _)
  | next =>
      refine mayPublish_exactly "$JS.API.CONSUMER.MSG.NEXT" (by simp [exactGrants]) ?_ (by decide)
      exact (begins_join _ _).trans (begins_join _ _)
  | acknowledgement delivery =>
      have begins : tokens "$JS.ACK"
          <+: tokens (assignmentConsumerAckSubject agentId ++ "." ++ delivery) :=
        (begins_join _ _).trans ((begins_join _ _).trans (begins_join _ _))
      refine ⟨⟨assignmentConsumerAckSubjectPattern agentId, by rw [pubAllow_eq]; simp, ?_⟩,
        not_pubDeny begins (by decide)⟩
      rw [isMatch, assignmentConsumerAckSubjectPattern, tokens_append_dot _ ">"]
      exact (matchTokens_rest owned_ack.plain).2
        ⟨tokens delivery, tokens_ne_nil delivery, tokens_append_dot _ _⟩
  | reply inbox =>
      obtain ⟨drawn, some, cut⟩ := inbox
      have begins : tokens "_INBOX" <+: tokens subject := ⟨drawn, cut.symm⟩
      refine ⟨⟨"_INBOX.>", by rw [pubAllow_eq]; simp, ?_⟩, not_pubDeny begins (by decide)⟩
      have plain : Plain (tokens "_INBOX") := ⟨by decide, by decide⟩
      rw [isMatch, show tokens "_INBOX.>" = tokens "_INBOX" ++ [rest] by decide]
      exact (matchTokens_rest plain).2 ⟨drawn, some, cut⟩

theorem not_subDeny (begins : tokens word <+: tokens subject)
    (differs : ∀ denied ∈ deniedWords, Incomparable denied word) :
    ∀ pattern ∈ (buildAgentPermissions agentId kind).subDeny, covers pattern subject = false := by
  intro pattern member
  have kept : isMatch pattern subject = false := by
    refine @not_pubDeny agentId kind subject word begins differs pattern ?_
    simp only [buildAgentPermissions, List.mem_cons, List.not_mem_nil, or_false] at member ⊢
    rcases member with same | same | same <;> simp [same]
  by_contra covered
  rw [Bool.not_eq_false] at covered
  rw [isMatch, matchTokens_of_coverTokens covered] at kept
  cases kept

theorem maySubscribe_of_sidecar (subscribes : SidecarSubscribes agentId subject) :
    (buildAgentPermissions agentId kind).MaySubscribe subject := by
  cases subscribes with
  | command =>
      have begins : tokens "sidecar" <+: tokens (commandSubject agentId) :=
        (begins_join _ _).trans (begins_join _ _)
      refine ⟨⟨commandSubject agentId, .head _, ?_⟩, not_subDeny begins (by decide)⟩
      rw [covers, coverTokens_plain owned_command.plain]
      exact matchTokens_self _
  | inbox drawn =>
      have begins : tokens "_INBOX" <+: tokens ("_INBOX" ++ "." ++ drawn) := begins_join _ _
      refine ⟨⟨"_INBOX.>", .tail _ (.tail _ (.head _)), ?_⟩, not_subDeny begins (by decide)⟩
      rw [covers, tokens_append_dot]
      cases cut : tokens drawn with
      | nil => exact absurd cut (tokens_ne_nil drawn)
      | cons first others =>
          have left : tokens "_INBOX.>" = tokens "_INBOX" ++ [rest] := by decide
          rw [left, show tokens "_INBOX" = ["_INBOX".toList] by decide]
          simp [coverTokens, single, rest]

end Own

/-- Under a prefix apart from the replies and from the agent's own acknowledgements, an agent
publishes nothing that counts as another's, receives nothing for it but replies, and its sidecar
is granted what it needs. -/
theorem isolated (agentId other : Uuid) (kind : RuntimeKind) (resultPrefix : String)
    (distinct : agentId ≠ other) (apart : Apart resultPrefix agentId) :
    (∀ subject, (buildAgentPermissions agentId kind).MayPublish subject →
        ¬ ActsAs resultPrefix other subject)
      ∧ (∀ subject, (buildAgentPermissions agentId kind).Receives subject →
        Carries other subject → IsInbox subject)
      ∧ (∀ subject, SidecarPublishes kind agentId subject →
        (buildAgentPermissions agentId kind).MayPublish subject)
      ∧ ∀ subject, SidecarSubscribes agentId subject →
        (buildAgentPermissions agentId kind).MaySubscribe subject := by
  refine ⟨fun subject may => not_actsAs distinct apart may, fun subject receives carries => ?_,
    fun subject publishes => mayPublish_of_sidecar publishes,
    fun subject subscribes => maySubscribe_of_sidecar subscribes⟩
  exact inbox_of_receives distinct receives carries

theorem isolated_default :
    (⟨0⟩ : Uuid) ≠ ⟨1⟩ ∧ Apart "orchestration.result" ⟨0⟩
      ∧ (buildAgentPermissions ⟨0⟩ .cli).MayPublish (resultSubjectKind .cli ⟨0⟩)
      ∧ ¬ ActsAs "orchestration.result" ⟨1⟩ (resultSubjectKind .cli ⟨0⟩) := by
  have distinct : (⟨0⟩ : Uuid) ≠ ⟨1⟩ := by decide
  have apart : Apart "orchestration.result" ⟨0⟩ := by
    refine ⟨by decide, ?_⟩
    rw [tokens_ack]
    decide
  obtain ⟨others, -, own, -⟩ := isolated ⟨0⟩ ⟨1⟩ .cli "orchestration.result" distinct apart
  exact ⟨distinct, apart, own _ .result, others _ (own _ .result)⟩

theorem parseResultSubject_bare (resultPrefix : String) (agentId : Uuid) :
    parseResultSubject (resultPrefix ++ "." ++ agentId.toText) resultPrefix = some agentId := by
  have chars : (resultPrefix ++ "." ++ agentId.toText).toList =
      (resultPrefix.toList ++ ['.']) ++ agentId.toText.toList := by
    rw [String.toList_append, String.toList_append]
    rfl
  have one : agentId.toText.toList.splitOn '.' = [agentId.toText.toList] := tokens_toText
  simp only [parseResultSubject, chars, List.drop_left', one, List.isPrefixOf_iff_prefix,
    List.prefix_append, if_true, String.ofList_toList, Uuid.parseStr_toText]

/-- The inboxes are shared: an agent subscribes to another's reply. A prefix inside the inboxes or
inside an agent's acknowledgements lets it publish another's results. -/
theorem inboxes_are_shared :
    (⟨0⟩ : Uuid) ≠ ⟨1⟩
      ∧ ((buildAgentPermissions ⟨0⟩ .cli).Receives "_INBOX.reply" ∧ Carries ⟨1⟩ "_INBOX.reply")
      ∧ ((buildAgentPermissions ⟨0⟩ .cli).MayPublish ("_INBOX" ++ "." ++ (⟨1⟩ : Uuid).toText)
        ∧ ActsAs "_INBOX" ⟨1⟩ ("_INBOX" ++ "." ++ (⟨1⟩ : Uuid).toText))
      ∧ (buildAgentPermissions ⟨0⟩ .cli).MayPublish
          (assignmentConsumerAckSubject ⟨0⟩ ++ "." ++ (⟨1⟩ : Uuid).toText)
        ∧ ActsAs (assignmentConsumerAckSubject ⟨0⟩) ⟨1⟩
          (assignmentConsumerAckSubject ⟨0⟩ ++ "." ++ (⟨1⟩ : Uuid).toText) := by
  refine ⟨by decide, ⟨?_, .reply ⟨["reply".toList], by decide, by decide⟩⟩,
    ⟨?_, .result (parseResultSubject_bare _ _)⟩, ?_, .result (parseResultSubject_bare _ _)⟩
  · exact Permissions.receives_of_maySubscribe ⟨by decide, by decide⟩
      (maySubscribe_of_sidecar (.inbox "reply"))
  · refine mayPublish_of_sidecar (.reply ⟨[(⟨1⟩ : Uuid).toText.toList], List.cons_ne_nil _ _, ?_⟩)
    rw [tokens_append_dot, tokens_toText]
  · exact mayPublish_of_sidecar (.acknowledgement _)

end Forge.SubjectIsolation
