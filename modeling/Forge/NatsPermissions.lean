import Forge.CredentialConsumer
import Forge.EventIngest
import Forge.Library.Subject
import Forge.OutboxPublisher

/-! The subjects of the workload protocol, and the permissions that an agent is connected with. -/

namespace Forge.NatsPermissions

open Forge.CredentialConsumer
open Forge.EventIngest
open Forge.Library.Identifier
open Forge.Library.Subject
open Forge.OutboxPublisher
open Forge.ResultConsumer
open Forge.Schema

/-- `ORCHESTRATION_ASSIGNMENTS_STREAM`. -/
def orchestrationAssignmentsStream : String := "ORCHESTRATION_ASSIGNMENTS"

def eventsIngestSubject (kind : RuntimeKind) (agentId : Uuid) : String :=
  "events.ingest" ++ "." ++ kindText kind ++ "." ++ agentId.toText

def eventsIngestLegacySubject (agentId : Uuid) : String :=
  "events.ingest" ++ "." ++ agentId.toText

def resultSubject (agentId : Uuid) : String :=
  "orchestration.result" ++ "." ++ agentId.toText

def resultSubjectKind (kind : RuntimeKind) (agentId : Uuid) : String :=
  "orchestration.result" ++ "." ++ kindText kind ++ "." ++ agentId.toText

def credsSubject (agentId : Uuid) : String :=
  "creds" ++ "." ++ agentId.toText

def heartbeatSubject (agentId : Uuid) : String :=
  "sidecar" ++ "." ++ agentId.toText ++ "." ++ "heartbeat"

def commandSubject (agentId : Uuid) : String :=
  "sidecar" ++ "." ++ agentId.toText ++ "." ++ "cmd"

/-- `orch-assignment-` and the digits without hyphens. -/
def assignmentConsumerName (agentId : Uuid) : String :=
  "orch-assignment-" ++ String.ofList agentId.hexDigits

def assignmentConsumerCreateSubject (agentId : Uuid) : String :=
  "$JS.API.CONSUMER.CREATE" ++ "." ++ orchestrationAssignmentsStream ++ "."
    ++ assignmentConsumerName agentId ++ "." ++ assignSubject agentId

def assignmentConsumerCreateSubjectKind (kind : RuntimeKind) (agentId : Uuid) : String :=
  "$JS.API.CONSUMER.CREATE" ++ "." ++ orchestrationAssignmentsStream ++ "."
    ++ assignmentConsumerName agentId ++ "." ++ assignSubjectKind kind agentId

def assignmentConsumerInfoSubject (agentId : Uuid) : String :=
  "$JS.API.CONSUMER.INFO" ++ "." ++ orchestrationAssignmentsStream ++ "."
    ++ assignmentConsumerName agentId

def assignmentConsumerNextSubject (agentId : Uuid) : String :=
  "$JS.API.CONSUMER.MSG.NEXT" ++ "." ++ orchestrationAssignmentsStream ++ "."
    ++ assignmentConsumerName agentId

def assignmentConsumerAckSubject (agentId : Uuid) : String :=
  "$JS.ACK" ++ "." ++ orchestrationAssignmentsStream ++ "." ++ assignmentConsumerName agentId

def assignmentConsumerAckSubjectPattern (agentId : Uuid) : String :=
  assignmentConsumerAckSubject agentId ++ "." ++ ">"

/-- `build_agent_permissions`. -/
def buildAgentPermissions (agentId : Uuid) (runtimeKind : RuntimeKind) : Permissions where
  pubAllow := [
    eventsIngestSubject runtimeKind agentId,
    eventsIngestLegacySubject agentId,
    heartbeatSubject agentId,
    resultSubjectKind runtimeKind agentId,
    resultSubject agentId,
    credsSubject agentId,
    assignmentConsumerCreateSubject agentId,
    assignmentConsumerCreateSubjectKind runtimeKind agentId,
    assignmentConsumerInfoSubject agentId,
    assignmentConsumerNextSubject agentId,
    assignmentConsumerAckSubjectPattern agentId,
    "_INBOX.>"]
  pubDeny := ["$SYS.>", "$SRV.>", "broadcast.>", "orchestration.assigned.>"]
  subAllow := [commandSubject agentId, assignSubject agentId, "_INBOX.>"]
  subDeny := ["$SYS.>", "$SRV.>", "broadcast.>"]

/-- `parse_heartbeat_agent_id`. -/
def parseHeartbeatAgentId (subject : String) : Option Uuid :=
  match tokens subject with
  | [first, agent, last] =>
      if first = "sidecar".toList ∧ last = "heartbeat".toList then
        Uuid.parseStr (String.ofList agent)
      else none
  | _ => none

def IsConsumerRequest (subject : String) (agentId : Uuid) : Prop :=
  ∃ verb others, tokens subject = tokens "$JS.API.CONSUMER" ++ verb
    ++ orchestrationAssignmentsStream.toList :: (assignmentConsumerName agentId).toList :: others

def IsAcknowledgement (subject : String) (agentId : Uuid) : Prop :=
  ∃ others, tokens subject = tokens "$JS.ACK"
    ++ orchestrationAssignmentsStream.toList :: (assignmentConsumerName agentId).toList :: others

/-- A message on the subject counts as one of the agent, or acts on its consumer. The results are
read under a prefix. -/
inductive ActsAs (resultPrefix : String) (agentId : Uuid) (subject : String) : Prop where
  | event (parsed : parseEventsIngestSubject subject = some agentId)
  | result (parsed : parseResultSubject subject resultPrefix = some agentId)
  | credentials (parsed : parseAgentIdFromCredsSubject subject = some agentId)
  | heartbeat (parsed : parseHeartbeatAgentId subject = some agentId)
  | request (names : IsConsumerRequest subject agentId)
  | acknowledgement (names : IsAcknowledgement subject agentId)

def IsInbox (subject : String) : Prop :=
  ∃ drawn, drawn ≠ [] ∧ tokens subject = tokens "_INBOX" ++ drawn

/-- The subject carries messages for the agent. -/
inductive Carries (agentId : Uuid) : String → Prop where
  | assignment : Carries agentId (assignSubject agentId)
  | assignmentKind (kind : RuntimeKind) : Carries agentId (assignSubjectKind kind agentId)
  | command : Carries agentId (commandSubject agentId)
  | reply {subject : String} (inbox : IsInbox subject) : Carries agentId subject

/-- What the sidecar of an agent publishes: events, heartbeats, results, credentials, the requests
and acknowledgements on its consumer, and replies to commands. -/
inductive SidecarPublishes (kind : RuntimeKind) (agentId : Uuid) : String → Prop where
  | event : SidecarPublishes kind agentId (eventsIngestSubject kind agentId)
  | heartbeat : SidecarPublishes kind agentId (heartbeatSubject agentId)
  | result : SidecarPublishes kind agentId (resultSubjectKind kind agentId)
  | credentials : SidecarPublishes kind agentId (credsSubject agentId)
  | create : SidecarPublishes kind agentId (assignmentConsumerCreateSubjectKind kind agentId)
  | info : SidecarPublishes kind agentId (assignmentConsumerInfoSubject agentId)
  | next : SidecarPublishes kind agentId (assignmentConsumerNextSubject agentId)
  | acknowledgement (delivery : String) : SidecarPublishes kind agentId
      (assignmentConsumerAckSubject agentId ++ "." ++ delivery)
  | reply {subject : String} (inbox : IsInbox subject) : SidecarPublishes kind agentId subject

/-- What it subscribes to: commands, and inboxes that it draws. -/
inductive SidecarSubscribes (agentId : Uuid) : String → Prop where
  | command : SidecarSubscribes agentId (commandSubject agentId)
  | inbox (drawn : String) : SidecarSubscribes agentId ("_INBOX" ++ "." ++ drawn)

end Forge.NatsPermissions
