import Forge.CredentialConsumer
import Forge.Library.Fallible
import Forge.Library.StateMachine

/-! Deliveries of credential syncs in any order, delayed and repeated, to any number of
consumers: the last write stays, and it is one of the owner. -/

namespace Forge.CredentialOrdering

open Forge.CredentialConsumer
open Forge.Library.Fallible
open Forge.Library.Identifier
open Forge.Library.KeyedTable
open Forge.Library.StateMachine
open Forge.ResultConsumer
open Forge.Schema

/-- The two tables; the agents as they ever were, the writes that consumers are about to make,
and those they have made, the newest first. -/
structure World where
  agents : Agents
  past : List Agents
  credentials : Credentials
  inFlight : List (Delivery × Upsert)
  written : List (Delivery × Upsert)

inductive Action where
  | setAgents (agents : Agents)
  | receive (secretSeen ownerSeen : Option Agents) (delivery : Delivery)
  | write (position : Nat) (reached : Bool) (nonce : String) (now : Timestamp)

/-- A consumer's write reaches the database, or fails before. -/
def World.write (cipher : Cipher) (world : World) (position : Nat) (reached : Bool)
    (nonce : String) (now : Timestamp) : World :=
  match world.inFlight[position]? with
  | none => world
  | some (delivery, upsert) =>
      let rest := world.inFlight.eraseIdx position
      if reached then
        { world with
          inFlight := rest
          written := (delivery, upsert) :: world.written
          credentials := upsertEncrypted world.credentials upsert.userId upsert.cliTool
            (cipher.encrypt nonce upsert.plaintext) now }
      else { world with inFlight := rest }

section Runs

variable (verify : String → SignedEnvelope → Bool) (cipher : Cipher)

def exec (world : World) : Action → World
  | .setAgents agents => { world with agents, past := agents :: world.past }
  | .receive secretSeen ownerSeen delivery =>
      match authorize verify secretSeen ownerSeen delivery with
      | .ok upsert => { world with inFlight := (delivery, upsert) :: world.inFlight }
      | .error _ => world
  | .write position reached nonce now => world.write cipher position reached nonce now

/-- A lookup fails, or sees the agents as they were at some time. -/
def allowed (world : World) : Action → Prop
  | .receive secretSeen ownerSeen _ =>
      (∀ seen, secretSeen = some seen → seen ∈ world.past) ∧
        ∀ seen, ownerSeen = some seen → seen ∈ world.past
  | _ => True

def Initial (world : World) : Prop :=
  world.past = [world.agents] ∧ world.inFlight = [] ∧ world.written = []

abbrev Leads : World → World → Prop :=
  Reaches (exec verify cipher) allowed

end Runs

def World.row (world : World) (userId : Uuid) (cliTool : String) : Option CredentialRow :=
  world.credentials.find? fun row => row.key == (userId, cliTool)

def World.lastWrite (world : World) (userId : Uuid) (cliTool : String) : Option Upsert :=
  (world.written.map Prod.snd).find? fun upsert =>
    decide ((userId, cliTool) = (upsert.userId, upsert.cliTool))

/-- A delivery was signed, within the replay window, with a secret of the agent of its subject. -/
structure Signed (verify : String → SignedEnvelope → Bool) (past : List Agents)
    (delivery : Delivery) (agentId : Uuid) (envelope : SignedEnvelope) : Prop where
  subject : parseAgentIdFromCredsSubject delivery.subject = some agentId
  payload : delivery.payload = some envelope
  sender : envelope.agentId = agentId.toText
  fresh : withinReplayWindow delivery.nowSecs envelope.timestamp = true
  known : ∃ agents ∈ past, ∃ agent ∈ agents, agent.id = agentId
    ∧ ∃ secret, agent.hmacSecret = some secret ∧ verify secret envelope = true

/-- A write stores the file map that an envelope carries, for the owner of its agent. -/
structure Carried (past : List Agents) (agentId : Uuid) (envelope : SignedEnvelope)
    (upsert : Upsert) : Prop where
  timestamp : upsert.timestamp = envelope.timestamp
  files : ∃ message kind, CredentialSyncMessage.fromValue envelope.payload = some message
    ∧ message.agentId = agentId ∧ message.plaintext = upsert.plaintext
    ∧ CliToolKind.parseLegacy message.cliTool = some kind ∧ kind.asStr = upsert.cliTool
  owner : ∃ agents ∈ past, ∃ agent ∈ agents, agent.id = agentId ∧ agent.userId = upsert.userId

def Authentic (verify : String → SignedEnvelope → Bool) (past : List Agents)
    (entry : Delivery × Upsert) : Prop :=
  ∃ agentId envelope, Signed verify past entry.1 agentId envelope
    ∧ Carried past agentId envelope entry.2

section Safety

variable {verify : String → SignedEnvelope → Bool} {cipher : Cipher}

theorem Authentic.mono {past later : List Agents} {entry : Delivery × Upsert}
    (authentic : Authentic verify past entry) (grown : past ⊆ later) :
    Authentic verify later entry := by
  obtain ⟨agentId, envelope, signed, carried⟩ := authentic
  obtain ⟨seen, before, known⟩ := signed.known
  obtain ⟨owners, earlier, owner⟩ := carried.owner
  exact ⟨agentId, envelope, { signed with known := ⟨seen, grown before, known⟩ },
    { carried with owner := ⟨owners, grown earlier, owner⟩ }⟩

theorem lookup_ok {seen : Option Agents} {past : List Agents} {stage : String} {agentId : Uuid}
    {found : Option AgentRow} (within : ∀ agents, seen = some agents → agents ∈ past)
    (answered : lookup seen stage agentId = .ok found) :
    ∃ agents ∈ past, ∀ agent, found = some agent → agent ∈ agents ∧ agent.id = agentId := by
  cases seen with
  | none => cases answered
  | some agents =>
      cases answered
      refine ⟨agents, within agents rfl, fun agent listed => ?_⟩
      obtain ⟨member, id⟩ := Table.mem_of_find? listed
      exact ⟨member, beq_iff_eq.1 id⟩

theorem authentic_of_authorize {secretSeen ownerSeen : Option Agents} {past : List Agents}
    {delivery : Delivery} {upsert : Upsert}
    (secrets : ∀ seen, secretSeen = some seen → seen ∈ past)
    (owners : ∀ seen, ownerSeen = some seen → seen ∈ past)
    (passes : authorize verify secretSeen ownerSeen delivery = .ok upsert) :
    Authentic verify past (delivery, upsert) := by
  rw [authorize] at passes
  obtain ⟨agentId, subject, passes⟩ := bind_eq_ok.1 passes
  obtain ⟨envelope, payload, passes⟩ := bind_eq_ok.1 passes
  obtain ⟨sender, passes⟩ := guard_eq_ok.1 passes
  obtain ⟨fresh, passes⟩ := guard_eq_ok.1 passes
  obtain ⟨known, answered, passes⟩ := bind_eq_ok.1 passes
  obtain ⟨secret, given, passes⟩ := bind_eq_ok.1 passes
  obtain ⟨verified, passes⟩ := guard_eq_ok.1 passes
  obtain ⟨message, decoded, passes⟩ := bind_eq_ok.1 passes
  obtain ⟨-, -, passes⟩ := bind_eq_ok.1 passes
  obtain ⟨same, passes⟩ := guard_eq_ok.1 passes
  obtain ⟨kind, tool, passes⟩ := bind_eq_ok.1 passes
  obtain ⟨found, replied, passes⟩ := bind_eq_ok.1 passes
  obtain ⟨owner, there, passes⟩ := bind_eq_ok.1 passes
  obtain ⟨-, passes⟩ := guard_eq_ok.1 passes
  cases pure_eq_ok.1 passes
  obtain ⟨agent, listed, hmac⟩ := Option.bind_eq_some_iff.1 (elim_eq_ok.1 given)
  obtain ⟨agents, before, member⟩ := lookup_ok secrets answered
  obtain ⟨tables, earlier, ownerMember⟩ := lookup_ok owners replied
  have signer := member agent listed
  have holder := ownerMember owner (elim_eq_ok.1 there)
  refine ⟨agentId, envelope, ?_, ?_⟩
  · exact {
      subject := elim_eq_ok.1 subject
      payload := elim_eq_ok.1 payload
      sender := not_not.1 sender
      fresh := Bool.not_eq_false _ ▸ fresh
      known := ⟨agents, before, agent, signer.1, signer.2, secret, hmac,
        Bool.not_eq_false _ ▸ verified⟩ }
  · exact {
      timestamp := rfl
      files := ⟨message, kind, elim_eq_ok.1 decoded, not_not.1 same, rfl, elim_eq_ok.1 tool, rfl⟩
      owner := ⟨tables, earlier, owner, holder.1, holder.2, rfl⟩ }

/-- What a write comes to: nothing, a write that fails, or the row of its owner. -/
inductive Wrote (cipher : Cipher) (before after : World) : Prop
  | nothing (same : after = before)
  | failed (rest : List (Delivery × Upsert)) (fewer : rest ⊆ before.inFlight)
      (same : after = { before with inFlight := rest })
  | row (entry : Delivery × Upsert) (rest : List (Delivery × Upsert)) (nonce : String)
      (now : Timestamp) (member : entry ∈ before.inFlight) (fewer : rest ⊆ before.inFlight)
      (same : after = { before with
        inFlight := rest
        written := entry :: before.written
        credentials := upsertEncrypted before.credentials entry.2.userId entry.2.cliTool
          (cipher.encrypt nonce entry.2.plaintext) now })

theorem wrote (world : World) (position : Nat) (reached : Bool) (nonce : String)
    (now : Timestamp) : Wrote cipher world (world.write cipher position reached nonce now) := by
  rw [World.write]
  split
  case h_1 => exact .nothing rfl
  case h_2 delivery upsert found =>
    cases reached with
    | false => exact .failed _ (List.eraseIdx_subset) rfl
    | true =>
        exact .row (delivery, upsert) _ nonce now (List.mem_of_getElem? found)
          List.eraseIdx_subset rfl

theorem past_exec (world : World) (action : Action) :
    world.past ⊆ (exec verify cipher world action).past := by
  cases action with
  | setAgents agents => exact List.subset_cons_self ..
  | receive secretSeen ownerSeen delivery =>
      rw [exec]
      split <;> exact List.Subset.refl _
  | write position reached nonce now =>
      rw [exec]
      cases wrote world position reached nonce now with
      | nothing same => rw [same]; exact List.Subset.refl _
      | failed rest fewer same => rw [same]; exact List.Subset.refl _
      | row entry rest nonce now member fewer same => rw [same]; exact List.Subset.refl _

/-- The last write decides what is stored, and consumers write what they may. -/
structure Sound (verify : String → SignedEnvelope → Bool) (cipher : Cipher) (start world : World) :
    Prop where
  last : ∀ userId cliTool, stored cipher world.credentials userId cliTool =
    ((world.lastWrite userId cliTool).map fun upsert => upsert.plaintext).or
      (stored cipher start.credentials userId cliTool)
  inFlight : ∀ entry ∈ world.inFlight, Authentic verify world.past entry
  written : ∀ entry ∈ world.written, Authentic verify world.past entry

theorem Sound.of_wrote {start before after : World} (sound : Sound verify cipher start before)
    (step : Wrote cipher before after) : Sound verify cipher start after := by
  cases step with
  | nothing same => exact same ▸ sound
  | failed rest fewer same =>
      subst same
      exact ⟨sound.last, fun entry member => sound.inFlight entry (fewer member), sound.written⟩
  | row entry rest nonce now member fewer same =>
      subst same
      refine ⟨fun userId cliTool => ?_, fun other there => sound.inFlight other (fewer there),
        List.forall_mem_cons.2 ⟨sound.inFlight entry member, sound.written⟩⟩
      rw [stored_upsertEncrypted, World.lastWrite, List.map_cons, List.find?_cons]
      by_cases same : (userId, cliTool) = (entry.2.userId, entry.2.cliTool)
      · rw [if_pos same, decide_eq_true same]
        rfl
      · rw [if_neg same, decide_eq_false same]
        exact sound.last userId cliTool

theorem Sound.exec {start world : World} {action : Action}
    (sound : Sound verify cipher start world) (may : allowed world action) :
    Sound verify cipher start (exec verify cipher world action) := by
  cases action with
  | setAgents agents =>
      have grown : world.past ⊆ (CredentialOrdering.exec verify cipher world
          (.setAgents agents)).past := past_exec world _
      exact ⟨sound.last, fun entry member => (sound.inFlight entry member).mono grown,
        fun entry member => (sound.written entry member).mono grown⟩
  | receive secretSeen ownerSeen delivery =>
      cases passes : authorize verify secretSeen ownerSeen delivery with
      | error err =>
          rw [CredentialOrdering.exec, passes]
          exact sound
      | ok upsert =>
          rw [CredentialOrdering.exec, passes]
          exact ⟨sound.last, List.forall_mem_cons.2
            ⟨authentic_of_authorize may.1 may.2 passes, sound.inFlight⟩, sound.written⟩
  | write position reached nonce now => exact sound.of_wrote (wrote world position reached nonce now)

theorem sound_of_initial {start : World} (begins : Initial start) :
    Sound verify cipher start start := by
  obtain ⟨-, waiting, written⟩ := begins
  refine ⟨fun userId cliTool => ?_, ?_, ?_⟩
  · rw [World.lastWrite, written]
    rfl
  · rw [waiting]
    nofun
  · rw [written]
    nofun

theorem sound_of_leads {start world : World} (begins : Initial start)
    (leads : Leads verify cipher start world) : Sound verify cipher start world := by
  have reachable : Reachable (exec verify cipher) (· = start) allowed world := ⟨start, rfl, leads⟩
  refine reachable.invariant ?_ fun _ _ sound may => sound.exec may
  rintro _ rfl
  exact sound_of_initial begins

/-- Whatever the order in which validly signed messages are read, delayed and repeated, the
credential that is stored for a user and a tool is the one of the last write, and a row changes
only by a message of an agent of its user. -/
theorem last_write_stays {start world : World} (begins : Initial start)
    (leads : Leads verify cipher start world) :
    (∀ userId cliTool, stored cipher world.credentials userId cliTool =
      ((world.lastWrite userId cliTool).map fun upsert => upsert.plaintext).or
        (stored cipher start.credentials userId cliTool))
    ∧ (∀ entry ∈ world.written, Authentic verify world.past entry)
    ∧ ∀ action userId cliTool,
        (exec verify cipher world action).row userId cliTool = world.row userId cliTool
        ∨ ∃ entry ∈ world.inFlight, Authentic verify world.past entry
          ∧ entry.2.userId = userId ∧ entry.2.cliTool = cliTool := by
  have sound := sound_of_leads begins leads
  refine ⟨sound.last, sound.written, fun action userId cliTool => ?_⟩
  cases action with
  | setAgents agents => exact .inl rfl
  | receive secretSeen ownerSeen delivery =>
      left
      rw [CredentialOrdering.exec]
      split <;> rfl
  | write position reached nonce now =>
      rw [CredentialOrdering.exec]
      cases wrote world position reached nonce now with
      | nothing same => exact .inl (by rw [same])
      | failed rest fewer same => exact .inl (by rw [same]; rfl)
      | row entry rest nonce now member fewer same =>
          rw [same]
          by_cases same : (userId, cliTool) = (entry.2.userId, entry.2.cliTool)
          · obtain ⟨rfl, rfl⟩ := Prod.mk.inj same
            exact .inr ⟨entry, member, sound.inFlight entry member, rfl, rfl⟩
          · left
            rw [World.row, find?_upsertEncrypted, if_neg same]
            rfl

end Safety

namespace Sample

def agentId : Uuid := ⟨1⟩

def agents : Agents :=
  ⟨[⟨agentId, ⟨3⟩, ⟨2⟩, some "secret"⟩], by decide⟩

def verify (secret : String) (envelope : SignedEnvelope) : Bool :=
  envelope.signature == secret

def cipher : Cipher where
  encrypt _ text := text
  decrypt := some
  decrypt_encrypt _ _ := rfl

/-- A message of the agent that was signed at a time. -/
def delivery (timestamp : Int) (token : String) : Delivery where
  subject := "creds." ++ agentId.toText
  payload := some {
    payload := .object [("agentId", .string agentId.toText),
      ("orgId", .string (Uuid.toText ⟨3⟩)), ("cliTool", .string "codex"),
      ("files", .object [("auth.json", .string token)])]
    timestamp
    agentId := agentId.toText
    signature := "secret" }
  nowSecs := 1002

def start : World where
  agents
  past := [agents]
  credentials := Table.empty
  inFlight := []
  written := []

def actions : List Action :=
  [.receive (some agents) (some agents) (delivery 1001 "new"), .write 0 true "a" 0,
   .receive (some agents) (some agents) (delivery 1000 "old"), .write 0 true "b" 0]

def swapped : World :=
  run (exec verify cipher) start actions

def upsert (timestamp : Int) (token : String) : Upsert :=
  ⟨⟨2⟩, "codex", "\x7b\"auth.json\":\"" ++ token ++ "\"\x7d", timestamp⟩

theorem leads : Leads verify cipher start swapped := by
  have seen : ∀ world : World, agents ∈ world.past → ∀ given,
      allowed world (.receive (some agents) (some agents) given) := by
    intro world before given
    constructor <;> rintro _ ⟨⟩ <;> exact before
  have first : agents ∈ start.past := .head _
  exact reaches_run ⟨seen _ first _, trivial,
    seen _ (past_exec _ _ (past_exec _ _ first)) _, trivial, trivial⟩

end Sample

open Sample in
/-- The credential of the newer message is gone after the older one was handled. -/
theorem last_write_stays_swapped :
    (∀ userId cliTool, stored cipher swapped.credentials userId cliTool =
      ((swapped.lastWrite userId cliTool).map fun upsert => upsert.plaintext).or
        (stored cipher start.credentials userId cliTool))
    ∧ (∀ entry ∈ swapped.written, Authentic verify swapped.past entry)
    ∧ ∀ action userId cliTool,
        (exec verify cipher swapped action).row userId cliTool = swapped.row userId cliTool
        ∨ ∃ entry ∈ swapped.inFlight, Authentic verify swapped.past entry
          ∧ entry.2.userId = userId ∧ entry.2.cliTool = cliTool :=
  last_write_stays ⟨rfl, rfl, rfl⟩ leads

open Sample in
/-- An older message that is handled later overwrites a newer credential. -/
theorem older_overwrites_newer :
    ¬ ∀ start world, Initial start → Leads verify cipher start world → world.inFlight = [] →
      ∀ entry ∈ world.written, (∀ other ∈ world.written, other.2.userId = entry.2.userId →
        other.2.cliTool = entry.2.cliTool → other.2.timestamp ≤ entry.2.timestamp) →
      stored cipher world.credentials entry.2.userId entry.2.cliTool =
        some entry.2.plaintext := by
  intro newest
  obtain ⟨writes, idle, kept⟩ : swapped.written.map Prod.snd = [upsert 1000 "old", upsert 1001 "new"]
      ∧ swapped.inFlight.length = 0
      ∧ stored cipher swapped.credentials ⟨2⟩ "codex" = some (upsert 1000 "old").plaintext := by
    decide +kernel
  have new : upsert 1001 "new" ∈ swapped.written.map Prod.snd := by
    rw [writes]
    exact .tail _ (.head _)
  obtain ⟨⟨delivery, written⟩, member, same⟩ := List.mem_map.1 new
  obtain rfl : written = upsert 1001 "new" := same
  have latest := newest start swapped ⟨rfl, rfl, rfl⟩ leads (List.length_eq_zero_iff.1 idle)
    _ member fun other there _ _ => ?_
  · have other : some (upsert 1000 "old").plaintext ≠ some (upsert 1001 "new").plaintext := by
      decide +kernel
    exact other (kept.symm.trans latest)
  · have listed := List.mem_map_of_mem (f := Prod.snd) there
    rw [writes, List.mem_pair] at listed
    have old : (upsert 1000 "old").timestamp ≤ (upsert 1001 "new").timestamp := by decide
    rcases listed with same | same <;> rw [same]
    exact old

end Forge.CredentialOrdering
