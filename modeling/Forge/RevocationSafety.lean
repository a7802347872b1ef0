import Forge.CalloutRules

/-! What a callout allows, what a revocation kicks, and what ends with its token instead. -/

namespace Forge.RevocationSafety

open Forge.AuthCallout hiding revoke
open Forge.CalloutRules
open Forge.CalloutWorld
open Forge.Library.Dialogue hiding exec Reached
open Forge.Library.Identifier
open Forge.Library.Interleaving
open Forge.Library.StateMachine (Reachable)

/-- What an instance has heard for the request it works on agrees with the history. -/
structure Serving (world : World) (place served : Nat) (working : Working) : Prop where
  obeys : Obeys (MayHandle working.message) (fun _ _ => True) working.program working.heard
  looked : ∀ agentId identity, ⟨.findIdentity agentId, .ok (some identity)⟩ ∈ working.heard →
    working.found = some identity ∧ working.looked ≤ world.turn
      ∧ ∀ time, world.clearedAt agentId = some time → working.looked < time
  signed : ∀ iat, ⟨.sign, .ok iat⟩ ∈ working.heard → iat ≤ world.now
  recorded : ∀ agentId serverId clientCid,
    ⟨.record agentId serverId clientCid, .ok ()⟩ ∈ working.heard →
      ∃ issuedAt, ⟨(place, served), agentId, serverId, clientCid, issuedAt⟩ ∈ world.recorded
        ∧ ∀ iat, ⟨.sign, .ok iat⟩ ∈ working.heard → iat ≤ issuedAt
  unrecorded : (∀ call ∈ working.heard, isRecord call.op = false) →
    ∀ recorded ∈ world.recorded, recorded.key ≠ (place, served)

/-- What an answer allows goes back to a lookup before the password was cleared, and to a record
not long before the token ends. -/
def Backed (world : World) (reply : Reply) : Prop :=
  ∀ request exp, reply.allows = some (request, exp) →
    ∃ agentId identity issuedAt, Uuid.parseStr request.connectUser = some agentId
      ∧ reply.found = some identity
      ∧ ctEqBytes (bytes request.connectPassword) (bytes identity.password) = true
      ∧ reply.looked ≤ world.turn
      ∧ (∀ time, world.clearedAt agentId = some time → reply.looked < time)
      ∧ ⟨reply.key, agentId, request.serverId, request.clientCid, issuedAt⟩ ∈ world.recorded
      ∧ exp ≤ issuedAt + defaultJwtTtl

/-- What a revocation took is gone from the trackers, and is kicked once. -/
structure Revoked (world : World) (revoking : Revoking) : Prop where
  obeys : Obeys (MayRevoke revoking.agentId)
    (fun _ later => Done revoking.service revoking.agentId later) revoking.program revoking.heard
  heard : ∀ tracked, ⟨.take revoking.agentId, .ok (some tracked)⟩ ∈ revoking.heard →
    ∃ recorded, revoking.took = some recorded ∧ tracked = recorded.entry
  took : ∀ recorded, revoking.took = some recorded → recorded ∈ world.recorded
    ∧ recorded.key ∈ world.taken
    ∧ ⟨.take revoking.agentId, .ok (some recorded.entry)⟩ ∈ revoking.heard
  unkicked : ∀ recorded, revoking.took = some recorded →
    (∀ call ∈ revoking.heard, isKick call.op = false) →
      ∀ kick ∈ world.kicks, kick.key ≠ recorded.key
  kicked : ∀ subject payload, ⟨.publishKick subject payload, .ok ()⟩ ∈ revoking.heard →
    ∃ recorded, revoking.took = some recorded ∧ ⟨recorded.key, subject, payload⟩ ∈ world.kicks

/-- The trackers hold what was recorded last and not taken since, unless it is old. -/
structure Ledger (world : World) : Prop where
  issued : ∀ recorded ∈ world.recorded, recorded.issuedAt ≤ world.now
    ∧ recorded.key.2 ≤ (world.instances recorded.key.1).served
  keys : (world.recorded.map Recorded.key).Nodup
  taken : ∀ key ∈ world.taken, ∃ recorded ∈ world.recorded, recorded.key = key
  entry : ∀ place agentId entry, (world.instances place).tracker agentId = some entry →
    ∃ recorded, world.latest place agentId = some recorded ∧ entry = recorded.entry
      ∧ recorded.key ∉ world.taken
  kept : ∀ place agentId recorded, world.latest place agentId = some recorded →
    recorded.key ∉ world.taken → world.now ≤ recorded.issuedAt + maxAge →
      (world.instances place).tracker agentId = some recorded.entry

structure Sound (world : World) : Prop where
  ledger : Ledger world
  identities : ∀ agentId identity, world.identities agentId = some identity →
    world.clearedAt agentId = none
  replies : ∀ reply ∈ world.replies, Backed world reply
  connections : ∀ reply ∈ world.connections, Backed world reply
    ∧ World.lives world.now reply = true
  revoked : ∀ revocation, Revoked world (world.revocations revocation)
  apart : ∀ revocation other first second, revocation ≠ other →
    (world.revocations revocation).took = some first →
      (world.revocations other).took = some second → first.key ≠ second.key
  kicks : ∀ kick ∈ world.kicks, kick.key ∈ world.taken ∧ ∃ recorded ∈ world.recorded,
    recorded.key = kick.key ∧ kick.payload = natsKickPayload recorded.clientCid
  once : (world.kicks.map Kick.key).Nodup
  serving : ∀ place, Serving world place (world.instances place).served
    (world.instances place).working

/-- Nothing that happens later takes history back. -/
structure Later (world after : World) : Prop where
  now : world.now ≤ after.now
  turn : world.turn ≤ after.turn
  cleared : ∀ agentId time, after.clearedAt agentId = some time →
    world.clearedAt agentId = some time ∨ world.turn < time
  recorded : ∀ recorded ∈ world.recorded, recorded ∈ after.recorded
  taken : ∀ key ∈ world.taken, key ∈ after.taken

section Frames

variable {world after : World} {place served : Nat} {working : Working} {reply : Reply}

theorem Later.looked (later : Later world after) {agentId : Uuid} {looked : Nat}
    (before : looked ≤ world.turn)
    (cleared : ∀ time, world.clearedAt agentId = some time → looked < time) :
    looked ≤ after.turn ∧ ∀ time, after.clearedAt agentId = some time → looked < time := by
  refine ⟨before.trans later.turn, fun time at_ => ?_⟩
  rcases later.cleared agentId time at_ with same | newer
  · exact cleared time same
  · exact before.trans_lt newer

theorem Serving.later (serving : Serving world place served working) (later : Later world after)
    (others : ∀ recorded ∈ after.recorded, recorded.key = (place, served) →
      recorded ∈ world.recorded) : Serving after place served working where
  obeys := serving.obeys
  looked agentId identity member := by
    obtain ⟨found, before, cleared⟩ := serving.looked agentId identity member
    exact ⟨found, later.looked before cleared⟩
  signed iat member := (serving.signed iat member).trans later.now
  recorded agentId serverId clientCid member := by
    obtain ⟨issuedAt, known, dated⟩ := serving.recorded agentId serverId clientCid member
    exact ⟨issuedAt, later.recorded _ known, dated⟩
  unrecorded first recorded member same :=
    serving.unrecorded first recorded (others recorded member same) same

theorem Backed.later (backed : Backed world reply) (later : Later world after) :
    Backed after reply := by
  intro request exp allows
  obtain ⟨agentId, identity, issuedAt, named, found, same, before, cleared, known, ends⟩ :=
    backed request exp allows
  obtain ⟨before, cleared⟩ := later.looked before cleared
  exact ⟨agentId, identity, issuedAt, named, found, same, before, cleared,
    later.recorded _ known, ends⟩

theorem Revoked.later {revoking : Revoking} (revoked : Revoked world revoking)
    (later : Later world after)
    (kicks : ∀ kick ∈ after.kicks, kick ∈ world.kicks
      ∨ ∀ recorded, revoking.took = some recorded → kick.key ≠ recorded.key)
    (keeps : ∀ kick ∈ world.kicks, kick ∈ after.kicks) : Revoked after revoking where
  obeys := revoked.obeys
  heard := revoked.heard
  took recorded took := by
    obtain ⟨known, taken, member⟩ := revoked.took recorded took
    exact ⟨later.recorded _ known, later.taken _ taken, member⟩
  unkicked recorded took first kick member := by
    rcases kicks kick member with before | others
    · exact revoked.unkicked recorded took first kick before
    · exact others recorded took
  kicked subject payload member := by
    obtain ⟨recorded, took, known⟩ := revoked.kicked subject payload member
    exact ⟨recorded, took, keeps _ known⟩

end Frames

section Outside

variable {world after : World} {place other : Nat} {site : Instance}

theorem Sound.outside (sound : Sound world) (later : Later world after)
    (instances : after.instances = world.instances)
    (revocations : after.revocations = world.revocations)
    (recorded : after.recorded = world.recorded) (taken : after.taken = world.taken)
    (kicks : after.kicks = world.kicks)
    (identities : ∀ agentId identity, after.identities agentId = some identity →
      after.clearedAt agentId = none)
    (replies : ∀ reply ∈ after.replies, reply ∈ world.replies)
    (connections : ∀ reply ∈ after.connections,
      (reply ∈ world.connections ∨ reply ∈ world.replies)
        ∧ World.lives after.now reply = true) : Sound after where
  ledger := by
    have latest : ∀ place agentId, after.latest place agentId = world.latest place agentId :=
      fun place agentId => by rw [World.latest, World.latest, recorded]
    refine ⟨?_, ?_, ?_, ?_, ?_⟩
    · intro r member
      rw [recorded] at member
      obtain ⟨issued, served⟩ := sound.ledger.issued r member
      rw [instances]
      exact ⟨issued.trans later.now, served⟩
    · rw [recorded]
      exact sound.ledger.keys
    · rw [recorded, taken]
      exact sound.ledger.taken
    · intro place agentId entry holds
      rw [instances] at holds
      rw [latest, taken]
      exact sound.ledger.entry place agentId entry holds
    · intro place agentId r last kept young
      rw [latest] at last
      rw [taken] at kept
      rw [instances]
      exact sound.ledger.kept place agentId r last kept (later.now.trans young)
  identities := identities
  replies reply member := (sound.replies reply (replies reply member)).later later
  connections reply member := by
    obtain ⟨before, lives⟩ := connections reply member
    refine ⟨Backed.later ?_ later, lives⟩
    exact before.elim (fun known => (sound.connections reply known).1) (sound.replies reply)
  revoked revocation := by
    rw [revocations]
    refine (sound.revoked revocation).later later ?_ ?_
    · rw [kicks]
      exact fun _ => .inl
    · rw [kicks]
      exact fun _ => id
  apart := by
    rw [revocations]
    exact sound.apart
  kicks := by
    rw [kicks, taken, recorded]
    exact sound.kicks
  once := by
    rw [kicks]
    exact sound.once
  serving place := by
    rw [instances]
    exact (sound.serving place).later later fun r member _ => recorded ▸ member

theorem Sound.turn (sound : Sound world) : Sound { world with turn := world.turn + 1 } := by
  refine sound.outside ⟨le_rfl, Nat.le_succ _, fun _ _ => .inl, fun _ => id, fun _ => id⟩ rfl rfl
    rfl rfl rfl sound.identities (fun _ => id) fun reply member => ?_
  exact ⟨.inl member, (sound.connections reply member).2⟩

theorem Sound.store (sound : Sound world) (agentId : Uuid) (identity : Option AgentNatsIdentity) :
    Sound (exec world (.store agentId identity)) := by
  refine sound.outside ⟨le_rfl, Nat.le_succ _, fun other time => ?_, fun _ => id, fun _ => id⟩ rfl
    rfl rfl rfl rfl (fun other found => ?_) (fun _ => id) fun reply member =>
      ⟨.inl member, (sound.connections reply member).2⟩
  · simp only [exec, Function.update_apply]
    split
    · intro at_
      split at at_
      · cases at_
        exact .inr (Nat.lt_succ_self _)
      · cases at_
    · exact .inl
  · simp only [exec, Function.update_apply]
    split
    · rintro rfl
      rfl
    · exact sound.identities other found

theorem Sound.deliver (sound : Sound world) (key : Key) : Sound (exec world (.deliver key)) := by
  refine sound.turn.outside ⟨le_rfl, le_rfl, fun _ _ => .inl, fun _ => id, fun _ => id⟩ rfl rfl rfl
    rfl rfl sound.identities (fun reply member => (List.mem_filter.1 member).1) ?_
  intro reply member
  rcases List.mem_append.1 member with opened | before
  · obtain ⟨known, holds⟩ := List.mem_filter.1 opened
    exact ⟨.inr known, (Bool.and_eq_true_iff.1 holds).2⟩
  · exact ⟨.inl before, (sound.connections reply before).2⟩

theorem Sound.close (sound : Sound world) (key : Key) : Sound (exec world (.close key)) := by
  refine sound.turn.outside ⟨le_rfl, le_rfl, fun _ _ => .inl, fun _ => id, fun _ => id⟩ rfl rfl rfl
    rfl rfl sound.identities (fun _ => id) fun reply member => ?_
  have before := (List.mem_filter.1 member).1
  exact ⟨.inl before, (sound.connections reply before).2⟩

theorem Sound.tick (sound : Sound world) (seconds : Nat) : Sound (exec world (.tick seconds)) := by
  refine sound.turn.outside ⟨Nat.le_add_right _ _, le_rfl, fun _ _ => .inl, fun _ => id,
    fun _ => id⟩ rfl rfl rfl rfl rfl sound.identities (fun _ => id) fun reply member => ?_
  obtain ⟨before, lives⟩ := List.mem_filter.1 member
  exact ⟨.inl before, lives⟩

theorem Sound.setInstance (sound : Sound world)
    (served : (world.instances place).served ≤ site.served)
    (entry : ∀ agentId entry, site.tracker agentId = some entry →
      (world.instances place).tracker agentId = some entry)
    (kept : ∀ agentId entry, (world.instances place).tracker agentId = some entry →
      world.now ≤ entry.issuedAt + maxAge → site.tracker agentId = some entry)
    (serving : Serving world place site.served site.working) :
    Sound (world.setInstance place site) where
  ledger := by
    refine ⟨?_, sound.ledger.keys, sound.ledger.taken, ?_, ?_⟩
    · intro r member
      obtain ⟨issued, before⟩ := sound.ledger.issued r member
      refine ⟨issued, ?_⟩
      simp only [World.setInstance, Function.update_apply]
      split
      case isTrue same => exact before.trans (same ▸ served)
      case isFalse => exact before
    · intro other agentId held
      simp only [World.setInstance, Function.update_apply]
      split
      case isTrue same =>
          subst same
          exact fun holds => sound.ledger.entry other agentId held (entry agentId held holds)
      case isFalse => exact sound.ledger.entry other agentId held
    · intro other agentId r last untaken young
      have holds := sound.ledger.kept other agentId r last untaken young
      simp only [World.setInstance, Function.update_apply]
      split
      case isTrue same =>
          subst same
          exact kept agentId r.entry holds young
      case isFalse => exact holds
  identities := sound.identities
  replies := sound.replies
  connections := sound.connections
  revoked := fun revocation => (sound.revoked revocation).later
    ⟨le_rfl, le_rfl, fun _ _ => .inl, fun _ => id, fun _ => id⟩ (fun _ => .inl) fun _ => id
  apart := sound.apart
  kicks := sound.kicks
  once := sound.once
  serving other := by
    have later : Later world (world.setInstance place site) :=
      ⟨le_rfl, le_rfl, fun _ _ => .inl, fun _ => id, fun _ => id⟩
    simp only [World.setInstance, Function.update_apply]
    split
    case isTrue same =>
        subst same
        exact serving.later later fun _ member _ => member
    case isFalse => exact (sound.serving other).later later fun _ member _ => member

theorem Sound.reap (sound : Sound world) (place : Nat) : Sound (exec world (.reap place)) := by
  refine sound.turn.setInstance le_rfl (fun agentId entry holds => ?_)
    (fun agentId entry holds young => ?_) (sound.turn.serving place)
  · exact (Option.filter_eq_some_iff.1 holds).1
  · refine Option.filter_eq_some_iff.2 ⟨holds, decide_eq_true ?_⟩
    exact Nat.sub_le_iff_le_add'.2 young

theorem Sound.receive (sound : Sound world) (place : Nat) (message : Message) :
    Sound (exec world (.receive place message)) := by
  rw [exec]
  dsimp only
  split
  case isFalse => exact sound.turn
  case isTrue =>
      refine sound.turn.setInstance (Nat.le_succ _) (fun _ _ => id) (fun _ _ holds _ => holds)
        ⟨obeys_serve, nofun, nofun, nofun, ?_⟩
      intro _ r member same
      have known := (sound.ledger.issued r member).2
      rw [same] at known
      exact absurd known (Nat.not_succ_le_self _)

end Outside

def hear (working : Working) (call : HandlerCall)
    (program : Prog Op (fun operation => Except Unit (Answer operation)) (Except Unit Unit)) :
    Working :=
  { working with heard := call :: working.heard, program }

section Handling

variable {world : World} {place : Nat} {choice : Choice} {operation : Op}
  {next : Except Unit (Answer operation) →
    Prog Op (fun operation => Except Unit (Answer operation)) (Except Unit Unit)}
  {reply : Except Unit (Answer operation)}

theorem handle_eq (due : (world.instances place).working.program = .op operation next) :
    world.handle place choice =
      let (after, reply) := world.perform place choice operation
      let site := after.instances place
      after.setInstance place
        { site with working := hear site.working ⟨operation, reply⟩ (next reply) } := by
  rw [World.handle, due]
  rfl

theorem Serving.hear {served : Nat} {working : Working}
    (serving : Serving world place served working) (due : working.program = .op operation next)
    (lookup : ∀ agentId identity, (⟨operation, reply⟩ : HandlerCall)
      ≠ ⟨.findIdentity agentId, .ok (some identity)⟩)
    (record : ∀ agentId serverId clientCid, (⟨operation, reply⟩ : HandlerCall)
      ≠ ⟨.record agentId serverId clientCid, .ok ()⟩)
    (sign : ∀ iat, (⟨operation, reply⟩ : HandlerCall) = ⟨.sign, .ok iat⟩ →
      iat ≤ world.now ∧ ∀ call ∈ working.heard, isRecord call.op = false) :
    Serving world place served (hear working ⟨operation, reply⟩ (next reply)) where
  obeys := by
    have obeys := serving.obeys
    rw [due] at obeys
    exact obeys.2 reply
  looked agentId identity member := by
    rcases List.mem_cons.1 member with same | before
    · exact absurd same.symm (lookup agentId identity)
    · exact serving.looked agentId identity before
  signed iat member := by
    rcases List.mem_cons.1 member with same | before
    · exact (sign iat same.symm).1
    · exact serving.signed iat before
  recorded agentId serverId clientCid member := by
    rcases List.mem_cons.1 member with same | before
    · exact absurd same.symm (record agentId serverId clientCid)
    · obtain ⟨issuedAt, known, dated⟩ := serving.recorded agentId serverId clientCid before
      refine ⟨issuedAt, known, fun iat heard => ?_⟩
      rcases List.mem_cons.1 heard with same | earlier
      · have late := (sign iat same.symm).2 _ before
        cases late
      · exact dated iat earlier
  unrecorded first :=
    serving.unrecorded fun call member => first call (List.mem_cons_of_mem _ member)

theorem Sound.hears (sound : Sound world)
    (due : (world.instances place).working.program = .op operation next)
    (lookup : ∀ agentId identity, (⟨operation, reply⟩ : HandlerCall)
      ≠ ⟨.findIdentity agentId, .ok (some identity)⟩)
    (record : ∀ agentId serverId clientCid, (⟨operation, reply⟩ : HandlerCall)
      ≠ ⟨.record agentId serverId clientCid, .ok ()⟩)
    (sign : ∀ iat, (⟨operation, reply⟩ : HandlerCall) = ⟨.sign, .ok iat⟩ → iat = world.now) :
    let site := world.instances place
    Sound (world.setInstance place
      { site with working := hear site.working ⟨operation, reply⟩ (next reply) }) := by
  intro site
  refine sound.setInstance le_rfl (fun _ _ => id) (fun _ _ holds _ => holds) ?_
  refine (sound.serving place).hear due lookup record fun iat same => ⟨(sign iat same).le, ?_⟩
  have may := (sound.serving place).obeys
  rw [due] at may
  cases same
  exact may.1

theorem Sound.lookup (sound : Sound world) {agentId : Uuid} {found : Option AgentNatsIdentity}
    (looks : world.identities agentId = found)
    {next : Except Unit (Answer (.findIdentity agentId)) →
      Prog Op (fun operation => Except Unit (Answer operation)) (Except Unit Unit)}
    (due : (world.instances place).working.program = .op (.findIdentity agentId) next) :
    let site := world.instances place
    Sound (world.setInstance place { site with
      working := hear { site.working with looked := world.turn, found }
        ⟨.findIdentity agentId, .ok found⟩ (next (.ok found)) }) := by
  intro site
  have serving := sound.serving place
  have obeys := serving.obeys
  rw [due] at obeys
  refine sound.setInstance le_rfl (fun _ _ => id) (fun _ _ holds _ => holds)
    ⟨obeys.2 _, ?_, ?_, ?_, ?_⟩
  · intro other identity member
    rcases List.mem_cons.1 member with same | before
    · cases same
      refine ⟨rfl, le_rfl, fun time at_ => ?_⟩
      rw [sound.identities agentId identity looks] at at_
      cases at_
    · cases obeys.1 _ before
  · intro iat member
    rcases List.mem_cons.1 member with same | before
    · cases same
    · exact serving.signed iat before
  · intro other serverId clientCid member
    rcases List.mem_cons.1 member with same | before
    · cases same
    · obtain ⟨issuedAt, known, dated⟩ := serving.recorded other serverId clientCid before
      refine ⟨issuedAt, known, fun iat heard => ?_⟩
      rcases List.mem_cons.1 heard with same | earlier
      · cases same
      · exact dated iat earlier
  · exact fun first =>
      serving.unrecorded fun call member => first call (List.mem_cons_of_mem _ member)

theorem latest_cons {after : World} {recorded : Recorded} {other : Nat} {agentId : Uuid}
    (grown : after.recorded = recorded :: world.recorded) :
    after.latest other agentId = if recorded.key.1 = other ∧ recorded.agentId = agentId then
      some recorded else world.latest other agentId := by
  rw [World.latest, grown, List.find?_cons]
  split
  case h_1 same => rw [if_pos (by simpa using same)]
  case h_2 differs =>
      rw [if_neg (by simpa using differs)]
      rfl

theorem Ledger.record (ledger : Ledger world) {after : World} {recorded : Recorded}
    {site : Instance} (fresh : ∀ known ∈ world.recorded, known.key ≠ recorded.key)
    (grown : after.recorded = recorded :: world.recorded) (taken : after.taken = world.taken)
    (now : after.now = world.now) (issued : recorded.issuedAt = world.now)
    (instances : after.instances = Function.update world.instances recorded.key.1 site)
    (served : site.served = recorded.key.2)
    (before : (world.instances recorded.key.1).served = recorded.key.2)
    (tracker : site.tracker = Function.update (world.instances recorded.key.1).tracker
      recorded.agentId (some recorded.entry)) : Ledger after := by
  have untaken : recorded.key ∉ world.taken := by
    intro member
    obtain ⟨known, member, same⟩ := ledger.taken _ member
    exact fresh known member same
  -- Only the entry of this agent at this instance is new.
  have entries : ∀ place agentId, (after.instances place).tracker agentId =
      if recorded.key.1 = place ∧ recorded.agentId = agentId then some recorded.entry
      else (world.instances place).tracker agentId := by
    intro place agentId
    rw [instances, Function.update_apply]
    by_cases here : place = recorded.key.1
    · subst here
      rw [if_pos rfl, tracker, Function.update_apply]
      simp only [true_and, eq_comm]
    · rw [if_neg here, if_neg fun own => here own.1.symm]
  refine ⟨?_, ?_, ?_, ?_, ?_⟩
  · rw [grown, now, instances]
    refine List.forall_mem_cons.2 ⟨⟨issued.le, ?_⟩, fun known member => ?_⟩
    · rw [Function.update_self, served]
    · obtain ⟨old, within⟩ := ledger.issued known member
      refine ⟨old, ?_⟩
      rw [Function.update_apply]
      split
      case isTrue same => rwa [served, ← before, ← same]
      case isFalse => exact within
  · rw [grown, List.map_cons]
    refine List.nodup_cons.2 ⟨fun member => ?_, ledger.keys⟩
    obtain ⟨known, member, same⟩ := List.mem_map.1 member
    exact fresh known member same
  · rw [grown, taken]
    intro key member
    obtain ⟨known, old, same⟩ := ledger.taken key member
    exact ⟨known, .tail _ old, same⟩
  · intro place agentId entry holds
    rw [entries] at holds
    rw [latest_cons grown, taken]
    split at holds
    case isTrue own =>
        cases holds
        exact ⟨recorded, if_pos own, rfl, untaken⟩
    case isFalse other =>
        rw [if_neg other]
        exact ledger.entry place agentId entry holds
  · intro place agentId known last kept young
    rw [latest_cons grown] at last
    rw [entries]
    rw [taken] at kept
    rw [now] at young
    split at last
    case isTrue own =>
        cases last
        exact if_pos own
    case isFalse other =>
        rw [if_neg other]
        exact ledger.kept place agentId known last kept young

theorem Sound.record (sound : Sound world) {agentId : Uuid} {serverId : String} {clientCid : Nat}
    {next : Except Unit (Answer (.record agentId serverId clientCid)) →
      Prog Op (fun operation => Except Unit (Answer operation)) (Except Unit Unit)}
    (due : (world.instances place).working.program = .op (.record agentId serverId clientCid) next) :
    let site := world.instances place
    let recorded := ⟨(place, site.served), agentId, serverId, clientCid, world.now⟩
    Sound ({ world with recorded := recorded :: world.recorded }.setInstance place { site with
      tracker := site.tracker.record agentId serverId clientCid world.now
      working := hear site.working ⟨.record agentId serverId clientCid, .ok ()⟩
        (next (.ok ())) }) := by
  intro site recorded
  have serving := sound.serving place
  have obeys := serving.obeys
  rw [due] at obeys
  have fresh := serving.unrecorded obeys.1.1
  have later : Later world ({ world with recorded := recorded :: world.recorded }.setInstance place
      { site with
        tracker := site.tracker.record agentId serverId clientCid world.now
        working := hear site.working ⟨.record agentId serverId clientCid, .ok ()⟩
          (next (.ok ())) }) :=
    ⟨le_rfl, le_rfl, fun _ _ => .inl, fun _ member => .tail _ member, fun _ => id⟩
  refine ⟨?_, sound.identities, fun reply member => (sound.replies reply member).later later, ?_, ?_,
    sound.apart, ?_, sound.once, ?_⟩
  · exact sound.ledger.record fresh rfl rfl rfl rfl rfl rfl rfl rfl
  · exact fun reply member =>
      ⟨(sound.connections reply member).1.later later, (sound.connections reply member).2⟩
  · exact fun revocation => (sound.revoked revocation).later later (fun _ => .inl) fun _ => id
  · intro kick member
    obtain ⟨taken, known, old, same⟩ := sound.kicks kick member
    exact ⟨taken, known, .tail _ old, same⟩
  · intro other
    simp only [World.setInstance, Function.update_apply]
    split
    case isFalse differs =>
        refine (sound.serving other).later later fun known member same => ?_
        rcases List.mem_cons.1 member with rfl | old
        · exact absurd (congrArg Prod.fst same).symm differs
        · exact old
    case isTrue same =>
        subst same
        refine ⟨obeys.2 _, ?_, ?_, ?_, ?_⟩
        · intro asked identity member
          rcases List.mem_cons.1 member with same | before
          · cases same
          · exact serving.looked asked identity before
        · intro iat member
          rcases List.mem_cons.1 member with same | before
          · cases same
          · exact serving.signed iat before
        · intro asked server client member
          rcases List.mem_cons.1 member with same | before
          · cases same
            refine ⟨world.now, .head _, fun iat heard => ?_⟩
            rcases List.mem_cons.1 heard with same | earlier
            · cases same
            · exact serving.signed iat earlier
          · cases obeys.1.1 _ before
        · intro first
          cases first _ (.head _)

theorem Serving.backed {served : Nat} {working : Working} {response : CalloutResponse}
    (serving : Serving world place served working)
    (vouched : Vouched working.message response working.heard) :
    Backed world ⟨(place, served), working.message, working.looked, working.found, response⟩ := by
  intro request exp allows
  simp only [Reply.allows, Option.bind_eq_bind, Option.bind_eq_some_iff] at allows
  obtain ⟨asked, message, answer, given, user, token, allowed⟩ := allows
  obtain ⟨known, agentId, iat, ⟨same, named, identity, lookup, password⟩, recorded, signed, ends⟩ :=
    vouched answer user given token
  obtain rfl : asked = known := Option.some.inj (message.symm.trans same)
  split at allowed
  case isFalse => cases allowed
  case isTrue =>
      cases allowed
      obtain ⟨found, before, cleared⟩ := serving.looked agentId identity lookup
      obtain ⟨issuedAt, member, dated⟩ := serving.recorded _ _ _ recorded
      exact ⟨agentId, identity, issuedAt, named, found, password, before, cleared, member,
        ends.trans (Nat.add_le_add_right (dated iat signed) _)⟩

theorem Sound.answered (sound : Sound world) {reply : Reply} (backed : Backed world reply) :
    Sound { world with replies := reply :: world.replies } where
  ledger := ⟨sound.ledger.issued, sound.ledger.keys, sound.ledger.taken, sound.ledger.entry,
    sound.ledger.kept⟩
  identities := sound.identities
  replies := List.forall_mem_cons.2 ⟨backed, sound.replies⟩
  connections := sound.connections
  revoked := fun revocation => (sound.revoked revocation).later
    ⟨le_rfl, le_rfl, fun _ _ => .inl, fun _ => id, fun _ => id⟩ (fun _ => .inl) fun _ => id
  apart := sound.apart
  kicks := sound.kicks
  once := sound.once
  serving := fun place => (sound.serving place).later
    ⟨le_rfl, le_rfl, fun _ _ => .inl, fun _ => id, fun _ => id⟩ fun _ member _ => member

theorem Sound.handle (sound : Sound world) : Sound (world.handle place choice) := by
  cases due : (world.instances place).working.program with
  | done value =>
      rw [World.handle, due]
      exact sound
  | op operation next =>
      rw [handle_eq due, World.perform]
      by_cases fails : (choice.failure && !World.infallible operation) = true
      · rw [if_pos fails]
        refine sound.hears due nofun (fun agentId serverId clientCid same => ?_) nofun
        cases same
      · rw [if_neg fails]
        cases operation with
        | openRequest => exact sound.hears due nofun nofun nofun
        | unauthorized reason => exact sound.hears due nofun nofun nofun
        | pause => exact sound.hears due nofun nofun nofun
        | sealReply => exact sound.hears due nofun nofun nofun
        | sign =>
            refine sound.hears due nofun nofun fun iat same => ?_
            cases same
            rfl
        | findIdentity agentId =>
            have looks := sound.lookup rfl due
            simp only [World.answer, World.setInstance, Function.update_self,
              Function.update_idem] at looks ⊢
            exact looks
        | record agentId serverId clientCid =>
            have records := sound.record due
            simp only [World.answer, World.setInstance, Function.update_self,
              Function.update_idem] at records ⊢
            exact records
        | publish response =>
            have obeys := (sound.serving place).obeys
            rw [due] at obeys
            have replied := sound.answered ((sound.serving place).backed obeys.1)
            exact Sound.hears replied due nofun nofun nofun

end Handling

section Revoking

variable {world : World} {revocation place : Nat} {revoking : Revoking} {agentId : Uuid}
  {operation : RevokeOp}
  {next : Except Unit (RevokeAnswer operation) →
    Prog RevokeOp (fun operation => Except Unit (RevokeAnswer operation)) (Except Unit Unit)}
  {reply : Except Unit (RevokeAnswer operation)}

theorem Sound.setRevoking (sound : Sound world) (revoked : Revoked world revoking)
    (apart : ∀ recorded, revoking.took = some recorded → ∀ other, other ≠ revocation →
      ∀ second, (world.revocations other).took = some second → recorded.key ≠ second.key) :
    Sound { world with
      revocations := Function.update world.revocations revocation revoking } where
  ledger := ⟨sound.ledger.issued, sound.ledger.keys, sound.ledger.taken, sound.ledger.entry,
    sound.ledger.kept⟩
  identities := sound.identities
  replies := sound.replies
  connections := sound.connections
  revoked other := by
    have later : Later world { world with
        revocations := Function.update world.revocations revocation revoking } :=
      ⟨le_rfl, le_rfl, fun _ _ => .inl, fun _ => id, fun _ => id⟩
    dsimp only
    rw [Function.update_apply]
    split
    · exact revoked.later later (fun _ => .inl) fun _ => id
    · exact (sound.revoked other).later later (fun _ => .inl) fun _ => id
  apart one other first second differ := by
    simp only [Function.update_apply]
    split
    case isTrue same =>
        subst same
        rw [if_neg (Ne.symm differ)]
        exact fun took => apart first took other (Ne.symm differ) second
    case isFalse =>
        split
        case isTrue same =>
            subst same
            exact fun took own => (apart second own one differ first took).symm
        case isFalse => exact sound.apart one other first second differ
  kicks := sound.kicks
  once := sound.once
  serving := fun place => (sound.serving place).later
    ⟨le_rfl, le_rfl, fun _ _ => .inl, fun _ => id, fun _ => id⟩ fun _ member _ => member

theorem Sound.begin (sound : Sound world) :
    Sound (exec world (.begin revocation place agentId)) := by
  rw [exec]
  dsimp only
  split
  case isFalse => exact sound.turn
  case isTrue =>
      exact sound.turn.setRevoking ⟨obeys_revoke, nofun, nofun, nofun, nofun⟩ nofun

theorem Revoked.hear (revoked : Revoked world revoking)
    (due : revoking.program = .op operation next)
    (kick : ∀ subject payload, (⟨operation, reply⟩ : RevokeCall)
      ≠ ⟨.publishKick subject payload, .ok ()⟩)
    (take : ∀ tracked, (⟨operation, reply⟩ : RevokeCall)
      ≠ ⟨.take revoking.agentId, .ok (some tracked)⟩) :
    Revoked world { revoking with
      heard := ⟨operation, reply⟩ :: revoking.heard, program := next reply } where
  obeys := by
    have obeys := revoked.obeys
    rw [due] at obeys
    exact obeys.2 reply
  heard tracked member := by
    rcases List.mem_cons.1 member with same | before
    · exact absurd same.symm (take tracked)
    · exact revoked.heard tracked before
  took recorded took := by
    obtain ⟨known, taken, member⟩ := revoked.took recorded took
    exact ⟨known, taken, .tail _ member⟩
  unkicked recorded took first := revoked.unkicked recorded took fun call member =>
    first call (.tail _ member)
  kicked subject payload member := by
    rcases List.mem_cons.1 member with same | before
    · exact absurd same.symm (kick subject payload)
    · exact revoked.kicked subject payload before

theorem eq_of_key (ledger : Ledger world) {first second : Recorded}
    (left : first ∈ world.recorded) (right : second ∈ world.recorded)
    (same : first.key = second.key) : first = second :=
  List.inj_on_of_nodup_map ledger.keys left right same

theorem latest_some {recorded : Recorded} (last : world.latest place agentId = some recorded) :
    recorded ∈ world.recorded ∧ recorded.key.1 = place ∧ recorded.agentId = agentId := by
  have holds := List.find?_some last
  simp only [Bool.and_eq_true, beq_iff_eq] at holds
  exact ⟨List.mem_of_find?_eq_some last, holds⟩

theorem Ledger.take (ledger : Ledger world) {after : World} {recorded : Recorded}
    (last : world.latest place agentId = some recorded)
    (grown : after.recorded = world.recorded) (taken : after.taken = recorded.key :: world.taken)
    (now : after.now = world.now)
    (instances : after.instances = Function.update world.instances place
      { world.instances place with
        tracker := Function.update (world.instances place).tracker agentId none }) :
    Ledger after := by
  have latest : ∀ place agentId, after.latest place agentId = world.latest place agentId :=
    fun place agentId => by rw [World.latest, World.latest, grown]
  have entries : ∀ other asked, (after.instances other).tracker asked =
      if other = place ∧ asked = agentId then none
      else (world.instances other).tracker asked := by
    intro other asked
    rw [instances, Function.update_apply]
    by_cases here : other = place
    · subst here
      simp only [true_and, if_true, Function.update_apply]
    · rw [if_neg here, if_neg fun own => here own.1]
  obtain ⟨member, here, named⟩ := latest_some last
  refine ⟨?_, ?_, ?_, ?_, ?_⟩
  · rw [grown, now, instances]
    intro known old
    obtain ⟨issued, served⟩ := ledger.issued known old
    refine ⟨issued, ?_⟩
    rw [Function.update_apply]
    split
    case isTrue same => exact same ▸ served
    case isFalse => exact served
  · rw [grown]
    exact ledger.keys
  · rw [grown, taken]
    exact List.forall_mem_cons.2 ⟨⟨recorded, member, rfl⟩, ledger.taken⟩
  · intro other asked entry holds
    rw [entries] at holds
    split at holds
    case isTrue => cases holds
    case isFalse differs =>
        obtain ⟨known, first, same, untaken⟩ := ledger.entry other asked entry holds
        rw [latest, taken]
        refine ⟨known, first, same, fun member' => ?_⟩
        rcases List.mem_cons.1 member' with own | old
        · obtain ⟨old, place', agent'⟩ := latest_some first
          obtain rfl := eq_of_key ledger old member own
          exact differs ⟨place'.symm.trans here, agent'.symm.trans named⟩
        · exact untaken old
  · intro other asked known first kept young
    rw [latest] at first
    rw [taken, List.mem_cons, not_or] at kept
    rw [now] at young
    rw [entries]
    split
    case isTrue own =>
        obtain ⟨rfl, rfl⟩ := own
        rw [last] at first
        cases first
        exact absurd rfl kept.1
    case isFalse => exact ledger.kept other asked known first kept.2 young

theorem revoke_eq {choice : Choice}
    (due : (world.revocations revocation).program = .op operation next) :
    world.revoke revocation choice =
      let revoking := world.revocations revocation
      let (after, reply) := world.performRevoke revoking choice operation
      { after with
        revocations := Function.update after.revocations revocation
          { revoking with
            took := world.took revoking operation
            heard := ⟨operation, reply⟩ :: revoking.heard
            program := next reply } } := by
  rw [World.revoke, due]

theorem Sound.listens (sound : Sound world)
    (due : (world.revocations revocation).program = .op operation next)
    (kick : ∀ subject payload, (⟨operation, reply⟩ : RevokeCall)
      ≠ ⟨.publishKick subject payload, .ok ()⟩)
    (take : ∀ tracked, (⟨operation, reply⟩ : RevokeCall)
      ≠ ⟨.take (world.revocations revocation).agentId, .ok (some tracked)⟩) :
    let revoking := world.revocations revocation
    Sound { world with
      revocations := Function.update world.revocations revocation
        { revoking with
          heard := ⟨operation, reply⟩ :: revoking.heard, program := next reply } } := by
  refine sound.setRevoking ((sound.revoked revocation).hear due kick take) ?_
  intro recorded took other differ second held
  exact sound.apart revocation other recorded second (Ne.symm differ) took held

theorem taking_cases (ledger : Ledger world) (place : Nat) (agentId : Uuid) :
    (world.taking place agentId = none ∧ (world.instances place).tracker agentId = none)
      ∨ ∃ recorded, world.taking place agentId = some recorded
        ∧ world.latest place agentId = some recorded
        ∧ (world.instances place).tracker agentId = some recorded.entry
        ∧ recorded.key ∉ world.taken := by
  rw [World.taking]
  cases entry : (world.instances place).tracker agentId with
  | none => exact .inl ⟨rfl, rfl⟩
  | some tracked =>
      obtain ⟨recorded, last, rfl, untaken⟩ := ledger.entry _ _ _ entry
      exact .inr ⟨recorded, last, last, rfl, untaken⟩

theorem Sound.emptied (sound : Sound world) (revoking : Revoking) (agentId : Uuid) :
    Sound (world.answerRevoke revoking (.take agentId)).1 := by
  simp only [World.answerRevoke, ConnectionTracker.take]
  rcases taking_cases sound.ledger revoking.place agentId with
    ⟨none_, entry⟩ | ⟨recorded, some_, last, entry, untaken⟩
  · rw [none_]
    refine sound.setInstance le_rfl (fun asked held holds => ?_) (fun asked held holds young => ?_)
      (sound.serving _)
    · dsimp only at holds
      rw [Function.update_apply] at holds
      split at holds
      · cases holds
      · exact holds
    · dsimp only
      rw [Function.update_of_ne]
      · exact holds
      · rintro rfl
        rw [entry] at holds
        cases holds
  · rw [some_]
    have later : Later world (World.setInstance { world with
        taken := recorded.key :: world.taken } revoking.place { world.instances revoking.place with
          tracker := Function.update (world.instances revoking.place).tracker agentId none }) :=
      ⟨le_rfl, le_rfl, fun _ _ => .inl, fun _ => id, fun _ => .tail _⟩
    refine ⟨sound.ledger.take last rfl rfl rfl rfl, sound.identities,
      fun reply member => (sound.replies reply member).later later, fun reply member =>
        ⟨(sound.connections reply member).1.later later, (sound.connections reply member).2⟩,
      fun revocation => (sound.revoked revocation).later later (fun _ => .inl) fun _ => id,
      sound.apart, fun kick member => ?_, sound.once, fun place => ?_⟩
    · obtain ⟨taken, known⟩ := sound.kicks kick member
      exact ⟨.tail _ taken, known⟩
    · simp only [World.setInstance, Function.update_apply]
      split
      case isTrue same =>
          subst same
          exact (sound.serving _).later later fun _ member _ => member
      case isFalse => exact (sound.serving place).later later fun _ member _ => member

theorem Sound.takes (sound : Sound world)
    {next : Except Unit (RevokeAnswer (.take agentId)) →
      Prog RevokeOp (fun operation => Except Unit (RevokeAnswer operation)) (Except Unit Unit)}
    (due : (world.revocations revocation).program = .op (.take agentId) next) {choice : Choice} :
    Sound (world.revoke revocation choice) := by
  have revoked := sound.revoked revocation
  have obeys := revoked.obeys
  rw [due] at obeys
  obtain ⟨⟨rfl, unheard⟩, rest⟩ := obeys
  -- What is taken now was not taken before, so no other revocation has it.
  have facts : ∀ recorded, world.taking (world.revocations revocation).place
      (world.revocations revocation).agentId = some recorded →
        recorded ∈ world.recorded ∧ recorded.key ∉ world.taken
          ∧ (world.instances (world.revocations revocation).place).tracker
            (world.revocations revocation).agentId = some recorded.entry := by
    intro recorded takes
    rcases taking_cases sound.ledger (world.revocations revocation).place
      (world.revocations revocation).agentId with ⟨none_, -⟩ | ⟨other, some_, last, entry, untaken⟩
    · rw [none_] at takes
      cases takes
    · rw [some_] at takes
      cases takes
      exact ⟨(latest_some last).1, untaken, entry⟩
  rw [revoke_eq due]
  refine (sound.emptied (world.revocations revocation) _).setRevoking ⟨rest _, ?_, ?_, ?_, ?_⟩ ?_
  · intro tracked member
    rw [unheard, List.mem_singleton] at member
    rcases taking_cases sound.ledger (world.revocations revocation).place
      (world.revocations revocation).agentId with ⟨-, entry⟩ | ⟨recorded, some_, -, entry, -⟩
    · simp [entry] at member
    · simp [entry] at member
      exact ⟨recorded, some_, member⟩
  · intro recorded takes
    obtain ⟨known, -, entry⟩ := facts recorded takes
    refine ⟨known, ?_, ?_⟩
    · show recorded.key ∈ (world.taking _ _).toList.map Recorded.key ++ world.taken
      rw [show world.taking _ _ = some recorded from takes]
      exact .head _
    · rw [← entry]
      exact .head _
  · intro recorded takes first kick member same
    obtain ⟨-, untaken, -⟩ := facts recorded takes
    exact untaken (same ▸ (sound.kicks kick member).1)
  · intro subject payload member
    rw [unheard, List.mem_singleton] at member
    cases member
  · intro recorded takes other differs second held same
    obtain ⟨-, untaken, -⟩ := facts recorded takes
    exact untaken (same ▸ ((sound.revoked other).took second held).2.1)

theorem Sound.kick (sound : Sound world) {subject payload : String}
    {next : Except Unit (RevokeAnswer (.publishKick subject payload)) →
      Prog RevokeOp (fun operation => Except Unit (RevokeAnswer operation)) (Except Unit Unit)}
    {reply : Except Unit Unit}
    (due : (world.revocations revocation).program = .op (.publishKick subject payload) next) :
    let revoking := world.revocations revocation
    Sound { (world.answerRevoke revoking (.publishKick subject payload)).1 with
      revocations := Function.update world.revocations revocation
        { revoking with
          heard := ⟨.publishKick subject payload, reply⟩ :: revoking.heard
          program := next reply } } := by
  intro revoking
  have revoked := sound.revoked revocation
  have obeys := revoked.obeys
  rw [due] at obeys
  obtain ⟨⟨unkicked, tracked, taken, printed⟩, rest⟩ := obeys
  obtain ⟨recorded, took, rfl⟩ := revoked.heard tracked taken
  obtain ⟨known, gone, -⟩ := revoked.took recorded took
  have fresh := revoked.unkicked recorded took unkicked
  have kicks : (world.answerRevoke revoking (.publishKick subject payload)).1.kicks
      = ⟨recorded.key, subject, payload⟩ :: world.kicks := by
    show (revoking.took.map _).toList ++ world.kicks = _
    rw [took]
    rfl
  have later : Later world { (world.answerRevoke revoking (.publishKick subject payload)).1 with
      revocations := Function.update world.revocations revocation
        { revoking with
          heard := ⟨.publishKick subject payload, reply⟩ :: revoking.heard
          program := next reply } } :=
    ⟨le_rfl, le_rfl, fun _ _ => .inl, fun _ => id, fun _ => id⟩
  refine ⟨⟨sound.ledger.issued, sound.ledger.keys, sound.ledger.taken, sound.ledger.entry,
    sound.ledger.kept⟩, sound.identities, fun reply member => (sound.replies reply member).later later,
      fun reply member =>
        ⟨(sound.connections reply member).1.later later, (sound.connections reply member).2⟩,
      fun other => ?_, ?_, ?_, ?_, fun place => (sound.serving place).later later
        fun _ member _ => member⟩
  · dsimp only
    rw [Function.update_apply]
    split
    case isTrue same =>
        refine ⟨rest _, fun tracked member => ?_, fun recorded' took' => ?_, fun _ _ first => ?_,
          fun subject' payload' member => ?_⟩
        · exact revoked.heard tracked (by simpa using member)
        · obtain ⟨known, taken, member⟩ := revoked.took recorded' took'
          exact ⟨known, taken, .tail _ member⟩
        · cases first _ (.head _)
        · refine ⟨recorded, took, ?_⟩
          rw [kicks]
          rcases List.mem_cons.1 member with same | before
          · cases same
            exact .head _
          · cases unkicked _ before
    case isFalse differs =>
        refine (sound.revoked other).later later ?_ ?_
        · intro kick member
          rw [kicks] at member
          rcases List.mem_cons.1 member with rfl | old
          · exact .inr fun second held =>
              sound.apart revocation other recorded second (Ne.symm differs) took held
          · exact .inl old
        · rw [kicks]
          exact fun _ => .tail _
  · have same : ∀ other, (Function.update world.revocations revocation
        { revoking with
          heard := ⟨.publishKick subject payload, reply⟩ :: revoking.heard
          program := next reply } other).took = (world.revocations other).took := by
      intro other
      rw [Function.update_apply]
      split
      case isTrue same => rw [same]
      case isFalse => rfl
    intro one other first second differ
    dsimp only
    rw [same, same]
    exact sound.apart one other first second differ
  · rw [kicks]
    exact List.forall_mem_cons.2 ⟨⟨gone, recorded, known, rfl, printed⟩, sound.kicks⟩
  · rw [kicks, List.map_cons]
    refine List.nodup_cons.2 ⟨fun member => ?_, sound.once⟩
    obtain ⟨kick, old, same⟩ := List.mem_map.1 member
    exact fresh kick old same

theorem Sound.revoke (sound : Sound world) {choice : Choice} :
    Sound (world.revoke revocation choice) := by
  cases due : (world.revocations revocation).program with
  | done value =>
      rw [World.revoke, due]
      exact sound
  | op operation next =>
      cases operation with
      | take agentId => exact sound.takes due
      | sysClient =>
          rw [revoke_eq due]
          exact sound.listens due nofun nofun
      | connectSys =>
          rw [revoke_eq due]
          simp only [World.performRevoke]
          split
          · exact sound.listens due nofun nofun
          · have opened : Sound (world.answerRevoke (world.revocations revocation) .connectSys).1 :=
              sound.setInstance le_rfl (fun _ _ => id) (fun _ _ holds _ => holds) (sound.serving _)
            exact Sound.listens opened due nofun nofun
      | publishKick subject payload =>
          rw [revoke_eq due]
          simp only [World.performRevoke]
          split
          · split
            · exact sound.kick due
            · exact sound.listens due nofun nofun
          · exact sound.kick due

theorem Sound.exec (sound : Sound world) (action : Action) : Sound (exec world action) := by
  cases action with
  | receive place message => exact sound.receive place message
  | handle place choice => exact sound.turn.handle
  | begin revocation place agentId => exact sound.begin
  | revoke revocation choice => exact sound.turn.revoke
  | reap place => exact sound.reap place
  | store agentId identity => exact sound.store agentId identity
  | deliver key => exact sound.deliver key
  | close key => exact sound.close key
  | tick seconds => exact sound.tick seconds

end Revoking

theorem sound_of_fresh {world : World} (fresh : Fresh world) : Sound world where
  ledger := by
    have latest : ∀ place agentId, world.latest place agentId = none := by
      intro place agentId
      rw [World.latest, fresh.recorded]
      rfl
    refine ⟨?_, ?_, ?_, ?_, ?_⟩
    · rw [fresh.recorded]
      exact fun _ => nofun
    · rw [fresh.recorded]
      exact List.nodup_nil
    · rw [fresh.taken]
      exact fun _ => nofun
    · intro place agentId entry holds
      rw [fresh.tracker] at holds
      cases holds
    · intro place agentId recorded last
      rw [latest] at last
      cases last
  identities agentId _ _ := fresh.clearedAt agentId
  replies := by
    rw [fresh.replies]
    exact fun _ => nofun
  connections := by
    rw [fresh.connections]
    exact fun _ => nofun
  revoked revocation := by
    obtain ⟨program, took, heard⟩ := fresh.revocations revocation
    refine ⟨?_, ?_, ?_, ?_, ?_⟩
    · rw [program, heard]
      exact fun _ => nofun
    · rw [heard]
      exact fun _ => nofun
    · rw [took]
      exact fun _ => nofun
    · rw [took]
      exact fun _ => nofun
    · rw [heard]
      exact fun _ _ => nofun
  apart one other first second _ := by
    rw [(fresh.revocations one).2.1]
    exact nofun
  kicks := by
    rw [fresh.kicks]
    exact fun _ => nofun
  once := by
    rw [fresh.kicks]
    exact List.nodup_nil
  serving place := by
    refine ⟨?_, ?_, ?_, ?_, ?_⟩
    · rw [fresh.idle]
      trivial
    · rw [fresh.heard]
      exact fun _ _ => nofun
    · rw [fresh.heard]
      exact fun _ => nofun
    · rw [fresh.heard]
      exact fun _ _ _ => nofun
    · rw [fresh.recorded]
      exact fun _ _ => nofun

theorem sound_of_reached {world : World} (reached : Reached world) : Sound world :=
  reached.invariant (fun _ fresh => sound_of_fresh fresh) fun _ action sound _ => sound.exec action

/-- What bounds the connections of an agent once its password is cleared. -/
structure Bounded (world : World) : Prop where
  /-- An answer that allows found the offered password, before it was cleared. -/
  denied : ∀ reply ∈ world.replies ++ world.connections, ∀ request exp,
    reply.allows = some (request, exp) → ∀ agentId,
      Uuid.parseStr request.connectUser = some agentId →
        (∃ identity, reply.found = some identity
          ∧ ctEqBytes (bytes request.connectPassword) (bytes identity.password) = true)
        ∧ ∀ time, world.clearedAt agentId = some time → reply.looked < time
  /-- An open connection was recorded and ends within a token's lifetime. -/
  expiring : ∀ reply ∈ world.connections, ∃ request exp, reply.allows = some (request, exp)
    ∧ world.now < exp ∧ exp ≤ world.now + defaultJwtTtl
    ∧ ∃ recorded ∈ world.recorded, recorded.key = reply.key
      ∧ recorded.serverId = request.serverId ∧ recorded.clientCid = request.clientCid
      ∧ Uuid.parseStr request.connectUser = some recorded.agentId
  /-- A revocation takes the open connection that its instance recorded last, unless an earlier one
  did. -/
  takes : ∀ revocation choice agentId next,
    (world.revocations revocation).program = .op (.take agentId) next →
      ∀ recorded, world.latest (world.revocations revocation).place agentId = some recorded →
        recorded.key ∉ world.taken → (∃ reply ∈ world.connections, reply.key = recorded.key) →
          ((exec world (.revoke revocation choice)).revocations revocation).took = some recorded
  /-- What it took is kicked when it is over, if it has an account and no call failed. -/
  kicked : ∀ revocation recorded, (world.revocations revocation).program.isDone = true →
    (world.revocations revocation).took = some recorded →
      (world.revocations revocation).service.hasSysCredentials = true →
        ¬ Failed (world.revocations revocation).heard →
          ⟨recorded.key, kickSubject (world.revocations revocation).service,
            natsKickPayload recorded.clientCid⟩ ∈ world.kicks
  /-- Every kick is for a recorded connection, and no connection is kicked twice. -/
  once : (world.kicks.map Kick.key).Nodup ∧ ∀ kick ∈ world.kicks,
    ∃ recorded ∈ world.recorded, recorded.key = kick.key
      ∧ kick.payload = natsKickPayload recorded.clientCid

section Bounds

variable {world : World}

theorem Sound.expiring (sound : Sound world) {reply : Reply} (opened : reply ∈ world.connections) :
    ∃ request exp recorded, reply.allows = some (request, exp) ∧ world.now < exp
      ∧ exp ≤ recorded.issuedAt + defaultJwtTtl ∧ recorded ∈ world.recorded
      ∧ recorded.key = reply.key ∧ recorded.serverId = request.serverId
      ∧ recorded.clientCid = request.clientCid
      ∧ Uuid.parseStr request.connectUser = some recorded.agentId := by
  obtain ⟨backed, lives⟩ := sound.connections reply opened
  cases allows : reply.allows with
  | none =>
      rw [World.lives, allows] at lives
      cases lives
  | some allowed =>
      obtain ⟨request, exp⟩ := allowed
      rw [World.lives, allows] at lives
      obtain ⟨agentId, identity, issuedAt, named, -, -, -, -, known, ends⟩ :=
        backed request exp allows
      exact ⟨request, exp, _, rfl, of_decide_eq_true lives, ends, known, rfl, rfl, rfl, named⟩

theorem Sound.tracked (sound : Sound world) {place : Nat} {agentId : Uuid} {recorded : Recorded}
    (last : world.latest place agentId = some recorded) (untaken : recorded.key ∉ world.taken)
    (opened : ∃ reply ∈ world.connections, reply.key = recorded.key) :
    (world.instances place).tracker agentId = some recorded.entry := by
  obtain ⟨reply, member, key⟩ := opened
  obtain ⟨request, exp, known, -, lives, ends, old, same, -⟩ := sound.expiring member
  obtain rfl := eq_of_key sound.ledger (latest_some last).1 old (key.symm.trans same.symm)
  refine sound.ledger.kept place agentId recorded last untaken ?_
  have young : world.now < recorded.issuedAt + defaultJwtTtl := lives.trans_le ends
  have longer : defaultJwtTtl ≤ maxAge := by decide
  omega

/-- Whatever the callouts, revocations and passwords do beside each other, callouts after the
password was cleared are denied, what was allowed before ends with its token, and a revocation kicks
what its instance recorded last. -/
theorem bounded (reached : Reached world) : Bounded world where
  denied reply member request exp allows agentId named := by
    have sound := sound_of_reached reached
    have backed : Backed world reply := by
      rcases List.mem_append.1 member with flying | opened
      · exact sound.replies reply flying
      · exact (sound.connections reply opened).1
    obtain ⟨other, identity, issuedAt, same, found, password, -, cleared, -⟩ :=
      backed request exp allows
    obtain rfl : agentId = other := Option.some.inj (named.symm.trans same)
    exact ⟨⟨identity, found, password⟩, cleared⟩
  expiring reply member := by
    have sound := sound_of_reached reached
    obtain ⟨request, exp, recorded, allows, lives, ends, known, key, server, client, named⟩ :=
      sound.expiring member
    refine ⟨request, exp, allows, lives, ends.trans ?_, recorded, known, key, server, client, named⟩
    exact Nat.add_le_add_right (sound.ledger.issued recorded known).1 _
  takes revocation choice agentId next due recorded last untaken opened := by
    have tracked := (sound_of_reached reached).tracked last untaken opened
    show ((World.revoke { world with turn := world.turn + 1 } revocation choice).revocations
      revocation).took = some recorded
    rw [@revoke_eq { world with turn := world.turn + 1 } revocation _ next choice due]
    dsimp only
    rw [Function.update_self]
    show (if ((world.instances _).tracker agentId).isSome then world.latest _ agentId else none) = _
    rw [tracked, last]
    rfl
  kicked revocation recorded idle took account fine := by
    have revoked := (sound_of_reached reached).revoked revocation
    have obeys := revoked.obeys
    cases due : (world.revocations revocation).program with
    | op operation next =>
        rw [due] at idle
        cases idle
    | done value =>
        rw [due] at obeys
        have heard := (revoked.took recorded took).2.2
        have kick := (obeys recorded.entry heard account).resolve_left fine
        obtain ⟨other, own, known⟩ := revoked.kicked _ _ kick
        obtain rfl : recorded = other := Option.some.inj (took.symm.trans own)
        exact known
  once := by
    have sound := sound_of_reached reached
    refine ⟨sound.once, fun kick member => ?_⟩
    exact (sound.kicks kick member).2

end Bounds

namespace Sample

def agentId : Uuid := ⟨7⟩

def site : Instance where
  account := "AGENTFORGE"
  service := ⟨"nats", true⟩
  tracker := fun _ => none
  connected := false
  served := 0
  working := ⟨⟨none, false, false⟩, 0, none, [], .done (.ok ())⟩

def start : World where
  now := 0
  identities := fun asked => if asked = agentId then some ⟨"secret", "cli"⟩ else none
  instances := fun _ => site
  revocations := fun _ => ⟨0, site.service, agentId, none, [], .done (.ok ())⟩
  replies := []
  connections := []
  kicks := []
  turn := 0
  clearedAt := fun _ => none
  recorded := []
  taken := []

theorem fresh_start : Fresh start :=
  ⟨fun _ => rfl, fun _ => rfl, fun _ _ => rfl, fun _ => ⟨rfl, rfl, rfl⟩, rfl, rfl, rfl, fun _ => rfl,
    rfl, rfl⟩

def connect (clientCid : Nat) : Action :=
  .receive 0 ⟨some ⟨"NSERVER", "UUSER", agentId.toText, "secret", clientCid⟩, false, true⟩

def handled (calls : Nat) : List Action :=
  List.replicate calls (.handle 0 ⟨false, false⟩)

/-- Two connections are allowed; a third has been looked up when the password is cleared and the
agent is revoked, and is allowed afterwards. -/
def crowded : List Action :=
  connect 1 :: handled 5 ++ connect 2 :: handled 5 ++ [.deliver (0, 1), .deliver (0, 2)]
    ++ connect 3 :: handled 1 ++ [.store agentId none, .begin 0 0 agentId]
    ++ List.replicate 4 (.revoke 0 ⟨false, false⟩) ++ [.close (0, 2)]
    ++ handled 4 ++ [.deliver (0, 3)]

def final : World := Library.StateMachine.run exec start crowded

theorem reached_final : Reached final :=
  Library.StateMachine.reachable_run fresh_start
    (Library.StateMachine.allAllowed_of_forall (fun _ _ _ => trivial) _)

end Sample

theorem bounded_final : Bounded Sample.final :=
  bounded Sample.reached_final

/-- The revocation is over and its kick was published, but a connection that was replaced in the
tracker and one that was recorded after the look are open and not kicked. -/
theorem survivors :
    Reached Sample.final
      ∧ Sample.final.clearedAt Sample.agentId ≠ none
      ∧ (Sample.final.revocations 0).program.isDone = true
      ∧ (Sample.final.revocations 0).took.map Recorded.key = some (0, 2)
      ∧ Sample.final.kicks = [⟨(0, 2), "$SYS.REQ.SERVER.nats.KICK", "\x7b\"cid\":2\x7d"⟩]
      ∧ Sample.final.connections.map Reply.key = [(0, 3), (0, 1)]
      ∧ Sample.final.connections.all (fun reply => reply.allows.any fun allowed =>
        Uuid.parseStr allowed.1.connectUser == some Sample.agentId) = true :=
  ⟨Sample.reached_final, by decide +kernel⟩

end Forge.RevocationSafety
