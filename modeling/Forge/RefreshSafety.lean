import Forge.CliAuthRefresh
import Forge.Library.StateMachine

/-! Refresh sweeps beside disconnects and re-authentications: what each write of a sweep finds in
the row. -/

namespace Forge.RefreshSafety

open Forge.CliAuthRefresh
open Forge.CredentialConsumer
open Forge.Library.Identifier
open Forge.Library.Interleaving
open Forge.Library.JsonDocument
open Forge.Library.KeyedTable
open Forge.Library.StateMachine
open Forge.Schema

/-- What took effect on the row of a user and a tool. Every stored credential has a number; a
refresh and a failure name the one that their sweep has read. -/
inductive Event where
  | connected (number : Nat) (ciphertext : String)
  | disconnected
  | refreshed (source : Option Nat) (number : Nat) (ciphertext : String)
  | failed (source : Option Nat) (revoked : Bool)
  | cleared
deriving DecidableEq

structure Standing where
  number : Nat
  ciphertext : String
  failures : Int
  revoked : Bool
deriving DecidableEq

def standing : List Event → Option Standing
  | [] => none
  | .connected number ciphertext :: _ => some ⟨number, ciphertext, 0, false⟩
  | .disconnected :: _ => none
  | .refreshed _ number ciphertext :: _ => some ⟨number, ciphertext, 0, false⟩
  | .failed _ revoked :: before => (standing before).map fun held =>
      { held with failures := held.failures + 1, revoked }
  | .cleared :: before => (standing before).map fun held => { held with failures := 0 }

def Replaces (source : Option Nat) (held : Option Standing) : Prop :=
  ∃ now, held = some now ∧ source = some now.number ∧ now.revoked = false

def Counts (source : Option Nat) (held : Option Standing) : Prop :=
  ∃ now, held = some now ∧ source = some now.number

/-- No refresh brings a deleted credential back, replaces a newer one or ends a revocation, and no
failure counts against a newer one. -/
def Fits (held : Option Standing) : Event → Prop
  | .refreshed source _ _ => Replaces source held
  | .failed source _ => Counts source held
  | _ => True

def Sound : List Event → Prop
  | [] => True
  | event :: before => Fits (standing before) event ∧ Sound before

/-- The table and the sweeps. The events of every row, how many credentials were stored, and what
every sweep has read, are history. -/
structure World where
  credentials : Credentials
  sweeps : Nat → Prog Op (fun operation => Except AppError (Answer operation)) Unit
  history : Uuid × String → List Event
  numbers : Nat
  seen : Nat → Uuid × String → Option Nat

/-- What becomes of a call: the clock, the nonce and the answer of the provider; it may fail, with
or without having taken effect. -/
structure Choice where
  now : Timestamp
  nonce : String
  response : Response
  failure : Option (Bool × AppError)

def Choice.reached (choice : Choice) : Bool :=
  choice.failure.all Prod.fst

inductive Action where
  | begin (sweep : Nat) (service : CliAuthProxyService) (threshold : Nat)
  | step (sweep : Nat) (choice : Choice)
  | connect (userId : Uuid) (cliTool ciphertext : String) (now : Timestamp)
  | disconnect (userId : Uuid) (cliTool : String)

namespace World

variable (world : World)

def empty : World := ⟨.empty, fun _ => .done (), fun _ => [], 0, fun _ _ => none⟩

def held (key : Uuid × String) : Option Standing :=
  standing (world.history key)

def note (key : Uuid × String) (event : Event) : World :=
  { world with history := Function.update world.history key (event :: world.history key) }

def look (sweep : Nat) (cliTool : String) : World :=
  let read := fun (key : Uuid × String) =>
    if key.2 = cliTool then
      ((world.held key).filter fun held => !held.revoked).map Standing.number
    else world.seen sweep key
  { world with seen := Function.update world.seen sweep read }

/-- `upsert_encrypted` and `upsert_encrypted_by_user_id`. -/
def upsert (userId : Uuid) (cliTool ciphertext : String) (now : Timestamp)
    (event : Nat → Event) : World :=
  { world with
    credentials := upsertEncrypted world.credentials userId cliTool ciphertext now
    numbers := world.numbers + 1 }.note (userId, cliTool) (event world.numbers)

def isActive (userId : Uuid) (cliTool : String) : Bool :=
  (credentialOf world.credentials userId cliTool).any fun row => row.revokedAt.isNone

def bump (sweep : Nat) (userId : Uuid) (cliTool reason : String) (threshold : Int)
    (now : Timestamp) : World × Option (Int × Option Timestamp) :=
  let (credentials, answer) :=
    bumpFailCountOrRevoke world.credentials userId cliTool reason threshold now
  let after := { world with credentials }
  (if world.isActive userId cliTool then
    after.note (userId, cliTool)
      (.failed (world.seen sweep (userId, cliTool)) (answer.bind Prod.snd).isSome)
  else after, answer)

def reset (userId : Uuid) (cliTool : String) (now : Timestamp) : World :=
  let after := { world with
    credentials := resetFailCountOnSuccess world.credentials userId cliTool now }
  if world.isActive userId cliTool then
    after.note (userId, cliTool) .cleared
  else after

/-- A call that is answered. -/
def answer (env : Environment) (sweep : Nat) (choice : Choice) :
    (operation : Op) → World × Answer operation
  | .clock => (world, choice.now)
  | .findAllActiveByCliTool cliTool =>
      (world.look sweep cliTool, findAllActiveByCliTool world.credentials cliTool)
  | .post _ _ => (world, choice.response)
  | .encrypt key plaintext => (world, env.encryptBase64 key choice.nonce plaintext)
  | .upsertEncryptedByUserId userId cliTool ciphertext =>
      (world.upsert userId cliTool ciphertext choice.now
        (.refreshed (world.seen sweep (userId, cliTool)) · ciphertext), ())
  | .resetFailCountOnSuccess userId cliTool => (world.reset userId cliTool choice.now, ())
  | .bumpFailCountOrRevoke userId cliTool reason threshold =>
      world.bump sweep userId cliTool reason threshold choice.now

/-- A call with what becomes of it. A scan that fails reads nothing. -/
def perform (env : Environment) (sweep : Nat) (choice : Choice) (operation : Op) :
    World × Except AppError (Answer operation) :=
  match choice.failure with
  | none =>
      let (after, reply) := world.answer env sweep choice operation
      (after, .ok reply)
  | some (reached, err) =>
      match operation with
      | .clock => (world, .ok choice.now)
      | .findAllActiveByCliTool _ => (world, .error err)
      | operation =>
          (if reached then (world.answer env sweep choice operation).1 else world, .error err)

def step (env : Environment) (sweep : Nat) (choice : Choice) : World :=
  match world.sweeps sweep with
  | .done _ => world
  | .op operation next =>
      let (after, reply) := world.perform env sweep choice operation
      { after with sweeps := Function.update world.sweeps sweep (next reply) }

end World

section Runs

variable (env : Environment)

/-- A sweep begins under a name that is free. -/
def exec (world : World) : Action → World
  | .begin sweep service threshold =>
      if (world.sweeps sweep).isDone then
        { world with
          sweeps := Function.update world.sweeps sweep
            (Prog.bind (refreshStale env service threshold) fun _ => .done ()) }
      else world
  | .step sweep choice => world.step env sweep choice
  | .connect userId cliTool ciphertext now =>
      world.upsert userId cliTool ciphertext now (.connected · ciphertext)
  | .disconnect userId cliTool =>
      { world with credentials := delete world.credentials userId cliTool }.note
        (userId, cliTool) .disconnected

/-- A write that takes effect finds the credential that its sweep has read, not revoked since. -/
def calm (world : World) (sweep : Nat) : Op → Prop
  | .upsertEncryptedByUserId userId cliTool _ =>
      Replaces (world.seen sweep (userId, cliTool)) (world.held (userId, cliTool))
  | .bumpFailCountOrRevoke userId cliTool _ _ => world.isActive userId cliTool →
      Counts (world.seen sweep (userId, cliTool)) (world.held (userId, cliTool))
  | _ => True

def undisturbed (world : World) : Action → Prop
  | .step sweep choice =>
      match world.sweeps sweep with
      | .op operation _ => choice.reached → calm world sweep operation
      | .done _ => True
  | _ => True

end Runs

def rowStanding (row : CredentialRow) : String × Int × Bool :=
  (row.encryptedCredentials, row.refreshFailCount, row.revokedAt.isSome)

def Tells (world : World) : Prop :=
  ∀ userId cliTool, (credentialOf world.credentials userId cliTool).map rowStanding =
    (world.held (userId, cliTool)).map fun held => (held.ciphertext, held.failures, held.revoked)

section Steps

variable {env : Environment} {world : World} {userId : Uuid} {cliTool : String} {now : Timestamp}

/-- What one action notes: nothing, or an event that fits just when the action is undisturbed. -/
inductive Notes (world : World) (calm : Prop) : World → Prop where
  | nothing {after : World} (same : after.history = world.history) (holds : calm) :
      Notes world calm after
  | event {after : World} (key : Uuid × String) (event : Event)
      (noted : after.history = Function.update world.history key (event :: world.history key))
      (fits : calm ↔ Fits (world.held key) event) : Notes world calm after

theorem Notes.sound {calm : Prop} {after : World} (notes : Notes world calm after) :
    (∀ key, Sound (after.history key)) ↔ (∀ key, Sound (world.history key)) ∧ calm := by
  cases notes with
  | nothing same holds => simp [same, holds]
  | event key event noted fits =>
      rw [noted, fits]
      constructor
      · intro sound
        have top := sound key
        rw [Function.update_self] at top
        refine ⟨fun other => ?_, top.1⟩
        by_cases same : other = key
        · rw [same]
          exact top.2
        · have rest := sound other
          rwa [Function.update_of_ne same] at rest
      · rintro ⟨sound, first⟩ other
        rw [Function.update_apply]
        split
        · exact ⟨first, sound key⟩
        · exact sound other

theorem notes_bump {sweep : Nat} {reason : String} {threshold : Int} :
    Notes world
      (world.isActive userId cliTool →
        Counts (world.seen sweep (userId, cliTool)) (world.held (userId, cliTool)))
      (world.bump sweep userId cliTool reason threshold now).1 := by
  unfold World.bump
  dsimp only
  split
  case isTrue active =>
      refine .event (userId, cliTool) _ rfl ?_
      simp only [active, forall_const]
      exact Iff.rfl
  case isFalse idle => exact .nothing rfl fun active => absurd active idle

theorem notes_reset : Notes world True (world.reset userId cliTool now) := by
  unfold World.reset
  dsimp only
  split
  · exact .event (userId, cliTool) _ rfl Iff.rfl
  · exact .nothing rfl trivial

theorem Notes.congr {calm calm' : Prop} {after : World} (notes : Notes world calm after)
    (same : calm' ↔ calm) : Notes world calm' after := by
  rwa [propext same]

theorem notes_answer {sweep : Nat} {choice : Choice} {operation : Op} :
    Notes world (calm world sweep operation) (world.answer env sweep choice operation).1 := by
  cases operation with
  | clock => exact .nothing rfl trivial
  | findAllActiveByCliTool cliTool => exact .nothing rfl trivial
  | post endpoint form => exact .nothing rfl trivial
  | encrypt key plaintext => exact .nothing rfl trivial
  | upsertEncryptedByUserId userId cliTool ciphertext =>
      exact .event (userId, cliTool) _ rfl Iff.rfl
  | resetFailCountOnSuccess userId cliTool => exact notes_reset
  | bumpFailCountOrRevoke userId cliTool reason threshold => exact notes_bump

theorem notes_perform {sweep : Nat} {choice : Choice} {operation : Op} :
    Notes world (choice.reached → calm world sweep operation)
      (world.perform env sweep choice operation).1 := by
  unfold World.perform Choice.reached
  cases choice.failure with
  | none => exact notes_answer.congr (by simp)
  | some failure =>
      obtain ⟨reached, err⟩ := failure
      have lost : Notes world (reached = true → calm world sweep operation)
          (if reached then (world.answer env sweep choice operation).1 else world) := by
        cases reached with
        | false => exact .nothing rfl nofun
        | true => exact notes_answer.congr (by simp)
      cases operation with
      | clock => exact .nothing rfl fun _ => trivial
      | findAllActiveByCliTool cliTool => exact .nothing rfl fun _ => trivial
      | post endpoint form => exact lost
      | encrypt key plaintext => exact lost
      | upsertEncryptedByUserId userId cliTool ciphertext => exact lost
      | resetFailCountOnSuccess userId cliTool => exact lost
      | bumpFailCountOrRevoke userId cliTool reason threshold => exact lost

theorem notes_exec {action : Action} :
    Notes world (undisturbed world action) (exec env world action) := by
  cases action with
  | begin sweep service threshold =>
      rw [exec]
      split
      · exact .nothing rfl trivial
      · exact .nothing rfl trivial
  | connect userId cliTool ciphertext now => exact .event (userId, cliTool) _ rfl Iff.rfl
  | disconnect userId cliTool => exact .event (userId, cliTool) _ rfl Iff.rfl
  | step sweep choice =>
      simp only [exec, World.step, undisturbed]
      cases due : world.sweeps sweep with
      | done value => exact .nothing rfl trivial
      | op operation next =>
          cases @notes_perform env world sweep choice operation with
          | nothing same holds => exact .nothing same holds
          | event key event noted fits => exact .event key event noted fits

theorem sound_run {actions : List Action} :
    (∀ key, Sound ((run (exec env) world actions).history key)) ↔
      (∀ key, Sound (world.history key)) ∧ AllAllowed (exec env) undisturbed world actions := by
  induction actions generalizing world with
  | nil => exact (and_iff_left trivial).symm
  | cons action rest ih =>
      rw [AllAllowed, run, List.foldl_cons]
      exact ih.trans (notes_exec.sound.and Iff.rfl |>.trans and_assoc)

end Steps

section Rows

variable {credentials : Credentials} {userId other : Uuid} {cliTool otherTool : String}

theorem credentialOf_update {hits : CredentialRow → Bool} {set : CredentialRow → CredentialRow}
    (keeps : ∀ row, CredentialRow.key (set row) = row.key) :
    credentialOf (credentials.update hits set keeps) other otherTool =
      (credentialOf credentials other otherTool).map fun row => if hits row then set row else row :=
  Table.find?_update fun row => by rw [keeps]

theorem credentialOf_delete :
    credentialOf (delete credentials userId cliTool) other otherTool =
      if (other, otherTool) = (userId, cliTool) then none
      else credentialOf credentials other otherTool := by
  rw [credentialOf, delete]
  split
  case isTrue same =>
      refine Table.find?_eq_none.2 fun row member => ?_
      rw [same]
      exact (Table.mem_deleteWhere.1 member).2
  case isFalse differs =>
      rw [credentialOf, Table.find?, Table.find?, Table.deleteWhere, List.find?_filter]
      congr 1
      funext row
      by_cases own : row.key = (userId, cliTool)
      · simp [own, Ne.symm differs]
      · simp [own, beq_eq_decide]

theorem credentialOf_upsert {ciphertext : String} {now : Timestamp} :
    credentialOf (upsertEncrypted credentials userId cliTool ciphertext now) other otherTool =
      if (other, otherTool) = (userId, cliTool) then
        some ⟨userId, cliTool, ciphertext, none, none, 0, none, none, now⟩
      else credentialOf credentials other otherTool :=
  find?_upsertEncrypted userId other cliTool otherTool ciphertext now

theorem key_of_credentialOf {row : CredentialRow}
    (found : credentialOf credentials userId cliTool = some row) :
    row.key = (userId, cliTool) :=
  beq_iff_eq.1 (Table.mem_of_find? found).2

end Rows

section Telling

variable {env : Environment} {world : World} {userId : Uuid} {cliTool : String} {now : Timestamp}

theorem tells_empty : Tells .empty := fun _ _ => rfl

theorem Tells.of_note (tells : Tells world) {credentials : Credentials} {numbers : Nat}
    {event : Event}
    (others : ∀ other otherTool, (other, otherTool) ≠ (userId, cliTool) →
      credentialOf credentials other otherTool = credentialOf world.credentials other otherTool)
    (own : (credentialOf credentials userId cliTool).map rowStanding =
      (standing (event :: world.history (userId, cliTool))).map fun held =>
        (held.ciphertext, held.failures, held.revoked)) :
    Tells ({ world with credentials, numbers }.note (userId, cliTool) event) := by
  intro other otherTool
  simp only [World.note, World.held, Function.update_apply]
  split
  case isTrue same =>
      cases same
      exact own
  case isFalse differs =>
      rw [others other otherTool differs]
      exact tells other otherTool

theorem Tells.upsert (tells : Tells world) {ciphertext : String} {event : Nat → Event}
    (stores : ∀ number before, standing (event number :: before)
      = some ⟨number, ciphertext, 0, false⟩) :
    Tells (world.upsert userId cliTool ciphertext now event) := by
  refine tells.of_note (fun other otherTool differs => ?_) ?_
  · rw [credentialOf_upsert, if_neg differs]
  · rw [credentialOf_upsert, if_pos rfl, stores]
    rfl

theorem Tells.disconnect (tells : Tells world) :
    Tells ({ world with credentials := delete world.credentials userId cliTool }.note
      (userId, cliTool) .disconnected) := by
  refine tells.of_note (fun other otherTool differs => ?_) ?_
  · rw [credentialOf_delete, if_neg differs]
  · rw [credentialOf_delete, if_pos rfl]
    rfl

section Updates

variable (set : CredentialRow → CredentialRow)
  (keeps : ∀ row, CredentialRow.key (set row) = row.key)

include keeps

theorem Tells.update {event : Event} (tells : Tells world) (effect : Standing → Standing)
    (events : ∀ before, standing (event :: before) = (standing before).map effect)
    (alike : ∀ row held, credentialOf world.credentials userId cliTool = some row →
      row.revokedAt = none → rowStanding row = (held.ciphertext, held.failures, held.revoked) →
        rowStanding (set row) =
          ((effect held).ciphertext, (effect held).failures, (effect held).revoked)) :
    let credentials := world.credentials.update
      (fun row => row.key == (userId, cliTool) && row.revokedAt.isNone) set keeps
    Tells (if world.isActive userId cliTool then
        { world with credentials }.note (userId, cliTool) event
      else { world with credentials }) := by
  intro credentials
  have others : ∀ other otherTool, (other, otherTool) ≠ (userId, cliTool) →
      credentialOf credentials other otherTool
        = credentialOf world.credentials other otherTool := by
    intro other otherTool differs
    rw [credentialOf_update keeps]
    cases found : credentialOf world.credentials other otherTool with
    | none => rfl
    | some row => simp [key_of_credentialOf found, differs]
  cases found : credentialOf world.credentials userId cliTool with
  | none =>
      rw [if_neg (by simp [World.isActive, found])]
      intro other otherTool
      by_cases same : (other, otherTool) = (userId, cliTool)
      · cases same
        rw [credentialOf_update keeps, found]
        exact (congrArg (Option.map rowStanding) found).symm.trans (tells userId cliTool)
      · rw [others other otherTool same]
        exact tells other otherTool
  | some row =>
      have key := key_of_credentialOf found
      have told := tells userId cliTool
      rw [found] at told
      cases revoked : row.revokedAt with
      | some time =>
          rw [if_neg (by simp [World.isActive, found, revoked])]
          intro other otherTool
          by_cases same : (other, otherTool) = (userId, cliTool)
          · cases same
            rw [credentialOf_update keeps, found, Option.map_some]
            rw [if_neg (by simp [revoked])]
            exact told
          · rw [others other otherTool same]
            exact tells other otherTool
      | none =>
          rw [if_pos (by simp [World.isActive, found, revoked])]
          refine tells.of_note others ?_
          rw [credentialOf_update keeps, found, events]
          obtain ⟨held, holds, same⟩ := Option.map_eq_some_iff.1 told.symm
          rw [show standing (world.history (userId, cliTool)) = some held from holds]
          simp only [Option.map_some, key, revoked, beq_self_eq_true, Option.isNone_none,
            Bool.and_self, if_true]
          exact congrArg some (alike row held found revoked same.symm)

end Updates

theorem Tells.bump {sweep : Nat} {reason : String} {threshold : Int} (tells : Tells world) :
    Tells (world.bump sweep userId cliTool reason threshold now).1 := by
  refine tells.update (fun row => bumped row reason threshold now) (fun _ => rfl)
    (fun held => ⟨held.number, held.ciphertext, held.failures + 1,
      ((bumpFailCountOrRevoke world.credentials userId cliTool reason threshold now).2.bind
        Prod.snd).isSome⟩) ?_ fun row held found active same => ?_
  · intro before
    rfl
  · obtain ⟨number, ciphertext, failures, revoked⟩ := held
    cases same
    simp [rowStanding, bumpFailCountOrRevoke, bumped, found, active, Option.filter]

theorem Tells.reset (tells : Tells world) : Tells (world.reset userId cliTool now) := by
  refine tells.update (fun row => cleared row now) (fun _ => rfl)
    (fun held => ⟨held.number, held.ciphertext, 0, held.revoked⟩) ?_ fun row held found active same => ?_
  · intro before
    rfl
  · obtain ⟨number, ciphertext, failures, revoked⟩ := held
    cases same
    rfl

theorem Tells.answer {sweep : Nat} {choice : Choice} {operation : Op} (tells : Tells world) :
    Tells (world.answer env sweep choice operation).1 := by
  cases operation with
  | clock => exact tells
  | findAllActiveByCliTool cliTool => exact tells
  | post endpoint form => exact tells
  | encrypt key plaintext => exact tells
  | upsertEncryptedByUserId userId cliTool ciphertext => exact tells.upsert fun _ _ => rfl
  | resetFailCountOnSuccess userId cliTool => exact tells.reset
  | bumpFailCountOrRevoke userId cliTool reason threshold => exact tells.bump

theorem Tells.perform {sweep : Nat} {choice : Choice} {operation : Op} (tells : Tells world) :
    Tells (world.perform env sweep choice operation).1 := by
  unfold World.perform
  cases choice.failure with
  | none => exact tells.answer
  | some failure =>
      obtain ⟨reached, err⟩ := failure
      have lost : Tells
          (if reached then (world.answer env sweep choice operation).1 else world) := by
        cases reached with
        | false => exact tells
        | true => exact tells.answer
      cases operation with
      | clock => exact tells
      | findAllActiveByCliTool cliTool => exact tells
      | post endpoint form => exact lost
      | encrypt key plaintext => exact lost
      | upsertEncryptedByUserId userId cliTool ciphertext => exact lost
      | resetFailCountOnSuccess userId cliTool => exact lost
      | bumpFailCountOrRevoke userId cliTool reason threshold => exact lost

theorem Tells.exec {action : Action} (tells : Tells world) :
    Tells (RefreshSafety.exec env world action) := by
  cases action with
  | begin sweep service threshold =>
      rw [RefreshSafety.exec]
      split
      · exact tells
      · exact tells
  | connect userId cliTool ciphertext now => exact tells.upsert fun _ _ => rfl
  | disconnect userId cliTool => exact tells.disconnect
  | step sweep choice =>
      simp only [RefreshSafety.exec, World.step]
      cases world.sweeps sweep with
      | done value => exact tells
      | op operation next => exact tells.perform

theorem tells_run {actions : List Action} (tells : Tells world) :
    Tells (run (exec env) world actions) := by
  induction actions generalizing world with
  | nil => exact tells
  | cons action rest ih => exact ih tells.exec

end Telling

/-- The rows hold what the events left, and the events fit just when every write of a sweep finds
the credential that the sweep has read. -/
theorem refresh_safe_iff (env : Environment) (actions : List Action) :
    Tells (run (exec env) .empty actions) ∧
      ((∀ key, Sound ((run (exec env) .empty actions).history key)) ↔
        AllAllowed (exec env) undisturbed .empty actions) :=
  ⟨tells_run tells_empty, sound_run.trans (and_iff_right fun _ => trivial)⟩

namespace Sample

def parseJson (text : String) : Except String Json :=
  if text = "files" then .ok (.object [("auth.json", .string "auth")])
  else if text = "auth" then
    .ok (.object [("tokens", .object [("refresh_token", .string "old")])])
  else if text = "tokens" then .ok (.object [("access_token", .string "new")])
  else .error "expected value"

def env : Environment where
  parseJson
  decodeClaims _ := none
  parseRfc3339 _ := none
  toRfc3339 _ := "now"
  decryptBase64 _ text := .ok text
  encryptBase64 _ _ _ := "sealed"

def service : CliAuthProxyService where
  providers := [⟨"codex", "https://idp", "client", none⟩]
  encryptionKey := some "key"
  revokeThreshold := 3

def userId : Uuid := ⟨1⟩

def goOn : Action :=
  .step 0 ⟨0, "", ⟨200, some "tokens"⟩, none⟩

def actions : List Action :=
  [.connect userId "codex" "files" 0, .begin 0 service 0, goOn, goOn, goOn, goOn, goOn,
    .disconnect userId "codex", goOn]

end Sample

open Sample in
/-- The refresh brings the deleted credential back. -/
theorem refresh_revives : ¬ ∀ env actions key,
    Sound ((run (exec env) .empty actions).history key) := by
  intro sound
  have events := sound env actions (userId, "codex")
  have revived : (run (exec env) .empty actions).history (userId, "codex")
      = [.refreshed (some 0) 1 "sealed", .disconnected, .connected 0 "files"] := by
    decide +kernel
  rw [revived] at events
  obtain ⟨held, none, -⟩ := events.1
  cases none

end Forge.RefreshSafety
