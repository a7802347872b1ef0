import Forge.HookEvents
import Forge.Library.StateMachine

/-! The lifecycle sequence numbers that a sidecar issues for one generation of its agent, over
accepted, rejected and interrupted hook events and restarts. -/

namespace Forge.HookSequencing

open Forge.HookEvents
open Forge.Library.Identifier
open Forge.Library.JsonDocument
open Forge.Library.StateMachine

structure Sidecar where
  running : Option HookStateSnapshot
  file : HookStateFile
  issued : List Int
deriving DecidableEq

/-- An interrupted event is one during which the process ends; a restart finds the visible file,
or after a loss of power the durable one. -/
inductive Action where
  | hookEvent (drawn : Uuid) (persist : Persist) (eventType : String) (payload : Json)
  | interrupted (drawn : Uuid) (persist : Persist) (eventType : String) (payload : Json)
  | restart (kept readable : Bool)

def issuedSequence (eventType : String) : Except HookError Json → Option Int
  | .ok prepared =>
      if isLifecycleEvent eventType then (prepared.get "lifecycleSequence").bind Json.asI64
      else none
  | .error _ => none

def Action.response (sidecar : Sidecar) : Action → Option (Except HookError Json)
  | .hookEvent drawn persist eventType payload => sidecar.running.map fun snapshot =>
      (prepareHookEvent drawn persist eventType payload ⟨snapshot, sidecar.file⟩).1
  | _ => none

def exec (generation : String) (sidecar : Sidecar) : Action → Sidecar
  | .hookEvent drawn persist eventType payload =>
      match sidecar.running with
      | some snapshot =>
          let prepared := prepareHookEvent drawn persist eventType payload ⟨snapshot, sidecar.file⟩
          { running := some prepared.2.snapshot
            file := prepared.2.file
            issued := sidecar.issued ++ (issuedSequence eventType prepared.1).toList }
      | none => sidecar
  | .interrupted drawn persist eventType payload =>
      match sidecar.running with
      | some snapshot =>
          let prepared := prepareHookEvent drawn persist eventType payload ⟨snapshot, sidecar.file⟩
          { sidecar with running := none, file := prepared.2.file }
      | none => sidecar
  | .restart kept readable =>
      let file := if kept then sidecar.file else ⟨sidecar.file.durable, sidecar.file.durable⟩
      { sidecar with running := some (loadHookState file.visible readable generation), file }

def initial (sidecar : Sidecar) : Prop :=
  sidecar.running = none ∧ sidecar.issued = []

/-- No hook event fails at the directory sync after the rename, and no restart fails to read the
file once a number was issued. -/
def Intact (sidecar : Sidecar) : Action → Prop
  | .hookEvent _ persist _ _ => persist ≠ .notSynced
  | .interrupted .. => True
  | .restart _ readable => readable = true ∨ sidecar.issued = []

instance (sidecar : Sidecar) : DecidablePred (Intact sidecar)
  | .hookEvent _ persist _ _ => inferInstanceAs (Decidable (persist ≠ .notSynced))
  | .interrupted .. => isTrue trivial
  | .restart _ readable => inferInstanceAs (Decidable (readable = true ∨ sidecar.issued = []))

def Action.closesForeign (snapshot : HookStateSnapshot) : Action → Prop
  | .hookEvent _ _ eventType payload | .interrupted _ _ eventType payload =>
      closesSession eventType = true ∧ hookSession payload ≠ snapshot.activeHookSession
  | .restart .. => False

/-- The active session is still recorded wherever a step wrote the state. -/
structure KeepsOwner (generation : String) (active : Option String) (before after : Sidecar) :
    Prop where
  running : ∀ snapshot ∈ after.running, snapshot.activeHookSession = active
  visible : after.file.visible = before.file.visible
    ∨ (loadHookState after.file.visible true generation).activeHookSession = active
  durable : after.file.durable = before.file.durable
    ∨ (loadHookState after.file.durable true generation).activeHookSession = active

/-- Numbers increase, a rejected event changes nothing, and the end of another session does not
clear the active one. -/
structure InSequence (generation : String) (condition : Sidecar → Action → Prop)
    (sidecar : Sidecar) : Prop where
  increasing : sidecar.issued.Pairwise (· < ·)
  rejected : ∀ action err, condition sidecar action →
    action.response sidecar = some (.error err) → exec generation sidecar action = sidecar
  ownerScoped : ∀ action, ∀ snapshot ∈ sidecar.running, condition sidecar action →
    action.closesForeign snapshot →
      KeepsOwner generation snapshot.activeHookSession sidecar (exec generation sidecar action)

/-- Every issued number is at most the one that is in memory and in the file. -/
structure Recorded (generation : String) (sidecar : Sidecar) : Prop where
  increasing : sidecar.issued.Pairwise (· < ·)
  running : ∀ snapshot ∈ sidecar.running, snapshot.Current generation
    ∧ ∀ n ∈ sidecar.issued, n ≤ snapshot.lastLifecycleSequence
  visible : ∀ n ∈ sidecar.issued,
    n ≤ (loadHookState sidecar.file.visible true generation).lastLifecycleSequence
  durable : ∀ n ∈ sidecar.issued,
    n ≤ (loadHookState sidecar.file.durable true generation).lastLifecycleSequence

section Steps

variable {generation : String} {sidecar : Sidecar} {snapshot : HookStateSnapshot}

theorem issuedSequence_of_advances {eventType : String} {payload prepared : Json}
    {next : HookStateSnapshot} (lifecycle : isLifecycleEvent eventType = true)
    (current : snapshot.Current generation)
    (advances : Advances snapshot eventType payload next prepared) :
    issuedSequence eventType (.ok prepared) = some (snapshot.lastLifecycleSequence + 1) := by
  have nonneg := current.nonneg
  rw [issuedSequence, if_pos lifecycle, advances.prepared_eq, Json.get_insert advances.object,
    if_pos rfl, Option.bind_some]
  exact HookStateSnapshot.asI64_number (by omega) advances.bounded

theorem recorded_hookEvent (recorded : Recorded generation sidecar) {drawn : Uuid}
    {persist : Persist} {eventType : String} {payload : Json} (synced : persist ≠ .notSynced) :
    Recorded generation (exec generation sidecar
      (.hookEvent drawn persist eventType payload)) := by
  rw [exec]
  split
  case h_2 => exact recorded
  case h_1 snapshot running =>
      obtain ⟨current, least⟩ := recorded.running snapshot running
      have outcome := outcome_prepareHookEvent drawn persist eventType payload
        ⟨snapshot, sidecar.file⟩
      revert outcome
      generalize prepareHookEvent drawn persist eventType payload ⟨snapshot, sidecar.file⟩ = prepared
      intro outcome
      cases outcome with
      | rejected err =>
          simpa [issuedSequence, ← running] using recorded
      | plain identity other =>
          simpa [issuedSequence, other, ← running] using recorded
      | renamed err identity advances unsynced => exact absurd unsynced synced
      | @numbered _ _ next identity lifecycle advances =>
          have later := advances.current current
          have last : next.lastLifecycleSequence = snapshot.lastLifecycleSequence + 1 := by
            rw [advances.next_eq]
          have most : ∀ n ∈ sidecar.issued ++ [snapshot.lastLifecycleSequence + 1],
              n ≤ next.lastLifecycleSequence := by
            intro n member
            rcases List.mem_append.1 member with old | new
            · have bound := least n old
              omega
            · rw [List.mem_singleton.1 new, last]
          have grown : (sidecar.issued
              ++ [snapshot.lastLifecycleSequence + 1]).Pairwise (· < ·) := by
            refine List.pairwise_append.2 ⟨recorded.increasing, List.pairwise_singleton _ _, ?_⟩
            intro n old m new
            have bound := least n old
            rw [List.mem_singleton.1 new]
            omega
          show Recorded generation ⟨_, _, _⟩
          rw [issuedSequence_of_advances lifecycle current advances]
          refine ⟨grown, ?_, ?_, ?_⟩
          · rintro _ ⟨⟩
            exact ⟨later, most⟩
          · rw [loadHookState_toJson later]
            exact most
          · rw [loadHookState_toJson later]
            exact most

theorem recorded_interrupted (recorded : Recorded generation sidecar) {drawn : Uuid}
    {persist : Persist} {eventType : String} {payload : Json} :
    Recorded generation (exec generation sidecar
      (.interrupted drawn persist eventType payload)) := by
  rw [exec]
  split
  case h_2 => exact recorded
  case h_1 snapshot running =>
      obtain ⟨current, least⟩ := recorded.running snapshot running
      have outcome := outcome_prepareHookEvent drawn persist eventType payload
        ⟨snapshot, sidecar.file⟩
      revert outcome
      generalize prepareHookEvent drawn persist eventType payload ⟨snapshot, sidecar.file⟩ = prepared
      intro outcome
      have further : ∀ {payload prepared next},
          Advances snapshot eventType payload next prepared → ∀ n ∈ sidecar.issued,
            n ≤ (loadHookState (.document next.toJson) true generation).lastLifecycleSequence := by
        intro _ _ next advances n member
        have bound := least n member
        rw [loadHookState_toJson (advances.current current), advances.next_eq]
        show n ≤ snapshot.lastLifecycleSequence + 1
        omega
      cases outcome with
      | rejected err => exact ⟨recorded.increasing, nofun, recorded.visible, recorded.durable⟩
      | plain identity other =>
          exact ⟨recorded.increasing, nofun, recorded.visible, recorded.durable⟩
      | renamed err identity advances unsynced =>
          exact ⟨recorded.increasing, nofun, further advances, recorded.durable⟩
      | numbered identity lifecycle advances =>
          exact ⟨recorded.increasing, nofun, further advances, further advances⟩

theorem recorded_restart (recorded : Recorded generation sidecar) {kept readable : Bool}
    (found : readable = true ∨ sidecar.issued = []) :
    Recorded generation (exec generation sidecar (.restart kept readable)) := by
  have read : ∀ file, (∀ n ∈ sidecar.issued,
        n ≤ (loadHookState file true generation).lastLifecycleSequence) →
      ∀ n ∈ sidecar.issued, n ≤ (loadHookState file readable generation).lastLifecycleSequence := by
    intro file bound n member
    rcases found with rfl | none
    · exact bound n member
    · rw [none] at member
      cases member
  cases kept with
  | true =>
      refine ⟨recorded.increasing, ?_, recorded.visible, recorded.durable⟩
      rintro _ ⟨⟩
      exact ⟨current_loadHookState _ _ _, read _ recorded.visible⟩
  | false =>
      refine ⟨recorded.increasing, ?_, recorded.durable, recorded.durable⟩
      rintro _ ⟨⟩
      exact ⟨current_loadHookState _ _ _, read _ recorded.durable⟩

theorem recorded_exec (recorded : Recorded generation sidecar) {action : Action}
    (intact : Intact sidecar action) : Recorded generation (exec generation sidecar action) := by
  cases action with
  | hookEvent drawn persist eventType payload => exact recorded_hookEvent recorded intact
  | interrupted drawn persist eventType payload => exact recorded_interrupted recorded
  | restart kept readable => exact recorded_restart recorded intact

theorem exec_of_rejected {action : Action} {err : HookError} (intact : Intact sidecar action)
    (rejected : action.response sidecar = some (.error err)) :
    exec generation sidecar action = sidecar := by
  cases action with
  | hookEvent drawn persist eventType payload =>
      obtain ⟨snapshot, running, failed⟩ := Option.map_eq_some_iff.1 rejected
      have outcome := outcome_prepareHookEvent drawn persist eventType payload
        ⟨snapshot, sidecar.file⟩
      rw [exec, running]
      dsimp only
      revert failed outcome
      generalize prepareHookEvent drawn persist eventType payload ⟨snapshot, sidecar.file⟩ = prepared
      intro failed outcome
      cases outcome with
      | rejected err => simp [issuedSequence, ← running]
      | plain identity other => cases failed
      | renamed err identity advances unsynced => exact absurd unsynced intact
      | numbered identity lifecycle advances => cases failed
  | interrupted drawn persist eventType payload => cases rejected
  | restart kept readable => cases rejected

theorem keepsOwner_exec (recorded : Recorded generation sidecar) {action : Action}
    (running : sidecar.running = some snapshot) (foreign : action.closesForeign snapshot) :
    KeepsOwner generation snapshot.activeHookSession sidecar (exec generation sidecar action) := by
  obtain ⟨current, -⟩ := recorded.running snapshot running
  have written : ∀ {drawn eventType payload identified prepared next},
      Advances snapshot eventType identified next prepared →
      ensureEventId drawn payload = .ok identified → closesSession eventType = true →
      hookSession payload ≠ snapshot.activeHookSession →
        (loadHookState (.document next.toJson) true generation).activeHookSession
          = snapshot.activeHookSession := by
    intro _ _ _ _ _ next advances identity closes foreign
    rw [loadHookState_toJson (advances.current current)]
    exact advances.keepsOwner identity closes foreign
  cases action with
  | hookEvent drawn persist eventType payload =>
      have outcome := outcome_prepareHookEvent drawn persist eventType payload
        ⟨snapshot, sidecar.file⟩
      rw [exec, running]
      dsimp only
      revert outcome
      generalize prepareHookEvent drawn persist eventType payload ⟨snapshot, sidecar.file⟩ = prepared
      intro outcome
      cases outcome with
      | rejected err => exact ⟨by rintro _ ⟨⟩; rfl, .inl rfl, .inl rfl⟩
      | plain identity other => exact ⟨by rintro _ ⟨⟩; rfl, .inl rfl, .inl rfl⟩
      | renamed err identity advances unsynced =>
          exact ⟨by rintro _ ⟨⟩; rfl, .inr (written advances identity foreign.1 foreign.2),
            .inl rfl⟩
      | numbered identity lifecycle advances =>
          have kept := written advances identity foreign.1 foreign.2
          refine ⟨?_, .inr kept, .inr kept⟩
          rintro _ ⟨⟩
          exact advances.keepsOwner identity foreign.1 foreign.2
  | interrupted drawn persist eventType payload =>
      have outcome := outcome_prepareHookEvent drawn persist eventType payload
        ⟨snapshot, sidecar.file⟩
      rw [exec, running]
      dsimp only
      revert outcome
      generalize prepareHookEvent drawn persist eventType payload ⟨snapshot, sidecar.file⟩ = prepared
      intro outcome
      cases outcome with
      | rejected err => exact ⟨nofun, .inl rfl, .inl rfl⟩
      | plain identity other => exact ⟨nofun, .inl rfl, .inl rfl⟩
      | renamed err identity advances unsynced =>
          exact ⟨nofun, .inr (written advances identity foreign.1 foreign.2), .inl rfl⟩
      | numbered identity lifecycle advances =>
          have kept := written advances identity foreign.1 foreign.2
          exact ⟨nofun, .inr kept, .inr kept⟩
  | restart kept readable => cases foreign

end Steps

section Runs

variable {generation : String} {sidecar : Sidecar}

theorem current_exec (current : ∀ snapshot ∈ sidecar.running, snapshot.Current generation)
    (action : Action) :
    ∀ snapshot ∈ (exec generation sidecar action).running, snapshot.Current generation := by
  cases action with
  | hookEvent drawn persist eventType payload =>
      rw [exec]
      split
      case h_2 => exact current
      case h_1 snapshot running =>
          have before := current snapshot running
          have outcome := outcome_prepareHookEvent drawn persist eventType payload
            ⟨snapshot, sidecar.file⟩
          revert outcome
          generalize
            prepareHookEvent drawn persist eventType payload ⟨snapshot, sidecar.file⟩ = prepared
          rintro outcome _ ⟨⟩
          cases outcome with
          | rejected err => exact before
          | plain identity other => exact before
          | renamed err identity advances unsynced => exact before
          | numbered identity lifecycle advances => exact advances.current before
  | interrupted drawn persist eventType payload =>
      rw [exec]
      split
      case h_2 => exact current
      case h_1 => nofun
  | restart kept readable =>
      rintro _ ⟨⟩
      exact current_loadHookState _ _ _

theorem current_of_reachable {condition : Sidecar → Action → Prop}
    (reachable : Reachable (exec generation) initial condition sidecar) :
    ∀ snapshot ∈ sidecar.running, snapshot.Current generation := by
  refine @Reachable.invariant _ _ _ _ _ (fun sidecar =>
    ∀ snapshot ∈ sidecar.running, snapshot.Current generation) ?_ ?_ _ reachable
  · rintro start ⟨stopped, -⟩ snapshot running
    rw [stopped] at running
    cases running
  · intro _ action current _
    exact current_exec current action

theorem recorded_initial (start : initial sidecar) : Recorded generation sidecar := by
  obtain ⟨stopped, none⟩ := start
  refine ⟨by simp [none], ?_, by simp [none], by simp [none]⟩
  rintro snapshot running
  rw [stopped] at running
  cases running

/-- In every run in which no directory sync fails after the rename and every file that records an
issued number can be read. -/
theorem lifecycle_sequencing (reachable : Reachable (exec generation) initial Intact sidecar) :
    InSequence generation Intact sidecar := by
  have recorded : Recorded generation sidecar :=
    reachable.invariant (fun _ start => recorded_initial start) fun _ _ before intact =>
      recorded_exec before intact
  constructor
  case increasing => exact recorded.increasing
  case rejected =>
      intro action err intact rejected
      exact exec_of_rejected intact rejected
  case ownerScoped =>
      intro action snapshot running _ foreign
      exact keepsOwner_exec recorded running foreign

end Runs

/-! A session that works, while the state file fails to sync or to be read. -/

namespace Sample

def working : Json := .object [("sessionId", .string "session-a")]

def begins : Sidecar := ⟨none, ⟨.missing, .missing⟩, []⟩

def prompt (persist : Persist) : Action :=
  .hookEvent default persist "user_prompt_submit" working

def started : List Action := [.restart true true, prompt .synced]

def restarted : List Action := [.restart true true, prompt .synced, .restart true false]

def sidecar (actions : List Action) : Sidecar :=
  run (exec "generation-a") begins actions

end Sample

theorem lifecycle_sequencing_started :
    (Sample.sidecar Sample.started).issued = [1]
      ∧ InSequence "generation-a" Intact (Sample.sidecar Sample.started) :=
  ⟨by decide +kernel, lifecycle_sequencing (reachable_run ⟨rfl, rfl⟩ (by decide +kernel))⟩

/-- An event whose directory sync fails is rejected but advances the file, and a restart that
cannot read the file issues the same number again. -/
theorem lost_sync_and_unreadable_file :
    (¬∀ sidecar, Reachable (exec "generation-a") initial (fun _ _ => True) sidecar →
      ∀ action err, action.response sidecar = some (.error err) →
        exec "generation-a" sidecar action = sidecar)
    ∧ ¬∀ sidecar, Reachable (exec "generation-a") initial (fun _ _ => True) sidecar →
      sidecar.issued.Pairwise (· < ·) := by
  constructor
  · intro unchanged
    have reachable : Reachable (exec "generation-a") initial (fun _ _ => True)
        (Sample.sidecar Sample.started) := reachable_run ⟨rfl, rfl⟩ (by decide +kernel)
    have same := unchanged _ reachable (Sample.prompt .notSynced) .os (by decide +kernel)
    exact absurd same (by decide +kernel)
  · intro increasing
    have reachable : Reachable (exec "generation-a") initial (fun _ _ => True)
        (Sample.sidecar (Sample.restarted ++ [Sample.prompt .synced])) :=
      reachable_run ⟨rfl, rfl⟩ (by decide +kernel)
    exact absurd (increasing _ reachable) (by decide +kernel)

end Forge.HookSequencing
