import Forge.CloneSweep
import Forge.Library.StateMachine

/-! Sweeps beside clones that are created, started, waited for and removed by this and by other
workers: which containers a sweep removes. -/

namespace Forge.SweepSafety

open Forge.CloneSweep
open Forge.Library.Interleaving
open Forge.Library.MachineInt
open Forge.Library.StateMachine

section Engine

/-- A container, and when it was really created. Of the history stands there which clone that is in
progress has created it, and whether a sweep has read it, while it ran, without a creation time. -/
structure Container where
  phase : Phase
  createdAt : Nat
  holder : Option Nat
  untimed : Bool
deriving DecidableEq

structure Daemon where
  clock : Nat
  containers : Id → Option Container
  next : Id

/-- What the engine tells beyond the phases: the containers that it lists, in their order, their
creation times, whether it tells their states, and what the other calls answer. -/
structure Told where
  shown : List Id
  times : Id → Option Int64
  stated : Bool
  text : Option (List Char)
  exitCode : Option Int64
  result : CloneResultFile

inductive Choice where
  | answers (told : Told)
  | fails (reached : Bool) (err : Failure)

abbrev Reply (operation : Op) : Type := Except Failure (Answer operation)

namespace Daemon

variable (build : Build) (daemon : Daemon)

def change (id : Id) (f : Container → Option Container) : Daemon :=
  { daemon with
    containers := Function.update daemon.containers id ((daemon.containers id).bind f) }

def start (id : Id) : Daemon :=
  daemon.change id fun container =>
    some (if container.phase = .created then { container with phase := .running } else container)

def release (id : Id) : Daemon :=
  daemon.change id fun container => some { container with holder := none }

def unknownTime (told : Told) : Bool :=
  (Inspected.createdEpochSecs build ⟨none, none, told.text⟩) = some 0

def serve (told : Told) : (operation : Op) → Daemon × Answer operation
  | .unixNow => (daemon, Int64.ofInt daemon.clock)
  | .ensureEgressNetwork | .writeSecretFile | .logsTail _ => (daemon, ())
  | .createContainer attempt =>
      ({ daemon with
          containers := Function.update daemon.containers daemon.next
            (some ⟨.created, daemon.clock, some attempt, false⟩)
          next := daemon.next + 1 }, daemon.next)
  | .startContainer id => (daemon.start id, ())
  | .waitExit _ => (daemon, told.exitCode)
  | .inspectContainer _ id =>
      (daemon, (daemon.containers id).map fun container =>
        ⟨if told.stated then some (container.phase = .running) else none, told.exitCode, told.text⟩)
  | .readResultFile => (daemon, told.result)
  | .forceRemove _ id => (daemon.change id fun _ => none, ())
  | .listCloneContainers =>
      (daemon, told.shown.filterMap fun id => (daemon.containers id).map fun container =>
        ⟨some id, if told.stated then some container.phase else none, told.times id⟩)

def note (told : Told) : Op → Daemon
  | .inspectContainer .sweep id =>
      daemon.change id fun container => some { container with
        untimed := container.untimed || container.phase = .running && unknownTime build told }
  | _ => daemon

def enter : Op → Daemon
  | .forceRemove .run id => daemon.release id
  | _ => daemon

def forget : Op → Daemon
  | .createContainer _ => daemon.release (daemon.next - 1)
  | _ => daemon

def perform (operation : Op) : Choice → Daemon × Reply operation
  | .answers told =>
      let (after, answer) := (daemon.enter operation).serve told operation
      (after.note build told operation, .ok answer)
  | .fails reached err =>
      let entered := daemon.enter operation
      (if reached then ((entered.serve ⟨[], fun _ => none, false, none, none, ⟨none, [], 0⟩⟩
        operation).1).forget operation else entered, .error err)

end Daemon

inductive Label where
  | sweeper (n : Nat)
  | cloner (attempt : Nat)
  | detached (n : Nat)
deriving DecidableEq

def machine (build : Build) : Machine Daemon Label Op Choice Reply where
  perform daemon operation choice _ := daemon.perform build operation choice
  starts _ := none

end Engine

section Rules

variable (build : Build) (maxAge : Nat)

def Old (clock : Nat) (container : Container) : Prop := container.createdAt + maxAge ≤ clock

/-- A sweep may remove the container: it has exited or is too old, no clone in progress is about to
start it, and no sweep has read it, while it ran, without a creation time. -/
structure Removable (clock : Nat) (container : Container) : Prop where
  ended : container.phase = .exited ∨ Old maxAge clock container
  started : container.phase = .created → container.holder = none
  timed : container.phase = .running → container.untimed = false

/-- What a sweep reads of a container that has not exited does not mislead it: the container is
not about to be started, or created and still young; if it runs, its creation time is told, and it
is read as running and young unless it is too old. -/
structure Readable (clock : Nat) (container : Container) (running : Bool) (created : Int64) :
    Prop where
  started : container.phase = .created → Old maxAge clock container ∧ container.holder = none
  timed : container.phase = .running → created ≠ 0
  young : container.phase = .running → ¬ Old maxAge clock container →
    running = true ∧ (clock : Int) - created.toInt < maxAge

/-- The condition on a call of a sweep: the containers on which it decides are readable. -/
def Clear (daemon : Daemon) : Op → Choice → Prop
  | .listCloneContainers, .answers told =>
      ∀ id ∈ told.shown, ∀ container, daemon.containers id = some container →
        (told.times id).getD 0 ≠ 0 →
          Readable maxAge daemon.clock container (told.stated && container.phase = .running)
            ((told.times id).getD 0)
  | .inspectContainer .sweep id, .answers told =>
      ∀ container, daemon.containers id = some container → ∀ created,
        Inspected.createdEpochSecs build ⟨none, none, told.text⟩ = some created →
          Readable maxAge daemon.clock container (told.stated && container.phase = .running) created
  | _, _ => True

structure Sound (daemon : Daemon) : Prop where
  clock : daemon.clock < 2 ^ 63
  known : ∀ id container, daemon.containers id = some container →
    id < daemon.next ∧ container.untimed = false

/-- What becomes of a container. -/
structure Ages (before after : Container) : Prop where
  createdAt : after.createdAt = before.createdAt
  exited : before.phase = .exited → after.phase = .exited
  created : after.phase = .created → before.phase = .created
  holder : before.holder = none → after.holder = none

structure Later (before after : Daemon) : Prop where
  clock : before.clock ≤ after.clock
  next : before.next ≤ after.next
  containers : ∀ id container, id < before.next → after.containers id = some container →
    ∃ old, before.containers id = some old ∧ Ages old container

def MayRemove (daemon : Daemon) : Op → Prop
  | .forceRemove .sweep id => ∀ container, daemon.containers id = some container →
      Removable maxAge daemon.clock container
  | _ => True

end Rules

section Aging

variable {build : Build} {maxAge : Nat} {before middle after daemon : Daemon}

theorem Ages.refl (container : Container) : Ages container container :=
  ⟨rfl, id, id, id⟩

theorem Ages.trans {first second third : Container} (left : Ages first second)
    (right : Ages second third) : Ages first third :=
  ⟨right.createdAt.trans left.createdAt, right.exited ∘ left.exited, left.created ∘ right.created,
    right.holder ∘ left.holder⟩

theorem Later.refl (daemon : Daemon) : Later daemon daemon :=
  ⟨Nat.le_refl _, Nat.le_refl _, fun _ container _ there => ⟨container, there, .refl _⟩⟩

theorem Later.trans (left : Later before middle) (right : Later middle after) :
    Later before after where
  clock := left.clock.trans right.clock
  next := left.next.trans right.next
  containers id container known there := by
    obtain ⟨young, found, aged⟩ := right.containers id container (known.trans_le left.next) there
    obtain ⟨old, first, older⟩ := left.containers id young known found
    exact ⟨old, first, older.trans aged⟩

theorem change_containers (id other : Id) (change : Container → Option Container) :
    (daemon.change id change).containers other =
      if other = id then (daemon.containers id).bind change else daemon.containers other :=
  Function.update_apply ..

theorem later_change {id : Id} {change : Container → Option Container}
    (ages : ∀ old container, change old = some container → Ages old container) :
    Later daemon (daemon.change id change) := by
  refine ⟨Nat.le_refl _, Nat.le_refl _, fun other container _ there => ?_⟩
  rw [change_containers] at there
  split at there
  case isTrue same =>
      obtain ⟨old, found, changed⟩ := Option.bind_eq_some_iff.1 there
      exact ⟨old, same ▸ found, ages old container changed⟩
  case isFalse => exact ⟨container, there, .refl _⟩

theorem sound_change (sound : Sound daemon) {id : Id} {change : Container → Option Container}
    (keeps : ∀ old container, daemon.containers id = some old → change old = some container →
      container.untimed = false) :
    Sound (daemon.change id change) := by
  refine ⟨sound.clock, fun other container there => ?_⟩
  rw [change_containers] at there
  split at there
  case isTrue same =>
      obtain ⟨old, found, changed⟩ := Option.bind_eq_some_iff.1 there
      exact ⟨same ▸ (sound.known id old found).1, keeps old container found changed⟩
  case isFalse => exact sound.known other container there

theorem later_start (id : Id) : Later daemon (daemon.start id) := by
  refine later_change fun old container changed => ?_
  obtain rfl := Option.some.inj changed
  split
  case isTrue new => exact ⟨rfl, fun same => (nomatch new.symm.trans same), nofun, fun none => none⟩
  case isFalse => exact .refl old

theorem later_release (id : Id) : Later daemon (daemon.release id) := by
  refine later_change fun old container changed => ?_
  obtain rfl := Option.some.inj changed
  exact ⟨rfl, fun exited => exited, fun created => created, fun _ => rfl⟩

theorem later_enter (operation : Op) : Later daemon (daemon.enter operation) := by
  unfold Daemon.enter
  split
  case h_1 => exact later_release _
  case h_2 => exact .refl daemon

theorem later_forget (operation : Op) : Later daemon (daemon.forget operation) := by
  unfold Daemon.forget
  split
  case h_1 => exact later_release _
  case h_2 => exact .refl daemon

theorem later_serve (told : Told) (operation : Op) :
    Later daemon (daemon.serve told operation).1 := by
  cases operation with
  | startContainer id => exact later_start id
  | forceRemove caller id => exact later_change fun _ _ gone => nomatch gone
  | createContainer attempt =>
      refine ⟨Nat.le_refl _, Nat.le_succ _, fun other container known there => ?_⟩
      have older : other ≠ daemon.next := Nat.ne_of_lt known
      have same : (daemon.serve told (.createContainer attempt)).1.containers other =
          daemon.containers other := Function.update_of_ne older ..
      exact ⟨container, same ▸ there, .refl _⟩
  | unixNow | ensureEgressNetwork | writeSecretFile | logsTail | waitExit | inspectContainer
  | readResultFile | listCloneContainers => exact .refl daemon

theorem later_note (told : Told) (operation : Op) :
    Later daemon (daemon.note build told operation) := by
  unfold Daemon.note
  split
  case h_1 =>
      refine later_change fun old container changed => ?_
      obtain rfl := Option.some.inj changed
      exact ⟨rfl, id, id, id⟩
  case h_2 => exact .refl daemon

theorem later_perform (operation : Op) (choice : Choice) :
    Later daemon (daemon.perform build operation choice).1 := by
  cases choice with
  | answers told =>
      exact (later_enter operation).trans ((later_serve told operation).trans
        (later_note told operation))
  | fails reached err =>
      cases reached with
      | true =>
          exact (later_enter operation).trans ((later_serve _ operation).trans
            (later_forget operation))
      | false => exact later_enter operation

theorem sound_release (sound : Sound daemon) (id : Id) : Sound (daemon.release id) := by
  refine sound_change sound fun old container found changed => ?_
  obtain rfl := Option.some.inj changed
  exact (sound.known id old found).2

theorem sound_enter (sound : Sound daemon) (operation : Op) : Sound (daemon.enter operation) := by
  unfold Daemon.enter
  split
  case h_1 => exact sound_release sound _
  case h_2 => exact sound

theorem sound_forget (sound : Sound daemon) (operation : Op) : Sound (daemon.forget operation) := by
  unfold Daemon.forget
  split
  case h_1 => exact sound_release sound _
  case h_2 => exact sound

theorem sound_serve (sound : Sound daemon) (told : Told) (operation : Op) :
    Sound (daemon.serve told operation).1 := by
  cases operation with
  | startContainer id =>
      refine sound_change sound fun old container found changed => ?_
      obtain rfl := Option.some.inj changed
      split
      · exact (sound.known _ old found).2
      · exact (sound.known _ old found).2
  | forceRemove caller id => exact sound_change sound fun _ _ _ gone => nomatch gone
  | createContainer attempt =>
      refine ⟨sound.clock, fun other container there => ?_⟩
      by_cases new : other = daemon.next
      · have made : (daemon.serve told (.createContainer attempt)).1.containers other =
            some ⟨.created, daemon.clock, some attempt, false⟩ := by
          subst new
          exact Function.update_self ..
        obtain rfl := Option.some.inj (made.symm.trans there)
        exact ⟨new ▸ Nat.lt_succ_self _, rfl⟩
      · have same : (daemon.serve told (.createContainer attempt)).1.containers other =
            daemon.containers other := Function.update_of_ne new ..
        obtain ⟨known, timed⟩ := sound.known other container (same ▸ there)
        exact ⟨Nat.lt_succ_of_lt known, timed⟩
  | unixNow | ensureEgressNetwork | writeSecretFile | logsTail | waitExit | inspectContainer
  | readResultFile | listCloneContainers => exact sound

theorem sound_perform (sound : Sound daemon) {operation : Op} {choice : Choice}
    (clear : Clear build maxAge daemon operation choice) :
    Sound (daemon.perform build operation choice).1 := by
  have entered := sound_enter sound operation
  cases choice with
  | fails reached err =>
      cases reached with
      | true => exact sound_forget (sound_serve entered _ operation) operation
      | false => exact entered
  | answers told =>
      have served := sound_serve entered told operation
      cases operation with
      | inspectContainer caller id =>
          cases caller with
          | run => exact served
          | sweep =>
              refine sound_change served fun old container found changed => ?_
              obtain rfl := Option.some.inj changed
              have readable := clear old found
              rw [Bool.or_eq_false_iff, Bool.and_eq_false_imp, decide_eq_true_iff]
              refine ⟨(served.known id old found).2, fun running => decide_eq_false fun zero => ?_⟩
              exact (readable 0 zero).timed running rfl
      | unixNow | ensureEgressNetwork | writeSecretFile | logsTail | waitExit | createContainer
      | startContainer | forceRemove | readResultFile | listCloneContainers => exact served

theorem Removable.later {old container : Container}
    (removable : Removable maxAge before.clock old) (aged : Ages old container)
    (clock : before.clock ≤ after.clock) (timed : container.untimed = false) :
    Removable maxAge after.clock container where
  ended := removable.ended.imp aged.exited fun old => by
    rw [Old, aged.createdAt]
    exact old.trans clock
  started new := aged.holder (removable.started (aged.created new))
  timed _ := timed

end Aging

section Reading

variable {build : Build} {maxAge : Nat} {daemon : Daemon} {container : Container}

theorem saturatingSub_toInt (a b : Int64) : (saturatingSub a b).toInt =
    max (-2 ^ 63) (min (2 ^ 63 - 1) (a.toInt - b.toInt)) := by
  refine toInt_ofInt ⟨?_, ?_⟩
  · exact Int.le_max_left ..
  · exact Int.max_lt.2 ⟨by decide, (Int.min_le_left ..).trans_lt (by decide)⟩

theorem old_of_shouldReap {now created : Int64} (small : maxAge < 2 ^ 63) (known : created ≠ 0)
    (reap : shouldReap (Int64.ofNat maxAge) now true created = true) :
    (maxAge : Int) ≤ now.toInt - created.toInt := by
  have ceiling : (Int64.ofNat maxAge).toInt = maxAge := Int64.toInt_ofNat_of_lt small
  rw [shouldReap, Bool.not_true, Bool.false_or, decide_eq_false known, Bool.false_or,
    decide_eq_true_iff, Int64.le_iff_toInt_le, ceiling, saturatingSub_toInt] at reap
  omega

theorem removable_of_readable {now created : Int64} {running : Bool} (small : maxAge < 2 ^ 63)
    (past : now.toInt ≤ daemon.clock) (timed : container.untimed = false)
    (readable : Readable maxAge daemon.clock container running created)
    (reap : shouldReap (Int64.ofNat maxAge) now running created) :
    Removable maxAge daemon.clock container := by
  refine ⟨?_, fun phase => (readable.started phase).2, fun _ => timed⟩
  cases phase : container.phase with
  | exited => exact .inl rfl
  | created => exact .inr (readable.started phase).1
  | running =>
      refine .inr (by_contra fun young => ?_)
      obtain ⟨read, less⟩ := readable.young phase young
      rw [read] at reap
      have age := old_of_shouldReap small (readable.timed phase) reap
      omega

end Reading

section Programs

variable {build : Build} {maxAge : Nat}

def rules (build : Build) (maxAge : Nat) : Discipline (machine build) where
  Inv := Sound
  allowed _ daemon operation choice _ := Clear build maxAge daemon operation choice
  may _ := MayRemove maxAge
  rely _ := Later
  refl _ := .refl
  trans := .trans
  keeps sound _ clear := sound_perform sound clear
  spares _ _ _ _ := later_perform _ _

variable {label : Label} {state : Daemon} {α : Type}

theorem safe_later {program : Docker α} {post : Except Failure α → Daemon → Prop}
    (safe : Safe (rules build maxAge) label program post state) :
    Safe (rules build maxAge) label program (fun value later => post value later ∧ Later state later)
      state := by
  have only : ∀ program : Prog Op Reply (Except Failure α), program.Only fun _ => True := by
    intro program
    induction program with
    | done value => trivial
    | op operation next ih => exact ⟨trivial, ih⟩
  exact Safe.frame safe (only program)
    (fun later operation choice _ _ _ _ _ aged => aged.trans (later_perform operation choice))
    (fun _ _ step aged => aged.trans step) (.refl state)

theorem safe_harmless {program : Docker α}
    (only : program.Only fun operation => ∀ id, operation ≠ .forceRemove .sweep id) :
    Safe (rules build maxAge) label program (fun _ _ => True) state := by
  refine Safe.of_only only (fun later operation _ harmless _ => ⟨?_, fun _ _ => trivial⟩)
    (fun _ _ _ _ => trivial) trivial
  show MayRemove maxAge later operation
  unfold MayRemove
  split
  case h_1 id => exact absurd rfl (harmless id)
  case h_2 => trivial

def Judged (maxAge : Nat) (now : Int64) (id : Id) (running : Bool) (created : Int64)
    (daemon : Daemon) : Prop :=
  id < daemon.next ∧ (shouldReap (Int64.ofNat maxAge) now running created →
    ∀ container, daemon.containers id = some container → Removable maxAge daemon.clock container)

theorem Judged.later {now created : Int64} {id : Id} {running : Bool} {before after : Daemon}
    (judged : Judged maxAge now id running created before) (aged : Later before after)
    (sound : Sound after) : Judged maxAge now id running created after := by
  refine ⟨judged.1.trans_le aged.next, fun reap container there => ?_⟩
  obtain ⟨old, found, ages⟩ := aged.containers id container judged.1 there
  exact (judged.2 reap old found).later ages aged.clock (sound.known id container there).2

section Sweep

variable {now : Int64}

def Known (maxAge : Nat) (now : Int64) (summary : CloneContainerSummary) (daemon : Daemon) : Prop :=
  summary.id < daemon.next ∧ (summary.createdEpochSecs ≠ 0 →
    Judged maxAge now summary.id summary.running summary.createdEpochSecs daemon)

theorem Known.later {summary : CloneContainerSummary} {before after : Daemon}
    (known : Known maxAge now summary before) (aged : Later before after) (sound : Sound after) :
    Known maxAge now summary after :=
  ⟨known.1.trans_le aged.next, fun told => (known.2 told).later aged sound⟩

theorem safe_inspect {id : Id} (small : maxAge < 2 ^ 63) (past : now.toInt ≤ state.clock)
    (made : id < state.next) :
    Safe (rules build maxAge) label (inspectContainer build .sweep id) (fun outcome later =>
      ∀ found, outcome = .ok (some found) →
        Judged maxAge now id found.running found.createdEpochSecs later) state := by
  unfold inspectContainer
  refine Attempt.safe_bind (Attempt.safe_call fun _ _ _ => trivial) (fun reply later _ asked => ?_)
    (by rintro err before later step inv failed found ⟨⟩)
  obtain ⟨before, choice, _, earlier, inv, -, clear, same, after⟩ := asked
  cases reply with
  | none => rintro _ _ _ _ ⟨⟩
  | some info =>
      dsimp only
      cases read : info.createdEpochSecs build with
      | none => rintro _ _ _ _ ⟨⟩
      | some created =>
          rintro latest step sound _ ⟨⟩
          cases choice with
          | fails reached err => exact nomatch same
          | answers told =>
              have answered : (before.containers id).map (fun container => (⟨if told.stated then
                  some (container.phase = .running) else none, told.exitCode, told.text⟩ :
                    Inspected)) = some info := Except.ok.inj same
              obtain ⟨container, there, rfl⟩ := Option.map_eq_some_iff.1 answered
              have readable := clear container there created read
              have judged : Judged maxAge now id (told.stated && container.phase = .running)
                  created before := by
                refine ⟨made.trans_le earlier.next, fun reap other same => ?_⟩
                obtain rfl := Option.some.inj (there.symm.trans same)
                refine removable_of_readable small ?_ (inv.known id _ there).2 readable reap
                exact past.trans (Int.ofNat_le.2 earlier.clock)
              have running : (told.stated && container.phase = .running) =
                  (if told.stated then some (decide (container.phase = .running)) else none).getD
                    false := by
                cases told.stated <;> rfl
              rw [← running]
              exact judged.later (((later_perform _ _).trans after).trans step) sound

theorem safe_resolve {summary : CloneContainerSummary} (small : maxAge < 2 ^ 63)
    (past : now.toInt ≤ state.clock) (known : Known maxAge now summary state) :
    Safe (rules build maxAge) label (resolve build summary) (fun outcome later =>
      ∀ running created, outcome = .ok (some (running, created)) →
        Judged maxAge now summary.id running created later) state := by
  unfold resolve
  split
  case isTrue =>
      refine Attempt.safe_observe (safe_inspect small past known.1) fun outcome later _ told => ?_
      split
      case h_1 found =>
          rintro latest step sound _ _ ⟨⟩
          exact (told found rfl).later step sound
      all_goals rintro _ _ _ _ _ ⟨⟩
  case isFalse listed =>
      rintro later step sound _ _ ⟨⟩
      exact (known.2 listed).later step sound

theorem safe_sweepOne {summary : CloneContainerSummary} (small : maxAge < 2 ^ 63)
    (past : now.toInt ≤ state.clock) (known : Known maxAge now summary state) (reaped : Nat) :
    Safe (rules build maxAge) label (sweepOne build (Int64.ofNat maxAge) now reaped summary)
      (fun _ _ => True) state := by
  unfold sweepOne
  refine Attempt.safe_bind (safe_resolve small past known) (fun found later sound judged => ?_)
    fun _ _ _ _ _ _ => trivial
  split
  case h_1 => exact fun _ _ _ => trivial
  case h_2 running created =>
      split
      case isFalse => exact fun _ _ _ => trivial
      case isTrue reap =>
          have removed : Safe (rules build maxAge) label (call (.forceRemove .sweep summary.id))
              (fun _ _ => True) later := by
            intro latest step sound
            have here := (judged running created rfl).later step sound
            exact ⟨here.2 reap, fun _ _ _ _ _ _ => trivial⟩
          refine Attempt.safe_observe removed fun outcome _ _ _ => ?_
          split <;> exact fun _ _ _ => trivial

theorem safe_sweepEach (small : maxAge < 2 ^ 63) {summaries : List CloneContainerSummary}
    (past : now.toInt ≤ state.clock) (known : ∀ summary ∈ summaries, Known maxAge now summary state)
    (reaped : Nat) :
    Safe (rules build maxAge) label (sweepEach build (Int64.ofNat maxAge) now reaped summaries)
      (fun _ _ => True) state := by
  induction summaries generalizing state reaped with
  | nil => exact fun _ _ _ => trivial
  | cons summary rest ih =>
      refine Attempt.safe_bind (safe_later (safe_sweepOne small past (known _ (.head _)) reaped))
        (fun reaped later sound aged => ?_) fun _ _ _ _ _ _ => trivial
      refine ih (past.trans (Int.ofNat_le.2 aged.2.clock)) (fun other member => ?_) reaped
      exact (known other (.tail _ member)).later aged.2 sound

theorem safe_list (small : maxAge < 2 ^ 63) (past : now.toInt ≤ state.clock) :
    Safe (rules build maxAge) label listCloneContainers (fun outcome later =>
      ∀ summaries, outcome = .ok summaries →
        ∀ summary ∈ summaries, Known maxAge now summary later) state := by
  unfold listCloneContainers
  refine Attempt.safe_bind (Attempt.safe_call fun _ _ _ => trivial) (fun listed later _ asked => ?_)
    (by rintro err before later step inv failed found ⟨⟩)
  obtain ⟨before, choice, _, earlier, inv, -, clear, same, after⟩ := asked
  rintro latest step sound _ ⟨⟩ summary member
  cases choice with
  | fails reached err => exact nomatch same
  | answers told =>
      have answered : (told.shown.filterMap fun id => (before.containers id).map fun container =>
          (⟨some id, if told.stated then some container.phase else none, told.times id⟩ : Listed)) =
            listed := Except.ok.inj same
      obtain ⟨one, inside, read⟩ := List.mem_filterMap.1 member
      rw [← answered] at inside
      obtain ⟨id, shown, found⟩ := List.mem_filterMap.1 inside
      obtain ⟨container, there, rfl⟩ := Option.map_eq_some_iff.1 found
      obtain rfl := Option.some.inj read
      have made := (inv.known id container there).1
      have known : Known maxAge now ⟨id, (told.times id).getD 0,
          (if told.stated then some container.phase else none) = some .running⟩ before := by
        refine ⟨made, fun timed => ⟨made, fun reap other same => ?_⟩⟩
        obtain rfl := Option.some.inj (there.symm.trans same)
        have readable := clear id shown container there timed
        have running : decide ((if told.stated then some container.phase else none) =
            some .running) = (told.stated && container.phase = .running) := by
          cases told.stated <;> simp
        dsimp only at reap
        rw [running] at reap
        exact removable_of_readable small (past.trans (Int.ofNat_le.2 earlier.clock))
          (inv.known id _ there).2 readable reap
      exact known.later (((later_perform _ _).trans after).trans step) sound

theorem safe_sweepOrphans (small : maxAge < 2 ^ 63) :
    Safe (rules build maxAge) label (sweepOrphans build (Int64.ofNat maxAge)) (fun _ _ => True)
      state := by
  unfold sweepOrphans
  refine Attempt.safe_bind (Attempt.safe_call fun _ _ _ => trivial) (fun now later _ asked => ?_)
    fun _ _ _ _ _ _ => trivial
  obtain ⟨before, choice, _, -, inv, -, -, same, after⟩ := asked
  have past : now.toInt ≤ later.clock := by
    cases choice with
    | fails reached err => exact nomatch same
    | answers told =>
        have read : Int64.ofInt before.clock = now := Except.ok.inj same
        have clock := inv.clock
        rw [← read, toInt_ofInt ⟨by omega, by omega⟩]
        exact Int.ofNat_le.2 ((later_perform _ _).trans after).clock
  refine Attempt.safe_bind (safe_later (safe_list small past))
    (fun summaries latest _ facts => ?_) fun _ _ _ _ _ _ => trivial
  exact safe_sweepEach small (past.trans (Int.ofNat_le.2 facts.2.clock)) (facts.1 summaries rfl) 0

end Sweep

section Clones

variable {id : Id}

theorem only_call {operation : Op} (harmless : ∀ id, operation ≠ .forceRemove .sweep id) :
    (call operation).Only fun operation => ∀ id, operation ≠ .forceRemove .sweep id :=
  Attempt.Only.call harmless

theorem only_guardRun (id : Id) :
    (guardRun id).Only fun operation => ∀ id, operation ≠ .forceRemove .sweep id :=
  .bind (.observe (only_call fun _ => nofun)) fun _ => .pure ()

theorem only_captureLogTail (id : Id) :
    (captureLogTail id).Only fun operation => ∀ id, operation ≠ .forceRemove .sweep id :=
  .bind (.observe (only_call fun _ => nofun)) fun _ => .pure ()

theorem only_inspectContainer (id : Id) :
    (inspectContainer build .run id).Only fun operation =>
      ∀ id, operation ≠ .forceRemove .sweep id := by
  refine .bind (only_call fun _ => nofun) fun reply => ?_
  split
  · exact .pure none
  · split
    · exact .fail _
    · exact .pure _

theorem only_classifyExit (id : Id) (exitCode : Int64) :
    (classifyExit id exitCode).Only fun operation => ∀ id, operation ≠ .forceRemove .sweep id := by
  unfold classifyExit
  split
  · exact .bind (only_captureLogTail id) fun _ => .pure _
  · split
    · exact .bind (only_captureLogTail id) fun _ => .pure _
    · refine .bind (.observe (only_call fun _ => nofun)) fun outcome => ?_
      split
      · split
        · exact .pure _
        · exact .bind (only_captureLogTail id) fun _ => .pure _
      · exact .bind (only_captureLogTail id) fun _ => .pure _

theorem only_awaitClone (id : Id) :
    (awaitClone build id).Only fun operation => ∀ id, operation ≠ .forceRemove .sweep id := by
  have classified : ∀ code, (do
      let outcome ← classifyExit id code
      guardRun id
      return outcome : Docker CloneRunOutcome).Only fun operation =>
        ∀ id, operation ≠ .forceRemove .sweep id :=
    fun code => .bind (only_classifyExit id code) fun _ => .bind (only_guardRun id) fun _ => .pure _
  have recovered : (recoverExitCode build id).Only fun operation =>
      ∀ id, operation ≠ .forceRemove .sweep id := by
    refine .bind (.observe (only_inspectContainer id)) fun outcome => ?_
    split
    · exact .pure _
    · exact .fail _
    · exact .pure _
  have finished : (recoverFinishedAtTimeout build id).Only fun operation =>
      ∀ id, operation ≠ .forceRemove .sweep id := by
    refine .bind (.observe (only_inspectContainer id)) fun outcome => ?_
    split
    · split
      · exact .pure _
      · refine .bind (.observe (only_call fun _ => nofun)) fun result => ?_
        split
        · exact .pure _
        · exact .pure _
    · exact .fail _
    · exact .pure _
  refine .bind (.observe (only_call fun _ => nofun)) fun outcome => ?_
  split
  · exact classified _
  · refine .bind recovered fun code => ?_
    split
    · exact classified _
    · exact .bind (only_guardRun id) fun _ => .fail _
  · exact .bind finished fun _ => .bind (only_guardRun id) fun _ => .pure _

theorem only_runClone (spec : CloneRunSpec) :
    (runClone build spec).Only fun operation => ∀ id, operation ≠ .forceRemove .sweep id := by
  have rest : (runContainer build spec).Only fun operation =>
      ∀ id, operation ≠ .forceRemove .sweep id := by
    unfold runContainer
    split
    · refine .bind (only_call fun _ => nofun) fun id => ?_
      refine .bind (.observe (only_call fun _ => nofun)) fun started => ?_
      split
      · exact only_awaitClone id
      · exact .bind (only_guardRun id) fun _ => .fail _
    · exact .fail _
  refine .bind (only_call fun _ => nofun) fun _ => ?_
  split
  · exact .bind (only_call fun _ => nofun) fun _ => rest
  · exact rest

end Clones

end Programs

section Worlds

variable (build : Build) (maxAge : Nat)

abbrev World := Pool Daemon Label Op Reply

/-- What happens next: a worker starts to sweep or to clone, or takes its next turn; the task of a
clone is dropped, and its guard may leave the removal of the container to another; a sweep is
dropped; time goes on, or the process of a container ends. -/
inductive Action where
  | sweep (n : Nat)
  | clone (spec : CloneRunSpec)
  | turn (label : Label) (choice : Choice)
  | dropClone (attempt : Nat) (removal : Option (Nat × Id))
  | dropSweep (n : Nat)
  | tick
  | exit (id : Id)

def background {α : Type} (program : Docker α) : Prog Op Reply Unit :=
  Prog.bind program fun _ => .done ()

def Daemon.abandon (daemon : Daemon) (attempt : Nat) : Daemon :=
  { daemon with
    containers := fun id => (daemon.containers id).map fun container =>
      if container.holder = some attempt then { container with holder := none } else container }

def Daemon.exit (daemon : Daemon) (id : Id) : Daemon :=
  daemon.change id fun container =>
    some (if container.phase = .running then { container with phase := .exited } else container)

def exec (world : World) : Action → World
  | .sweep n => world.begin (.sweeper n) (background (sweepOrphans build (Int64.ofNat maxAge)))
  | .clone spec => world.begin (.cloner spec.attempt) (background (runClone build spec))
  | .turn label choice => world.step (machine build) label choice
  | .dropClone attempt removal =>
      let dropped : World :=
        Pool.put ⟨world.state.abandon attempt, world.threads⟩ (.cloner attempt) (.done ())
      match removal with
      | none => dropped
      | some (n, id) => dropped.begin (.detached n) (background (call (.forceRemove .run id)))
  | .dropSweep n => world.put (.sweeper n) (.done ())
  | .tick => ⟨{ world.state with clock := world.state.clock + 1 }, world.threads⟩
  | .exit id => ⟨world.state.exit id, world.threads⟩

/-- The clock of a host does not leave its numbers, and a guard removes its own container. -/
def Physical (world : World) : Action → Prop
  | .tick => world.state.clock + 1 < 2 ^ 63
  | .dropClone attempt (some (_, id)) => ∀ container, world.state.containers id = some container →
      container.holder = some attempt
  | _ => True

/-- What a sweep reads at its turn does not mislead it. -/
def Reads (world : World) : Action → Prop
  | .turn label choice =>
      match world.threads label with
      | .op operation _ => Clear build maxAge world.state operation choice
      | .done _ => True
  | _ => True

def initial (world : World) : Prop :=
  Sound world.state ∧ ∀ label, world.threads label = .done ()

end Worlds

section Runs

variable {build : Build} {maxAge : Nat} {world : World}

theorem safe_background {α : Type} {label : Label} {state : Daemon} {program : Docker α}
    (safe : Safe (rules build maxAge) label program (fun _ _ => True) state) :
    Safe (rules build maxAge) label (background program) (fun _ _ => True) state :=
  safe.bind fun _ _ _ _ _ _ _ => trivial

theorem sound_exit {daemon : Daemon} (sound : Sound daemon) (id : Id) : Sound (daemon.exit id) := by
  refine sound_change sound fun old container found changed => ?_
  obtain rfl := Option.some.inj changed
  split
  · exact (sound.known id old found).2
  · exact (sound.known id old found).2

theorem later_exit {daemon : Daemon} (id : Id) : Later daemon (daemon.exit id) := by
  refine later_change fun old container changed => ?_
  obtain rfl := Option.some.inj changed
  split
  case isTrue running => exact ⟨rfl, fun _ => rfl, nofun, fun none => none⟩
  case isFalse => exact .refl old

theorem abandon_containers {daemon : Daemon} {attempt : Nat} {id : Id} {container : Container}
    (there : (daemon.abandon attempt).containers id = some container) :
    ∃ old, daemon.containers id = some old ∧ Ages old container
      ∧ container.untimed = old.untimed := by
  obtain ⟨old, found, rfl⟩ := Option.map_eq_some_iff.1 there
  refine ⟨old, found, ?_⟩
  split
  · exact ⟨⟨rfl, fun exited => exited, fun created => created, fun _ => rfl⟩, rfl⟩
  · exact ⟨.refl old, rfl⟩

theorem sound_abandon {daemon : Daemon} (sound : Sound daemon) (attempt : Nat) :
    Sound (daemon.abandon attempt) := by
  refine ⟨sound.clock, fun id container there => ?_⟩
  obtain ⟨old, found, -, same⟩ := abandon_containers there
  exact ⟨(sound.known id old found).1, same.trans (sound.known id old found).2⟩

theorem later_abandon {daemon : Daemon} (attempt : Nat) : Later daemon (daemon.abandon attempt) := by
  refine ⟨Nat.le_refl _, Nat.le_refl _, fun id container _ there => ?_⟩
  obtain ⟨old, found, aged, -⟩ := abandon_containers there
  exact ⟨old, found, aged⟩

theorem good_exec (small : maxAge < 2 ^ 63) (good : Good (rules build maxAge) world) {action : Action}
    (physical : Physical world action) (reads : Reads build maxAge world action) :
    Good (rules build maxAge) (exec build maxAge world action) := by
  have idle : ∀ {label : Label} {state : Daemon},
      Safe (rules build maxAge) label (.done ()) (fun _ _ => True) state := fun _ _ _ => trivial
  cases action with
  | sweep n => exact good.begin (safe_background (safe_sweepOrphans small))
  | clone spec => exact good.begin (safe_background (safe_harmless (only_runClone spec)))
  | turn label choice =>
      refine good.step (fun _ _ _ _ _ _ _ _ _ starts => nomatch starts) fun operation next due => ?_
      rw [Reads, due] at reads
      exact reads
  | dropClone attempt removal =>
      have outside : Good (rules build maxAge) ⟨world.state.abandon attempt, world.threads⟩ :=
        good.outside (sound_abandon good.inv attempt) fun _ => .inr (later_abandon attempt)
      have ended : Safe (rules build maxAge) (.cloner attempt) (.done ()) (fun _ _ => True)
          (world.state.abandon attempt) := idle
      have dropped := outside.put ended
      cases removal with
      | none => exact dropped
      | some removal => exact dropped.begin (safe_background (safe_harmless (only_call fun _ => nofun)))
  | dropSweep n => exact good.put idle
  | tick =>
      refine good.outside ⟨physical, good.inv.known⟩ fun _ => .inr ⟨Nat.le_succ _, Nat.le_refl _, ?_⟩
      exact fun _ container _ there => ⟨container, there, .refl _⟩
  | exit id => exact good.outside (sound_exit good.inv id) fun _ => .inr (later_exit id)

theorem sweep_removes_removable (small : maxAge < 2 ^ 63)
    (reached : Reachable (exec build maxAge) initial
      (fun world action => Physical world action ∧ Reads build maxAge world action) world)
    {label : Label} {id : Id} {next : Reply (.forceRemove .sweep id) → Prog Op Reply Unit}
    (due : world.threads label = .op (.forceRemove .sweep id) next) {container : Container}
    (there : world.state.containers id = some container) :
    Removable maxAge world.state.clock container := by
  have good : Good (rules build maxAge) world := by
    apply reached.invariant
    · rintro start ⟨sound, idle⟩
      refine ⟨sound, fun label => ?_⟩
      rw [idle label]
      exact fun _ _ _ => trivial
    · exact fun _ _ good allowed => good_exec small good allowed.1 allowed.2
  exact good.may due container there

def fresh : World :=
  ⟨⟨1000000, fun _ => none, 0⟩, fun _ => .done ()⟩

theorem initial_fresh : initial fresh :=
  ⟨⟨by decide, fun _ _ there => nomatch there⟩, fun _ => rfl⟩

def telling (time : Option Int64) : Choice :=
  .answers ⟨[0], fun _ => time, true, none, some 0, ⟨none, [], 0⟩⟩

def cloning : List Action :=
  [.clone ⟨7, false, true⟩, .turn (.cloner 7) (telling none), .turn (.cloner 7) (telling none),
    .turn (.cloner 7) (telling none)]

def exited : List Action :=
  cloning ++ [.exit 0, .sweep 0, .turn (.sweeper 0) (telling none),
    .turn (.sweeper 0) (telling (some 1000000))]

def untold : List Action :=
  cloning ++ [.sweep 0, .turn (.sweeper 0) (telling none), .turn (.sweeper 0) (telling none),
    .turn (.sweeper 0) (telling none)]

def removes (world : World) (label : Label) : Option Id :=
  match world.threads label with
  | .op (.forceRemove .sweep id) _ => some id
  | _ => none

theorem due_of_removes {world : World} {label : Label} {id : Id}
    (removing : removes world label = some id) :
    ∃ next, world.threads label = .op (.forceRemove .sweep id) next := by
  unfold removes at removing
  split at removing
  case h_1 due =>
      obtain rfl := Option.some.inj removing
      exact ⟨_, due⟩
  case h_2 => exact nomatch removing

theorem exited_removable :
    Removable 3600 1000000 ⟨.exited, 1000000, some 7, false⟩ := by
  have reached : Reachable (exec .checked 3600) initial
      (fun world action => Physical world action ∧ Reads .checked 3600 world action)
      (run (exec .checked 3600) fresh exited) := by
    refine ⟨fresh, initial_fresh, reaches_run ?_⟩
    refine ⟨⟨trivial, trivial⟩, ⟨trivial, trivial⟩, ⟨trivial, trivial⟩, ⟨trivial, trivial⟩,
      ⟨trivial, trivial⟩, ⟨trivial, trivial⟩, ⟨trivial, trivial⟩, ⟨trivial, ?_⟩, trivial⟩
    rintro id member container there -
    obtain rfl := List.mem_singleton.1 member
    have gone : container.phase = .exited := by
      obtain rfl := Option.some.inj there
      rfl
    exact ⟨fun same => (nomatch gone.symm.trans same), fun same => (nomatch gone.symm.trans same),
      fun same => (nomatch gone.symm.trans same)⟩
  obtain ⟨next, due⟩ := due_of_removes
    (show removes (run (exec .checked 3600) fresh exited) (.sweeper 0) = some 0 by decide)
  exact sweep_removes_removable (by decide) reached due rfl

theorem untold_removed :
    ¬ ∀ build maxAge world, maxAge < 2 ^ 63 →
      Reachable (exec build maxAge) initial Physical world →
      ∀ label id next, world.threads label = .op (.forceRemove .sweep id) next →
        ∀ container, world.state.containers id = some container →
          Removable maxAge world.state.clock container := by
  intro safe
  have reached : Reachable (exec .checked 3600) initial Physical
      (run (exec .checked 3600) fresh untold) := by
    refine ⟨fresh, initial_fresh, reaches_run ?_⟩
    exact ⟨trivial, trivial, trivial, trivial, trivial, trivial, trivial, trivial, trivial⟩
  obtain ⟨next, due⟩ := due_of_removes
    (show removes (run (exec .checked 3600) fresh untold) (.sweeper 0) = some 0 by decide)
  have removable := safe _ _ _ (by decide) reached _ _ next due ⟨.running, 1000000, some 7, true⟩ rfl
  exact nomatch removable.timed rfl

end Runs

end Forge.SweepSafety
