import Forge.Library.StateMachine
import Forge.PromptStreams

/-! One stream in flight for an agent, its cancel handle, and what may end either. -/

namespace Forge.PromptExclusivity

open Forge.Library.Identifier
open Forge.Library.StateMachine
open Forge.PromptStreams

def InFlight (world : World) (agentId : Uuid) (i : Nat) : Prop :=
  ∃ generator, world.prompts[i]? = some ⟨agentId, .running .waiting generator⟩

/-- A stream is dropped only while the map holds no handle of another stream of its agent. -/
def Guarded (world : World) : Action → Prop
  | .drop i =>
      ∀ prompt ∈ world.prompts[i]?, prompt.stage.isRunning = true →
        ∀ j ∈ world.inflight prompt.agentId, j = i
  | _ => True

structure Starts (world : World) : Prop where
  prompts : world.prompts = []
  inflight : ∀ agentId, world.inflight agentId = none

/-- An agent has one stream in flight at most, the one whose handle the map holds; every other
stream that is not dropped, and every one that saw itself cancelled, got the signal of an
interrupt. -/
structure Exclusive (world : World) : Prop where
  single : ∀ agentId i j, InFlight world agentId i → InFlight world agentId j → i = j
  handle : ∀ agentId i, world.inflight agentId = some i ↔ InFlight world agentId i
  signalled : ∀ (i : Nat) agentId receiver generator,
    world.prompts[i]? = some ⟨agentId, .running receiver generator⟩ →
      (¬InFlight world agentId i ∨ generator.cancelled = true) → receiver = .signalled

/-- What an action does to a stream in flight: the drop of the stream and an interrupt end its
registration, an interrupt with the signal, and nothing else does. -/
def Orderly (world : World) (action : Action) : Prop :=
  ∀ agentId i, InFlight world agentId i →
    (InFlight (world.exec action) agentId i ∧ (world.exec action).inflight agentId = some i) ∨
      (action = .interrupt agentId ∧
        ∃ generator, (world.exec action).prompts[i]? =
          some ⟨agentId, .running .signalled generator⟩) ∨
      action = .drop i

structure Held (world : World) : Prop where
  handle : ∀ agentId i, world.inflight agentId = some i ↔ InFlight world agentId i
  signalled : ∀ (i : Nat) agentId receiver generator,
    world.prompts[i]? = some ⟨agentId, .running receiver generator⟩ →
      receiver ≠ .orphaned ∧ (generator.cancelled = true → receiver = .signalled)

theorem poll_cancelled {generator : Generator} {woken : Bool} {next : Next}
    (hafter : (generator.poll woken next).1.cancelled = true) :
    generator.cancelled = true ∨ woken = true := by
  unfold Generator.poll at hafter
  cases woken with
  | true => exact .inr rfl
  | false =>
      left
      split_ifs at hafter
      · exact hafter
      · contradiction
      · cases next with
        | item delta =>
            cases delta with
            | text text =>
                simp only at hafter
                split_ifs at hafter
                · exact hafter
                · exact hafter
            | usage inputTokens outputTokens => exact hafter
            | done reason => exact hafter
        | _ => exact hafter

section Stages

variable {world : World} {i : Nat} {agentId : Uuid} {old : Stage}

theorem getElem?_setStage (world : World) (agentId : Uuid) (new : Stage) {other : Uuid}
    (hold : world.prompts[i]? = some ⟨other, old⟩) (j : Nat) :
    (world.setStage i agentId new).prompts[j]? =
      if i = j then some ⟨agentId, new⟩ else world.prompts[j]? := by
  have hlength : i < world.prompts.length := (List.getElem?_eq_some_iff.mp hold).1
  simp only [World.setStage, List.getElem?_set, hlength, if_true]

theorem waits_iff {stage : Stage} :
    stage.waits = true ↔ ∃ generator, stage = .running .waiting generator := by
  constructor
  · intro hwaits
    cases stage with
    | running receiver generator =>
        cases receiver with
        | waiting => exact ⟨generator, rfl⟩
        | signalled => exact absurd hwaits nofun
        | orphaned => exact absurd hwaits nofun
    | _ => exact absurd hwaits nofun
  · rintro ⟨generator, rfl⟩
    rfl

theorem inFlight_iff {j : Nat} :
    InFlight world agentId j ↔
      ∃ stage, world.prompts[j]? = some ⟨agentId, stage⟩ ∧ stage.waits = true := by
  constructor
  · rintro ⟨generator, hstage⟩
    exact ⟨_, hstage, rfl⟩
  · rintro ⟨stage, hstage, hwaits⟩
    obtain ⟨generator, rfl⟩ := waits_iff.mp hwaits
    exact ⟨generator, hstage⟩

theorem inFlight_setStage {new : Stage} (hold : world.prompts[i]? = some ⟨agentId, old⟩)
    (hwaits : new.waits = old.waits) (other : Uuid) (j : Nat) :
    InFlight (world.setStage i agentId new) other j ↔ InFlight world other j := by
  simp only [inFlight_iff, getElem?_setStage _ _ _ hold]
  by_cases hsame : i = j
  · subst hsame
    rw [if_pos rfl, hold]
    constructor
    · rintro ⟨stage, heq, hstage⟩
      rw [Option.some.injEq, Prompt.mk.injEq] at heq
      obtain ⟨rfl, rfl⟩ := heq
      exact ⟨old, rfl, hwaits ▸ hstage⟩
    · rintro ⟨stage, heq, hstage⟩
      rw [Option.some.injEq, Prompt.mk.injEq] at heq
      obtain ⟨rfl, rfl⟩ := heq
      exact ⟨new, rfl, hwaits ▸ hstage⟩
  · simp only [if_neg hsame]

theorem Held.setStage {new : Stage} (held : Held world)
    (hold : world.prompts[i]? = some ⟨agentId, old⟩) (hwaits : new.waits = old.waits)
    (hsignalled : ∀ receiver generator, new = .running receiver generator →
      receiver ≠ .orphaned ∧ (generator.cancelled = true → receiver = .signalled)) :
    Held (world.setStage i agentId new) where
  handle other j := by
    rw [inFlight_setStage hold hwaits]
    exact held.handle other j
  signalled j other receiver generator hstage := by
    rw [getElem?_setStage _ _ _ hold] at hstage
    split_ifs at hstage with hsame
    · rw [Option.some.injEq, Prompt.mk.injEq] at hstage
      exact hsignalled receiver generator hstage.2
    · exact held.signalled j other receiver generator hstage

theorem Held.register (held : Held world) (hold : world.prompts[i]? = some ⟨agentId, .built⟩) :
    Held (world.register i agentId) := by
  unfold World.register
  split_ifs with hbusy
  · exact held.setStage hold rfl nofun
  · rw [Option.not_isSome_iff_eq_none] at hbusy
    have hget := getElem?_setStage _ agentId (.running .waiting .start) hold
    constructor
    case handle =>
      intro other j
      have hidle : ∀ j, ¬InFlight world agentId j := by
        intro j hlive
        rw [← held.handle agentId j, hbusy] at hlive
        exact absurd hlive nofun
      by_cases hagent : other = agentId
      · subst hagent
        simp only [Function.update_self, Option.some.injEq]
        constructor
        · rintro rfl
          exact ⟨.start, by simp only [hget, if_true]⟩
        · rintro ⟨generator, hstage⟩
          simp only [hget] at hstage
          split_ifs at hstage with hsame
          · exact hsame
          · exact absurd ⟨generator, hstage⟩ (hidle j)
      · simp only [Function.update_of_ne hagent]
        rw [held.handle other j]
        unfold InFlight
        simp only [hget]
        by_cases hsame : i = j
        · subst hsame
          simp [hold, Ne.symm hagent]
        · simp only [if_neg hsame]
    case signalled =>
      intro j other receiver generator hstage
      simp only [hget] at hstage
      split_ifs at hstage with hsame
      · simp only [Option.some.injEq, Prompt.mk.injEq, Stage.running.injEq] at hstage
        obtain ⟨-, rfl, rfl⟩ := hstage
        exact ⟨nofun, nofun⟩
      · exact held.signalled j other receiver generator hstage

theorem Held.unregister {new : Stage} (held : Held world)
    (hold : world.prompts[i]? = some ⟨agentId, old⟩)
    (honly : ∀ j, world.inflight agentId = some j → j = i)
    (hafter : ∀ generator, new ≠ .running .waiting generator)
    (hsignalled : ∀ receiver generator, new = .running receiver generator →
      receiver ≠ .orphaned ∧ (generator.cancelled = true → receiver = .signalled)) :
    Held ((world.unregister agentId).setStage i agentId new) := by
  have hget : ∀ j, ((world.unregister agentId).setStage i agentId new).prompts[j]? =
      if i = j then some ⟨agentId, new⟩ else world.prompts[j]? :=
    getElem?_setStage (world.unregister agentId) agentId new hold
  constructor
  case handle =>
    intro other j
    unfold InFlight
    simp only [hget]
    by_cases hagent : other = agentId
    · subst hagent
      have hnone : ((world.unregister other).setStage i other new).inflight other = none := by
        simp [World.setStage, World.unregister]
      rw [hnone]
      constructor
      · exact nofun
      · rintro ⟨generator, hstage⟩
        split_ifs at hstage with hsame
        · rw [Option.some.injEq, Prompt.mk.injEq] at hstage
          exact absurd hstage.2 (hafter generator)
        · exact absurd (honly j ((held.handle other j).mpr ⟨generator, hstage⟩)).symm hsame
    · have hsame : ((world.unregister agentId).setStage i agentId new).inflight other =
          world.inflight other := by
        simp [World.setStage, World.unregister, Function.update_of_ne hagent]
      rw [hsame, held.handle other j]
      unfold InFlight
      by_cases heq : i = j
      · subst heq
        simp [hold, Ne.symm hagent]
      · simp only [if_neg heq]
  case signalled =>
    intro j other receiver generator hstage
    rw [hget] at hstage
    split_ifs at hstage with hsame
    · rw [Option.some.injEq, Prompt.mk.injEq] at hstage
      exact hsignalled receiver generator hstage.2
    · exact held.signalled j other receiver generator hstage

theorem interrupt_eq {generator : Generator} (held : Held world)
    (hold : world.prompts[i]? = some ⟨agentId, .running .waiting generator⟩) :
    world.exec (.interrupt agentId) =
      (world.unregister agentId).setStage i agentId (.running .signalled generator) := by
  have hhandle : world.inflight agentId = some i := (held.handle agentId i).mpr ⟨generator, hold⟩
  simp only [World.exec, World.remove, hhandle, World.wake, World.unregister, hold]

theorem drop_eq {receiver : Receiver} {generator : Generator}
    (hold : world.prompts[i]? = some ⟨agentId, .running receiver generator⟩)
    (hhandle : world.inflight agentId = some i) :
    world.exec (.drop i) = (world.unregister agentId).setStage i agentId .concluded := by
  have hget := getElem?_setStage world agentId .concluded hold i
  rw [if_pos rfl] at hget
  have hwake : ((world.setStage i agentId .concluded).unregister agentId).prompts[i]? =
      some ⟨agentId, .concluded⟩ := hget
  have hsame : (world.setStage i agentId .concluded).inflight agentId = some i := hhandle
  simp only [World.exec, hold, World.remove, hsame, World.wake, hwake]
  rfl

theorem drop_eq_setStage {receiver : Receiver} {generator : Generator}
    (hold : world.prompts[i]? = some ⟨agentId, .running receiver generator⟩)
    (hnone : world.inflight agentId = none) :
    world.exec (.drop i) = world.setStage i agentId .concluded := by
  have hsame : (world.setStage i agentId .concluded).inflight agentId = none := hnone
  simp only [World.exec, hold, World.remove, hsame]

theorem getElem?_prompt {new other : Uuid} {receiver : Receiver} {generator : Generator}
    {j : Nat} :
    (world.exec (.prompt new)).prompts[j]? = some ⟨other, .running receiver generator⟩ ↔
      world.prompts[j]? = some ⟨other, .running receiver generator⟩ := by
  simp only [World.exec, List.getElem?_append]
  split_ifs with hlength
  · rfl
  · rw [List.getElem?_eq_none (Nat.le_of_not_lt hlength)]
    constructor
    · intro hmem
      have hnew := List.mem_singleton.mp (List.mem_of_getElem? hmem)
      exact absurd (Prompt.mk.inj hnew).2 nofun
    · exact nofun

theorem inFlight_prompt {new other : Uuid} {j : Nat} :
    InFlight (world.exec (.prompt new)) other j ↔ InFlight world other j := by
  unfold InFlight
  constructor
  · rintro ⟨generator, hstage⟩
    exact ⟨generator, getElem?_prompt.mp hstage⟩
  · rintro ⟨generator, hstage⟩
    exact ⟨generator, getElem?_prompt.mpr hstage⟩

theorem held_exec {action : Action} (held : Held world) (guarded : Guarded world action) :
    Held (world.exec action) := by
  cases action with
  | prompt agentId =>
      constructor
      case handle =>
        intro other j
        rw [inFlight_prompt]
        exact held.handle other j
      case signalled =>
        intro j other receiver generator hstage
        exact held.signalled j other receiver generator (getElem?_prompt.mp hstage)
  | build i succeeds =>
      simp only [World.exec]
      split
      · rename_i agentId hold
        cases succeeds with
        | true => exact held.setStage hold rfl nofun
        | false => exact held.setStage hold rfl nofun
      · exact held
  | register i =>
      simp only [World.exec]
      split
      · rename_i agentId hold
        exact held.register hold
      · exact held
  | poll i next =>
      simp only [World.exec]
      split
      · rename_i agentId receiver generator hold
        obtain ⟨horphaned, hsignalled⟩ := held.signalled i agentId receiver generator hold
        refine held.setStage hold ?_ ?_
        · cases receiver <;> rfl
        · rintro _ _ heq
          obtain ⟨rfl, rfl⟩ := Stage.running.inj heq
          refine ⟨horphaned, fun hafter => ?_⟩
          rcases poll_cancelled hafter with hbefore | hwoken
          · exact hsignalled hbefore
          · cases receiver with
            | waiting => exact absurd hwoken nofun
            | signalled => rfl
            | orphaned => exact absurd rfl horphaned
      · exact held
  | interrupt agentId =>
      cases hhandle : world.inflight agentId with
      | none =>
          simp only [World.exec, World.remove, hhandle]
          exact held
      | some i =>
          obtain ⟨generator, hold⟩ := (held.handle agentId i).mp hhandle
          rw [interrupt_eq held hold]
          apply held.unregister hold
          · intro j hj
            rw [hhandle, Option.some.injEq] at hj
            exact hj.symm
          · exact nofun
          · rintro receiver after heq
            obtain ⟨rfl, rfl⟩ := Stage.running.inj heq
            exact ⟨nofun, fun _ => rfl⟩
  | drop i =>
      cases hprompt : world.prompts[i]? with
      | none =>
          simp only [World.exec, hprompt]
          exact held
      | some prompt =>
          obtain ⟨agentId, stage⟩ := prompt
          cases stage with
          | running receiver generator =>
              cases hhandle : world.inflight agentId with
              | none =>
                  rw [drop_eq_setStage hprompt hhandle]
                  refine held.setStage hprompt ?_ nofun
                  cases receiver with
                  | waiting =>
                      have hlive := (held.handle agentId i).mpr ⟨generator, hprompt⟩
                      rw [hhandle] at hlive
                      exact absurd hlive nofun
                  | _ => rfl
              | some j =>
                  have hsame : j = i := guarded _ hprompt rfl j hhandle
                  subst hsame
                  rw [drop_eq hprompt hhandle]
                  refine held.unregister hprompt ?_ nofun nofun
                  intro k hk
                  rw [hhandle, Option.some.injEq] at hk
                  exact hk.symm
          | _ =>
              simp only [World.exec, hprompt]
              exact held

theorem inFlight_exec {action : Action} (held : Held world) (guarded : Guarded world action)
    (hlive : InFlight world agentId i) (hinterrupt : action ≠ .interrupt agentId)
    (hdrop : action ≠ .drop i) : InFlight (world.exec action) agentId i := by
  obtain ⟨generator, hstage⟩ := hlive
  have hother : ∀ {j : Nat} {other : Uuid} {stage new : Stage},
      world.prompts[j]? = some ⟨other, stage⟩ → j ≠ i →
        (world.setStage j other new).prompts[i]? = some ⟨agentId, .running .waiting generator⟩ := by
    intro j other stage new hold hne
    rw [getElem?_setStage _ _ _ hold, if_neg hne]
    exact hstage
  cases action with
  | prompt new => exact inFlight_prompt.mpr ⟨generator, hstage⟩
  | build j succeeds =>
      simp only [World.exec]
      split
      · rename_i other hold
        refine ⟨generator, hother hold ?_⟩
        rintro rfl
        rw [hold] at hstage
        exact absurd hstage nofun
      · exact ⟨generator, hstage⟩
  | register j =>
      simp only [World.exec]
      split
      · rename_i other hold
        have hne : j ≠ i := by
          rintro rfl
          rw [hold] at hstage
          exact absurd hstage nofun
        unfold World.register
        split_ifs
        · exact ⟨generator, hother hold hne⟩
        · exact ⟨generator, hother hold hne⟩
      · exact ⟨generator, hstage⟩
  | poll j next =>
      simp only [World.exec]
      split
      · rename_i other receiver before hold
        rw [inFlight_setStage hold (by cases receiver <;> rfl)]
        exact ⟨generator, hstage⟩
      · exact ⟨generator, hstage⟩
  | interrupt other =>
      cases hhandle : world.inflight other with
      | none =>
          simp only [World.exec, World.remove, hhandle]
          exact ⟨generator, hstage⟩
      | some j =>
          obtain ⟨before, hold⟩ := (held.handle other j).mp hhandle
          rw [interrupt_eq held hold]
          refine ⟨generator, hother hold ?_⟩
          rintro rfl
          rw [hold, Option.some.injEq, Prompt.mk.injEq] at hstage
          exact hinterrupt (congrArg Action.interrupt hstage.1)
  | drop j =>
      cases hprompt : world.prompts[j]? with
      | none =>
          simp only [World.exec, hprompt]
          exact ⟨generator, hstage⟩
      | some prompt =>
          obtain ⟨other, stage⟩ := prompt
          have hne : j ≠ i := by
            rintro rfl
            exact hdrop rfl
          cases stage with
          | running receiver before =>
              cases hhandle : world.inflight other with
              | none =>
                  rw [drop_eq_setStage hprompt hhandle]
                  exact ⟨generator, hother hprompt hne⟩
              | some k =>
                  have hsame : k = j := guarded _ hprompt rfl k hhandle
                  subst hsame
                  rw [drop_eq hprompt hhandle]
                  exact ⟨generator, hother hprompt hne⟩
          | _ =>
              simp only [World.exec, hprompt]
              exact ⟨generator, hstage⟩

end Stages

section Runs

variable {world : World}

theorem held_starts (starts : Starts world) : Held world where
  handle agentId i := by
    simp [starts.inflight, InFlight, starts.prompts]
  signalled := by simp [starts.prompts]

theorem exclusive_of_held (held : Held world) : Exclusive world where
  single agentId i j hi hj := by
    rw [← held.handle] at hi hj
    exact Option.some.inj (hi.symm.trans hj)
  handle := held.handle
  signalled i agentId receiver generator hstage := by
    obtain ⟨horphaned, hsignalled⟩ := held.signalled i agentId receiver generator hstage
    rintro (hidle | hcancelled)
    · cases receiver with
      | waiting => exact absurd ⟨generator, hstage⟩ hidle
      | signalled => rfl
      | orphaned => exact absurd rfl horphaned
    · exact hsignalled hcancelled

theorem orderly_of_held {action : Action} (held : Held world) (guarded : Guarded world action) :
    Orderly world action := by
  intro agentId i hlive
  by_cases hinterrupt : action = .interrupt agentId
  · right
    left
    obtain ⟨generator, hold⟩ := hlive
    subst hinterrupt
    refine ⟨rfl, generator, ?_⟩
    rw [interrupt_eq held hold]
    exact (getElem?_setStage (world.unregister agentId) _ _ hold i).trans (if_pos rfl)
  · by_cases hdrop : action = .drop i
    · exact .inr (.inr hdrop)
    · left
      have hafter := inFlight_exec held guarded hlive hinterrupt hdrop
      exact ⟨hafter, ((held_exec held guarded).handle agentId i).mpr hafter⟩

/-- Runs in which no earlier stream is dropped beside the handle of a later one. -/
theorem prompts_exclusive (reachable : Reachable World.exec Starts Guarded world) :
    Exclusive world ∧ ∀ action, Guarded world action → Orderly world action := by
  have held : Held world := by
    apply reachable.invariant (fun _ starts => held_starts starts)
    exact fun _ _ held guarded => held_exec held guarded
  exact ⟨exclusive_of_held held, fun action guarded => orderly_of_held held guarded⟩

instance (world : World) (action : Action) : Decidable (Guarded world action) := by
  unfold Guarded
  split <;> infer_instance

def idle : World := ⟨[], fun _ => none⟩

theorem starts_idle : Starts idle := ⟨rfl, fun _ => rfl⟩

def agent : Uuid := ⟨1⟩

def orderly : List Action :=
  [.prompt agent, .build 0 true, .register 0, .interrupt agent, .poll 0 .ended, .drop 0,
    .prompt agent, .build 1 true, .register 1]

theorem prompts_exclusive_orderly :
    Exclusive (run World.exec idle orderly) ∧
      ∀ action, Guarded (run World.exec idle orderly) action →
        Orderly (run World.exec idle orderly) action :=
  prompts_exclusive (reachable_run starts_idle (by decide))

def overtaken : List Action :=
  [.prompt agent, .build 0 true, .register 0, .interrupt agent, .prompt agent, .build 1 true,
    .register 1, .drop 0]

theorem newer_stream_cancelled :
    Reachable World.exec Starts (fun _ _ => True) (run World.exec idle overtaken) ∧
      ¬Exclusive (run World.exec idle overtaken) := by
  refine ⟨reachable_run starts_idle (allAllowed_of_forall (fun _ _ _ => trivial) idle), ?_⟩
  intro exclusive
  have hstage : (run World.exec idle overtaken).prompts[1]? =
      some ⟨agent, .running .orphaned .start⟩ := by decide
  have hidle : ¬InFlight (run World.exec idle overtaken) agent 1 := by
    rintro ⟨generator, hlive⟩
    rw [hstage] at hlive
    exact absurd hlive nofun
  exact absurd (exclusive.signalled 1 agent .orphaned .start hstage (.inl hidle)) nofun

end Runs

end Forge.PromptExclusivity
