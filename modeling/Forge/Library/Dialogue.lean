import Forge.Library.Interleaving
import Forge.Library.StateMachine

/-! One program that calls surroundings which also change on their own: the calls it made with
their replies, the rules that these obey, and what stays true of the surroundings. -/

namespace Forge.Library.Dialogue

open Forge.Library.Interleaving
open Forge.Library.StateMachine

variable {World Op Choice Change α β : Type} {Reply : Op → Type}

structure Call (Op : Type) (Reply : Op → Type) where
  op : Op
  reply : Reply op

/-- A program, given these answers in their order, ends with a value. -/
inductive Ends : Prog Op Reply α → List (Call Op Reply) → α → Prop where
  | done (value : α) : Ends (.done value) [] value
  | op {operation : Op} {next : Reply operation → Prog Op Reply α} {reply : Reply operation}
      {calls : List (Call Op Reply)} {value : α} (rest : Ends (next reply) calls value) :
      Ends (.op operation next) (⟨operation, reply⟩ :: calls) value

@[simp] theorem ends_done {value value' : α} {calls : List (Call Op Reply)} :
    Ends (.done value) calls value' ↔ calls = [] ∧ value' = value := by
  constructor
  · rintro ⟨⟩
    exact ⟨rfl, rfl⟩
  · rintro ⟨rfl, rfl⟩
    exact .done value'

theorem ends_op {operation : Op} {next : Reply operation → Prog Op Reply α}
    {calls : List (Call Op Reply)} {value : α} :
    Ends (.op operation next) calls value ↔
      ∃ reply rest, calls = ⟨operation, reply⟩ :: rest ∧ Ends (next reply) rest value := by
  constructor
  · rintro (_ | rest)
    exact ⟨_, _, rfl, rest⟩
  · rintro ⟨reply, rest, rfl, ends⟩
    exact .op ends

theorem Ends.only {kind : Op → Prop} {program : Prog Op Reply α} {calls : List (Call Op Reply)}
    {value : α} (ends : Ends program calls value) (only : program.Only kind) :
    ∀ call ∈ calls, kind call.op := by
  induction ends with
  | done value => exact fun _ => nofun
  | op rest ih => exact List.forall_mem_cons.2 ⟨only.1, ih (only.2 _)⟩

section Rules

variable {may : List (Call Op Reply) → Op → Prop} {final : α → List (Call Op Reply) → Prop}
  {heard : List (Call Op Reply)}

/-- Whatever is answered, every call is one that may follow the earlier ones (the newest comes
first), and so is the value at the end. -/
def Obeys (may : List (Call Op Reply) → Op → Prop) (final : α → List (Call Op Reply) → Prop) :
    Prog Op Reply α → List (Call Op Reply) → Prop
  | .done value, heard => final value heard
  | .op operation next, heard =>
      may heard operation ∧ ∀ reply, Obeys may final (next reply) (⟨operation, reply⟩ :: heard)

theorem Obeys.bind {program : Prog Op Reply α} {f : α → Prog Op Reply β}
    {last : β → List (Call Op Reply) → Prop} (first : Obeys may final program heard)
    (rest : ∀ value later, final value later → Obeys may last (f value) later) :
    Obeys may last (program.bind f) heard := by
  induction program generalizing heard with
  | done value => exact rest value heard first
  | op operation next ih => exact ⟨first.1, fun reply => ih reply (first.2 reply)⟩

theorem Obeys.mono {program : Prog Op Reply α} {final' : α → List (Call Op Reply) → Prop}
    (obeys : Obeys may final program heard)
    (weaker : ∀ value later, final value later → final' value later) :
    Obeys may final' program heard := by
  induction program generalizing heard with
  | done value => exact weaker value heard obeys
  | op operation next ih => exact ⟨obeys.1, fun reply => ih reply (obeys.2 reply)⟩

/-- A program of calls that are always allowed, by the values that it ends with. -/
theorem obeys_of_ends {kind : Op → Prop} {program : Prog Op Reply α} (only : program.Only kind)
    (harmless : ∀ operation later, kind operation → may later operation)
    (ends : ∀ calls value, Ends program calls value → final value (calls.reverse ++ heard)) :
    Obeys may final program heard := by
  induction program generalizing heard with
  | done value => exact ends [] value (.done value)
  | op operation next ih =>
      refine ⟨harmless operation heard only.1, fun reply => ih reply (only.2 reply) ?_⟩
      intro calls value rest
      simpa using ends _ value (.op rest)

def Lawful (may : List (Call Op Reply) → Op → Prop) : List (Call Op Reply) → Prop
  | [] => True
  | call :: before => may before call.op ∧ Lawful may before

theorem Lawful.of_append {later before : List (Call Op Reply)} {call : Call Op Reply}
    (lawful : Lawful may (later ++ call :: before)) : may before call.op := by
  induction later with
  | nil => exact lawful.1
  | cons first rest ih => exact ih lawful.2

end Rules

section Attempts

variable {Answer : Op → Type} {ε : Type}
  {may : List (Call Op fun operation => Except ε (Answer operation)) → Op → Prop}
  {heard : List (Call Op fun operation => Except ε (Answer operation))}

theorem ends_call {operation : Op}
    {calls : List (Call Op fun operation => Except ε (Answer operation))}
    {outcome : Except ε (Answer operation)} :
    Ends (Attempt.call operation : Attempt Op Answer ε _) calls outcome ↔
      calls = [⟨operation, outcome⟩] := by
  refine ends_op.trans ⟨?_, ?_⟩
  · rintro ⟨reply, rest, rfl, ends⟩
    obtain ⟨rfl, rfl⟩ := ends_done.1 ends
    rfl
  · rintro rfl
    exact ⟨outcome, [], rfl, ends_done.2 ⟨rfl, rfl⟩⟩

/-- What ends well does so part by part. -/
theorem ends_bind {program : Attempt Op Answer ε α} {f : α → Attempt Op Answer ε β}
    {calls : List (Call Op fun operation => Except ε (Answer operation))} {value : β} :
    Ends (program >>= f : Attempt Op Answer ε β) calls (.ok value) ↔
      ∃ first rest middle, calls = first ++ rest ∧ Ends program first (.ok middle)
        ∧ Ends (f middle) rest (.ok value) := by
  have split : ∀ (program : Prog Op (fun operation => Except ε (Answer operation)) (Except ε α))
      (calls : List (Call Op fun operation => Except ε (Answer operation))),
      Ends (program.bind (Attempt.next f)) calls (.ok value) ↔
        ∃ first rest middle, calls = first ++ rest ∧ Ends program first (.ok middle)
          ∧ Ends (f middle) rest (.ok value) := by
    intro program
    induction program with
    | done outcome =>
        intro calls
        cases outcome with
        | ok middle =>
            constructor
            · intro ends
              exact ⟨[], calls, middle, rfl, .done _, ends⟩
            · rintro ⟨first, rest, middle, rfl, ends, goes⟩
              obtain ⟨rfl, ⟨⟩⟩ := ends_done.1 ends
              exact goes
        | error err =>
            constructor
            · intro ends
              obtain ⟨-, ⟨⟩⟩ := ends_done.1 ends
            · rintro ⟨first, rest, middle, rfl, ends, -⟩
              obtain ⟨-, ⟨⟩⟩ := ends_done.1 ends
    | op operation next ih =>
        intro calls
        refine ends_op.trans ⟨?_, ?_⟩
        · rintro ⟨reply, rest, rfl, ends⟩
          obtain ⟨first, later, middle, rfl, begins, goes⟩ := (ih reply rest).1 ends
          exact ⟨_ :: first, later, middle, rfl, .op begins, goes⟩
        · rintro ⟨first, later, middle, rfl, started, goes⟩
          obtain ⟨reply, rest, rfl, begins⟩ := ends_op.1 started
          exact ⟨reply, rest ++ later, rfl, (ih reply _).2 ⟨rest, later, middle, rfl, begins, goes⟩⟩
  exact split program calls

theorem ends_pure {value value' : α}
    {calls : List (Call Op fun operation => Except ε (Answer operation))} :
    Ends (pure value : Attempt Op Answer ε α) calls (.ok value') ↔ calls = [] ∧ value' = value :=
  ends_done.trans (and_congr_right fun _ => ⟨Except.ok.inj, congrArg _⟩)

theorem ends_lift {outcome : Except ε α} {value : α}
    {calls : List (Call Op fun operation => Except ε (Answer operation))} :
    Ends (Attempt.lift outcome : Attempt Op Answer ε α) calls (.ok value) ↔
      calls = [] ∧ outcome = .ok value :=
  ends_done.trans (and_congr_right fun _ => eq_comm)

theorem not_ends_fail {err : ε} {value : α}
    {calls : List (Call Op fun operation => Except ε (Answer operation))} :
    ¬ Ends (Attempt.fail err : Attempt Op Answer ε α) calls (.ok value) := by
  intro ends
  obtain ⟨-, ⟨⟩⟩ := ends_done.1 ends

/-- A single call: it is heard with its reply. -/
theorem obeys_call {operation : Op} (allowed : may heard operation) :
    Obeys may (fun outcome later => later = ⟨operation, outcome⟩ :: heard)
      (Attempt.call operation : Attempt Op Answer ε _) heard :=
  ⟨allowed, fun _ => rfl⟩

theorem obeys_bind {program : Attempt Op Answer ε α} {f : α → Attempt Op Answer ε β}
    {middle : Except ε α → List (Call Op fun operation => Except ε (Answer operation)) → Prop}
    {final : Except ε β → List (Call Op fun operation => Except ε (Answer operation)) → Prop}
    (first : Obeys may middle program heard)
    (rest : ∀ value later, middle (.ok value) later → Obeys may final (f value) later)
    (errors : ∀ err later, middle (.error err) later → final (.error err) later) :
    Obeys may final (program >>= f : Attempt Op Answer ε β) heard := by
  refine Obeys.bind first fun outcome later holds => ?_
  cases outcome with
  | ok value => exact rest value later holds
  | error err => exact errors err later holds

theorem obeys_mapError {program : Attempt Op Answer ε α} {f : ε → ε}
    {middle final : Except ε α → List (Call Op fun operation => Except ε (Answer operation)) → Prop}
    (first : Obeys may middle program heard)
    (rest : ∀ outcome later, middle outcome later → final (outcome.mapError f) later) :
    Obeys may final (program.mapError f) heard :=
  Obeys.bind first rest

theorem obeys_observe {program : Attempt Op Answer ε α} {f : Except ε α → Attempt Op Answer ε β}
    {middle : Except ε α → List (Call Op fun operation => Except ε (Answer operation)) → Prop}
    {final : Except ε β → List (Call Op fun operation => Except ε (Answer operation)) → Prop}
    (first : Obeys may middle program heard)
    (rest : ∀ outcome later, middle outcome later → Obeys may final (f outcome) later) :
    Obeys may final (program.observe >>= f : Attempt Op Answer ε β) heard := by
  rw [Attempt.observe_bind]
  exact Obeys.bind first rest

end Attempts

/-- What a call does and what it answers, by a choice of the surroundings, and what changes
without a call. -/
structure Surroundings (World Op Choice Change : Type) (Reply : Op → Type) where
  perform : World → (operation : Op) → Choice → World × Reply operation
  change : World → Change → World

structure Talk (World Op : Type) (Reply : Op → Type) (α : Type) where
  world : World
  heard : List (Call Op Reply)
  program : Prog Op Reply α

inductive Turn (Choice Change : Type) where
  | call (choice : Choice)
  | change (change : Change)

variable (around : Surroundings World Op Choice Change Reply)

def exec (talk : Talk World Op Reply α) : Turn Choice Change → Talk World Op Reply α
  | .change change => { talk with world := around.change talk.world change }
  | .call choice =>
      match talk.program with
      | .done _ => talk
      | .op operation next =>
          let (world, reply) := around.perform talk.world operation choice
          ⟨world, ⟨operation, reply⟩ :: talk.heard, next reply⟩

def Reached (allowed : Talk World Op Reply α → Turn Choice Change → Prop) (start : World → Prop)
    (program : Prog Op Reply α) : Talk World Op Reply α → Prop :=
  Reachable (exec around) (fun talk => start talk.world ∧ talk.heard = []
    ∧ talk.program = program) allowed

section Runs

variable {around} {allowed : Talk World Op Reply α → Turn Choice Change → Prop}
  {start : World → Prop} {program : Prog Op Reply α} {talk : Talk World Op Reply α}

/-- A property that is kept by every change, and by every call for what it answers. -/
theorem Reached.invariant (Inv : Talk World Op Reply α → Prop)
    (begins : ∀ world, start world → Inv ⟨world, [], program⟩)
    (changes : ∀ talk change, Inv talk → allowed talk (.change change) →
      Inv { talk with world := around.change talk.world change })
    (calls : ∀ talk choice operation next, Inv talk → allowed talk (.call choice) →
      talk.program = .op operation next →
        Inv ⟨(around.perform talk.world operation choice).1,
          ⟨operation, (around.perform talk.world operation choice).2⟩ :: talk.heard,
          next (around.perform talk.world operation choice).2⟩)
    (reached : Reached around allowed start program talk) : Inv talk := by
  refine Reachable.invariant ?_ ?_ reached
  · rintro ⟨world, heard, rest⟩ ⟨first, rfl, rfl⟩
    exact begins world first
  · intro talk turn inv may
    cases turn with
    | change change => exact changes talk change inv may
    | call choice =>
        rw [exec]
        split
        case h_1 => exact inv
        case h_2 operation next due => exact calls talk choice operation next inv may due

/-- A program that obeys a rule makes lawful calls, and goes on to obey it. -/
theorem Reached.obeys {may : List (Call Op Reply) → Op → Prop}
    {final : α → List (Call Op Reply) → Prop} (obeys : Obeys may final program [])
    (reached : Reached around allowed start program talk) :
    Lawful may talk.heard ∧ Obeys may final talk.program talk.heard := by
  refine reached.invariant
    (fun talk => Lawful may talk.heard ∧ Obeys may final talk.program talk.heard)
    (fun _ _ => ⟨trivial, obeys⟩) (fun _ _ inv _ => inv) ?_
  rintro talk choice operation next ⟨lawful, goes⟩ - due
  rw [due] at goes
  exact ⟨⟨goes.1, lawful⟩, goes.2 _⟩

/-- A property of the surroundings and of what was heard that every change keeps, and every call
that the program may make. -/
theorem Reached.lawful {may : List (Call Op Reply) → Op → Prop}
    {final : α → List (Call Op Reply) → Prop} (obeys : Obeys may final program [])
    (Inv : World → List (Call Op Reply) → Prop) (begins : ∀ world, start world → Inv world [])
    (changes : ∀ talk change, Inv talk.world talk.heard → allowed talk (.change change) →
      Inv (around.change talk.world change) talk.heard)
    (calls : ∀ world heard operation choice, Inv world heard → may heard operation →
      Inv (around.perform world operation choice).1
        (⟨operation, (around.perform world operation choice).2⟩ :: heard))
    (reached : Reached around allowed start program talk) :
    Inv talk.world talk.heard ∧ Obeys may final talk.program talk.heard := by
  refine reached.invariant
    (fun talk => Inv talk.world talk.heard ∧ Obeys may final talk.program talk.heard)
    (fun world first => ⟨begins world first, obeys⟩)
    (fun talk change inv may => ⟨changes talk change inv.1 may, inv.2⟩) ?_
  rintro talk choice operation next ⟨inv, goes⟩ - due
  rw [due] at goes
  exact ⟨calls _ _ _ _ inv goes.1, goes.2 _⟩

end Runs

end Forge.Library.Dialogue
