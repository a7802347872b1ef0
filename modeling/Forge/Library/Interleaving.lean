import Mathlib.Logic.Function.Basic

/-! Programs that run side by side on one state, one operation at a time: what each may do, and
what it relies upon of the others. -/

namespace Forge.Library.Interleaving

inductive Prog (Op : Type) (Reply : Op → Type) (α : Type) : Type where
  | done (value : α)
  | op (operation : Op) (next : Reply operation → Prog Op Reply α)

variable {State Label Op Choice : Type} {Reply : Op → Type} {α β : Type}

namespace Prog

def bind : Prog Op Reply α → (α → Prog Op Reply β) → Prog Op Reply β
  | .done value, f => f value
  | .op operation next, f => .op operation fun reply => (next reply).bind f

def isDone : Prog Op Reply α → Bool
  | .done _ => true
  | .op _ _ => false

def Only (kind : Op → Prop) : Prog Op Reply α → Prop
  | .done _ => True
  | .op operation next => kind operation ∧ ∀ reply, (next reply).Only kind

theorem Only.bind {kind : Op → Prop} {program : Prog Op Reply α} {f : α → Prog Op Reply β}
    (first : program.Only kind) (rest : ∀ value, (f value).Only kind) :
    (program.bind f).Only kind := by
  induction program with
  | done value => exact rest value
  | op operation next ih => exact ⟨first.1, fun reply => ih reply (first.2 reply)⟩

section Tracks

variable {σ : Type} {note : σ → (operation : Op) → Reply operation → σ}
  {program : Prog Op Reply α} {noted : σ}

/-- What a program notes of its operations and their replies has a property when it ends. -/
def Tracks (note : σ → (operation : Op) → Reply operation → σ) (final : α → σ → Prop) :
    Prog Op Reply α → σ → Prop
  | .done value, noted => final value noted
  | .op operation next, noted =>
      ∀ reply, Tracks note final (next reply) (note noted operation reply)

theorem Tracks.bind {f : α → Prog Op Reply β} {middle : α → σ → Prop} {final : β → σ → Prop}
    (first : program.Tracks note middle noted)
    (rest : ∀ value later, middle value later → (f value).Tracks note final later) :
    (program.bind f).Tracks note final noted := by
  induction program generalizing noted with
  | done value => exact rest value noted first
  | op operation next ih => exact fun reply => ih reply (first reply)

/-- Operations of which nothing is noted. -/
theorem Tracks.of_only {kind : Op → Prop} (only : program.Only kind)
    (same : ∀ noted operation reply, kind operation → note noted operation reply = noted) :
    program.Tracks note (fun _ later => later = noted) noted := by
  induction program with
  | done value => rfl
  | op operation next ih =>
      intro reply
      rw [same noted operation reply only.1]
      exact ih reply (only.2 reply)

end Tracks

end Prog

/-- What operations do, for a choice of the surroundings and, for one that starts a program under
a name, whether the name is free; and the programs that operations start. -/
structure Machine (State Label Op Choice : Type) (Reply : Op → Type) where
  perform : State → (operation : Op) → Choice → Bool → State × Reply operation
  starts : Op → Option (Label × Prog Op Reply Unit)

/-- What holds of the state between operations, which choices are considered, what the program of
a name may do, and what it may rely upon. -/
structure Discipline (machine : Machine State Label Op Choice Reply) where
  Inv : State → Prop
  allowed : Label → State → Op → Choice → Bool → Prop
  may : Label → State → Op → Prop
  rely : Label → State → State → Prop
  refl : ∀ label state, rely label state state
  trans : ∀ {label first second third}, rely label first second → rely label second third →
    rely label first third
  keeps : ∀ {label state operation choice free}, Inv state → may label state operation →
    allowed label state operation choice free →
      Inv (machine.perform state operation choice free).1
  spares : ∀ {label other state operation choice free}, label ≠ other → Inv state →
    may label state operation → allowed label state operation choice free →
      rely other state (machine.perform state operation choice free).1

section Safety

variable {machine : Machine State Label Op Choice Reply} (rules : Discipline machine)

/-- Whatever the others do between its operations, a program does only what it may, and ends in
a state of which the postcondition holds. -/
def Safe (label : Label) : Prog Op Reply α → (α → State → Prop) → State → Prop
  | .done value, post, state =>
      ∀ later, rules.rely label state later → rules.Inv later → post value later
  | .op operation next, post, state =>
      ∀ later, rules.rely label state later → rules.Inv later →
        rules.may label later operation ∧ ∀ choice free,
          rules.allowed label later operation choice free →
            Safe label (next (machine.perform later operation choice free).2) post
              (machine.perform later operation choice free).1

variable {rules} {label : Label} {program : Prog Op Reply α} {post : α → State → Prop}
  {state : State}

theorem Safe.later {after : State} (safe : Safe rules label program post state)
    (rely : rules.rely label state after) : Safe rules label program post after := by
  cases program with
  | done value => exact fun later step inv => safe later (rules.trans rely step) inv
  | op operation next => exact fun later step inv => safe later (rules.trans rely step) inv

/-- It is enough for a program to be safe whenever it gets its turn. -/
theorem Safe.of_later (safe : ∀ later, rules.rely label state later → rules.Inv later →
    Safe rules label program post later) : Safe rules label program post state := by
  cases program with
  | done value => exact fun later step inv => safe later step inv later (rules.refl label later) inv
  | op operation next =>
      exact fun later step inv => safe later step inv later (rules.refl label later) inv

theorem Safe.mono {post' : α → State → Prop} (safe : Safe rules label program post state)
    (weaker : ∀ value later, rules.Inv later → post value later → post' value later) :
    Safe rules label program post' state := by
  induction program generalizing state with
  | done value => exact fun later step inv => weaker value later inv (safe later step inv)
  | op operation next ih =>
      intro later step inv
      obtain ⟨may, rest⟩ := safe later step inv
      exact ⟨may, fun choice free allowed => ih _ (rest choice free allowed)⟩

theorem Safe.bind {f : α → Prog Op Reply β} {middle : α → State → Prop} {post : β → State → Prop}
    (safe : Safe rules label program middle state)
    (rest : ∀ value later, rules.Inv later → middle value later →
      Safe rules label (f value) post later) :
    Safe rules label (program.bind f) post state := by
  induction program generalizing state with
  | done value =>
      exact .of_later fun later step inv => rest value later inv (safe later step inv)
  | op operation next ih =>
      intro later step inv
      obtain ⟨may, goes⟩ := safe later step inv
      exact ⟨may, fun choice free allowed => ih _ (goes choice free allowed)⟩

/-- A program of operations that its name may do as long as they keep a fact. -/
theorem Safe.of_only {kind : Op → Prop} {fact : State → Prop} (only : program.Only kind)
    (own : ∀ later operation, rules.Inv later → kind operation → fact later →
      rules.may label later operation ∧ ∀ choice free,
        fact (machine.perform later operation choice free).1)
    (others : ∀ before after, rules.rely label before after → fact before → fact after)
    (now : fact state) : Safe rules label program (fun _ later => fact later) state := by
  induction program generalizing state with
  | done value => exact fun later step _ => others state later step now
  | op operation next ih =>
      intro later step inv
      obtain ⟨may, keeps⟩ := own later operation inv only.1 (others state later step now)
      exact ⟨may, fun choice free _ => ih _ (only.2 _) (keeps choice free)⟩

/-- What the others leave alone, and the program's own kind of operations too, still holds when
the program ends. -/
theorem Safe.frame {kind : Op → Prop} {fact : State → Prop}
    (safe : Safe rules label program post state) (only : program.Only kind)
    (own : ∀ later operation choice free, rules.Inv later → rules.may label later operation →
      rules.allowed label later operation choice free → kind operation → fact later →
        fact (machine.perform later operation choice free).1)
    (others : ∀ before after, rules.rely label before after → fact before → fact after)
    (now : fact state) :
    Safe rules label program (fun value later => post value later ∧ fact later) state := by
  induction program generalizing state with
  | done value => exact fun later step inv => ⟨safe later step inv, others state later step now⟩
  | op operation next ih =>
      intro later step inv
      obtain ⟨may, goes⟩ := safe later step inv
      refine ⟨may, fun choice free allowed => ih _ (goes choice free allowed) (only.2 _) ?_⟩
      exact own later operation choice free inv may allowed only.1 (others state later step now)

end Safety

def Attempt (Op : Type) (Answer : Op → Type) (ε α : Type) : Type :=
  Prog Op (fun operation => Except ε (Answer operation)) (Except ε α)

namespace Attempt

variable {Answer : Op → Type} {ε : Type}

def ok (value : α) : Attempt Op Answer ε α :=
  Prog.done (.ok value)

def fail (err : ε) : Attempt Op Answer ε α :=
  Prog.done (.error err)

def lift (outcome : Except ε α) : Attempt Op Answer ε α :=
  Prog.done outcome

def call (operation : Op) : Attempt Op Answer ε (Answer operation) :=
  Prog.op operation Prog.done

def next (f : α → Attempt Op Answer ε β) : Except ε α → Attempt Op Answer ε β
  | .ok value => f value
  | .error err => fail err

instance : Monad (Attempt Op Answer ε) where
  pure := ok
  bind program f := Prog.bind program (next f)

def observe (program : Attempt Op Answer ε α) : Attempt Op Answer ε (Except ε α) :=
  Prog.bind program fun outcome => Prog.done (.ok outcome)

/-- What goes on with an outcome goes on with every outcome. -/
theorem observe_bind (program : Attempt Op Answer ε α) (f : Except ε α → Attempt Op Answer ε β) :
    (program.observe >>= f) = Prog.bind program f := by
  have assoc : ∀ program : Prog Op (fun operation => Except ε (Answer operation)) (Except ε α),
      Prog.bind (Prog.bind program fun outcome => Prog.done (.ok outcome)) (next f) =
        Prog.bind program f := by
    intro program
    induction program with
    | done outcome => rfl
    | op operation next ih => exact congrArg (Prog.op operation) (funext ih)
  exact assoc program

def mapError (program : Attempt Op Answer ε α) (f : ε → ε) : Attempt Op Answer ε α :=
  Prog.bind program fun outcome => Prog.done (outcome.mapError f)

def Only (kind : Op → Prop) (program : Attempt Op Answer ε α) : Prop :=
  Prog.Only kind program

section Only

variable {kind : Op → Prop}

theorem Only.call {operation : Op} (holds : kind operation) :
    (call operation : Attempt Op Answer ε _).Only kind :=
  ⟨holds, fun _ => trivial⟩

theorem Only.pure (value : α) : (pure value : Attempt Op Answer ε α).Only kind :=
  trivial

theorem Only.fail (err : ε) : (fail err : Attempt Op Answer ε α).Only kind :=
  trivial

theorem Only.lift (outcome : Except ε α) : (lift outcome : Attempt Op Answer ε α).Only kind :=
  trivial

theorem Only.bind {program : Attempt Op Answer ε α} {f : α → Attempt Op Answer ε β}
    (first : program.Only kind) (rest : ∀ value, (f value).Only kind) :
    (program >>= f).Only kind := by
  refine Prog.Only.bind first fun outcome => ?_
  cases outcome with
  | ok value => exact rest value
  | error err => exact trivial

theorem Only.mapError {program : Attempt Op Answer ε α} {f : ε → ε} (only : program.Only kind) :
    (program.mapError f).Only kind :=
  Prog.Only.bind only fun _ => trivial

theorem Only.observe {program : Attempt Op Answer ε α} (only : program.Only kind) :
    program.observe.Only kind :=
  Prog.Only.bind only fun _ => trivial

end Only

variable {machine : Machine State Label Op Choice fun operation => Except ε (Answer operation)}
  (rules : Discipline machine)

/-- The turn at which a call is made: what the others did before, the operation, and what they
did after it. -/
inductive Performed (label : Label) (operation : Op) (state : State)
    (reply : Except ε (Answer operation)) (later : State) : Prop
  | mk (before : State) (choice : Choice) (free : Bool) (rely : rules.rely label state before)
      (inv : rules.Inv before) (may : rules.may label before operation)
      (allowed : rules.allowed label before operation choice free)
      (same : (machine.perform before operation choice free).2 = reply)
      (after : rules.rely label (machine.perform before operation choice free).1 later)

variable {rules} in
theorem safe_call {label : Label} {operation : Op} {state : State}
    (may : ∀ before, rules.rely label state before → rules.Inv before →
      rules.may label before operation) :
    Safe rules label (call operation : Attempt Op Answer ε _)
      (Performed rules label operation state) state := by
  intro before step inv
  refine ⟨may before step inv, fun choice free allowed later after _ => ?_⟩
  exact .mk before choice free step inv (may before step inv) allowed rfl after

variable {rules} in
theorem safe_bind {label : Label} {state : State} {program : Attempt Op Answer ε α}
    {f : α → Attempt Op Answer ε β} {middle : Except ε α → State → Prop}
    {post : Except ε β → State → Prop} (first : Safe rules label program middle state)
    (rest : ∀ value later, rules.Inv later → middle (.ok value) later →
      Safe rules label (f value) post later)
    (errors : ∀ err before later, rules.rely label before later → rules.Inv later →
      middle (.error err) before → post (.error err) later) :
    Safe rules label (program >>= f : Attempt Op Answer ε β) post state := by
  refine Safe.bind first fun outcome before inv holds => ?_
  cases outcome with
  | ok value => exact rest value before inv holds
  | error err => exact fun later step kept => errors err before later step kept holds

variable {rules} in
theorem safe_observe {label : Label} {state : State} {program : Attempt Op Answer ε α}
    {f : Except ε α → Attempt Op Answer ε β} {middle : Except ε α → State → Prop}
    {post : Except ε β → State → Prop} (first : Safe rules label program middle state)
    (rest : ∀ outcome later, rules.Inv later → middle outcome later →
      Safe rules label (f outcome) post later) :
    Safe rules label (program.observe >>= f : Attempt Op Answer ε β) post state := by
  rw [observe_bind]
  exact Safe.bind first rest

def Ensures (label : Label) (program : Attempt Op Answer ε α) (post : α → State → Prop)
    (state : State) : Prop :=
  Safe rules label program (fun outcome later => ∀ value, outcome = .ok value → post value later)
    state

variable {rules} {label : Label} {post : α → State → Prop} {state : State}

theorem Ensures.pure {value : α} (holds : ∀ later, rules.rely label state later →
    rules.Inv later → post value later) :
    Ensures rules label (pure value : Attempt Op Answer ε α) post state := by
  rintro later step inv _ ⟨⟩
  exact holds later step inv

theorem Ensures.fail (err : ε) :
    Ensures rules label (fail err : Attempt Op Answer ε α) post state := by
  rintro later step inv value ⟨⟩

theorem Ensures.bind {program : Attempt Op Answer ε α} {f : α → Attempt Op Answer ε β}
    {middle : α → State → Prop} {post : β → State → Prop}
    (first : Ensures rules label program middle state)
    (rest : ∀ value later, rules.Inv later → middle value later →
      Ensures rules label (f value) post later) :
    Ensures rules label (program >>= f) post state := by
  refine Safe.bind first fun outcome later inv holds => ?_
  cases outcome with
  | ok value => exact rest value later inv (holds value rfl)
  | error err => exact Ensures.fail err

/-- A program whose errors say something too. -/
theorem Ensures.observe {program : Attempt Op Answer ε α} {post : Except ε α → State → Prop}
    (safe : Safe rules label program post state)
    (lasts : ∀ outcome before after, rules.rely label before after → rules.Inv after →
      post outcome before → post outcome after) :
    Ensures rules label program.observe post state := by
  refine Safe.bind safe fun outcome before inv holds => ?_
  rintro later step kept _ ⟨⟩
  exact lasts outcome before later step kept holds

theorem Ensures.mono {program : Attempt Op Answer ε α} {post' : α → State → Prop}
    (first : Ensures rules label program post state)
    (weaker : ∀ value later, rules.Inv later → post value later → post' value later) :
    Ensures rules label program post' state :=
  Safe.mono first fun _ later inv holds value same => weaker value later inv (holds value same)

theorem Ensures.frame {kind : Op → Prop} {fact : State → Prop} {program : Attempt Op Answer ε α}
    (first : Ensures rules label program post state) (only : program.Only kind)
    (own : ∀ later operation choice free, rules.Inv later → rules.may label later operation →
      rules.allowed label later operation choice free → kind operation → fact later →
        fact (machine.perform later operation choice free).1)
    (others : ∀ before after, rules.rely label before after → fact before → fact after)
    (now : fact state) :
    Ensures rules label program (fun value later => post value later ∧ fact later) state :=
  Safe.mono (Safe.frame first only own others now) fun _ _ _ holds value same =>
    ⟨holds.1 value same, holds.2⟩

end Attempt

structure Pool (State Label Op : Type) (Reply : Op → Type) where
  state : State
  threads : Label → Prog Op Reply Unit

section Pools

variable [DecidableEq Label] (machine : Machine State Label Op Choice Reply)

namespace Pool

def put (pool : Pool State Label Op Reply) (label : Label) (program : Prog Op Reply Unit) :
    Pool State Label Op Reply :=
  { pool with threads := Function.update pool.threads label program }

def begin (pool : Pool State Label Op Reply) (label : Label) (program : Prog Op Reply Unit) :
    Pool State Label Op Reply :=
  if (pool.threads label).isDone then pool.put label program else pool

def free (pool : Pool State Label Op Reply) (label : Label) (operation : Op) : Bool :=
  (machine.starts operation).any fun start =>
    start.1 ≠ label && (pool.threads start.1).isDone

/-- The next operation of a name. -/
def step (pool : Pool State Label Op Reply) (label : Label) (choice : Choice) :
    Pool State Label Op Reply :=
  match pool.threads label with
  | .done _ => pool
  | .op operation next =>
      let free := pool.free machine label operation
      let (state, reply) := machine.perform pool.state operation choice free
      let moved : Pool State Label Op Reply := { pool with state }.put label (next reply)
      match machine.starts operation, free with
      | some (child, program), true => moved.put child program
      | _, _ => moved

variable {machine} {pool : Pool State Label Op Reply} {label other : Label} {choice : Choice}
  {operation : Op} {next : Reply operation → Prog Op Reply Unit}

theorem step_done {value : Unit} (idle : pool.threads label = .done value) :
    pool.step machine label choice = pool := by
  rw [step, idle]

theorem step_state (due : pool.threads label = .op operation next) :
    (pool.step machine label choice).state =
      (machine.perform pool.state operation choice (pool.free machine label operation)).1 := by
  rw [step, due]
  dsimp only
  split <;> rfl

theorem threads_put (program : Prog Op Reply Unit) :
    (pool.put label program).threads other =
      if other = label then program else pool.threads other :=
  Function.update_apply ..

/-- A name goes on with its program, or with one that was started under it. -/
theorem only_step {kind : Op → Prop} (only : (pool.threads other).Only kind)
    (started : ∀ operation next program, pool.threads label = .op operation next →
      machine.starts operation = some (other, program) → program.Only kind) :
    ((pool.step machine label choice).threads other).Only kind := by
  cases due : pool.threads label with
  | done value => rwa [step_done due]
  | op operation next =>
      have moved : ∀ state reply, ((⟨state, pool.threads⟩ : Pool State Label Op Reply).put label
          (next reply)).threads other |>.Only kind := by
        intro state reply
        rw [threads_put]
        split
        case isTrue same =>
            subst same
            rw [due] at only
            exact only.2 reply
        case isFalse => exact only
      rw [step, due]
      dsimp only
      split
      case h_1 child program starts _ =>
          rw [threads_put]
          split
          case isTrue same => exact started operation next program due (same ▸ starts)
          case isFalse => exact moved _ _
      case h_2 => exact moved _ _

end Pool

variable {machine} (rules : Discipline machine)

/-- The invariant holds, and every name's program is safe. -/
structure Good (pool : Pool State Label Op Reply) : Prop where
  inv : rules.Inv pool.state
  safe : ∀ label, Safe rules label (pool.threads label) (fun _ _ => True) pool.state

/-- What is started is safe from there on. -/
def SafeStarts : Prop :=
  ∀ label state operation choice child program, rules.Inv state →
    rules.may label state operation → rules.allowed label state operation choice true →
      machine.starts operation = some (child, program) →
        Safe rules child program (fun _ _ => True)
          (machine.perform state operation choice true).1

variable {rules} {pool : Pool State Label Op Reply} {label : Label}

omit [DecidableEq Label] in
theorem Good.may (good : Good rules pool) {operation : Op}
    {next : Reply operation → Prog Op Reply Unit}
    (due : pool.threads label = .op operation next) : rules.may label pool.state operation := by
  have safe := good.safe label
  rw [due] at safe
  exact (safe pool.state (rules.refl label pool.state) good.inv).1

theorem Good.put (good : Good rules pool) {program : Prog Op Reply Unit}
    (safe : Safe rules label program (fun _ _ => True) pool.state) :
    Good rules (pool.put label program) := by
  refine ⟨good.inv, fun other => ?_⟩
  show Safe rules other (Function.update pool.threads label program other) _ pool.state
  by_cases same : other = label
  · subst same
    rwa [Function.update_self]
  · rw [Function.update_of_ne same]
    exact good.safe other

theorem Good.begin (good : Good rules pool) {program : Prog Op Reply Unit}
    (safe : Safe rules label program (fun _ _ => True) pool.state) :
    Good rules (pool.begin label program) := by
  rw [Pool.begin]
  split
  · exact good.put safe
  · exact good

omit [DecidableEq Label] in
/-- Something else than a program changes the state. -/
theorem Good.outside {after : State} (good : Good rules pool) (inv : rules.Inv after)
    (rely : ∀ label, pool.threads label = .done () ∨ rules.rely label pool.state after) :
    Good rules ⟨after, pool.threads⟩ := by
  refine ⟨inv, fun label => ?_⟩
  rcases rely label with idle | relies
  · show Safe rules label (pool.threads label) _ after
    rw [idle]
    exact fun _ _ _ => trivial
  · exact (good.safe label).later relies

/-- A step with an allowed choice keeps every program safe. -/
theorem Good.step (good : Good rules pool) (starts : SafeStarts rules) {choice : Choice}
    (allowed : ∀ operation next, pool.threads label = .op operation next →
      rules.allowed label pool.state operation choice (pool.free machine label operation)) :
    Good rules (pool.step machine label choice) := by
  rw [Pool.step]
  split
  case h_1 => exact good
  case h_2 operation next due =>
      have may := good.may due
      have goes := allowed operation next due
      generalize pool.free machine label operation = free at goes ⊢
      have safe := good.safe label
      rw [due] at safe
      have rest := (safe pool.state (rules.refl label pool.state) good.inv).2 choice free goes
      have inv := rules.keeps good.inv may goes
      have moved : Good rules (Pool.put
          ⟨(machine.perform pool.state operation choice free).1, pool.threads⟩ label
            (next (machine.perform pool.state operation choice free).2)) := by
        refine ⟨inv, fun other => ?_⟩
        show Safe rules other (Function.update pool.threads label _ other) _ _
        by_cases same : other = label
        · subst same
          rwa [Function.update_self]
        · rw [Function.update_of_ne same]
          exact (good.safe other).later (rules.spares (Ne.symm same) good.inv may goes)
      dsimp only
      split
      case h_1 child program started =>
          exact moved.put
            (starts label pool.state operation choice child program good.inv may goes started)
      case h_2 => exact moved

end Pools

end Forge.Library.Interleaving
