import Mathlib.Logic.Relation

/-! Deterministic machines driven by labelled actions, the states they reach when every
action is allowed, and the induction over such runs. -/

namespace Forge.Library.StateMachine

variable {State Action : Type}

def run (exec : State → Action → State) (state : State) (actions : List Action) : State :=
  actions.foldl exec state

def Step (exec : State → Action → State) (allowed : State → Action → Prop)
    (before after : State) : Prop :=
  ∃ action, allowed before action ∧ after = exec before action

def Reaches (exec : State → Action → State) (allowed : State → Action → Prop) :
    State → State → Prop :=
  Relation.ReflTransGen (Step exec allowed)

def Reachable (exec : State → Action → State) (initial : State → Prop)
    (allowed : State → Action → Prop) (state : State) : Prop :=
  ∃ start, initial start ∧ Reaches exec allowed start state

/-- Every action of a list is allowed in the state it finds. -/
def AllAllowed (exec : State → Action → State) (allowed : State → Action → Prop) :
    State → List Action → Prop
  | _, [] => True
  | state, action :: rest =>
      allowed state action ∧ AllAllowed exec allowed (exec state action) rest

instance decidableAllAllowed (exec : State → Action → State) (allowed : State → Action → Prop)
    [∀ state action, Decidable (allowed state action)] :
    ∀ state actions, Decidable (AllAllowed exec allowed state actions)
  | _, [] => isTrue trivial
  | state, action :: rest =>
      have := decidableAllAllowed exec allowed (exec state action) rest
      inferInstanceAs (Decidable (allowed state action ∧ _))

def exits (exec : State → Action → State) (holds : State → Bool) : State → List Action → Nat
  | _, [] => 0
  | state, action :: rest =>
      (if holds state && !holds (exec state action) then 1 else 0)
        + exits exec holds (exec state action) rest

def occurrences (exec : State → Action → State) (occurs : State → Action → Bool) :
    State → List Action → Nat
  | _, [] => 0
  | state, action :: rest =>
      (if occurs state action then 1 else 0) + occurrences exec occurs (exec state action) rest

def total (exec : State → Action → State) (gain : State → Action → Nat) :
    State → List Action → Nat
  | _, [] => 0
  | state, action :: rest => gain state action + total exec gain (exec state action) rest

section Runs

variable {exec : State → Action → State} {initial : State → Prop}
  {allowed allowed' : State → Action → Prop}

theorem reaches_run {state : State} {actions : List Action}
    (all : AllAllowed exec allowed state actions) :
    Reaches exec allowed state (run exec state actions) := by
  induction actions generalizing state with
  | nil => exact .refl
  | cons action rest ih =>
      exact .head ⟨action, all.1, rfl⟩ (ih all.2)

/-- Actions that are allowed wherever they are taken. -/
theorem allAllowed_of_forall {actions : List Action}
    (every : ∀ action ∈ actions, ∀ state, allowed state action) (state : State) :
    AllAllowed exec allowed state actions := by
  induction actions generalizing state with
  | nil => trivial
  | cons action rest ih =>
      obtain ⟨first, others⟩ := List.forall_mem_cons.mp every
      exact ⟨first state, ih others _⟩

theorem reachable_run {start : State} {actions : List Action} (begin : initial start)
    (all : AllAllowed exec allowed start actions) :
    Reachable exec initial allowed (run exec start actions) :=
  ⟨start, begin, reaches_run all⟩

theorem Reachable.step {state : State} {action : Action}
    (reachable : Reachable exec initial allowed state) (may : allowed state action) :
    Reachable exec initial allowed (exec state action) := by
  obtain ⟨start, begin, reaches⟩ := reachable
  exact ⟨start, begin, reaches.tail ⟨action, may, rfl⟩⟩

theorem Reachable.trans {state after : State}
    (reachable : Reachable exec initial allowed state) (reaches : Reaches exec allowed state after) :
    Reachable exec initial allowed after := by
  obtain ⟨start, begin, earlier⟩ := reachable
  exact ⟨start, begin, earlier.trans reaches⟩

theorem Reaches.mono {before after : State} (weaker : ∀ s a, allowed s a → allowed' s a)
    (reaches : Reaches exec allowed before after) : Reaches exec allowed' before after := by
  refine Relation.ReflTransGen.mono ?_ _ _ reaches
  rintro s t ⟨action, may, rfl⟩
  exact ⟨action, weaker s action may, rfl⟩

theorem Reachable.mono {state : State} (weaker : ∀ s a, allowed s a → allowed' s a)
    (reachable : Reachable exec initial allowed state) :
    Reachable exec initial allowed' state := by
  obtain ⟨start, begin, reaches⟩ := reachable
  exact ⟨start, begin, reaches.mono weaker⟩

/-- An invariant that holds initially and is kept by every allowed action holds of every
reachable state. -/
theorem Reachable.invariant {Inv : State → Prop} (begin : ∀ s, initial s → Inv s)
    (keep : ∀ s a, Inv s → allowed s a → Inv (exec s a)) {state : State}
    (reachable : Reachable exec initial allowed state) : Inv state := by
  obtain ⟨start, first, reaches⟩ := reachable
  induction reaches with
  | refl => exact begin start first
  | tail _ last ih =>
      obtain ⟨action, may, rfl⟩ := last
      exact keep _ action ih may

/-- The same induction from any state on, for a property relative to an invariant. -/
theorem Reaches.stable {Inv P : State → Prop}
    (keepInv : ∀ s a, Inv s → allowed s a → Inv (exec s a))
    (keep : ∀ s a, Inv s → P s → allowed s a → P (exec s a)) {before after : State}
    (reaches : Reaches exec allowed before after) (inv : Inv before) (holds : P before) :
    Inv after ∧ P after := by
  induction reaches with
  | refl => exact ⟨inv, holds⟩
  | tail _ last ih =>
      obtain ⟨action, may, rfl⟩ := last
      exact ⟨keepInv _ action ih.1 may, keep _ action ih.1 ih.2 may⟩

/-- A property that is over for good ceases no more. -/
theorem exits_eq_zero {holds : State → Bool} {Over : State → Prop}
    (off : ∀ s, Over s → holds s = false) (keep : ∀ s a, Over s → allowed s a → Over (exec s a))
    {state : State} {actions : List Action} (ended : Over state)
    (all : AllAllowed exec allowed state actions) : exits exec holds state actions = 0 := by
  induction actions generalizing state with
  | nil => rfl
  | cons action rest ih =>
      have later := keep state action ended all.1
      simp [exits, off state ended, ih later all.2]

/-- A property that is over for good as soon as it ceases does so at most once. -/
theorem exits_le_one {holds : State → Bool} {Inv Over : State → Prop}
    (off : ∀ s, Over s → holds s = false) (keep : ∀ s a, Over s → allowed s a → Over (exec s a))
    (keepInv : ∀ s a, Inv s → allowed s a → Inv (exec s a))
    (ends : ∀ s a, Inv s → allowed s a → holds s = true → holds (exec s a) = false →
      Over (exec s a))
    {state : State} {actions : List Action} (inv : Inv state)
    (all : AllAllowed exec allowed state actions) : exits exec holds state actions ≤ 1 := by
  induction actions generalizing state with
  | nil => simp [exits]
  | cons action rest ih =>
      rw [exits]
      by_cases ceases : holds state = true ∧ holds (exec state action) = false
      · have ended := ends state action inv all.1 ceases.1 ceases.2
        simp [ceases.1, ceases.2, exits_eq_zero off keep ended all.2]
      · have stays : (holds state && !holds (exec state action)) = false := by
          rw [not_and, Bool.not_eq_false] at ceases
          cases now : holds state with
          | false => rfl
          | true => simp [ceases now]
        simpa [stays] using ih (keepInv state action inv all.1) all.2

/-- What cannot occur any more occurs at no step. -/
theorem occurrences_eq_zero {occurs : State → Action → Bool} {Over : State → Prop}
    (off : ∀ s a, Over s → occurs s a = false) (keep : ∀ s a, Over s → Over (exec s a))
    {state : State} (ended : Over state) (actions : List Action) :
    occurrences exec occurs state actions = 0 := by
  induction actions generalizing state with
  | nil => rfl
  | cons action rest ih =>
      simp [occurrences, off state action ended, ih (keep state action ended)]

/-- What ends itself when it occurs occurs at most once. -/
theorem occurrences_le_one {occurs : State → Action → Bool} {Over : State → Prop}
    (off : ∀ s a, Over s → occurs s a = false) (keep : ∀ s a, Over s → Over (exec s a))
    (ends : ∀ s a, occurs s a = true → Over (exec s a)) (state : State)
    (actions : List Action) : occurrences exec occurs state actions ≤ 1 := by
  induction actions generalizing state with
  | nil => simp [occurrences]
  | cons action rest ih =>
      rw [occurrences]
      cases now : occurs state action with
      | false => simpa using ih (exec state action)
      | true =>
          have none := occurrences_eq_zero off keep (ends state action now) rest
          simp [none]

/-- What costs a unit of a potential occurs at most as often as the potential allows, at the
start and by what steps add to it. -/
theorem occurrences_le_potential {occurs : State → Action → Bool} {potential : State → Nat}
    {gain : State → Action → Nat} {Inv : State → Prop}
    (keepInv : ∀ s a, Inv s → allowed s a → Inv (exec s a))
    (grows : ∀ s a, Inv s → allowed s a → potential (exec s a) ≤ potential s + gain s a)
    (pays : ∀ s a, Inv s → allowed s a → occurs s a = true →
      potential (exec s a) + 1 ≤ potential s + gain s a)
    {state : State} {actions : List Action} (inv : Inv state)
    (all : AllAllowed exec allowed state actions) :
    occurrences exec occurs state actions ≤ potential state + total exec gain state actions := by
  induction actions generalizing state with
  | nil => exact Nat.zero_le _
  | cons action rest ih =>
      have later := ih (keepInv state action inv all.1) all.2
      rw [occurrences, total]
      cases now : occurs state action with
      | false =>
          have step := grows state action inv all.1
          simp only [Bool.false_eq_true, if_false]
          omega
      | true =>
          have step := pays state action inv all.1 now
          simp only [if_true]
          omega

end Runs

end Forge.Library.StateMachine
