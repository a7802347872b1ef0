import Mathlib.Data.List.Basic

/-! Loops that make one stream of another: an item that is a failure ends both. -/

namespace Forge.Library.Relay

variable {σ ι δ ε : Type}

structure Loop (σ ι δ : Type) where
  step : σ → ι → σ × List δ
  close : σ → List δ

def run (loop : Loop σ ι δ) : σ → List (Except ε ι) → List (Except ε δ)
  | state, [] => (loop.close state).map .ok
  | _, .error failure :: _ => [.error failure]
  | state, .ok item :: rest =>
      (loop.step state item).2.map .ok ++ run loop (loop.step state item).1 rest

inductive Ending (ε ι : Type) where
  | failed (failure : ε)
  | closed
  | finished (item : ι) (behind : List (Except ε ι))

def heard (finishes : ι → Bool) : List (Except ε ι) → List ι
  | [] => []
  | .error _ :: _ => []
  | .ok item :: rest => if finishes item then [] else item :: heard finishes rest

def ending (finishes : ι → Bool) : List (Except ε ι) → Ending ε ι
  | [] => .closed
  | .error failure :: _ => .failed failure
  | .ok item :: rest => if finishes item then .finished item rest else ending finishes rest

def after (loop : Loop σ ι δ) (state : σ) (items : List ι) : σ :=
  items.foldl (fun state item => (loop.step state item).1) state

def last (loop : Loop σ ι δ) (state : σ) : Ending ε ι → List (Except ε δ)
  | .failed failure => [.error failure]
  | .closed => (loop.close state).map .ok
  | .finished item behind => (loop.step state item).2.map .ok
      ++ run loop (loop.step state item).1 behind

section Runs

variable {loop : Loop σ ι δ} {finishes : ι → Bool}

theorem not_finishes_of_heard {items : List (Except ε ι)} {item : ι}
    (member : item ∈ heard finishes items) : finishes item = false := by
  induction items with
  | nil => cases member
  | cons first rest ih =>
      cases first with
      | error failure => cases member
      | ok other =>
          rw [heard] at member
          split at member
          case isTrue => cases member
          case isFalse no =>
              rcases List.mem_cons.1 member with rfl | later
              · exact Bool.eq_false_iff.2 no
              · exact ih later

theorem finishes_of_ending {items : List (Except ε ι)} {item : ι} {behind : List (Except ε ι)}
    (ends : ending finishes items = .finished item behind) : finishes item = true := by
  induction items with
  | nil => cases ends
  | cons first rest ih =>
      cases first with
      | error failure => cases ends
      | ok other =>
          rw [ending] at ends
          split at ends
          case isTrue yes =>
              cases ends
              exact yes
          case isFalse => exact ih ends

theorem run_eq (spoken : ι → List δ) (state : σ) (items : List (Except ε ι))
    (steps : ∀ state, ∀ item, finishes item = false → (loop.step state item).2 = spoken item) :
    run loop state items = ((heard finishes items).flatMap spoken).map .ok
      ++ last loop (after loop state (heard finishes items)) (ending finishes items) := by
  induction items generalizing state with
  | nil => rfl
  | cons first rest ih =>
      cases first with
      | error failure => rfl
      | ok item =>
          rw [run, heard, ending]
          split
          case isTrue => rfl
          case isFalse no =>
              rw [ih, steps _ _ (Bool.eq_false_iff.2 no), List.flatMap_cons, List.map_append,
                List.append_assoc]
              rfl

theorem run_eq_nil_iff {closed : σ → Prop} {silent : ι → Prop}
    (stays : ∀ state item, closed state → closed (loop.step state item).1)
    (quiet : ∀ state item, closed state → ((loop.step state item).2 = [] ↔ silent item))
    (closes : ∀ state, closed state → loop.close state = []) {state : σ} (now : closed state)
    (items : List (Except ε ι)) :
    run loop state items = [] ↔ ∀ item ∈ items, ∃ payload, item = .ok payload ∧ silent payload := by
  induction items generalizing state with
  | nil =>
      rw [run, closes state now]
      simp
  | cons first rest ih =>
      cases first with
      | error failure => simp [run]
      | ok item =>
          rw [run, List.append_eq_nil_iff, List.map_eq_nil_iff, quiet state item now,
            ih (stays state item now)]
          simp

end Runs

section Shapes

theorem append_inj {front front' : List (Except ε δ)} {text : Except ε δ → Bool}
    {first second : Except ε δ} {rest more : List (Except ε δ)}
    (plain : ∀ item ∈ front, text item = true) (plain' : ∀ item ∈ front', text item = true)
    (stops : text first = false) (stops' : text second = false)
    (same : front ++ first :: rest = front' ++ second :: more) :
    front = front' ∧ first = second ∧ rest = more := by
  induction front generalizing front' with
  | nil =>
      cases front' with
      | nil =>
          cases same
          exact ⟨rfl, rfl, rfl⟩
      | cons head others =>
          cases same
          rw [plain' first (.head _)] at stops
          cases stops
  | cons head others ih =>
      cases front' with
      | nil =>
          cases same
          rw [plain second (.head _)] at stops'
          cases stops'
      | cons head' others' =>
          rw [List.cons_append, List.cons_append, List.cons.injEq] at same
          obtain ⟨rfl, tail⟩ := same
          obtain ⟨rfl, rest_⟩ := ih (fun item member => plain item (.tail _ member))
            (fun item member => plain' item (.tail _ member)) tail
          exact ⟨rfl, rest_⟩

end Shapes

end Forge.Library.Relay
