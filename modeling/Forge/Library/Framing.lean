import Mathlib.Data.List.Infix
import Mathlib.Data.List.TakeWhile

/-! Carving a stream of symbols into frames: a frame ends where what is held first is complete, and
only so many symbols are held. -/

namespace Forge.Library.Framing

variable {α : Type} {complete : List α → Bool}

section Cuts

variable (complete : List α → Bool)

def Open (symbols : List α) : Prop :=
  ∀ front, front <+: symbols → complete front = false

/-- Complete, and no shorter start is. -/
structure IsFrame (frame : List α) : Prop where
  whole : complete frame = true
  first : ∀ front, front <+: frame → front ≠ frame → complete front = false

/-- The frames that symbols consist of, and what is behind the last of them. -/
structure Cut (symbols : List α) (frames : List (List α)) (tail : List α) : Prop where
  joined : frames.flatten ++ tail = symbols
  framed : ∀ frame ∈ frames, IsFrame complete frame
  rest : Open complete tail

end Cuts

section Steps

variable {held symbols tail frame : List α} {symbol : α} {frames : List (List α)}

theorem Open.of_initial {front : List α} (unended : Open complete symbols)
    (initial : front <+: symbols) : Open complete front :=
  fun start further => unended start (further.trans initial)

theorem Open.concat (unended : Open complete held)
    (incomplete : complete (held ++ [symbol]) = false) : Open complete (held ++ [symbol]) := by
  intro front initial
  rcases List.prefix_concat_iff.1 initial with rfl | shorter
  · exact incomplete
  · exact unended front shorter

theorem IsFrame.length_lt (framed : IsFrame complete frame) (unended : Open complete held)
    (comparable : frame <+: held ++ symbols) : held.length < frame.length := by
  by_contra short
  rw [Nat.not_lt] at short
  have inside := List.prefix_of_prefix_length_le comparable (List.prefix_append held symbols) short
  exact Bool.false_ne_true ((unended frame inside).symm.trans framed.whole)

theorem Cut.frames_of_held (cut : Cut complete (held ++ symbols) (frame :: frames) tail)
    (unended : Open complete held) : held.length < frame.length := by
  have initial : frame <+: held ++ symbols := by
    rw [← cut.joined, List.flatten_cons, List.append_assoc]
    exact List.prefix_append _ _
  exact (cut.framed frame (.head _)).length_lt unended initial

theorem Cut.first_frame (cut : Cut complete (held ++ symbol :: symbols) frames tail)
    (unended : Open complete held) (done : complete (held ++ [symbol]) = true) :
    ∃ more, frames = (held ++ [symbol]) :: more ∧ Cut complete symbols more tail := by
  have begins : held ++ [symbol] <+: held ++ symbol :: symbols := ⟨symbols, by simp⟩
  cases frames with
  | nil =>
      have whole := cut.joined
      rw [List.flatten_nil, List.nil_append] at whole
      rw [cut.rest _ (whole ▸ begins)] at done
      exact absurd done Bool.false_ne_true
  | cons frame more =>
      have longer := cut.frames_of_held unended
      have joined := cut.joined
      rw [List.flatten_cons, List.append_assoc] at joined
      have inside : held ++ [symbol] <+: frame := by
        refine List.prefix_of_prefix_length_le begins (joined ▸ List.prefix_append _ _) ?_
        rw [List.length_append, List.length_singleton]
        exact longer
      have same : held ++ [symbol] = frame := by
        by_contra other
        rw [(cut.framed frame (.head _)).first _ inside other] at done
        exact Bool.false_ne_true done
      subst same
      refine ⟨more, rfl, ?_, fun frame member => cut.framed frame (.tail _ member), cut.rest⟩
      rw [List.append_assoc, List.append_cancel_left_eq, List.singleton_append,
        List.cons.injEq] at joined
      exact joined.2

end Steps

section Carving

variable (complete) in
/-- The frames of what is held and what comes, and what is held at the end, unless it became too
long. -/
def carve (bound : Nat) : List α → List α → List (List α) × Option (List α)
  | held, [] => ([], some held)
  | held, symbol :: rest =>
      if held.length = bound then ([], none)
      else if complete (held ++ [symbol]) then
        let later := carve bound [] rest
        ((held ++ [symbol]) :: later.1, later.2)
      else carve bound (held ++ [symbol]) rest

variable {bound : Nat} {held symbols tail : List α} {frames : List (List α)}

theorem carve_eq (cut : Cut complete (held ++ symbols) frames tail)
    (unended : Open complete held) (fits : held.length ≤ bound) :
    carve complete bound held symbols =
      (frames.takeWhile fun frame => frame.length ≤ bound,
        if ∀ piece ∈ frames ++ [tail], piece.length ≤ bound then some tail else none) := by
  induction symbols generalizing held frames with
  | nil =>
      rw [List.append_nil] at cut
      cases frames with
      | nil =>
          have same : tail = held := cut.joined
          rw [carve, same, if_pos (by simpa using fits), List.takeWhile_nil]
      | cons frame more =>
          rw [← List.append_nil held] at cut
          have longer := cut.frames_of_held unended
          rw [List.append_nil] at cut
          have joined := congrArg List.length cut.joined
          rw [List.flatten_cons, List.length_append, List.length_append] at joined
          omega
  | cons symbol rest ih =>
      rw [carve]
      split
      case isTrue full =>
          have overlong : ¬ ∀ piece ∈ frames ++ [tail], piece.length ≤ bound := by
            intro all
            cases frames with
            | nil =>
                have long := congrArg List.length cut.joined
                have short := all tail (.head _)
                rw [List.flatten_nil, List.nil_append, List.length_append, List.length_cons] at long
                omega
            | cons frame more =>
                have longer := cut.frames_of_held unended
                have short := all frame (.head _)
                omega
          have nothing : frames.takeWhile (fun frame => frame.length ≤ bound) = [] := by
            cases frames with
            | nil => rfl
            | cons frame more =>
                have longer := cut.frames_of_held unended
                exact List.takeWhile_cons_of_neg (by simp; omega)
          rw [if_neg overlong, nothing]
      case isFalse room =>
          have next : (held ++ [symbol]).length ≤ bound := by
            rw [List.length_append, List.length_singleton]
            omega
          split
          case isTrue done =>
              obtain ⟨more, rfl, behind⟩ := cut.first_frame unended done
              have empty : Open complete [] := unended.of_initial List.nil_prefix
              have carved := @ih [] more behind empty (Nat.zero_le _)
              rw [carved, List.takeWhile_cons, if_pos (decide_eq_true next)]
              simp only [List.cons_append, List.forall_mem_cons, next, true_and]
          case isFalse incomplete =>
              refine ih ?_ (unended.concat (Bool.not_eq_true _ ▸ incomplete)) next
              rwa [List.append_assoc, List.singleton_append]

theorem exists_cut (unended : Open complete held) (symbols : List α) :
    ∃ frames tail, Cut complete (held ++ symbols) frames tail := by
  induction symbols generalizing held with
  | nil => exact ⟨[], held, (List.append_nil _).symm, nofun, unended⟩
  | cons symbol rest ih =>
      cases done : complete (held ++ [symbol]) with
      | false =>
          obtain ⟨frames, tail, cut⟩ := ih (unended.concat done)
          rw [List.append_assoc, List.singleton_append] at cut
          exact ⟨frames, tail, cut⟩
      | true =>
          obtain ⟨frames, tail, cut⟩ := @ih [] (unended.of_initial List.nil_prefix)
          refine ⟨(held ++ [symbol]) :: frames, tail, ?_, ?_, cut.rest⟩
          · rw [List.flatten_cons, List.append_assoc, cut.joined, List.append_assoc]
            rfl
          · intro frame member
            rcases List.mem_cons.1 member with rfl | later
            · refine ⟨done, fun front initial other => ?_⟩
              rcases List.prefix_concat_iff.1 initial with same | shorter
              · exact absurd same other
              · exact unended front shorter
            · exact cut.framed frame later

theorem Cut.unique {others : List (List α)} {other : List α}
    (cut : Cut complete symbols frames tail) (cut' : Cut complete symbols others other) :
    others = frames ∧ other = tail := by
  have carved {frames : List (List α)} {tail : List α} (cut : Cut complete symbols frames tail) :
      carve complete symbols.length [] symbols = (frames, some tail) := by
    have within : ∀ piece ∈ frames ++ [tail], piece.length ≤ symbols.length := by
      intro piece member
      have inside : piece.Sublist (frames ++ [tail]).flatten := List.sublist_flatten_of_mem member
      rw [List.flatten_append, List.flatten_singleton, cut.joined] at inside
      exact inside.length_le
    have all : frames.takeWhile (fun frame => frame.length ≤ symbols.length) = frames :=
      List.takeWhile_eq_self_iff.2 fun frame member =>
        decide_eq_true (within frame (List.mem_append_left _ member))
    have empty : Open complete [] := cut.rest.of_initial List.nil_prefix
    have carved := @carve_eq α complete symbols.length [] symbols tail frames cut empty
      (Nat.zero_le _)
    rw [carved, if_pos within, all]
  have same := (carved cut').symm.trans (carved cut)
  rw [Prod.mk.injEq, Option.some.injEq] at same
  exact same

end Carving

end Forge.Library.Framing
