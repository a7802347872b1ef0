import Forge.Library.Text
import Mathlib.Data.List.Basic
import Mathlib.Data.List.Infix
import Mathlib.Data.List.TakeWhile
import Mathlib.Tactic.SplitIfs

/-! Rewriting a text from left to right: what a rule takes is replaced, every other letter kept. -/

namespace Forge.Library.Rewriting

variable {α : Type*}

abbrev Rule (α : Type*) := Option α → List α → Option (List α × List α)

def Proper (rule : Rule α) : Prop :=
  ∀ before text taken put, rule before text = some (taken, put) → taken ≠ [] ∧ taken <+: text

def replaceFrom (rule : Rule α) : Nat → Option α → List α → List α
  | _, _, [] => []
  | skip + 1, _, c :: rest => replaceFrom rule skip (some c) rest
  | 0, before, c :: rest =>
      match rule before (c :: rest) with
      | some (taken, put) => put ++ replaceFrom rule (taken.length - 1) (some c) rest
      | none => c :: replaceFrom rule 0 (some c) rest

def replaceAll (rule : Rule α) (text : List α) : List α := replaceFrom rule 0 none text

inductive Rewrites (rule : Rule α) : Option α → List α → List α → Prop
  | done (before : Option α) : Rewrites rule before [] []
  | keep {before : Option α} {c : α} {rest out : List α} :
      rule before (c :: rest) = none → Rewrites rule (some c) rest out →
        Rewrites rule before (c :: rest) (c :: out)
  | swap {before : Option α} {taken put rest out : List α} :
      taken ≠ [] → rule before (taken ++ rest) = some (taken, put) →
        Rewrites rule taken.getLast? rest out → Rewrites rule before (taken ++ rest) (put ++ out)

section Runs

variable {rule : Rule α} {before : Option α} {text out : List α}

theorem replaceFrom_skip (taken rest : List α) :
    replaceFrom rule taken.length before (taken ++ rest) =
      replaceFrom rule 0 (taken.getLast?.or before) rest := by
  induction taken generalizing before with
  | nil => rfl
  | cons c taken ih =>
      rw [List.length_cons, List.cons_append, replaceFrom, ih]
      congr 1
      cases taken with
      | nil => rfl
      | cons d taken =>
          rw [List.getLast?_cons_cons, List.getLast?_cons, Option.some_or, Option.some_or]

theorem getLast?_or {taken : List α} (some : taken ≠ []) :
    taken.getLast?.or before = taken.getLast? := by
  rw [List.getLast?_eq_some_getLast some, Option.some_or]

theorem Rewrites.eq (run : Rewrites rule before text out) :
    replaceFrom rule 0 before text = out := by
  induction run with
  | done before => rfl
  | keep kept _ ih => rw [replaceFrom, kept, ih]
  | @swap before taken put rest out nonempty found _ ih =>
      obtain ⟨c, tail, rfl⟩ := List.exists_cons_of_ne_nil nonempty
      rw [List.cons_append] at found
      rw [List.cons_append, replaceFrom, found, ← ih]
      have skipped := @replaceFrom_skip _ rule (some c) tail rest
      simp only [List.length_cons, Nat.add_sub_cancel]
      rw [skipped, List.getLast?_cons]
      cases tail.getLast? <;> rfl

theorem rewrites_replaceFrom (proper : Proper rule) (before : Option α) (text : List α) :
    Rewrites rule before text (replaceFrom rule 0 before text) := by
  induction size : text.length using Nat.strong_induction_on generalizing before text with
  | _ bound ih =>
  cases text with
  | nil => exact .done before
  | cons c rest =>
      match found : rule before (c :: rest) with
      | none =>
          rw [replaceFrom, found]
          exact .keep found (ih _ (by rw [← size, List.length_cons]; omega) (some c) rest rfl)
      | some (taken, put) =>
          obtain ⟨nonempty, behind, split⟩ := proper _ _ _ _ found
          have shorter : behind.length < bound := by
            rw [← size, ← split, List.length_append]
            have := List.length_pos_of_ne_nil nonempty
            omega
          have run := ih _ shorter taken.getLast? behind rfl
          rw [← split] at found ⊢
          have whole := Rewrites.swap nonempty found run
          rwa [← whole.eq] at whole

theorem rewrites_replaceAll (proper : Proper rule) (text : List α) :
    Rewrites rule none text (replaceAll rule text) :=
  rewrites_replaceFrom proper none text

theorem replaceAll_of_never
    (never : ∀ front rest, text = front ++ rest → rest ≠ [] → rule front.getLast? rest = none) :
    replaceAll rule text = text := by
  have run (front rest : List α) (split : text = front ++ rest) :
      Rewrites rule front.getLast? rest rest := by
    induction rest generalizing front with
    | nil => exact .done _
    | cons c rest ih =>
        refine .keep (never front _ split (List.cons_ne_nil c rest)) ?_
        have next := ih (front ++ [c]) (by rw [split, List.append_assoc]; rfl)
        rwa [List.getLast?_concat] at next
  exact (run [] text rfl).eq

end Runs

/-- How what was read and what was written end where a rewriting run stands. -/
inductive Joint (rule : Rule α) (rest : List α) : List α → List α → Prop
  | start : Joint rule rest [] []
  | kept (front written : List α) (c : α) : Joint rule rest (front ++ [c]) (written ++ [c])
  | swapped {before : Option α} (front written : List α) {taken put : List α} :
      rule before (taken ++ rest) = some (taken, put) →
        Joint rule rest (front ++ taken) (written ++ put)

section Joints

variable {rule : Rule α} {before : Option α} {text front rest written out : List α}

theorem Joint.cons (c : α) (joint : Joint rule rest front written) :
    Joint rule rest (c :: front) (c :: written) := by
  cases joint with
  | start => exact .kept [] [] c
  | kept front written d => exact .kept (c :: front) (c :: written) d
  | swapped front written found => exact .swapped (c :: front) (c :: written) found

theorem Joint.append {taken put : List α}
    (found : rule before (taken ++ (front ++ rest)) = some (taken, put))
    (joint : Joint rule rest front written) :
    Joint rule rest (taken ++ front) (put ++ written) := by
  cases joint with
  | start =>
      rw [List.append_nil, List.append_nil]
      exact .swapped [] [] found
  | kept front written d =>
      rw [← List.append_assoc, ← List.append_assoc]
      exact .kept _ _ d
  | swapped front written inner =>
      rw [← List.append_assoc, ← List.append_assoc]
      exact .swapped _ _ inner

theorem Rewrites.split (run : Rewrites rule before text (written ++ out)) :
    (∃ front rest, text = front ++ rest ∧ Joint rule rest front written ∧
        Rewrites rule (front.getLast?.or before) rest out) ∨
      ∃ before taken put rest head tail behind, rule before (taken ++ rest) = some (taken, put) ∧
        put = head ++ tail ∧ head ≠ [] ∧ tail ≠ [] ∧ out = tail ++ behind := by
  generalize whole : written ++ out = result at run
  induction run generalizing written with
  | done before =>
      obtain ⟨rfl, rfl⟩ := List.append_eq_nil_iff.1 whole
      exact .inl ⟨[], [], rfl, .start, .done _⟩
  | @keep before c rest result kept run ih =>
      cases written with
      | nil =>
          rw [List.nil_append] at whole
          exact .inl ⟨[], c :: rest, rfl, .start, whole ▸ .keep kept run⟩
      | cons d written =>
          rw [List.cons_append, List.cons.injEq] at whole
          obtain ⟨rfl, whole⟩ := whole
          rcases ih whole with ⟨front, rest, rfl, joint, run⟩ | inside
          · refine .inl ⟨d :: front, rest, rfl, joint.cons d, ?_⟩
            rw [List.getLast?_cons, Option.some_or]
            cases last : front.getLast? with
            | none => rwa [last] at run
            | some e => rwa [last] at run
          · exact .inr inside
  | @swap before taken put rest result nonempty found run ih =>
      rcases List.append_eq_append_iff.1 whole with
        ⟨tail, rfl, rfl⟩ | ⟨behind, rfl, rfl⟩
      · by_cases begun : written = []
        · subst begun
          exact .inl ⟨[], taken ++ rest, rfl, .start, .swap nonempty found run⟩
        by_cases ended : tail = []
        · subst ended
          rw [List.append_nil] at found
          refine .inl ⟨taken, rest, rfl, .swapped [] [] found, ?_⟩
          rwa [getLast?_or nonempty]
        exact .inr ⟨before, taken, _, rest, written, tail, result, found, rfl, begun, ended, rfl⟩
      · rcases ih rfl with ⟨front, rest, rfl, joint, run⟩ | inside
        · refine .inl ⟨taken ++ front, rest, (List.append_assoc ..).symm, joint.append found, ?_⟩
          rw [List.getLast?_append, Option.or_assoc, getLast?_or nonempty]
          exact run
        · exact .inr inside

end Joints

/-- A text rewritten block by block; what is in no block is kept. -/
inductive Blockwise (swap : List α → List α → Prop) : List α → List α → Prop
  | done : Blockwise swap [] []
  | keep {rest out : List α} (c : α) :
      Blockwise swap rest out → Blockwise swap (c :: rest) (c :: out)
  | block {taken put rest out : List α} :
      swap taken put → Blockwise swap rest out → Blockwise swap (taken ++ rest) (put ++ out)

section Blocks

variable {swap : List α → List α → Prop} {text out front back : List α} {c : α}

theorem Rewrites.blockwise {rule : Rule α} {before : Option α}
    (run : Rewrites rule before text out)
    (swaps : ∀ before taken put rest,
      rule before (taken ++ rest) = some (taken, put) → swap taken put) :
    Blockwise swap text out := by
  induction run with
  | done before => exact .done
  | keep _ _ ih => exact .keep _ ih
  | swap _ found _ ih => exact .block (swaps _ _ _ _ found) ih

theorem Blockwise.refl (text : List α) : Blockwise swap text text := by
  induction text with
  | nil => exact .done
  | cons c rest ih => exact .keep c ih

theorem Blockwise.append {text' out' : List α} (first : Blockwise swap text out)
    (second : Blockwise swap text' out') : Blockwise swap (text ++ text') (out ++ out') := by
  induction first with
  | done => exact second
  | keep c _ ih => exact .keep c ih
  | block swapped _ ih =>
      rw [List.append_assoc, List.append_assoc]
      exact .block swapped ih

theorem Blockwise.flip (run : Blockwise swap text out) :
    Blockwise (fun put taken => swap taken put) out text := by
  induction run with
  | done => exact .done
  | keep c _ ih => exact .keep c ih
  | block swapped _ ih => exact .block swapped ih

theorem Blockwise.split (fresh : ∀ taken put, swap taken put → c ∉ put)
    (run : Blockwise swap text (front ++ c :: back)) :
    ∃ first second, text = first ++ c :: second ∧
      Blockwise swap first front ∧ Blockwise swap second back := by
  generalize whole : front ++ c :: back = out at run
  induction run generalizing front with
  | done => simp at whole
  | @keep rest out d run ih =>
      cases front with
      | nil =>
          obtain ⟨rfl, rfl⟩ := List.cons.inj whole
          exact ⟨[], rest, rfl, .done, run⟩
      | cons e front =>
          obtain ⟨rfl, rfl⟩ := List.cons.inj whole
          obtain ⟨first, second, rfl, before, behind⟩ := ih rfl
          exact ⟨e :: first, second, rfl, .keep e before, behind⟩
  | @block taken put rest out swapped run ih =>
      rcases List.append_eq_append_iff.1 whole with ⟨tail, rfl, split⟩ | ⟨later, rfl, split⟩
      · cases tail with
        | nil =>
            rw [List.append_nil] at swapped
            obtain ⟨first, second, rfl, before, behind⟩ :=
              @ih [] (by rw [List.nil_append] at split; exact split)
            refine ⟨taken ++ first, second, (List.append_assoc ..).symm, ?_, behind⟩
            have joined := Blockwise.block swapped before
            rwa [List.append_nil] at joined
        | cons d tail =>
            obtain ⟨rfl, -⟩ := List.cons.inj split
            exact absurd (List.mem_append_right front List.mem_cons_self) (fresh _ _ swapped)
      · obtain ⟨first, second, rfl, before, behind⟩ := ih split.symm
        exact ⟨taken ++ first, second, (List.append_assoc ..).symm, .block swapped before, behind⟩

theorem Blockwise.split_text (fresh : ∀ taken put, swap taken put → c ∉ taken)
    (run : Blockwise swap (front ++ c :: back) out) :
    ∃ first second, out = first ++ c :: second ∧
      Blockwise swap front first ∧ Blockwise swap back second := by
  obtain ⟨first, second, split, before, behind⟩ :=
    run.flip.split fun put taken swapped => fresh taken put swapped
  exact ⟨first, second, split, before.flip, behind.flip⟩

theorem Blockwise.verbatim
    (foreign : ∀ head tail, front = head ++ tail → tail ≠ [] →
      ∀ taken put, swap taken put → ¬ put <+: tail ++ back)
    (run : Blockwise swap text (front ++ back)) :
    ∃ rest, text = front ++ rest ∧ Blockwise swap rest back := by
  induction front generalizing text with
  | nil => exact ⟨text, rfl, run⟩
  | cons c front ih =>
      have here := foreign [] (c :: front) rfl (List.cons_ne_nil c front)
      rw [List.cons_append] at run here
      generalize whole : c :: (front ++ back) = out at run here
      cases run with
      | done => cases whole
      | keep d run =>
          obtain ⟨rfl, rfl⟩ := List.cons.inj whole
          obtain ⟨rest, rfl, behind⟩ := ih
            (fun head tail split => foreign (c :: head) tail (by rw [split]; rfl)) run
          exact ⟨rest, rfl, behind⟩
      | block swapped run => exact absurd (List.prefix_append ..) (here _ _ swapped)

theorem Blockwise.verbatim_text
    (foreign : ∀ head tail, front = head ++ tail → tail ≠ [] →
      ∀ taken put, swap taken put → ¬ taken <+: tail ++ back)
    (run : Blockwise swap (front ++ back) out) :
    ∃ rest, out = front ++ rest ∧ Blockwise swap back rest := by
  obtain ⟨rest, split, behind⟩ := run.flip.verbatim fun head tail same some put taken swapped =>
    foreign head tail same some taken put swapped
  exact ⟨rest, split, behind.flip⟩

theorem Blockwise.eq_nil (some : ∀ taken put, swap taken put → taken ≠ [])
    (run : Blockwise swap [] out) : out = [] := by
  generalize whole : [] = text at run
  cases run with
  | done => rfl
  | keep c run => cases whole
  | block swapped run => exact absurd (List.append_eq_nil_iff.1 whole.symm).1 (some _ _ swapped)

theorem Blockwise.getLast? (some : ∀ taken put, swap taken put → taken ≠ [] ∧ put ≠ [])
    (run : Blockwise swap text out) :
    out.getLast? = text.getLast? ∨ ∃ taken put, swap taken put ∧
      text.getLast? = taken.getLast? ∧ out.getLast? = put.getLast? := by
  induction run with
  | done => exact .inl rfl
  | @keep rest out c run ih =>
      rw [List.getLast?_cons, List.getLast?_cons]
      rcases ih with same | ⟨taken, put, swapped, ends, ends'⟩
      · exact .inl (by rw [same])
      · obtain ⟨nonempty, nonempty'⟩ := some taken put swapped
        refine .inr ⟨taken, put, swapped, ?_, ?_⟩
        · rw [ends, List.getLast?_eq_some_getLast nonempty]; rfl
        · rw [ends', List.getLast?_eq_some_getLast nonempty']; rfl
  | @block taken put rest out swapped run ih =>
      rw [List.getLast?_append, List.getLast?_append]
      rcases ih with same | ⟨taken', put', swapped', ends, ends'⟩
      · rw [same]
        cases rest.getLast? with
        | none => exact .inr ⟨taken, put, swapped, rfl, rfl⟩
        | some c => exact .inl rfl
      · obtain ⟨nonempty, nonempty'⟩ := some taken' put' swapped'
        refine .inr ⟨taken', put', swapped', ?_, ?_⟩
        · rw [ends, List.getLast?_eq_some_getLast nonempty]; rfl
        · rw [ends', List.getLast?_eq_some_getLast nonempty']; rfl

theorem forall_of_all {P : α → Prop} [DecidablePred P]
    (all : text.all (fun c => decide (P c)) = true) : ∀ c ∈ text, P c :=
  fun c held => of_decide_eq_true (List.all_eq_true.1 all c held)

theorem Blockwise.forall_mem {P Q : α → Prop} (kept : ∀ c, P c → Q c)
    (swaps : ∀ taken put, swap taken put → (∀ c ∈ taken, P c) → ∀ c ∈ put, Q c)
    (run : Blockwise swap text out) (every : ∀ c ∈ text, P c) : ∀ c ∈ out, Q c := by
  induction run with
  | done => exact fun c held => absurd held List.not_mem_nil
  | keep c _ ih =>
      obtain ⟨here, rest⟩ := List.forall_mem_cons.1 every
      exact List.forall_mem_cons.2 ⟨kept c here, ih rest⟩
  | block swapped _ ih =>
      obtain ⟨here, rest⟩ := List.forall_mem_append.1 every
      exact List.forall_mem_append.2 ⟨swaps _ _ swapped here, ih rest⟩

theorem Blockwise.restrict {P : α → Prop} (run : Blockwise swap text out)
    (every : ∀ c ∈ text, P c) :
    Blockwise (fun taken put => swap taken put ∧ ∀ c ∈ taken, P c) text out := by
  induction run with
  | done => exact .done
  | keep c _ ih => exact .keep c (ih (List.forall_mem_cons.1 every).2)
  | block swapped _ ih =>
      obtain ⟨here, rest⟩ := List.forall_mem_append.1 every
      exact .block ⟨swapped, here⟩ (ih rest)

def Stops (letter : α → Bool) (text : List α) : Prop := ∀ c ∈ text.head?, letter c = false

theorem takeWhile_stops {letter : α → Bool} (every : ∀ c ∈ front, letter c = true)
    (stops : Stops letter back) : (front ++ back).takeWhile letter = front := by
  rw [List.takeWhile_append_of_pos every]
  cases back with
  | nil => rw [List.takeWhile_nil, List.append_nil]
  | cons c back =>
      rw [List.takeWhile_cons_of_neg (by rw [stops c rfl]; decide), List.append_nil]

theorem stops_dropWhile (letter : α → Bool) (text : List α) :
    Stops letter (text.dropWhile letter) := by
  induction text with
  | nil => simp [Stops]
  | cons c rest ih =>
      by_cases within : letter c = true
      · rwa [List.dropWhile_cons_of_pos within]
      · rw [List.dropWhile_cons_of_neg within]
        simpa [Stops] using within

theorem Blockwise.stops {letter : α → Bool} (some : ∀ taken put, swap taken put → taken ≠ [])
    (swaps : ∀ taken put, swap taken put → Stops letter taken → put ≠ [] ∧ Stops letter put)
    (run : Blockwise swap text out) (stops : Stops letter text) : Stops letter out := by
  cases run with
  | done => exact stops
  | keep c _ => exact stops
  | block swapped _ =>
      rename_i taken put rest out
      obtain ⟨c, tail, rfl⟩ := List.exists_cons_of_ne_nil (some _ _ swapped)
      obtain ⟨nonempty, ends⟩ := swaps _ _ swapped stops
      obtain ⟨d, tail, rfl⟩ := List.exists_cons_of_ne_nil nonempty
      exact ends

theorem takeWhile_append_prefix {letter : α → Bool} :
    front.takeWhile letter <+: (front ++ back).takeWhile letter := by
  rw [List.takeWhile_append]
  split_ifs with whole
  · rw [(List.takeWhile_prefix letter).eq_of_length whole]
    exact List.prefix_append ..
  · exact List.prefix_rfl

theorem Blockwise.takeWhile {letter : α → Bool}
    (outside : ∀ taken put, swap taken put → ∃ c rest, put = c :: rest ∧ letter c = false)
    (run : Blockwise swap text out) :
    out.takeWhile letter <+: text.takeWhile letter := by
  induction run with
  | done => exact List.prefix_rfl
  | keep c _ ih =>
      by_cases within : letter c = true
      · rw [List.takeWhile_cons_of_pos within, List.takeWhile_cons_of_pos within]
        exact List.cons_prefix_cons.2 ⟨rfl, ih⟩
      · rw [List.takeWhile_cons_of_neg within]
        exact List.nil_prefix
  | block swapped _ _ =>
      obtain ⟨c, rest, rfl, other⟩ := outside _ _ swapped
      rw [List.cons_append, List.takeWhile_cons_of_neg (by rw [other]; decide)]
      exact List.nil_prefix

end Blocks

structure RunClass (α : Type*) where
  letter : α → Bool
  secret : Option α → List α → Bool
  longer : ∀ {before run more}, secret before run = true → run <+: more → secret before more = true
  nonempty : ∀ before, secret before [] = false

namespace RunClass

variable {kind applied : RunClass α} {marker text : List α}

def rule (kind : RunClass α) (marker : List α) : Rule α := fun before text =>
  if kind.secret before (text.takeWhile kind.letter)
  then some (text.takeWhile kind.letter, marker) else none

def Absent (kind : RunClass α) (text : List α) : Prop :=
  ∀ front rest, text = front ++ rest →
    kind.secret front.getLast? (rest.takeWhile kind.letter) = false

def Quiet (kind : RunClass α) (marker : List α) : Prop :=
  ∃ first inner last, marker = first :: (inner ++ [last]) ∧ kind.letter first = false ∧
    kind.letter last = false ∧ ∀ before tail, tail <:+ inner → kind.secret before tail = false

theorem rule_eq_none {before : Option α} :
    kind.rule marker before text = none ↔
      kind.secret before (text.takeWhile kind.letter) = false := by
  unfold rule
  cases kind.secret before (text.takeWhile kind.letter) <;> simp

theorem rule_eq_some {before : Option α} {taken put : List α} :
    kind.rule marker before text = some (taken, put) ↔
      kind.secret before taken = true ∧ taken = text.takeWhile kind.letter ∧ put = marker := by
  unfold rule
  constructor
  · intro found
    split_ifs at found with secret
    obtain ⟨rfl, rfl⟩ := Prod.mk.inj (Option.some.inj found)
    exact ⟨secret, rfl, rfl⟩
  · rintro ⟨secret, rfl, rfl⟩
    rw [if_pos secret]

theorem proper : Proper (kind.rule marker) := by
  intro before text taken put found
  obtain ⟨secret, rfl, -⟩ := rule_eq_some.1 found
  refine ⟨fun empty => ?_, List.takeWhile_prefix kind.letter⟩
  rw [empty, kind.nonempty] at secret
  exact Bool.false_ne_true secret

theorem replaceAll_of_absent (absent : kind.Absent text) :
    replaceAll (kind.rule marker) text = text :=
  replaceAll_of_never fun front rest split _ => rule_eq_none.2 (absent front rest split)

theorem Absent.beginning {whole : List α} (absent : kind.Absent whole) (front : text <+: whole) :
    kind.Absent text := by
  obtain ⟨more, rfl⟩ := front
  intro front rest split
  have there := absent front (rest ++ more) (by rw [split, List.append_assoc])
  by_contra secret
  rw [Bool.not_eq_false] at secret
  rw [kind.longer secret takeWhile_append_prefix] at there
  exact Bool.false_ne_true there.symm

theorem letter_behind {before : Option α} {taken put rest : List α} {c : α}
    (found : kind.rule marker before (taken ++ c :: rest) = some (taken, put)) :
    kind.letter c = false := by
  obtain ⟨-, whole, -⟩ := rule_eq_some.1 found
  by_contra letter
  rw [Bool.not_eq_false] at letter
  have every : ∀ d ∈ taken, kind.letter d = true := by
    intro d held
    rw [whole] at held
    exact List.mem_takeWhile_imp held
  rw [List.takeWhile_append_of_pos every, List.takeWhile_cons_of_pos letter] at whole
  have longer := congrArg List.length whole
  simp only [List.length_append, List.length_cons] at longer
  omega

theorem Quiet.within (quiet : kind.Quiet marker) {head tail behind : List α}
    (split : marker = head ++ tail) (begun : head ≠ []) (some : tail ≠ []) (before : Option α) :
    kind.secret before ((tail ++ behind).takeWhile kind.letter) = false := by
  obtain ⟨left, inner, right, marked, -, ended, silent⟩ := quiet
  obtain ⟨c, head, rfl⟩ := List.exists_cons_of_ne_nil begun
  obtain ⟨tail, d, rfl⟩ := List.eq_nil_or_concat' tail |>.resolve_left some
  rw [marked, List.cons_append, ← List.append_assoc] at split
  obtain ⟨rfl, same⟩ := List.append_inj' (List.cons.inj split).2 rfl
  obtain rfl := List.singleton_inj.1 same
  by_contra secret
  rw [Bool.not_eq_false] at secret
  have short : (tail ++ [right] ++ behind).takeWhile kind.letter <+: tail := by
    rw [List.append_assoc, List.takeWhile_append]
    split_ifs
    · rw [List.singleton_append, List.takeWhile_cons_of_neg (by rw [ended]; decide),
        List.append_nil]
    · exact List.takeWhile_prefix kind.letter
  have whole := kind.longer secret short
  rw [silent before tail ⟨head, rfl⟩] at whole
  exact Bool.false_ne_true whole

theorem absent_replaceAll (quiet : kind.Quiet marker)
    (first : ∀ before c run, kind.secret before (c :: run) = true → kind.letter c = true →
      applied.letter c = true)
    (source : ∀ front rest, text = front ++ rest →
      applied.rule marker front.getLast? rest = none →
        kind.secret front.getLast? (rest.takeWhile kind.letter) = false) :
    kind.Absent (replaceAll (applied.rule marker) text) := by
  intro written out split
  by_contra secret
  rw [Bool.not_eq_false] at secret
  have run := rewrites_replaceAll (@proper _ applied marker) text
  rw [split] at run
  rcases run.split with ⟨front, rest, rfl, joint, behind⟩ |
      ⟨before, taken, put, rest, head, tail, behind, found, parts, begun, some, rfl⟩
  · obtain ⟨left, inner, right, marked, outside, -⟩ := quiet
    have swaps : Blockwise (fun _ put => put = marker) rest out :=
      behind.blockwise fun _ _ _ _ found => (rule_eq_some.1 found).2.2
    have shorter : out.takeWhile kind.letter <+: rest.takeWhile kind.letter :=
      swaps.takeWhile fun _ _ same => ⟨left, _, same.trans marked, outside⟩
    cases behind with
    | done => rw [List.takeWhile_nil, kind.nonempty] at secret; exact Bool.false_ne_true secret
    | swap _ found _ =>
        rw [(rule_eq_some.1 found).2.2, marked, List.cons_append,
          List.takeWhile_cons_of_neg (by rw [outside]; decide), kind.nonempty] at secret
        exact Bool.false_ne_true secret
    | @keep _ c rest out kept _ =>
        -- the place is one of the text too, and the letter before it is the same
        have letter : kind.letter c = true := by
          by_contra other
          rw [List.takeWhile_cons_of_neg other, kind.nonempty] at secret
          exact Bool.false_ne_true secret
        have begins : applied.letter c = true := by
          rw [List.takeWhile_cons_of_pos letter] at secret
          exact first _ _ _ secret letter
        have same : written.getLast? = front.getLast? := by
          cases joint with
          | start => rfl
          | kept front written d => rw [List.getLast?_concat, List.getLast?_concat]
          | swapped front written found =>
              rw [letter_behind found] at begins
              exact absurd begins Bool.false_ne_true
        rw [Option.or_none] at kept
        have gone := source front (c :: rest) rfl kept
        rw [same] at secret
        rw [kind.longer secret shorter] at gone
        exact Bool.false_ne_true gone.symm
  · have marked := (rule_eq_some.1 found).2.2.symm.trans parts
    rw [quiet.within marked begun some] at secret
    exact Bool.false_ne_true secret

end RunClass

section Blanks

open Forge.Library.Text (splitWhitespace)

variable {blank : Char → Bool} {c : Char} {text : List Char}

def collapse (blank : Char → Bool) (text : List Char) : List Char :=
  [' '].intercalate (splitWhitespace blank text)

def Gap (blank : Char → Bool) (taken put : List Char) : Prop :=
  taken ≠ [] ∧ (∀ c ∈ taken, blank c = true) ∧ put = [' ']

theorem collapse_nil : collapse blank [] = [] := rfl

theorem collapse_blank (gap : blank c = true) :
    collapse blank (c :: text) = collapse blank text := by
  simp [collapse, splitWhitespace, List.splitOnP_cons_eq_if_modifyHead, gap]

theorem collapse_letter (word : blank c = false) :
    ∃ first others, text.splitOnP blank = first :: others ∧ collapse blank (c :: text) =
      c :: [' '].intercalate (first :: others.filter fun part => part ≠ []) := by
  obtain ⟨first, others, split⟩ := List.exists_cons_of_ne_nil (List.splitOnP_ne_nil blank text)
  refine ⟨first, others, split, ?_⟩
  have parts : (c :: text).splitOnP blank = (c :: first) :: others := by
    rw [List.splitOnP_cons_eq_if_modifyHead, if_neg (by rw [word]; decide), split]
    rfl
  rw [collapse, splitWhitespace, parts, List.filter_cons_of_pos (by simp)]
  cases others.filter fun part => decide (part ≠ []) <;> simp [List.intercalate]

theorem collapse_single (word : blank c = false) : collapse blank [c] = [c] := by
  obtain ⟨first, others, split, same⟩ := @collapse_letter blank c [] word
  obtain ⟨rfl, rfl⟩ := List.cons.inj split
  exact same

theorem collapse_word {d : Char} (word : blank c = false) (inner : blank d = false) :
    collapse blank (c :: d :: text) = c :: collapse blank (d :: text) := by
  obtain ⟨first, others, split, same⟩ := @collapse_letter blank c (d :: text) word
  obtain ⟨tail, others', split', same'⟩ := @collapse_letter blank d text inner
  rw [List.splitOnP_cons_eq_if_modifyHead, if_neg (by rw [inner]; decide), split'] at split
  obtain ⟨rfl, rfl⟩ := List.cons.inj split
  rw [same, same']
  cases others'.filter fun part => decide (part ≠ []) <;> simp [List.intercalate]

theorem collapse_gap {d : Char} (word : blank c = false) (gap : blank d = true) :
    collapse blank (c :: d :: text) =
      c :: (if collapse blank text = [] then [] else ' ' :: collapse blank text) := by
  obtain ⟨first, others, split, same⟩ := @collapse_letter blank c (d :: text) word
  rw [List.splitOnP_cons_eq_if_modifyHead, if_pos gap] at split
  obtain ⟨rfl, rfl⟩ := List.cons.inj split
  rw [same]
  unfold collapse splitWhitespace
  cases parts : (text.splitOnP blank).filter fun part => decide (part ≠ []) with
  | nil => simp [List.intercalate]
  | cons part rest =>
      have some : part ≠ [] := by
        have member : part ∈ (text.splitOnP blank).filter fun part => decide (part ≠ []) :=
          parts ▸ List.mem_cons_self
        exact of_decide_eq_true (List.mem_filter.1 member).2
      cases rest <;> simp [List.intercalate, some]

theorem collapse_gaps (text : List Char) :
    ∃ lead core trail, text = lead ++ core ++ trail ∧ (∀ c ∈ lead, blank c = true) ∧
      (∀ c ∈ trail, blank c = true) ∧ (∀ c ∈ core.head?, blank c = false) ∧
        Blockwise (Gap blank) core (collapse blank text) := by
  induction text with
  | nil => exact ⟨[], [], [], rfl, by simp, by simp, by simp, .done⟩
  | cons c text ih =>
      obtain ⟨lead, core, trail, rfl, before, behind, start, run⟩ := ih
      cases word : blank c with
      | true =>
          refine ⟨c :: lead, core, trail, rfl, ?_, behind, start, ?_⟩
          · exact List.forall_mem_cons.2 ⟨word, before⟩
          · rwa [collapse_blank word]
      | false =>
          cases core with
          | nil =>
              have nothing := run.eq_nil fun _ _ gap => gap.1
              refine ⟨[], [c], lead ++ trail, by simp, by simp, ?_, by simpa using word, ?_⟩
              · exact List.forall_mem_append.2 ⟨before, behind⟩
              · rw [List.append_nil] at nothing ⊢
                cases rest : lead ++ trail with
                | nil => rw [collapse_single word]; exact .refl [c]
                | cons d rest' =>
                    have gap : blank d = true :=
                      List.forall_mem_append.2 ⟨before, behind⟩ d (rest ▸ List.mem_cons_self)
                    rw [rest, collapse_blank gap] at nothing
                    rw [collapse_gap word gap, if_pos nothing]
                    exact .refl [c]
          | cons d core =>
              have inner : blank d = false := start d rfl
              cases lead with
              | nil =>
                  refine ⟨[], c :: d :: core, trail, rfl, before, behind, by simpa using word, ?_⟩
                  have next := run.keep c
                  rwa [List.nil_append, List.cons_append, ← collapse_word word inner] at next
              | cons e lead =>
                  have gap : blank e = true := before e List.mem_cons_self
                  have some : collapse blank (e :: lead ++ d :: core ++ trail) ≠ [] := by
                    intro nothing
                    rw [nothing] at run
                    exact List.cons_ne_nil d core
                      (run.flip.eq_nil fun _ _ gap => by rw [gap.2.2]; exact List.cons_ne_nil _ _)
                  refine ⟨[], c :: (e :: lead ++ d :: core), trail, by simp, by simp, behind,
                    by simpa using word, ?_⟩
                  have next := (Blockwise.block (show Gap blank (e :: lead) [' '] from
                    ⟨List.cons_ne_nil e lead, before, rfl⟩) run).keep c
                  have same : collapse blank (e :: lead ++ d :: core ++ trail) =
                      collapse blank (lead ++ d :: core ++ trail) := collapse_blank gap
                  rw [same] at some next
                  have whole := @collapse_gap blank c (lead ++ d :: core ++ trail) e word gap
                  rw [if_neg some] at whole
                  exact whole ▸ next

theorem collapse_head (word : blank c = false) :
    ∃ rest, collapse blank (c :: text) = c :: rest := by
  obtain ⟨_, _, -, same⟩ := @collapse_letter blank c text word
  exact ⟨_, same⟩

theorem collapse_start (text : List Char) :
    collapse blank text = [] ∨ ∃ c rest, collapse blank text = c :: rest ∧ blank c = false := by
  induction text with
  | nil => exact .inl rfl
  | cons c text ih =>
      cases word : blank c with
      | true => rwa [collapse_blank word]
      | false =>
          obtain ⟨rest, same⟩ := @collapse_head blank c text word
          exact .inr ⟨c, rest, same, word⟩

theorem collapse_take (space : blank ' ' = true) (n : Nat) (text : List Char) :
    collapse blank ((collapse blank text).take n) = (collapse blank text).take n ∨
      collapse blank ((collapse blank text).take n) ++ [' '] = (collapse blank text).take n := by
  induction text generalizing n with
  | nil => exact .inl (by rw [collapse_nil, List.take_nil, collapse_nil])
  | cons c text ih =>
      cases word : blank c with
      | true => rw [collapse_blank word]; exact ih n
      | false =>
          cases n with
          | zero => exact .inl rfl
          | succ n =>
              cases text with
              | nil =>
                  rw [collapse_single word, List.take_succ_cons, List.take_nil,
                    collapse_single word]
                  exact .inl rfl
              | cons d text =>
                  cases inner : blank d with
                  | false =>
                      obtain ⟨rest, same⟩ := @collapse_head blank d text inner
                      rw [collapse_word word inner, List.take_succ_cons, same]
                      cases n with
                      | zero => rw [List.take_zero, collapse_single word]; exact .inl rfl
                      | succ n =>
                          rw [List.take_succ_cons, collapse_word word inner, ← List.take_succ_cons,
                            ← same]
                          rcases ih (n + 1) with whole | cut
                          · exact .inl (congrArg (c :: ·) whole)
                          · exact .inr (congrArg (c :: ·) cut)
                  | true =>
                      rw [collapse_gap word inner]
                      split_ifs with nothing
                      · rw [List.take_succ_cons, List.take_nil, collapse_single word]
                        exact .inl rfl
                      rcases n with - | - | n
                      · rw [List.take_succ_cons, List.take_zero, collapse_single word]
                        exact .inl rfl
                      · rw [List.take_succ_cons, List.take_succ_cons, List.take_zero,
                          collapse_gap word space, if_pos collapse_nil]
                        exact .inr rfl
                      · obtain ⟨e, rest, same, start⟩ := (collapse_start text).resolve_left nothing
                        have some : collapse blank ((collapse blank text).take (n + 1)) ≠ [] := by
                          obtain ⟨tail, begins⟩ := @collapse_head blank e (rest.take n) start
                          rw [same, List.take_succ_cons, begins]
                          exact List.cons_ne_nil e tail
                        rw [List.take_succ_cons, List.take_succ_cons, collapse_gap word space,
                          if_neg some]
                        have behind := ih (n + 1)
                        rw [collapse_blank inner] at behind
                        rcases behind with whole | cut
                        · exact .inl (congrArg (c :: ' ' :: ·) whole)
                        · exact .inr (congrArg (c :: ' ' :: ·) cut)

theorem RunClass.Absent.collapse {kind : RunClass Char} (absent : kind.Absent text)
    (space : blank ' ' = true) (other : ∀ c, blank c = true → kind.letter c = false)
    (linked : ∀ before run, (∀ c ∈ before, blank c = true) → kind.secret before run = true →
      ∀ c, blank c = true → kind.secret (some c) run = true) :
    kind.Absent (collapse blank text) := by
  obtain ⟨lead, core, trail, rfl, before, -, -, gaps⟩ := @collapse_gaps blank text
  intro written out split
  by_contra secret
  rw [Bool.not_eq_false] at secret
  cases out with
  | nil => rw [List.takeWhile_nil, kind.nonempty] at secret; exact Bool.false_ne_true secret
  | cons c out =>
      have letter : kind.letter c = true := by
        by_contra outside
        rw [List.takeWhile_cons_of_neg outside, kind.nonempty] at secret
        exact Bool.false_ne_true secret
      rw [split] at gaps
      obtain ⟨first, second, rfl, front, behind⟩ := gaps.split fun taken put gap held => by
        rw [gap.2.2, List.mem_singleton] at held
        rw [held, other ' ' space] at letter
        exact Bool.false_ne_true letter
      have shorter : (c :: out).takeWhile kind.letter <+: (c :: second).takeWhile kind.letter :=
        (behind.keep c).takeWhile fun _ _ gap => ⟨' ', [], gap.2.2, other ' ' space⟩
      have known : kind.secret (first.getLast?.or lead.getLast?)
          ((c :: out).takeWhile kind.letter) = true := by
        have edges := front.getLast? fun taken put gap =>
          ⟨gap.1, by rw [gap.2.2]; exact List.cons_ne_nil _ _⟩
        rcases edges with same | ⟨taken, put, gap, ends, ends'⟩
        · rw [same] at secret
          cases last : first.getLast? with
          | some d => rwa [last] at secret
          | none =>
              rw [last] at secret
              cases blank' : lead.getLast? with
              | none => exact secret
              | some d =>
                  exact linked none _ (by simp) secret d (before d (List.mem_of_getLast? blank'))
        · rw [ends', gap.2.2] at secret
          rw [ends, List.getLast?_eq_some_getLast gap.1]
          exact linked _ _ (by simpa using space) secret _ (gap.2.1 _ (List.getLast_mem gap.1))
      have there := absent (lead ++ first) (c :: second ++ trail) (by simp)
      rw [List.getLast?_append,
        kind.longer known (shorter.trans takeWhile_append_prefix)] at there
      exact Bool.false_ne_true there.symm

end Blanks

end Forge.Library.Rewriting
