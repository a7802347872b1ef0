import Forge.CloneRedaction

/-! The credentials of URLs in a clone error: what the scanner finds, and what it cannot see. -/

namespace Forge.CloneUserinfo

open Forge.CloneRedaction
open Forge.OrchestrationView (isWhitespace)
open Library.Rewriting

section Scanner

variable {before : Option Char} {text taken put : List Char}

theorem afterLastAt_spec (authority : List Char) :
    '@' ∉ afterLastAt authority ∧ (afterLastAt authority = authority ∨
      ∃ removed, authority = removed ++ '@' :: afterLastAt authority) := by
  unfold afterLastAt
  by_cases held : '@' ∈ authority
  · obtain ⟨behind, front, split, last⟩ :=
      List.eq_append_cons_of_mem (List.mem_reverse.2 held)
    have parts : authority = front.reverse ++ '@' :: behind.reverse := by
      have back := congrArg List.reverse split
      simpa using back
    have last' : '@' ∉ behind.reverse := fun held => last (List.mem_reverse.1 held)
    rw [parts, List.splitOn_append_cons_self, List.splitOn_eq_singleton last',
      List.getLast?_concat, Option.getD_some]
    exact ⟨last', .inr ⟨front.reverse, rfl⟩⟩
  · rw [List.splitOn_eq_singleton held, List.getLast?_singleton, Option.getD_some]
    exact ⟨held, .inl rfl⟩

theorem userinfo_scheme (rest : List Char) :
    userinfo before (schemeEnd ++ rest) =
      some (schemeEnd ++ rest.takeWhile (fun c => !delimiter c),
        schemeEnd ++ afterLastAt (rest.takeWhile fun c => !delimiter c)) :=
  rfl

theorem userinfo_eq_none (other : ¬ schemeEnd <+: text) : userinfo before text = none := by
  unfold userinfo
  split
  · exact absurd (List.prefix_append schemeEnd _) other
  · rfl

theorem scheme_of_userinfo (found : userinfo before text = some (taken, put)) :
    ∃ rest, text = schemeEnd ++ rest ∧
      taken = schemeEnd ++ rest.takeWhile (fun c => !delimiter c) ∧
        put = schemeEnd ++ afterLastAt (rest.takeWhile fun c => !delimiter c) := by
  by_cases begins : schemeEnd <+: text
  · obtain ⟨rest, rfl⟩ := begins
    rw [userinfo_scheme] at found
    obtain ⟨rfl, rfl⟩ := Prod.mk.inj (Option.some.inj found)
    exact ⟨rest, rfl, rfl, rfl⟩
  · rw [userinfo_eq_none begins] at found
    cases found

theorem not_scheme_of_none (kept : userinfo before text = none) : ¬ schemeEnd <+: text := by
  rintro ⟨rest, rfl⟩
  rw [userinfo_scheme] at kept
  cases kept

theorem userinfo_proper : Proper userinfo := by
  intro before text taken put found
  obtain ⟨rest, rfl, rfl, -⟩ := scheme_of_userinfo found
  exact ⟨List.cons_ne_nil _ _,
    (List.prefix_append_right_inj schemeEnd).2 (List.takeWhile_prefix _)⟩

end Scanner

section Dropping

variable {before : Option Char} {text out : List Char}

def Dropped (taken put : List Char) : Prop :=
  ∃ removed, taken = schemeEnd ++ (removed ++ ['@']) ∧ put = schemeEnd

theorem Rewrites.dropped (run : Rewrites userinfo before text out) :
    Blockwise Dropped text out := by
  induction run with
  | done before => exact .done
  | keep _ _ ih => exact .keep _ ih
  | swap _ found _ ih =>
      obtain ⟨rest, read, rfl, rfl⟩ := scheme_of_userinfo found
      rcases (afterLastAt_spec (rest.takeWhile fun c => !delimiter c)).2 with same | ⟨removed, same⟩
      · rw [same]
        exact (Blockwise.refl _).append ih
      · have block : Blockwise Dropped (schemeEnd ++ (removed ++ ['@'])) (schemeEnd) := by
          have block := Blockwise.block (show Dropped _ _ from ⟨removed, rfl, rfl⟩)
            Blockwise.done
          rwa [List.append_nil, List.append_nil] at block
        have whole := (block.append (.refl (afterLastAt (rest.takeWhile fun c => !delimiter c))))
        have parts : schemeEnd ++ rest.takeWhile (fun c => !delimiter c) =
            schemeEnd ++ (removed ++ ['@']) ++
              afterLastAt (rest.takeWhile fun c => !delimiter c) := by
          conv_lhs => rw [same]
          simp
        rw [parts]
        exact whole.append ih

theorem harmless_dropped : Harmless Dropped where
  some := by
    rintro _ _ ⟨removed, rfl, -⟩
    exact List.cons_ne_nil _ _
  begins := by
    rintro _ _ ⟨removed, -, rfl⟩
    exact ⟨':', _, rfl, by decide⟩
  fresh := by
    rintro _ _ ⟨removed, -, rfl⟩
    exact ⟨by decide, by decide⟩
  quiet := by
    rintro _ _ ⟨removed, rfl, -⟩ head tail behind parts nonempty begins
    obtain ⟨d, tail, rfl⟩ := List.exists_cons_of_ne_nil nonempty
    obtain ⟨rfl, -⟩ := List.cons_prefix_cons.1 begins
    have held : ':' ∈ redacted := by
      rw [parts]
      exact List.mem_append_right head List.mem_cons_self
    revert held
    decide
  stops := by
    rintro _ _ ⟨removed, rfl, -⟩ stops
    exact absurd (stops ':' rfl) (by decide)

end Dropping

/-- The scanner meets no userinfo when it reads the text. -/
inductive Bare : List Char → Prop
  | done : Bare []
  | keep {c : Char} {rest : List Char} : ¬ schemeEnd <+: c :: rest → Bare rest → Bare (c :: rest)
  | url {authority rest : List Char} : (∀ c ∈ authority, delimiter c = false ∧ c ≠ '@') →
      Stops (fun c => !delimiter c) rest → Bare rest → Bare (schemeEnd ++ (authority ++ rest))

section Bare

variable {before : Option Char} {text out front rest : List Char}

theorem not_scheme_of_ne {c : Char} (other : c ≠ ':') : ¬ schemeEnd <+: c :: rest :=
  fun begins => other (List.cons_prefix_cons.1 begins).1.symm

theorem Bare.append (plain : ∀ c ∈ front, c ≠ ':') (bare : Bare text) : Bare (front ++ text) := by
  induction front with
  | nil => exact bare
  | cons c front ih =>
      obtain ⟨here, behind⟩ := List.forall_mem_cons.1 plain
      exact .keep (not_scheme_of_ne here) (ih behind)

theorem Bare.of_append (plain : ∀ c ∈ front, c ≠ ':') (bare : Bare (front ++ text)) :
    Bare text := by
  induction front with
  | nil => exact bare
  | cons c front ih =>
      obtain ⟨here, behind⟩ := List.forall_mem_cons.1 plain
      rw [List.cons_append] at bare
      generalize whole : c :: (front ++ text) = read at bare
      cases bare with
      | done => cases whole
      | keep _ bare =>
          obtain ⟨rfl, rfl⟩ := List.cons.inj whole
          exact ih behind bare
      | url _ _ _ => exact absurd (List.cons.inj whole).1 here

theorem Bare.rewrites (bare : Bare text) : Rewrites userinfo before text text := by
  induction bare generalizing before with
  | done => exact .done before
  | keep other _ ih => exact .keep (userinfo_eq_none other) ih
  | @url authority rest plain stops _ ih =>
      have read : (authority ++ rest).takeWhile (fun c => !delimiter c) = authority :=
        takeWhile_stops (fun c held => by rw [(plain c held).1]; rfl) stops
      have clean : '@' ∉ authority := fun held => (plain '@' held).2 rfl
      have same : afterLastAt authority = authority := by
        rcases (afterLastAt_spec authority).2 with same | ⟨removed, parts⟩
        · exact same
        · refine absurd ?_ clean
          rw [parts]
          exact List.mem_append_right removed List.mem_cons_self
      have found := @userinfo_scheme before (authority ++ rest)
      rw [read, same, ← List.append_assoc] at found
      rw [← List.append_assoc]
      exact .swap (List.cons_ne_nil _ _) found ih

theorem Bare.redactUrlUserinfo (bare : Bare text) : redactUrlUserinfo text = text :=
  bare.rewrites.eq

theorem slashes_of_blockwise {swap : List Char → List Char → Prop}
    (other : ∀ taken put, swap taken put → ∃ c tail, put = c :: tail ∧ c ≠ '/')
    (run : Blockwise swap text ('/' :: '/' :: out)) :
    ∃ rest, text = '/' :: '/' :: rest ∧ Blockwise swap rest out := by
  refine @Blockwise.verbatim _ _ text ['/', '/'] out ?_ run
  intro head tail parts some taken put swapped begins
  obtain ⟨c, put, rfl, slash⟩ := other _ _ swapped
  obtain ⟨d, tail, rfl⟩ := List.exists_cons_of_ne_nil some
  obtain ⟨rfl, -⟩ := List.cons_prefix_cons.1 begins
  have held : c ∈ ['/', '/'] := parts ▸ List.mem_append_right head List.mem_cons_self
  simp only [List.mem_cons, List.not_mem_nil, or_false, or_self] at held
  exact slash held

theorem dropped_head {taken put : List Char} (swapped : Dropped taken put) :
    ∃ c tail, put = c :: tail ∧ c ≠ '/' := by
  obtain ⟨removed, -, rfl⟩ := swapped
  exact ⟨':', _, rfl, by decide⟩

theorem stops_dropped (run : Blockwise Dropped text out)
    (stops : Stops (fun c => !delimiter c) text) : Stops (fun c => !delimiter c) out := by
  refine run.stops harmless_dropped.some ?_ stops
  rintro _ _ ⟨removed, rfl, -⟩ stops
  exact absurd (stops ':' rfl) (by decide)

theorem bare_of_rewrites (run : Rewrites userinfo before text out) : Bare out := by
  induction run with
  | done before => exact .done
  | @keep before c rest out kept run ih =>
      refine .keep ?_ ih
      rintro ⟨more, begins⟩
      obtain ⟨rfl, rfl⟩ := List.cons.inj begins
      obtain ⟨rest, rfl, -⟩ :=
        slashes_of_blockwise (fun _ _ swapped => dropped_head swapped) (Rewrites.dropped run)
      exact not_scheme_of_none kept ⟨rest, rfl⟩
  | @swap before taken put rest out _ found run ih =>
      obtain ⟨behind, read, rfl, rfl⟩ := scheme_of_userinfo found
      rw [List.append_assoc, List.append_cancel_left_eq] at read
      have ended : rest = behind.dropWhile fun c => !delimiter c := by
        refine @List.append_cancel_left _ (behind.takeWhile fun c => !delimiter c) _ _ ?_
        rw [read, List.takeWhile_append_dropWhile]
      obtain ⟨clean, same⟩ := afterLastAt_spec (behind.takeWhile fun c => !delimiter c)
      rw [List.append_assoc]
      refine .url (fun c held => ⟨?_, fun at' => clean (at' ▸ held)⟩) ?_ ih
      · have part : c ∈ behind.takeWhile fun c => !delimiter c := by
          rcases same with same | ⟨removed, parts⟩
          · rwa [same] at held
          · rw [parts]
            exact List.mem_append_right removed (List.mem_cons_of_mem _ held)
        have letter := List.mem_takeWhile_imp part
        rwa [Bool.not_eq_true'] at letter
      · refine stops_dropped (Rewrites.dropped run) ?_
        rw [ended]
        exact stops_dropWhile _ behind

theorem bare_redactUrlUserinfo (raw : List Char) : Bare (CloneRedaction.redactUrlUserinfo raw) :=
  bare_of_rewrites (rewrites_replaceAll userinfo_proper raw)

theorem Bare.beginning {whole : List Char} (bare : Bare whole) (part : text <+: whole) :
    Bare text := by
  obtain ⟨back, split⟩ := part
  induction bare generalizing text with
  | done =>
      rw [(List.append_eq_nil_iff.1 split).1]
      exact .done
  | @keep c rest other _ ih =>
      cases text with
      | nil => exact .done
      | cons d text =>
          obtain ⟨rfl, behind⟩ := List.cons.inj split
          refine .keep (fun begins => other ?_) (ih behind)
          exact begins.trans (List.cons_prefix_cons.2 ⟨rfl, ⟨back, behind⟩⟩)
  | @url authority rest plain stops _ ih =>
      rcases List.append_eq_append_iff.1 split with ⟨left, parts, -⟩ | ⟨left, rfl, parts⟩
      · -- the text ends within the separator
        rcases text with - | ⟨a, - | ⟨b, - | ⟨c, text⟩⟩⟩
        · exact .done
        · simp only [schemeEnd, List.cons_append, List.cons.injEq] at parts
          obtain ⟨rfl, -⟩ := parts
          exact .keep (by decide) .done
        · simp only [schemeEnd, List.cons_append, List.cons.injEq] at parts
          obtain ⟨rfl, rfl, -⟩ := parts
          exact .keep (by decide) (.keep (by decide) .done)
        · simp only [schemeEnd, List.cons_append, List.cons.injEq, List.nil_eq,
            List.append_eq_nil_iff] at parts
          obtain ⟨rfl, rfl, rfl, rfl, -⟩ := parts
          exact @Bare.url [] [] (by simp) (by simp [Stops]) .done
      · rcases List.append_eq_append_iff.1 parts with ⟨more, rfl, rfl⟩ | ⟨more, rfl, -⟩
        · refine .url plain (fun c head => stops c ?_) (ih rfl)
          rw [List.head?_append, Option.mem_def.1 head]
          rfl
        · have cut : Bare (schemeEnd ++ (left ++ [])) :=
            .url (fun c held => plain c (List.mem_append_left more held)) (by simp [Stops]) .done
          rwa [List.append_nil] at cut

/-- Blocks in which no separator of a URL stands. -/
structure Tame (swap : List Char → List Char → Prop) : Prop where
  taken : ∀ taken put, swap taken put → taken ≠ [] ∧ ∀ c ∈ taken, c ∉ ":/@".toList
  put : ∀ taken put, swap taken put → put ≠ [] ∧ ∀ c ∈ put, c ∉ ":/@".toList

def Even (swap : List Char → List Char → Prop) : Prop :=
  ∀ taken put, swap taken put → ∃ side, (∀ c ∈ taken, delimiter c = side) ∧
    ∀ c ∈ put, delimiter c = side

variable {swap : List Char → List Char → Prop}

theorem Blockwise.cut (even : Even swap)
    (plain : ∀ c ∈ front, delimiter c = false) (stops : Stops (fun c => !delimiter c) rest)
    (run : Blockwise swap (front ++ rest) out) :
    ∃ first second, out = first ++ second ∧ Blockwise swap front first ∧
      Blockwise swap rest second := by
  generalize whole : front ++ rest = text at run
  induction run generalizing front with
  | done =>
      obtain ⟨rfl, rfl⟩ := List.append_eq_nil_iff.1 whole
      exact ⟨[], [], rfl, .done, .done⟩
  | @keep text out c run ih =>
      cases front with
      | nil =>
          rw [List.nil_append] at whole
          exact ⟨[], c :: out, rfl, .done, whole ▸ .keep c run⟩
      | cons d front =>
          obtain ⟨rfl, parts⟩ := List.cons.inj whole
          obtain ⟨first, second, rfl, one, two⟩ :=
            ih (fun c held => plain c (List.mem_cons_of_mem _ held)) parts
          exact ⟨d :: first, second, rfl, .keep d one, two⟩
  | @block taken put text out swapped run ih =>
      rcases List.append_eq_append_iff.1 whole with ⟨more, rfl, rfl⟩ | ⟨left, rfl, rfl⟩
      · cases front with
        | nil => exact ⟨[], put ++ out, rfl, .done, .block swapped run⟩
        | cons d front =>
            cases more with
            | nil =>
                rw [List.append_nil] at swapped
                refine ⟨put, out, rfl, ?_, run⟩
                have one := Blockwise.block swapped .done
                rwa [List.append_nil, List.append_nil] at one
            | cons e more =>
                -- the block would hold a delimiter and a letter that is none
                obtain ⟨side, same, -⟩ := even _ _ swapped
                have inner := plain d List.mem_cons_self
                have edge : (!delimiter e) = false := stops e rfl
                rw [same d (by simp)] at inner
                rw [same e (by simp), inner] at edge
                exact absurd edge (by decide)
      · obtain ⟨first, second, rfl, one, two⟩ :=
          ih (fun c held => plain c (List.mem_append_right _ held)) rfl
        exact ⟨put ++ first, second, (List.append_assoc ..).symm, .block swapped one, two⟩

theorem Tame.head (tame : Tame swap) {taken put : List Char} (swapped : swap taken put) :
    ∃ c tail, put = c :: tail ∧ c ≠ '/' := by
  obtain ⟨some, plain⟩ := tame.put _ _ swapped
  obtain ⟨c, tail, rfl⟩ := List.exists_cons_of_ne_nil some
  exact ⟨c, tail, rfl, fun same => plain c List.mem_cons_self (same ▸ by decide)⟩

theorem Bare.blockwise (tame : Tame swap) (even : Even swap) (bare : Bare text)
    (run : Blockwise swap text out) : Bare out := by
  induction size : text.length using Nat.strong_induction_on generalizing text out with
  | _ bound ih =>
  have colon {part : List Char} (plain : ∀ c ∈ part, c ∉ ":/@".toList) : ∀ c ∈ part, c ≠ ':' :=
    fun c held same => plain c held (same ▸ by decide)
  cases bare with
  | done =>
      rw [run.eq_nil fun _ _ swapped => (tame.taken _ _ swapped).1]
      exact .done
  | @keep c rest other bare =>
      generalize whole : c :: rest = text at run
      cases run with
      | done => cases whole
      | @keep rest' out d run =>
          obtain ⟨rfl, rfl⟩ := List.cons.inj whole
          refine .keep ?_ (ih _ (by rw [← size, List.length_cons]; omega) bare run rfl)
          rintro ⟨more, begins⟩
          obtain ⟨rfl, rfl⟩ := List.cons.inj begins
          obtain ⟨rest, rfl, -⟩ := slashes_of_blockwise (fun _ _ swapped => tame.head swapped) run
          exact other ⟨rest, rfl⟩
      | @block taken put rest' out swapped run =>
          obtain ⟨some, plain⟩ := tame.taken _ _ swapped
          have behind : Bare rest' :=
            Bare.of_append (colon plain) (by rw [← whole]; exact .keep other bare)
          have shorter : rest'.length < bound := by
            rw [← size, whole, List.length_append]
            have := List.length_pos_of_ne_nil some
            omega
          exact (ih _ shorter behind run rfl).append (colon (tame.put _ _ swapped).2)
  | @url authority rest plain stops bare =>
      obtain ⟨after, rfl, inner⟩ := run.verbatim_text
        fun head tail (parts : schemeEnd = head ++ tail) some taken put swapped begins => by
          obtain ⟨nonempty, fine⟩ := tame.taken _ _ swapped
          obtain ⟨c, taken, rfl⟩ := List.exists_cons_of_ne_nil nonempty
          obtain ⟨d, tail, rfl⟩ := List.exists_cons_of_ne_nil some
          obtain ⟨rfl, -⟩ := List.cons_prefix_cons.1 begins
          have held : c ∈ schemeEnd := parts ▸ List.mem_append_right head List.mem_cons_self
          have every : ∀ d ∈ schemeEnd, d ∈ ":/@".toList := forall_of_all (by decide)
          exact fine c List.mem_cons_self (every c held)
      obtain ⟨first, second, rfl, one, two⟩ :=
        Blockwise.cut even (fun c held => (plain c held).1) stops inner
      refine .url ?_ ?_ (ih _ ?_ bare two rfl)
      · refine one.forall_mem (fun c fine => fine) (fun taken put swapped fine => ?_) plain
        obtain ⟨side, same, same'⟩ := even _ _ swapped
        obtain ⟨some, -⟩ := tame.taken _ _ swapped
        obtain ⟨c, taken, rfl⟩ := List.exists_cons_of_ne_nil some
        have none := (fine c List.mem_cons_self).1
        rw [same c List.mem_cons_self] at none
        exact fun d held => ⟨(same' d held).trans none,
          fun at' => (tame.put _ _ swapped).2 d held (at' ▸ by decide)⟩
      · refine two.stops (fun _ _ swapped => (tame.taken _ _ swapped).1) ?_ stops
        intro taken put swapped ends
        obtain ⟨side, same, same'⟩ := even _ _ swapped
        obtain ⟨some, -⟩ := tame.taken _ _ swapped
        obtain ⟨c, taken, rfl⟩ := List.exists_cons_of_ne_nil some
        have edge : (!delimiter c) = false := ends c rfl
        refine ⟨(tame.put _ _ swapped).1, fun d head => ?_⟩
        change (!delimiter d) = false
        rw [same' d (List.mem_of_mem_head? head), ← same c List.mem_cons_self]
        exact edge
      · rw [← size]
        simp only [schemeEnd, List.length_append, List.length_cons]
        omega

theorem Bare.nested {word back : List Char} (bare : Bare text)
    (plain : ∀ c ∈ word, delimiter c = false)
    (split : text = front ++ (schemeEnd ++ (word ++ '@' :: back))) :
    ∃ first second, front = first ++ (schemeEnd ++ second) ∧
      ∀ c ∈ second, delimiter c = false := by
  induction bare generalizing front with
  | done => simp [schemeEnd] at split
  | @keep c rest other _ ih =>
      cases front with
      | nil => exact absurd ⟨_, split.symm⟩ other
      | cons d front =>
          obtain ⟨first, second, rfl, inner⟩ := ih (List.cons.inj split).2
          exact ⟨d :: first, second, rfl, inner⟩
  | @url authority rest fine stops _ ih =>
      rcases List.append_eq_append_iff.1 split with ⟨left, rfl, parts⟩ | ⟨left, ends, parts⟩
      · rcases List.append_eq_append_iff.1 parts with ⟨more, rfl, behind⟩ | ⟨more, rfl, -⟩
        · obtain ⟨first, second, rfl, inner⟩ := ih behind
          exact ⟨schemeEnd ++ (authority ++ first), second, by simp, inner⟩
        · exact ⟨[], left, rfl, fun c held => (fine c (List.mem_append_left more held)).1⟩
      · rcases front with - | ⟨a, - | ⟨b, - | ⟨c, front⟩⟩⟩
        · -- the authority itself would hold the sign
          rw [List.nil_append] at ends
          subst ends
          rw [List.append_cancel_left_eq] at parts
          rcases List.append_eq_append_iff.1 parts with ⟨more, rfl, behind⟩ | ⟨more, rfl, behind⟩
          · cases more with
            | nil =>
                rw [List.nil_append] at behind
                exact absurd (stops '@' (by rw [← behind]; rfl)) (by decide)
            | cons d more =>
                obtain ⟨rfl, -⟩ := List.cons.inj behind
                have held : '@' ∈ word ++ '@' :: more :=
                  List.mem_append_right word List.mem_cons_self
                exact absurd rfl (fine '@' held).2
          · cases more with
            | nil =>
                rw [List.nil_append] at behind
                exact absurd (stops '@' (by rw [behind]; rfl)) (by decide)
            | cons d more =>
                have edge : (!delimiter d) = false := stops d (by rw [behind]; rfl)
                rw [plain d (List.mem_append_right authority List.mem_cons_self)] at edge
                exact absurd edge (by decide)
        · simp only [schemeEnd, List.cons_append, List.nil_append, List.cons.injEq] at ends
          obtain ⟨-, rfl⟩ := ends
          simp [schemeEnd] at parts
        · simp only [schemeEnd, List.cons_append, List.nil_append, List.cons.injEq] at ends
          obtain ⟨-, -, rfl⟩ := ends
          simp [schemeEnd] at parts
        · simp only [schemeEnd, List.cons_append, List.cons.injEq, List.nil_eq,
            List.append_eq_nil_iff] at ends
          obtain ⟨rfl, rfl, rfl, rfl, -⟩ := ends
          exact ⟨[], [], rfl, by simp⟩

theorem bare_of_clean (clean : ∀ front rest, text = front ++ (schemeEnd ++ rest) →
    '@' ∉ rest.takeWhile fun c => !delimiter c) : Bare text := by
  induction size : text.length using Nat.strong_induction_on generalizing text with
  | _ bound ih =>
  cases text with
  | nil => exact .done
  | cons c text =>
      by_cases begins : schemeEnd <+: c :: text
      · obtain ⟨rest, whole⟩ := begins
        have parts := (List.takeWhile_append_dropWhile (p := fun c => !delimiter c)
          (l := rest)).symm
        have none := clean [] rest whole.symm
        rw [← whole, parts]
        refine .url (fun c held => ?_) (stops_dropWhile _ rest) (ih _ ?_ ?_ rfl)
        · have letter := List.mem_takeWhile_imp held
          rw [Bool.not_eq_true'] at letter
          exact ⟨letter, fun same => none (same ▸ held)⟩
        · have shorter := congrArg List.length parts
          rw [List.length_append] at shorter
          rw [← size, ← whole, List.length_append]
          simp only [schemeEnd, List.length_cons]
          omega
        · intro front rest' split
          refine clean (schemeEnd ++ (rest.takeWhile (fun c => !delimiter c) ++ front)) rest' ?_
          rw [← whole, List.append_assoc, List.append_assoc, ← split,
            List.takeWhile_append_dropWhile]
      · refine .keep begins (ih _ (by rw [← size, List.length_cons]; omega) ?_ rfl)
        intro front rest split
        exact clean (c :: front) rest (by rw [split]; rfl)

end Bare

def Covered (fine : Char → Prop) (text : List Char) : Prop :=
  ∀ front word back, text = front ++ (schemeEnd ++ (word ++ '@' :: back)) →
    (∀ c ∈ word, delimiter c = false) →
      ∃ first second, front = first ++ (schemeEnd ++ second) ∧ ∀ c ∈ second, fine c

section Covered

variable {fine fine' : Char → Prop} {swap : List Char → List Char → Prop} {text out : List Char}

theorem Bare.covered (bare : Bare text) (every : ∀ c ∈ text, delimiter c = false → fine c) :
    Covered fine text := by
  intro front word back split plain
  obtain ⟨first, second, rfl, inner⟩ := bare.nested plain split
  refine ⟨first, second, rfl, fun c held => every c ?_ (inner c held)⟩
  rw [split]
  simp [held]

theorem Covered.beginning {whole : List Char} (covered : Covered fine whole)
    (part : text <+: whole) : Covered fine text := by
  obtain ⟨more, rfl⟩ := part
  intro front word back split plain
  exact covered front word (back ++ more) (by rw [split]; simp) plain

theorem Covered.of_suffix {lead : List Char} (plain : ∀ c ∈ lead, c ≠ ':')
    (covered : Covered fine (lead ++ text)) : Covered fine text := by
  intro front word back split inner
  obtain ⟨first, second, parts, every⟩ :=
    covered (lead ++ front) word back (by rw [split, List.append_assoc]) inner
  rcases List.append_eq_append_iff.1 parts with ⟨more, rfl, rfl⟩ | ⟨more, rfl, ends⟩
  · exact ⟨more, second, rfl, every⟩
  · cases more with
    | nil => exact ⟨[], second, ends.symm, every⟩
    | cons c more =>
        obtain ⟨rfl, -⟩ := List.cons.inj ends
        exact absurd rfl (plain ':' (List.mem_append_right first List.mem_cons_self))

theorem Tame.fresh (tame : Tame swap) {c : Char} (separator : c ∈ ":/@".toList) :
    (∀ taken put, swap taken put → c ∉ put) ∧ ∀ taken put, swap taken put → c ∉ taken :=
  ⟨fun _ _ swapped held => (tame.put _ _ swapped).2 c held separator,
    fun _ _ swapped held => (tame.taken _ _ swapped).2 c held separator⟩

theorem Covered.blockwise (tame : Tame swap)
    (back : ∀ taken put, swap taken put → (∀ c ∈ put, delimiter c = false) →
      ∀ c ∈ taken, delimiter c = false)
    (kept : ∀ c, fine c → fine' c)
    (swaps : ∀ taken put, swap taken put → (∀ c ∈ taken, fine c) → ∀ c ∈ put, fine' c)
    (covered : Covered fine text) (run : Blockwise swap text out) : Covered fine' out := by
  intro front word behind split plain
  rw [split] at run
  obtain ⟨first, rest, rfl, one, later⟩ := run.split (tame.fresh (c := ':') (by decide)).1
  obtain ⟨rest, rfl, after⟩ := slashes_of_blockwise (fun _ _ swapped => tame.head swapped) later
  obtain ⟨inner, rest, rfl, two, -⟩ := after.split (tame.fresh (c := '@') (by decide)).1
  have inner' : ∀ c ∈ inner, delimiter c = false :=
    two.flip.forall_mem (fun c plain => plain) (fun put taken swapped => back taken put swapped)
      plain
  obtain ⟨first, second, rfl, every⟩ := covered first inner rest (by simp [schemeEnd]) inner'
  obtain ⟨first', rest', rfl, -, left⟩ := one.split_text (tame.fresh (c := ':') (by decide)).2
  obtain ⟨second', rfl, last⟩ := slashes_of_blockwise
    (fun put taken swapped => by
      obtain ⟨some, plain⟩ := tame.taken _ _ swapped
      obtain ⟨c, tail, rfl⟩ := List.exists_cons_of_ne_nil some
      exact ⟨c, tail, rfl, fun same => plain c List.mem_cons_self (same ▸ by decide)⟩) left.flip
  exact ⟨first', second', rfl, last.flip.forall_mem kept swaps every⟩

end Covered

end Forge.CloneUserinfo
