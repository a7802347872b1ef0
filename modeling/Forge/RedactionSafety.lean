import Forge.CloneUserinfo

/-! What a redacted clone error still shows, whatever git printed. -/

namespace Forge.RedactionSafety

open Forge.CloneRedaction
open Forge.CloneUserinfo
open Forge.OrchestrationView (isWhitespace)
open Library.Rewriting

section Passes

variable {isWord : Char → Bool} {raw : List Char}

def message (isWord : Char → Bool) (raw : List Char) : List Char :=
  collapseWhitespace (redactTokenLike isWord (redactUrlUserinfo (redactQueryParamValues raw)))

theorem redact_eq : redact isWord raw = (message isWord raw).take errorMessageMax := by
  change truncateChars (message isWord raw) errorMessageMax = _
  unfold truncateChars
  split_ifs with short
  · rw [List.take_of_length_le short]
  · rfl

theorem redact_begins : redact isWord raw <+: message isWord raw := by
  rw [redact_eq]
  exact List.take_prefix ..

theorem prefixedToken_absent_message (wordless : ∀ c, isWhitespace c = true → isWord c = false) :
    (prefixedToken isWord).Absent (message isWord raw) := by
  refine (prefixedToken_absent _).collapse rfl (fun c blank => (whitespace_apart blank).2.1) ?_
  intro before run _ secret c blank
  simp only [prefixedToken, Bool.and_eq_true] at secret ⊢
  exact ⟨by simp [wordless c blank], secret.2⟩

theorem opaqueRun_absent_message : opaqueRun.Absent (message isWord raw) := by
  refine (opaqueRun_absent _).collapse rfl (fun c blank => ?_) fun _ _ _ secret _ _ => secret
  by_contra letter
  rw [Bool.not_eq_false] at letter
  have word := (whitespace_apart blank).2.1
  rw [tokenChar_of_isAlphanum letter] at word
  exact Bool.false_ne_true word.symm

theorem hidden_message : Hidden (message isWord raw) := by
  have stripped : Hidden (redactUrlUserinfo (redactQueryParamValues raw)) :=
    (hidden_redactQueryParamValues raw).blockwise harmless_dropped
      (Rewrites.dropped (rewrites_replaceAll userinfo_proper _))
  obtain ⟨text, first, second⟩ :=
    redactTokenLike_swaps isWord (redactUrlUserinfo (redactQueryParamValues raw))
  have scrubbed := (stripped.blockwise harmless_tokenSwap first).blockwise harmless_tokenSwap second
  obtain ⟨lead, core, trail, parts, -, trailing, -, gaps⟩ := @collapse_gaps isWhitespace
    (redactTokenLike isWord (redactUrlUserinfo (redactQueryParamValues raw)))
  rw [parts] at scrubbed
  have ends : Stops valueChar trail := by
    intro c head
    have blank := trailing c (List.mem_of_mem_head? head)
    unfold valueChar
    rw [blank]
    simp
  rw [List.append_assoc] at scrubbed
  exact (scrubbed.of_suffix.of_append ends).blockwise harmless_gap gaps

end Passes

section Letters

variable {isWord : Char → Bool} {raw : List Char} {P : Char → Prop}

theorem redacted_plain : ∀ c ∈ redacted, isWhitespace c = false ∧ delimiter c = false :=
  forall_of_all (by decide)

theorem forall_mem_stripped (word : ∀ c, isWhitespace c = false → P c) (every : ∀ c ∈ raw, P c) :
    ∀ c ∈ redactUrlUserinfo (redactQueryParamValues raw), P c := by
  have masked : ∀ c ∈ redactQueryParamValues raw, P c := by
    refine (Rewrites.paramSwap (rewrites_replaceAll queryParam_proper raw)).forall_mem
      (fun c fine => fine) ?_ every
    rintro _ _ ⟨introducer, name, value, -, -, -, rfl, rfl⟩ fine
    obtain ⟨here, rest⟩ := List.forall_mem_cons.1 fine
    obtain ⟨named, rest⟩ := List.forall_mem_append.1 rest
    refine List.forall_mem_cons.2 ⟨here, List.forall_mem_append.2 ⟨named, ?_⟩⟩
    exact List.forall_mem_cons.2 ⟨(List.forall_mem_cons.1 rest).1,
      fun c held => word c (redacted_plain c held).1⟩
  refine (Rewrites.dropped (rewrites_replaceAll userinfo_proper _)).forall_mem
    (fun c fine => fine) ?_ masked
  rintro _ _ ⟨removed, rfl, rfl⟩ fine
  exact (List.forall_mem_append.1 fine).1

theorem forall_mem_tokenLike (word : ∀ c, isWhitespace c = false → P c)
    (every : ∀ c ∈ raw, P c) : ∀ c ∈ redactTokenLike isWord raw, P c := by
  have swaps taken put (swapped : TokenSwap taken put) (_ : ∀ c ∈ taken, P c) :
      ∀ c ∈ put, P c := by
    rw [swapped.2.2]
    exact fun c held => word c (redacted_plain c held).1
  obtain ⟨text, first, second⟩ := redactTokenLike_swaps isWord raw
  exact second.forall_mem (fun c fine => fine) swaps
    (first.forall_mem (fun c fine => fine) swaps every)

end Letters

section Urls

variable {isWord : Char → Bool} {raw : List Char}

theorem tame_tokenSwap : Tame TokenSwap where
  taken := by
    rintro taken put ⟨long, every, -⟩
    refine ⟨fun none => by simp [none] at long, fun c held separator => ?_⟩
    refine (tokenChar_cases (every c held)).1 ?_
    have among : ∀ d ∈ ":/@".toList, d ∈ "[]:/@?#&= \"'".toList := forall_of_all (by decide)
    exact among c separator
  put := by
    rintro taken _ ⟨-, -, rfl⟩
    exact ⟨by decide, forall_of_all (by decide)⟩

theorem even_tokenSwap : Even TokenSwap := by
  rintro taken _ ⟨-, every, rfl⟩
  refine ⟨false, fun c held => ?_, fun c held => (redacted_plain c held).2⟩
  by_contra inner
  rw [Bool.not_eq_false] at inner
  have letter := every c held
  have known : ∀ d ∈ "/?# \t\n\r".toList, tokenChar d = false := forall_of_all (by decide)
  rw [known c (List.contains_iff_mem.1 inner)] at letter
  exact Bool.false_ne_true letter

theorem tame_gap : Tame (Gap isWhitespace) where
  taken := by
    rintro taken put ⟨nonempty, blanks, -⟩
    refine ⟨nonempty, fun c held separator => ?_⟩
    have known : ∀ d ∈ ":/@".toList, isWhitespace d = false := forall_of_all (by decide)
    have blank := blanks c held
    rw [known c separator] at blank
    exact Bool.false_ne_true blank
  put := by
    rintro taken _ ⟨-, -, rfl⟩
    exact ⟨by decide, forall_of_all (by decide)⟩

def Stray (raw : List Char) : Prop := ∃ c ∈ raw, isWhitespace c = true ∧ delimiter c = false

def Inner (raw : List Char) (c : Char) : Prop :=
  delimiter c = false ∧ (isWhitespace c = true → Stray raw)

def Between (raw : List Char) (c : Char) : Prop :=
  c ≠ '/' ∧ c ≠ '?' ∧ c ≠ '#' ∧ (c = ' ' → Stray raw)

theorem Inner.between {c : Char} (inner : Inner raw c) : Between raw c := by
  refine ⟨?_, ?_, ?_, ?_⟩
  all_goals
    rintro rfl
    exact absurd inner.1 (by decide)

theorem covered_message : Covered (Between raw) (message isWord raw) := by
  have stray : ∀ c ∈ redactUrlUserinfo (redactQueryParamValues raw),
      isWhitespace c = true → delimiter c = false → Stray raw := by
    refine forall_mem_stripped (fun c word blank => ?_) fun c held blank other =>
      ⟨c, held, blank, other⟩
    rw [word] at blank
    exact absurd blank Bool.false_ne_true
  have stripped : Covered (Inner raw) (redactUrlUserinfo (redactQueryParamValues raw)) :=
    (bare_redactUrlUserinfo (redactQueryParamValues raw)).covered
      fun c held other => ⟨other, fun blank => stray c held blank other⟩
  have marker : ∀ c ∈ redacted, Inner raw c := by
    intro c held
    obtain ⟨word, other⟩ := redacted_plain c held
    refine ⟨other, fun blank => ?_⟩
    rw [word] at blank
    exact absurd blank Bool.false_ne_true
  have token {text out : List Char} (covered : Covered (Inner raw) text)
      (run : Blockwise TokenSwap text out) : Covered (Inner raw) out := by
    refine covered.blockwise tame_tokenSwap ?_ (fun c fine => fine) ?_ run
    · intro taken put swapped plain
      obtain ⟨side, same, same'⟩ := even_tokenSwap _ _ swapped
      obtain ⟨some, -⟩ := tame_tokenSwap.put _ _ swapped
      obtain ⟨c, tail, rfl⟩ := List.exists_cons_of_ne_nil some
      have none := plain c List.mem_cons_self
      rw [same' c List.mem_cons_self] at none
      exact fun d held => (same d held).trans none
    · intro taken put swapped _
      rw [swapped.2.2]
      exact marker
  obtain ⟨text, first, second⟩ :=
    redactTokenLike_swaps isWord (redactUrlUserinfo (redactQueryParamValues raw))
  have scrubbed := token (token stripped first) second
  obtain ⟨lead, core, trail, parts, leading, -, -, gaps⟩ := @collapse_gaps isWhitespace
    (redactTokenLike isWord (redactUrlUserinfo (redactQueryParamValues raw)))
  rw [parts, List.append_assoc] at scrubbed
  have inner := (scrubbed.of_suffix fun c held same =>
    (whitespace_apart (leading c held)).2.2.2.1 same).beginning (List.prefix_append core trail)
  refine inner.blockwise tame_gap ?_ (fun c => Inner.between) ?_ gaps
  · rintro taken _ ⟨-, -, rfl⟩ plain
    exact absurd (plain ' ' List.mem_cons_self) (by decide)
  · rintro taken _ ⟨nonempty, blanks, rfl⟩ fine
    obtain ⟨c, taken, rfl⟩ := List.exists_cons_of_ne_nil nonempty
    have found := (fine c List.mem_cons_self).2 (blanks c List.mem_cons_self)
    simp only [List.mem_cons, List.not_mem_nil, or_false, forall_eq]
    exact ⟨by decide, by decide, by decide, fun _ => found⟩

theorem bare_message (plain : ∀ c ∈ raw, isWhitespace c = true → delimiter c = true) :
    Bare (message isWord raw) := by
  have word (c : Char) (other : isWhitespace c = false) :
      isWhitespace c = true → delimiter c = true := by
    rw [other]
    exact fun blank => absurd blank Bool.false_ne_true
  have every : ∀ c ∈ redactTokenLike isWord (redactUrlUserinfo (redactQueryParamValues raw)),
      isWhitespace c = true → delimiter c = true :=
    forall_mem_tokenLike word (forall_mem_stripped word plain)
  obtain ⟨text, first, second⟩ :=
    redactTokenLike_swaps isWord (redactUrlUserinfo (redactQueryParamValues raw))
  have scrubbed := ((bare_redactUrlUserinfo _).blockwise tame_tokenSwap even_tokenSwap
    first).blockwise tame_tokenSwap even_tokenSwap second
  obtain ⟨lead, core, trail, parts, leading, -, -, gaps⟩ := @collapse_gaps isWhitespace
    (redactTokenLike isWord (redactUrlUserinfo (redactQueryParamValues raw)))
  rw [parts, List.append_assoc] at scrubbed every
  have inner : Bare core := (scrubbed.of_append fun c held same =>
    (whitespace_apart (leading c held)).2.2.2.1 same).beginning (List.prefix_append core trail)
  have fine : ∀ c ∈ core, isWhitespace c = true → delimiter c = true := fun c held =>
    every c (List.mem_append_right _ (List.mem_append_left _ held))
  refine inner.blockwise ⟨?_, ?_⟩ ?_ (gaps.restrict fine)
  · exact fun taken put swapped => tame_gap.taken _ _ swapped.1
  · exact fun taken put swapped => tame_gap.put _ _ swapped.1
  · rintro taken _ ⟨⟨-, blanks, rfl⟩, fine⟩
    exact ⟨true, fun c held => fine c held (blanks c held), forall_of_all (by decide)⟩

end Urls

section Result

variable {isWord : Char → Bool} {raw : List Char}

theorem length_redact : (redact isWord raw).length ≤ errorMessageMax := by
  rw [redact_eq, List.length_take]
  exact Nat.min_le_left ..

theorem message_of_prefix (wordless : ∀ c, isWhitespace c = true → isWord c = false)
    {text rest : List Char} (part : text ++ rest <+: message isWord raw)
    (run : Rewrites queryParam none text (text ++ rest)) (bare : Bare (text ++ rest)) :
    message isWord text = text ++ rest ∨ message isWord text ++ [' '] = text ++ rest := by
  have query : redactQueryParamValues text = text ++ rest := run.eq
  have tokens : redactTokenLike isWord (text ++ rest) = text ++ rest := by
    have one : replaceAll ((prefixedToken isWord).rule redacted) (text ++ rest) = text ++ rest :=
      RunClass.replaceAll_of_absent ((prefixedToken_absent_message wordless).beginning part)
    have two : replaceAll (opaqueRun.rule redacted) (text ++ rest) = text ++ rest :=
      RunClass.replaceAll_of_absent (opaqueRun_absent_message.beginning part)
    change replaceAll _ (replaceAll _ (text ++ rest)) = _
    rw [one, two]
  unfold message
  rw [query, bare.redactUrlUserinfo, tokens, List.prefix_iff_eq_take.1 part]
  exact collapse_take rfl ..

theorem redact_again (wordless : ∀ c, isWhitespace c = true → isWord c = false)
    (bare : ∀ rest, rest <:+ redacted → redact isWord raw ++ rest <+: message isWord raw →
      Bare (redact isWord raw ++ rest)) :
    redact isWord (redact isWord raw) = redact isWord raw ∨
      redact isWord (redact isWord raw) ++ [' '] = redact isWord raw := by
  obtain ⟨more, whole⟩ := @redact_begins isWord raw
  obtain ⟨rest, last, ⟨behind, within⟩, run⟩ := rewrites_again none (redact isWord raw) more
    (whole ▸ hidden_message)
  have part : redact isWord raw ++ rest <+: message isWord raw :=
    ⟨behind, by rw [List.append_assoc, within, whole]⟩
  have short := @length_redact isWord raw
  have result := message_of_prefix wordless part run (bare rest last part)
  rw [@redact_eq isWord (redact isWord raw)]
  rcases List.eq_nil_or_concat' rest with rfl | ⟨front, c, rfl⟩
  · rw [List.append_nil] at result
    rcases result with same | same
    · rw [same, List.take_of_length_le short]
      exact .inl rfl
    · have shorter := congrArg List.length same
      rw [List.length_append, List.length_singleton] at shorter
      rw [List.take_of_length_le (by omega)]
      exact .inr same
  · -- a marker was cut: the text is of full length, and no space ends it
    obtain ⟨head, parts⟩ := last
    have bracket : c = ']' := by
      have ends := congrArg List.getLast? parts
      rw [← List.append_assoc, List.getLast?_concat] at ends
      exact Option.some.inj ends
    have same := result.resolve_right fun spaced => by
      rw [← List.append_assoc] at spaced
      have ends := (List.append_inj' spaced rfl).2
      rw [bracket] at ends
      exact absurd ends (by decide)
    have full : errorMessageMax = (redact isWord raw).length := by
      have long := part.length_le
      rw [@redact_eq isWord raw, List.length_append, List.length_take, List.length_append,
        List.length_singleton] at long
      rw [redact_eq, List.length_take]
      omega
    rw [same, full, List.take_left]
    exact .inl rfl

theorem clean_append {text rest : List Char} (plain : '@' ∉ rest)
    (clean : ∀ front behind, text = front ++ (schemeEnd ++ behind) →
      '@' ∉ behind.takeWhile fun c => !delimiter c) (front behind : List Char)
    (split : text ++ rest = front ++ (schemeEnd ++ behind)) :
    '@' ∉ behind.takeWhile fun c => !delimiter c := by
  intro held
  have inside := List.takeWhile_subset _ held
  rcases List.append_eq_append_iff.1 split with ⟨more, rfl, rfl⟩ | ⟨more, rfl, parts⟩
  · exact plain (by simp [inside])
  rcases List.append_eq_append_iff.1 parts with ⟨left, rfl, rfl⟩ | ⟨left, -, rfl⟩
  · have none := clean front left rfl
    rw [List.takeWhile_append] at held
    split_ifs at held with whole
    · rcases List.mem_append.1 held with held | held
      · rw [(List.takeWhile_sublist _).eq_of_length whole] at none
        exact none held
      · exact plain (List.takeWhile_subset _ held)
    · exact none held
  · exact plain (List.mem_append_right left inside)

/-- What a message that was redacted shows, and what redacting it again would change. -/
structure Scrubbed (isWord : Char → Bool) (raw : List Char) : Prop where
  short : (redact isWord raw).length ≤ 500
  runs : ∀ front run back, redact isWord raw = front ++ run ++ back →
    (∀ c ∈ run, c.isAlphanum = true) → run.length < 32
  tokens : ∀ front lead body back, redact isWord raw = front ++ lead ++ body ++ back →
    lead ∈ tokenPrefixes → (∀ c ∈ body, tokenChar c = true) →
      (∀ c ∈ front.getLast?, isWord c = false) → body.length < 8
  params : ∀ front introducer name tail,
    redact isWord raw = front ++ introducer :: (name ++ '=' :: tail) → Param introducer name →
      tail.takeWhile valueChar = [] ∨ tail.takeWhile valueChar = redacted ∨ tail <+: redacted
  urls : ∀ front rest, redact isWord raw = front ++ (schemeEnd ++ rest) →
    '@' ∈ rest.takeWhile (fun c => !delimiter c) →
      ∃ first second, front = first ++ (schemeEnd ++ second) ∧ ∀ c ∈ second, Between raw c
  again : ¬ Stray raw ∨ (∀ front rest, redact isWord raw = front ++ (schemeEnd ++ rest) →
      '@' ∉ rest.takeWhile fun c => !delimiter c) →
    redact isWord (redact isWord raw) = redact isWord raw ∨
      redact isWord (redact isWord raw) ++ [' '] = redact isWord raw

theorem redact_scrubbed (wordless : ∀ c, isWhitespace c = true → isWord c = false)
    (raw : List Char) : Scrubbed isWord raw where
  short := length_redact
  runs := by
    intro front run back split every
    have absent := (@opaqueRun_absent_message isWord raw).beginning redact_begins
    have gone := absent front (run ++ back) (by rw [split, List.append_assoc])
    rw [show opaqueRun.letter = Char.isAlphanum from rfl,
      List.takeWhile_append_of_pos every] at gone
    have short := of_decide_eq_false gone
    rw [List.length_append] at short
    omega
  tokens := by
    intro front lead body back split listed every outside
    have absent := (@prefixedToken_absent_message isWord raw wordless).beginning redact_begins
    have gone := absent front (lead ++ body ++ back) (by rw [split]; simp)
    have letters : ∀ c ∈ lead ++ body, tokenChar c = true := by
      have known : ∀ c ∈ tokenPrefixes.flatten, tokenChar c = true := forall_of_all (by decide)
      exact List.forall_mem_append.2
        ⟨fun c held => known c (List.mem_flatten.2 ⟨lead, listed, held⟩), every⟩
    by_contra long
    rw [show (prefixedToken isWord).letter = tokenChar from rfl,
      List.takeWhile_append_of_pos letters] at gone
    have secret : (prefixedToken isWord).secret front.getLast?
        (lead ++ body ++ back.takeWhile tokenChar) = true := by
      simp only [prefixedToken, Bool.and_eq_true, List.any_eq_true, List.isPrefixOf_iff_prefix,
        decide_eq_true_eq, Option.all_eq_true]
      refine ⟨fun c last => ?_, lead, listed, ?_, ?_⟩
      · rw [outside c last]
        rfl
      · rw [List.append_assoc]
        exact List.prefix_append ..
      · simp only [List.length_append]
        omega
    rw [secret] at gone
    exact Bool.false_ne_true gone.symm
  params := fun _ _ _ _ split param => hidden_message.beginning redact_begins split param
  urls := by
    intro front rest split held
    obtain ⟨word, back, parts⟩ := List.append_of_mem held
    have covered : Covered (Between raw) (redact isWord raw) :=
      covered_message.beginning redact_begins
    refine covered front word (back ++ rest.dropWhile fun c => !delimiter c) ?_ ?_
    · rw [split, ← List.cons_append, ← List.append_assoc word, ← parts,
        List.takeWhile_append_dropWhile]
    · intro c inner
      have part : c ∈ rest.takeWhile fun c => !delimiter c := by
        rw [parts]
        exact List.mem_append_left _ inner
      have letter := List.mem_takeWhile_imp part
      rwa [Bool.not_eq_true'] at letter
  again := by
    intro fine
    refine redact_again wordless fun rest last part => ?_
    rcases fine with plain | clean
    · refine (bare_message fun c held blank => ?_).beginning part
      by_contra other
      rw [Bool.not_eq_true] at other
      exact plain ⟨c, held, blank, other⟩
    · have plain : '@' ∉ rest := fun held => absurd (last.subset held) (by decide)
      exact bare_of_clean fun front behind split => clean_append plain clean front behind split

/-- `\w` on ASCII text. -/
def asciiWord (c : Char) : Bool := c.isAlphanum || c = '_'

theorem asciiWord_of_whitespace {c : Char} (blank : isWhitespace c = true) :
    asciiWord c = false := by
  have other := (whitespace_apart blank).2.1
  unfold tokenChar at other
  rw [Bool.or_eq_false_iff] at other
  exact other.1

theorem clone_error_scrubbed :
    Scrubbed asciiWord "fatal: https://u:p@host/x?token=ghp_0123456789 denied".toList :=
  redact_scrubbed (fun _ blank => asciiWord_of_whitespace blank) _

/-- A prefix behind a word letter begins no token for the pattern, so the token is shown. -/
theorem glued_token_kept : ¬ ∀ front lead body back,
    redact asciiWord "xghp_12345678".toList = front ++ lead ++ body ++ back →
      lead ∈ tokenPrefixes → (∀ c ∈ body, tokenChar c = true) → body.length < 8 := by
  intro claimed
  have short := claimed "x".toList "ghp_".toList "12345678".toList []
    (by decide +kernel) (by decide) (forall_of_all (by decide))
  exact absurd short (by decide)

end Result

end Forge.RedactionSafety
