import Forge.Library.Rewriting
import Forge.OrchestrationView

/-! What is kept of git's output in a clone error: secrets are taken out of it pass by pass. -/

namespace Forge.CloneRedaction

open Forge.OrchestrationView (isWhitespace)
open Library.Rewriting

def errorMessageMax : Nat := 500

def redacted : List Char := "[REDACTED]".toList

/-- `access_token|token|private_token|api[_-]?key|x-access-token|password|auth`. -/
def sensitiveParams : List (List Char) :=
  ["access_token", "token", "private_token", "api_key", "api-key", "apikey", "x-access-token",
    "password", "auth"].map String.toList

def foldCase (c : Char) : Char :=
  if c = '\u212A' then 'k' else if c = '\u017F' then 's' else c.toLower

/-- `[^&\s"']`. -/
def valueChar (c : Char) : Bool :=
  c ≠ '&' && !isWhitespace c && c ≠ '"' && c ≠ '\''

/-- `[?&](name)=` with the value behind it; the value alone changes. -/
def queryParam : Rule Char := fun _ text =>
  match text with
  | [] => none
  | introducer :: rest =>
      let name := rest.takeWhile fun c => c ≠ '='
      match rest.dropWhile fun c => c ≠ '=' with
      | [] => none
      | equals :: tail =>
          let value := tail.takeWhile valueChar
          if (introducer = '?' ∨ introducer = '&') ∧ name.map foldCase ∈ sensitiveParams ∧
              value ≠ []
          then some (introducer :: (name ++ equals :: value),
            introducer :: (name ++ equals :: redacted))
          else none

def redactQueryParamValues (raw : List Char) : List Char := replaceAll queryParam raw

/-- `"://"`. -/
def schemeEnd : List Char := [':', '/', '/']

def delimiter (c : Char) : Bool := "/?# \t\n\r".toList.contains c

/-- `authority.rsplit('@').next().unwrap_or(authority)`. -/
def afterLastAt (authority : List Char) : List Char :=
  (authority.splitOn '@').getLast?.getD authority

/-- One turn of the scanner's loop: an authority behind `://`, or else the one letter. -/
def userinfo : Rule Char := fun _ text =>
  match text with
  | ':' :: '/' :: '/' :: rest =>
      let authority := rest.takeWhile fun c => !delimiter c
      some (schemeEnd ++ authority, schemeEnd ++ afterLastAt authority)
  | _ => none

def redactUrlUserinfo (raw : List Char) : List Char := replaceAll userinfo raw

/-- `[A-Za-z0-9_-]`. -/
def tokenChar (c : Char) : Bool := c.isAlphanum || c = '_' || c = '-'

def tokenPrefixes : List (List Char) :=
  ["ghp_", "gho_", "ghu_", "ghs_", "ghr_", "github_pat_", "glpat-"].map String.toList

/-- `\b(?:ghp_|…)[A-Za-z0-9_-]{8,}`: a prefix begins with a word letter, so none stands before. -/
def prefixedToken (isWord : Char → Bool) : RunClass Char where
  letter := tokenChar
  secret before run := before.all (fun c => !isWord c) &&
    tokenPrefixes.any fun lead => lead.isPrefixOf run && decide (lead.length + 8 ≤ run.length)
  longer := by
    intro before run more secret part
    rw [Bool.and_eq_true, List.any_eq_true] at secret ⊢
    obtain ⟨outside, lead, listed, begins⟩ := secret
    rw [Bool.and_eq_true, List.isPrefixOf_iff_prefix, decide_eq_true_eq] at begins
    refine ⟨outside, lead, listed, ?_⟩
    rw [Bool.and_eq_true, List.isPrefixOf_iff_prefix, decide_eq_true_eq]
    exact ⟨begins.1.trans part, begins.2.trans part.length_le⟩
  nonempty before := by
    rw [Bool.and_eq_false_iff]
    exact .inr (by decide)

/-- `[A-Za-z0-9]{32,}`. -/
def opaqueRun : RunClass Char where
  letter := Char.isAlphanum
  secret _ run := decide (32 ≤ run.length)
  longer := by
    intro before run more secret part
    rw [decide_eq_true_eq] at secret ⊢
    exact secret.trans part.length_le
  nonempty _ := rfl

def redactTokenLike (isWord : Char → Bool) (raw : List Char) : List Char :=
  let s := replaceAll ((prefixedToken isWord).rule redacted) raw
  replaceAll (opaqueRun.rule redacted) s

def collapseWhitespace (raw : List Char) : List Char := collapse isWhitespace raw

def truncateChars (s : List Char) (max : Nat) : List Char :=
  if s.length ≤ max then s else s.take max

/-- `isWord` is the class `\w` of the pattern language. -/
def redact (isWord : Char → Bool) (raw : List Char) : List Char :=
  let s := redactQueryParamValues raw
  let s := redactUrlUserinfo s
  let s := redactTokenLike isWord s
  let s := collapseWhitespace s
  truncateChars s errorMessageMax

section Letters

variable {c : Char} {name : List Char}

def whitespace : List Char :=
  ([9, 10, 11, 12, 13, 0x20, 0x85, 0xA0, 0x1680, 0x2000, 0x2001, 0x2002, 0x2003, 0x2004, 0x2005,
    0x2006, 0x2007, 0x2008, 0x2009, 0x200A, 0x2028, 0x2029, 0x202F, 0x205F, 0x3000]).map Char.ofNat

theorem mem_whitespace (blank : isWhitespace c = true) : c ∈ whitespace := by
  refine List.mem_map.2 ⟨c.toNat, ?_, Char.ofNat_toNat c⟩
  unfold isWhitespace at blank
  simp only [Bool.or_eq_true, Bool.and_eq_true, decide_eq_true_eq, beq_iff_eq] at blank
  simp only [List.mem_cons, List.not_mem_nil, or_false]
  omega

theorem whitespace_apart (blank : isWhitespace c = true) :
    foldCase c ∉ "abcdefghijklmnopqrstuvwxyz_-".toList ∧ tokenChar c = false ∧ c ∉ redacted ∧
      c ≠ ':' ∧ c ≠ '/' ∧ c ≠ '@' ∧ c ≠ '?' ∧ c ≠ '#' ∧ c ≠ '&' ∧ c ≠ '=' := by
  have every : ∀ c ∈ whitespace,
      foldCase c ∉ "abcdefghijklmnopqrstuvwxyz_-".toList ∧ tokenChar c = false ∧ c ∉ redacted ∧
        c ≠ ':' ∧ c ≠ '/' ∧ c ≠ '@' ∧ c ≠ '?' ∧ c ≠ '#' ∧ c ≠ '&' ∧ c ≠ '=' :=
    forall_of_all (by decide)
  exact every c (mem_whitespace blank)

theorem foldCase_mem (sensitive : name.map foldCase ∈ sensitiveParams) (held : c ∈ name) :
    foldCase c ∈ "abcdefghijklmnopqrstuvwxyz_-".toList := by
  have every : ∀ d ∈ sensitiveParams.flatten, d ∈ "abcdefghijklmnopqrstuvwxyz_-".toList :=
    forall_of_all (by decide)
  exact every _ (List.mem_flatten.2 ⟨_, sensitive, List.mem_map_of_mem held⟩)

theorem ne_of_sensitive (sensitive : name.map foldCase ∈ sensitiveParams) (held : c ∈ name) :
    c ∉ "[]:/@?#&= ".toList ∧ isWhitespace c = false := by
  have letter := foldCase_mem sensitive held
  constructor
  · intro separator
    have every : ∀ d ∈ "[]:/@?#&= ".toList,
        foldCase d ∉ "abcdefghijklmnopqrstuvwxyz_-".toList :=
      forall_of_all (by decide)
    exact every c separator letter
  · by_contra blank
    rw [Bool.not_eq_false] at blank
    exact (whitespace_apart blank).1 letter

end Letters

section Params

variable {before : Option Char} {introducer : Char} {name tail text taken put : List Char}

/-- `?name=` or `&name=` with a name that the pattern lists. -/
def Param (introducer : Char) (name : List Char) : Prop :=
  (introducer = '?' ∨ introducer = '&') ∧ name.map foldCase ∈ sensitiveParams

theorem queryParam_param (param : Param introducer name) :
    queryParam before (introducer :: (name ++ '=' :: tail)) =
      if tail.takeWhile valueChar = [] then none
      else some (introducer :: (name ++ '=' :: tail.takeWhile valueChar),
        introducer :: (name ++ '=' :: redacted)) := by
  have plain : ∀ c ∈ name, decide (c ≠ '=') = true := by
    intro c held
    have apart := (ne_of_sensitive param.2 held).1
    rw [decide_eq_true_eq]
    rintro rfl
    exact apart (by decide)
  have read : (name ++ '=' :: tail).takeWhile (fun c => decide (c ≠ '=')) = name :=
    takeWhile_stops plain (by simp [Stops])
  have behind : (name ++ '=' :: tail).dropWhile (fun c => decide (c ≠ '=')) = '=' :: tail := by
    rw [List.dropWhile_append_of_pos plain]
    rfl
  unfold queryParam
  simp only [read, behind]
  split_ifs with found nothing nothing
  · exact absurd nothing found.2.2
  · rfl
  · rfl
  · exact absurd ⟨param.1, param.2, nothing⟩ found

theorem param_of_queryParam (found : queryParam before text = some (taken, put)) :
    ∃ introducer name tail, text = introducer :: (name ++ '=' :: tail) ∧ Param introducer name ∧
      tail.takeWhile valueChar ≠ [] ∧
        taken = introducer :: (name ++ '=' :: tail.takeWhile valueChar) ∧
          put = introducer :: (name ++ '=' :: redacted) := by
  unfold queryParam at found
  match text with
  | [] => cases found
  | introducer :: rest =>
      simp only at found
      cases split : rest.dropWhile fun c => decide (c ≠ '=') with
      | nil => rw [split] at found; cases found
      | cons equals tail =>
          have whole := (List.takeWhile_append_dropWhile (p := fun c => decide (c ≠ '='))
            (l := rest)).symm
          have reached := stops_dropWhile (fun c => decide (c ≠ '=')) rest equals
            (by rw [split]; rfl)
          rw [decide_eq_false_iff_not, not_not] at reached
          rw [split, reached] at found whole
          simp only at found
          split_ifs at found with listed
          obtain ⟨rfl, rfl⟩ := Prod.mk.inj (Option.some.inj found)
          exact ⟨introducer, _, tail, congrArg (introducer :: ·) whole, ⟨listed.1, listed.2.1⟩,
            listed.2.2, rfl, rfl⟩

theorem queryParam_proper : Proper queryParam := by
  intro before text taken put found
  obtain ⟨introducer, name, tail, rfl, -, -, rfl, -⟩ := param_of_queryParam found
  refine ⟨List.cons_ne_nil _ _, tail.dropWhile valueChar, ?_⟩
  rw [List.cons_append, List.append_assoc, List.cons_append, List.takeWhile_append_dropWhile]

def ParamSwap (taken put : List Char) : Prop :=
  ∃ introducer name value, Param introducer name ∧ value ≠ [] ∧ (∀ c ∈ value, valueChar c = true) ∧
    taken = introducer :: (name ++ '=' :: value) ∧ put = introducer :: (name ++ '=' :: redacted)

theorem Rewrites.paramSwap {out : List Char} (run : Rewrites queryParam before text out) :
    Blockwise ParamSwap text out := by
  refine run.blockwise fun before taken put rest found => ?_
  obtain ⟨introducer, name, tail, -, param, some, same, same'⟩ := param_of_queryParam found
  exact ⟨introducer, name, _, param, some, fun c held => List.mem_takeWhile_imp held, same, same'⟩

theorem stops_paramSwap {out : List Char} (run : Blockwise ParamSwap text out)
    (stops : Stops valueChar text) : Stops valueChar out := by
  refine run.stops ?_ ?_ stops
  · rintro _ _ ⟨introducer, name, value, -, -, -, rfl, -⟩
    exact List.cons_ne_nil _ _
  · rintro _ _ ⟨introducer, name, value, -, -, -, rfl, rfl⟩ stops
    exact ⟨List.cons_ne_nil _ _, stops⟩

theorem Param.plain (param : Param introducer name) :
    ∀ c ∈ name ++ ['='], c ∉ "[]:/@?#& ".toList ∧ isWhitespace c = false := by
  refine List.forall_mem_append.2 ⟨fun c held => ?_, forall_of_all (by decide)⟩
  obtain ⟨apart, word⟩ := ne_of_sensitive param.2 held
  refine ⟨fun separator => apart ?_, word⟩
  have every : ∀ d ∈ "[]:/@?#& ".toList, d ∈ "[]:/@?#&= ".toList :=
    forall_of_all (by decide)
  exact every c separator

theorem paramSwap_foreign {word rest : List Char} (swap : ParamSwap taken put) (some : word ≠ [])
    (plain : ∀ c ∈ word, c ∉ "[]:/@?#& ".toList ∧ isWhitespace c = false) :
    ¬ put <+: word ++ rest := by
  obtain ⟨introducer, name, value, param, -, -, -, rfl⟩ := swap
  obtain ⟨c, word, rfl⟩ := List.exists_cons_of_ne_nil some
  intro begins
  obtain ⟨rfl, -⟩ := List.cons_prefix_cons.1 begins
  obtain ⟨apart, -⟩ := plain introducer List.mem_cons_self
  rcases param.1 with rfl | rfl <;> exact apart (by decide)

theorem introducer_of_mem {head rest : List Char} {c : Char} (param : Param introducer name)
    (asked : c = '?' ∨ c = '&')
    (split : introducer :: (name ++ '=' :: redacted) = head ++ c :: rest) : head = [] := by
  cases head with
  | nil => rfl
  | cons d head =>
      have held : c ∈ name ++ '=' :: redacted := by
        rw [(List.cons.inj split).2]
        exact List.mem_append_right head List.mem_cons_self
      rcases List.mem_append.1 held with inner | inner
      · have apart := (ne_of_sensitive param.2 inner).1
        rcases asked with rfl | rfl <;> exact absurd (by decide) apart
      · have every : ∀ d ∈ '=' :: redacted, d ≠ '?' ∧ d ≠ '&' :=
          forall_of_all (by decide)
        rcases asked with rfl | rfl
        · exact absurd rfl (every _ inner).1
        · exact absurd rfl (every _ inner).2

theorem param_inj {name' tail' : List Char} (param : Param introducer name)
    (param' : Param introducer name')
    (same : name ++ '=' :: tail = name' ++ '=' :: tail') : name = name' ∧ tail = tail' := by
  have plain {word : List Char} (param : Param introducer word) : '=' ∉ word := fun held =>
    (ne_of_sensitive param.2 held).1 (by decide)
  have read {word rest : List Char} (param : Param introducer word) :
      (word ++ '=' :: rest).takeWhile (fun c => decide (c ≠ '=')) = word :=
    takeWhile_stops (fun c held => decide_eq_true fun same => plain param (same ▸ held))
      (by simp [Stops])
  have names : name = name' := by rw [← @read name tail param, same, read param']
  subst names
  exact ⟨rfl, (List.cons.inj (List.append_cancel_left same)).2⟩

def Hidden (text : List Char) : Prop :=
  ∀ front introducer name tail, text = front ++ introducer :: (name ++ '=' :: tail) →
    Param introducer name → tail.takeWhile valueChar = [] ∨ tail.takeWhile valueChar = redacted

theorem takeWhile_nil_of_stops (stops : Stops valueChar text) : text.takeWhile valueChar = [] :=
  @takeWhile_stops _ [] text valueChar (by simp) stops

theorem stops_of_takeWhile_nil (nothing : text.takeWhile valueChar = []) :
    Stops valueChar text := by
  have whole := List.takeWhile_append_dropWhile (p := valueChar) (l := text)
  rw [nothing, List.nil_append] at whole
  exact whole ▸ stops_dropWhile valueChar text

theorem takeWhile_marker {rest : List Char} (stops : Stops valueChar rest) :
    (redacted ++ rest).takeWhile valueChar = redacted :=
  takeWhile_stops (forall_of_all (by decide)) stops

theorem hidden_redactQueryParamValues (raw : List Char) : Hidden (redactQueryParamValues raw) := by
  intro front introducer name tail split param
  have run := rewrites_replaceAll queryParam_proper raw
  rw [show replaceAll queryParam raw = _ from split] at run
  rcases run.split with ⟨read, rest, rfl, -, behind⟩ |
      ⟨before, taken, put, rest, head, left, behind, found, parts, begun, some, same⟩
  · generalize whole : introducer :: (name ++ '=' :: tail) = out at behind
    cases behind with
    | done => cases whole
    | @keep _ c rest out kept behind =>
        -- a parameter that was left alone had no value
        obtain ⟨rfl, rfl⟩ := List.cons.inj whole
        have blocks := Rewrites.paramSwap behind
        rw [List.append_cons] at blocks
        obtain ⟨value, rfl, passed⟩ := blocks.verbatim
          fun head word (parts : name ++ ['='] = head ++ word) some taken put swap =>
            paramSwap_foreign swap some fun c held =>
              param.plain c (parts ▸ List.mem_append_right head held)
        rw [List.append_assoc, List.singleton_append, queryParam_param param] at kept
        split_ifs at kept with nothing
        exact .inl (takeWhile_nil_of_stops (stops_paramSwap passed (stops_of_takeWhile_nil nothing)))
    | @swap _ taken put rest out some found behind =>
        obtain ⟨introducer', name', tail', read, param', -, rfl, rfl⟩ := param_of_queryParam found
        rw [List.cons_append, List.append_assoc, List.cons_append] at whole read
        obtain ⟨rfl, parts⟩ := List.cons.inj whole
        obtain ⟨rfl, rfl⟩ := param_inj param param' parts
        have value := (param_inj param param (List.cons.inj read).2).2
        have ended : rest = tail'.dropWhile valueChar := by
          refine @List.append_cancel_left _ (tail'.takeWhile valueChar) _ _ ?_
          rw [value, List.takeWhile_append_dropWhile]
        have stops := stops_paramSwap (Rewrites.paramSwap behind)
          (ended ▸ stops_dropWhile valueChar tail')
        exact .inr (takeWhile_marker stops)
  · obtain ⟨introducer', name', value, -, param', -, -, rfl⟩ := param_of_queryParam found
    obtain ⟨c, left, rfl⟩ := List.exists_cons_of_ne_nil some
    obtain ⟨rfl, -⟩ := List.cons.inj same
    exact absurd (introducer_of_mem param' param.1 parts) begun

theorem Hidden.of_suffix {front : List Char} (hidden : Hidden (front ++ text)) : Hidden text := by
  intro front' introducer name tail split
  exact hidden (front ++ front') introducer name tail (by rw [split, List.append_assoc])

theorem takeWhile_append_stops {more : List Char} (stops : Stops valueChar more) :
    (tail ++ more).takeWhile valueChar = tail.takeWhile valueChar := by
  rw [List.takeWhile_append]
  split_ifs with whole
  · rw [takeWhile_nil_of_stops stops, List.append_nil,
      (List.takeWhile_prefix valueChar).eq_of_length whole]
  · rfl

theorem Hidden.of_append {more : List Char} (hidden : Hidden (text ++ more))
    (stops : Stops valueChar more) : Hidden text := by
  intro front introducer name tail split param
  have whole := hidden front introducer name (tail ++ more) (by rw [split]; simp) param
  rwa [takeWhile_append_stops stops] at whole

/-- Blocks that make no parameter, break no marker and keep what ends a value. -/
structure Harmless (swap : List Char → List Char → Prop) : Prop where
  some : ∀ taken put, swap taken put → taken ≠ []
  begins : ∀ taken put, swap taken put → ∃ c rest, put = c :: rest ∧ c ∈ "[]:/@?#& ".toList
  fresh : ∀ taken put, swap taken put → '?' ∉ put ∧ '&' ∉ put
  quiet : ∀ taken put, swap taken put → ∀ head tail behind, redacted = head ++ tail → tail ≠ [] →
    ¬ taken <+: tail ++ behind
  stops : ∀ taken put, swap taken put → Stops valueChar taken → Stops valueChar put

theorem Hidden.blockwise {swap : List Char → List Char → Prop} {out : List Char}
    (harmless : Harmless swap) (hidden : Hidden text) (run : Blockwise swap text out) :
    Hidden out := by
  intro front introducer name tail split param
  rw [split] at run
  obtain ⟨first, second, rfl, -, behind⟩ := run.split fun taken put swapped => by
    rcases param.1 with rfl | rfl
    · exact (harmless.fresh _ _ swapped).1
    · exact (harmless.fresh _ _ swapped).2
  rw [List.append_cons] at behind
  obtain ⟨value, rfl, passed⟩ := behind.verbatim
    fun head word (parts : name ++ ['='] = head ++ word) some taken put swapped begins => by
      obtain ⟨c, rest, rfl, separator⟩ := harmless.begins _ _ swapped
      obtain ⟨d, word, rfl⟩ := List.exists_cons_of_ne_nil some
      obtain ⟨rfl, -⟩ := List.cons_prefix_cons.1 begins
      exact (param.plain c (parts ▸ List.mem_append_right head List.mem_cons_self)).1 separator
  have ends {text out : List Char} (run : Blockwise swap text out) (stops : Stops valueChar text) :
      Stops valueChar out := by
    refine run.stops harmless.some (fun taken put swapped ends => ?_) stops
    obtain ⟨c, rest, rfl, -⟩ := harmless.begins _ _ swapped
    exact ⟨List.cons_ne_nil c rest, harmless.stops _ _ swapped ends⟩
  have clean := hidden first introducer name value (by simp) param
  rcases clean with nothing | marker
  · exact .inl (takeWhile_nil_of_stops (ends passed (stops_of_takeWhile_nil nothing)))
  · have whole := List.takeWhile_append_dropWhile (p := valueChar) (l := value)
    rw [marker] at whole
    rw [← whole] at passed
    obtain ⟨rest, rfl, after⟩ := passed.verbatim_text fun head word parts some taken put swapped =>
      harmless.quiet _ _ swapped head word _ parts some
    exact .inr (takeWhile_marker (ends after (stops_dropWhile valueChar value)))

theorem Hidden.beginning {whole : List Char} (hidden : Hidden whole) (part : text <+: whole)
    {front : List Char} (split : text = front ++ introducer :: (name ++ '=' :: tail))
    (param : Param introducer name) :
    tail.takeWhile valueChar = [] ∨ tail.takeWhile valueChar = redacted ∨ tail <+: redacted := by
  obtain ⟨more, rfl⟩ := part
  have clean := hidden front introducer name (tail ++ more) (by rw [split]; simp) param
  rw [List.takeWhile_append] at clean
  split_ifs at clean with every
  · rcases clean with nothing | marker
    · rw [(List.append_eq_nil_iff.1 nothing).1]
      exact .inl rfl
    · exact .inr (.inr ⟨_, marker⟩)
  · rcases clean with nothing | marker
    · exact .inl nothing
    · exact .inr (.inl marker)

theorem rewrites_again (before : Option Char) (text more : List Char)
    (hidden : Hidden (text ++ more)) :
    ∃ rest, rest <:+ redacted ∧ rest <+: more ∧
      Rewrites queryParam before text (text ++ rest) := by
  induction size : text.length using Nat.strong_induction_on generalizing before text with
  | _ bound ih =>
  cases text with
  | nil => exact ⟨[], List.nil_suffix, List.nil_prefix, .done before⟩
  | cons c front =>
      match found : queryParam before (c :: front) with
      | none =>
          have clean : Hidden (front ++ more) := @Hidden.of_suffix _ [c] hidden
          obtain ⟨rest, last, within, run⟩ := ih front.length
            (by rw [← size, List.length_cons]; omega) (some c) front clean rfl
          exact ⟨rest, last, within, .keep found run⟩
      | some (taken, put) =>
          obtain ⟨introducer, name, tail, split, param, some, rfl, rfl⟩ := param_of_queryParam found
          have clean := hidden [] introducer name (tail ++ more) (by rw [split]; simp) param
          have filled : (tail ++ more).takeWhile valueChar = redacted := by
            refine clean.resolve_left fun nothing => some ?_
            have part : tail.takeWhile valueChar <+: (tail ++ more).takeWhile valueChar :=
              takeWhile_append_prefix
            rw [nothing] at part
            exact List.prefix_nil.1 part
          have parts := (List.takeWhile_append_dropWhile (p := valueChar) (l := tail)).symm
          have ended := stops_dropWhile valueChar tail
          have every : ∀ c ∈ tail.takeWhile valueChar, valueChar c = true :=
            fun c held => List.mem_takeWhile_imp held
          generalize tail.takeWhile valueChar = value at *
          generalize tail.dropWhile valueChar = left at *
          subst parts
          cases left with
          | nil =>
              -- the value ends the text, and what is missing of the marker comes behind it
              rw [List.append_nil, List.takeWhile_append_of_pos every] at filled
              refine ⟨more.takeWhile valueChar, ⟨value, filled⟩,
                List.takeWhile_prefix valueChar, ?_⟩
              have run : Rewrites queryParam before (introducer :: (name ++ '=' :: value) ++ [])
                  (introducer :: (name ++ '=' :: redacted) ++ []) :=
                .swap (List.cons_ne_nil _ _)
                  (by rw [List.append_nil]; rwa [split, List.append_nil] at found) (.done _)
              rw [split, List.append_nil]
              rw [List.append_nil, List.append_nil, ← filled] at run
              simpa using run
          | cons d left =>
              -- the whole marker stands there, and the run goes on behind it
              have stops : Stops valueChar (d :: left ++ more) := ended
              rw [List.append_assoc, takeWhile_stops every stops] at filled
              subst filled
              have shorter : (d :: left).length < bound := by
                rw [← size, split]
                simp only [List.length_cons, List.length_append]
                omega
              have behind : Hidden (d :: left ++ more) := by
                rw [split] at hidden
                exact @Hidden.of_suffix _ (introducer :: (name ++ '=' :: redacted))
                  (by simpa using hidden)
              obtain ⟨rest, last, within, run⟩ := ih _ shorter
                (introducer :: (name ++ '=' :: redacted)).getLast? (d :: left) behind rfl
              refine ⟨rest, last, within, ?_⟩
              rw [split] at found ⊢
              have whole := Rewrites.swap (List.cons_ne_nil _ _)
                (by simpa using found) run
              simpa using whole

end Params

section Tokens

variable {isWord : Char → Bool} {before : Option Char} {run text taken put : List Char}

def TokenSwap (taken put : List Char) : Prop :=
  12 ≤ taken.length ∧ (∀ c ∈ taken, tokenChar c = true) ∧ put = redacted

theorem tokenChar_of_isAlphanum {c : Char} (alphanumeric : c.isAlphanum = true) :
    tokenChar c = true := by
  unfold tokenChar
  rw [alphanumeric]
  rfl

theorem prefixedToken_secret (secret : (prefixedToken isWord).secret before run = true) :
    12 ≤ run.length ∧ ∃ rest, run = 'g' :: rest := by
  have known : ∀ lead ∈ tokenPrefixes, 4 ≤ lead.length ∧ lead.head? = some 'g' := by decide
  simp only [prefixedToken, Bool.and_eq_true, List.any_eq_true, List.isPrefixOf_iff_prefix,
    decide_eq_true_eq] at secret
  obtain ⟨-, lead, listed, ⟨rest, rfl⟩, long⟩ := secret
  obtain ⟨four, head⟩ := known lead listed
  refine ⟨by omega, ?_⟩
  cases lead with
  | nil => cases head
  | cons c lead => exact ⟨lead ++ rest, by rw [Option.some.inj head]; rfl⟩

theorem prefixedToken_swap {rest : List Char}
    (found : ((prefixedToken isWord).rule redacted) before (taken ++ rest) = some (taken, put)) :
    TokenSwap taken put := by
  obtain ⟨secret, whole, marker⟩ := RunClass.rule_eq_some.1 found
  refine ⟨(prefixedToken_secret secret).1, fun c held => ?_, marker⟩
  rw [whole] at held
  exact List.mem_takeWhile_imp held

theorem opaqueRun_swap {rest : List Char}
    (found : (opaqueRun.rule redacted) before (taken ++ rest) = some (taken, put)) :
    TokenSwap taken put := by
  obtain ⟨secret, whole, marker⟩ := RunClass.rule_eq_some.1 found
  have long : 32 ≤ taken.length := of_decide_eq_true secret
  refine ⟨by omega, fun c held => ?_, marker⟩
  rw [whole] at held
  exact tokenChar_of_isAlphanum (List.mem_takeWhile_imp held)

theorem prefixedToken_quiet : (prefixedToken isWord).Quiet redacted := by
  refine ⟨'[', "REDACTED".toList, ']', rfl, rfl, rfl, fun before tail part => ?_⟩
  by_contra secret
  rw [Bool.not_eq_false] at secret
  have long := (prefixedToken_secret secret).1
  have short := part.length_le
  have eight : "REDACTED".toList.length = 8 := rfl
  omega

theorem opaqueRun_quiet : opaqueRun.Quiet redacted := by
  refine ⟨'[', "REDACTED".toList, ']', rfl, rfl, rfl, fun before tail part => ?_⟩
  have short := part.length_le
  have eight : "REDACTED".toList.length = 8 := rfl
  exact decide_eq_false (by omega)

theorem prefixedToken_absent (raw : List Char) :
    (prefixedToken isWord).Absent (redactTokenLike isWord raw) := by
  have first : (prefixedToken isWord).Absent
      (replaceAll ((prefixedToken isWord).rule redacted) raw) :=
    RunClass.absent_replaceAll prefixedToken_quiet (fun _ _ _ _ letter => letter)
      fun _ _ _ kept => RunClass.rule_eq_none.1 kept
  refine RunClass.absent_replaceAll prefixedToken_quiet ?_ (fun front rest split _ =>
    first front rest split)
  intro before c run secret _
  obtain ⟨rest, same⟩ := (prefixedToken_secret secret).2
  rw [(List.cons.inj same).1]
  rfl

theorem opaqueRun_absent (raw : List Char) : opaqueRun.Absent (redactTokenLike isWord raw) :=
  RunClass.absent_replaceAll opaqueRun_quiet (fun _ _ _ _ letter => letter)
    fun _ _ _ kept => RunClass.rule_eq_none.1 kept

theorem redactTokenLike_swaps (isWord : Char → Bool) (raw : List Char) :
    ∃ text, Blockwise TokenSwap raw text ∧ Blockwise TokenSwap text (redactTokenLike isWord raw) :=
  ⟨_, (rewrites_replaceAll RunClass.proper raw).blockwise fun _ _ _ _ found =>
      prefixedToken_swap found,
    (rewrites_replaceAll RunClass.proper _).blockwise fun _ _ _ _ found => opaqueRun_swap found⟩

theorem tokenChar_cases {c : Char} (letter : tokenChar c = true) :
    c ∉ "[]:/@?#&= \"'".toList ∧ isWhitespace c = false := by
  constructor
  · intro separator
    have every : ∀ d ∈ "[]:/@?#&= \"'".toList, tokenChar d = false :=
      forall_of_all (by decide)
    rw [every c separator] at letter
    exact Bool.false_ne_true letter
  · by_contra blank
    rw [Bool.not_eq_false] at blank
    rw [(whitespace_apart blank).2.1] at letter
    exact Bool.false_ne_true letter

theorem valueChar_of_tokenChar {c : Char} (letter : tokenChar c = true) : valueChar c = true := by
  obtain ⟨plain, word⟩ := tokenChar_cases letter
  have ne (d : Char) (separator : d ∈ "[]:/@?#&= \"'".toList) : decide (c ≠ d) = true :=
    decide_eq_true fun same => plain (same ▸ separator)
  unfold valueChar
  rw [ne '&' (by decide), ne '"' (by decide), ne '\'' (by decide), word]
  rfl

theorem harmless_tokenSwap : Harmless TokenSwap where
  some := by
    rintro taken put ⟨long, -, -⟩ rfl
    simp at long
  begins := by
    rintro taken _ ⟨-, -, rfl⟩
    exact ⟨'[', _, rfl, by decide⟩
  fresh := by
    rintro taken _ ⟨-, -, rfl⟩
    exact ⟨by decide, by decide⟩
  quiet := by
    rintro taken _ ⟨long, every, rfl⟩ head tail behind parts nonempty ⟨rest, begins⟩
    -- the bracket that ends the marker would be a letter of the token
    have short : tail.length ≤ 10 := by
      have whole := congrArg List.length parts
      rw [List.length_append, show redacted.length = 10 from rfl] at whole
      omega
    have bracket : ']' ∈ tail := by
      have last : redacted.getLast? = some ']' := rfl
      rw [parts, List.getLast?_append, List.getLast?_eq_some_getLast nonempty,
        Option.some_or] at last
      exact List.mem_of_getLast? (by rw [List.getLast?_eq_some_getLast nonempty]; exact last)
    have inner : tail <+: taken := by
      rcases List.append_eq_append_iff.1 begins with ⟨more, rfl, -⟩ | ⟨more, rfl, -⟩
      · rw [List.length_append] at short
        omega
      · exact List.prefix_append ..
    exact (tokenChar_cases (every ']' (inner.subset bracket))).1 (by decide)
  stops := by
    rintro taken _ ⟨long, every, rfl⟩ stops
    cases taken with
    | nil => simp at long
    | cons c taken =>
        have ended := stops c rfl
        rw [valueChar_of_tokenChar (every c List.mem_cons_self)] at ended
        exact absurd ended.symm Bool.false_ne_true

theorem harmless_gap : Harmless (Gap isWhitespace) where
  some _ _ gap := gap.1
  begins := by
    rintro taken _ ⟨-, -, rfl⟩
    exact ⟨' ', [], rfl, by decide⟩
  fresh := by
    rintro taken _ ⟨-, -, rfl⟩
    exact ⟨by decide, by decide⟩
  quiet := by
    rintro taken _ ⟨nonempty, blanks, -⟩ head tail behind parts some begins
    obtain ⟨c, taken, rfl⟩ := List.exists_cons_of_ne_nil nonempty
    obtain ⟨d, tail, rfl⟩ := List.exists_cons_of_ne_nil some
    obtain ⟨rfl, -⟩ := List.cons_prefix_cons.1 begins
    refine (whitespace_apart (blanks c List.mem_cons_self)).2.2.1 ?_
    rw [parts]
    exact List.mem_append_right head List.mem_cons_self
  stops := by
    rintro taken _ ⟨-, -, rfl⟩ -
    simp only [Stops, List.head?_cons, Option.mem_def, Option.some.injEq, forall_eq']
    rfl

end Tokens

end Forge.CloneRedaction
