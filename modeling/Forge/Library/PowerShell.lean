import Mathlib.Data.List.Basic

/-! The quoting rules of PowerShell: single-quoted literals, in which any of five characters is a
quote, and the statements of a script that set variables of the environment. -/

namespace Forge.Library.PowerShell

def typographic (c : Char) : Bool := c = '\u2018' || c = '\u2019' || c = '\u201A' || c = '\u201B'

def isSingleQuote (c : Char) : Bool := c = '\'' || typographic c

/-- What is read behind the quote that opens a literal, and what is behind the quote that closes it.
Of two quotes the second one is meant. -/
def scan : List Char → Option (List Char × List Char)
  | [] => none
  | [c] => if isSingleQuote c then some ([], []) else none
  | c :: d :: rest =>
      if isSingleQuote c then
        if isSingleQuote d then (scan rest).map fun read => (d :: read.1, read.2)
        else some ([], d :: rest)
      else (scan (d :: rest)).map fun read => (c :: read.1, read.2)

def quoteTail (text : List Char) : List Char :=
  (text.flatMap fun c => if c = '\'' then ['\'', '\''] else [c]) ++ ['\'']

def quote (text : List Char) : List Char := '\'' :: quoteTail text

section Statements

inductive Action where
  | set (name value : List Char)
  | run (command : List Char)
deriving DecidableEq

def blank (c : Char) : Bool := c = ' ' || c = '\t'

def nameChar (c : Char) : Bool := c.isAlphanum || c = '_'

def separator (c : Char) : Bool := c = '\n' || c = ';'

def behind (text : List Char) : Option (List Char) :=
  match text.dropWhile blank with
  | [] => some []
  | c :: rest =>
      if separator c then some rest
      else if c = '#' then some ((rest.dropWhile fun c => c ≠ '\n').drop 1)
      else none

/-- The value that is assigned behind the name of a variable. -/
def assigned (text : List Char) : Option (List Char × List Char) :=
  match text.dropWhile blank with
  | '=' :: rest =>
      match rest.dropWhile blank with
      | c :: rest =>
          if isSingleQuote c then
            (scan rest).bind fun read => (behind read.2).map fun rest => (read.1, rest)
          else none
      | [] => none
  | _ => none

def commandChar (c : Char) : Bool := c.isAlphanum || "_-./\\ ".toList.contains c

def statement (text : List Char) : Option (Action × List Char) :=
  if "$env:".toList <+: text then
    (assigned ((text.drop 5).dropWhile nameChar)).map fun read =>
      (.set ((text.drop 5).takeWhile nameChar) read.1, read.2)
  else if text.takeWhile commandChar = [] then none
  else (behind (text.dropWhile commandChar)).map fun rest =>
    (.run (text.takeWhile commandChar), rest)

def statements : Nat → List Char → Option (List Action)
  | 0, _ => none
  | fuel + 1, text =>
      match text.dropWhile fun c => blank c || separator c with
      | [] => some []
      | c :: rest =>
          (statement (c :: rest)).bind fun read =>
            (statements fuel read.2).map fun later => read.1 :: later

def script (text : List Char) : Option (List Action) := statements (text.length + 1) text

end Statements

section Scanning

variable {tail : List Char}

def Unquoted (tail : List Char) : Prop := ∀ c, tail.head? = some c → isSingleQuote c = false

theorem scan_other {c : Char} (other : isSingleQuote c = false) (rest : List Char) :
    scan (c :: rest) = (scan rest).map fun read => (c :: read.1, read.2) := by
  cases rest with
  | nil =>
      rw [scan, scan, if_neg (Bool.eq_false_iff.1 other)]
      rfl
  | cons d rest => rw [scan, other, if_neg Bool.false_ne_true]

theorem scan_pair {c d : Char} (first : isSingleQuote c = true) (second : isSingleQuote d = true)
    (rest : List Char) :
    scan (c :: d :: rest) = (scan rest).map fun read => (d :: read.1, read.2) := by
  rw [scan, if_pos first, if_pos second]

theorem scan_close {c : Char} (closing : isSingleQuote c = true) (unquoted : Unquoted tail) :
    scan (c :: tail) = some ([], tail) := by
  cases tail with
  | nil => rw [scan, if_pos closing]
  | cons d rest =>
      rw [scan, if_pos closing, unquoted d rfl, if_neg Bool.false_ne_true]

theorem quoteTail_quote (text : List Char) :
    quoteTail ('\'' :: text) = '\'' :: '\'' :: quoteTail text := rfl

theorem quoteTail_other {c : Char} (other : c ≠ '\'') (text : List Char) :
    quoteTail (c :: text) = c :: quoteTail text := by
  rw [quoteTail, List.flatMap_cons, if_neg other]
  rfl

theorem isSingleQuote_iff {c : Char} (other : c ≠ '\'') : isSingleQuote c = typographic c := by
  rw [isSingleQuote, decide_eq_false other, Bool.false_or]

theorem scan_quoteTail {text : List Char} (plain : ∀ c ∈ text, typographic c = false)
    (unquoted : Unquoted tail) : scan (quoteTail text ++ tail) = some (text, tail) := by
  induction text with
  | nil => exact scan_close rfl unquoted
  | cons c rest ih =>
      obtain ⟨here, later⟩ := List.forall_mem_cons.1 plain
      by_cases quote : c = '\''
      · subst quote
        rw [quoteTail_quote, List.cons_append, List.cons_append, scan_pair rfl rfl, ih later]
        rfl
      · rw [quoteTail_other quote, List.cons_append,
          scan_other ((isSingleQuote_iff quote).trans here), ih later]
        rfl

theorem read_of_pair {c d : Char} {due text more rest : List Char} (first : isSingleQuote c = true)
    (second : isSingleQuote d = true) (full : due ≠ [])
    (read : scan (c :: d :: more) = some (due ++ text, rest)) :
    ∃ others, due = d :: others ∧ scan more = some (others ++ text, rest) := by
  rw [scan_pair first second, Option.map_eq_some_iff] at read
  obtain ⟨⟨content, behind⟩, scanned, same⟩ := read
  obtain ⟨e, others, rfl⟩ := List.exists_cons_of_ne_nil full
  rw [List.cons_append, Prod.mk.injEq, List.cons.injEq] at same
  obtain ⟨⟨rfl, rfl⟩, rfl⟩ := same
  exact ⟨others, rfl, scanned⟩

theorem scan_tail_ne {content rest : List Char} (unquoted : Unquoted tail)
    (quotes : ∀ c ∈ content, isSingleQuote c = true) : scan tail ≠ some (content, rest) := by
  intro read
  cases tail with
  | nil => exact nomatch read
  | cons c more =>
      have other := unquoted c rfl
      rw [scan_other other, Option.map_eq_some_iff] at read
      obtain ⟨_, -, same⟩ := read
      rw [Prod.mk.injEq] at same
      rw [quotes c (same.1 ▸ .head _)] at other
      exact nomatch other

theorem scan_close_ne {c : Char} {more due text rest : List Char} (closing : isSingleQuote c = true)
    (unquoted : Unquoted more) (full : due ≠ []) :
    scan (c :: more) ≠ some (due ++ text, rest) := by
  rw [scan_close closing unquoted]
  intro same
  rw [Option.some.injEq, Prod.mk.injEq, List.nil_eq_append_iff] at same
  exact full same.1.1

theorem scan_ne_of_nil {due : List Char} (unquoted : Unquoted tail) (full : due ≠ [])
    (quotes : ∀ c ∈ due, isSingleQuote c = true) (rest : List Char) :
    scan (quoteTail [] ++ tail) ≠ some (due ++ [], rest)
    ∧ scan ('\'' :: (quoteTail [] ++ tail)) ≠ some (due ++ [], rest) := by
  refine ⟨scan_close_ne rfl unquoted full, fun read => ?_⟩
  obtain ⟨others, rfl, behind⟩ := read_of_pair rfl rfl full read
  rw [List.append_nil] at behind
  exact scan_tail_ne unquoted (fun c member => quotes c (.tail _ member)) behind

theorem unquoted_cons {c : Char} (other : isSingleQuote c = false) (rest : List Char) :
    Unquoted (c :: rest) := fun _ same => Option.some.inj same ▸ other

theorem quotes_append {due more : List Char} (quotes : ∀ c ∈ due, isSingleQuote c = true)
    (others : ∀ c ∈ more, isSingleQuote c = true) : ∀ c ∈ due ++ more, isSingleQuote c = true :=
  fun c member => (List.mem_append.1 member).elim (quotes c) (others c)

theorem scan_ne_of_due (unquoted : Unquoted tail) (size : Nat) :
    ∀ text due : List Char, text.length ≤ size → due ≠ [] →
      (∀ c ∈ due, isSingleQuote c = true) → ∀ rest,
      scan (quoteTail text ++ tail) ≠ some (due ++ text, rest)
      ∧ scan ('\'' :: (quoteTail text ++ tail)) ≠ some (due ++ text, rest) := by
  induction size with
  | zero =>
      intro text due short full quotes rest
      rw [List.length_eq_zero_iff.1 (Nat.le_zero.1 short)]
      exact scan_ne_of_nil unquoted full quotes rest
  | succ size ih =>
      rintro (_ | ⟨c, text⟩) due short full quotes rest
      · exact scan_ne_of_nil unquoted full quotes rest
      rw [List.length_cons] at short
      -- the quotes that are due next, when the first one was given and `more` were passed over
      have next {others more left : List Char} (fewer : left.length ≤ size) (some_ : more ≠ [])
          (passed : ∀ d ∈ more, isSingleQuote d = true)
          (due : ∀ d ∈ others, isSingleQuote d = true) :=
        ih left (others ++ more) fewer (fun none => some_ (List.append_eq_nil_iff.1 none).2)
          (quotes_append due passed) rest
      have later {d : Char} {others : List Char} (same : due = d :: others) :
          ∀ e ∈ others, isSingleQuote e = true :=
        fun e member => quotes e (same ▸ .tail _ member)
      by_cases apostrophe : c = '\''
      · subst apostrophe
        have one : ∀ d ∈ ['\''], isSingleQuote d = true := by
          rintro d member
          rw [List.mem_singleton.1 member]
          rfl
        rw [quoteTail_quote]
        constructor
        · intro read
          obtain ⟨others, same, behind⟩ := read_of_pair rfl rfl full read
          rw [List.append_cons others] at behind
          exact (next (by omega) (List.cons_ne_nil _ _) one (later same)).1 behind
        · intro read
          obtain ⟨others, same, behind⟩ := read_of_pair rfl rfl full read
          rw [List.append_cons others] at behind
          exact (next (by omega) (List.cons_ne_nil _ _) one (later same)).2 behind
      rw [quoteTail_other apostrophe, List.cons_append]
      cases kind : isSingleQuote c with
      | false =>
          constructor
          · intro read
            rw [scan_other kind, Option.map_eq_some_iff] at read
            obtain ⟨_, -, same⟩ := read
            obtain ⟨d, others, rfl⟩ := List.exists_cons_of_ne_nil full
            rw [Prod.mk.injEq, List.cons_append, List.cons.injEq] at same
            rw [same.1.1, quotes d (.head _)] at kind
            exact nomatch kind
          · exact scan_close_ne rfl (unquoted_cons kind _) full
      | true =>
          have one : ∀ d ∈ [c], isSingleQuote d = true := by
            rintro d member
            rw [List.mem_singleton.1 member]
            exact kind
          constructor
          · cases text with
            | nil =>
                intro read
                obtain ⟨others, same, behind⟩ := read_of_pair kind rfl full read
                exact scan_tail_ne unquoted (quotes_append (later same) one) behind
            | cons d text =>
                rw [List.length_cons] at short
                by_cases apostrophe : d = '\''
                · subst apostrophe
                  intro read
                  obtain ⟨others, same, behind⟩ := read_of_pair kind rfl full read
                  have two : ∀ d ∈ [c, '\''], isSingleQuote d = true :=
                    List.forall_mem_cons.2 ⟨kind, List.forall_mem_singleton.2 rfl⟩
                  have split : others ++ c :: '\'' :: text = (others ++ [c, '\'']) ++ text := by
                    simp
                  rw [split] at behind
                  exact (next (by omega) (List.cons_ne_nil _ _) two (later same)).2 behind
                rw [quoteTail_other apostrophe, List.cons_append]
                cases kind' : isSingleQuote d with
                | false => exact scan_close_ne kind (unquoted_cons kind' _) full
                | true =>
                    intro read
                    obtain ⟨others, same, behind⟩ := read_of_pair kind kind' full read
                    have two : ∀ e ∈ [c, d], isSingleQuote e = true :=
                      List.forall_mem_cons.2 ⟨kind, List.forall_mem_singleton.2 kind'⟩
                    have split : others ++ c :: d :: text = (others ++ [c, d]) ++ text := by simp
                    rw [split] at behind
                    exact (next (by omega) (List.cons_ne_nil _ _) two (later same)).1 behind
          · intro read
            obtain ⟨others, same, behind⟩ := read_of_pair rfl kind full read
            rw [List.append_cons others] at behind
            exact (next (by omega) (List.cons_ne_nil _ _) one (later same)).1 behind

theorem plain_of_scan {text rest : List Char} (unquoted : Unquoted tail)
    (read : scan (quoteTail text ++ tail) = some (text, rest)) :
    ∀ c ∈ text, typographic c = false := by
  induction text with
  | nil => exact nofun
  | cons c text ih =>
      by_cases apostrophe : c = '\''
      · subst apostrophe
        rw [quoteTail_quote, List.cons_append, List.cons_append, scan_pair rfl rfl,
          Option.map_eq_some_iff] at read
        obtain ⟨⟨content, behind⟩, scanned, same⟩ := read
        simp only [Prod.mk.injEq, List.cons.injEq, true_and] at same
        obtain ⟨rfl, rfl⟩ := same
        exact List.forall_mem_cons.2 ⟨rfl, ih scanned⟩
      rw [quoteTail_other apostrophe, List.cons_append] at read
      cases kind : isSingleQuote c with
      | false =>
          rw [scan_other kind, Option.map_eq_some_iff] at read
          obtain ⟨⟨content, behind⟩, scanned, same⟩ := read
          simp only [Prod.mk.injEq, List.cons.injEq, true_and] at same
          obtain ⟨rfl, rfl⟩ := same
          exact List.forall_mem_cons.2 ⟨(isSingleQuote_iff apostrophe).symm.trans kind, ih scanned⟩
      | true =>
          have full : [c] ≠ [] := List.cons_ne_nil _ _
          rw [← @List.singleton_append _ c text] at read
          cases text with
          | nil =>
              obtain ⟨others, same, -⟩ := read_of_pair kind rfl full read
              exact absurd (List.cons.inj same).1 apostrophe
          | cons d text =>
              by_cases apostrophe' : d = '\''
              · subst apostrophe'
                obtain ⟨others, same, -⟩ := read_of_pair kind rfl full read
                exact absurd (List.cons.inj same).1 apostrophe
              rw [quoteTail_other apostrophe', List.cons_append] at read
              cases kind' : isSingleQuote d with
              | false => exact absurd read (scan_close_ne kind (unquoted_cons kind' _) full)
              | true =>
                  obtain ⟨others, same, behind⟩ := read_of_pair kind kind' full read
                  obtain ⟨rfl, rfl⟩ := List.cons.inj same
                  have one : ∀ e ∈ [c], isSingleQuote e = true := List.forall_mem_singleton.2 kind
                  exact absurd behind (scan_ne_of_due unquoted text.length text [c] (Nat.le_refl _)
                    full one rest).1

end Scanning

section Assignments

variable {name : List Char}

def setLine (name value : List Char) : List Char :=
  "$env:".toList ++ name ++ " = ".toList ++ quote value

theorem append_four (first second third fourth fifth : List Char) :
    first ++ second ++ third ++ fourth ++ fifth =
      first ++ (second ++ (third ++ (fourth ++ fifth))) := by
  simp only [List.append_assoc]

theorem statement_setLine (named : ∀ c ∈ name, nameChar c = true) (value tail : List Char) :
    statement (setLine name value ++ tail) = (scan (quoteTail value ++ tail)).bind fun read =>
      (behind read.2).map fun rest => (.set name read.1, rest) := by
  have split : setLine name value ++ tail =
      "$env:".toList ++ (name ++ ' ' :: '=' :: ' ' :: '\'' :: (quoteTail value ++ tail)) := by
    exact append_four _ _ _ _ _
  have taken : (name ++ ' ' :: '=' :: ' ' :: '\'' :: (quoteTail value ++ tail)).takeWhile nameChar =
      name := by
    rw [List.takeWhile_append_of_pos named, List.takeWhile_cons_of_neg (by decide),
      List.append_nil]
  have left : (name ++ ' ' :: '=' :: ' ' :: '\'' :: (quoteTail value ++ tail)).dropWhile nameChar =
      ' ' :: '=' :: ' ' :: '\'' :: (quoteTail value ++ tail) := by
    rw [List.dropWhile_append_of_pos named, List.dropWhile_cons_of_neg (by decide)]
  have dropped : ("$env:".toList ++
      (name ++ ' ' :: '=' :: ' ' :: '\'' :: (quoteTail value ++ tail))).drop 5 =
        name ++ ' ' :: '=' :: ' ' :: '\'' :: (quoteTail value ++ tail) := rfl
  have value_ : assigned (' ' :: '=' :: ' ' :: '\'' :: (quoteTail value ++ tail)) =
      (scan (quoteTail value ++ tail)).bind fun read =>
        (behind read.2).map fun rest => (read.1, rest) := rfl
  rw [split, statement, if_pos (List.prefix_append _ _), dropped, taken, left, value_]
  cases scan (quoteTail value ++ tail) with
  | none => rfl
  | some read =>
      rw [Option.bind_some, Option.bind_some]
      cases behind read.2 <;> rfl

theorem length_le_intercalate {lines : List (List Char)} (full : ∀ line ∈ lines, line ≠ []) :
    lines.length ≤ (List.intercalate ['\n'] lines).length := by
  induction lines with
  | nil => exact Nat.le_refl _
  | cons line rest ih =>
      obtain ⟨here, later⟩ := List.forall_mem_cons.1 full
      have some_ := List.length_pos_iff.2 here
      cases rest with
      | nil =>
          rw [List.intercalate_singleton]
          exact some_
      | cons next rest =>
          have below := ih later
          simp only [List.intercalate_cons_cons, List.length_append, List.length_cons] at below ⊢
          omega

theorem statements_setLines {entries : List (List Char × List Char)}
    (named : ∀ entry ∈ entries, ∀ c ∈ entry.1, nameChar c = true) {fuel : Nat}
    (enough : entries.length < fuel) :
    statements fuel (List.intercalate ['\n'] (entries.map fun entry => setLine entry.1 entry.2)) =
        some (entries.map fun entry => .set entry.1 entry.2) ↔
      ∀ entry ∈ entries, ∀ c ∈ entry.2, typographic c = false := by
  induction entries generalizing fuel with
  | nil =>
      obtain ⟨fuel, rfl⟩ := Nat.exists_eq_add_one.2 enough
      exact ⟨fun _ => nofun, fun _ => rfl⟩
  | cons entry rest ih =>
      obtain ⟨fuel, rfl⟩ := Nat.exists_eq_add_one.2 (Nat.zero_lt_of_lt enough)
      obtain ⟨here, others⟩ := List.forall_mem_cons.1 named
      obtain ⟨name, value⟩ := entry
      have later := ih others (Nat.lt_of_succ_lt_succ enough)
      obtain ⟨tail, lines, unquoted, next⟩ : ∃ tail,
          List.intercalate ['\n'] (((name, value) :: rest).map fun entry =>
            setLine entry.1 entry.2) = setLine name value ++ tail ∧ Unquoted tail
          ∧ behind tail = some (List.intercalate ['\n']
            (rest.map fun entry => setLine entry.1 entry.2)) := by
        cases rest with
        | nil =>
            refine ⟨[], ?_, nofun, rfl⟩
            rw [List.map_singleton, List.intercalate_singleton, List.append_nil]
        | cons entry rest =>
            refine ⟨_, by rw [List.map_cons, List.map_cons, List.intercalate_cons_cons,
              List.append_assoc, List.singleton_append], unquoted_cons rfl _, rfl⟩
      obtain ⟨more, begins⟩ : ∃ more, setLine name value ++ tail = '$' :: more := ⟨_, rfl⟩
      have start : ('$' :: more).dropWhile (fun c => blank c || separator c) = '$' :: more := rfl
      rw [lines, begins, statements, start]
      simp only
      rw [← begins, statement_setLine here, List.forall_mem_cons]
      constructor
      · intro answered
        obtain ⟨⟨action, left⟩, read, continued⟩ := Option.bind_eq_some_iff.1 answered
        obtain ⟨⟨content, left'⟩, scanned, ended⟩ := Option.bind_eq_some_iff.1 read
        obtain ⟨_, followed, same⟩ := Option.map_eq_some_iff.1 ended
        obtain ⟨actions, listed, whole⟩ := Option.map_eq_some_iff.1 continued
        rw [Prod.mk.injEq] at same
        obtain ⟨rfl, rfl⟩ := same
        rw [List.map_cons, List.cons.injEq, Action.set.injEq] at whole
        obtain ⟨⟨-, rfl⟩, rfl⟩ := whole
        have plain := plain_of_scan unquoted scanned
        rw [scan_quoteTail plain unquoted, Option.some.injEq, Prod.mk.injEq] at scanned
        rw [← scanned.2, next, Option.some.injEq] at followed
        exact ⟨plain, later.1 (followed ▸ listed)⟩
      · rintro ⟨plain, free⟩
        rw [scan_quoteTail plain unquoted, Option.bind_some, next, Option.map_some,
          Option.bind_some, later.2 free]
        rfl

theorem script_setLines {entries : List (List Char × List Char)}
    (named : ∀ entry ∈ entries, ∀ c ∈ entry.1, nameChar c = true) :
    script (List.intercalate ['\n'] (entries.map fun entry => setLine entry.1 entry.2)) =
        some (entries.map fun entry => .set entry.1 entry.2) ↔
      ∀ entry ∈ entries, ∀ c ∈ entry.2, typographic c = false := by
  refine statements_setLines named (Nat.lt_succ_of_le ?_)
  rw [← List.length_map fun entry : List Char × List Char => setLine entry.1 entry.2]
  refine length_le_intercalate fun line member => ?_
  obtain ⟨entry, -, rfl⟩ := List.mem_map.1 member
  exact List.cons_ne_nil _ _

end Assignments

end Forge.Library.PowerShell
