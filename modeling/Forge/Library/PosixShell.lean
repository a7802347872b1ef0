import Forge.Library.Text
import Mathlib.Data.List.Basic

/-! The quoting rules of a POSIX shell: how a script is read as commands, and what the commands do
to the environment. Scripts that need more than quoting are not read. -/

namespace Forge.Library.PosixShell

open Forge.Library.Text

/-- Where a reader stands: between words, in a word, in quotes, behind a backslash, or in a
comment. -/
inductive Place where
  | gap
  | word
  | single
  | double
  | escaped (inside : Bool)
  | doubleEscaped
  | comment
deriving DecidableEq

structure Reader where
  commands : List (List (List Char))
  words : List (List Char)
  word : List Char
  place : Place
deriving DecidableEq

def special (c : Char) : Bool := "|&;<>()$`*?[~".toList.contains c

def blank (c : Char) : Bool := c = ' ' || c = '\t'

namespace Reader

variable (reader : Reader)

def push (c : Char) (place : Place) : Reader :=
  { reader with word := reader.word ++ [c], place }

def endWord : Reader :=
  { reader with words := reader.words ++ [reader.word], word := [], place := .gap }

def endCommand : Reader :=
  { commands := reader.commands ++ if reader.words = [] then [] else [reader.words]
    words := [], word := [], place := .gap }

def bare (c : Char) : Option Reader :=
  if c = '\'' then some { reader with place := .single }
  else if c = '"' then some { reader with place := .double }
  else if c = '\\' then some { reader with place := .escaped (reader.place = .word) }
  else if special c then none
  else some (reader.push c .word)

def step (c : Char) : Option Reader :=
  if c = '\x00' then none
  else match reader.place with
  | .gap =>
      if blank c then some reader
      else if c = '\n' then some reader.endCommand
      else if c = '#' then some { reader with place := .comment }
      else reader.bare c
  | .word =>
      if blank c then some reader.endWord
      else if c = '\n' then some reader.endWord.endCommand
      else reader.bare c
  | .single => some (if c = '\'' then { reader with place := .word } else reader.push c .single)
  | .double =>
      if c = '"' then some { reader with place := .word }
      else if c = '\\' then some { reader with place := .doubleEscaped }
      else if c = '$' ∨ c = '`' then none
      else some (reader.push c .double)
  | .escaped inside =>
      some (if c = '\n' then { reader with place := if inside then .word else .gap }
        else reader.push c .word)
  | .doubleEscaped =>
      some (if c = '\n' then { reader with place := .double }
        else if c = '$' ∨ c = '`' ∨ c = '"' ∨ c = '\\' then reader.push c .double
        else (reader.push '\\' .double).push c .double)
  | .comment => some (if c = '\n' then reader.endCommand else reader)

def run (text : List Char) : Option Reader :=
  text.foldlM step reader

def finish : Option (List (List (List Char))) :=
  match reader.place with
  | .gap | .comment => some reader.endCommand.commands
  | .word => some reader.endWord.endCommand.commands
  | _ => none

end Reader

def atCommand (commands : List (List (List Char))) : Reader :=
  ⟨commands, [], [], .gap⟩

def read (text : List Char) : Option (List (List (List Char))) :=
  ((atCommand []).run text).bind Reader.finish

section Effects

inductive Action where
  | set (name value : List Char)
  | run (words : List (List Char))
deriving DecidableEq

def nameStart (c : Char) : Bool := c.isAlpha || c = '_'

def nameChar (c : Char) : Bool := c.isAlphanum || c = '_'

def isName : List Char → Bool
  | [] => false
  | c :: rest => nameStart c && rest.all nameChar

def assignment (word : List Char) : Option Action :=
  match splitOnce '=' word with
  | some (name, value) => if isName name then some (.set name value) else none
  | none => none

def actions : List (List Char) → List Action
  | [] => []
  | command :: args =>
      if command = "export".toList then (args.mapM assignment).getD [.run (command :: args)]
      else [.run (command :: args)]

def script (text : List Char) : Option (List Action) :=
  (read text).map fun commands => commands.flatMap actions

end Effects

def quote (text : List Char) : List Char :=
  '\'' :: (text.flatMap fun c => if c = '\'' then "'\"'\"'".toList else [c]) ++ ['\'']

section Reading

variable {reader : Reader} {text : List Char} {c : Char}

theorem run_append (first rest : List Char) :
    reader.run (first ++ rest) = (reader.run first).bind fun after => after.run rest := by
  simp only [Reader.run, List.foldlM_append]
  rfl

theorem run_cons (c : Char) (rest : List Char) :
    reader.run (c :: rest) = (reader.step c).bind fun after => after.run rest := by
  simp only [Reader.run, List.foldlM_cons]
  rfl

@[simp] theorem run_nil : reader.run [] = some reader := rfl

def Plain (c : Char) : Prop :=
  c ≠ '\x00' ∧ blank c = false ∧ c ≠ '\n' ∧ c ≠ '\'' ∧ c ≠ '"' ∧ c ≠ '\\' ∧ special c = false

instance (c : Char) : Decidable (Plain c) := instDecidableAnd

theorem bare_of_plain (plain : Plain c) : reader.bare c = some (reader.push c .word) := by
  obtain ⟨-, -, -, quote, double, slash, other⟩ := plain
  rw [Reader.bare, if_neg quote, if_neg double, if_neg slash, other, if_neg Bool.false_ne_true]

theorem step_plain (plain : Plain c) (inside : reader.place = .word) :
    reader.step c = some (reader.push c .word) := by
  obtain ⟨zero, gap, line, -⟩ := id plain
  rw [Reader.step, if_neg zero, inside]
  simp only
  rw [gap, if_neg Bool.false_ne_true, if_neg line, bare_of_plain plain]

theorem run_plain (plain : ∀ c ∈ text, Plain c) (inside : reader.place = .word) :
    reader.run text = some { reader with word := reader.word ++ text } := by
  induction text generalizing reader with
  | nil => rw [run_nil, List.append_nil]
  | cons c rest ih =>
      obtain ⟨here, later⟩ := List.forall_mem_cons.1 plain
      rw [run_cons, step_plain here inside, Option.bind_some, ih later rfl]
      simp [Reader.push, inside]

theorem run_word (plain : ∀ c ∈ text, Plain c) (full : text ≠ [])
    (noComment : text.head? ≠ some '#') (gap : reader.place = .gap) (fresh : reader.word = []) :
    reader.run text = some { reader with word := text, place := .word } := by
  obtain ⟨c, rest, rfl⟩ := List.exists_cons_of_ne_nil full
  obtain ⟨here, later⟩ := List.forall_mem_cons.1 plain
  have first : reader.step c = some (reader.push c .word) := by
    obtain ⟨zero, outside, line, -⟩ := id here
    have other : c ≠ '#' := fun same => noComment (congrArg some same)
    rw [Reader.step, if_neg zero, gap]
    simp only
    rw [outside, if_neg Bool.false_ne_true, if_neg line, if_neg other, bare_of_plain here]
  rw [run_cons, first, Option.bind_some, run_plain later rfl]
  simp [Reader.push, fresh]

theorem run_quoted (text : List Char) (noZero : '\x00' ∉ text) (inside : reader.place = .single) :
    reader.run (text.flatMap fun c => if c = '\'' then "'\"'\"'".toList else [c]) =
      some { reader with word := reader.word ++ text } := by
  induction text generalizing reader with
  | nil => rw [List.flatMap_nil, run_nil, List.append_nil]
  | cons c rest ih =>
      obtain ⟨other, later⟩ := not_or.1 (mt List.mem_cons.2 noZero)
      have first : reader.run (if c = '\'' then "'\"'\"'".toList else [c]) =
          some (reader.push c .single) := by
        split
        case isTrue same =>
            subst same
            simp [run_cons, Reader.step, Reader.bare, Reader.push, inside, blank]
        case isFalse plain =>
            rw [run_cons, Reader.step, if_neg (Ne.symm other), inside]
            simp only
            rw [if_neg plain]
            rfl
      rw [List.flatMap_cons, run_append, first, Option.bind_some, ih later rfl]
      simp [Reader.push, inside]

theorem run_quote (text : List Char) (noZero : '\x00' ∉ text) (inside : reader.place = .word) :
    reader.run (quote text) = some { reader with word := reader.word ++ text } := by
  have opened : reader.step '\'' = some { reader with place := .single } := by
    rw [Reader.step, if_neg (by decide), inside]
    rfl
  rw [quote, List.cons_append, run_cons, opened, Option.bind_some, run_append,
    run_quoted text noZero rfl, Option.bind_some, run_cons]
  simp [Reader.step, inside]

theorem plain_of_nameChar (named : nameChar c = true) : Plain c := by
  have excluded : ("\x00 \t\n'\"\\|&;<>()$`*?[~".toList).all (fun d => ! nameChar d) = true := by
    decide
  have other : ∀ d ∈ "\x00 \t\n'\"\\|&;<>()$`*?[~".toList, c ≠ d := by
    rintro d member rfl
    have unnamed := List.all_eq_true.1 excluded c member
    rw [named] at unnamed
    exact Bool.false_ne_true unnamed
  refine ⟨other _ (by decide), ?_, other _ (by decide), other _ (by decide), other _ (by decide),
    other _ (by decide), ?_⟩
  · rw [blank, Bool.or_eq_false_iff, decide_eq_false_iff_not, decide_eq_false_iff_not]
    exact ⟨other _ (by decide), other _ (by decide)⟩
  · rw [special, ← Bool.not_eq_true, List.contains_iff_mem]
    exact fun member => other c (List.mem_of_mem_drop (i := 7) member) rfl

end Reading

section Lines

def Reads (line : List Char) (command : List (List Char)) : Prop :=
  ∀ commands, ∃ reader, (atCommand commands).run line = some reader ∧ reader.place = .word
    ∧ reader.endWord.endCommand = atCommand (commands ++ [command])

theorem Reads.finish {line : List Char} {command : List (List Char)} (reads : Reads line command)
    (commands : List (List (List Char))) :
    ((atCommand commands).run line).bind Reader.finish = some (commands ++ [command]) := by
  obtain ⟨reader, read, place, ended⟩ := reads commands
  rw [read, Option.bind_some, Reader.finish, place]
  simp only
  rw [ended]
  rfl

theorem Reads.feed {line : List Char} {command : List (List Char)} (reads : Reads line command)
    (commands : List (List (List Char))) (rest : List Char) :
    (atCommand commands).run (line ++ '\n' :: rest) =
      (atCommand (commands ++ [command])).run rest := by
  obtain ⟨reader, read, place, ended⟩ := reads commands
  have step : reader.step '\n' = some reader.endWord.endCommand := by
    rw [Reader.step, if_neg (by decide), place]
    rfl
  rw [run_append, read, Option.bind_some, run_cons, step, Option.bind_some, ended]

theorem read_lines {lines : List (List Char × List (List Char))}
    (reads : ∀ line ∈ lines, Reads line.1 line.2) :
    read (List.intercalate ['\n'] (lines.map Prod.fst)) = some (lines.map Prod.snd) := by
  have behind : ∀ commands,
      ((atCommand commands).run (List.intercalate ['\n'] (lines.map Prod.fst))).bind
        Reader.finish = some (commands ++ lines.map Prod.snd) := by
    induction lines with
    | nil =>
        intro commands
        simp [Reader.finish, atCommand, Reader.endCommand]
    | cons line rest ih =>
        intro commands
        obtain ⟨here, later⟩ := List.forall_mem_cons.1 reads
        cases rest with
        | nil =>
            rw [List.map_singleton, List.intercalate_singleton]
            exact here.finish commands
        | cons next rest =>
            rw [List.map_cons, List.map_cons, List.intercalate_cons_cons, List.append_assoc,
              List.singleton_append, here.feed, ← List.map_cons, ih later, List.append_assoc]
            rfl
  exact behind []

theorem nameChar_of_isName {name : List Char} (named : isName name = true) :
    ∀ c ∈ name, nameChar c = true := by
  cases name with
  | nil => exact nofun
  | cons c rest =>
      rw [isName, Bool.and_eq_true] at named
      refine List.forall_mem_cons.2 ⟨?_, fun d member => List.all_eq_true.1 named.2 d member⟩
      rw [nameChar, Char.isAlphanum, Bool.or_assoc, Bool.or_comm c.isDigit, ← Bool.or_assoc,
        ← nameStart, named.1, Bool.true_or]

theorem reads_export {name value : List Char} (named : isName name = true)
    (noZero : '\x00' ∉ value) :
    Reads ("export ".toList ++ name ++ '=' :: quote value)
      ["export".toList, name ++ '=' :: value] := by
  intro commands
  have names := nameChar_of_isName named
  obtain ⟨c, rest, rfl⟩ : ∃ c rest, name = c :: rest := by
    cases name with
    | nil => exact nomatch named
    | cons c rest => exact ⟨c, rest, rfl⟩
  have plain : ∀ d ∈ c :: rest ++ ['='], Plain d := by
    intro d member
    rcases List.mem_append.1 member with inside | last
    · exact plain_of_nameChar (names d inside)
    · rw [List.mem_singleton.1 last]
      decide
  have noComment : (c :: rest ++ ['=']).head? ≠ some '#' := by
    intro same
    rw [List.cons_append, List.head?_cons, Option.some.injEq] at same
    exact absurd (same ▸ names c (.head _)) (by decide)
  have first : (atCommand commands).run "export ".toList =
      some ⟨commands, ["export".toList], [], .gap⟩ := by
    rfl
  have split : "export ".toList ++ c :: rest ++ '=' :: quote value =
      "export ".toList ++ ((c :: rest ++ ['=']) ++ quote value) := by simp
  refine ⟨⟨commands, ["export".toList], c :: rest ++ '=' :: value, .word⟩, ?_, rfl, rfl⟩
  rw [split, run_append, first, Option.bind_some, run_append,
    run_word plain (by simp) noComment rfl rfl, Option.bind_some, run_quote value noZero rfl]
  simp

theorem reads_word {word : List Char} (plain : ∀ c ∈ word, Plain c) (full : word ≠ [])
    (noComment : word.head? ≠ some '#') : Reads word [word] :=
  fun commands => ⟨⟨commands, [], word, .word⟩, run_word plain full noComment rfl rfl, rfl, rfl⟩

theorem not_mem_name {name : List Char} (named : isName name = true) : '=' ∉ name :=
  fun member => absurd (nameChar_of_isName named _ member) (by decide)

theorem actions_export {name : List Char} (named : isName name = true) (value : List Char) :
    actions ["export".toList, name ++ '=' :: value] = [.set name value] := by
  rw [actions, if_pos rfl, List.mapM_cons, assignment, splitOnce_append (not_mem_name named)]
  simp only
  rw [if_pos named]
  rfl

end Lines

end Forge.Library.PosixShell
