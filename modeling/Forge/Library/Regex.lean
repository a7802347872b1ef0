import Mathlib.Data.List.Basic
import Mathlib.Logic.Relation

/-! Regular expressions: what they match in a text, and how they are read from their spelling. -/

namespace Forge.Library.Regex

inductive Pattern where
  | empty
  | char (c : Char)
  | any
  | start
  | finish
  | seq (first second : Pattern)
  | alt (first second : Pattern)
  | star (body : Pattern)

/-- The pattern matches the text between two positions. -/
def Pattern.Spans (text : List Char) : Pattern → Nat → Nat → Prop
  | .empty, i, j => i = j
  | .char c, i, j => text[i]? = some c ∧ j = i + 1
  | .any, i, j => (∃ c, text[i]? = some c ∧ c ≠ '\n') ∧ j = i + 1
  | .start, i, j => i = 0 ∧ i = j
  | .finish, i, j => i = text.length ∧ i = j
  | .seq first second, i, j => ∃ k, first.Spans text i k ∧ second.Spans text k j
  | .alt first second, i, j => first.Spans text i j ∨ second.Spans text i j
  | .star body, i, j => Relation.ReflTransGen (body.Spans text) i j

def Pattern.Finds (pattern : Pattern) (text : List Char) : Prop :=
  ∃ i ≤ text.length, ∃ j, pattern.Spans text i j

section Lists

def sequence (items : List Pattern) : Pattern := items.foldr .seq .empty

def literal (text : List Char) : Pattern := sequence (text.map .char)

def choice (branches : List Pattern) (last : Pattern) : Pattern := branches.foldr .alt last

variable {text : List Char} {i j : Nat}

theorem spans_sequence_cons {item : Pattern} {items : List Pattern} :
    (sequence (item :: items)).Spans text i j ↔
      ∃ k, item.Spans text i k ∧ (sequence items).Spans text k j :=
  Iff.rfl

theorem spans_sequence_append {first second : List Pattern} :
    (sequence (first ++ second)).Spans text i j ↔
      ∃ k, (sequence first).Spans text i k ∧ (sequence second).Spans text k j := by
  induction first generalizing i with
  | nil => exact ⟨fun spans => ⟨i, rfl, spans⟩, fun ⟨_, same, spans⟩ => same ▸ spans⟩
  | cons item items ih =>
      rw [List.cons_append, spans_sequence_cons]
      constructor
      · rintro ⟨k, here, rest⟩
        obtain ⟨middle, left, right⟩ := ih.1 rest
        exact ⟨middle, ⟨k, here, left⟩, right⟩
      · rintro ⟨middle, ⟨k, here, left⟩, right⟩
        exact ⟨k, here, ih.2 ⟨middle, left, right⟩⟩

theorem spans_literal {word : List Char} :
    (literal word).Spans text i j ↔ j = i + word.length ∧ word <+: text.drop i := by
  induction word generalizing i with
  | nil => exact ⟨fun same => ⟨same.symm, List.nil_prefix⟩, fun ⟨same, _⟩ => same.symm⟩
  | cons c rest ih =>
      rw [literal, List.map_cons, spans_sequence_cons]
      constructor
      · rintro ⟨k, ⟨here, rfl⟩, spans⟩
        obtain ⟨rfl, follows⟩ := ih.1 spans
        obtain ⟨bound, rfl⟩ := List.getElem?_eq_some_iff.1 here
        refine ⟨by rw [List.length_cons]; omega, ?_⟩
        rw [List.drop_eq_getElem_cons bound]
        exact List.cons_prefix_cons.2 ⟨rfl, follows⟩
      · rintro ⟨rfl, follows⟩
        have bound : i < text.length := by
          have shorter := follows.length_le
          rw [List.length_cons, List.length_drop] at shorter
          omega
        rw [List.drop_eq_getElem_cons bound] at follows
        obtain ⟨same, follows⟩ := List.cons_prefix_cons.1 follows
        refine ⟨i + 1, ⟨?_, rfl⟩, ih.2 ⟨by rw [List.length_cons]; omega, follows⟩⟩
        rw [List.getElem?_eq_getElem bound, same]

theorem spans_choice {branches : List Pattern} {last : Pattern} :
    (choice branches last).Spans text i j ↔
      ∃ branch ∈ branches ++ [last], branch.Spans text i j := by
  induction branches with
  | nil => simp [choice]
  | cons branch rest ih =>
      rw [List.cons_append, List.exists_mem_cons_iff, ← ih]
      exact Iff.rfl

theorem finds_anchored {front back last : List Char} {words : List (List Char)} :
    (sequence (.start :: (front.map .char ++
        choice (words.map literal) (literal last) :: (back.map .char ++ [.finish])))).Finds text ↔
      ∃ word ∈ words ++ [last], text = front ++ word ++ back := by
  have branches : words.map literal ++ [literal last] = (words ++ [last]).map literal := by simp
  constructor
  · rintro ⟨_, -, j, _, ⟨rfl, rfl⟩, spans⟩
    obtain ⟨_, before, _, group, spans⟩ := spans_sequence_append.1 spans
    obtain ⟨rfl, t, rfl⟩ := spans_literal.1 before
    obtain ⟨branch, member, group⟩ := spans_choice.1 group
    rw [branches] at member
    obtain ⟨word, listed, rfl⟩ := List.mem_map.1 member
    obtain ⟨rfl, follows⟩ := spans_literal.1 group
    rw [Nat.zero_add, List.drop_left] at follows
    obtain ⟨t, rfl⟩ := follows
    obtain ⟨_, behind, _, ⟨ended, -⟩, -⟩ := spans_sequence_append.1 spans
    obtain ⟨rfl, follows⟩ := spans_literal.1 behind
    rw [← List.append_assoc, Nat.zero_add, ← List.length_append, List.drop_left] at follows
    obtain ⟨t, rfl⟩ := follows
    have nothing : t = [] := by
      simp only [List.length_append] at ended
      exact List.length_eq_zero_iff.1 (by omega)
    exact ⟨word, listed, by simp [nothing]⟩
  · rintro ⟨word, member, rfl⟩
    refine ⟨0, Nat.zero_le _, (front ++ word ++ back).length, 0, ⟨rfl, rfl⟩,
      spans_sequence_append.2 ⟨front.length, spans_literal.2 ⟨(Nat.zero_add _).symm, ?_⟩,
        (front ++ word).length, spans_choice.2 ⟨literal word, ?_, spans_literal.2 ⟨?_, ?_⟩⟩,
        spans_sequence_append.2 ⟨(front ++ word ++ back).length, spans_literal.2 ⟨?_, ?_⟩,
          _, ⟨rfl, rfl⟩, rfl⟩⟩⟩
    · rw [List.drop_zero, List.append_assoc]
      exact List.prefix_append _ _
    · rw [branches]
      exact List.mem_map_of_mem member
    · rw [List.length_append]
    · rw [List.append_assoc, List.drop_left]
      exact List.prefix_append _ _
    · rw [List.length_append]
    · simp only [List.drop_left, List.prefix_rfl]

end Lists

section Reading

structure Frame where
  branches : List Pattern
  items : List Pattern

structure Reader where
  escaped : Bool
  outer : List Frame
  frame : Frame

namespace Frame

def new : Frame := ⟨[], []⟩

def push (frame : Frame) (items : List Pattern) : Frame :=
  { frame with items := frame.items ++ items }

def branch (frame : Frame) : Frame :=
  ⟨frame.branches ++ [sequence frame.items], []⟩

def close (frame : Frame) : Pattern := choice frame.branches (sequence frame.items)

def repeated (frame : Frame) (repetition : Pattern → Pattern) : Option Frame :=
  match frame.items.getLast? with
  | none => none
  | some (.star _) => none
  | some item => some { frame with items := frame.items.dropLast ++ [repetition item] }

end Frame

def isPunctuation (c : Char) : Bool :=
  c.toNat < 128 && !c.isAlphanum

namespace Reader

def push (reader : Reader) (items : List Pattern) : Reader :=
  { reader with escaped := false, frame := reader.frame.push items }

/-- One character of the spelling. Classes and counted repetitions are not read. -/
def step (reader : Reader) (c : Char) : Option Reader :=
  if reader.escaped then
    if isPunctuation c then some (reader.push [.char c]) else none
  else
    match c with
    | '\\' => some { reader with escaped := true }
    | '^' => some (reader.push [.start])
    | '$' => some (reader.push [.finish])
    | '.' => some (reader.push [.any])
    | '|' => some { reader with frame := reader.frame.branch }
    | '(' => some { reader with outer := reader.frame :: reader.outer, frame := .new }
    | ')' =>
        match reader.outer with
        | [] => none
        | frame :: outer => some { reader with outer, frame := frame.push [reader.frame.close] }
    | '*' => (reader.frame.repeated .star).map fun frame => { reader with frame }
    | '+' => (reader.frame.repeated fun item => .seq item (.star item)).map fun frame =>
        { reader with frame }
    | '?' => (reader.frame.repeated fun item => .alt item .empty).map fun frame =>
        { reader with frame }
    | '[' => none
    | '\x7b' => none
    | c => some (reader.push [.char c])

def read (reader : Reader) (spelling : List Char) : Option Reader :=
  spelling.foldlM step reader

end Reader

def parse (spelling : List Char) : Option Pattern :=
  match Reader.read ⟨false, [], .new⟩ spelling with
  | some ⟨false, [], frame⟩ => some frame.close
  | _ => none

def Matches (spelling text : List Char) : Prop :=
  ∃ pattern, parse spelling = some pattern ∧ pattern.Finds text

def isSpecial (c : Char) : Bool :=
  ['\\', '^', '$', '.', '|', '(', ')', '*', '+', '?', '[', '\x7b'].contains c

variable {reader : Reader}

theorem read_append {first second : List Char} :
    reader.read (first ++ second) = (reader.read first).bind fun next => next.read second :=
  List.foldlM_append

theorem read_cons {c : Char} {rest : List Char} :
    reader.read (c :: rest) = (reader.step c).bind fun next => next.read rest :=
  List.foldlM_cons

theorem step_plain {c : Char} (plain : isSpecial c = false) (unescaped : reader.escaped = false) :
    reader.step c = some (reader.push [.char c]) := by
  unfold Reader.step
  rw [unescaped, if_neg Bool.false_ne_true]
  split
  case h_13 => rfl
  all_goals cases plain

theorem read_escaped {c : Char} {rest : List Char} (punctuation : isPunctuation c = true)
    (unescaped : reader.escaped = false) :
    reader.read ('\\' :: c :: rest) = (reader.push [.char c]).read rest := by
  have first : reader.step '\\' = some { reader with escaped := true } := by
    unfold Reader.step
    rw [unescaped]
    rfl
  have second : Reader.step { reader with escaped := true } c = some (reader.push [.char c]) := by
    unfold Reader.step
    rw [if_pos rfl, if_pos punctuation]
    rfl
  rw [read_cons, first, Option.bind_some, read_cons, second, Option.bind_some]

theorem read_plain {c : Char} {rest : List Char} (plain : isSpecial c = false)
    (unescaped : reader.escaped = false) :
    reader.read (c :: rest) = (reader.push [.char c]).read rest := by
  rw [read_cons, step_plain plain unescaped, Option.bind_some]

theorem push_push (first second : List Pattern) :
    (reader.push first).push second = reader.push (first ++ second) := by
  simp [Reader.push, Frame.push]

theorem push_nil (unescaped : reader.escaped = false) : reader.push [] = reader := by
  obtain ⟨escaped, outer, frame⟩ := reader
  simp only at unescaped
  simp [Reader.push, Frame.push, unescaped]

def Spells (spell : List Char → List Char) : Prop :=
  ∀ (reader : Reader) (word rest : List Char), reader.escaped = false →
    reader.read (spell word ++ rest) = (reader.push (word.map .char)).read rest

theorem read_bar {rest : List Char} (unescaped : reader.escaped = false) :
    reader.read ('|' :: rest) = Reader.read { reader with frame := reader.frame.branch } rest := by
  have bar : reader.step '|' = some { reader with frame := reader.frame.branch } := by
    unfold Reader.step
    rw [unescaped]
    rfl
  rw [read_cons, bar, Option.bind_some]

theorem read_branches {spell : List Char → List Char} (spells : Spells spell)
    {outer : List Frame} {branches : List Pattern} {word : List Char} {words : List (List Char)}
    {rest : List Char} :
    ∃ frame, Reader.read ⟨false, outer, ⟨branches, []⟩⟩
          (List.intercalate ['|'] ((word :: words).map spell) ++ rest) =
        Reader.read ⟨false, outer, frame⟩ rest
      ∧ frame.close = choice (branches ++ ((word :: words).dropLast.map literal))
        (literal ((word :: words).getLast (List.cons_ne_nil _ _))) := by
  induction words generalizing branches word with
  | nil =>
      refine ⟨⟨branches, word.map .char⟩, ?_, by simp [Frame.close, literal]⟩
      rw [List.map_singleton, List.intercalate_singleton, spells _ _ _ rfl]
      rfl
  | cons next words ih =>
      obtain ⟨frame, read, closed⟩ := @ih (branches ++ [literal word]) next
      refine ⟨frame, ?_, ?_⟩
      · rw [← read, List.map_cons, List.map_cons, List.intercalate_cons_cons, List.append_assoc,
          List.append_assoc, spells _ _ _ rfl, List.singleton_append, read_bar rfl]
        rfl
      · rw [closed]
        simp

end Reading

end Forge.Library.Regex
