import Mathlib.Data.List.Basic

/-! Comma-separated values: the escaping of a cell, and a reader of records whose quoted cells may
hold separators and line breaks. -/

namespace Forge.Library.Csv

/-- Where a reader stands: at the start of a cell, in a bare cell, in a quoted cell, past a quote
in a quoted cell, or past a carriage return that ends a record. -/
inductive Place where
  | start
  | bare
  | quoted
  | closing
  | returned
deriving DecidableEq, Repr

structure Reader where
  records : List (List (List Char))
  cells : List (List Char)
  cell : List Char
  place : Place
deriving DecidableEq, Repr

namespace Reader

variable (reader : Reader)

def push (c : Char) (place : Place) : Reader :=
  { reader with cell := reader.cell ++ [c], place }

def endCell : Reader :=
  { reader with cells := reader.cells ++ [reader.cell], cell := [], place := .start }

def endRecord : Reader :=
  { records := reader.records ++ [reader.cells ++ [reader.cell]], cells := [], cell := [],
    place := .start }

/-- A separator, a line break, or else what the place says. A record ends with a line feed, which
a carriage return may precede. -/
def next (c : Char) (inside : Option Reader) : Option Reader :=
  if c = ',' then some reader.endCell
  else if c = '\n' then some reader.endRecord
  else if c = '\r' then some { reader with place := .returned }
  else inside

def step (c : Char) : Option Reader :=
  match reader.place with
  | .start =>
      reader.next c
        (some (if c = '"' then { reader with place := .quoted } else reader.push c .bare))
  | .bare => reader.next c (if c = '"' then none else some (reader.push c .bare))
  | .quoted =>
      some (if c = '"' then { reader with place := .closing } else reader.push c .quoted)
  | .closing => reader.next c (if c = '"' then some (reader.push c .quoted) else none)
  | .returned => if c = '\n' then some reader.endRecord else none

def run (text : List Char) : Option Reader :=
  text.foldlM step reader

def finish : Option (List (List (List Char))) :=
  match reader.place with
  | .start => some (if reader.cells = [] then reader.records else reader.endRecord.records)
  | .bare | .closing => some reader.endRecord.records
  | .quoted | .returned => none

end Reader

def atRecord (records : List (List (List Char))) : Reader :=
  ⟨records, [], [], .start⟩

def read (text : List Char) : Option (List (List (List Char))) :=
  ((atRecord []).run text).bind Reader.finish

def special (c : Char) : Bool :=
  c = ',' || c = '"' || c = '\n' || c = '\r'

def doubleQuotes (text : List Char) : List Char :=
  text.flatMap fun c => if c = '"' then ['"', '"'] else [c]

def escape (cell : List Char) : List Char :=
  if cell.any special then '"' :: doubleQuotes cell ++ ['"'] else cell

def printRecord (cells : List (List Char)) : List Char :=
  List.intercalate [','] (cells.map escape) ++ ['\n']

def print (records : List (List (List Char))) : List Char :=
  records.flatMap printRecord

section Reading

variable {reader : Reader}

theorem run_append (first rest : List Char) :
    reader.run (first ++ rest) = (reader.run first).bind fun after => after.run rest := by
  simp only [Reader.run, List.foldlM_append]
  rfl

theorem run_cons (c : Char) (rest : List Char) :
    reader.run (c :: rest) = (reader.step c).bind fun after => after.run rest := by
  simp only [Reader.run, List.foldlM_cons]
  rfl

@[simp] theorem run_nil : reader.run [] = some reader := rfl

theorem next_of_plain {c : Char} {inside : Option Reader} (hplain : special c = false) :
    reader.next c inside = inside := by
  simp only [special, Bool.or_eq_false_iff, decide_eq_false_iff_not] at hplain
  obtain ⟨⟨⟨hcomma, -⟩, hfeed⟩, hreturn⟩ := hplain
  simp [Reader.next, hcomma, hfeed, hreturn]

def Place.Open (place : Place) : Prop :=
  place ≠ .quoted ∧ place ≠ .returned

theorem step_comma (hopen : reader.place.Open) : reader.step ',' = some reader.endCell := by
  obtain ⟨hquoted, hreturned⟩ := hopen
  unfold Reader.step
  split <;> first | rfl | contradiction

theorem step_feed (hopen : reader.place.Open) : reader.step '\n' = some reader.endRecord := by
  obtain ⟨hquoted, hreturned⟩ := hopen
  unfold Reader.step
  split <;> first | rfl | contradiction

theorem run_bare {text : List Char} (hplace : reader.place = .bare)
    (hplain : text.any special = false) :
    reader.run text = some { reader with cell := reader.cell ++ text } := by
  induction text generalizing reader with
  | nil => simp
  | cons c rest ih =>
      rw [List.any_cons, Bool.or_eq_false_iff] at hplain
      have hquote : c ≠ '"' := by
        rintro rfl
        exact absurd hplain.1 (by decide)
      have hstep : reader.step c = some (reader.push c .bare) := by
        unfold Reader.step
        rw [hplace]
        simp only [next_of_plain hplain.1, if_neg hquote]
      rw [run_cons, hstep, Option.bind_some, ih rfl hplain.2]
      simp [Reader.push, hplace]

theorem run_doubleQuotes (text : List Char) (hplace : reader.place = .quoted) :
    reader.run (doubleQuotes text) = some { reader with cell := reader.cell ++ text } := by
  induction text generalizing reader with
  | nil => simp [doubleQuotes]
  | cons c rest ih =>
      have hrest : ∀ text, (reader.push c .quoted).run (doubleQuotes text) =
          reader.run (doubleQuotes (c :: text)) := by
        intro text
        simp only [doubleQuotes, List.flatMap_cons]
        by_cases hquote : c = '"'
        · subst hquote
          simp [run_cons, Reader.step, hplace, Reader.next, Reader.push]
        · simp [run_cons, Reader.step, hplace, hquote]
      rw [← hrest, ih rfl]
      simp [Reader.push, hplace]

theorem run_escape (cell : List Char) (hplace : reader.place = .start) (hempty : reader.cell = []) :
    ∃ place : Place, place.Open ∧
      reader.run (escape cell) = some { reader with cell, place } := by
  unfold escape
  split_ifs with hspecial
  · refine ⟨.closing, ⟨nofun, nofun⟩, ?_⟩
    have hfirst : reader.step '"' = some { reader with place := .quoted } := by
      simp [Reader.step, hplace, Reader.next]
    rw [List.cons_append, run_cons, hfirst, Option.bind_some, run_append, run_doubleQuotes _ rfl]
    simp [run_cons, Reader.step, hempty]
  · rw [Bool.not_eq_true] at hspecial
    cases cell with
    | nil =>
        refine ⟨.start, ⟨nofun, nofun⟩, ?_⟩
        rw [run_nil, ← hplace, ← hempty]
    | cons c rest =>
        refine ⟨.bare, ⟨nofun, nofun⟩, ?_⟩
        rw [List.any_cons, Bool.or_eq_false_iff] at hspecial
        have hquote : c ≠ '"' := by
          rintro rfl
          exact absurd hspecial.1 (by decide)
        have hstep : reader.step c = some (reader.push c .bare) := by
          unfold Reader.step
          rw [hplace]
          simp only [next_of_plain hspecial.1, if_neg hquote]
        rw [run_cons, hstep, Option.bind_some, run_bare rfl hspecial.2]
        simp [Reader.push, hempty]

theorem run_cells {cells : List (List Char)} (hsome : cells ≠ [])
    (hplace : reader.place = .start) (hempty : reader.cell = []) :
    reader.run (printRecord cells) =
      some (atRecord (reader.records ++ [reader.cells ++ cells])) := by
  unfold printRecord
  induction cells generalizing reader with
  | nil => exact absurd rfl hsome
  | cons cell rest ih =>
      obtain ⟨place, hopen, hcell⟩ := run_escape cell hplace hempty
      cases rest with
      | nil =>
          rw [List.map_cons, List.map_nil, List.intercalate_singleton, run_append, hcell,
            Option.bind_some, run_cons, step_feed hopen]
          rfl
      | cons second others =>
          rw [List.map_cons, List.map_cons, List.intercalate_cons_cons, List.append_assoc,
            List.append_assoc, run_append, hcell, Option.bind_some, List.singleton_append,
            run_cons, step_comma hopen, Option.bind_some, ← List.map_cons,
            ih (List.cons_ne_nil second others) rfl rfl]
          simp [Reader.endCell]

end Reading

theorem run_print {records : List (List (List Char))} (hcells : ∀ cells ∈ records, cells ≠ [])
    (before : List (List (List Char))) :
    (atRecord before).run (print records) = some (atRecord (before ++ records)) := by
  induction records generalizing before with
  | nil => simp [print]
  | cons cells rest ih =>
      have hfirst : (atRecord before).run (printRecord cells) =
          some (atRecord (before ++ [cells])) :=
        run_cells (hcells cells List.mem_cons_self) rfl rfl
      have hrest := ih (fun cells hmem => hcells cells (List.mem_cons_of_mem _ hmem))
        (before ++ [cells])
      unfold print at hrest ⊢
      rw [List.flatMap_cons, run_append, hfirst, Option.bind_some, hrest]
      simp

theorem read_print {records : List (List (List Char))} (hcells : ∀ cells ∈ records, cells ≠ []) :
    read (print records) = some records := by
  unfold read
  rw [run_print hcells, Option.bind_some]
  rfl

end Forge.Library.Csv
