import Forge.Library.Csv
import Forge.Schema

/-! The export of task history as comma-separated values, with cells that no spreadsheet takes for
a formula. -/

namespace Forge.TaskHistoryExport

open Forge.Library.Csv
open Forge.Library.Identifier
open Forge.Schema

structure TaskHistoryExportRowProjection where
  id : Uuid
  title : String
  status : String
  priority : String
  progress : Int
  creatorName : Option String
  assignedAgentName : Option String
  runsCount : Int
  createdAt : Timestamp
  completedAt : Option Timestamp
  updatedAt : Timestamp
  blockedReason : Option String
  requiresApproval : Bool

def formulaChars : List Char :=
  ['=', '+', '-', '@', '\t', '\r']

def neutralized (value : List Char) : List Char :=
  if value.head?.any formulaChars.contains then '\'' :: value else value

/-- `csv_cell`. -/
def csvCell (value : List Char) : List Char :=
  let value := neutralized value
  if value.contains ',' || value.contains '"' || value.contains '\n' || value.contains '\r' then
    '"' :: value.flatMap (fun c => if c = '"' then ['"', '"'] else [c]) ++ ['"']
  else value

/-- The texts of a row. `toRfc3339` prints a time. -/
def TaskHistoryExportRowProjection.texts (toRfc3339 : Timestamp → String)
    (row : TaskHistoryExportRowProjection) : List String :=
  [row.id.toText, row.title, row.status, row.priority, toString row.progress,
    row.creatorName.getD "", row.assignedAgentName.getD "", toString row.runsCount,
    toRfc3339 row.createdAt, (row.completedAt.map toRfc3339).getD "", toRfc3339 row.updatedAt,
    row.blockedReason.getD "", toString row.requiresApproval]

def headerLine : String :=
  "task_id,title,status,priority,progress_percent,creator,assigned_agent,runs_count,created_at,"
    ++ "completed_at,updated_at,blocked_reason,requires_approval\n"

/-- `task_history_csv`. -/
def taskHistoryCsv (toRfc3339 : Timestamp → String)
    (rows : List TaskHistoryExportRowProjection) : List Char :=
  headerLine.toList ++ rows.flatMap fun row =>
    List.intercalate [','] ((row.texts toRfc3339).map fun text => csvCell text.toList) ++ ['\n']

def columns : List (List Char) :=
  ["task_id", "title", "status", "priority", "progress_percent", "creator", "assigned_agent",
    "runs_count", "created_at", "completed_at", "updated_at", "blocked_reason",
    "requires_approval"].map String.toList

def Formula (value : List Char) : Prop :=
  ∃ c ∈ formulaChars, value.head? = some c

def Shows (text : String) (cell : List Char) : Prop :=
  cell = text.toList ∨ (Formula text.toList ∧ cell = '\'' :: text.toList)

theorem any_special (text : List Char) :
    text.any special =
      (text.contains ',' || text.contains '"' || text.contains '\n' || text.contains '\r') := by
  rw [Bool.eq_iff_iff]
  simp only [special, List.any_eq_true, Bool.or_eq_true, decide_eq_true_eq,
    List.contains_iff_mem]
  constructor
  · rintro ⟨c, hmem, ((rfl | rfl) | rfl) | rfl⟩
    · exact .inl (.inl (.inl hmem))
    · exact .inl (.inl (.inr hmem))
    · exact .inl (.inr hmem)
    · exact .inr hmem
  · rintro (((hmem | hmem) | hmem) | hmem)
    · exact ⟨_, hmem, by simp⟩
    · exact ⟨_, hmem, by simp⟩
    · exact ⟨_, hmem, by simp⟩
    · exact ⟨_, hmem, by simp⟩

theorem csvCell_eq_escape (value : List Char) : csvCell value = escape (neutralized value) := by
  unfold csvCell escape
  rw [any_special]
  rfl

example : csvCell "\r=1".toList = "\"'\r=1\"".toList := by decide

theorem headerLine_eq : headerLine.toList = printRecord columns := by decide +kernel

theorem length_columns : columns.length = 13 := rfl

theorem head_any_iff {value : List Char} :
    value.head?.any formulaChars.contains = true ↔ Formula value := by
  unfold Formula
  cases value with
  | nil => simp
  | cons c rest => simp

instance : DecidablePred Formula :=
  fun _ => decidable_of_iff _ head_any_iff

theorem not_formula_columns : ∀ cell ∈ columns, ¬Formula cell := by decide

theorem not_formula_neutralized (value : List Char) : ¬Formula (neutralized value) := by
  unfold neutralized
  split_ifs with hformula
  · rintro ⟨c, hmem, hhead⟩
    rw [List.head?_cons, Option.some.injEq] at hhead
    subst hhead
    exact absurd hmem (by decide)
  · rwa [head_any_iff] at hformula

theorem shows_neutralized (text : String) : Shows text (neutralized text.toList) := by
  unfold neutralized
  split_ifs with hformula
  · exact .inr ⟨head_any_iff.mp hformula, rfl⟩
  · exact .inl rfl

def TaskHistoryExportRowProjection.cells (toRfc3339 : Timestamp → String)
    (row : TaskHistoryExportRowProjection) : List (List Char) :=
  (row.texts toRfc3339).map fun text => neutralized text.toList

theorem length_cells (toRfc3339 : Timestamp → String) (row : TaskHistoryExportRowProjection) :
    (row.cells toRfc3339).length = 13 := by
  simp [TaskHistoryExportRowProjection.cells, TaskHistoryExportRowProjection.texts]

theorem printRecord_cells (toRfc3339 : Timestamp → String)
    (row : TaskHistoryExportRowProjection) :
    printRecord (row.cells toRfc3339) =
      List.intercalate [','] ((row.texts toRfc3339).map fun text => csvCell text.toList)
        ++ ['\n'] := by
  simp only [printRecord, TaskHistoryExportRowProjection.cells, List.map_map, csvCell_eq_escape,
    Function.comp_def]

theorem taskHistoryCsv_eq_print (toRfc3339 : Timestamp → String)
    (rows : List TaskHistoryExportRowProjection) :
    taskHistoryCsv toRfc3339 rows =
      print (columns :: rows.map (TaskHistoryExportRowProjection.cells toRfc3339)) := by
  unfold taskHistoryCsv print
  simp only [headerLine_eq, List.flatMap_cons, List.flatMap_map, printRecord_cells]

end Forge.TaskHistoryExport
