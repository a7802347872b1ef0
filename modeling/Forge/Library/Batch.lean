import Mathlib.Data.List.Sort
import Mathlib.Order.Defs.LinearOrder

/-! The first rows in the order of a key, up to a limit. -/

namespace Forge.Library.Batch

variable {α β : Type} [LinearOrder β]

/-- `ORDER BY key ASC LIMIT limit`. -/
def batch (key : α → β) (limit : Nat) (rows : List α) : List α :=
  (rows.insertionSort fun left right => key left ≤ key right).take limit

variable {key : α → β} {limit : Nat} {rows : List α} {row : α}

theorem mem_of_mem_batch (member : row ∈ batch key limit rows) : row ∈ rows :=
  (List.mem_insertionSort _).mp (List.mem_of_mem_take member)

end Forge.Library.Batch
