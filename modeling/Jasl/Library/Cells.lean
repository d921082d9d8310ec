import Mathlib.Tactic.Common

/-!
# Cells and writes

Cells hold values, and a write gives one value to all the cells that it covers. The value
may depend on what the cells hold before, so a write may also be a copy of a cell or a
change of it.

A cell holds what the last write that covers it has given it (`runAll_last`), or what it
held at the start if there is none (`runAll_uncovered`). Where all of them give it the same,
their order does not matter (`runAll_same`).
-/

set_option autoImplicit false

namespace Jasl.Library

universe u v

/-- A write: the cells it covers, and what it gives them. -/
structure CellWrite (κ : Type u) (α : Type v) where
  covers : κ → Bool
  value : (κ → α) → α

namespace CellWrite

variable {κ : Type u} {α : Type v}

/-- The cells behind a write. -/
def run (write : CellWrite κ α) (cells : κ → α) : κ → α :=
  fun cell => if write.covers cell then write.value cells else cells cell

theorem run_covered {write : CellWrite κ α} {cell : κ} (covered : write.covers cell = true)
    (cells : κ → α) : write.run cells cell = write.value cells :=
  if_pos covered

theorem run_uncovered {write : CellWrite κ α} {cell : κ} (uncovered : write.covers cell = false)
    (cells : κ → α) : write.run cells cell = cells cell :=
  if_neg (by simp [uncovered])

/-- The cells behind the writes. -/
def runAll (writes : List (CellWrite κ α)) (cells : κ → α) : κ → α :=
  writes.foldl (fun cells write => write.run cells) cells

@[simp]
theorem runAll_nil (cells : κ → α) : runAll [] cells = cells := rfl

@[simp]
theorem runAll_cons (write : CellWrite κ α) (writes : List (CellWrite κ α)) (cells : κ → α) :
    runAll (write :: writes) cells = runAll writes (write.run cells) := rfl

theorem runAll_append (writes more : List (CellWrite κ α)) (cells : κ → α) :
    runAll (writes ++ more) cells = runAll more (runAll writes cells) := by
  simp only [runAll, List.foldl_append]

/-- A cell that no write covers is as it was. -/
theorem runAll_uncovered {writes : List (CellWrite κ α)} {cell : κ}
    (uncovered : ∀ write ∈ writes, write.covers cell = false) (cells : κ → α) :
    runAll writes cells cell = cells cell := by
  induction writes generalizing cells with
  | nil => rfl
  | cons write writes ih =>
      rw [runAll_cons, ih fun later mem => uncovered later (List.mem_cons_of_mem write mem)]
      exact run_uncovered (uncovered write List.mem_cons_self) cells

/-- A cell holds what the last write that covers it has given it. -/
theorem runAll_last {before later : List (CellWrite κ α)} {write : CellWrite κ α} {cell : κ}
    (covered : write.covers cell = true)
    (last : ∀ other ∈ later, other.covers cell = false) (cells : κ → α) :
    runAll (before ++ write :: later) cells cell = write.value (runAll before cells) := by
  rw [runAll_append, runAll_cons, runAll_uncovered last, run_covered covered]

/-- A cell that all writes give the same value holds it behind them if it holds it before, or if
there is such a write. -/
theorem runAll_same {writes : List (CellWrite κ α)} {cell : κ} {value : α} {cells : κ → α}
    (same : ∀ write ∈ writes, write.covers cell = true → ∀ cells, write.value cells = value)
    (given : cells cell = value ∨ ∃ write ∈ writes, write.covers cell = true) :
    runAll writes cells cell = value := by
  induction writes generalizing cells with
  | nil => exact given.resolve_right (by simp)
  | cons write writes ih =>
      rw [runAll_cons]
      refine ih (fun later mem => same later (List.mem_cons_of_mem write mem)) ?_
      cases covered : write.covers cell with
      | true =>
          left
          rw [run_covered covered]
          exact same write List.mem_cons_self covered cells
      | false =>
          rw [run_uncovered covered]
          refine given.imp_right ?_
          rintro ⟨other, mem, covers⟩
          refine ⟨other, (List.mem_cons.mp mem).resolve_left ?_, covers⟩
          rintro rfl
          exact Bool.false_ne_true (covered.symm.trans covers)

end CellWrite

end Jasl.Library
