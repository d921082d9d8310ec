import Mathlib.Logic.Function.Basic
import Mathlib.Tactic.Common

/-!
# Cells with one owner

A heap has cells at addresses, and owners, each with the address of a cell or with none, as
a unique pointer has one. An owner takes a new cell in place of the one it had, which is
freed with that, gives up its cell, or changes what is in it.

If the cells of all owners are there, and no two owners have the same one (`Heap.Unique`),
this stays so, and what an owner does is seen by that owner only (`view_replace`,
`view_release`, `view_modify`).
-/

set_option autoImplicit false

namespace Jasl.Library

universe u v w

/-- The cells, and where the owners have theirs. -/
structure Heap (κ : Type u) (ι : Type v) (α : Type w) where
  cells : κ → Option α
  owner : ι → Option κ

namespace Heap

variable {κ : Type u} {ι : Type v} {α : Type w}

/-- What an owner has. -/
def view (heap : Heap κ ι α) (x : ι) : Option α := (heap.owner x).bind heap.cells

/-- The cells of the owners are there, and each has one owner. -/
structure Unique (heap : Heap κ ι α) : Prop where
  live : ∀ x address, heap.owner x = some address → heap.cells address ≠ none
  apart : ∀ x y address, heap.owner x = some address → heap.owner y = some address → x = y

variable [DecidableEq κ] [DecidableEq ι]

/-- The cells without the one at an address. -/
def freed (cells : κ → Option α) (old : Option κ) (address : κ) : Option α :=
  if old = some address then none else cells address

/-- The owner gives up its cell. -/
def release (heap : Heap κ ι α) (x : ι) : Heap κ ι α where
  cells := freed heap.cells (heap.owner x)
  owner := Function.update heap.owner x none

/-- The owner takes a new cell, and then the one it had is freed. -/
def replace (heap : Heap κ ι α) (x : ι) (fresh : κ) (content : α) : Heap κ ι α where
  cells := freed (Function.update heap.cells fresh (some content)) (heap.owner x)
  owner := Function.update heap.owner x (some fresh)

/-- The owner changes what is in its cell. -/
def modify (heap : Heap κ ι α) (x : ι) (change : α → α) : Heap κ ι α where
  cells address :=
    if heap.owner x = some address then (heap.cells address).map change else heap.cells address
  owner := heap.owner

/-- One owner has another cell, or another content, and all others have what they had. -/
structure Moves (heap after : Heap κ ι α) (x : ι) (cell : Option κ) : Prop where
  owner : after.owner = Function.update heap.owner x cell
  others : ∀ y ≠ x, ∀ address, heap.owner y = some address →
    after.cells address = heap.cells address

section Moving

variable {heap after : Heap κ ι α} {x : ι} {cell : Option κ}

omit [DecidableEq κ]

/-- Only one owner sees that something has moved. -/
theorem Moves.view (moves : Moves heap after x cell) :
    after.view = Function.update heap.view x (cell.bind after.cells) := by
  funext y
  by_cases same : y = x
  · subst same
    rw [Function.update_self, Heap.view, moves.owner, Function.update_self]
  · rw [Function.update_of_ne same, Heap.view, Heap.view, moves.owner,
      Function.update_of_ne same]
    cases own : heap.owner y with
    | none => rfl
    | some address => exact moves.others y same address own

/-- The owners have different cells if the cell that was taken is another's nowhere. -/
theorem Moves.unique (moves : Moves heap after x cell) (unique : heap.Unique)
    (taken : ∀ address, cell = some address →
      after.cells address ≠ none ∧ ∀ y ≠ x, heap.owner y ≠ some address) : after.Unique := by
  constructor
  · intro y address own
    rw [moves.owner] at own
    by_cases same : y = x
    · subst same
      rw [Function.update_self] at own
      exact (taken address own).1
    · rw [Function.update_of_ne same] at own
      rw [moves.others y same address own]
      exact unique.live y address own
  · intro y z address first second
    rw [moves.owner] at first second
    by_cases isFirst : y = x
    · by_cases isSecond : z = x
      · rw [isFirst, isSecond]
      · subst isFirst
        rw [Function.update_self] at first
        rw [Function.update_of_ne isSecond] at second
        exact absurd second ((taken address first).2 z isSecond)
    · rw [Function.update_of_ne isFirst] at first
      by_cases isSecond : z = x
      · subst isSecond
        rw [Function.update_self] at second
        exact absurd first ((taken address second).2 y isFirst)
      · rw [Function.update_of_ne isSecond] at second
        exact unique.apart y z address first second

end Moving

/-! ## The operations -/

section Operations

variable {heap : Heap κ ι α} (unique : heap.Unique)
include unique

omit [DecidableEq κ] [DecidableEq ι] in
/-- Another owner has another cell. -/
theorem Unique.other {x y : ι} (different : y ≠ x) {address : κ}
    (own : heap.owner y = some address) : heap.owner x ≠ some address :=
  fun same => different (unique.apart y x address own same)

omit [DecidableEq κ] [DecidableEq ι] in
/-- A cell that is not there has no owner. -/
theorem Unique.ne_fresh {fresh : κ} (free : heap.cells fresh = none) (x : ι) :
    heap.owner x ≠ some fresh :=
  fun own => unique.live x fresh own free

theorem moves_release (x : ι) : Moves heap (heap.release x) x none where
  owner := rfl
  others _ different _ own := if_neg (unique.other different own)

theorem moves_replace {fresh : κ} (free : heap.cells fresh = none) (x : ι) (content : α) :
    Moves heap (heap.replace x fresh content) x (some fresh) where
  owner := rfl
  others y different address own := by
    have other : address ≠ fresh := by
      rintro rfl
      exact unique.ne_fresh free y own
    exact (if_neg (unique.other different own)).trans (Function.update_of_ne other _ _)

theorem moves_modify (x : ι) (change : α → α) :
    Moves heap (heap.modify x change) x (heap.owner x) where
  owner := (Function.update_eq_self x heap.owner).symm
  others _ different _ own := if_neg (unique.other different own)

/-- The new cell has its content. -/
theorem replace_fresh {fresh : κ} (free : heap.cells fresh = none) (x : ι) (content : α) :
    (heap.replace x fresh content).cells fresh = some content :=
  (if_neg (unique.ne_fresh free x)).trans (Function.update_self fresh _ _)

omit [DecidableEq ι] unique in
theorem modify_own {x : ι} {address : κ} (own : heap.owner x = some address) (change : α → α) :
    (heap.modify x change).cells address = (heap.cells address).map change :=
  if_pos own

/-! ### What is seen of them -/

theorem view_release (x : ι) : (heap.release x).view = Function.update heap.view x none :=
  (moves_release unique x).view

theorem view_replace {fresh : κ} (free : heap.cells fresh = none) (x : ι) (content : α) :
    (heap.replace x fresh content).view = Function.update heap.view x (some content) := by
  rw [(moves_replace unique free x content).view]
  exact congrArg _ (replace_fresh unique free x content)

theorem view_modify (x : ι) (change : α → α) :
    (heap.modify x change).view = Function.update heap.view x ((heap.view x).map change) := by
  rw [(moves_modify unique x change).view]
  congr 1
  rw [view]
  cases own : heap.owner x with
  | none => rfl
  | some address => exact modify_own own change

/-! ### The owners after them -/

theorem Unique.release (x : ι) : (heap.release x).Unique :=
  (moves_release unique x).unique unique (by simp)

theorem Unique.replace {fresh : κ} (free : heap.cells fresh = none) (x : ι) (content : α) :
    (heap.replace x fresh content).Unique := by
  refine (moves_replace unique free x content).unique unique ?_
  rintro address ⟨⟩
  rw [replace_fresh unique free]
  exact ⟨Option.some_ne_none content, fun y _ => unique.ne_fresh free y⟩

theorem Unique.modify (x : ι) (change : α → α) : (heap.modify x change).Unique := by
  refine (moves_modify unique x change).unique unique fun address own => ⟨?_, ?_⟩
  · rw [modify_own own, ne_eq, Option.map_eq_none_iff]
    exact unique.live x address own
  · intro y different other
    exact unique.other different other own

end Operations

end Heap

end Jasl.Library
