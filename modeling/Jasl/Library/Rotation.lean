import Jasl.Library.Loop
import Mathlib.Dynamics.PeriodicPts.Defs

/-!
# Asking around a ring

Cells in a ring are asked one after the other, from the next one on, until one accepts
or all were asked. `succ` is the way around the ring, and the ring has as many cells as
it takes steps to come back (`Function.minimalPeriod`). Asking around ends within one
round; the first cell that accepts is changed, and the one behind it is next, or nothing
is changed (`exists_asked`).
-/

set_option autoImplicit false

namespace Jasl.Library

open Function

universe u v

variable {ι : Type u} {σ : Type v} [DecidableEq ι]

/-- Cells, and the one that is asked next. -/
structure Rotation (ι : Type u) (σ : Type v) where
  cells : ι → σ
  next : ι

namespace Rotation

variable (succ : ι → ι) (offer : σ → Option σ)

/-- One cell is asked. It becomes another if it accepts, and otherwise the round goes on up to the
first cell. -/
def ask (first : ι) (r : Rotation ι σ) : Rotation ι σ ⊕ Rotation ι σ × Bool :=
  match offer (r.cells r.next) with
  | some cell => .inr (⟨Function.update r.cells r.next cell, succ r.next⟩, true)
  | none =>
      if succ r.next = first then .inr (⟨r.cells, succ r.next⟩, false)
      else .inl ⟨r.cells, succ r.next⟩

/-- What asking `size` cells from the next one on comes to. -/
inductive Asked (size : ℕ) (r : Rotation ι σ) : Rotation ι σ × Bool → Prop where
  | accepted (steps : ℕ) (cell : σ) (below : steps < size)
      (refused : ∀ earlier < steps, offer (r.cells (succ^[earlier] r.next)) = none)
      (accepts : offer (r.cells (succ^[steps] r.next)) = some cell) :
      Asked size r (⟨Function.update r.cells (succ^[steps] r.next) cell,
        succ (succ^[steps] r.next)⟩, true)
  | refused (all : ∀ steps < size, offer (r.cells (succ^[steps] r.next)) = none) :
      Asked size r (r, false)

variable {succ offer} {size : ℕ} {r : Rotation ι σ}

/-- From the cell on that is `steps` away from the first one, with all before it asked. -/
theorem exists_asked_from (period : minimalPeriod succ r.next = size) (left : ℕ) :
    ∀ steps, steps + left + 1 = size →
      (∀ earlier < steps, offer (r.cells (succ^[earlier] r.next)) = none) →
      ∃ result, iterate (ask succ offer r.next) (left + 1) ⟨r.cells, succ^[steps] r.next⟩ =
          some result ∧ Asked succ offer size r result := by
  induction left with
  | zero =>
      intro steps total before
      have around : succ (succ^[steps] r.next) = r.next := by
        rw [← iterate_succ_apply' succ, show steps.succ = size by omega, ← period]
        exact iterate_minimalPeriod
      cases asked : offer (r.cells (succ^[steps] r.next)) with
      | some cell =>
          refine ⟨_, ?_, .accepted steps cell (by omega) before asked⟩
          simp only [iterate, ask, asked]
      | none =>
          refine ⟨_, ?_, .refused fun earlier below => ?_⟩
          · simp only [iterate, ask, asked, around, if_true]
          · rcases Nat.lt_succ_iff_lt_or_eq.mp (show earlier < steps + 1 by omega) with less | rfl
            · exact before earlier less
            · exact asked
  | succ left ih =>
      intro steps total before
      cases asked : offer (r.cells (succ^[steps] r.next)) with
      | some cell =>
          refine ⟨_, ?_, .accepted steps cell (by omega) before asked⟩
          simp only [iterate, ask, asked]
      | none =>
          have further : succ (succ^[steps] r.next) ≠ r.next := by
            rw [← iterate_succ_apply' succ]
            exact not_isPeriodicPt_of_pos_of_lt_minimalPeriod (Nat.succ_ne_zero steps)
              (by rw [period]; omega)
          obtain ⟨result, ended, whole⟩ := ih (steps + 1) (by omega) (by
            intro earlier below
            rcases Nat.lt_succ_iff_lt_or_eq.mp below with less | rfl
            · exact before earlier less
            · exact asked)
          refine ⟨result, ?_, whole⟩
          rw [iterate]
          simp only [ask, asked, further, if_false]
          rw [← iterate_succ_apply' succ]
          exact ended

/-- **Asking around ends within a round**, with the first cell that accepts. -/
theorem exists_asked (period : minimalPeriod succ r.next = size) (positive : 0 < size) :
    ∃ result, iterate (ask succ offer r.next) size r = some result ∧
      Asked succ offer size r result := by
  obtain ⟨left, rfl⟩ := Nat.exists_eq_succ_of_ne_zero (Nat.pos_iff_ne_zero.mp positive)
  exact exists_asked_from period left 0 (by omega) fun earlier below => absurd below (by omega)

end Rotation

end Jasl.Library
