import Mathlib.Algebra.Group.Nat.Defs
import Mathlib.Data.BitVec
import Mathlib.Data.Nat.Size
import Mathlib.Order.Bounds.Defs

/-!
# Rounding up to a power of two

A word is smeared by shifts that double: after each round every bit that is set also
stands at twice as many places below it (`getLsbD_smear`). When the shifts cover the word
nothing but the highest bit matters, and all the bits below it are set (`toNat_smear`).
The number behind that is the least power of two above the word (`isLeast_two_pow_size`).
-/

set_option autoImplicit false

namespace Jasl.Library

variable {w : ℕ}

/-- The word after some rounds, each of which shifts by twice as much. -/
def smear (word : BitVec w) : ℕ → BitVec w
  | 0 => word
  | rounds + 1 => smear word rounds ||| smear word rounds >>> 2 ^ rounds

theorem getLsbD_smear {word : BitVec w} {rounds i : ℕ} :
    (smear word rounds).getLsbD i = true ↔ ∃ d < 2 ^ rounds, word.getLsbD (i + d) = true := by
  induction rounds generalizing i with
  | zero => simp [smear]
  | succ rounds ih =>
      rw [smear, BitVec.getLsbD_or, BitVec.getLsbD_ushiftRight, Bool.or_eq_true, ih, ih,
        Nat.pow_succ]
      constructor
      · rintro (⟨d, near, set⟩ | ⟨d, near, set⟩)
        · exact ⟨d, by omega, set⟩
        · exact ⟨2 ^ rounds + d, by omega, by rwa [← Nat.add_assoc, Nat.add_comm i]⟩
      · rintro ⟨d, near, set⟩
        rcases Nat.lt_or_ge d (2 ^ rounds) with below | above
        · exact .inl ⟨d, below, set⟩
        · refine .inr ⟨d - 2 ^ rounds, by omega, ?_⟩
          rwa [show 2 ^ rounds + i + (d - 2 ^ rounds) = i + d by omega]

/-- With shifts that cover the word, all bits up to the highest are set. -/
theorem toNat_smear {word : BitVec w} {rounds : ℕ} (covers : w ≤ 2 ^ rounds) :
    (smear word rounds).toNat = 2 ^ word.toNat.size - 1 := by
  apply Nat.eq_of_testBit_eq
  intro i
  rw [BitVec.testBit_toNat, Nat.testBit_two_pow_sub_one, Bool.eq_iff_iff, decide_eq_true_iff,
    getLsbD_smear, Nat.lt_size]
  constructor
  · rintro ⟨d, -, set⟩
    have high : 2 ^ (i + d) ≤ word.toNat :=
      Nat.ge_two_pow_of_testBit (by rwa [BitVec.testBit_toNat])
    exact Nat.le_trans (Nat.pow_le_pow_right (by decide) (Nat.le_add_right i d)) high
  · intro high
    obtain ⟨j, above, set⟩ := Nat.exists_ge_and_testBit_of_ge_two_pow high
    rw [BitVec.testBit_toNat] at set
    have inside : j < w := BitVec.lt_of_getLsbD set
    exact ⟨j - i, by omega, by rwa [Nat.add_sub_cancel' above]⟩

/-- The least power of two above a number. -/
theorem isLeast_two_pow_size (n : ℕ) :
    IsLeast {p : ℕ | (∃ k, p = 2 ^ k) ∧ n < p} (2 ^ n.size) := by
  refine ⟨⟨⟨n.size, rfl⟩, Nat.lt_size_self n⟩, ?_⟩
  rintro p ⟨⟨k, rfl⟩, above⟩
  exact Nat.pow_le_pow_right (by decide) (Nat.size_le.mpr above)

/-- Rounding up does not double. -/
theorem lt_two_mul_of_isLeast {n p : ℕ} (positive : 1 ≤ n)
    (least : IsLeast {p : ℕ | (∃ k, p = 2 ^ k) ∧ n ≤ p} p) : p < 2 * n := by
  obtain ⟨⟨⟨k, rfl⟩, -⟩, lower⟩ := least
  cases k with
  | zero => omega
  | succ k =>
      have half : 2 ^ k < n := by
        by_contra notBelow
        have less := lower ⟨⟨k, rfl⟩, Nat.not_lt.mp notBelow⟩
        rw [Nat.pow_succ] at less
        have some_ := Nat.two_pow_pos k
        omega
      rw [Nat.pow_succ]
      omega

end Jasl.Library
