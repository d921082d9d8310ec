import Mathlib.Algebra.Group.Nat.Defs
import Mathlib.Order.Basic
import Mathlib.Tactic.Common

/-!
# Machine words: their order and their flags

A fixed-width word is compared as the number it stands for, and it is also a
set of flags: `word.has flag` is the test `word & flag` of a C program. The
order on words is the one Lean's core library gives them; here it becomes a
`LinearOrder`, so that the lemmas about linear orders apply to words
(`toNat_le_toNat`, `toNat_lt_toNat`).

Flags are combined by `|`. Testing a combination is testing its parts (`has_or`),
and a word without a flag outside another has no more flags than that
(`has_of_subset`).
-/

set_option autoImplicit false

variable {w : ℕ}

namespace BitVec

/-! ## The order -/

instance instLinearOrderWord : LinearOrder (BitVec w) where
  le_refl := BitVec.le_refl
  le_trans := fun _ _ _ => BitVec.le_trans
  lt_iff_le_not_ge := fun a b => by
    simp only [BitVec.lt_def, BitVec.le_def]
    omega
  le_antisymm := fun _ _ => BitVec.le_antisymm
  le_total := BitVec.le_total
  toDecidableLE := fun _ _ => inferInstance
  toDecidableLT := fun _ _ => inferInstance
  toDecidableEq := inferInstance

theorem toNat_le_toNat {a b : BitVec w} : a.toNat ≤ b.toNat ↔ a ≤ b := BitVec.le_def.symm

theorem toNat_lt_toNat {a b : BitVec w} : a.toNat < b.toNat ↔ a < b := BitVec.lt_def.symm

/-- Adding without overflow is adding the numbers. -/
theorem toNat_add_of_fits {a b : BitVec w} (fits : a.toNat + b.toNat < 2 ^ w) :
    (a + b).toNat = a.toNat + b.toNat := by
  rw [BitVec.toNat_add, Nat.mod_eq_of_lt fits]

/-! ## Flags -/

/-- The test `word & flag`. -/
def has (word flag : BitVec w) : Bool := word &&& flag != 0#w

theorem has_eq_true {word flag : BitVec w} : word.has flag = true ↔ word &&& flag ≠ 0#w := by
  simp [has]

@[simp] theorem zero_has (flag : BitVec w) : (0#w).has flag = false := by
  simp [has]

/-- A combination has a flag when one of its parts has it. -/
@[simp] theorem has_or (a b flag : BitVec w) : (a ||| b).has flag = (a.has flag || b.has flag) := by
  rw [Bool.eq_iff_iff, Bool.or_eq_true, has_eq_true, has_eq_true, has_eq_true,
    BitVec.and_or_distrib_right]
  simp only [ne_eq, BitVec.or_eq_zero_iff]
  tauto

/-- Testing a combination is testing its parts. -/
theorem has_flag_or (word a b : BitVec w) : word.has (a ||| b) = (word.has a || word.has b) := by
  simp only [has, BitVec.and_comm word]
  exact has_or a b word

/-- A flag set under a condition. -/
@[simp] theorem has_ite (condition : Prop) [Decidable condition] (set flag : BitVec w) :
    (if condition then set else 0#w).has flag = (decide condition && set.has flag) := by
  by_cases holds : condition <;> simp [holds]

/-- A word has every flag of its parts. -/
theorem has_of_subset {part whole flag : BitVec w} (subset : part &&& ~~~whole = 0#w)
    (set : part.has flag = true) : whole.has flag = true := by
  have within : part = part &&& whole := by
    have split : (part &&& whole) ||| (part &&& ~~~whole) = part := by
      rw [← BitVec.and_or_distrib_left, BitVec.or_not_self]
      simp
    rw [subset, BitVec.or_zero] at split
    exact split.symm
  rw [has_eq_true] at set ⊢
  intro zero
  apply set
  rw [within, BitVec.and_assoc, zero]
  simp

/-- Testing a single bit is reading it. -/
theorem has_twoPow (word : BitVec w) (i : ℕ) : word.has (BitVec.twoPow w i) = word.getLsbD i := by
  rw [has, BitVec.and_twoPow]
  by_cases set : word.getLsbD i = true
  · have inside : i < w := BitVec.lt_of_getLsbD set
    rw [if_pos set, set, bne_iff_ne]
    intro zero
    have bit := congrArg (fun word => word.getLsbD i) zero
    simp [inside] at bit
  · rw [if_neg set, Bool.not_eq_true] at *
    simp [set]

/-- Narrowing a word keeps the bits that still fit. -/
theorem has_setWidth_twoPow {v i : ℕ} (fits : i < v) (word : BitVec w) :
    (word.setWidth v).has (BitVec.twoPow v i) = word.has (BitVec.twoPow w i) := by
  rw [has_twoPow, has_twoPow, BitVec.getLsbD_setWidth, decide_eq_true fits, Bool.true_and]

end BitVec

namespace Jasl

/-- `uint64_t`. -/
abbrev Word := BitVec 64

/-- `uint8_t`. -/
abbrev Byte := BitVec 8

end Jasl
