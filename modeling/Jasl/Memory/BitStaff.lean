import Jasl.Library.Loop
import Jasl.Library.PowersOfTwo
import Jasl.Library.Words

/-!
# Powers of two

`is_power_of_two` and `get_next_power_of_two`, and the size of a chunk that `Chunker`
takes by default from them. `get_next_power_of_two` calls itself in tail position, so it
is a loop, which from its default arguments ends in the seventh call.

The one that is taken off in a call is what the call before has added, so in between the
value less one is smeared (`nextPowerCall_smear`), and what comes out is the least power
of two that is not below the value (`next_power_of_two_rounds_up`).
-/

set_option autoImplicit false

namespace Jasl

open Library

/-- `is_power_of_two`. -/
def isPowerOfTwo (value : Word) : Bool := value != 0 && !(value &&& (value - 1) != 0)

/-- A call of `get_next_power_of_two`: its result, or `value` and `curb` of the next call. -/
def nextPowerCall (maxb : BitVec 32) : Word × BitVec 32 → Word × BitVec 32 ⊕ Word
  | (value, curb) =>
      if maxb ≤ curb then .inr value
      else .inl (((value - 1) ||| ((value - 1) >>> curb)) + 1, curb <<< 1)

theorem nextPower_isSome (value : Word) :
    (iterate (nextPowerCall 64) 7 (value, 1)).isSome = true := rfl

/-- `get_next_power_of_two`, with its default arguments. -/
def getNextPowerOfTwo (value : Word) : Word :=
  (iterate (nextPowerCall 64) 7 (value, 1)).get (nextPower_isSome value)

/-- The default of `corrected_chunk_size`. -/
def correctedChunkSize (maxChunkSize : BitVec 32) : Word :=
  if isPowerOfTwo (maxChunkSize.setWidth 64) then maxChunkSize.setWidth 64
  else getNextPowerOfTwo (maxChunkSize.setWidth 64)

/-! ## The test -/

theorem isPowerOfTwo_iff {value : Word} :
    isPowerOfTwo value = true ↔ ∃ k, value.toNat = 2 ^ k := by
  by_cases zero : value = 0
  · subst zero
    refine iff_of_false (by decide) ?_
    rintro ⟨k, power⟩
    exact (Nat.two_pow_pos k).ne power
  · have positive : value.toNat ≠ 0 := fun eq => zero (BitVec.eq_of_toNat_eq eq)
    have one : (1 : Word).toNat = 1 := rfl
    have before : (value - 1).toNat = value.toNat - 1 :=
      BitVec.toNat_sub_of_le (by rw [BitVec.le_def, one]; omega)
    have power : value.toNat &&& (value.toNat - 1) = 0 ↔ ∃ k, value.toNat = 2 ^ k :=
      Nat.and_sub_one_eq_zero_iff_isPowerOfTwo positive
    have noBits : value &&& (value - 1) = 0 ↔ value.toNat &&& (value - 1).toNat = 0 := by
      rw [← BitVec.toNat_inj, BitVec.toNat_and]
      rfl
    rw [isPowerOfTwo, Bool.and_eq_true, Bool.not_eq_true', bne_iff_ne, bne_eq_false_iff_eq,
      and_iff_right zero, noBits, before, power]

/-! ## Rounding up -/

/-- A call smears the value less one by one round. -/
theorem nextPowerCall_smear (word : Word) {rounds : ℕ} (more : rounds < 6) :
    nextPowerCall 64 (smear word rounds + 1, BitVec.twoPow 32 rounds) =
      .inl (smear word (rounds + 1) + 1, BitVec.twoPow 32 (rounds + 1)) := by
  have less : ∀ r < 6, ¬ (64 : BitVec 32) ≤ BitVec.twoPow 32 r := by decide
  have next : ∀ r < 6, BitVec.twoPow 32 r <<< 1 = BitVec.twoPow 32 (r + 1) := by decide
  have shift : ∀ r < 6, (BitVec.twoPow 32 r).toNat = 2 ^ r := by decide
  rw [nextPowerCall, if_neg (less rounds more), next rounds more, BitVec.add_sub_cancel,
    BitVec.ushiftRight_eq', shift rounds more]
  rfl

/-- So many rounds before the last one. -/
theorem iterate_nextPower (word : Word) {left rounds : ℕ} (sum : rounds + left = 6) :
    iterate (nextPowerCall 64) (left + 1) (smear word rounds + 1, BitVec.twoPow 32 rounds) =
      some (smear word 6 + 1) := by
  induction left generalizing rounds with
  | zero =>
      obtain rfl : rounds = 6 := sum
      rfl
  | succ left ih =>
      rw [iterate, nextPowerCall_smear word (by omega)]
      exact ih (by omega)

theorem getNextPowerOfTwo_eq (value : Word) :
    getNextPowerOfTwo value = smear (value - 1) 6 + 1 := by
  have start : value = smear (value - 1) 0 + 1 := (BitVec.sub_add_cancel value 1).symm
  have ended : iterate (nextPowerCall 64) 7 (value, 1) = some (smear (value - 1) 6 + 1) := by
    conv_lhs => rw [start]
    exact iterate_nextPower (value - 1) rfl
  exact Option.get_of_eq_some _ ended

/-- Up to the highest power of two nothing overflows. -/
theorem toNat_getNextPowerOfTwo {value : Word} (positive : 1 ≤ value.toNat)
    (fits : value.toNat ≤ 2 ^ 63) :
    (getNextPowerOfTwo value).toNat = 2 ^ (value.toNat - 1).size := by
  have before : (value - 1).toNat = value.toNat - 1 :=
    BitVec.toNat_sub_of_le (BitVec.le_def.mpr positive)
  have short : (value.toNat - 1).size ≤ 63 := by
    rw [Nat.size_le]
    omega
  have bound : 2 ^ (value.toNat - 1).size ≤ 2 ^ 63 := Nat.pow_le_pow_right (by decide) short
  have least := Nat.two_pow_pos (value.toNat - 1).size
  have smeared : (smear (value - 1) 6).toNat = 2 ^ (value.toNat - 1).size - 1 := by
    rw [toNat_smear (by decide), before]
  have one : (1 : Word).toNat = 1 := rfl
  rw [getNextPowerOfTwo_eq, BitVec.toNat_add_of_fits (by rw [smeared, one]; omega), smeared, one]
  omega

/-- The result is the least power of two from the value on. -/
theorem isLeast_getNextPowerOfTwo {value : Word} (positive : 1 ≤ value.toNat)
    (fits : value.toNat ≤ 2 ^ 63) :
    IsLeast {p : ℕ | (∃ k, p = 2 ^ k) ∧ value.toNat ≤ p} (getNextPowerOfTwo value).toNat := by
  obtain ⟨⟨power, above⟩, lower⟩ := isLeast_two_pow_size (value.toNat - 1)
  rw [toNat_getNextPowerOfTwo positive fits]
  refine ⟨⟨power, by omega⟩, ?_⟩
  rintro p ⟨isPower, notBelow⟩
  exact lower ⟨isPower, by omega⟩

/-! ## The size of a chunk -/

/-- The size of a chunk is the size that is asked for, rounded up to a power of two. -/
theorem correctedChunkSize_spec {maxChunkSize : BitVec 32} (positive : 1 ≤ maxChunkSize.toNat) :
    (∃ k, (correctedChunkSize maxChunkSize).toNat = 2 ^ k) ∧
      maxChunkSize.toNat ≤ (correctedChunkSize maxChunkSize).toNat ∧
      (correctedChunkSize maxChunkSize).toNat < 2 * maxChunkSize.toNat := by
  have short := maxChunkSize.isLt
  have wide : (maxChunkSize.setWidth 64).toNat = maxChunkSize.toNat :=
    BitVec.toNat_setWidth_of_le (by decide)
  by_cases power : isPowerOfTwo (maxChunkSize.setWidth 64) = true
  · rw [correctedChunkSize, if_pos power]
    exact ⟨isPowerOfTwo_iff.mp power, by omega, by omega⟩
  · rw [correctedChunkSize, if_neg power]
    have least := isLeast_getNextPowerOfTwo (by rwa [wide]) (by rw [wide]; omega)
    rw [wide] at least
    exact ⟨least.1.1, least.1.2, lt_two_mul_of_isLeast positive least⟩

/-- **`get_next_power_of_two` rounds up**, and `is_power_of_two` tells the powers of two, so that
the size of a chunk is a power of two, too. -/
theorem next_power_of_two_rounds_up :
    (∀ value : Word, 1 ≤ value.toNat → value.toNat ≤ 2 ^ 63 →
      Ends (nextPowerCall 64) (value, 1) (getNextPowerOfTwo value) ∧
      IsLeast {p : ℕ | (∃ k, p = 2 ^ k) ∧ value.toNat ≤ p} (getNextPowerOfTwo value).toNat ∧
      (isPowerOfTwo value = true → getNextPowerOfTwo value = value)) ∧
    (∀ value : Word, isPowerOfTwo value = true ↔ ∃ k, value.toNat = 2 ^ k) ∧
    ∀ maxChunkSize : BitVec 32, 1 ≤ maxChunkSize.toNat →
      (∃ k, (correctedChunkSize maxChunkSize).toNat = 2 ^ k) ∧
      maxChunkSize.toNat ≤ (correctedChunkSize maxChunkSize).toNat ∧
      (correctedChunkSize maxChunkSize).toNat < 2 * maxChunkSize.toNat := by
  refine ⟨fun value positive fits => ?_, fun value => isPowerOfTwo_iff,
    fun maxChunkSize => correctedChunkSize_spec⟩
  have least := isLeast_getNextPowerOfTwo positive fits
  refine ⟨⟨7, (Option.some_get _).symm⟩, least, fun power => BitVec.eq_of_toNat_eq ?_⟩
  exact Nat.le_antisymm (least.2 ⟨isPowerOfTwo_iff.mp power, Nat.le_refl _⟩) least.1.2

theorem next_power_of_two_rounds_up_five :
    IsLeast {p : ℕ | (∃ k, p = 2 ^ k) ∧ 5 ≤ p} 8 ∧ getNextPowerOfTwo 4 = 4 ∧
      (correctedChunkSize 12).toNat = 16 ∧ (correctedChunkSize 12).toNat < 24 :=
  ⟨(next_power_of_two_rounds_up.1 5 (by decide) (by decide)).2.1,
    (next_power_of_two_rounds_up.1 4 (by decide) (by decide)).2.2 (by decide), by decide,
    (next_power_of_two_rounds_up.2.2 12 (by decide)).2.2⟩

end Jasl
