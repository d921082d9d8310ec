import Jasl.Library.Words
import Mathlib.Data.BitVec
import Mathlib.Data.List.Basic

/-!
# Bits packed into bytes

Bit `i` of a stretch of bytes is in byte `i / 8`, the most significant bit first. A byte is
changed by a mask in a wider word, as the integer promotion of a C program has it, and the
result is cut to the byte again. Neither setting nor clearing a bit so touches the other
seven (`getLsbD_setByMask`, `getLsbD_clearByMask`), and a change of one bit of a byte is a
change of one bit of the stretch (`bitAt_modify`).

Bits in groups of eight can be read as bytes, which gives a stretch of bytes back from its
bits (`readBytes_bitsOf`).
-/

set_option autoImplicit false

namespace Jasl.Library

/-! ## Masks in a wider word -/

section Masks

variable {v w : ℕ}

/-- `byte & mask`, as a truth value. -/
def testByMask (byte : BitVec v) (mask : BitVec w) : Bool := (byte.setWidth w).has mask

/-- `byte |= mask`. -/
def setByMask (byte : BitVec v) (mask : BitVec w) : BitVec v :=
  (byte.setWidth w ||| mask).setWidth v

/-- `byte &= ~mask`. -/
def clearByMask (byte : BitVec v) (mask : BitVec w) : BitVec v :=
  (byte.setWidth w &&& ~~~mask).setWidth v

variable {i j : ℕ}

theorem testByMask_twoPow (wide : i < w) (byte : BitVec v) :
    testByMask byte (BitVec.twoPow w i) = byte.getLsbD i := by
  rw [testByMask, BitVec.has_twoPow, BitVec.getLsbD_setWidth, decide_eq_true wide,
    Bool.true_and]

theorem getLsbD_setByMask (inside : j < v) (wide : v ≤ w) (byte : BitVec v) :
    (setByMask byte (BitVec.twoPow w i)).getLsbD j = if j = i then true else byte.getLsbD j := by
  have small : j < w := Nat.lt_of_lt_of_le inside wide
  simp only [setByMask, BitVec.getLsbD_setWidth, BitVec.getLsbD_or, BitVec.getLsbD_twoPow,
    inside, small, decide_true, Bool.true_and]
  by_cases same : j = i
  · subst same
    simp [small]
  · simp [same, Ne.symm same]

theorem getLsbD_clearByMask (inside : j < v) (wide : v ≤ w) (byte : BitVec v) :
    (clearByMask byte (BitVec.twoPow w i)).getLsbD j =
      if j = i then false else byte.getLsbD j := by
  have small : j < w := Nat.lt_of_lt_of_le inside wide
  simp only [clearByMask, BitVec.getLsbD_setWidth, BitVec.getLsbD_and, BitVec.getLsbD_not,
    BitVec.getLsbD_twoPow, inside, small, decide_true, Bool.true_and]
  by_cases same : j = i
  · subst same
    simp [small]
  · simp [same, Ne.symm same]

end Masks

/-! ## Bits of a stretch of bytes -/

/-- Bit `i` of the bytes. -/
def bitAt (bytes : List Byte) (i : ℕ) : Bool := (bytes.getD (i / 8) 0).getLsbD (7 - i % 8)

theorem bitAt_replicate {n i : ℕ} (inside : i / 8 < n) (byte : Byte) :
    bitAt (List.replicate n byte) i = byte.getLsbD (7 - i % 8) := by
  simp [bitAt, List.getD_eq_getElem?_getD, inside]

theorem bitAt_take {n i : ℕ} (inside : i / 8 < n) (bytes : List Byte) :
    bitAt (bytes.take n) i = bitAt bytes i := by
  simp [bitAt, List.getD_eq_getElem?_getD, inside]

/-- A change of one bit of a byte changes that bit of the stretch, and no other. -/
theorem bitAt_modify {bytes : List Byte} {change : Byte → Byte} {i : ℕ} {value : Bool}
    (inside : i / 8 < bytes.length)
    (changes : ∀ byte k, k < 8 →
      (change byte).getLsbD k = if k = 7 - i % 8 then value else byte.getLsbD k) (j : ℕ) :
    bitAt (bytes.modify (i / 8) change) j = if j = i then value else bitAt bytes j := by
  unfold bitAt
  by_cases byte : j / 8 = i / 8
  · have changed : (bytes.modify (i / 8) change).getD (j / 8) 0 =
        change (bytes.getD (j / 8) 0) := by
      simp [byte, List.getD_eq_getElem?_getD, inside]
    rw [changed, changes _ _ (by omega)]
    by_cases same : j = i
    · rw [if_pos same, if_pos (by rw [same])]
    · rw [if_neg same, if_neg (by omega)]
  · have kept : (bytes.modify (i / 8) change).getD (j / 8) 0 = bytes.getD (j / 8) 0 := by
      simp [List.getD_eq_getElem?_getD, Ne.symm byte]
    rw [kept, if_neg fun same => byte (by rw [same])]

/-! ## All bits of a stretch -/

/-- The bits of the bytes, in their order. -/
def bitsOf (bytes : List Byte) : List Bool := (List.range (8 * bytes.length)).map (bitAt bytes)

/-- Bits read in groups of eight, the most significant bit of a byte first. -/
def readBytes : List Bool → List Byte
  | a :: b :: c :: d :: e :: f :: g :: h :: rest =>
      BitVec.ofBoolListBE [a, b, c, d, e, f, g, h] :: readBytes rest
  | _ => []

@[simp]
theorem length_bitsOf (bytes : List Byte) : (bitsOf bytes).length = 8 * bytes.length := by
  simp [bitsOf]

/-- The bits of the first byte are the first eight. -/
theorem bitsOf_cons (byte : Byte) (bytes : List Byte) :
    bitsOf (byte :: bytes) =
      (List.range 8).map (fun i => byte.getLsbD (7 - i)) ++ bitsOf bytes := by
  have first : ∀ i ∈ List.range 8, bitAt (byte :: bytes) i = byte.getLsbD (7 - i) := by
    intro i small
    have inside : i < 8 := List.mem_range.mp small
    rw [bitAt, Nat.div_eq_of_lt inside, Nat.mod_eq_of_lt inside]
    rfl
  have later : ∀ i, bitAt (byte :: bytes) (8 + i) = bitAt bytes i := by
    intro i
    rw [bitAt, Nat.add_div_left i (by decide), Nat.add_mod_left]
    rfl
  rw [bitsOf, List.length_cons, Nat.mul_succ, Nat.add_comm, List.range_add, List.map_append,
    List.map_congr_left first, List.map_map]
  congr 1
  exact List.map_congr_left fun i _ => later i

/-- A byte is read from its bits. -/
theorem readBytes_byte (byte : Byte) (rest : List Bool) :
    readBytes ((List.range 8).map (fun i => byte.getLsbD (7 - i)) ++ rest) =
      byte :: readBytes rest := by
  refine congrArg (· :: readBytes rest) (BitVec.eq_of_getMsbD_eq fun i inside => ?_)
  rw [BitVec.getMsbD_ofBoolListBE, BitVec.getMsbD]
  match i, inside with
  | 0, _ | 1, _ | 2, _ | 3, _ | 4, _ | 5, _ | 6, _ | 7, _ => rfl

/-- The bits of bytes, read as bytes. -/
theorem readBytes_bitsOf (bytes : List Byte) : readBytes (bitsOf bytes) = bytes := by
  induction bytes with
  | nil => rfl
  | cons byte bytes ih => rw [bitsOf_cons, readBytes_byte, ih]

end Jasl.Library
