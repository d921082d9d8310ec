import Jasl.Common.BitHistory
import Jasl.Library.Loop

/-!
# The text of a bit set

`BitSet::to_string` makes a text of as many characters as there are bits, and then assigns
each of them in a loop. So the text is the bits as digits, in their order (`toString_eq`).

Bytes are read back from the text of a set that is bound to them, and a text is given back
by a set whose bits are assigned from it, in whatever order (`text_round_trips`).
-/

set_option autoImplicit false

namespace Jasl

open Library

/-- A bit as a character, `value + '0'`. -/
def digit (value : Bool) : Char := Char.ofNat (value.toNat + '0'.toNat)

/-- A character of a text as a bit. -/
def isOne (character : Char) : Bool := character == '1'

/-- The text has no other characters than the two digits. -/
def Digits (text : List Char) : Prop := ∀ character ∈ text, character = '0' ∨ character = '1'

/-- `BitSet::to_string`. -/
def BitSet.toString (bits : BitSet) : Except BitFailure (List Char) :=
  (List.range bits.mNumberOfBits.toNat).foldlM
    (fun output i => do return output.set i (digit (← bits.value (BitVec.ofNat 64 i))))
    (List.replicate bits.mNumberOfBits.toNat '\x00')

/-! ## Characters -/

@[simp]
theorem isOne_digit (value : Bool) : isOne (digit value) = value := by
  cases value with
  | true => rfl
  | false => rfl

theorem digit_isOne {character : Char} (binary : character = '0' ∨ character = '1') :
    digit (isOne character) = character := by
  rcases binary with rfl | rfl
  · rfl
  · rfl

theorem digits_map (bits : List Bool) : Digits (bits.map digit) := by
  intro character mem
  obtain ⟨value, -, rfl⟩ := List.mem_map.mp mem
  cases value with
  | true => exact .inr rfl
  | false => exact .inl rfl

/-- Digits are the bits again. -/
theorem map_isOne_digit (bits : List Bool) : (bits.map digit).map isOne = bits := by
  simp [Function.comp_def]

/-! ## The text of the bits -/

section Index

variable {i : ℕ} {count : Word} (inside : i < count.toNat)
include inside

/-- The indices of the loop are words. -/
theorem toNat_index : (BitVec.ofNat 64 i).toNat = i :=
  Nat.mod_eq_of_lt (Nat.lt_trans inside count.isLt)

theorem index_lt : BitVec.ofNat 64 i < count := by
  rwa [BitVec.lt_def, toNat_index inside]

end Index

/-- The text is the bits as digits. -/
theorem BitSet.toString_eq (bits : BitSet) :
    bits.toString = .ok ((List.range bits.size.toNat).map fun i => digit (bitAt bits.mData i)) := by
  refine foldlM_set (fun i inside => ?_) List.length_replicate
  rw [value_eq (index_lt inside), toNat_index inside]

namespace Agrees

variable {ι : Type} {sizes : ι → Word} {sets : BitSets ι} {cells : Bit ι → Bool}

/-- The text of a set is what its cells hold. -/
theorem toString (agrees : Agrees sizes sets cells) (bitset : ι) :
    (sets bitset).toString =
      .ok ((List.range (sets bitset).size.toNat).map fun i =>
        digit (cells ⟨bitset, BitVec.ofNat 64 i⟩)) := by
  rw [BitSet.toString_eq]
  refine congrArg Except.ok (List.map_congr_left fun i mem => congrArg digit ?_)
  have inside : i < (sets bitset).size.toNat := List.mem_range.mp mem
  have stored : Bit.Inside ⟨bitset, BitVec.ofNat 64 i⟩ sets := index_lt inside
  rw [← agrees.bits _ stored, Bit.cell, toNat_index inside]

end Agrees

/-! ## Round trips -/

section Counts

variable {n : ℕ} (fits : 8 * n < 2 ^ 64)
include fits

/-- The number of bits of some bytes. -/
theorem toNat_bits : (BitVec.ofNat 64 n * 8).toNat = 8 * n := by
  rw [BitVec.toNat_mul, BitVec.toNat_ofNat]
  change n % 2 ^ 64 * 8 % 2 ^ 64 = 8 * n
  omega

theorem ofNat_ne_zero (positive : 1 ≤ n) : BitVec.ofNat 64 n ≠ 0 := by
  intro zero
  have none : 8 * n = 0 := by
    rw [← toNat_bits fits, zero]
    rfl
  omega

theorem lt_bits {i : ℕ} (inside : i < 8 * n) : i < (BitVec.ofNat 64 n * 8).toNat := by
  rwa [toNat_bits fits]

end Counts

/-- The text of a set that is bound to bytes. -/
theorem toString_bound {source : List Byte} (nonempty : source ≠ [])
    (fits : 8 * source.length < 2 ^ 64) :
    ∃ bits, BitSet.bind (BitVec.ofNat 64 source.length) (some source) = .ok bits ∧
      bits.toString = .ok ((bitsOf source).map digit) := by
  let bits : BitSet := {
    mData := source
    mSize := BitVec.ofNat 64 source.length
    mNumberOfBits := BitVec.ofNat 64 source.length * 8
    stored := (Nat.mod_eq_of_lt (by omega)).symm }
  refine ⟨bits, bits.bind_stored ?_, ?_⟩
  · exact ofNat_ne_zero fits (List.length_pos_iff.mpr nonempty)
  · rw [BitSet.toString_eq, BitSet.size, toNat_bits fits, bitsOf, List.map_map]
    rfl

/-- The writes that assign bits of a set from the characters of a text. -/
def textWrites (text : List Char) (order : List ℕ) : List (BitWrite Unit) :=
  order.map fun i => .assign ⟨(), BitVec.ofNat 64 i⟩ (isOne (text.getD i '0'))

/-- A cell for which there is a write holds its character behind the writes, in any order. -/
theorem cell_of_textWrites {n : ℕ} {text : List Char} {order : List ℕ} (fits : 8 * n < 2 ^ 64)
    (all : ∀ i, i ∈ order ↔ i < 8 * n) {i : ℕ} (inside : i < 8 * n) (cells : Bit Unit → Bool) :
    CellWrite.runAll ((textWrites text order).map BitWrite.toCell) cells
      ⟨(), BitVec.ofNat 64 i⟩ = isOne (text.getD i '0') := by
  refine CellWrite.runAll_same ?_ (.inr ?_)
  · intro write mem covered cells
    obtain ⟨assign, assigned, rfl⟩ := List.mem_map.mp mem
    obtain ⟨j, member, rfl⟩ := List.mem_map.mp assigned
    have same : BitVec.ofNat 64 i = BitVec.ofNat 64 j :=
      congrArg Bit.mIndex (of_decide_eq_true covered)
    have index : i = j := by
      rw [← toNat_index (lt_bits fits inside), same,
        toNat_index (lt_bits fits ((all j).mp member))]
    rw [index]
    rfl
  · have member : i ∈ order := (all i).mpr inside
    exact ⟨_, List.mem_map_of_mem (List.mem_map_of_mem member), decide_eq_true rfl⟩

/-- The text of a set whose bits are assigned from a text. -/
theorem toString_assigned {n : ℕ} {text : List Char} (positive : 1 ≤ n)
    (sized : text.length = 8 * n) (fits : 8 * n < 2 ^ 64) (binary : Digits text)
    {order : List ℕ} (all : ∀ i, i ∈ order ↔ i < 8 * n) :
    ∃ bits after, BitSet.bind (BitVec.ofNat 64 n) none = .ok bits ∧
      BitWrite.runAll (fun _ => bits) (textWrites text order) = .ok after ∧
      (after ()).toString = .ok text := by
  have unsourced : ∀ bytes ∈ (none : Option (List Byte)),
      (BitVec.ofNat 64 n).toNat ≤ bytes.length := by simp
  obtain ⟨bits, bound, -⟩ := BitSet.bind_eq (ofNat_ne_zero fits positive) unsourced
  have agrees : Agrees (fun _ : Unit => BitVec.ofNat 64 n) (fun _ => bits) _ :=
    agrees_of_bind fun _ => bound
  have writes : ∀ write ∈ textWrites text order, write.Inside fun _ => bits := by
    intro write mem
    obtain ⟨i, member, rfl⟩ := List.mem_map.mp mem
    have inside : i < 8 * n := (all i).mp member
    exact agrees.inside_iff.mpr (index_lt (lt_bits fits inside))
  obtain ⟨after, run, agrees'⟩ := agrees.runAll (fun _ => ofNat_ne_zero fits positive) writes
  refine ⟨bits, after, bound, run, (agrees'.toString ()).trans (congrArg Except.ok ?_)⟩
  have count : (after ()).size.toNat = 8 * n := by
    rw [BitSet.size, BitSet.counted, agrees'.size, toNat_bits fits]
  refine List.ext_getElem (by rw [List.length_map, List.length_range, count, sized]) ?_
  intro i inside inText
  rw [sized] at inText
  rw [List.getElem_map, List.getElem_range, cell_of_textWrites fits all inText,
    List.getD_eq_getElem?_getD, List.getElem?_eq_getElem (by rwa [sized]), Option.getD_some]
  exact digit_isOne (binary _ (List.getElem_mem _))

/-- **The text of a bit set round-trips.** -/
theorem text_round_trips :
    (∀ source : List Byte, source ≠ [] → 8 * source.length < 2 ^ 64 →
      ∃ bits text, BitSet.bind (BitVec.ofNat 64 source.length) (some source) = .ok bits ∧
        bits.toString = .ok text ∧ text.length = 8 * source.length ∧ Digits text ∧
        readBytes (text.map isOne) = source) ∧
    ∀ (n : ℕ) (text : List Char), 1 ≤ n → text.length = 8 * n → 8 * n < 2 ^ 64 →
      Digits text → ∀ order : List ℕ, (∀ i, i ∈ order ↔ i < 8 * n) →
        ∃ bits after, BitSet.bind (BitVec.ofNat 64 n) none = .ok bits ∧
          BitWrite.runAll (fun _ => bits) (textWrites text order) = .ok after ∧
          (after ()).toString = .ok text := by
  constructor
  · intro source nonempty fits
    obtain ⟨bits, bound, shown⟩ := toString_bound nonempty fits
    refine ⟨bits, _, bound, shown, ?_, digits_map _, ?_⟩
    · rw [List.length_map, length_bitsOf]
    · rw [map_isOne_digit, readBytes_bitsOf]
  · intro n text positive sized fits binary order all
    exact toString_assigned positive sized fits binary all

/-- Two bytes, and one byte that is assigned from its last bit to its first. -/
theorem text_round_trips_small :
    (∃ bits text, BitSet.bind 2 (some [0xa5, 0x01]) = .ok bits ∧ bits.toString = .ok text ∧
      text.length = 16 ∧ Digits text ∧ readBytes (text.map isOne) = [0xa5, 0x01]) ∧
    ∃ bits after, BitSet.bind 1 none = .ok bits ∧
      BitWrite.runAll (fun _ => bits)
        (textWrites ['1', '0', '1', '0', '0', '1', '0', '1'] [7, 6, 5, 4, 3, 2, 1, 0]) =
          .ok after ∧
      (after ()).toString = .ok ['1', '0', '1', '0', '0', '1', '0', '1'] :=
  ⟨text_round_trips.1 [0xa5, 0x01] (by decide) (by decide),
    text_round_trips.2 1 ['1', '0', '1', '0', '0', '1', '0', '1'] (by decide) rfl (by decide)
      (by simp [Digits]) [7, 6, 5, 4, 3, 2, 1, 0] fun i => by simp; omega⟩

end Jasl
