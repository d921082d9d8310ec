import Jasl.Library.PackedBits
import Mathlib.Logic.Function.Basic

/-!
# The bit set

`BitSet` keeps bits in an array of bytes, the most significant bit of a byte first, and
hands out proxies for them (`Bit`), which read and write through a reference to the set.
The sets are objects with an identity, and a proxy knows its set by that.

An operation ends with a result, with an exception, or with an access outside the storage,
which is undefined. Both `operator[]` compare the index with the number of bits by `>`, so
the index that equals it is let through; for all others they are safe (`index_safe_iff`).
-/

set_option autoImplicit false

namespace Jasl

open Library

/-- How an operation may end otherwise than with a result. -/
inductive BitFailure where
  | runtimeError (what : String)
  | outOfRange (what : String)
  | outside (byte : ℕ)
deriving DecidableEq, Repr

/-- `BitSet`. The storage is also what `m_begin` points to, and without bytes it is null. -/
structure BitSet where
  mData : List Byte := []
  mSize : Word := 0
  mNumberOfBits : Word := 0
  stored : mData.length = mSize.toNat := by rfl
  counted : mNumberOfBits = mSize * 8 := by rfl
deriving DecidableEq, Repr

/-- `Offset`. -/
structure Offset where
  byte : Word
  bit : Word
deriving DecidableEq, Repr

/-- `calc_offset`. -/
def calcOffset (index : Word) : Offset := ⟨index / 8, 7 - index % 8⟩

/-- `1 << offset.bit`, an `int`. -/
def Offset.mask (offset : Offset) : BitVec 32 := 1#32 <<< offset.bit

namespace BitSet

/-! ## The set -/

/-- `BitSet::size`. -/
def size (bits : BitSet) : Word := bits.mNumberOfBits

/-- `BitSet::set_all`. -/
def setAll (bits : BitSet) (val : Bool) : Except BitFailure BitSet :=
  if bits.mData = [] then .error (.runtimeError "uninitialized bitset")
  else .ok { bits with
    mData := List.replicate bits.mSize.toNat (if val then 0xff else 0x00)
    stored := by simp }

/-- `BitSet::bind`. What is in the new storage before it is filled is never read. -/
def bind (size : Word) (source : Option (List Byte)) : Except BitFailure BitSet :=
  if size = 0 then .error (.runtimeError "BitSet::bind : invalid size")
  else
    let allocated : BitSet := {
      mData := List.replicate size.toNat 0
      mSize := size
      mNumberOfBits := size * 8
      stored := by simp }
    match source with
    | some source =>
        if fits : size.toNat ≤ source.length then
          .ok { allocated with
            mData := source.take size.toNat
            stored := by simp [fits, allocated] }
        else .error (.outside source.length)
    | none => allocated.setAll false

/-- `BitSet::get`. -/
def get (bits : BitSet) (index : Word) : Except BitFailure Bool :=
  let offset := calcOffset index
  match bits.mData[offset.byte.toNat]? with
  | some byte => .ok (testByMask byte offset.mask)
  | none => .error (.outside offset.byte.toNat)

/-- A change of the byte that holds the bit. -/
def update (bits : BitSet) (index : Word) (change : Byte → BitVec 32 → Byte) :
    Except BitFailure BitSet :=
  let offset := calcOffset index
  if offset.byte.toNat < bits.mData.length then
    .ok { bits with
      mData := bits.mData.modify offset.byte.toNat fun byte => change byte offset.mask
      stored := by simp [bits.stored] }
  else .error (.outside offset.byte.toNat)

/-- `BitSet::set`. -/
def set (bits : BitSet) (index : Word) : Except BitFailure BitSet := bits.update index setByMask

/-- `BitSet::clear`. -/
def clear (bits : BitSet) (index : Word) : Except BitFailure BitSet :=
  bits.update index clearByMask

/-- `BitSet::operator[]` of a constant set. -/
def value (bits : BitSet) (index : Word) : Except BitFailure Bool :=
  if index > bits.mNumberOfBits then .error (.outOfRange "invalid index")
  else bits.get index

end BitSet

/-! ## The proxy -/

/-- The sets of a program. -/
abbrev BitSets (ι : Type) := ι → BitSet

/-- `Bit`. -/
structure Bit (ι : Type) where
  mBitset : ι
  mIndex : Word
deriving DecidableEq, Repr

section Proxy

variable {ι : Type}

/-- `BitSet::operator[]`. -/
def BitSets.bit (sets : BitSets ι) (bitset : ι) (index : Word) : Except BitFailure (Bit ι) :=
  if index > (sets bitset).mNumberOfBits then .error (.outOfRange "invalid index")
  else .ok ⟨bitset, index⟩

namespace Bit

/-- `Bit::operator bool`. -/
def toBool (bit : Bit ι) (sets : BitSets ι) : Except BitFailure Bool :=
  (sets bit.mBitset).get bit.mIndex

/-- `Bit::operator~`. -/
def complement (bit : Bit ι) (sets : BitSets ι) : Except BitFailure Bool := do
  return !(← bit.toBool sets)

variable [DecidableEq ι]

/-- `Bit::operator=` of a value. -/
def assign (bit : Bit ι) (value : Bool) (sets : BitSets ι) : Except BitFailure (BitSets ι) := do
  let bits ← if value then (sets bit.mBitset).set bit.mIndex
    else (sets bit.mBitset).clear bit.mIndex
  return Function.update sets bit.mBitset bits

/-- `Bit::operator=` of another proxy. -/
def assignBit (left right : Bit ι) (sets : BitSets ι) : Except BitFailure (BitSets ι) := do
  left.assign (← right.toBool sets) sets

/-- `Bit::flip`. -/
def flip (bit : Bit ι) (sets : BitSets ι) : Except BitFailure (Bool × BitSets ι) := do
  let sets ← bit.assign (← bit.complement sets) sets
  return (← bit.toBool sets, sets)

end Bit

end Proxy

/-! ## Where the bits are -/

section Offsets

variable (index : Word)

@[simp]
theorem calcOffset_byte : (calcOffset index).byte.toNat = index.toNat / 8 := by
  simp [calcOffset]

theorem calcOffset_bit : (calcOffset index).bit.toNat = 7 - index.toNat % 8 := by
  simp only [calcOffset, BitVec.toNat_sub, BitVec.toNat_umod, BitVec.reduceToNat, Nat.reducePow]
  omega

@[simp]
theorem calcOffset_mask : (calcOffset index).mask = BitVec.twoPow 32 (7 - index.toNat % 8) := by
  rw [Offset.mask, BitVec.shiftLeft_eq', calcOffset_bit, BitVec.twoPow_eq]

end Offsets

namespace BitSet

variable {bits : BitSet} {index : Word}

/-- An index that is checked is stored. -/
theorem inside_of_lt_size (small : index < bits.size) : index.toNat / 8 < bits.mData.length := by
  have counted : bits.size.toNat = bits.mSize.toNat * 8 % 2 ^ 64 := by
    rw [size, bits.counted, BitVec.toNat_mul]
    rfl
  have below : index.toNat < bits.size.toNat := BitVec.lt_def.mp small
  have stored := bits.stored
  omega

theorem get_eq (inside : index.toNat / 8 < bits.mData.length) :
    bits.get index = .ok (bitAt bits.mData index.toNat) := by
  have bit : 7 - index.toNat % 8 < 32 := by omega
  simp [get, inside, testByMask_twoPow bit, bitAt, List.getD_eq_getElem?_getD]

theorem value_eq (inside : index < bits.size) :
    bits.value index = .ok (bitAt bits.mData index.toNat) :=
  (if_neg (lt_asymm inside)).trans (get_eq (inside_of_lt_size inside))

/-- A set with other bits in it. -/
structure Rewritten (before after : BitSet) (bits : ℕ → Bool) : Prop where
  size : after.mSize = before.mSize
  bits : ∀ j, j / 8 < before.mData.length → bitAt after.mData j = bits j

/-- Assigning a bit, by `set` or by `clear`. -/
def write (bits : BitSet) (index : Word) (value : Bool) : Except BitFailure BitSet :=
  if value then bits.set index else bits.clear index

/-- A change of one bit of a byte is a change of one bit of the set. -/
theorem update_eq {change : Byte → BitVec 32 → Byte} {value : Bool}
    (inside : index.toNat / 8 < bits.mData.length)
    (changes : ∀ byte i k, k < 8 →
      (change byte (BitVec.twoPow 32 i)).getLsbD k = if k = i then value else byte.getLsbD k) :
    ∃ after, bits.update index change = .ok after ∧
      Rewritten bits after (Function.update (bitAt bits.mData) index.toNat value) := by
  refine ⟨_, if_pos (by simpa using inside), rfl, fun j _ => ?_⟩
  rw [Function.update_apply]
  simp only [calcOffset_byte, calcOffset_mask]
  exact bitAt_modify inside (fun byte k => changes byte _ k) j

theorem write_eq (inside : index.toNat / 8 < bits.mData.length) (value : Bool) :
    ∃ after, bits.write index value = .ok after ∧
      Rewritten bits after (Function.update (bitAt bits.mData) index.toNat value) := by
  cases value with
  | true =>
      exact update_eq inside fun byte i k small => getLsbD_setByMask small (by decide) byte
  | false =>
      exact update_eq inside fun byte i k small => getLsbD_clearByMask small (by decide) byte

theorem setAll_eq (bits : BitSet) (bound : bits.mSize ≠ 0) (val : Bool) :
    ∃ after, bits.setAll val = .ok after ∧ Rewritten bits after fun _ => val := by
  have stored : bits.mData ≠ [] := by
    intro empty
    have zero : 0 = bits.mSize.toNat := by rw [← bits.stored, empty, List.length_nil]
    exact bound (BitVec.eq_of_toNat_eq zero.symm)
  refine ⟨_, if_neg stored, rfl, fun j inside => ?_⟩
  rw [bits.stored] at inside
  refine (bitAt_replicate inside _).trans ?_
  have bit : 7 - j % 8 < 8 := by omega
  generalize 7 - j % 8 = k at bit
  cases val with
  | true =>
      have ones : (0xff : Byte) = BitVec.allOnes 8 := rfl
      simp only [if_pos, ones, BitVec.getLsbD_allOnes, bit, decide_true]
  | false => simp

/-- What a bit is bound to. -/
def initialBit : Option (List Byte) → ℕ → Bool
  | some source, i => bitAt source i
  | none, _ => false

theorem bind_eq {size : Word} {source : Option (List Byte)} (bound : size ≠ 0)
    (sourced : ∀ bytes ∈ source, size.toNat ≤ bytes.length) :
    ∃ bits, bind size source = .ok bits ∧ bits.mSize = size ∧
      ∀ j, j / 8 < bits.mData.length → bitAt bits.mData j = initialBit source j := by
  cases source with
  | some bytes =>
      have fits : size.toNat ≤ bytes.length := sourced bytes rfl
      refine ⟨_, (if_neg bound).trans (dif_pos fits), rfl, fun j inside => ?_⟩
      have taken : j / 8 < size.toNat := by
        simpa [Nat.min_eq_left fits] using inside
      exact bitAt_take taken bytes
  | none =>
      let allocated : BitSet := ⟨List.replicate size.toNat 0, size, size * 8, by simp, rfl⟩
      obtain ⟨bits, filled, rewritten⟩ := allocated.setAll_eq bound false
      refine ⟨bits, (if_neg bound).trans filled, rewritten.size, fun j inside => ?_⟩
      rw [bits.stored, rewritten.size, ← allocated.stored] at inside
      exact rewritten.bits j inside

/-- Bound from the bytes of a set, the result is that set. -/
theorem bind_stored (bits : BitSet) (bound : bits.mSize ≠ 0) :
    bind bits.mSize (some bits.mData) = .ok bits := by
  obtain ⟨data, size, count, stored, rfl⟩ := bits
  refine (if_neg bound).trans ((dif_pos stored.ge).trans ?_)
  congr 2
  rw [← stored, List.take_length]

/-- What a set is bound to is what it is bound from. -/
theorem bits_of_bind {size : Word} {source : Option (List Byte)}
    (bound : bind size source = .ok bits) :
    bits.mSize = size ∧ bits.mSize ≠ 0 ∧
      ∀ j, j / 8 < bits.mData.length → bitAt bits.mData j = initialBit source j := by
  have notZero : size ≠ 0 := by
    rintro rfl
    cases bound
  have sourced : ∀ bytes ∈ source, size.toNat ≤ bytes.length := by
    rintro bytes ⟨⟩
    by_contra short
    have outside : bind size (some bytes) = .error (.outside bytes.length) :=
      (if_neg notZero).trans (dif_neg short)
    rw [outside] at bound
    cases bound
  obtain ⟨same, run, sized, initial⟩ := bind_eq notZero sourced
  obtain rfl : same = bits := Except.ok.inj (run.symm.trans bound)
  exact ⟨sized, sized ▸ notZero, initial⟩

end BitSet

/-! ## The check of the index -/

section Bounds

variable {ι : Type}

/-- The index is thrown for. -/
def Rejects {α : Type} (result : Except BitFailure α) : Prop :=
  ∃ what, result = .error (.outOfRange what)

theorem rejects_bit {sets : BitSets ι} {bitset : ι} {index : Word} :
    Rejects (sets.bit bitset index) ↔ index > (sets bitset).size := by
  by_cases above : index > (sets bitset).size
  · exact iff_of_true ⟨_, if_pos above⟩ above
  · have accepted : sets.bit bitset index = .ok ⟨bitset, index⟩ := if_neg above
    simp [Rejects, accepted, above]

theorem rejects_value {bits : BitSet} {index : Word} :
    Rejects (bits.value index) ↔ index > bits.size := by
  by_cases above : index > bits.size
  · exact iff_of_true ⟨_, if_pos above⟩ above
  · have accepted : bits.value index = bits.get index := if_neg above
    have notRejected : ¬ Rejects (bits.get index) := by
      rintro ⟨what, rejected⟩
      simp only [BitSet.get] at rejected
      split at rejected
      · cases rejected
      · cases rejected
    rw [accepted]
    exact iff_of_false notRejected above

/-- Both `operator[]` throw for the indices from the size on, and the byte of an index that
they accept is stored, so that `get`, `set` and `clear` come to an end. -/
structure BoundsSafe (sets : BitSets ι) (bitset : ι) (index : Word) : Prop where
  proxy : Rejects (sets.bit bitset index) ↔ index ≥ (sets bitset).size
  constant : Rejects ((sets bitset).value index) ↔ index ≥ (sets bitset).size
  stored : ¬ Rejects (sets.bit bitset index) ∨ ¬ Rejects ((sets bitset).value index) →
    (calcOffset index).byte < (sets bitset).mSize
  accessed : ¬ Rejects (sets.bit bitset index) ∨ ¬ Rejects ((sets bitset).value index) →
    (∃ value, (sets bitset).get index = .ok value) ∧
    (∃ after, (sets bitset).set index = .ok after) ∧
    ∃ after, (sets bitset).clear index = .ok after

theorem index_safe_iff (sets : BitSets ι) (bitset : ι) (index : Word) :
    BoundsSafe sets bitset index ↔ index ≠ (sets bitset).size := by
  constructor
  · rintro safe rfl
    exact lt_irrefl _ (rejects_bit.mp (safe.proxy.mpr le_rfl))
  · intro other
    have strict : index > (sets bitset).size ↔ index ≥ (sets bitset).size :=
      ⟨le_of_lt, fun above => lt_of_le_of_ne above other.symm⟩
    have inside : ¬ Rejects (sets.bit bitset index) ∨ ¬ Rejects ((sets bitset).value index) →
        index.toNat / 8 < (sets bitset).mData.length := by
      rw [rejects_bit, rejects_value, or_self, strict, ge_iff_le, not_le]
      exact BitSet.inside_of_lt_size
    refine ⟨rejects_bit.trans strict, rejects_value.trans strict, fun accepted => ?_,
      fun accepted => ?_⟩
    · rw [BitVec.lt_def, calcOffset_byte, ← (sets bitset).stored]
      exact inside accepted
    · obtain ⟨set, written, _⟩ := BitSet.write_eq (inside accepted) true
      obtain ⟨cleared, erased, _⟩ := BitSet.write_eq (inside accepted) false
      exact ⟨⟨_, BitSet.get_eq (inside accepted)⟩, ⟨set, written⟩, ⟨cleared, erased⟩⟩

/-- The index that equals the size is let through, and its byte is behind the storage. -/
theorem index_at_size :
    ∃ bits : BitSet, BitSet.bind 1 none = .ok bits ∧ bits.size = 8 ∧
      bits.value 8 = .error (.outside 1) ∧ ¬ BoundsSafe (fun _ : Unit => bits) () 8 := by
  refine ⟨_, rfl, rfl, rfl, fun safe => ?_⟩
  obtain ⟨what, rejected⟩ := safe.constant.mpr (le_of_eq rfl)
  cases rejected

end Bounds

end Jasl
