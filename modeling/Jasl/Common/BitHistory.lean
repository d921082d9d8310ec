import Jasl.Common.BitSet
import Jasl.Library.Cells

/-!
# Histories of writes to bits

A program writes bits through proxies, from a value or from another proxy of the same or
of another set, flips them, and sets all bits of a set. Read as cells, one for each bit of
each set, every such step is a write to cells (`run_agrees`). So a set behaves as an array
of independent bits (`bits_are_array`).
-/

set_option autoImplicit false

namespace Jasl

open Library

variable {ι : Type}

/-! ## Reading -/

namespace Bit

/-- The index of the bit is below the size of its set. -/
def Inside (bit : Bit ι) (sets : BitSets ι) : Prop := bit.mIndex < (sets bit.mBitset).size

instance (bit : Bit ι) (sets : BitSets ι) : Decidable (bit.Inside sets) :=
  inferInstanceAs (Decidable (bit.mIndex < (sets bit.mBitset).size))

/-- Both ways to read the bit give the value. -/
structure Reads (bit : Bit ι) (sets : BitSets ι) (value : Bool) : Prop where
  proxy : (do (← sets.bit bit.mBitset bit.mIndex).toBool sets) = .ok value
  constant : (sets bit.mBitset).value bit.mIndex = .ok value

/-- The bit in the storage. -/
def cell (sets : BitSets ι) (bit : Bit ι) : Bool :=
  bitAt (sets bit.mBitset).mData bit.mIndex.toNat

variable {bit : Bit ι} {sets : BitSets ι}

theorem bit_eq (inside : bit.Inside sets) : sets.bit bit.mBitset bit.mIndex = .ok bit :=
  if_neg (lt_asymm inside)

theorem toBool_eq (inside : bit.Inside sets) : bit.toBool sets = .ok (cell sets bit) :=
  BitSet.get_eq (BitSet.inside_of_lt_size inside)

theorem reads_cell (inside : bit.Inside sets) : bit.Reads sets (cell sets bit) where
  proxy := by
    rw [bit_eq inside]
    exact toBool_eq inside
  constant := BitSet.value_eq inside

end Bit

/-! ## Writing -/

/-- A write, with the bits it is made through. -/
inductive BitWrite (ι : Type) where
  | assign (bit : Bit ι) (value : Bool)
  | copy (left right : Bit ι)
  | flip (bit : Bit ι)
  | setAll (bitset : ι) (value : Bool)
deriving DecidableEq, Repr

namespace BitWrite

/-- The bits are below the sizes of their sets. -/
def Inside (sets : BitSets ι) : BitWrite ι → Prop
  | .assign bit _ => bit.Inside sets
  | .copy left right => left.Inside sets ∧ right.Inside sets
  | .flip bit => bit.Inside sets
  | .setAll _ _ => True

instance (sets : BitSets ι) : (write : BitWrite ι) → Decidable (write.Inside sets)
  | .assign bit _ => inferInstanceAs (Decidable (bit.Inside sets))
  | .copy left right => inferInstanceAs (Decidable (left.Inside sets ∧ right.Inside sets))
  | .flip bit => inferInstanceAs (Decidable (bit.Inside sets))
  | .setAll _ _ => inferInstanceAs (Decidable True)

/-- What the write gives to the bits it covers. -/
def written (sets : BitSets ι) : BitWrite ι → Except BitFailure Bool
  | .assign _ value => .ok value
  | .copy _ right => right.toBool sets
  | .flip bit => bit.complement sets
  | .setAll _ value => .ok value

variable [DecidableEq ι]

/-- The bits that the write covers. -/
def covers : BitWrite ι → Bit ι → Bool
  | .assign bit _, other => other = bit
  | .copy left _, other => other = left
  | .flip bit, other => other = bit
  | .setAll bitset _, other => other.mBitset = bitset

/-- The write, through the proxies that `operator[]` gives. -/
def run (sets : BitSets ι) : BitWrite ι → Except BitFailure (BitSets ι)
  | .assign bit value => do
      let bit ← sets.bit bit.mBitset bit.mIndex
      bit.assign value sets
  | .copy left right => do
      let right ← sets.bit right.mBitset right.mIndex
      let left ← sets.bit left.mBitset left.mIndex
      left.assignBit right sets
  | .flip bit => do
      let bit ← sets.bit bit.mBitset bit.mIndex
      return (← bit.flip sets).2
  | .setAll bitset value => do
      return Function.update sets bitset (← (sets bitset).setAll value)

/-- One write after the other. -/
def runAll (sets : BitSets ι) : List (BitWrite ι) → Except BitFailure (BitSets ι)
  | [] => .ok sets
  | write :: writes => do runAll (← write.run sets) writes

/-- The write as one to cells. -/
def toCell (write : BitWrite ι) : CellWrite (Bit ι) Bool where
  covers := write.covers
  value cells :=
    match write with
    | .assign _ value => value
    | .copy _ right => cells right
    | .flip bit => !cells bit
    | .setAll _ value => value

end BitWrite

/-! ## The sets as cells -/

/-- The sets have their sizes, and hold what the cells hold. -/
structure Agrees (sizes : ι → Word) (sets : BitSets ι) (cells : Bit ι → Bool) : Prop where
  size : ∀ bitset, (sets bitset).mSize = sizes bitset
  bits : ∀ bit : Bit ι, bit.Inside sets → bit.cell sets = cells bit

namespace Agrees

variable {sizes : ι → Word} {sets : BitSets ι} {cells : Bit ι → Bool}

theorem inside_iff (agrees : Agrees sizes sets cells) {bit : Bit ι} :
    bit.Inside sets ↔ bit.mIndex < sizes bit.mBitset * 8 := by
  rw [Bit.Inside, BitSet.size, (sets bit.mBitset).counted, agrees.size]

/-- Sets of the same sizes have the same bits. -/
theorem transfer {after : BitSets ι} {changed : Bit ι → Bool}
    (agrees : Agrees sizes sets cells) (agrees' : Agrees sizes after changed) {bit : Bit ι}
    (inside : bit.Inside sets) : bit.Inside after :=
  agrees'.inside_iff.mpr (agrees.inside_iff.mp inside)

theorem transfer_write {after : BitSets ι} {changed : Bit ι → Bool}
    (agrees : Agrees sizes sets cells) (agrees' : Agrees sizes after changed)
    {write : BitWrite ι} (inside : write.Inside sets) : write.Inside after := by
  cases write with
  | assign bit value => exact agrees.transfer agrees' inside
  | copy left right =>
      exact ⟨agrees.transfer agrees' inside.1, agrees.transfer agrees' inside.2⟩
  | flip bit => exact agrees.transfer agrees' inside
  | setAll bitset value => trivial

/-- A bit is read as its cell. -/
theorem reads (agrees : Agrees sizes sets cells) {bit : Bit ι} (inside : bit.Inside sets) :
    bit.Reads sets (cells bit) :=
  agrees.bits bit inside ▸ Bit.reads_cell inside

theorem toBool (agrees : Agrees sizes sets cells) {bit : Bit ι} (inside : bit.Inside sets) :
    bit.toBool sets = .ok (cells bit) := by
  rw [Bit.toBool_eq inside, agrees.bits bit inside]

theorem complement (agrees : Agrees sizes sets cells) {bit : Bit ι} (inside : bit.Inside sets) :
    bit.complement sets = .ok (!cells bit) := by
  rw [Bit.complement, agrees.toBool inside]
  rfl

variable [DecidableEq ι]

/-- What a write gives to the bits it covers is what it gives to their cells. -/
theorem written (agrees : Agrees sizes sets cells) {write : BitWrite ι}
    (inside : write.Inside sets) : write.written sets = .ok (write.toCell.value cells) := by
  cases write with
  | assign bit value => rfl
  | copy left right => exact agrees.toBool inside.2
  | flip bit => exact agrees.complement inside
  | setAll bitset value => rfl

/-- One set is replaced by one with other bits. -/
theorem update (agrees : Agrees sizes sets cells) {bitset : ι} {bits : BitSet}
    {value : ℕ → Bool} (rewritten : BitSet.Rewritten (sets bitset) bits value)
    {changed : Bit ι → Bool}
    (own : ∀ bit : Bit ι, bit.Inside sets → bit.mBitset = bitset →
      value bit.mIndex.toNat = changed bit)
    (others : ∀ bit : Bit ι, bit.mBitset ≠ bitset → cells bit = changed bit) :
    Agrees sizes (Function.update sets bitset bits) changed := by
  have size : ∀ other, (Function.update sets bitset bits other).mSize = sizes other := by
    intro other
    by_cases same : other = bitset
    · subst same
      rw [Function.update_self, rewritten.size, agrees.size]
    · rw [Function.update_of_ne same, agrees.size]
  refine ⟨size, fun bit inside => ?_⟩
  have inside' : bit.Inside sets := by
    rw [Bit.Inside, BitSet.size, BitSet.counted, size] at inside
    exact agrees.inside_iff.mpr inside
  by_cases same : bit.mBitset = bitset
  · have stored := BitSet.inside_of_lt_size inside'
    rw [← own bit inside' same, Bit.cell, same, Function.update_self]
    rw [same] at stored
    exact rewritten.bits _ stored
  · rw [← others bit same, Bit.cell, Function.update_of_ne same]
    exact agrees.bits bit inside'

theorem assign_eq_write (bit : Bit ι) (value : Bool) (sets : BitSets ι) :
    bit.assign value sets = (do
      let bits ← (sets bit.mBitset).write bit.mIndex value
      return Function.update sets bit.mBitset bits) := by
  cases value with
  | true => rfl
  | false => rfl

/-- Assigning a bit is writing its cell. -/
theorem assign (agrees : Agrees sizes sets cells) {bit : Bit ι} (inside : bit.Inside sets)
    (value : Bool) :
    ∃ after, bit.assign value sets = .ok after ∧
      Agrees sizes after ((BitWrite.assign bit value).toCell.run cells) := by
  obtain ⟨bits, written, rewritten⟩ :=
    BitSet.write_eq (BitSet.inside_of_lt_size inside) value
  refine ⟨Function.update sets bit.mBitset bits, ?_, agrees.update rewritten ?_ ?_⟩
  · rw [assign_eq_write, written]
    rfl
  · rintro ⟨bitset, index⟩ inside' rfl
    by_cases same : index = bit.mIndex
    · subst same
      rw [Function.update_self, CellWrite.run_covered (decide_eq_true rfl)]
      rfl
    · have other : index.toNat ≠ bit.mIndex.toNat := fun eq => same (BitVec.eq_of_toNat_eq eq)
      rw [Function.update_of_ne other,
        CellWrite.run_uncovered (decide_eq_false fun eq => same (by rw [← eq]))]
      exact agrees.bits _ inside'
  · intro other different
    rw [CellWrite.run_uncovered (decide_eq_false fun same => different (by rw [same]))]

/-- Setting all bits of a set is writing all its cells. -/
theorem setAll (agrees : Agrees sizes sets cells) {bitset : ι} (bound : sizes bitset ≠ 0)
    (value : Bool) :
    ∃ after, BitWrite.run sets (.setAll bitset value) = .ok after ∧
      Agrees sizes after ((BitWrite.setAll bitset value).toCell.run cells) := by
  rw [← agrees.size] at bound
  obtain ⟨bits, filled, rewritten⟩ := (sets bitset).setAll_eq bound value
  refine ⟨Function.update sets bitset bits, ?_, agrees.update rewritten ?_ ?_⟩
  · rw [BitWrite.run, filled]
    rfl
  · intro other _ same
    rw [CellWrite.run_covered (decide_eq_true same)]
    rfl
  · intro other different
    rw [CellWrite.run_uncovered (decide_eq_false different)]

/-- Flipping a bit is writing its cell, and returns what it holds then. -/
theorem flip (agrees : Agrees sizes sets cells) {bit : Bit ι} (inside : bit.Inside sets) :
    ∃ after, bit.flip sets = .ok (!cells bit, after) ∧
      Agrees sizes after ((BitWrite.flip bit).toCell.run cells) := by
  obtain ⟨after, assigned, agrees'⟩ := agrees.assign inside (!cells bit)
  refine ⟨after, ?_, agrees'⟩
  have new : bit.toBool after = .ok (!cells bit) := by
    rw [agrees'.toBool (agrees.transfer agrees' inside),
      CellWrite.run_covered (decide_eq_true rfl)]
    rfl
  rw [Bit.flip, agrees.complement inside]
  change (do
    let sets ← bit.assign (!cells bit) sets
    return (← bit.toBool sets, sets)) = _
  rw [assigned]
  change (do return (← bit.toBool after, after)) = _
  rw [new]
  rfl

/-- A write to the sets is one to the cells. -/
theorem run (bound : ∀ bitset, sizes bitset ≠ 0) (agrees : Agrees sizes sets cells)
    {write : BitWrite ι} (inside : write.Inside sets) :
    ∃ after, write.run sets = .ok after ∧ Agrees sizes after (write.toCell.run cells) := by
  cases write with
  | assign bit value =>
      obtain ⟨after, assigned, agrees'⟩ := agrees.assign inside value
      refine ⟨after, ?_, agrees'⟩
      rw [BitWrite.run, Bit.bit_eq inside]
      exact assigned
  | copy left right =>
      obtain ⟨after, assigned, agrees'⟩ := agrees.assign inside.1 (cells right)
      refine ⟨after, ?_, agrees'⟩
      rw [BitWrite.run, Bit.bit_eq inside.1, Bit.bit_eq inside.2]
      change (do left.assign (← right.toBool sets) sets) = _
      rw [agrees.toBool inside.2]
      exact assigned
  | flip bit =>
      obtain ⟨after, flipped, agrees'⟩ := agrees.flip inside
      refine ⟨after, ?_, agrees'⟩
      rw [BitWrite.run, Bit.bit_eq inside]
      change (do return (← bit.flip sets).2) = _
      rw [flipped]
      rfl
  | setAll bitset value => exact agrees.setAll (bound bitset) value

/-- Writes to the sets are writes to the cells. -/
theorem runAll (bound : ∀ bitset, sizes bitset ≠ 0) {writes : List (BitWrite ι)}
    (agrees : Agrees sizes sets cells) (inside : ∀ write ∈ writes, write.Inside sets) :
    ∃ after, BitWrite.runAll sets writes = .ok after ∧
      Agrees sizes after (CellWrite.runAll (writes.map BitWrite.toCell) cells) := by
  induction writes generalizing sets cells with
  | nil => exact ⟨sets, rfl, agrees⟩
  | cons write writes ih =>
      obtain ⟨next, step, agrees'⟩ := agrees.run bound (inside write List.mem_cons_self)
      obtain ⟨after, rest, agrees''⟩ := ih agrees' fun later mem =>
        agrees.transfer_write agrees' (inside later (List.mem_cons_of_mem write mem))
      refine ⟨after, ?_, agrees''⟩
      rw [BitWrite.runAll, step]
      exact rest

variable {before later : List (BitWrite ι)} {write : BitWrite ι}

/-- The sets as a write finds them, with the bits that it is made through. -/
theorem runAll_before (bound : ∀ bitset, sizes bitset ≠ 0) (agrees : Agrees sizes sets cells)
    (inside : ∀ other ∈ before ++ write :: later, other.Inside sets) :
    ∃ mid, BitWrite.runAll sets before = .ok mid ∧
      Agrees sizes mid (CellWrite.runAll (before.map BitWrite.toCell) cells) ∧
      write.Inside mid := by
  obtain ⟨mid, run, agrees'⟩ := agrees.runAll bound fun other mem =>
    inside other (List.mem_append_left _ mem)
  exact ⟨mid, run, agrees', agrees.transfer_write agrees'
    (inside write (List.mem_append_right _ List.mem_cons_self))⟩

end Agrees

/-- Sets that are bound hold what they are bound from. -/
theorem agrees_of_bind {size : ι → Word} {source : ι → Option (List Byte)} {sets : BitSets ι}
    (bound : ∀ bitset, BitSet.bind (size bitset) (source bitset) = .ok (sets bitset)) :
    Agrees size sets fun bit => BitSet.initialBit (source bit.mBitset) bit.mIndex.toNat where
  size bitset := (BitSet.bits_of_bind (bound bitset)).1
  bits bit inside := (BitSet.bits_of_bind (bound bit.mBitset)).2.2 _
    (BitSet.inside_of_lt_size inside)

/-! ## An array of bits -/

/-- The sets behave as arrays of independent bits in a history of writes. -/
structure ArrayOfBits [DecidableEq ι] (initial : Bit ι → Bool) (sets : BitSets ι)
    (writes : List (BitWrite ι)) : Prop where
  /-- The writes succeed. -/
  runs : ∃ after, BitWrite.runAll sets writes = .ok after
  /-- A bit that no write covers is read as it was at first. -/
  unwritten : ∀ after, BitWrite.runAll sets writes = .ok after →
    ∀ bit : Bit ι, bit.Inside sets → (∀ write ∈ writes, write.covers bit = false) →
      bit.Reads after (initial bit)
  /-- Any other is read as the last write that covers it left it. -/
  last : ∀ after, BitWrite.runAll sets writes = .ok after →
    ∀ before write later, writes = before ++ write :: later →
      ∀ bit : Bit ι, bit.Inside sets → write.covers bit = true →
        (∀ other ∈ later, other.covers bit = false) →
          ∃ mid value, BitWrite.runAll sets before = .ok mid ∧ write.written mid = .ok value ∧
            bit.Reads after value
  /-- No write changes a bit that it does not cover. -/
  others : ∀ before write later, writes = before ++ write :: later →
    ∃ mid next, BitWrite.runAll sets before = .ok mid ∧ write.run mid = .ok next ∧
      ∀ bit : Bit ι, bit.Inside sets → write.covers bit = false →
        ∃ value, bit.Reads mid value ∧ bit.Reads next value
  /-- A flip returns the new value. -/
  flips : ∀ before bit later, writes = before ++ .flip bit :: later →
    ∃ mid value next, BitWrite.runAll sets before = .ok mid ∧ bit.Reads mid (!value) ∧
      bit.flip mid = .ok (value, next) ∧ bit.Reads next value

theorem bits_are_array [DecidableEq ι] {size : ι → Word} {source : ι → Option (List Byte)}
    {sets : BitSets ι}
    (bound : ∀ bitset, BitSet.bind (size bitset) (source bitset) = .ok (sets bitset))
    {writes : List (BitWrite ι)} (inside : ∀ write ∈ writes, write.Inside sets) :
    ArrayOfBits (fun bit => BitSet.initialBit (source bit.mBitset) bit.mIndex.toNat) sets
      writes := by
  have agrees := agrees_of_bind bound
  have sized : ∀ bitset, size bitset ≠ 0 := fun bitset =>
    (agrees.size bitset) ▸ (BitSet.bits_of_bind (bound bitset)).2.1
  obtain ⟨final, run, agreesFinal⟩ := agrees.runAll sized inside
  refine ⟨⟨final, run⟩, ?_, ?_, ?_, ?_⟩
  · intro after run' bit stored uncovered
    obtain rfl : final = after := Except.ok.inj (run.symm.trans run')
    have cell := agreesFinal.reads (agrees.transfer agreesFinal stored)
    rwa [CellWrite.runAll_uncovered (List.forall_mem_map.mpr uncovered)] at cell
  · intro after run' before write later split bit stored covered uncovered
    subst split
    obtain rfl : final = after := Except.ok.inj (run.symm.trans run')
    obtain ⟨mid, runMid, agreesMid, insideMid⟩ := agrees.runAll_before sized inside
    have cell := agreesFinal.reads (agrees.transfer agreesFinal stored)
    rw [List.map_append, List.map_cons,
      CellWrite.runAll_last covered (List.forall_mem_map.mpr uncovered)] at cell
    exact ⟨mid, _, runMid, agreesMid.written insideMid, cell⟩
  · intro before write later split
    subst split
    obtain ⟨mid, runMid, agreesMid, insideMid⟩ := agrees.runAll_before sized inside
    obtain ⟨next, step, agreesNext⟩ := agreesMid.run sized insideMid
    refine ⟨mid, next, runMid, step, fun bit stored uncovered => ?_⟩
    have cell := agreesNext.reads (agrees.transfer agreesNext stored)
    rw [CellWrite.run_uncovered uncovered] at cell
    exact ⟨_, agreesMid.reads (agrees.transfer agreesMid stored), cell⟩
  · intro before bit later split
    subst split
    obtain ⟨mid, runMid, agreesMid, insideMid⟩ := agrees.runAll_before sized inside
    obtain ⟨next, flipped, agreesNext⟩ := agreesMid.flip insideMid
    have old := agreesMid.reads insideMid
    have new := agreesNext.reads (agreesMid.transfer agreesNext insideMid)
    rw [CellWrite.run_covered (decide_eq_true rfl)] at new
    exact ⟨mid, _, next, runMid, by rwa [Bool.not_not], flipped, new⟩

/-- A set of one byte from a source, and one of two bytes without. -/
def twoSets : BitSets Bool
  | true => { mData := [0xa5], mSize := 1, mNumberOfBits := 8 }
  | false => { mData := [0, 0], mSize := 2, mNumberOfBits := 16 }

theorem twoSets_bound (bitset : Bool) :
    BitSet.bind (bif bitset then 1 else 2) (bif bitset then some [0xa5] else none) =
      .ok (twoSets bitset) := by
  cases bitset with
  | true => rfl
  | false => rfl

theorem bits_are_array_two :
    ArrayOfBits
      (fun bit => BitSet.initialBit (bif bit.mBitset then some [0xa5] else none)
        bit.mIndex.toNat)
      twoSets
      [.assign ⟨true, 0⟩ false, .copy ⟨false, 9⟩ ⟨true, 2⟩, .setAll true true,
        .flip ⟨true, 7⟩] :=
  bits_are_array twoSets_bound (by decide)

end Jasl
