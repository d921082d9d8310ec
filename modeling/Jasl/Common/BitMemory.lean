import Jasl.Common.BitCalls
import Jasl.Library.Owners

/-!
# Bit sets in memory

`m_data` of a set is the one pointer to an array of bytes in memory. `bind` allocates a new
array, wherever the allocator has room, and frees the old one; then it fills the new array,
for a copy from the array of the other set. Reads and writes go to the array that the set
points to at that moment. `m_begin` points there too, always.

No two sets share an array, so the sets in memory are in lockstep with sets that hold their
bytes themselves (`Holds.step`).
-/

set_option autoImplicit false

namespace Jasl

open Library

/-- Where an array is. -/
abbrev Address := ℕ

/-- The argument `source` of `bind`: an array of the program, or the array of a set. -/
inductive ByteSource where
  | own (bytes : List Byte)
  | array (address : Address)
deriving DecidableEq, Repr

/-- The sets of a program, which own their arrays. -/
structure BitMemory (ι : Type) where
  heap : Heap Address ι (List Byte)
  mSize : ι → Word
  mNumberOfBits : ι → Word

variable {ι : Type}

namespace BitMemory

/-- All sets are constructed by default. -/
def init : BitMemory ι where
  heap := { cells := fun _ => none, owner := fun _ => none }
  mSize := fun _ => 0
  mNumberOfBits := fun _ => 0

/-- The bytes that `m_begin` points to. -/
def bytes (memory : BitMemory ι) (bitset : ι) : List Byte := (memory.heap.view bitset).getD []

/-- The bytes of a source. An array that was freed has none. -/
def read (memory : BitMemory ι) : ByteSource → List Byte
  | .own bytes => bytes
  | .array address => (memory.heap.cells address).getD []

/-- `BitSet::size`. -/
def size (memory : BitMemory ι) (bitset : ι) : Word := memory.mNumberOfBits bitset

/-- `BitSet::get`. -/
def get (memory : BitMemory ι) (bitset : ι) (index : Word) : Except BitFailure Bool :=
  let offset := calcOffset index
  match (memory.bytes bitset)[offset.byte.toNat]? with
  | some byte => .ok (testByMask byte offset.mask)
  | none => .error (.outside offset.byte.toNat)

/-- `BitSet::operator[]` of a constant set. -/
def value (memory : BitMemory ι) (bitset : ι) (index : Word) : Except BitFailure Bool :=
  if index > memory.mNumberOfBits bitset then .error (.outOfRange "invalid index")
  else memory.get bitset index

/-- `BitSet::operator[]`. -/
def bit (memory : BitMemory ι) (bitset : ι) (index : Word) : Except BitFailure (Bit ι) :=
  if index > memory.mNumberOfBits bitset then .error (.outOfRange "invalid index")
  else .ok ⟨bitset, index⟩

/-- `Bit::operator bool`. -/
def toBool (memory : BitMemory ι) (bit : Bit ι) : Except BitFailure Bool :=
  memory.get bit.mBitset bit.mIndex

/-- `Bit::operator~`. -/
def complement (memory : BitMemory ι) (bit : Bit ι) : Except BitFailure Bool := do
  return !(← memory.toBool bit)

variable [DecidableEq ι]

/-- The destructor, and a constructor without arguments in the same place. -/
def construct (memory : BitMemory ι) (bitset : ι) : BitMemory ι where
  heap := memory.heap.release bitset
  mSize := Function.update memory.mSize bitset 0
  mNumberOfBits := Function.update memory.mNumberOfBits bitset 0

/-- The first bytes that `m_begin` points to are overwritten, by `memset` or `memcpy`. -/
def fill (memory : BitMemory ι) (bitset : ι) (source : List Byte) :
    Except BitFailure (BitMemory ι) :=
  if source.length ≤ (memory.bytes bitset).length then
    .ok { memory with
      heap := memory.heap.modify bitset fun bytes => source ++ bytes.drop source.length }
  else .error (.outside (memory.bytes bitset).length)

/-- `BitSet::set_all`. -/
def setAll (memory : BitMemory ι) (bitset : ι) (val : Bool) :
    Except BitFailure (BitMemory ι) :=
  if memory.heap.owner bitset = none then .error (.runtimeError "uninitialized bitset")
  else
    memory.fill bitset
      (List.replicate (memory.mSize bitset).toNat (if val then 0xff else 0x00))

/-- The first part of `bind`: a new array, in place of the one that the set had. -/
def allocate (memory : BitMemory ι) (bitset : ι) (size : Word) (fresh : Address) :
    BitMemory ι where
  heap := memory.heap.replace bitset fresh (List.replicate size.toNat 0)
  mSize := Function.update memory.mSize bitset size
  mNumberOfBits := Function.update memory.mNumberOfBits bitset (size * 8)

/-- `BitSet::bind`, with the address where the allocator has room. -/
def bind (memory : BitMemory ι) (bitset : ι) (size : Word) (source : Option ByteSource)
    (fresh : Address) : Except BitFailure (BitMemory ι) :=
  if size = 0 then .error (.runtimeError "BitSet::bind : invalid size")
  else
    let allocated := memory.allocate bitset size fresh
    match source with
    | some source =>
        if size.toNat ≤ (allocated.read source).length then
          allocated.fill bitset ((allocated.read source).take size.toNat)
        else .error (.outside (allocated.read source).length)
    | none => allocated.setAll bitset false

/-- The copy constructor and `BitSet::operator=`: `bind` from the array of the other set. -/
def bindFrom (memory : BitMemory ι) (bitset right : ι) (fresh : Address) :
    Except BitFailure (BitMemory ι) :=
  memory.bind bitset (memory.mSize right) ((memory.heap.owner right).map .array) fresh

/-- A change of the byte that holds the bit. -/
def update (memory : BitMemory ι) (bitset : ι) (index : Word)
    (change : Byte → BitVec 32 → Byte) : Except BitFailure (BitMemory ι) :=
  let offset := calcOffset index
  if offset.byte.toNat < (memory.bytes bitset).length then
    .ok { memory with
      heap := memory.heap.modify bitset fun bytes =>
        bytes.modify offset.byte.toNat fun byte => change byte offset.mask }
  else .error (.outside offset.byte.toNat)

/-- `Bit::operator=` of a value, with `BitSet::set` and `BitSet::clear`. -/
def assign (memory : BitMemory ι) (bit : Bit ι) (value : Bool) :
    Except BitFailure (BitMemory ι) :=
  if value then memory.update bit.mBitset bit.mIndex setByMask
  else memory.update bit.mBitset bit.mIndex clearByMask

/-- `Bit::flip`. -/
def flip (memory : BitMemory ι) (bit : Bit ι) : Except BitFailure (Bool × BitMemory ι) := do
  let memory ← memory.assign bit (← memory.complement bit)
  return (← memory.toBool bit, memory)

/-- The write, through the proxies that `operator[]` gives. -/
def write (memory : BitMemory ι) : BitWrite ι → Except BitFailure (BitMemory ι)
  | .assign bit value => do
      let bit ← memory.bit bit.mBitset bit.mIndex
      memory.assign bit value
  | .copy left right => do
      let right ← memory.bit right.mBitset right.mIndex
      let left ← memory.bit left.mBitset left.mIndex
      memory.assign left (← memory.toBool right)
  | .flip bit => do
      let bit ← memory.bit bit.mBitset bit.mIndex
      return (← memory.flip bit).2
  | .setAll bitset value => memory.setAll bitset value

/-- One call, with the address where the allocator has room. -/
def step (memory : BitMemory ι) : BitCall ι × Address → Except BitFailure (BitMemory ι)
  | (.construct bitset, _) => .ok (memory.construct bitset)
  | (.bind bitset size source, fresh) => memory.bind bitset size (source.map .own) fresh
  | (.copy bitset right, fresh) => (memory.construct bitset).bindFrom bitset right fresh
  | (.assign left right, fresh) => memory.bindFrom left right fresh
  | (.write change, _) => memory.write change

/-- The allocator has room where no array is, and a set is copied to another one. -/
def Allowed (memory : BitMemory ι) (label : BitCall ι × Address) : Prop :=
  memory.heap.cells label.2 = none ∧ label.1.Distinct

instance (memory : BitMemory ι) (label : BitCall ι × Address) :
    Decidable (memory.Allowed label) :=
  inferInstanceAs (Decidable (memory.heap.cells label.2 = none ∧ label.1.Distinct))

end BitMemory

/-! ## Sets that hold their bytes -/

/-- The sets are those in memory. -/
structure Holds (memory : BitMemory ι) (sets : BitSets ι) : Prop where
  unique : memory.heap.Unique
  data : ∀ bitset, memory.heap.view bitset = (sets bitset).data
  size : ∀ bitset, memory.mSize bitset = (sets bitset).mSize
  count : ∀ bitset, memory.mNumberOfBits bitset = (sets bitset).mNumberOfBits

namespace Holds

variable {memory : BitMemory ι} {sets : BitSets ι}

/-! ### Reading -/

theorem bytes (holds : Holds memory sets) (bitset : ι) :
    memory.bytes bitset = (sets bitset).mData := by
  rw [BitMemory.bytes, holds.data, BitSet.data]
  split
  · exact Eq.symm ‹_›
  · rfl

theorem get (holds : Holds memory sets) (bitset : ι) (index : Word) :
    memory.get bitset index = (sets bitset).get index := by
  rw [BitMemory.get, holds.bytes]
  rfl

theorem value (holds : Holds memory sets) (bitset : ι) (index : Word) :
    memory.value bitset index = (sets bitset).value index := by
  rw [BitMemory.value, holds.count, holds.get]
  rfl

theorem bit (holds : Holds memory sets) (bitset : ι) (index : Word) :
    memory.bit bitset index = sets.bit bitset index := by
  rw [BitMemory.bit, holds.count]
  rfl

theorem toBool (holds : Holds memory sets) (bit : Bit ι) :
    memory.toBool bit = bit.toBool sets := holds.get _ _

theorem complement (holds : Holds memory sets) (bit : Bit ι) :
    memory.complement bit = bit.complement sets := by
  rw [BitMemory.complement, holds.toBool]
  rfl

/-- Only a set that is bound has an array. -/
theorem owner_eq_none (holds : Holds memory sets) {bitset : ι} :
    memory.heap.owner bitset = none ↔ (sets bitset).mData = [] := by
  have data := holds.data bitset
  cases own : memory.heap.owner bitset with
  | none =>
      rw [Heap.view, own, BitSet.data] at data
      split at data
      · exact iff_of_true rfl ‹_›
      · cases data
  | some address =>
      rw [Heap.view, own, BitSet.data] at data
      split at data
      · exact absurd data (holds.unique.live bitset address own)
      · exact iff_of_false (Option.some_ne_none address) ‹_›

/-! ### Writing -/

variable [DecidableEq ι]

/-- One set is another one, in memory and here. -/
theorem moved (holds : Holds memory sets) {after : BitMemory ι} {bitset : ι} {bits : BitSet}
    (unique : after.heap.Unique)
    (data : after.heap.view = Function.update memory.heap.view bitset bits.data)
    (size : after.mSize = Function.update memory.mSize bitset bits.mSize)
    (count : after.mNumberOfBits =
      Function.update memory.mNumberOfBits bitset bits.mNumberOfBits) :
    Holds after (Function.update sets bitset bits) := by
  refine ⟨unique, fun other => ?_, fun other => ?_, fun other => ?_⟩
  all_goals by_cases same : other = bitset
  · rw [data, same, Function.update_self, Function.update_self]
  · rw [data, Function.update_of_ne same, Function.update_of_ne same, holds.data]
  · rw [size, same, Function.update_self, Function.update_self]
  · rw [size, Function.update_of_ne same, Function.update_of_ne same, holds.size]
  · rw [count, same, Function.update_self, Function.update_self]
  · rw [count, Function.update_of_ne same, Function.update_of_ne same, holds.count]

theorem construct (holds : Holds memory sets) (bitset : ι) :
    Holds (memory.construct bitset) (Function.update sets bitset {}) :=
  holds.moved (holds.unique.release bitset) (Heap.view_release holds.unique bitset) rfl rfl

/-- Other bytes in the array of a set. -/
theorem modify (holds : Holds memory sets) {bitset : ι} {bits : BitSet}
    {change : List Byte → List Byte} (size : bits.mSize = (sets bitset).mSize)
    (changed : change (sets bitset).mData = bits.mData) :
    Holds { memory with heap := memory.heap.modify bitset change }
      (Function.update sets bitset bits) := by
  have data : (memory.heap.view bitset).map change = bits.data := by
    rw [holds.data]
    by_cases bound : bits.mSize = 0
    · rw [BitSet.data, BitSet.data, if_pos (BitSet.mData_eq_nil.mpr bound),
        if_pos (BitSet.mData_eq_nil.mpr (size.symm.trans bound))]
      rfl
    · rw [BitSet.data_of_bound bound, BitSet.data_of_bound (size ▸ bound), Option.map_some,
        changed]
  refine holds.moved (holds.unique.modify bitset change) ?_ ?_ ?_
  · rw [← data]
    exact Heap.view_modify holds.unique bitset change
  · rw [size, ← holds.size, Function.update_eq_self]
  · rw [bits.counted, size, ← (sets bitset).counted, ← holds.count, Function.update_eq_self]

/-- All bytes of a set are overwritten. -/
theorem fill (holds : Holds memory sets) {bitset : ι} {bits : BitSet}
    (size : bits.mSize = (sets bitset).mSize) :
    ∃ after, memory.fill bitset bits.mData = .ok after ∧
      Holds after (Function.update sets bitset bits) := by
  have length : bits.mData.length = (sets bitset).mData.length := by
    rw [bits.stored, (sets bitset).stored, size]
  have fits : bits.mData.length ≤ (memory.bytes bitset).length := by
    rw [holds.bytes, length]
  refine ⟨_, if_pos fits, holds.modify size ?_⟩
  rw [length, List.drop_length, List.append_nil]

theorem setAll (holds : Holds memory sets) (bitset : ι) (val : Bool) :
    Alike Holds (memory.setAll bitset val)
      (do return Function.update sets bitset (← (sets bitset).setAll val)) := by
  by_cases unbound : (sets bitset).mData = []
  · rw [BitMemory.setAll, BitSet.setAll, if_pos unbound, if_pos (holds.owner_eq_none.mpr unbound)]
    exact .error _
  · rw [BitMemory.setAll, BitSet.setAll, if_neg unbound,
      if_neg (mt holds.owner_eq_none.mp unbound), holds.size]
    let bits : BitSet := { sets bitset with
      mData := List.replicate (sets bitset).mSize.toNat (if val then 0xff else 0x00)
      stored := by simp }
    have size : bits.mSize = (sets bitset).mSize := rfl
    obtain ⟨after, filled, held⟩ := holds.fill size
    rw [filled]
    exact .ok held

/-! ### Binding -/

/-- A new array, for the set that `bind` begins with. -/
theorem allocate (holds : Holds memory sets) {fresh : Address}
    (free : memory.heap.cells fresh = none) (bitset : ι) {size : Word} {allocated : BitSet}
    (bytes : allocated.mData = List.replicate size.toNat 0) (sized : allocated.mSize = size)
    (bound : size ≠ 0) :
    Holds (memory.allocate bitset size fresh) (Function.update sets bitset allocated) := by
  refine holds.moved (holds.unique.replace free bitset _) ?_ ?_ ?_
  · rw [BitSet.data_of_bound (by rwa [sized]), bytes]
    exact Heap.view_replace holds.unique free bitset _
  · rw [sized]
    rfl
  · rw [allocated.counted, sized]
    rfl

/-- `bind`, from a source with these bytes. -/
theorem bind (holds : Holds memory sets) {fresh : Address}
    (free : memory.heap.cells fresh = none) (bitset : ι) (size : Word)
    {source : Option ByteSource} {bytes : Option (List Byte)}
    (reads : source.map (memory.allocate bitset size fresh).read = bytes) :
    Alike Holds (memory.bind bitset size source fresh)
      (do return Function.update sets bitset (← BitSet.bind size bytes)) := by
  subst reads
  by_cases bound : size = 0
  · rw [BitMemory.bind, BitSet.bind, if_pos bound, if_pos bound]
    exact .error _
  · rw [BitMemory.bind, BitSet.bind, if_neg bound, if_neg bound]
    let allocated : BitSet := ⟨List.replicate size.toNat 0, size, size * 8, by simp, rfl⟩
    have held : Holds _ (Function.update sets bitset allocated) :=
      holds.allocate free bitset rfl rfl bound
    cases source with
    | none =>
        have filled := held.setAll bitset false
        simp only [Function.update_self, Function.update_idem] at filled
        exact filled
    | some source =>
        by_cases fits : size.toNat ≤ ((memory.allocate bitset size fresh).read source).length
        · let bits : BitSet := { allocated with
            mData := ((memory.allocate bitset size fresh).read source).take size.toNat
            stored := by simp [fits, allocated] }
          have same : bits.mSize = (Function.update sets bitset allocated bitset).mSize := by
            rw [Function.update_self]
          obtain ⟨after, filled, held⟩ := held.fill same
          simp only [fits, if_pos, dif_pos, Option.map_some]
          rw [Function.update_idem] at held
          change Alike Holds (BitMemory.fill _ _ bits.mData) _
          rw [filled]
          exact .ok held
        · simp only [fits, if_neg, dif_neg, Option.map_some, not_false_eq_true]
          exact .error _

/-- The array of another set is there while the new one is. -/
theorem read_allocate (holds : Holds memory sets) {fresh : Address}
    (free : memory.heap.cells fresh = none) {bitset right : ι} (different : right ≠ bitset)
    (size : Word) :
    ((memory.heap.owner right).map .array).map (memory.allocate bitset size fresh).read =
      (sets right).data := by
  rw [← holds.data, Heap.view]
  cases own : memory.heap.owner right with
  | none => rfl
  | some address =>
      have kept := (Heap.moves_replace holds.unique free bitset
        (List.replicate size.toNat 0)).others right different address own
      have live := holds.unique.live right address own
      obtain ⟨bytes, there⟩ := Option.ne_none_iff_exists'.mp live
      change some (((memory.heap.replace bitset fresh _).cells address).getD []) =
        memory.heap.cells address
      rw [kept, there]
      rfl

theorem bindFrom (holds : Holds memory sets) {fresh : Address}
    (free : memory.heap.cells fresh = none) {bitset right : ι} (different : bitset ≠ right) :
    Alike Holds (memory.bindFrom bitset right fresh)
      (do return Function.update sets bitset (← (sets right).copyOf)) := by
  rw [BitMemory.bindFrom, BitSet.copyOf, holds.size]
  exact holds.bind free bitset _ (holds.read_allocate free different.symm _)

/-! ### Bits -/

theorem update (holds : Holds memory sets) (bitset : ι) (index : Word)
    (change : Byte → BitVec 32 → Byte) :
    Alike Holds (memory.update bitset index change)
      (do return Function.update sets bitset (← (sets bitset).update index change)) := by
  rw [BitMemory.update, BitSet.update, holds.bytes]
  by_cases inside : (calcOffset index).byte.toNat < (sets bitset).mData.length
  · simp only [inside, if_pos]
    exact .ok (holds.modify rfl rfl)
  · simp only [inside, if_neg, not_false_eq_true]
    exact .error _

theorem assign (holds : Holds memory sets) (bit : Bit ι) (value : Bool) :
    Alike Holds (memory.assign bit value) (bit.assign value sets) := by
  cases value with
  | true => exact holds.update _ _ _
  | false => exact holds.update _ _ _

theorem flip (holds : Holds memory sets) (bit : Bit ι) :
    Alike (fun left right => left.1 = right.1 ∧ Holds left.2 right.2) (memory.flip bit)
      (bit.flip sets) := by
  rw [BitMemory.flip, Bit.flip, holds.complement]
  refine .bind_same fun value => (holds.assign bit value).bind fun memory sets held => ?_
  rw [held.toBool]
  exact .bind_same fun result => .ok ⟨rfl, held⟩

theorem write (holds : Holds memory sets) (change : BitWrite ι) :
    Alike Holds (memory.write change) (change.run sets) := by
  cases change with
  | assign bit value =>
      rw [BitMemory.write, holds.bit]
      exact .bind_same fun proxy => holds.assign proxy value
  | copy left right =>
      rw [BitMemory.write, holds.bit, holds.bit]
      refine .bind_same fun source => .bind_same fun proxy => ?_
      rw [holds.toBool]
      exact .bind_same fun value => holds.assign proxy value
  | flip bit =>
      rw [BitMemory.write, holds.bit]
      exact .bind_same fun proxy => (holds.flip proxy).bind fun _ _ flipped => .ok flipped.2
  | setAll bitset value => exact holds.setAll bitset value

/-- **Sets in memory are in lockstep with sets that hold their bytes.** -/
theorem step (holds : Holds memory sets) {label : BitCall ι × Address}
    (allowed : memory.Allowed label) :
    Alike Holds (memory.step label) (sets.step label.1) := by
  obtain ⟨call, fresh⟩ := label
  obtain ⟨free, distinct⟩ := allowed
  cases call with
  | construct bitset => exact .ok (holds.construct bitset)
  | bind bitset size source =>
      refine holds.bind free bitset size ?_
      cases source with
      | none => rfl
      | some bytes => rfl
  | copy bitset right =>
      have free : (memory.construct bitset).heap.cells fresh = none := by
        simp [BitMemory.construct, Heap.release, Heap.freed, free]
      have copied := (holds.construct bitset).bindFrom free distinct
      simp only [Function.update_of_ne (Ne.symm distinct), Function.update_idem] at copied
      exact copied
  | assign left right => exact holds.bindFrom free distinct
  | write change => exact holds.write change

end Holds

end Jasl
