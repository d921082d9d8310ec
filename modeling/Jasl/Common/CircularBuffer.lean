import Jasl.Library.RingSlots
import Jasl.Library.Runs
import Jasl.Library.Words
import Mathlib.Data.List.Range
import Mathlib.Logic.Function.Basic

/-!
# A buffer that goes round

`CircularBuffer`: bytes are stored at `m_head` and taken at `m_tail`, in stretches
that end at the end of the storage at the latest. A pointer that comes to the end
goes back to the begin and turns `m_overlap`, which tells a full buffer from an
empty one. Pointers are offsets from `m_begin`, and their differences words.

What is stored and taken is kept beside the buffer (`BufferHistory`). Both
pointers are slots of positions that count up without end, one turn apart when
the flag is set (`InPlace`), and so the buffer is a lossless queue of bytes
(`circular_buffer_is_lossless`).
-/

set_option autoImplicit false

namespace Jasl

open Library

/-! ## The buffer -/

/-- `std::out_of_range`. -/
inductive OutOfRange where
  | outOfRange
deriving DecidableEq, Repr

/-- `CircularBuffer`. -/
structure CircularBuffer where
  data : BitVec 64 → Byte
  /-- `m_size`. -/
  capacity : BitVec 64
  head : BitVec 64
  tail : BitVec 64
  overlap : Bool

namespace CircularBuffer

/-- `CircularBuffer::reset`, with some content of the new storage. -/
def reset (size : BitVec 64) (raw : BitVec 64 → Byte) : CircularBuffer where
  data := raw
  capacity := size
  head := 0
  tail := 0
  overlap := false

/-- `m_begin`. -/
def begin_ (_ : CircularBuffer) : BitVec 64 := 0

/-- `m_end`. -/
def end_ (b : CircularBuffer) : BitVec 64 := b.begin_ + b.capacity

/-- `CircularBuffer::size`. -/
def size (b : CircularBuffer) : BitVec 64 :=
  if b.overlap then b.end_ - b.tail + b.head - b.begin_ else b.head - b.tail

/-- `CircularBuffer::available_read`. -/
def availableRead (b : CircularBuffer) : BitVec 64 :=
  if b.overlap then b.end_ - b.tail else b.head - b.tail

/-- `CircularBuffer::available_write`. -/
def availableWrite (b : CircularBuffer) : BitVec 64 :=
  if b.overlap then b.tail - b.head else b.end_ - b.head

/-- `CircularBuffer::empty`. -/
def empty (b : CircularBuffer) : Bool := b.availableRead = 0

/-- `CircularBuffer::full`. -/
def full (b : CircularBuffer) : Bool := b.availableWrite = 0

/-- `CircularBuffer::increase`: the pointer and the flag afterwards. -/
def increase (b : CircularBuffer) (ptr size : BitVec 64) : Except OutOfRange (BitVec 64 × Bool) :=
  if b.end_ < ptr + size then .error .outOfRange
  else if ptr + size = b.end_ then .ok (b.begin_, !b.overlap)
  else .ok (ptr + size, b.overlap)

/-- `CircularBuffer::write`. -/
def write (b : CircularBuffer) (size : BitVec 64) : Except OutOfRange CircularBuffer :=
  if size = 0 then .ok b
  else if b.availableWrite < size then .error .outOfRange
  else
    match b.increase b.head size with
    | .error failed => .error failed
    | .ok (head, overlap) => .ok { b with head, overlap }

/-- `CircularBuffer::read`. -/
def read (b : CircularBuffer) (size : BitVec 64) : Except OutOfRange CircularBuffer :=
  if size = 0 then .ok b
  else if b.availableRead < size then .error .outOfRange
  else
    match b.increase b.tail size with
    | .error failed => .error failed
    | .ok (tail, overlap) => .ok { b with tail, overlap }

end CircularBuffer

/-! ## Its user -/

/-- Bytes stored behind a pointer. -/
def storeAt (data : BitVec 64 → Byte) (ptr : BitVec 64) : List Byte → BitVec 64 → Byte
  | [] => data
  | byte :: rest => storeAt (Function.update data ptr byte) (ptr + 1) rest

/-- The offsets behind a pointer. -/
def offsetsFrom (ptr : BitVec 64) (count : ℕ) : List (BitVec 64) :=
  (List.range count).map fun i => ptr + BitVec.ofNat 64 i

/-- A step of the user: bytes are stored at the write pointer and `write` is called, or bytes are
taken at `m_tail` and `read` is called. -/
inductive BufferOp where
  | store (bytes : List Byte)
  | take (count : ℕ)
deriving Repr

namespace CircularBuffer

def step (b : CircularBuffer) : BufferOp → Except OutOfRange CircularBuffer
  | .store bytes =>
      { b with data := storeAt b.data b.head bytes }.write (BitVec.ofNat 64 bytes.length)
  | .take count => b.read (BitVec.ofNat 64 count)

/-- The user stores and takes no more than there is room or bytes for. -/
def Available (b : CircularBuffer) : BufferOp → Prop
  | .store bytes => bytes.length ≤ b.availableWrite.toNat
  | .take count => count ≤ b.availableRead.toNat

instance (b : CircularBuffer) : (op : BufferOp) → Decidable (b.Available op)
  | .store bytes => inferInstanceAs (Decidable (bytes.length ≤ b.availableWrite.toNat))
  | .take count => inferInstanceAs (Decidable (count ≤ b.availableRead.toNat))

end CircularBuffer

/-- What happened to a buffer. -/
structure BufferHistory where
  /-- The bytes stored. -/
  stored : List Byte
  /-- The offsets they were stored at. -/
  places : List (BitVec 64)
  /-- The bytes taken. -/
  taken : List Byte

namespace BufferHistory

def empty : BufferHistory := ⟨[], [], []⟩

def note (before : CircularBuffer) (op : BufferOp) (_ : CircularBuffer) (h : BufferHistory) :
    BufferHistory :=
  match op with
  | .store bytes =>
      { h with
        stored := h.stored ++ bytes
        places := h.places ++ offsetsFrom before.head bytes.length }
  | .take count =>
      { h with taken := h.taken ++ (offsetsFrom before.tail count).map before.data }

end BufferHistory

/-! ## The storage -/

section Storage

theorem toNat_succ {ptr : BitVec 64} (fits : ptr.toNat + 1 < 2 ^ 64) :
    (ptr + 1).toNat = ptr.toNat + 1 :=
  BitVec.toNat_add_of_fits fits

/-- Other bytes are left alone. -/
theorem storeAt_of_outside {slot : BitVec 64} :
    ∀ {bytes : List Byte} {data : BitVec 64 → Byte} {ptr : BitVec 64},
      ptr.toNat + bytes.length < 2 ^ 64 →
      slot.toNat < ptr.toNat ∨ ptr.toNat + bytes.length ≤ slot.toNat →
      storeAt data ptr bytes slot = data slot
  | [], _, _, _, _ => rfl
  | byte :: rest, data, ptr, fits, outside => by
      rw [List.length_cons] at fits outside
      have next : (ptr + 1).toNat = ptr.toNat + 1 := toNat_succ (by omega)
      have other : slot ≠ ptr := by
        rintro rfl
        omega
      rw [storeAt, storeAt_of_outside (by omega) (by omega), Function.update_of_ne other]

/-- The bytes stand one behind the other. -/
theorem storeAt_of_getElem? {byte : Byte} {slot : BitVec 64} :
    ∀ {bytes : List Byte} {data : BitVec 64 → Byte} {ptr : BitVec 64} {i : ℕ},
      ptr.toNat + bytes.length < 2 ^ 64 → bytes[i]? = some byte → slot.toNat = ptr.toNat + i →
      storeAt data ptr bytes slot = byte
  | [], _, _, _, _, at_, _ => by cases at_
  | first :: rest, data, ptr, i, fits, at_, place => by
      rw [List.length_cons] at fits
      have next : (ptr + 1).toNat = ptr.toNat + 1 := toNat_succ (by omega)
      rw [storeAt]
      cases i with
      | zero =>
          have here : slot = ptr := BitVec.eq_of_toNat_eq place
          rw [storeAt_of_outside (by omega) (by omega), here, Function.update_self]
          exact Option.some.inj at_
      | succ i => exact storeAt_of_getElem? (i := i) (by omega) at_ (by omega)

@[simp] theorem length_offsetsFrom (ptr : BitVec 64) (count : ℕ) :
    (offsetsFrom ptr count).length = count := by
  rw [offsetsFrom, List.length_map, List.length_range]

theorem offsetsFrom_getElem? {ptr slot : BitVec 64} {count i : ℕ} :
    (offsetsFrom ptr count)[i]? = some slot ↔ i < count ∧ slot = ptr + BitVec.ofNat 64 i := by
  rw [offsetsFrom, List.getElem?_map, Option.map_eq_some_iff]
  constructor
  · rintro ⟨found, at_, rfl⟩
    obtain ⟨inside, same⟩ := List.getElem?_eq_some_iff.mp at_
    rw [List.getElem_range] at same
    rw [List.length_range] at inside
    exact ⟨inside, by rw [same]⟩
  · rintro ⟨inside, rfl⟩
    exact ⟨i, List.getElem?_range inside, rfl⟩

end Storage

/-! ## What holds in every state -/

namespace CircularBuffer

/-- A pointer into the storage: to one of its bytes, if there is any. -/
def Inside (b : CircularBuffer) (ptr : BitVec 64) : Prop :=
  ptr < b.end_ ∨ (ptr = b.begin_ ∧ b.begin_ = b.end_)

end CircularBuffer

/-- The pointers are in the storage, and in the order that the flag tells. -/
structure Pointers (size : ℕ) (b : CircularBuffer) : Prop where
  sized : b.capacity.toNat = size
  head : b.head.toNat < size ∨ (b.head.toNat = 0 ∧ size = 0)
  tail : b.tail.toNat < size ∨ (b.tail.toNat = 0 ∧ size = 0)
  ordered : if b.overlap then b.head.toNat ≤ b.tail.toNat else b.tail.toNat ≤ b.head.toNat

namespace Pointers

variable {size : ℕ} {b : CircularBuffer} {count : BitVec 64}

theorem reset (capacity : BitVec 64) (raw : BitVec 64 → Byte) :
    Pointers capacity.toNat (.reset capacity raw) where
  sized := rfl
  head := by
    change 0 < capacity.toNat ∨ (0 = 0 ∧ capacity.toNat = 0)
    omega
  tail := by
    change 0 < capacity.toNat ∨ (0 = 0 ∧ capacity.toNat = 0)
    omega
  ordered := le_refl _

theorem end_eq (_ : Pointers size b) : b.end_ = b.capacity := BitVec.zero_add _

theorem size_lt (place : Pointers size b) : size < 2 ^ 64 := by
  rw [← place.sized]
  exact b.capacity.isLt

theorem head_le (place : Pointers size b) : b.head.toNat ≤ size := by
  rcases place.head with inside | ⟨zero, -⟩ <;> omega

theorem tail_le (place : Pointers size b) : b.tail.toNat ≤ size := by
  rcases place.tail with inside | ⟨zero, -⟩ <;> omega

theorem inside (place : Pointers size b) {ptr : BitVec 64}
    (within : ptr.toNat < size ∨ (ptr.toNat = 0 ∧ size = 0)) : b.Inside ptr := by
  rw [CircularBuffer.Inside, place.end_eq]
  rcases within with below | ⟨zero, none⟩
  · exact .inl (by rw [BitVec.lt_def, place.sized]; exact below)
  · have empty : b.capacity = 0 := BitVec.eq_of_toNat_eq (place.sized.trans none)
    exact .inr ⟨BitVec.eq_of_toNat_eq zero, empty.symm⟩

/-- The word between two pointers is the number of bytes between them. -/
theorem toNat_sub_of_le {first last : BitVec 64} (ordered : first.toNat ≤ last.toNat) :
    (last - first).toNat = last.toNat - first.toNat :=
  BitVec.toNat_sub_of_le (BitVec.le_def.mpr ordered)

theorem availableRead_toNat (place : Pointers size b) :
    b.availableRead.toNat =
      if b.overlap then size - b.tail.toNat else b.head.toNat - b.tail.toNat := by
  have ordered := place.ordered
  have bound := place.tail_le
  rw [CircularBuffer.availableRead]
  split
  · rw [place.end_eq, toNat_sub_of_le (by rw [place.sized]; exact bound), place.sized]
  · rename_i apart
    rw [if_neg apart] at ordered
    exact toNat_sub_of_le ordered

theorem availableWrite_toNat (place : Pointers size b) :
    b.availableWrite.toNat =
      if b.overlap then b.tail.toNat - b.head.toNat else size - b.head.toNat := by
  have ordered := place.ordered
  have bound := place.head_le
  rw [CircularBuffer.availableWrite]
  split
  · rename_i turned
    rw [if_pos turned] at ordered
    exact toNat_sub_of_le ordered
  · rw [place.end_eq, toNat_sub_of_le (by rw [place.sized]; exact bound), place.sized]

/-- `size` counts the bytes from `m_tail` on, round to `m_head`. -/
theorem size_toNat (place : Pointers size b) :
    b.size.toNat =
      if b.overlap then size - b.tail.toNat + b.head.toNat else b.head.toNat - b.tail.toNat := by
  have ordered := place.ordered
  have bound := place.tail_le
  have fits := place.size_lt
  rw [CircularBuffer.size]
  split
  · rename_i turned
    rw [if_pos turned] at ordered
    have rest : (b.capacity - b.tail).toNat = size - b.tail.toNat := by
      rw [toNat_sub_of_le (by rw [place.sized]; exact bound), place.sized]
    have sum : (b.capacity - b.tail + b.head).toNat = size - b.tail.toNat + b.head.toNat := by
      rw [BitVec.toNat_add_of_fits (by rw [rest]; omega), rest]
    rw [place.end_eq]
    change (b.capacity - b.tail + b.head - 0#64).toNat = _
    rw [BitVec.sub_zero, sum]
  · rename_i apart
    rw [if_neg apart] at ordered
    exact toNat_sub_of_le ordered

/-- A pointer that stays in the storage, or comes to its end. -/
theorem increase_eq (place : Pointers size b) {ptr : BitVec 64}
    (fits : ptr.toNat + count.toNat ≤ size) :
    b.increase ptr count =
      .ok (if ptr.toNat + count.toNat = size then (0, !b.overlap)
        else (ptr + count, b.overlap)) := by
  have bound := place.size_lt
  have sum : (ptr + count).toNat = ptr.toNat + count.toNat :=
    BitVec.toNat_add_of_fits (by omega)
  have within : ¬ b.end_ < ptr + count := by
    rw [place.end_eq, BitVec.lt_def, place.sized, sum]
    omega
  rw [CircularBuffer.increase, if_neg within, place.end_eq]
  by_cases atEnd : ptr.toNat + count.toNat = size
  · have same : ptr + count = b.capacity :=
      BitVec.eq_of_toNat_eq (by rw [sum, place.sized, atEnd])
    rw [if_pos same, if_pos atEnd]
    rfl
  · have other : ptr + count ≠ b.capacity := by
      intro same
      rw [same, place.sized] at sum
      exact atEnd sum.symm
    rw [if_neg other, if_neg atEnd]

/-! ## What a call does to the pointers -/

/-- What is available to read reaches to the end of the storage or to `m_head`. -/
theorem read_le (place : Pointers size b) (enough : count ≤ b.availableRead) :
    b.tail.toNat + count.toNat ≤ size ∧
      (b.overlap = false → b.tail.toNat + count.toNat ≤ b.head.toNat) := by
  have ordered := place.ordered
  have head := place.head_le
  have tail := place.tail_le
  rw [BitVec.le_def, place.availableRead_toNat] at enough
  cases turned : b.overlap with
  | true =>
      rw [turned, if_pos rfl] at enough
      exact ⟨by omega, by simp⟩
  | false =>
      rw [turned, if_neg Bool.false_ne_true] at enough ordered
      exact ⟨by omega, fun _ => by omega⟩

/-- What is available to write reaches to the end of the storage or to `m_tail`. -/
theorem write_le (place : Pointers size b) (enough : count ≤ b.availableWrite) :
    b.head.toNat + count.toNat ≤ size ∧
      (b.overlap = true → b.head.toNat + count.toNat ≤ b.tail.toNat) := by
  have ordered := place.ordered
  have head := place.head_le
  have tail := place.tail_le
  rw [BitVec.le_def, place.availableWrite_toNat] at enough
  cases turned : b.overlap with
  | true =>
      rw [turned, if_pos rfl] at enough ordered
      exact ⟨by omega, fun _ => by omega⟩
  | false =>
      rw [turned, if_neg Bool.false_ne_true] at enough
      exact ⟨by omega, by simp⟩

/-- **`read` of what is available** moves `m_tail` on, or round to the begin. -/
theorem read_cases (place : Pointers size b) (enough : count ≤ b.availableRead) :
    (b.read count = .ok { b with tail := b.tail + count } ∧
        (b.tail + count).toNat = b.tail.toNat + count.toNat ∧
        (count.toNat = 0 ∨ b.tail.toNat + count.toNat < size)) ∨
      (b.read count = .ok { b with tail := 0, overlap := false } ∧ b.overlap = true ∧
        b.tail.toNat + count.toNat = size) := by
  obtain ⟨within, behind⟩ := place.read_le enough
  have bound := place.size_lt
  have head := place.head
  have sum : (b.tail + count).toNat = b.tail.toNat + count.toNat :=
    BitVec.toNat_add_of_fits (by omega)
  by_cases none : count = 0
  · subst none
    refine .inl ⟨?_, sum, .inl rfl⟩
    rw [CircularBuffer.read, if_pos rfl]
    congr 1
    simp
  · have positive : count.toNat ≠ 0 := fun zero => none (BitVec.eq_of_toNat_eq zero)
    have reads : b.read count = (b.increase b.tail count).map
        fun (tail, overlap) => { b with tail, overlap } := by
      rw [CircularBuffer.read, if_neg none, if_neg (not_lt.mpr enough)]
      cases b.increase b.tail count <;> rfl
    rw [reads, place.increase_eq within]
    by_cases atEnd : b.tail.toNat + count.toNat = size
    · have turned : b.overlap = true := by
        rw [← Bool.not_eq_false]
        intro unset
        have := behind unset
        omega
      refine .inr ⟨?_, turned, atEnd⟩
      rw [if_pos atEnd, turned]
      rfl
    · refine .inl ⟨?_, sum, .inr (by omega)⟩
      rw [if_neg atEnd]
      rfl

/-- **`write` of what is available** moves `m_head` on, or round to the begin. -/
theorem write_cases (place : Pointers size b) (enough : count ≤ b.availableWrite) :
    (b.write count = .ok { b with head := b.head + count } ∧
        (b.head + count).toNat = b.head.toNat + count.toNat ∧
        (count.toNat = 0 ∨ b.head.toNat + count.toNat < size)) ∨
      (b.write count = .ok { b with head := 0, overlap := true } ∧ b.overlap = false ∧
        b.head.toNat + count.toNat = size) := by
  obtain ⟨within, before⟩ := place.write_le enough
  have bound := place.size_lt
  have tail := place.tail
  have sum : (b.head + count).toNat = b.head.toNat + count.toNat :=
    BitVec.toNat_add_of_fits (by omega)
  by_cases none : count = 0
  · subst none
    refine .inl ⟨?_, sum, .inl rfl⟩
    rw [CircularBuffer.write, if_pos rfl]
    congr 1
    simp
  · have positive : count.toNat ≠ 0 := fun zero => none (BitVec.eq_of_toNat_eq zero)
    have writes : b.write count = (b.increase b.head count).map
        fun (head, overlap) => { b with head, overlap } := by
      rw [CircularBuffer.write, if_neg none, if_neg (not_lt.mpr enough)]
      cases b.increase b.head count <;> rfl
    rw [writes, place.increase_eq within]
    by_cases atEnd : b.head.toNat + count.toNat = size
    · have apart : b.overlap = false := by
        rw [← Bool.not_eq_true]
        intro set
        have := before set
        omega
      refine .inr ⟨?_, apart, atEnd⟩
      rw [if_pos atEnd, apart]
      rfl
    · refine .inl ⟨?_, sum, .inr (by omega)⟩
      rw [if_neg atEnd]
      rfl

/-- The pointers stay in place when bytes are read. -/
theorem read_ok (place : Pointers size b) (enough : count ≤ b.availableRead) :
    ∃ after, b.read count = .ok after ∧ Pointers size after := by
  have bound := (place.read_le enough).2
  have ordered := place.ordered
  have head := place.head
  have tail := place.tail
  rcases place.read_cases enough with ⟨reads, sum, inside⟩ | ⟨reads, turned, atEnd⟩
  · refine ⟨_, reads, place.sized, place.head, ?_, ?_⟩
    · change (b.tail + count).toNat < size ∨ ((b.tail + count).toNat = 0 ∧ size = 0)
      omega
    · change if b.overlap then b.head.toNat ≤ (b.tail + count).toNat
        else (b.tail + count).toNat ≤ b.head.toNat
      cases turned : b.overlap with
      | true =>
          rw [turned, if_pos rfl] at ordered
          rw [if_pos rfl]
          omega
      | false =>
          have before := bound turned
          rw [if_neg Bool.false_ne_true]
          omega
  · refine ⟨_, reads, place.sized, place.head, ?_, Nat.zero_le _⟩
    change 0 < size ∨ (0 = 0 ∧ size = 0)
    omega

/-- And when bytes are written. -/
theorem write_ok (place : Pointers size b) (enough : count ≤ b.availableWrite) :
    ∃ after, b.write count = .ok after ∧ Pointers size after := by
  have bound := (place.write_le enough).2
  have ordered := place.ordered
  have head := place.head
  have tail := place.tail
  rcases place.write_cases enough with ⟨writes, sum, inside⟩ | ⟨writes, apart, atEnd⟩
  · refine ⟨_, writes, place.sized, ?_, place.tail, ?_⟩
    · change (b.head + count).toNat < size ∨ ((b.head + count).toNat = 0 ∧ size = 0)
      omega
    · change if b.overlap then (b.head + count).toNat ≤ b.tail.toNat
        else b.tail.toNat ≤ (b.head + count).toNat
      cases turned : b.overlap with
      | true =>
          have before := bound turned
          rw [if_pos rfl]
          omega
      | false =>
          rw [turned, if_neg Bool.false_ne_true] at ordered
          rw [if_neg Bool.false_ne_true]
          omega
  · refine ⟨_, writes, place.sized, ?_, place.tail, Nat.zero_le _⟩
    change 0 < size ∨ (0 = 0 ∧ size = 0)
    omega

/-! ## Errors -/

end Pointers

/-- The pointers are the slots of the next position to store and of the next one to take, one turn
apart if the flag is set, and the slots between hold the bytes in between. -/
structure InPlace (size : ℕ) (b : CircularBuffer) (h : BufferHistory) : Prop where
  sized : b.capacity.toNat = size
  head : b.head.toNat < size ∨ (b.head.toNat = 0 ∧ size = 0)
  tail : b.tail.toNat < size ∨ (b.tail.toNat = 0 ∧ size = 0)
  ordered : if b.overlap then b.head.toNat ≤ b.tail.toNat else b.tail.toNat ≤ b.head.toNat
  turns : ∃ turn, h.taken.length = size * turn + b.tail.toNat ∧
    h.stored.length = size * turn + (if b.overlap then size else 0) + b.head.toNat
  taken : h.taken <+: h.stored
  placed : h.places.length = h.stored.length
  places : ∀ i slot, h.places[i]? = some slot → IsSlot size slot i
  unread : ∀ i byte slot, h.taken.length ≤ i → h.stored[i]? = some byte → IsSlot size slot i →
    b.data slot = byte

namespace InPlace

variable {size : ℕ} {b after : CircularBuffer} {h : BufferHistory}

theorem reset (capacity : BitVec 64) (raw : BitVec 64 → Byte) :
    InPlace capacity.toNat (.reset capacity raw) .empty where
  sized := rfl
  head := (Pointers.reset capacity raw).head
  tail := (Pointers.reset capacity raw).tail
  ordered := (Pointers.reset capacity raw).ordered
  turns := ⟨0, rfl, rfl⟩
  taken := List.nil_prefix
  placed := rfl
  places := nofun
  unread := nofun

/-! ## The pointers -/

theorem pointers (place : InPlace size b h) : Pointers size b :=
  ⟨place.sized, place.head, place.tail, place.ordered⟩

/-- `size` counts the bytes that are stored and not taken. -/
theorem size_toNat (place : InPlace size b h) :
    b.size.toNat = h.stored.length - h.taken.length := by
  obtain ⟨turn, taken, stored⟩ := place.turns
  have ordered := place.ordered
  have bound := place.pointers.tail_le
  rw [place.pointers.size_toNat, taken, stored]
  split
  · omega
  · rename_i apart
    rw [if_neg apart] at ordered
    omega

theorem stored_le (place : InPlace size b h) : h.stored.length ≤ h.taken.length + size := by
  obtain ⟨turn, taken, stored⟩ := place.turns
  have ordered := place.ordered
  have bound := place.pointers.head_le
  by_cases turned : b.overlap = true
  · rw [if_pos turned] at ordered stored
    omega
  · rw [if_neg turned] at stored
    omega

theorem empty_iff (place : InPlace size b h) :
    b.empty = true ↔ h.stored.length - h.taken.length = 0 := by
  obtain ⟨turn, taken, stored⟩ := place.turns
  have ordered := place.ordered
  have tail := place.tail
  have count := place.pointers.availableRead_toNat
  rw [CircularBuffer.empty, decide_eq_true_iff, ← BitVec.toNat_inj]
  change _ = 0 ↔ _
  by_cases turned : b.overlap = true
  · rw [if_pos turned] at ordered stored count
    omega
  · rw [if_neg turned] at ordered stored count
    omega

theorem full_iff (place : InPlace size b h) :
    b.full = true ↔ h.stored.length - h.taken.length = size := by
  obtain ⟨turn, taken, stored⟩ := place.turns
  have ordered := place.ordered
  have head := place.head
  have bound := place.pointers.tail_le
  have count := place.pointers.availableWrite_toNat
  rw [CircularBuffer.full, decide_eq_true_iff, ← BitVec.toNat_inj]
  change _ = 0 ↔ _
  by_cases turned : b.overlap = true
  · rw [if_pos turned] at ordered stored count
    omega
  · rw [if_neg turned] at ordered stored count
    omega

/-! ## Steps -/

/-- A number that a word bounds is a word. -/
theorem ofNat_le {count : ℕ} {word : BitVec 64} (within : count ≤ word.toNat) :
    (BitVec.ofNat 64 count).toNat = count ∧ BitVec.ofNat 64 count ≤ word := by
  have number : (BitVec.ofNat 64 count).toNat = count :=
    Nat.mod_eq_of_lt (lt_of_le_of_lt within word.isLt)
  exact ⟨number, by rwa [BitVec.le_def, number]⟩

/-- Where bytes are stored: behind `m_head`, up to the end of the storage or to `m_tail`. -/
theorem room (place : InPlace size b h) {bytes : List Byte}
    (available : b.Available (.store bytes)) :
    b.head.toNat + bytes.length ≤ size ∧
      h.stored.length + bytes.length ≤ h.taken.length + size := by
  obtain ⟨number, enough⟩ := ofNat_le (show bytes.length ≤ b.availableWrite.toNat from available)
  obtain ⟨within, before⟩ := place.pointers.write_le enough
  rw [number] at within before
  obtain ⟨turn, taken, stored⟩ := place.turns
  have head := place.pointers.head_le
  by_cases turned : b.overlap = true
  · have apart := before turned
    rw [if_pos turned] at stored
    exact ⟨within, by omega⟩
  · rw [if_neg turned] at stored
    exact ⟨within, by omega⟩

/-- Where bytes are taken: behind `m_tail`, up to the end of the storage or to `m_head`. -/
theorem present (place : InPlace size b h) {count : ℕ} (available : b.Available (.take count)) :
    b.tail.toNat + count ≤ size ∧ h.taken.length + count ≤ h.stored.length := by
  obtain ⟨number, enough⟩ := ofNat_le (show count ≤ b.availableRead.toNat from available)
  obtain ⟨within, before⟩ := place.pointers.read_le enough
  rw [number] at within before
  obtain ⟨turn, taken, stored⟩ := place.turns
  by_cases turned : b.overlap = true
  · rw [if_pos turned] at stored
    exact ⟨within, by omega⟩
  · have apart := before (by simpa using turned)
    rw [if_neg turned] at stored
    exact ⟨within, by omega⟩

/-- A slot behind a pointer holds the position that many behind the pointer's. -/
theorem slot_behind {ptr slot : BitVec 64} {position i : ℕ} (turn : ℕ)
    (at_ : position = size * turn + ptr.toNat) (within : ptr.toNat + i < size)
    (behind : slot.toNat = ptr.toNat + i) : IsSlot size slot (position + i) := by
  rw [IsSlot, behind, at_, Nat.add_assoc, Nat.mul_add_mod, Nat.mod_eq_of_lt within]

theorem slot_behind_head (place : InPlace size b h) {slot : BitVec 64} {i : ℕ}
    (within : b.head.toNat + i < size) (behind : slot.toNat = b.head.toNat + i) :
    IsSlot size slot (h.stored.length + i) := by
  obtain ⟨turn, -, stored⟩ := place.turns
  by_cases turned : b.overlap = true
  · rw [if_pos turned] at stored
    exact slot_behind (turn + 1) (by rw [stored, Nat.mul_succ]) within behind
  · rw [if_neg turned, Nat.add_zero] at stored
    exact slot_behind turn stored within behind

theorem slot_behind_tail (place : InPlace size b h) {slot : BitVec 64} {i : ℕ}
    (within : b.tail.toNat + i < size) (behind : slot.toNat = b.tail.toNat + i) :
    IsSlot size slot (h.taken.length + i) := by
  obtain ⟨turn, taken, -⟩ := place.turns
  exact slot_behind turn taken within behind

/-- A stretch of offsets that does not reach beyond the end of the storage. -/
theorem toNat_add_ofNat (place : InPlace size b h) {ptr : BitVec 64} {i : ℕ}
    (within : ptr.toNat + i < size) : (ptr + BitVec.ofNat 64 i).toNat = ptr.toNat + i := by
  have bound := place.pointers.size_lt
  have number : (BitVec.ofNat 64 i).toNat = i := Nat.mod_eq_of_lt (by omega)
  rw [BitVec.toNat_add_of_fits (by omega), number]

/-- Bytes that are stored where there is room leave the unread ones alone. -/
theorem unread_store (place : InPlace size b h) {bytes : List Byte}
    (available : b.Available (.store bytes)) {i : ℕ} {byte : Byte} {slot : BitVec 64}
    (untaken : h.taken.length ≤ i) (at_ : (h.stored ++ bytes)[i]? = some byte)
    (isSlot : IsSlot size slot i) : storeAt b.data b.head bytes slot = byte := by
  obtain ⟨within, apart⟩ := place.room available
  have bound := place.pointers.size_lt
  rw [List.getElem?_append] at at_
  split at at_
  · rename_i before
    have outside : slot.toNat < b.head.toNat ∨ b.head.toNat + bytes.length ≤ slot.toNat := by
      by_contra overwritten
      have new : IsSlot size slot (h.stored.length + (slot.toNat - b.head.toNat)) :=
        place.slot_behind_head (by omega) (by omega)
      have same := isSlot.position_eq new (by omega) (by omega)
      omega
    rw [storeAt_of_outside (by omega) outside]
    exact place.unread i byte slot untaken at_ isSlot
  · have short := (List.getElem?_eq_some_iff.mp at_).1
    have next : b.head.toNat + (i - h.stored.length) < size := by omega
    have new := place.slot_behind_head next (place.toNat_add_ofNat next)
    rw [Nat.add_sub_cancel' (by omega)] at new
    have same := isSlot.unique new
    exact storeAt_of_getElem? (by omega) at_ (by rw [same, place.toNat_add_ofNat next])

/-- Bytes are stored, and `m_head` is moved behind them. -/
theorem stored (place : InPlace size b h) {bytes : List Byte}
    (available : b.Available (.store bytes)) {head : BitVec 64} {overlap : Bool}
    (inside : head.toNat < size ∨ (head.toNat = 0 ∧ size = 0))
    (ordered : if overlap then head.toNat ≤ b.tail.toNat else b.tail.toNat ≤ head.toNat)
    (turns : (if overlap then size else 0) + head.toNat =
      (if b.overlap then size else 0) + b.head.toNat + bytes.length) :
    InPlace size { b with data := storeAt b.data b.head bytes, head, overlap }
      { h with
        stored := h.stored ++ bytes
        places := h.places ++ offsetsFrom b.head bytes.length } := by
  obtain ⟨turn, taken, stored⟩ := place.turns
  refine ⟨place.sized, inside, place.tail, ordered, ⟨turn, taken, ?_⟩,
    place.taken.trans (List.prefix_append _ _), ?_, ?_, ?_⟩
  · change (h.stored ++ bytes).length = size * turn + (if overlap then size else 0) + head.toNat
    rw [List.length_append, stored]
    omega
  · change (h.places ++ offsetsFrom b.head bytes.length).length = (h.stored ++ bytes).length
    rw [List.length_append, List.length_append, place.placed, length_offsetsFrom]
  · intro i slot at_
    change (h.places ++ offsetsFrom b.head bytes.length)[i]? = some slot at at_
    rw [List.getElem?_append] at at_
    split at at_
    · exact place.places i slot at_
    · obtain ⟨short, rfl⟩ := offsetsFrom_getElem?.mp at_
      have within := (place.room available).1
      rw [place.placed] at short ⊢
      have next : b.head.toNat + (i - h.stored.length) < size := by omega
      have new := place.slot_behind_head next (place.toNat_add_ofNat next)
      rw [Nat.add_sub_cancel' (by have := place.placed; omega)] at new
      exact new
  · intro i byte slot untaken at_ isSlot
    exact place.unread_store available untaken at_ isSlot

/-- The next bytes that are taken are the next ones that were stored. -/
theorem taken_prefix (place : InPlace size b h) {count : ℕ}
    (available : b.Available (.take count)) :
    h.taken ++ (offsetsFrom b.tail count).map b.data <+: h.stored := by
  obtain ⟨within, more⟩ := place.present available
  rw [List.prefix_iff_getElem?]
  intro i short
  rw [List.getElem_append]
  split
  · rename_i before
    exact List.prefix_iff_getElem?.mp place.taken i before
  · rename_i behind
    rw [List.length_append, List.length_map, length_offsetsFrom] at short
    have next : b.tail.toNat + (i - h.taken.length) < size := by omega
    have slot := place.slot_behind_tail next (place.toNat_add_ofNat next)
    rw [Nat.add_sub_cancel' (by omega)] at slot
    have at_ := List.getElem?_eq_getElem (show i < h.stored.length by omega)
    have data := place.unread i _ _ (by omega) at_ slot
    rw [at_, List.getElem_map, ← data]
    congr 2
    have offset := List.getElem?_eq_getElem (l := offsetsFrom b.tail count)
      (i := i - h.taken.length) (by rw [length_offsetsFrom]; omega)
    exact (offsetsFrom_getElem?.mp offset).2.symm

/-- Bytes are taken, and `m_tail` is moved behind them. -/
theorem took (place : InPlace size b h) {count : ℕ} (available : b.Available (.take count))
    {tail : BitVec 64} {overlap : Bool}
    (inside : tail.toNat < size ∨ (tail.toNat = 0 ∧ size = 0))
    (ordered : if overlap then b.head.toNat ≤ tail.toNat else tail.toNat ≤ b.head.toNat)
    (turns : tail.toNat + (if b.overlap then size else 0) =
      b.tail.toNat + count + (if overlap then size else 0))
    (turned : b.tail.toNat + count = tail.toNat ∨ b.tail.toNat + count = size + tail.toNat) :
    InPlace size { b with tail, overlap }
      { h with taken := h.taken ++ (offsetsFrom b.tail count).map b.data } := by
  obtain ⟨turn, taken, stored⟩ := place.turns
  have longer : (h.taken ++ (offsetsFrom b.tail count).map b.data).length =
      h.taken.length + count := by
    rw [List.length_append, List.length_map, length_offsetsFrom]
  refine ⟨place.sized, place.head, inside, ordered, ?_, place.taken_prefix available,
    place.placed, place.places, ?_⟩
  · change ∃ turn, (h.taken ++ (offsetsFrom b.tail count).map b.data).length =
        size * turn + tail.toNat ∧
      h.stored.length = size * turn + (if overlap then size else 0) + b.head.toNat
    rw [longer, taken, stored]
    rcases turned with same | next
    · exact ⟨turn, by omega, by omega⟩
    · exact ⟨turn + 1, by rw [Nat.mul_succ]; omega, by rw [Nat.mul_succ]; omega⟩
  · intro i byte slot untaken
    exact place.unread i byte slot (le_trans (by rw [longer]; omega) untaken)

/-- Storing what there is room for succeeds. -/
theorem step_store (place : InPlace size b h) {bytes : List Byte}
    (available : b.Available (.store bytes)) :
    ∃ after, b.step (.store bytes) = .ok after ∧
      InPlace size after (BufferHistory.note b (.store bytes) after h) := by
  obtain ⟨number, enough⟩ := ofNat_le (show bytes.length ≤ b.availableWrite.toNat from available)
  -- `write` does not look at the bytes
  have pointers : Pointers size { b with data := storeAt b.data b.head bytes } :=
    ⟨place.sized, place.head, place.tail, place.ordered⟩
  obtain ⟨after, writes, kept⟩ := pointers.write_ok enough
  refine ⟨after, writes, ?_⟩
  rcases pointers.write_cases enough with ⟨writes', sum, -⟩ | ⟨writes', apart, atEnd⟩
  · obtain rfl := Except.ok.inj (writes.symm.trans writes')
    have moved : (b.head + BitVec.ofNat 64 bytes.length).toNat = b.head.toNat + bytes.length := by
      rw [number] at sum
      exact sum
    refine place.stored available kept.head kept.ordered ?_
    change (if b.overlap then size else 0) + (b.head + BitVec.ofNat 64 bytes.length).toNat = _
    omega
  · obtain rfl := Except.ok.inj (writes.symm.trans writes')
    have unset : b.overlap = false := apart
    have filled : b.head.toNat + bytes.length = size := by
      rw [number] at atEnd
      exact atEnd
    refine place.stored available kept.head kept.ordered ?_
    rw [unset, if_pos rfl, if_neg Bool.false_ne_true]
    change size + 0 = 0 + b.head.toNat + bytes.length
    omega

/-- Taking what is there succeeds. -/
theorem step_take (place : InPlace size b h) {count : ℕ} (available : b.Available (.take count)) :
    ∃ after, b.step (.take count) = .ok after ∧
      InPlace size after (BufferHistory.note b (.take count) after h) := by
  obtain ⟨number, enough⟩ := ofNat_le (show count ≤ b.availableRead.toNat from available)
  obtain ⟨after, reads, kept⟩ := place.pointers.read_ok enough
  refine ⟨after, reads, ?_⟩
  rcases place.pointers.read_cases enough with ⟨reads', sum, -⟩ | ⟨reads', turned, atEnd⟩
  · obtain rfl := Except.ok.inj (reads.symm.trans reads')
    rw [number] at sum
    exact place.took available kept.tail kept.ordered (by omega) (.inl sum.symm)
  · obtain rfl := Except.ok.inj (reads.symm.trans reads')
    rw [number] at atEnd
    refine place.took available kept.tail kept.ordered ?_ (.inr atEnd)
    rw [turned, if_pos rfl, if_neg Bool.false_ne_true]
    change 0 + size = b.tail.toNat + count + 0
    omega

/-- **A step that keeps to what is available succeeds, and keeps every byte in place.** -/
theorem step (place : InPlace size b h) {op : BufferOp} (available : b.Available op) :
    ∃ after, b.step op = .ok after ∧ InPlace size after (BufferHistory.note b op after h) := by
  cases op with
  | store bytes => exact place.step_store available
  | take count => exact place.step_take available

end InPlace

/-- **The buffer is a lossless queue of bytes**, for every capacity and every sequence of steps that
keep to what is available. -/
theorem circular_buffer_is_lossless {capacity : BitVec 64} {raw : BitVec 64 → Byte}
    {ops : List BufferOp} {b : CircularBuffer} {h : BufferHistory}
    (reached : Run (observed CircularBuffer.step BufferHistory.note)
      (fun watched op => watched.1.Available op) (.reset capacity raw, .empty) ops (b, h)) :
    b.Inside b.head ∧ b.Inside b.tail ∧ b.capacity = capacity ∧
    (∀ op, b.Available op → ∃ after, b.step op = .ok after) ∧
    h.taken <+: h.stored ∧
    (∀ i byte slot, h.taken.length ≤ i → h.stored[i]? = some byte → h.places[i]? = some slot →
      b.data slot = byte) ∧
    b.size.toNat = h.stored.length - h.taken.length ∧ b.size ≤ capacity ∧
    (b.empty = true ↔ b.size = 0) ∧ (b.full = true ↔ b.size = capacity) := by
  have place : InPlace capacity.toNat b h := by
    apply reached.invariant (fun watched => InPlace capacity.toNat watched.1 watched.2)
      (.reset capacity raw)
    intro before op after held available stepped
    obtain ⟨moved, noted⟩ := observed_eq_ok.mp stepped
    obtain ⟨next, same, placed⟩ := held.step available
    obtain rfl := Except.ok.inj (moved.symm.trans same)
    rw [noted]
    exact placed
  have count := place.size_toNat
  have bound := place.stored_le
  refine ⟨place.pointers.inside place.head, place.pointers.inside place.tail,
    BitVec.eq_of_toNat_eq place.sized, ?_, place.taken, ?_, count, ?_, ?_, ?_⟩
  · intro op available
    obtain ⟨after, same, -⟩ := place.step available
    exact ⟨after, same⟩
  · exact fun i byte slot untaken at_ stored =>
      place.unread i byte slot untaken at_ (place.places i slot stored)
  · rw [BitVec.le_def, count]
    omega
  · rw [place.empty_iff, ← count, ← BitVec.toNat_inj]
    rfl
  · rw [place.full_iff, ← count, ← BitVec.toNat_inj]

/-- A buffer of three bytes that is filled to its end, and goes round. -/
def roundOps : List BufferOp :=
  [.store [1, 2], .take 1, .store [3], .take 1, .store [4, 5], .take 1, .store []]

def roundBuffer : CircularBuffer × BufferHistory :=
  (checkedRun (observed CircularBuffer.step BufferHistory.note)
    (fun watched op => watched.1.Available op)
    (CircularBuffer.reset 3 fun _ => 0, .empty) roundOps).get (by decide +kernel)

example : roundBuffer.2.taken = [1, 2, 3] ∧ roundBuffer.1.head = 2 ∧ roundBuffer.1.tail = 0 ∧
    roundBuffer.1.overlap = false := by
  decide +kernel

theorem circular_buffer_is_lossless_round : roundBuffer.2.taken <+: roundBuffer.2.stored := by
  have reached : Run (observed CircularBuffer.step BufferHistory.note)
      (fun watched op => watched.1.Available op)
      (CircularBuffer.reset 3 fun _ => 0, .empty) roundOps roundBuffer := Run.of_isSome _
  exact (circular_buffer_is_lossless (b := roundBuffer.1) (h := roundBuffer.2)
    reached).2.2.2.2.1

end Jasl
