import Jasl.Common.CircularBuffer

/-!
# Calls of a buffer that throw

`write` and `read` with the state that an exception leaves: the fields are assigned in
the order of the source, and what was assigned before a throw stays (`BufferCall`). Both
throw before they assign anything, and only for more than is available, so the check in
`increase` is never the one that fails (`Pointers.call_write`, `Pointers.call_read`).

What is available ends at the end of the storage at the latest. Two pieces, each of all
that is available, are all the bytes there are, or all the room
(`buffer_errors_are_atomic`).
-/

set_option autoImplicit false

namespace Jasl

/-! ## Calls -/

/-- The pointers that `increase` takes by reference. -/
inductive BufferPointer where
  | head
  | tail
deriving DecidableEq, Repr

/-- How a call ends: it returns or throws, and in both cases leaves a buffer. -/
abbrev Called := EStateM.Result OutOfRange CircularBuffer Unit

/-- What a call leaves. -/
def Called.left : Called → CircularBuffer
  | .ok _ after => after
  | .error _ after => after

namespace CircularBuffer

/-- Where a pointer points. -/
def pointer (b : CircularBuffer) : BufferPointer → BitVec 64
  | .head => b.head
  | .tail => b.tail

/-- A pointer is assigned. -/
def assign (b : CircularBuffer) : BufferPointer → BitVec 64 → CircularBuffer
  | .head, head => { b with head }
  | .tail, tail => { b with tail }

section Assign

variable (b : CircularBuffer) (which : BufferPointer) (ptr other : BitVec 64)

@[simp] theorem pointer_assign : (b.assign which ptr).pointer which = ptr := by
  cases which <;> rfl

@[simp] theorem assign_assign : (b.assign which ptr).assign which other = b.assign which other := by
  cases which <;> rfl

@[simp] theorem end_assign : (b.assign which ptr).end_ = b.end_ := by
  cases which <;> rfl

@[simp] theorem begin_assign : (b.assign which ptr).begin_ = b.begin_ := rfl

@[simp] theorem overlap_assign : (b.assign which ptr).overlap = b.overlap := by
  cases which <;> rfl

end Assign

end CircularBuffer

namespace BufferCall

/-- `CircularBuffer::increase`. -/
def increase (which : BufferPointer) (size : BitVec 64) (b : CircularBuffer) : Called :=
  if b.end_ < b.pointer which + size then .error .outOfRange b
  else
    let b := b.assign which (b.pointer which + size)
    if b.pointer which = b.end_ then
      let b := b.assign which b.begin_
      .ok () { b with overlap := !b.overlap }
    else .ok () b

/-- `CircularBuffer::write`. -/
def write (size : BitVec 64) (b : CircularBuffer) : Called :=
  if size = 0 then .ok () b
  else if b.availableWrite < size then .error .outOfRange b
  else increase .head size b

/-- `CircularBuffer::read`. -/
def read (size : BitVec 64) (b : CircularBuffer) : Called :=
  if size = 0 then .ok () b
  else if b.availableRead < size then .error .outOfRange b
  else increase .tail size b

end BufferCall

/-- A buffer that was constructed, and reset, written to, read from and passed to other code that
stores bytes in it, in any order and with any numbers. -/
inductive ReachableBuffer : CircularBuffer → Prop where
  | reset (size : BitVec 64) (raw : BitVec 64 → Byte) : ReachableBuffer (.reset size raw)
  | stored {b : CircularBuffer} (data : BitVec 64 → Byte) (reachable : ReachableBuffer b) :
      ReachableBuffer { b with data }
  | write {b : CircularBuffer} (size : BitVec 64) (reachable : ReachableBuffer b) :
      ReachableBuffer (BufferCall.write size b).left
  | read {b : CircularBuffer} (size : BitVec 64) (reachable : ReachableBuffer b) :
      ReachableBuffer (BufferCall.read size b).left

/-! ## Calls and the functions without states -/

namespace BufferCall

variable {b : CircularBuffer} {size : BitVec 64}

/-- A function that returns a buffer or fails, as a call: it fails before it assigns anything. -/
def ofExcept (b : CircularBuffer) : Except OutOfRange CircularBuffer → Called
  | .ok after => .ok () after
  | .error failed => .error failed b

theorem left_of_error {outcome : Except OutOfRange CircularBuffer} {failed : OutOfRange}
    {after : CircularBuffer} (fails : ofExcept b outcome = .error failed after) : after = b := by
  cases outcome with
  | ok _ => cases fails
  | error _ =>
      cases fails
      rfl

theorem increase_eq (which : BufferPointer) :
    increase which size b = ofExcept b ((b.increase (b.pointer which) size).map
      fun (ptr, overlap) => { b.assign which ptr with overlap }) := by
  rw [increase, CircularBuffer.increase]
  by_cases beyond : b.end_ < b.pointer which + size
  · rw [if_pos beyond, if_pos beyond]
    rfl
  · simp only [if_neg beyond, CircularBuffer.pointer_assign, CircularBuffer.assign_assign,
      CircularBuffer.end_assign, CircularBuffer.begin_assign, CircularBuffer.overlap_assign]
    by_cases atEnd : b.pointer which + size = b.end_
    · rw [if_pos atEnd, if_pos atEnd]
      rfl
    · rw [if_neg atEnd, if_neg atEnd]
      cases which <;> rfl

theorem write_eq : write size b = ofExcept b (b.write size) := by
  rw [write, CircularBuffer.write]
  split
  · rfl
  · split
    · rfl
    · rw [increase_eq]
      change ofExcept b ((b.increase b.head size).map _) = _
      cases b.increase b.head size <;> rfl

theorem read_eq : read size b = ofExcept b (b.read size) := by
  rw [read, CircularBuffer.read]
  split
  · rfl
  · split
    · rfl
    · rw [increase_eq]
      change ofExcept b ((b.increase b.tail size).map _) = _
      cases b.increase b.tail size <;> rfl

end BufferCall

/-! ## Calls from everywhere -/

namespace Pointers

variable {size : ℕ} {b after : CircularBuffer} {count : BitVec 64}

/-- **`read` throws for more than is available**, and leaves the buffer as it was. -/
theorem call_read (place : Pointers size b) (count : BitVec 64) :
    (b.availableRead < count ∧ BufferCall.read count b = .error .outOfRange b) ∨
      ∃ after, count ≤ b.availableRead ∧ BufferCall.read count b = .ok () after ∧
        Pointers size after := by
  rcases lt_or_ge b.availableRead count with more | enough
  · have some_ : count ≠ 0 := by
      rintro rfl
      exact absurd more (BitVec.not_lt_zero)
    refine .inl ⟨more, ?_⟩
    rw [BufferCall.read, if_neg some_, if_pos more]
  · obtain ⟨after, reads, kept⟩ := place.read_ok enough
    exact .inr ⟨after, enough, by rw [BufferCall.read_eq, reads]; rfl, kept⟩

/-- **`write` throws for more than is available**, and leaves the buffer as it was. -/
theorem call_write (place : Pointers size b) (count : BitVec 64) :
    (b.availableWrite < count ∧ BufferCall.write count b = .error .outOfRange b) ∨
      ∃ after, count ≤ b.availableWrite ∧ BufferCall.write count b = .ok () after ∧
        Pointers size after := by
  rcases lt_or_ge b.availableWrite count with more | enough
  · have some_ : count ≠ 0 := by
      rintro rfl
      exact absurd more (BitVec.not_lt_zero)
    refine .inl ⟨more, ?_⟩
    rw [BufferCall.write, if_neg some_, if_pos more]
  · obtain ⟨after, writes, kept⟩ := place.write_ok enough
    exact .inr ⟨after, enough, by rw [BufferCall.write_eq, writes]; rfl, kept⟩

/-- **The pointers are in place in every buffer that can be reached.** -/
theorem of_reachable (reachable : ReachableBuffer b) : Pointers b.capacity.toNat b := by
  have kept : ∃ size, Pointers size b := by
    induction reachable with
    | reset size raw => exact ⟨_, .reset size raw⟩
    | stored data _ ih =>
        obtain ⟨size, place⟩ := ih
        exact ⟨size, place.sized, place.head, place.tail, place.ordered⟩
    | write count _ ih =>
        obtain ⟨size, place⟩ := ih
        rcases place.call_write count with ⟨-, thrown⟩ | ⟨after, -, returned, kept⟩
        · exact ⟨size, by rw [thrown]; exact place⟩
        · exact ⟨size, by rw [returned]; exact kept⟩
    | read count _ ih =>
        obtain ⟨size, place⟩ := ih
        rcases place.call_read count with ⟨-, thrown⟩ | ⟨after, -, returned, kept⟩
        · exact ⟨size, by rw [thrown]; exact place⟩
        · exact ⟨size, by rw [returned]; exact kept⟩
  obtain ⟨size, place⟩ := kept
  rw [place.sized]
  exact place

end Pointers

/-- A call throws for more than is available and otherwise returns, it leaves the buffer as it was
when it throws, and `increase` never throws where it is called. -/
structure ErrorsAreAtomic (b : CircularBuffer) (size : BitVec 64) : Prop where
  write : (∃ after, BufferCall.write size b = .error .outOfRange after) ↔ b.availableWrite < size
  read : (∃ after, BufferCall.read size b = .error .outOfRange after) ↔ b.availableRead < size
  kept : ∀ failed after, BufferCall.write size b = .error failed after ∨
    BufferCall.read size b = .error failed after → after = b
  increaseHead : size ≤ b.availableWrite → ∃ after, BufferCall.increase .head size b = .ok () after
  increaseTail : size ≤ b.availableRead → ∃ after, BufferCall.increase .tail size b = .ok () after

/-- All bytes are read in two pieces, and all room is written in two pieces. -/
structure TwoPieces (b : CircularBuffer) : Prop where
  read : ∃ middle after, BufferCall.read b.availableRead b = .ok () middle ∧
    BufferCall.read middle.availableRead middle = .ok () after ∧
    after.empty = true ∧ after.size = 0 ∧
    b.availableRead.toNat + middle.availableRead.toNat = b.size.toNat
  write : ∃ middle after, BufferCall.write b.availableWrite b = .ok () middle ∧
    BufferCall.write middle.availableWrite middle = .ok () after ∧
    after.full = true ∧ after.size = after.capacity ∧
    b.availableWrite.toNat + middle.availableWrite.toNat = b.capacity.toNat - b.size.toNat

namespace Pointers

variable {size : ℕ} {b : CircularBuffer}

theorem errorsAreAtomic (place : Pointers size b) (count : BitVec 64) :
    ErrorsAreAtomic b count where
  write := by
    rcases place.call_write count with ⟨more, thrown⟩ | ⟨after, enough, returned, -⟩
    · exact iff_of_true ⟨b, thrown⟩ more
    · refine iff_of_false ?_ (not_lt.mpr enough)
      rintro ⟨other, thrown⟩
      rw [returned] at thrown
      cases thrown
  read := by
    rcases place.call_read count with ⟨more, thrown⟩ | ⟨after, enough, returned, -⟩
    · exact iff_of_true ⟨b, thrown⟩ more
    · refine iff_of_false ?_ (not_lt.mpr enough)
      rintro ⟨other, thrown⟩
      rw [returned] at thrown
      cases thrown
  kept := by
    rintro failed after (fails | fails)
    · rw [BufferCall.write_eq] at fails
      exact BufferCall.left_of_error fails
    · rw [BufferCall.read_eq] at fails
      exact BufferCall.left_of_error fails
  increaseHead := by
    intro enough
    rw [BufferCall.increase_eq]
    change ∃ after, BufferCall.ofExcept b ((b.increase b.head count).map _) = _
    rw [place.increase_eq (place.write_le enough).1]
    exact ⟨_, rfl⟩
  increaseTail := by
    intro enough
    rw [BufferCall.increase_eq]
    change ∃ after, BufferCall.ofExcept b ((b.increase b.tail count).map _) = _
    rw [place.increase_eq (place.read_le enough).1]
    exact ⟨_, rfl⟩

/-- A piece of all that is available to read: what is left is available in one piece. -/
theorem read_all (place : Pointers size b) :
    ∃ after, BufferCall.read b.availableRead b = .ok () after ∧ Pointers size after ∧
      b.availableRead.toNat + after.availableRead.toNat = b.size.toNat ∧
      after.size.toNat = after.availableRead.toNat := by
  obtain ⟨after, reads, kept⟩ := place.read_ok (le_refl _)
  refine ⟨after, by rw [BufferCall.read_eq, reads]; rfl, kept, ?_⟩
  have head := place.head
  have tail := place.tail
  have ordered := place.ordered
  have count := place.availableRead_toNat
  rw [kept.size_toNat, kept.availableRead_toNat, place.size_toNat]
  rcases place.read_cases (le_refl _) with ⟨same, sum, inside⟩ | ⟨same, turned, -⟩
  · obtain rfl := Except.ok.inj (reads.symm.trans same)
    cases turned : b.overlap with
    | true =>
        simp only [turned, if_true] at count ordered ⊢
        omega
    | false =>
        simp only [turned, Bool.false_eq_true, if_false, and_true] at count ordered ⊢
        omega
  · obtain rfl := Except.ok.inj (reads.symm.trans same)
    simp only [turned, if_true, Bool.false_eq_true, if_false, and_true] at count ⊢
    rw [count]
    rfl

/-- A piece of all the room there is in one: what room is left is available in one piece. -/
theorem write_all (place : Pointers size b) :
    ∃ after, BufferCall.write b.availableWrite b = .ok () after ∧ Pointers size after ∧
      b.availableWrite.toNat + after.availableWrite.toNat = size - b.size.toNat ∧
      size - after.size.toNat = after.availableWrite.toNat := by
  obtain ⟨after, writes, kept⟩ := place.write_ok (le_refl _)
  refine ⟨after, by rw [BufferCall.write_eq, writes]; rfl, kept, ?_⟩
  have head := place.head
  have tail := place.tail
  have ordered := place.ordered
  have count := place.availableWrite_toNat
  rw [kept.size_toNat, kept.availableWrite_toNat, place.size_toNat]
  rcases place.write_cases (le_refl _) with ⟨same, sum, inside⟩ | ⟨same, apart, -⟩
  · obtain rfl := Except.ok.inj (writes.symm.trans same)
    cases turned : b.overlap with
    | true =>
        simp only [turned, if_true] at count ordered ⊢
        omega
    | false =>
        simp only [turned, Bool.false_eq_true, if_false] at count ordered ⊢
        omega
  · obtain rfl := Except.ok.inj (writes.symm.trans same)
    have zero : (0 : BitVec 64).toNat = 0 := rfl
    simp only [apart, if_true, Bool.false_eq_true, if_false, zero] at count ordered ⊢
    omega

/-- There are never more bytes than room for them. -/
theorem size_le (place : Pointers size b) : b.size.toNat ≤ size := by
  have head := place.head_le
  have tail := place.tail_le
  have ordered := place.ordered
  rw [place.size_toNat]
  split
  · rename_i turned
    rw [if_pos turned] at ordered
    omega
  · omega

theorem twoPieces (place : Pointers size b) : TwoPieces b where
  read := by
    obtain ⟨middle, first, placeMiddle, all, rest⟩ := place.read_all
    obtain ⟨after, second, -, left, none⟩ := placeMiddle.read_all
    have nothing : after.availableRead.toNat = 0 := by omega
    have empty : after.availableRead = 0 := BitVec.eq_of_toNat_eq nothing
    refine ⟨middle, after, first, second, decide_eq_true empty, ?_, all⟩
    exact BitVec.eq_of_toNat_eq (none.trans nothing)
  write := by
    obtain ⟨middle, first, placeMiddle, all, rest⟩ := place.write_all
    obtain ⟨after, second, placeAfter, left, none⟩ := placeMiddle.write_all
    have nothing : after.availableWrite.toNat = 0 := by omega
    have full : after.availableWrite = 0 := BitVec.eq_of_toNat_eq nothing
    have below := placeAfter.size_le
    refine ⟨middle, after, first, second, decide_eq_true full, ?_, ?_⟩
    · apply BitVec.eq_of_toNat_eq
      rw [placeAfter.sized]
      omega
    · rw [place.sized]
      exact all

end Pointers

/-- **Errors of a buffer are atomic, and two pieces are enough**, for every buffer that can be
reached and every number. -/
theorem buffer_errors_are_atomic {b : CircularBuffer} (reachable : ReachableBuffer b) :
    (∀ size, ErrorsAreAtomic b size) ∧ TwoPieces b :=
  ⟨(Pointers.of_reachable reachable).errorsAreAtomic, (Pointers.of_reachable reachable).twoPieces⟩

/-- Two bytes stand at the end of the storage, and one at its begin. -/
def wrappedBuffer : CircularBuffer :=
  (BufferCall.write 1 (BufferCall.read 2 (BufferCall.write 4 (.reset 4 fun _ => 0)).left).left).left

theorem buffer_errors_are_atomic_wrapped :
    wrappedBuffer.availableRead = 2 ∧ wrappedBuffer.size = 3 ∧ ErrorsAreAtomic wrappedBuffer 3 ∧
      TwoPieces wrappedBuffer := by
  have reachable : ReachableBuffer wrappedBuffer :=
    (((ReachableBuffer.reset 4 _).write 4).read 2).write 1
  obtain ⟨atomic, pieces⟩ := buffer_errors_are_atomic reachable
  exact ⟨by decide, by decide, atomic 3, pieces⟩

end Jasl
