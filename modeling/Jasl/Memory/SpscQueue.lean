import Jasl.Library.RingSlots
import Jasl.Library.Runs
import Jasl.Library.Words
import Mathlib.Data.List.Basic
import Mathlib.Logic.Function.Basic

/-!
# The queue between two threads

`SPSCQueue<T, true>`: a ring of slots with the indices `m_head`, which only the
thread that pushes stores, and `m_tail`, which only the thread that pops stores.
A call is several steps, and the steps of the two threads interleave. Each load
and store of an index is a step, and so are the write and the read of a slot; the
atomics are sequentially consistent. The operands of the comparison in `empty`
are loaded in either order. Notifying a condition variable on which nobody waits
is no step.

A history is kept beside the queue (`SpscHistory`): the values accepted, published
and popped, and how full the queue was where a call was refused. The queue is a
FIFO: what holds in every state is `InOrder`, in which the indices are the slots
of positions that count up without end, and the result is `spsc_queue_is_fifo`.
-/

set_option autoImplicit false

namespace Jasl

open Library

universe u

/-! ## The queue -/

/-- `SPSCQueue`. -/
structure SpscQueue (α : Type u) where
  data : Word → α
  size : Word
  head : Word
  tail : Word

namespace SpscQueue

variable {α : Type u}

/-- `SPSCQueue::SPSCQueue`, for a `max_size` that is not zero. -/
def create [Inhabited α] (maxSize : Word) : SpscQueue α where
  data := fun _ => default
  size := maxSize + 1
  head := 0
  tail := 0

/-- `SPSCQueue::increment`. -/
def increment (q : SpscQueue α) (value : Word) : Word := (value + 1) % q.size

end SpscQueue

/-! ## Two threads -/

/-- Where the pushing thread stands. -/
inductive Producer (α : Type u) where
  | idle
  /-- `push` has loaded `m_head`. -/
  | loadedHead (value : α) (head : Word)
  /-- It has loaded `m_tail`, and the queue is not full. -/
  | writing (value : α) (head : Word)
  /-- It has written the slot. -/
  | storing (value : α) (head : Word)

/-- Where the popping thread stands. -/
inductive Consumer (α : Type u) where
  | idle
  /-- `empty` has loaded `m_head` first. -/
  | loadedHead (head : Word)
  /-- `empty` has loaded `m_tail` first. -/
  | loadedTail (tail : Word)
  /-- `empty` was false. -/
  | nonEmpty
  /-- `pop` has loaded `m_tail`. -/
  | reading (tail : Word)
  /-- It has read the slot. -/
  | storing (tail : Word) (value : α)

/-- A queue with the two threads that use it. -/
structure Spsc (α : Type u) where
  queue : SpscQueue α
  producer : Producer α
  consumer : Consumer α

/-- A step of a thread: the first one of a call, or the next one of the call it is in. -/
inductive SpscOp (α : Type u) where
  | push (value : α)
  | producer
  /-- The first load of `empty`, of `m_head` or of `m_tail`. -/
  | pop (headFirst : Bool)
  | consumer

/-- The thread is not at this step. -/
inductive OutOfTurn where
  | outOfTurn
deriving DecidableEq, Repr

namespace Spsc

variable {α : Type u}

def create [Inhabited α] (maxSize : Word) : Spsc α := ⟨.create maxSize, .idle, .idle⟩

/-- The next step of `push`. -/
def producerStep (s : Spsc α) : Except OutOfTurn (Spsc α) :=
  match s.producer with
  | .idle => .error .outOfTurn
  | .loadedHead value head =>
      if s.queue.increment head = s.queue.tail then .ok { s with producer := .idle }
      else .ok { s with producer := .writing value head }
  | .writing value head => .ok
      { s with
        queue := { s.queue with data := Function.update s.queue.data head value }
        producer := .storing value head }
  | .storing _ head => .ok
      { s with
        queue := { s.queue with head := s.queue.increment head }
        producer := .idle }

/-- The next step of `pop`. -/
def consumerStep (s : Spsc α) : Except OutOfTurn (Spsc α) :=
  match s.consumer with
  | .idle => .error .outOfTurn
  | .loadedHead head => .ok
      { s with consumer := if head = s.queue.tail then .idle else .nonEmpty }
  | .loadedTail tail => .ok
      { s with consumer := if s.queue.head = tail then .idle else .nonEmpty }
  | .nonEmpty => .ok { s with consumer := .reading s.queue.tail }
  | .reading tail => .ok { s with consumer := .storing tail (s.queue.data tail) }
  | .storing tail _ => .ok
      { s with
        queue := { s.queue with tail := s.queue.increment tail }
        consumer := .idle }

def step (s : Spsc α) : SpscOp α → Except OutOfTurn (Spsc α)
  | .push value =>
      match s.producer with
      | .idle => .ok { s with producer := .loadedHead value s.queue.head }
      | _ => .error .outOfTurn
  | .producer => s.producerStep
  | .pop headFirst =>
      match s.consumer with
      | .idle => .ok
          { s with
            consumer :=
              if headFirst then .loadedHead s.queue.head else .loadedTail s.queue.tail }
      | _ => .error .outOfTurn
  | .consumer => s.consumerStep

end Spsc

/-! ## The history -/

/-- What happened to a queue. -/
structure SpscHistory (α : Type u) where
  /-- The values whose `push` found room, and so returns true. -/
  accepted : List α
  /-- The values whose slot `m_head` has passed. -/
  published : List α
  /-- The slots they were written to. -/
  slots : List Word
  /-- The values of the calls of `pop` that stored `m_tail`. -/
  popped : List α
  /-- How many published values were unpopped at the last load of `m_head` by `empty`. -/
  atHeadLoad : ℕ
  /-- How many were when `m_tail` was loaded, for each `push` that returned false. -/
  refused : List ℕ
  /-- How many were when `m_head` was loaded, for each `pop` that returned false. -/
  missed : List ℕ

namespace SpscHistory

variable {α : Type u}

def empty : SpscHistory α := ⟨[], [], [], [], 0, [], []⟩

/-- The number of published values that are unpopped. -/
def unpopped (h : SpscHistory α) : ℕ := h.published.length - h.popped.length

/-- What a step of `push` adds. -/
def noteProducer (s : Spsc α) (h : SpscHistory α) : SpscHistory α :=
  match s.producer with
  | .loadedHead value head =>
      if s.queue.increment head = s.queue.tail then { h with refused := h.unpopped :: h.refused }
      else { h with accepted := h.accepted ++ [value] }
  | .storing value head =>
      { h with published := h.published ++ [value], slots := h.slots ++ [head] }
  | _ => h

/-- What a step of `pop` adds. -/
def noteConsumer (s : Spsc α) (h : SpscHistory α) : SpscHistory α :=
  match s.consumer with
  | .loadedHead head =>
      if head = s.queue.tail then { h with missed := h.atHeadLoad :: h.missed } else h
  | .loadedTail tail =>
      if s.queue.head = tail then
        { h with atHeadLoad := h.unpopped, missed := h.unpopped :: h.missed }
      else { h with atHeadLoad := h.unpopped }
  | .storing _ value => { h with popped := h.popped ++ [value] }
  | _ => h

def note (before : Spsc α) (op : SpscOp α) (_ : Spsc α) (h : SpscHistory α) : SpscHistory α :=
  match op with
  | .push _ => h
  | .producer => noteProducer before h
  | .pop headFirst => if headFirst then { h with atHeadLoad := h.unpopped } else h
  | .consumer => noteConsumer before h

end SpscHistory

/-! ## What holds in every state -/

section Invariant

variable {α : Type u} {maxSize : ℕ}

/-- What the pushing thread knows where it stands: `m_head` is its own, and room it has seen stays,
because only it takes room. -/
def Producer.Fits (maxSize : ℕ) (q : SpscQueue α) (h : SpscHistory α) : Producer α → Prop
  | .idle => h.accepted = h.published
  | .loadedHead _ head => head = q.head ∧ h.accepted = h.published
  | .writing value head =>
      head = q.head ∧ h.published.length < h.popped.length + maxSize ∧
        h.accepted = h.published ++ [value]
  | .storing value head =>
      head = q.head ∧ h.published.length < h.popped.length + maxSize ∧
        h.accepted = h.published ++ [value] ∧ q.data head = value

/-- What the popping thread knows where it stands: `m_tail` is its own, and a value it has seen
stays, because only it takes values. -/
def Consumer.Fits (maxSize : ℕ) (q : SpscQueue α) (h : SpscHistory α) : Consumer α → Prop
  | .idle => True
  | .loadedHead head =>
      ∃ seen, IsSlot (maxSize + 1) head seen ∧ h.popped.length ≤ seen ∧
        seen ≤ h.published.length ∧ h.atHeadLoad = seen - h.popped.length
  | .loadedTail tail => tail = q.tail
  | .nonEmpty => h.popped.length < h.published.length
  | .reading tail => tail = q.tail ∧ h.popped.length < h.published.length
  | .storing tail value => tail = q.tail ∧ h.published[h.popped.length]? = some value

/-- The indices of a queue are the slots of the next position to publish and of the next one to pop,
and the slots between hold the values in between. -/
structure InOrder (maxSize : ℕ) (s : Spsc α) (h : SpscHistory α) : Prop where
  sized : s.queue.size.toNat = maxSize + 1
  head : IsSlot (maxSize + 1) s.queue.head h.published.length
  tail : IsSlot (maxSize + 1) s.queue.tail h.popped.length
  popped : h.popped <+: h.published
  room : h.published.length ≤ h.popped.length + maxSize
  written : h.slots.length = h.published.length
  slots : ∀ i slot, h.slots[i]? = some slot → IsSlot (maxSize + 1) slot i
  stored : ∀ i value slot, h.popped.length ≤ i → h.published[i]? = some value →
    IsSlot (maxSize + 1) slot i → s.queue.data slot = value
  producer : s.producer.Fits maxSize s.queue h
  consumer : s.consumer.Fits maxSize s.queue h
  refused : ∀ count ∈ h.refused, count = maxSize
  missed : ∀ count ∈ h.missed, count = 0

namespace InOrder

variable {s after : Spsc α} {h : SpscHistory α}

theorem create [Inhabited α] {bound : Word} (fits : bound.toNat < 2 ^ 64 - 1) :
    InOrder bound.toNat (Spsc.create bound : Spsc α) .empty where
  sized := by
    change (bound + 1#64).toNat = bound.toNat + 1
    rw [BitVec.toNat_add]
    exact Nat.mod_eq_of_lt (by simp only [BitVec.toNat_ofNat]; omega)
  head := rfl
  tail := rfl
  popped := List.nil_prefix
  room := Nat.zero_le _
  written := rfl
  slots := nofun
  stored := nofun
  producer := rfl
  consumer := trivial
  refused := nofun
  missed := nofun

theorem popped_le (order : InOrder maxSize s h) : h.popped.length ≤ h.published.length :=
  order.popped.length_le

/-- The slot that a push may write holds no value that is unpopped. -/
theorem free (order : InOrder maxSize s h)
    (room : h.published.length < h.popped.length + maxSize) {i : ℕ} {slot : Word}
    (unpopped : h.popped.length ≤ i) (published : i < h.published.length)
    (isSlot : IsSlot (maxSize + 1) slot i) : slot ≠ s.queue.head := by
  rintro rfl
  have same := isSlot.position_eq order.head (by omega) (by omega)
  omega

/-- The queue is full exactly when the next index is the other one. -/
theorem full_iff (order : InOrder maxSize s h) :
    s.queue.increment s.queue.head = s.queue.tail ↔ h.unpopped = maxSize := by
  have ordered := order.popped_le
  have room := order.room
  have next : IsSlot (maxSize + 1) (s.queue.increment s.queue.head) (h.published.length + 1) :=
    order.head.next order.sized (by omega)
  have turned := order.tail.add_size
  rw [SpscHistory.unpopped]
  constructor
  · intro same
    rw [same] at next
    have positions := next.position_eq turned (by omega) (by omega)
    omega
  · intro full
    have positions : h.popped.length + (maxSize + 1) = h.published.length + 1 := by omega
    rw [positions] at turned
    exact next.unique turned

/-- The queue is empty exactly when the indices are the same. -/
theorem empty_iff (order : InOrder maxSize s h) {seen : ℕ} {head : Word}
    (isSlot : IsSlot (maxSize + 1) head seen) (popped : h.popped.length ≤ seen)
    (published : seen ≤ h.published.length) :
    head = s.queue.tail ↔ seen = h.popped.length := by
  have room := order.room
  constructor
  · rintro rfl
    exact (order.tail.position_eq isSlot popped (by omega)).symm
  · rintro rfl
    exact isSlot.unique order.tail

/-! ## Steps -/

/-- What stands in a list that got one more element. -/
theorem of_getElem?_concat {β : Type*} {list : List β} {last found : β} {i : ℕ}
    (at_ : (list ++ [last])[i]? = some found) :
    list[i]? = some found ∨ (i = list.length ∧ found = last) := by
  rw [List.getElem?_append] at at_
  split at at_
  · exact .inl at_
  · rename_i beyond
    rw [List.getElem?_singleton] at at_
    split at at_
    · rename_i first
      exact .inr ⟨by omega, (Option.some.inj at_).symm⟩
    · cases at_

/-- The pushing thread stores `m_head`: its slot is published. -/
theorem publish {q : SpscQueue α} {value : α} {consumer : Consumer α}
    (order : InOrder maxSize ⟨q, .storing value q.head, consumer⟩ h) :
    InOrder maxSize ⟨{ q with head := q.increment q.head }, .idle, consumer⟩
      { h with published := h.published ++ [value], slots := h.slots ++ [q.head] } := by
  obtain ⟨-, room, accepted, data⟩ : q.head = q.head ∧
    h.published.length < h.popped.length + maxSize ∧ h.accepted = h.published ++ [value] ∧
      q.data q.head = value := order.producer
  have longer : (h.published ++ [value]).length = h.published.length + 1 := by
    rw [List.length_append, List.length_singleton]
  have slot : IsSlot (maxSize + 1) q.head h.published.length := order.head
  refine ⟨order.sized, ?_, order.tail, order.popped.trans (List.prefix_append _ _), ?_, ?_, ?_, ?_,
    accepted, ?_, order.refused, order.missed⟩
  · change IsSlot (maxSize + 1) (q.increment q.head) (h.published ++ [value]).length
    rw [longer]
    exact slot.next order.sized (by omega)
  · change (h.published ++ [value]).length ≤ h.popped.length + maxSize
    omega
  · change (h.slots ++ [q.head]).length = (h.published ++ [value]).length
    rw [List.length_append, List.length_append, order.written]
    rfl
  · intro i other at_
    rcases of_getElem?_concat at_ with before | ⟨rfl, rfl⟩
    · exact order.slots i other before
    · rw [order.written]
      exact slot
  · intro i present other unpopped at_ isSlot
    rcases of_getElem?_concat at_ with before | ⟨rfl, rfl⟩
    · exact order.stored i present other unpopped before isSlot
    · rw [isSlot.unique slot]
      exact data
  · have known := order.consumer
    cases consumer with
    | idle => trivial
    | loadedHead head =>
        obtain ⟨seen, isSlot, popped, published, count⟩ := known
        exact ⟨seen, isSlot, popped, published.trans (by rw [longer]; omega), count⟩
    | loadedTail tail => exact known
    | nonEmpty => exact lt_of_lt_of_le known (by rw [longer]; omega)
    | reading tail => exact ⟨known.1, lt_of_lt_of_le known.2 (by rw [longer]; omega)⟩
    | storing tail value =>
        obtain ⟨own, at_⟩ := known
        refine ⟨own, ?_⟩
        change (h.published ++ [_])[h.popped.length]? = some value
        rw [List.getElem?_append_left (List.getElem?_eq_some_iff.mp at_).1]
        exact at_

/-- A step of `push` keeps the order. -/
theorem producerStep (order : InOrder maxSize s h) (stepped : s.producerStep = .ok after) :
    InOrder maxSize after (SpscHistory.noteProducer s h) := by
  obtain ⟨q, producer, consumer⟩ := s
  cases producer with
  | idle => cases stepped
  | loadedHead value head =>
      obtain ⟨own, accepted⟩ : head = q.head ∧ h.accepted = h.published := order.producer
      subst own
      simp only [Spsc.producerStep] at stepped
      simp only [SpscHistory.noteProducer]
      split at stepped
      · rename_i full
        obtain rfl := Except.ok.inj stepped
        rw [if_pos full]
        have count := order.full_iff.mp full
        exact { order with
          producer := accepted
          refused := List.forall_mem_cons.mpr ⟨count, order.refused⟩ }
      · rename_i notFull
        obtain rfl := Except.ok.inj stepped
        rw [if_neg notFull]
        have room : h.published.length < h.popped.length + maxSize := by
          have count := mt order.full_iff.mpr notFull
          have bound := order.room
          rw [SpscHistory.unpopped] at count
          omega
        exact { order with
          producer := ⟨rfl, room, congrArg (· ++ [value]) accepted⟩ }
  | writing value head =>
      obtain ⟨own, room, accepted⟩ : head = q.head ∧
        h.published.length < h.popped.length + maxSize ∧ h.accepted = h.published ++ [value] :=
        order.producer
      subst own
      obtain rfl := Except.ok.inj stepped
      exact { order with
        stored := by
          intro i present slot unpopped published isSlot
          have other := order.free room unpopped
            (List.getElem?_eq_some_iff.mp published).1 isSlot
          change Function.update q.data q.head value slot = present
          rw [Function.update_of_ne other]
          exact order.stored i present slot unpopped published isSlot
        producer := ⟨rfl, room, accepted, Function.update_self ..⟩ }
  | storing value head =>
      have own : head = q.head := order.producer.1
      subst own
      obtain rfl := Except.ok.inj stepped
      exact order.publish

/-- The popping thread stores `m_tail`: its value is popped. -/
theorem take {q : SpscQueue α} {value : α} {producer : Producer α}
    (order : InOrder maxSize ⟨q, producer, .storing q.tail value⟩ h) :
    InOrder maxSize ⟨{ q with tail := q.increment q.tail }, producer, .idle⟩
      { h with popped := h.popped ++ [value] } := by
  obtain ⟨-, at_⟩ : q.tail = q.tail ∧ h.published[h.popped.length]? = some value := order.consumer
  have longer : (h.popped ++ [value]).length = h.popped.length + 1 := by
    rw [List.length_append, List.length_singleton]
  have room := order.room
  refine ⟨order.sized, order.head, ?_, ?_, ?_, order.written, order.slots, ?_, ?_, trivial,
    order.refused, order.missed⟩
  · change IsSlot (maxSize + 1) (q.increment q.tail) (h.popped ++ [value]).length
    rw [longer]
    exact order.tail.next order.sized (by omega)
  · change h.popped ++ [value] <+: h.published
    rw [List.prefix_iff_eq_take, longer, List.take_add_one, at_,
      ← List.prefix_iff_eq_take.mp order.popped]
    rfl
  · change h.published.length ≤ (h.popped ++ [value]).length + maxSize
    omega
  · intro i present slot unpopped
    exact order.stored i present slot (le_trans (by rw [longer]; omega) unpopped)
  · have known := order.producer
    have more : ∀ {bound}, bound < h.popped.length + maxSize →
        bound < (h.popped ++ [value]).length + maxSize := by
      intro bound below
      omega
    cases producer with
    | idle => exact known
    | loadedHead _ head => exact known
    | writing _ head => exact ⟨known.1, more known.2.1, known.2.2⟩
    | storing _ head => exact ⟨known.1, more known.2.1, known.2.2⟩

/-- A step of `pop` keeps the order. -/
theorem consumerStep (order : InOrder maxSize s h) (stepped : s.consumerStep = .ok after) :
    InOrder maxSize after (SpscHistory.noteConsumer s h) := by
  obtain ⟨q, producer, consumer⟩ := s
  cases consumer with
  | idle => cases stepped
  | loadedHead head =>
      obtain ⟨seen, isSlot, popped, published, count⟩ := order.consumer
      have empty := order.empty_iff isSlot popped published
      obtain rfl := Except.ok.inj stepped
      simp only [SpscHistory.noteConsumer]
      by_cases same : head = q.tail
      · have nothing : h.atHeadLoad = 0 := by
          have positions := empty.mp same
          omega
        simp only [if_pos same]
        exact { order with
          consumer := trivial
          missed := List.forall_mem_cons.mpr ⟨nothing, order.missed⟩ }
      · have positions := mt empty.mpr same
        simp only [if_neg same]
        exact { order with consumer := show h.popped.length < h.published.length by omega }
  | loadedTail tail =>
      have own : tail = q.tail := order.consumer
      subst own
      have ordered := order.popped_le
      have empty := order.empty_iff order.head ordered (le_refl _)
      obtain rfl := Except.ok.inj stepped
      simp only [SpscHistory.noteConsumer]
      by_cases same : q.head = q.tail
      · have nothing : h.unpopped = 0 := by
          have positions := empty.mp same
          rw [SpscHistory.unpopped]
          omega
        simp only [if_pos same]
        exact { order with
          consumer := trivial
          missed := List.forall_mem_cons.mpr ⟨nothing, order.missed⟩ }
      · have positions := mt empty.mpr same
        simp only [if_neg same]
        exact { order with consumer := show h.popped.length < h.published.length by omega }
  | nonEmpty =>
      obtain rfl := Except.ok.inj stepped
      exact { order with consumer := ⟨rfl, order.consumer⟩ }
  | reading tail =>
      obtain ⟨own, more⟩ : tail = q.tail ∧ h.popped.length < h.published.length := order.consumer
      subst own
      obtain rfl := Except.ok.inj stepped
      have at_ := List.getElem?_eq_getElem more
      have data := order.stored _ _ q.tail (le_refl _) at_ order.tail
      exact { order with consumer := ⟨rfl, at_.trans (congrArg some data.symm)⟩ }
  | storing tail value =>
      have own : tail = q.tail := order.consumer.1
      subst own
      obtain rfl := Except.ok.inj stepped
      exact order.take

/-- Every popped value was accepted, in this order. -/
theorem popped_prefix (order : InOrder maxSize s h) : h.popped <+: h.accepted := by
  have known := order.producer
  have published : h.published <+: h.accepted := by
    cases place : s.producer with
    | idle =>
        rw [place] at known
        exact known ▸ List.prefix_refl _
    | loadedHead value head =>
        rw [place] at known
        exact known.2 ▸ List.prefix_refl _
    | writing value head =>
        rw [place] at known
        exact known.2.2 ▸ List.prefix_append _ _
    | storing value head =>
        rw [place] at known
        exact known.2.2.1 ▸ List.prefix_append _ _
  exact order.popped.trans published

/-- The slot that is written holds no unpopped value. -/
theorem writing_free (order : InOrder maxSize s h) {value : α} {head : Word}
    (writes : s.producer = .writing value head) {i : ℕ} (unpopped : h.popped.length ≤ i) :
    h.slots[i]? ≠ some head := by
  have known := order.producer
  rw [writes] at known
  obtain ⟨own, room, -⟩ := known
  subst own
  intro at_
  have published : i < h.published.length := by
    rw [← order.written]
    exact (List.getElem?_eq_some_iff.mp at_).1
  exact order.free room unpopped published (order.slots i _ at_) rfl

/-- **A step of either thread keeps the order.** -/
theorem step (order : InOrder maxSize s h) {op : SpscOp α} (stepped : s.step op = .ok after) :
    InOrder maxSize after (SpscHistory.note s op after h) := by
  cases op with
  | push value =>
      obtain ⟨q, producer, consumer⟩ := s
      cases producer with
      | idle =>
          obtain rfl := Except.ok.inj stepped
          exact { order with producer := ⟨rfl, order.producer⟩ }
      | _ => cases stepped
  | producer => exact order.producerStep stepped
  | pop headFirst =>
      obtain ⟨q, producer, consumer⟩ := s
      cases consumer with
      | idle =>
          obtain rfl := Except.ok.inj stepped
          cases headFirst with
          | true =>
              exact { order with
                consumer := ⟨h.published.length, order.head, order.popped_le, le_refl _, rfl⟩ }
          | false => exact { order with consumer := rfl }
      | _ => cases stepped
  | consumer => exact order.consumerStep stepped

end InOrder

end Invariant

/-- **The queue is a FIFO for one producer and one consumer**, for every interleaving of their steps
and every capacity for which `max_size + 1` does not wrap. -/
theorem spsc_queue_is_fifo {α : Type u} [Inhabited α] {maxSize : Word}
    (fits : maxSize.toNat < 2 ^ 64 - 1) {ops : List (SpscOp α)} {s : Spsc α} {h : SpscHistory α}
    (reached : Run (observed Spsc.step SpscHistory.note) (fun _ _ => True)
      (Spsc.create maxSize, SpscHistory.empty) ops (s, h)) :
    h.popped <+: h.accepted ∧
    h.unpopped ≤ maxSize.toNat ∧
    (∀ value head, s.producer = .writing value head →
      ∀ i, h.popped.length ≤ i → h.slots[i]? ≠ some head) ∧
    (∀ count ∈ h.refused, count = maxSize.toNat) ∧
    ∀ count ∈ h.missed, count = 0 := by
  have order : InOrder maxSize.toNat s h := by
    apply reached.invariant (fun watched => InOrder maxSize.toNat watched.1 watched.2)
      (.create fits)
    intro before op after held _ stepped
    obtain ⟨moved, noted⟩ := observed_eq_ok.mp stepped
    rw [noted]
    exact held.step moved
  refine ⟨order.popped_prefix, ?_, ?_, order.refused, order.missed⟩
  · have room := order.room
    rw [SpscHistory.unpopped]
    omega
  · exact fun value head writes i unpopped => order.writing_free writes unpopped

/-- A queue for two values that wraps: a push is refused while it is full, and a pop misses the
value that is published between its two loads. -/
def wrappingOps : List (SpscOp ℕ) :=
  [.pop true, .push 1, .producer, .producer, .producer, .consumer,
    .push 2, .producer, .producer, .producer, .push 3, .producer,
    .pop false, .consumer, .consumer, .consumer, .consumer,
    .push 4, .producer, .producer, .producer]

def wrappedQueue : Spsc ℕ × SpscHistory ℕ :=
  (checkedRun (observed Spsc.step SpscHistory.note) (fun _ _ => True)
    (Spsc.create 2, SpscHistory.empty) wrappingOps).get (by decide +kernel)

example : wrappedQueue.2.accepted = [1, 2, 4] ∧ wrappedQueue.2.popped = [1] ∧
    wrappedQueue.2.refused = [2] ∧ wrappedQueue.1.queue.head = 0 := by
  decide +kernel

theorem spsc_queue_is_fifo_wrapping : wrappedQueue.2.popped <+: wrappedQueue.2.accepted := by
  have fits : (2 : Word).toNat < 2 ^ 64 - 1 := by decide
  have reached : Run (observed Spsc.step SpscHistory.note) (fun _ _ => True)
      (Spsc.create 2, SpscHistory.empty) wrappingOps wrappedQueue := Run.of_isSome _
  exact (spsc_queue_is_fifo (s := wrappedQueue.1) (h := wrappedQueue.2) fits reached).1

end Jasl
