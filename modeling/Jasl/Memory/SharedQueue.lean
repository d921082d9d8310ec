import Jasl.Memory.SpscQueue

/-!
# The queue with many pushing threads

Nothing in `SPSCQueue` keeps a second thread out of `push`. Here any number of
threads may be inside `push` of one queue, each where it stands in the call and
with the indices it has loaded; the steps are those of `Spsc`, taken by one of the
threads. Two threads inside may load the same `m_head` and write the same slot.

What the queue asks of those who share it is one condition, at the first step of
a push: nobody is inside (`SharedQueue.Alone`). Where it is met, the queue is in
order as it is for one thread that pushes (`SharedInOrder.step`), and what a lock
or a protocol has to provide is this condition and no more.
-/

set_option autoImplicit false

namespace Jasl

open Library

universe u v

/-- The thread is inside `push`. -/
def Producer.inside {α : Type u} : Producer α → Bool
  | .idle => false
  | _ => true

theorem Producer.inside_eq_false {α : Type u} {producer : Producer α} :
    producer.inside = false ↔ producer = .idle := by
  cases producer with
  | idle => exact iff_of_true rfl rfl
  | _ => exact iff_of_false nofun nofun

/-- A queue with the threads that push and the one that pops. -/
structure SharedQueue (ι : Type v) (α : Type u) where
  queue : SpscQueue α
  producers : ι → Producer α
  consumer : Consumer α

/-- A step of a thread: the first one of a call, or the next one of the call it is in. -/
inductive SharedOp (ι : Type v) (α : Type u) where
  | push (thread : ι) (value : α)
  | producer (thread : ι)
  | pop (headFirst : Bool)
  | consumer

namespace SharedQueue

variable {ι : Type v} {α : Type u}

def create [Inhabited α] (maxSize : Word) : SharedQueue ι α := ⟨.create maxSize, fun _ => .idle, .idle⟩

/-- The queue as one pushing thread has it. -/
def seenBy (s : SharedQueue ι α) (producer : Producer α) : Spsc α := ⟨s.queue, producer, s.consumer⟩

/-- A step of the popping thread. -/
def consume (s : SharedQueue ι α) (op : SpscOp α) : Except OutOfTurn (SharedQueue ι α) :=
  match (s.seenBy .idle).step op with
  | .error failed => .error failed
  | .ok after => .ok { s with queue := after.queue, consumer := after.consumer }

/-- What a step adds to the history. -/
def note (before : SharedQueue ι α) (op : SharedOp ι α) (h : SpscHistory α) : SpscHistory α :=
  match op with
  | .push _ _ => h
  | .producer thread => SpscHistory.noteProducer (before.seenBy (before.producers thread)) h
  | .pop headFirst => if headFirst then { h with atHeadLoad := h.unpopped } else h
  | .consumer => SpscHistory.noteConsumer (before.seenBy .idle) h

/-- A push is begun while no thread is inside. -/
def Alone (s : SharedQueue ι α) : SharedOp ι α → Prop
  | .push _ _ => ∀ thread, s.producers thread = .idle
  | _ => True

variable [DecidableEq ι]

/-- A step of a pushing thread. -/
def produce (s : SharedQueue ι α) (thread : ι) (op : SpscOp α) :
    Except OutOfTurn (SharedQueue ι α) :=
  match (s.seenBy (s.producers thread)).step op with
  | .error failed => .error failed
  | .ok after => .ok
      { s with
        queue := after.queue
        producers := Function.update s.producers thread after.producer }

def step (s : SharedQueue ι α) : SharedOp ι α → Except OutOfTurn (SharedQueue ι α)
  | .push thread value => s.produce thread (.push value)
  | .producer thread => s.produce thread .producer
  | .pop headFirst => s.consume (.pop headFirst)
  | .consumer => s.consume .consumer

end SharedQueue

/-! ## Steps of one thread -/

namespace Spsc

variable {α : Type u} {s after : Spsc α}

/-- A step of the pushing thread leaves the popping thread where it is. -/
theorem step_consumer {op : SpscOp α} (pushes : op = .producer ∨ ∃ value, op = .push value)
    (stepped : s.step op = .ok after) : after.consumer = s.consumer := by
  obtain ⟨q, producer, consumer⟩ := s
  rcases pushes with rfl | ⟨value, rfl⟩
  · cases producer with
    | idle => cases stepped
    | loadedHead value head =>
        simp only [step, producerStep] at stepped
        split at stepped
        · obtain rfl := Except.ok.inj stepped
          rfl
        · obtain rfl := Except.ok.inj stepped
          rfl
    | writing value head =>
        obtain rfl := Except.ok.inj stepped
        rfl
    | storing value head =>
        obtain rfl := Except.ok.inj stepped
        rfl
  · cases producer with
    | idle =>
        obtain rfl := Except.ok.inj stepped
        rfl
    | _ => cases stepped

/-- It leaves `m_tail` alone. -/
theorem producerStep_tail (stepped : s.producerStep = .ok after) :
    after.queue.tail = s.queue.tail := by
  obtain ⟨q, producer, consumer⟩ := s
  cases producer with
  | idle => cases stepped
  | loadedHead value head =>
      simp only [producerStep] at stepped
      split at stepped
      · obtain rfl := Except.ok.inj stepped
        rfl
      · obtain rfl := Except.ok.inj stepped
        rfl
  | writing value head =>
      obtain rfl := Except.ok.inj stepped
      rfl
  | storing value head =>
      obtain rfl := Except.ok.inj stepped
      rfl

/-- A step of the popping thread is the same wherever the pushing thread stands. -/
theorem step_producer {q : SpscQueue α} {first : Producer α} {consumer : Consumer α}
    (producer : Producer α) {op : SpscOp α} (pops : op = .consumer ∨ ∃ headFirst, op = .pop headFirst)
    (stepped : (⟨q, first, consumer⟩ : Spsc α).step op = .ok after) :
    (⟨q, producer, consumer⟩ : Spsc α).step op = .ok ⟨after.queue, producer, after.consumer⟩ := by
  rcases pops with rfl | ⟨headFirst, rfl⟩
  · cases consumer with
    | idle => cases stepped
    | _ =>
        obtain rfl := Except.ok.inj stepped
        rfl
  · cases consumer with
    | idle =>
        obtain rfl := Except.ok.inj stepped
        rfl
    | _ => cases stepped

end Spsc

/-- Popping accepts nothing. -/
theorem SharedQueue.noteConsumer_accepted {α : Type u} (s : Spsc α) (h : SpscHistory α) :
    (SpscHistory.noteConsumer s h).accepted = h.accepted := by
  rw [SpscHistory.noteConsumer]
  split
  · split <;> rfl
  · split <;> rfl
  · rfl
  · rfl

/-- The four ways through the steps of a `push` that has loaded `m_head`, with what is noted. -/
inductive ProducerMove {α : Type u} (q : SpscQueue α) (h : SpscHistory α) :
    Producer α → Producer α → SpscHistory α → Prop where
  | refused {value : α} {head : Word} (full : q.increment head = q.tail) :
      ProducerMove q h (.loadedHead value head) .idle { h with refused := h.unpopped :: h.refused }
  | finds {value : α} {head : Word} (room : q.increment head ≠ q.tail) :
      ProducerMove q h (.loadedHead value head) (.writing value head)
        { h with accepted := h.accepted ++ [value] }
  | writes {value : α} {head : Word} :
      ProducerMove q h (.writing value head) (.storing value head) h
  | publishes {value : α} {head : Word} :
      ProducerMove q h (.storing value head) .idle
        { h with published := h.published ++ [value], slots := h.slots ++ [head] }

/-- The ways through the steps of a `pop` whose first load is done, with what is noted. -/
inductive ConsumerMove {α : Type u} (q : SpscQueue α) (h : SpscHistory α) :
    Consumer α → SpscQueue α → Consumer α → SpscHistory α → Prop where
  | missesHead {head : Word} (empty : head = q.tail) :
      ConsumerMove q h (.loadedHead head) q .idle { h with missed := h.atHeadLoad :: h.missed }
  | findsHead {head : Word} (more : head ≠ q.tail) :
      ConsumerMove q h (.loadedHead head) q .nonEmpty h
  | missesTail {tail : Word} (empty : q.head = tail) :
      ConsumerMove q h (.loadedTail tail) q .idle
        { h with atHeadLoad := h.unpopped, missed := h.unpopped :: h.missed }
  | findsTail {tail : Word} (more : q.head ≠ tail) :
      ConsumerMove q h (.loadedTail tail) q .nonEmpty { h with atHeadLoad := h.unpopped }
  | loads : ConsumerMove q h .nonEmpty q (.reading q.tail) h
  | reads {tail : Word} : ConsumerMove q h (.reading tail) q (.storing tail (q.data tail)) h
  | stores {tail : Word} {value : α} :
      ConsumerMove q h (.storing tail value) { q with tail := q.increment tail } .idle
        { h with popped := h.popped ++ [value] }

namespace SharedQueue

variable {ι : Type v} {α : Type u} [DecidableEq ι] {s after : SharedQueue ι α}

/-- A push is begun by a thread that is outside. -/
theorem step_push {thread : ι} {value : α} (stepped : s.step (.push thread value) = .ok after) :
    s.producers thread = .idle ∧
      after = { s with
        producers := Function.update s.producers thread (.loadedHead value s.queue.head) } := by
  cases place : s.producers thread with
  | idle =>
      simp only [step, produce, place] at stepped
      exact ⟨rfl, (Except.ok.inj stepped).symm⟩
  | _ =>
      simp only [step, produce, place] at stepped
      cases stepped

/-- A step inside `push` moves its thread, and no other. -/
theorem step_producer {thread : ι} (h : SpscHistory α)
    (stepped : s.step (.producer thread) = .ok after) :
    ∃ producer, after.producers = Function.update s.producers thread producer ∧
      after.consumer = s.consumer ∧
      ProducerMove s.queue h (s.producers thread) producer (note s (.producer thread) h) := by
  cases place : s.producers thread with
  | idle =>
      simp only [step, produce, place] at stepped
      cases stepped
  | loadedHead value head =>
      simp only [step, produce, place, seenBy, Spsc.step, Spsc.producerStep] at stepped
      simp only [note, place, seenBy, SpscHistory.noteProducer]
      split at stepped
      · rename_i failed
        split at failed <;> cases failed
      · rename_i next moved
        obtain rfl := Except.ok.inj stepped
        split at moved
        · rename_i full
          obtain rfl := Except.ok.inj moved
          rw [if_pos full]
          exact ⟨.idle, rfl, rfl, .refused full⟩
        · rename_i room
          obtain rfl := Except.ok.inj moved
          rw [if_neg room]
          exact ⟨.writing value head, rfl, rfl, .finds room⟩
  | writing value head =>
      simp only [step, produce, place] at stepped
      simp only [note, place]
      obtain rfl := Except.ok.inj stepped
      exact ⟨.storing value head, rfl, rfl, .writes⟩
  | storing value head =>
      simp only [step, produce, place] at stepped
      simp only [note, place]
      obtain rfl := Except.ok.inj stepped
      exact ⟨.idle, rfl, rfl, .publishes⟩

/-- A step inside `push` leaves `m_tail` alone. -/
theorem step_producer_tail {thread : ι} (stepped : s.step (.producer thread) = .ok after) :
    after.queue.tail = s.queue.tail := by
  simp only [step, produce] at stepped
  split at stepped
  · cases stepped
  · rename_i next moved
    obtain rfl := Except.ok.inj stepped
    exact Spsc.producerStep_tail moved

/-- A step of the popping thread moves no other. -/
theorem step_producers {op : SharedOp ι α} (pops : op = .consumer ∨ ∃ headFirst, op = .pop headFirst)
    (stepped : s.step op = .ok after) : after.producers = s.producers := by
  have consumed : ∀ {spscOp}, s.consume spscOp = .ok after → after.producers = s.producers := by
    intro spscOp succeeded
    rw [consume] at succeeded
    split at succeeded
    · cases succeeded
    · obtain rfl := Except.ok.inj succeeded
      rfl
  rcases pops with rfl | ⟨headFirst, rfl⟩
  · exact consumed stepped
  · exact consumed stepped

/-- A pop is begun by the popping thread when it is outside. -/
theorem step_pop {headFirst : Bool} (stepped : s.step (.pop headFirst) = .ok after) :
    s.consumer = .idle ∧
      after = { s with
        consumer := if headFirst then .loadedHead s.queue.head else .loadedTail s.queue.tail } := by
  cases place : s.consumer with
  | idle =>
      simp only [step, consume, seenBy, Spsc.step, place] at stepped
      exact ⟨rfl, (Except.ok.inj stepped).symm⟩
  | _ =>
      simp only [step, consume, seenBy, Spsc.step, place] at stepped
      cases stepped

/-- The popping thread is never stuck, outside of `pop` or inside. -/
theorem can_pop (outside : s.consumer = .idle) (headFirst : Bool) :
    ∃ after, s.step (.pop headFirst) = .ok after := by
  simp only [step, consume, seenBy, Spsc.step, outside]
  exact ⟨_, rfl⟩

theorem can_consume (inside : s.consumer ≠ .idle) : ∃ after, s.step .consumer = .ok after := by
  cases place : s.consumer with
  | idle => exact absurd place inside
  | _ =>
      simp only [step, consume, seenBy, Spsc.step, Spsc.consumerStep, place]
      exact ⟨_, rfl⟩

/-- A step inside `pop` moves the popping thread. -/
theorem step_consumer (h : SpscHistory α) (stepped : s.step .consumer = .ok after) :
    after.producers = s.producers ∧
      ConsumerMove s.queue h s.consumer after.queue after.consumer (note s .consumer h) := by
  refine ⟨step_producers (.inl rfl) stepped, ?_⟩
  cases place : s.consumer with
  | idle =>
      simp only [step, consume, seenBy, Spsc.step, Spsc.consumerStep, place] at stepped
      cases stepped
  | loadedHead head =>
      simp only [step, consume, seenBy, Spsc.step, Spsc.consumerStep, place] at stepped
      obtain rfl := Except.ok.inj stepped
      simp only [note, seenBy, SpscHistory.noteConsumer, place]
      by_cases same : head = s.queue.tail
      · rw [if_pos same, if_pos same]
        exact .missesHead same
      · rw [if_neg same, if_neg same]
        exact .findsHead same
  | loadedTail tail =>
      simp only [step, consume, seenBy, Spsc.step, Spsc.consumerStep, place] at stepped
      obtain rfl := Except.ok.inj stepped
      simp only [note, seenBy, SpscHistory.noteConsumer, place]
      by_cases same : s.queue.head = tail
      · rw [if_pos same, if_pos same]
        exact .missesTail same
      · rw [if_neg same, if_neg same]
        exact .findsTail same
  | nonEmpty =>
      simp only [step, consume, seenBy, Spsc.step, Spsc.consumerStep, place] at stepped
      obtain rfl := Except.ok.inj stepped
      simp only [note, seenBy, SpscHistory.noteConsumer, place]
      exact .loads
  | reading tail =>
      simp only [step, consume, seenBy, Spsc.step, Spsc.consumerStep, place] at stepped
      obtain rfl := Except.ok.inj stepped
      simp only [note, seenBy, SpscHistory.noteConsumer, place]
      exact .reads
  | storing tail value =>
      simp only [step, consume, seenBy, Spsc.step, Spsc.consumerStep, place] at stepped
      obtain rfl := Except.ok.inj stepped
      simp only [note, seenBy, SpscHistory.noteConsumer, place]
      exact .stores

end SharedQueue

/-! ## What one thread at a time keeps -/

section Invariant

variable {ι : Type v} {α : Type u}

/-- Where the one thread stands that may be inside. -/
inductive Active (producers : ι → Producer α) : Producer α → Prop where
  | nobody (idle : ∀ thread, producers thread = .idle) : Active producers .idle
  | alone {producer : Producer α} (thread : ι) (here : producers thread = producer)
      (others : ∀ other, other ≠ thread → producers other = .idle) : Active producers producer

namespace Active

variable {producers : ι → Producer α} {active : Producer α}

/-- The thread inside is the active one, and the only one. -/
theorem eq (one : Active producers active) {thread : ι} (inside : producers thread ≠ .idle) :
    active = producers thread ∧ ∀ other, other ≠ thread → producers other = .idle := by
  cases one with
  | nobody idle => exact absurd (idle thread) inside
  | alone owner here others =>
      have same : thread = owner := by
        by_contra different
        exact inside (others thread different)
      rw [same]
      exact ⟨here.symm, others⟩

/-- With nobody inside, nothing is going on. -/
theorem idle (one : Active producers active) (nobody : ∀ thread, producers thread = .idle) :
    active = .idle := by
  cases one with
  | nobody _ => rfl
  | alone owner here _ => exact here.symm.trans (nobody owner)

end Active

/-- A shared queue is in order: at most one thread is inside, and for it the queue is in order. -/
def SharedInOrder (maxSize : ℕ) (s : SharedQueue ι α) (h : SpscHistory α) : Prop :=
  ∃ active, Active s.producers active ∧ InOrder maxSize (s.seenBy active) h

namespace SharedInOrder

variable {maxSize : ℕ} {s after : SharedQueue ι α} {h : SpscHistory α}

theorem create [Inhabited α] {bound : Word} (fits : bound.toNat < 2 ^ 64 - 1) :
    SharedInOrder bound.toNat (SharedQueue.create bound : SharedQueue ι α) .empty :=
  ⟨.idle, .nobody fun _ => rfl, InOrder.create fits⟩

theorem popped_prefix (order : SharedInOrder maxSize s h) : h.popped <+: h.accepted := by
  obtain ⟨active, -, inOrder⟩ := order
  exact inOrder.popped_prefix

/-- At most one thread is inside. -/
theorem unique (order : SharedInOrder maxSize s h) {thread other : ι}
    (inside : s.producers thread ≠ .idle) (otherInside : s.producers other ≠ .idle) :
    thread = other := by
  obtain ⟨active, one, -⟩ := order
  by_contra different
  exact inside ((one.eq otherInside).2 thread different)

/-- For the thread inside, the queue is in order. -/
theorem inside (order : SharedInOrder maxSize s h) {thread : ι}
    (inside : s.producers thread ≠ .idle) :
    InOrder maxSize (s.seenBy (s.producers thread)) h ∧
      ∀ other, other ≠ thread → s.producers other = .idle := by
  obtain ⟨active, one, inOrder⟩ := order
  obtain ⟨rfl, others⟩ := one.eq inside
  exact ⟨inOrder, others⟩

/-- The slot that a thread writes holds no unpopped value. -/
theorem writing_free (order : SharedInOrder maxSize s h) {thread : ι} {value : α} {head : Word}
    (writes : s.producers thread = .writing value head) {i : ℕ} (unpopped : h.popped.length ≤ i) :
    h.slots[i]? ≠ some head := by
  have inside : s.producers thread ≠ .idle := by
    rw [writes]
    exact nofun
  exact (order.inside inside).1.writing_free writes unpopped

/-- The popping thread takes a step. -/
theorem consume (order : SharedInOrder maxSize s h) {op : SpscOp α} {noted : SpscHistory α}
    (pops : op = .consumer ∨ ∃ headFirst, op = .pop headFirst)
    (kept : ∀ active next, InOrder maxSize (s.seenBy active) h →
      (s.seenBy active).step op = .ok next → InOrder maxSize next noted)
    (stepped : s.consume op = .ok after) : SharedInOrder maxSize after noted := by
  obtain ⟨active, one, inOrder⟩ := order
  rw [SharedQueue.consume] at stepped
  split at stepped
  · cases stepped
  · rename_i next succeeded
    obtain rfl := Except.ok.inj stepped
    exact ⟨active, one, kept active _ inOrder (Spsc.step_producer active pops succeeded)⟩

variable [DecidableEq ι]

/-- A thread that is alone takes a step. -/
theorem produce {thread : ι} {op : SpscOp α} {noted : SpscHistory α}
    (others : ∀ other, other ≠ thread → s.producers other = .idle)
    (pushes : op = .producer ∨ ∃ value, op = .push value)
    (kept : ∀ next, (s.seenBy (s.producers thread)).step op = .ok next → InOrder maxSize next noted)
    (stepped : s.produce thread op = .ok after) : SharedInOrder maxSize after noted := by
  rw [SharedQueue.produce] at stepped
  split at stepped
  · cases stepped
  · rename_i next succeeded
    obtain rfl := Except.ok.inj stepped
    refine ⟨next.producer, .alone thread (Function.update_self ..) ?_, ?_⟩
    · intro other different
      exact (Function.update_of_ne different ..).trans (others other different)
    · have same : next.consumer = s.consumer := Spsc.step_consumer pushes succeeded
      have inOrder := kept next succeeded
      rwa [SharedQueue.seenBy, ← same]

/-- **A step keeps the queue in order**, when no push is begun while a thread is inside. -/
theorem step (order : SharedInOrder maxSize s h) {op : SharedOp ι α} (alone : s.Alone op)
    (stepped : s.step op = .ok after) : SharedInOrder maxSize after (SharedQueue.note s op h) := by
  cases op with
  | push thread value =>
      refine produce (fun other _ => alone other) (.inr ⟨value, rfl⟩) ?_ stepped
      intro next succeeded
      obtain ⟨active, one, inOrder⟩ := order
      obtain rfl := one.idle alone
      rw [alone thread] at succeeded
      exact inOrder.step succeeded
  | producer thread =>
      have inside : s.producers thread ≠ .idle := by
        intro idle
        simp only [SharedQueue.step, SharedQueue.produce, idle] at stepped
        cases stepped
      obtain ⟨inOrder, others⟩ := order.inside inside
      exact produce others (.inl rfl) (fun next succeeded => inOrder.step succeeded) stepped
  | pop headFirst =>
      exact order.consume (.inr ⟨headFirst, rfl⟩)
        (fun _ _ inOrder succeeded => inOrder.step succeeded) stepped
  | consumer =>
      exact order.consume (.inl rfl) (fun _ _ inOrder succeeded => inOrder.step succeeded) stepped

end SharedInOrder

end Invariant

end Jasl
