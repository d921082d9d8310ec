import Jasl.Memory.SpscQueue

/-!
# The queue that waits

`SPSCQueue<T, false>`: instead of returning false, `push` waits on `m_not_full`
and `pop` on `m_not_empty`. Both call `wait(lock, pred)` with `m_mutex`: the
predicate is tested with the mutex held, and where it is false the mutex is given
up and the thread falls asleep in one step. `notify_one` wakes a thread that is
asleep and does nothing otherwise. The predicates load the two indices in two
steps, as `empty` and `full` do.

The store of an index and the `notify_one` behind it are made without the mutex,
so both may fall between a failed test and the sleep. Such a wake-up is lost
(`sleeps_past_the_push`). What is left is exact: a thread that only falls asleep
while there is a reason to is never left asleep (`no_wake_up_is_lost`).
-/

set_option autoImplicit false

namespace Jasl

open Library

universe u

/-! ## Waiting -/

/-- The two threads of a queue. -/
inductive Side where
  | producer
  | consumer
deriving DecidableEq, Repr

/-- Where a thread stands in `std::condition_variable::wait(lock, pred)`. -/
inductive WaitStage where
  /-- It locks `m_mutex`, first or after it was woken. -/
  | locking
  /-- It holds the mutex and is about to evaluate the predicate. -/
  | testing
  /-- The predicate has loaded `m_head` first. -/
  | loadedHead (head : Word)
  /-- The predicate has loaded `m_tail` first. -/
  | loadedTail (tail : Word)
  /-- The predicate was false. -/
  | failed
  /-- The mutex is given up. -/
  | asleep
  /-- The predicate was true, and the mutex is still held. -/
  | passed
deriving DecidableEq

/-- Where the pushing thread stands. -/
inductive BlockingProducer (α : Type u) where
  | idle
  /-- `push` has loaded `m_head`. -/
  | loadedHead (value : α) (head : Word)
  /-- The queue was full. -/
  | waiting (value : α) (head : Word) (stage : WaitStage)
  | writing (value : α) (head : Word)
  | storing (value : α) (head : Word)
  /-- `m_head` is stored, and `m_not_empty.notify_one` is next. -/
  | notifying

/-- Where the popping thread stands. -/
inductive BlockingConsumer (α : Type u) where
  | idle
  /-- `empty` has loaded `m_head` first. -/
  | loadedHead (head : Word)
  /-- `empty` has loaded `m_tail` first. -/
  | loadedTail (tail : Word)
  /-- The queue was empty. -/
  | waiting (stage : WaitStage)
  | nonEmpty
  | reading (tail : Word)
  | storing (tail : Word) (value : α)
  /-- `m_tail` is stored, and `m_not_full.notify_one` is next. -/
  | notifying

/-- A waiting queue with its two threads, and the thread that holds `m_mutex`. -/
structure Blocking (α : Type u) where
  queue : SpscQueue α
  mutex : Option Side
  producer : BlockingProducer α
  consumer : BlockingConsumer α

/-- A step of a thread. Where a predicate may load either index first, the step says which. -/
inductive BlockingOp (α : Type u) where
  | push (value : α)
  | producer
  | pop (headFirst : Bool)
  | consumer (headFirst : Bool)

/-- The next step of `wait(lock, pred)`, with what happens to the mutex. A thread that is asleep
does nothing by itself, and what follows `passed` is the caller's. -/
def WaitStage.step {α : Type u} (q : SpscQueue α) (mutex : Option Side) (side : Side)
    (pred : Word → Word → Bool) (headFirst : Bool) :
    WaitStage → Except OutOfTurn (WaitStage × Option Side)
  | .locking =>
      match mutex with
      | none => .ok (.testing, some side)
      | some _ => .error .outOfTurn
  | .testing => .ok (if headFirst then .loadedHead q.head else .loadedTail q.tail, mutex)
  | .loadedHead head => .ok (if pred head q.tail then .passed else .failed, mutex)
  | .loadedTail tail => .ok (if pred q.head tail then .passed else .failed, mutex)
  | .failed => .ok (.asleep, none)
  | .asleep => .error .outOfTurn
  | .passed => .error .outOfTurn

namespace Blocking

variable {α : Type u}

def create [Inhabited α] (maxSize : Word) : Blocking α := ⟨.create maxSize, none, .idle, .idle⟩

/-- `!full()`, for the indices loaded. -/
def notFull (q : SpscQueue α) (head tail : Word) : Bool := q.increment head != tail

/-- `!empty()`, for the indices loaded. -/
def notEmpty (head tail : Word) : Bool := head != tail

/-- `m_not_empty.notify_one`. -/
def wakeConsumer : BlockingConsumer α → BlockingConsumer α
  | .waiting .asleep => .waiting .locking
  | consumer => consumer

/-- `m_not_full.notify_one`. -/
def wakeProducer : BlockingProducer α → BlockingProducer α
  | .waiting value head .asleep => .waiting value head .locking
  | producer => producer

/-- The next step of `push`. -/
def producerStep (s : Blocking α) : Except OutOfTurn (Blocking α) :=
  match s.producer with
  | .idle => .error .outOfTurn
  | .loadedHead value head =>
      if s.queue.increment head = s.queue.tail then
        .ok { s with producer := .waiting value head .locking }
      else .ok { s with producer := .writing value head }
  | .waiting value head .passed => .ok { s with mutex := none, producer := .writing value head }
  | .waiting value head stage =>
      match stage.step s.queue s.mutex .producer (notFull s.queue) true with
      | .error failed => .error failed
      | .ok (stage, mutex) => .ok { s with mutex, producer := .waiting value head stage }
  | .writing value head => .ok
      { s with
        queue := { s.queue with data := Function.update s.queue.data head value }
        producer := .storing value head }
  | .storing _ head => .ok
      { s with
        queue := { s.queue with head := s.queue.increment head }
        producer := .notifying }
  | .notifying => .ok { s with producer := .idle, consumer := wakeConsumer s.consumer }

/-- The next step of `pop`. -/
def consumerStep (s : Blocking α) (headFirst : Bool) : Except OutOfTurn (Blocking α) :=
  match s.consumer with
  | .idle => .error .outOfTurn
  | .loadedHead head => .ok
      { s with consumer := if head = s.queue.tail then .waiting .locking else .nonEmpty }
  | .loadedTail tail => .ok
      { s with consumer := if s.queue.head = tail then .waiting .locking else .nonEmpty }
  | .waiting .passed => .ok { s with mutex := none, consumer := .nonEmpty }
  | .waiting stage =>
      match stage.step s.queue s.mutex .consumer notEmpty headFirst with
      | .error failed => .error failed
      | .ok (stage, mutex) => .ok { s with mutex, consumer := .waiting stage }
  | .nonEmpty => .ok { s with consumer := .reading s.queue.tail }
  | .reading tail => .ok { s with consumer := .storing tail (s.queue.data tail) }
  | .storing tail _ => .ok
      { s with
        queue := { s.queue with tail := s.queue.increment tail }
        consumer := .notifying }
  | .notifying => .ok { s with producer := wakeProducer s.producer, consumer := .idle }

def step (s : Blocking α) : BlockingOp α → Except OutOfTurn (Blocking α)
  | .push value =>
      match s.producer with
      | .idle => .ok { s with producer := .loadedHead value s.queue.head }
      | _ => .error .outOfTurn
  | .producer => s.producerStep
  | .pop headFirst =>
      match s.consumer with
      | .idle => .ok
          { s with
            consumer :=
              if headFirst then .loadedHead s.queue.head else .loadedTail s.queue.tail }
      | _ => .error .outOfTurn
  | .consumer headFirst => s.consumerStep headFirst

/-! ## Reasons to be asleep -/

end Blocking

section Places

variable {α : Type u}

/-- Where the thread stands in `wait`, if it waits. -/
def BlockingProducer.stage : BlockingProducer α → Option WaitStage
  | .waiting _ _ stage => some stage
  | _ => none

/-- The thread is between its store of `m_head` and its `notify_one`. -/
def BlockingProducer.notifies : BlockingProducer α → Bool
  | .notifying => true
  | _ => false

/-- Where the thread stands in `wait`, if it waits. -/
def BlockingConsumer.stage : BlockingConsumer α → Option WaitStage
  | .waiting stage => some stage
  | _ => none

/-- The thread is between its store of `m_tail` and its `notify_one`. -/
def BlockingConsumer.notifies : BlockingConsumer α → Bool
  | .notifying => true
  | _ => false

end Places

namespace Blocking

variable {α : Type u} {s after : Blocking α}

/-- There is a reason for the popping thread to sleep: there is nothing to pop, or its wake-up is on
the way. -/
def PopMaySleep (s : Blocking α) : Prop :=
  s.queue.head = s.queue.tail ∨ s.producer.notifies = true

/-- There is a reason for the pushing thread to sleep: there is no room, or its wake-up is on the
way. -/
def PushMaySleep (s : Blocking α) : Prop :=
  s.queue.increment s.queue.head = s.queue.tail ∨ s.consumer.notifies = true

/-- No wake-up is lost: a thread that is asleep has a reason to be. -/
structure NoneLost (s : Blocking α) : Prop where
  pop : s.consumer.stage = some .asleep → s.PopMaySleep
  push : s.producer.stage = some .asleep → s.PushMaySleep

/-- The thread that steps does not fall asleep without a reason: where its predicate was false, it
still is, or the wake-up is yet to come. -/
def SleepsInTime (s : Blocking α) : BlockingOp α → Prop
  | .producer => s.producer.stage = some .failed → s.PushMaySleep
  | .consumer _ => s.consumer.stage = some .failed → s.PopMaySleep
  | _ => True

instance (s : Blocking α) : Decidable s.PopMaySleep := inferInstanceAs (Decidable (_ ∨ _))

instance (s : Blocking α) : Decidable s.PushMaySleep := inferInstanceAs (Decidable (_ ∨ _))

instance (s : Blocking α) : (op : BlockingOp α) → Decidable (s.SleepsInTime op)
  | .producer => inferInstanceAs (Decidable (s.producer.stage = some .failed → s.PushMaySleep))
  | .consumer _ => inferInstanceAs (Decidable (s.consumer.stage = some .failed → s.PopMaySleep))
  | .push _ | .pop _ => inferInstanceAs (Decidable True)

/-! ## Steps -/

/-- A thread falls asleep only where its predicate was false. -/
theorem failed_of_asleep {q : SpscQueue α} {mutex last : Option Side} {side : Side}
    {pred : Word → Word → Bool} {headFirst : Bool} {stage : WaitStage}
    (stepped : stage.step q mutex side pred headFirst = .ok (.asleep, last)) : stage = .failed := by
  cases stage with
  | failed => rfl
  | locking => cases mutex <;> cases stepped
  | testing => cases headFirst <;> cases stepped
  | loadedHead head =>
      simp only [WaitStage.step] at stepped
      split at stepped <;> cases stepped
  | loadedTail tail =>
      simp only [WaitStage.step] at stepped
      split at stepped <;> cases stepped
  | asleep => cases stepped
  | passed => cases stepped

/-- A step of `wait`: the thread falls asleep and gives up the mutex, or it stays awake. -/
theorem wait_cases {q : SpscQueue α} {mutex last : Option Side} {side : Side}
    {pred : Word → Word → Bool} {headFirst : Bool} {stage next : WaitStage}
    (stepped : stage.step q mutex side pred headFirst = .ok (next, last)) :
    (stage = .failed ∧ next = .asleep ∧ last = none) ∨ (stage ≠ .failed ∧ next ≠ .asleep) := by
  by_cases failed : stage = .failed
  · subst failed
    obtain ⟨rfl, rfl⟩ := Prod.mk.inj (Except.ok.inj stepped)
    exact .inl ⟨rfl, rfl, rfl⟩
  · refine .inr ⟨failed, ?_⟩
    rintro rfl
    exact failed (failed_of_asleep stepped)

/-- What a step of `push` does to the places that matter. -/
inductive PushStep (s : Blocking α) : Blocking α → Prop where
  /-- The thread moves on, and stays awake. -/
  | moves {mutex : Option Side} {data : Word → α} {producer : BlockingProducer α}
      (quiet : s.producer.notifies = false) (succeeds : s.producer.stage ≠ some .failed)
      (awake : producer.stage ≠ some .asleep) :
      PushStep s { s with queue := { s.queue with data }, mutex, producer }
  | sleeps {value : α} {head : Word} (failed : s.producer = .waiting value head .failed) :
      PushStep s { s with mutex := none, producer := .waiting value head .asleep }
  | publishes {value : α} {head : Word} (stores : s.producer = .storing value head) :
      PushStep s
        { s with
          queue := { s.queue with head := s.queue.increment head }
          producer := .notifying }
  | notifies (notifying : s.producer = .notifying) :
      PushStep s { s with producer := .idle, consumer := wakeConsumer s.consumer }

theorem producerStep_effect (stepped : s.producerStep = .ok after) : s.PushStep after := by
  obtain ⟨q, mutex, producer, consumer⟩ := s
  cases producer with
  | idle => cases stepped
  | loadedHead value head =>
      simp only [producerStep] at stepped
      split at stepped
      · obtain rfl := Except.ok.inj stepped
        exact .moves rfl nofun nofun
      · obtain rfl := Except.ok.inj stepped
        exact .moves rfl nofun nofun
  | waiting value head stage =>
      by_cases passed : stage = .passed
      · subst passed
        obtain rfl := Except.ok.inj stepped
        exact .moves rfl nofun nofun
      · simp only [producerStep] at stepped
        split at stepped
        · cases stepped
        · rename_i next last moved
          obtain rfl := Except.ok.inj stepped
          rcases wait_cases moved with ⟨rfl, rfl, rfl⟩ | ⟨succeeds, awake⟩
          · exact .sleeps rfl
          · exact .moves rfl (succeeds ∘ Option.some.inj) (awake ∘ Option.some.inj)
  | writing value head =>
      obtain rfl := Except.ok.inj stepped
      exact .moves rfl nofun nofun
  | storing value head =>
      obtain rfl := Except.ok.inj stepped
      exact .publishes rfl
  | notifying =>
      obtain rfl := Except.ok.inj stepped
      exact .notifies rfl

/-- What a step of `pop` does to the places that matter. -/
inductive PopStep (s : Blocking α) : Blocking α → Prop where
  /-- The thread moves on, and stays awake. -/
  | moves {mutex : Option Side} {consumer : BlockingConsumer α}
      (quiet : s.consumer.notifies = false) (succeeds : s.consumer.stage ≠ some .failed)
      (awake : consumer.stage ≠ some .asleep) :
      PopStep s { s with mutex, consumer }
  | sleeps (failed : s.consumer = .waiting .failed) :
      PopStep s { s with mutex := none, consumer := .waiting .asleep }
  | takes {tail : Word} {value : α} (stores : s.consumer = .storing tail value) :
      PopStep s
        { s with
          queue := { s.queue with tail := s.queue.increment tail }
          consumer := .notifying }
  | notifies (notifying : s.consumer = .notifying) :
      PopStep s { s with producer := wakeProducer s.producer, consumer := .idle }

theorem consumerStep_effect {headFirst : Bool} (stepped : s.consumerStep headFirst = .ok after) :
    s.PopStep after := by
  obtain ⟨q, mutex, producer, consumer⟩ := s
  cases consumer with
  | idle => cases stepped
  | loadedHead head =>
      obtain rfl := Except.ok.inj stepped
      refine .moves rfl nofun ?_
      split <;> exact nofun
  | loadedTail tail =>
      obtain rfl := Except.ok.inj stepped
      refine .moves rfl nofun ?_
      split <;> exact nofun
  | waiting stage =>
      by_cases passed : stage = .passed
      · subst passed
        obtain rfl := Except.ok.inj stepped
        exact .moves rfl nofun nofun
      · simp only [consumerStep] at stepped
        split at stepped
        · cases stepped
        · rename_i next last moved
          obtain rfl := Except.ok.inj stepped
          rcases wait_cases moved with ⟨rfl, rfl, rfl⟩ | ⟨succeeds, awake⟩
          · exact .sleeps rfl
          · exact .moves rfl (succeeds ∘ Option.some.inj) (awake ∘ Option.some.inj)
  | nonEmpty =>
      obtain rfl := Except.ok.inj stepped
      exact .moves rfl nofun nofun
  | reading tail =>
      obtain rfl := Except.ok.inj stepped
      exact .moves rfl nofun nofun
  | storing tail value =>
      obtain rfl := Except.ok.inj stepped
      exact .takes rfl
  | notifying =>
      obtain rfl := Except.ok.inj stepped
      exact .notifies rfl

/-- `notify_one` leaves nobody asleep. -/
theorem stage_wakeConsumer (consumer : BlockingConsumer α) :
    (wakeConsumer consumer).stage ≠ some .asleep := by
  cases consumer with
  | waiting stage => cases stage <;> exact nofun
  | _ => exact nofun

theorem stage_wakeProducer (producer : BlockingProducer α) :
    (wakeProducer producer).stage ≠ some .asleep := by
  cases producer with
  | waiting value head stage => cases stage <;> exact nofun
  | _ => exact nofun

namespace NoneLost

theorem create [Inhabited α] (maxSize : Word) : NoneLost (Blocking.create maxSize : Blocking α) where
  pop := nofun
  push := nofun

/-- A step of `push` loses no wake-up exactly when the thread does not fall asleep too late. -/
theorem producerStep (kept : s.NoneLost) (stepped : s.producerStep = .ok after) :
    after.NoneLost ↔ s.SleepsInTime .producer := by
  cases producerStep_effect stepped with
  | moves quiet succeeds awake =>
      refine iff_of_true ⟨?_, fun asleep => absurd asleep awake⟩ fun failed => absurd failed succeeds
      intro asleep
      refine .inl ((kept.pop asleep).resolve_right ?_)
      rw [quiet]
      exact nofun
  | sleeps failed =>
      have stands : s.producer.stage = some .failed := by
        rw [failed]
        rfl
      have quiet : s.producer.notifies = false := by
        rw [failed]
        rfl
      constructor
      · exact fun keeps _ => keeps.push rfl
      · intro inTime
        refine ⟨?_, fun _ => inTime stands⟩
        intro asleep
        refine .inl ((kept.pop asleep).resolve_right ?_)
        rw [quiet]
        exact nofun
  | publishes stores =>
      refine iff_of_true ⟨fun _ => .inr rfl, nofun⟩ ?_
      intro failed
      rw [stores] at failed
      cases failed
  | notifies notifying =>
      refine iff_of_true ⟨fun asleep => absurd asleep (stage_wakeConsumer _), nofun⟩ ?_
      intro failed
      rw [notifying] at failed
      cases failed

/-- A step of `pop` loses no wake-up exactly when the thread does not fall asleep too late. -/
theorem consumerStep (kept : s.NoneLost) {headFirst : Bool}
    (stepped : s.consumerStep headFirst = .ok after) :
    after.NoneLost ↔ s.SleepsInTime (.consumer headFirst) := by
  cases consumerStep_effect stepped with
  | moves quiet succeeds awake =>
      refine iff_of_true ⟨fun asleep => absurd asleep awake, ?_⟩ fun failed => absurd failed succeeds
      intro asleep
      refine .inl ((kept.push asleep).resolve_right ?_)
      rw [quiet]
      exact nofun
  | sleeps failed =>
      have stands : s.consumer.stage = some .failed := by
        rw [failed]
        rfl
      have quiet : s.consumer.notifies = false := by
        rw [failed]
        rfl
      constructor
      · exact fun keeps _ => keeps.pop rfl
      · intro inTime
        refine ⟨fun _ => inTime stands, ?_⟩
        intro asleep
        refine .inl ((kept.push asleep).resolve_right ?_)
        rw [quiet]
        exact nofun
  | takes stores =>
      refine iff_of_true ⟨nofun, fun _ => .inr rfl⟩ ?_
      intro failed
      rw [stores] at failed
      cases failed
  | notifies notifying =>
      refine iff_of_true ⟨nofun, fun asleep => absurd asleep (stage_wakeProducer _)⟩ ?_
      intro failed
      rw [notifying] at failed
      cases failed

/-- **A step loses no wake-up exactly when its thread does not fall asleep too late.** -/
theorem step (kept : s.NoneLost) {op : BlockingOp α} (stepped : s.step op = .ok after) :
    after.NoneLost ↔ s.SleepsInTime op := by
  cases op with
  | push value =>
      obtain ⟨q, mutex, producer, consumer⟩ := s
      cases producer with
      | idle =>
          obtain rfl := Except.ok.inj stepped
          exact iff_of_true ⟨fun asleep => .inl ((kept.pop asleep).resolve_right nofun), nofun⟩ trivial
      | _ => cases stepped
  | producer => exact kept.producerStep stepped
  | pop headFirst =>
      obtain ⟨q, mutex, producer, consumer⟩ := s
      cases consumer with
      | idle =>
          obtain rfl := Except.ok.inj stepped
          refine iff_of_true ⟨?_, fun asleep => .inl ((kept.push asleep).resolve_right nofun)⟩ trivial
          cases headFirst <;> exact nofun
      | _ => cases stepped
  | consumer headFirst => exact kept.consumerStep stepped

end NoneLost

end Blocking

/-- **No wake-up is lost** in the runs whose threads do not fall asleep too late: a thread that is
asleep waits for something that is not there, or its wake-up is on the way. A further step keeps
that if and only if its thread does not fall asleep too late. -/
theorem no_wake_up_is_lost {α : Type u} [Inhabited α] {maxSize : Word} {ops : List (BlockingOp α)}
    {s : Blocking α} (run : Run Blocking.step Blocking.SleepsInTime (.create maxSize) ops s) :
    s.NoneLost ∧ ∀ op after, s.step op = .ok after → (after.NoneLost ↔ s.SleepsInTime op) := by
  have kept : s.NoneLost := by
    apply run.invariant Blocking.NoneLost (.create maxSize)
    intro before op after held inTime stepped
    exact (held.step stepped).mpr inTime
  exact ⟨kept, fun op after => kept.step⟩

/-- The popping thread falls asleep, and is woken by a push. -/
def wokenOps : List (BlockingOp ℕ) :=
  [.pop true, .consumer true, .consumer true, .consumer true, .consumer true, .consumer true,
    .push 1, .producer, .producer, .producer]

def wokenQueue : Blocking ℕ :=
  (checkedRun Blocking.step Blocking.SleepsInTime (.create 2) wokenOps).get (by decide +kernel)

theorem no_wake_up_is_lost_woken :
    wokenQueue.consumer.stage = some .asleep ∧ wokenQueue.queue.head ≠ wokenQueue.queue.tail ∧
      wokenQueue.NoneLost :=
  ⟨by decide +kernel, by decide +kernel, (no_wake_up_is_lost (Run.of_isSome _)).1⟩

/-- The predicate of `pop` is false, a value is pushed and its `notify_one` finds nobody asleep, and
the thread falls asleep. -/
def lateSleepOps : List (BlockingOp ℕ) :=
  [.pop true, .consumer true, .consumer true, .consumer true, .consumer true,
    .push 1, .producer, .producer, .producer, .producer, .consumer true]

def lateSleeper : Blocking ℕ :=
  (checkedRun Blocking.step (fun _ _ => True) (.create 2) lateSleepOps).get (by decide +kernel)

/-- It sleeps beside a value. -/
theorem sleeps_past_the_push :
    ¬ ∀ (maxSize : Word) (ops : List (BlockingOp ℕ)) (s : Blocking ℕ),
      Run Blocking.step (fun _ _ => True) (.create maxSize) ops s → s.NoneLost := by
  intro claim
  have asleep : lateSleeper.consumer.stage = some .asleep := by decide +kernel
  exact absurd ((claim 2 _ lateSleeper (Run.of_isSome _)).pop asleep) (by decide +kernel)

end Jasl
