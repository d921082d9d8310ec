import Jasl.Library.Rotation
import Jasl.Thread.ThreadPool

/-!
# A call of `add_task` that nobody disturbs

`add_task` as one function: while no other thread touches the queues, each `push` is one
step, and the loop asks one worker after the other, from `m_next_worker` on. It is asking
around a ring (`Rotation`), so the task is placed if and only if a queue has room
(`add_task_places_iff_room`), and the steps that the calling thread takes in the
machine of all threads come to the same (`addTask_alone`).
-/

set_option autoImplicit false

namespace Jasl

open Library

universe u v

/-! ## The queue -/

namespace SpscQueue

variable {α : Type u} (q : SpscQueue α)

/-- `SPSCQueue::full`. -/
def full : Bool := q.increment q.head = q.tail

/-- `SPSCQueue::push`. -/
def push (value : α) : SpscQueue α × Bool :=
  if q.increment q.head = q.tail then (q, false)
  else
    ({ q with data := Function.update q.data q.head value, head := q.increment q.head }, true)

/-- The indices are slots of the ring, which has one slot more than the queue has room for. -/
structure Ring : Prop where
  sized : 1 < q.size.toNat
  head_lt : q.head.toNat < q.size.toNat
  tail_lt : q.tail.toNat < q.size.toNat

/-- The number of values between the indices. -/
def waiting : ℕ := (q.head.toNat + (q.size.toNat - q.tail.toNat)) % q.size.toNat

/-- The slot of one of them. -/
def slot (i : ℕ) : Word := BitVec.ofNat 64 ((q.tail.toNat + i) % q.size.toNat)

/-- The values that are not popped, the oldest one first. -/
def contents : List α := (List.range q.waiting).map fun i => q.data (q.slot i)

variable {q} {value : α}

theorem full_eq_true : q.full = true ↔ q.increment q.head = q.tail := decide_eq_true_iff

theorem full_eq_false : q.full = false ↔ q.increment q.head ≠ q.tail := decide_eq_false_iff_not

theorem push_of_full (isFull : q.full = true) : q.push value = (q, false) :=
  if_pos (full_eq_true.mp isFull)

theorem push_of_room (room : q.full = false) : q.push value =
    ({ q with data := Function.update q.data q.head value, head := q.increment q.head }, true) :=
  if_neg (full_eq_false.mp room)

namespace Ring

variable (ring : q.Ring)
include ring

theorem increment_toNat {index : Word} (below : index.toNat < q.size.toNat) :
    (q.increment index).toNat = (index.toNat + 1) % q.size.toNat := by
  have isSlot : IsSlot q.size.toNat index index.toNat := (Nat.mod_eq_of_lt below).symm
  exact isSlot.next rfl (Nat.lt_trans Nat.zero_lt_one ring.sized)

theorem slot_toNat (i : ℕ) : (q.slot i).toNat = (q.tail.toNat + i) % q.size.toNat := by
  have below := Nat.mod_lt (q.tail.toNat + i) (Nat.lt_trans Nat.zero_lt_one ring.sized)
  have fits := q.size.isLt
  rw [slot, BitVec.toNat_ofNat, Nat.mod_eq_of_lt (by omega)]

/-- How many values wait, without a wrap and with one. -/
theorem waiting_cases : q.tail.toNat ≤ q.head.toNat ∧ q.waiting = q.head.toNat - q.tail.toNat ∨
    q.head.toNat < q.tail.toNat ∧
      q.waiting = q.head.toNat + (q.size.toNat - q.tail.toNat) := by
  have head_lt := ring.head_lt
  have tail_lt := ring.tail_lt
  rcases Nat.lt_or_ge q.head.toNat q.tail.toNat with wraps | ordered
  · refine .inr ⟨wraps, ?_⟩
    rw [waiting, Nat.mod_eq_of_lt (by omega)]
  · refine .inl ⟨ordered, ?_⟩
    rw [waiting, show q.head.toNat + (q.size.toNat - q.tail.toNat) =
      q.head.toNat - q.tail.toNat + q.size.toNat by omega, Nat.add_mod_right,
      Nat.mod_eq_of_lt (by omega)]

theorem waiting_lt : q.waiting < q.size.toNat :=
  Nat.mod_lt _ (Nat.lt_trans Nat.zero_lt_one ring.sized)

/-- The slot behind the values is the one at the head. -/
theorem slot_waiting : q.slot q.waiting = q.head := by
  have head_lt := ring.head_lt
  have tail_lt := ring.tail_lt
  apply BitVec.eq_of_toNat_eq
  rw [ring.slot_toNat]
  rcases ring.waiting_cases with ⟨ordered, count⟩ | ⟨wraps, count⟩
  · rw [count, Nat.add_sub_cancel' ordered, Nat.mod_eq_of_lt head_lt]
  · rw [count, show q.tail.toNat + (q.head.toNat + (q.size.toNat - q.tail.toNat)) =
      q.head.toNat + q.size.toNat by omega, Nat.add_mod_right, Nat.mod_eq_of_lt head_lt]

/-- No value stands in it. -/
theorem slot_ne_head {i : ℕ} (below : i < q.waiting) : q.slot i ≠ q.head := by
  rw [← ring.slot_waiting]
  intro same
  have first : IsSlot q.size.toNat (q.slot i) (q.tail.toNat + i) := ring.slot_toNat i
  have second : IsSlot q.size.toNat (q.slot i) (q.tail.toNat + q.waiting) := by
    rw [same]
    exact ring.slot_toNat q.waiting
  have count := ring.waiting_lt
  have positions := first.position_eq second (by omega) (by omega)
  omega

/-- A queue is full when all slots but one are taken. -/
theorem full_iff : q.full = true ↔ q.waiting + 1 = q.size.toNat := by
  have head_lt := ring.head_lt
  have tail_lt := ring.tail_lt
  have sized := ring.sized
  rw [full_eq_true, ← BitVec.toNat_inj, ring.increment_toNat head_lt]
  rcases Nat.lt_or_ge (q.head.toNat + 1) q.size.toNat with inside | last
  · rw [Nat.mod_eq_of_lt inside]
    rcases ring.waiting_cases with ⟨ordered, count⟩ | ⟨wraps, count⟩ <;> omega
  · have around : q.head.toNat + 1 = q.size.toNat := by omega
    rw [around, Nat.mod_self]
    rcases ring.waiting_cases with ⟨ordered, count⟩ | ⟨wraps, count⟩ <;> omega

theorem push (value : α) : (q.push value).1.Ring := by
  cases isFull : q.full with
  | true =>
      rw [push_of_full isFull]
      exact ring
  | false =>
      rw [push_of_room isFull]
      refine ⟨ring.sized, ?_, ring.tail_lt⟩
      change (q.increment q.head).toNat < q.size.toNat
      rw [ring.increment_toNat ring.head_lt]
      exact Nat.mod_lt _ (Nat.lt_trans Nat.zero_lt_one ring.sized)

/-- What is pushed stands behind what waits. -/
theorem push_contents (room : q.full = false) (value : α) :
    (q.push value).1.contents = q.contents ++ [value] := by
  have after := ring.push value
  have notFull : q.waiting + 1 ≠ q.size.toNat := fun full => by
    rw [ring.full_iff.mpr full] at room
    cases room
  have count := ring.waiting_lt
  rw [push_of_room room] at after ⊢
  have more : waiting { q with data := Function.update q.data q.head value,
                               head := q.increment q.head } = q.waiting + 1 := by
    rw [waiting, ring.increment_toNat ring.head_lt, Nat.mod_add_mod,
      show q.head.toNat + 1 + (q.size.toNat - q.tail.toNat) =
        q.head.toNat + (q.size.toNat - q.tail.toNat) + 1 by omega, Nat.add_mod, ← waiting,
      Nat.mod_eq_of_lt ring.sized, Nat.mod_eq_of_lt (by omega)]
  rw [contents, more, List.range_succ, List.map_append, List.map_singleton]
  congr 1
  · refine List.map_congr_left fun i below => ?_
    exact Function.update_of_ne (ring.slot_ne_head (List.mem_range.mp below)) _ _
  · change [Function.update q.data q.head value (q.slot q.waiting)] = [value]
    rw [ring.slot_waiting, Function.update_self]

end Ring

end SpscQueue

namespace InOrder

variable {α : Type u} {maxSize : ℕ} {s : Spsc α} {h : SpscHistory α}

/-- The indices of a queue in use are slots. -/
theorem ring (order : InOrder maxSize s h) (positive : 0 < maxSize) : s.queue.Ring where
  sized := by
    rw [order.sized]
    omega
  head_lt := by
    rw [order.sized, order.head]
    exact Nat.mod_lt _ (Nat.succ_pos maxSize)
  tail_lt := by
    rw [order.sized, order.tail]
    exact Nat.mod_lt _ (Nat.succ_pos maxSize)

theorem waiting (order : InOrder maxSize s h) (positive : 0 < maxSize) :
    s.queue.waiting = h.unpopped := by
  have ring := order.ring positive
  have popped := order.popped_le
  have room := order.room
  have count := ring.waiting_lt
  have slot : IsSlot (maxSize + 1) s.queue.head (h.popped.length + s.queue.waiting) := by
    have here := ring.slot_toNat s.queue.waiting
    rw [ring.slot_waiting, order.sized, order.tail, Nat.mod_add_mod] at here
    exact here
  rw [order.sized] at count
  rw [SpscHistory.unpopped]
  rcases Nat.le_total (h.popped.length + s.queue.waiting) h.published.length with less | more
  · have same := slot.position_eq order.head less (by omega)
    omega
  · have same := order.head.position_eq slot more (by omega)
    omega

/-- What waits in a queue in use is what was published and not popped. -/
theorem contents (order : InOrder maxSize s h) (positive : 0 < maxSize) :
    s.queue.contents = h.published.drop h.popped.length := by
  have ring := order.ring positive
  refine List.ext_getElem? fun i => ?_
  rw [SpscQueue.contents, List.getElem?_map, order.waiting positive, SpscHistory.unpopped,
    List.getElem?_drop]
  rcases Nat.lt_or_ge i (h.published.length - h.popped.length) with below | above
  · have inside : h.popped.length + i < h.published.length := by omega
    have isSlot : IsSlot (maxSize + 1) (s.queue.slot i) (h.popped.length + i) := by
      rw [IsSlot, ring.slot_toNat, order.sized, order.tail, Nat.mod_add_mod]
    have value := order.stored (h.popped.length + i) _ _ (Nat.le_add_right _ _)
      (List.getElem?_eq_getElem inside) isSlot
    rw [List.getElem?_range below, Option.map_some, value, List.getElem?_eq_getElem inside]
  · rw [List.getElem?_eq_none (by rw [List.length_range]; exact above),
      List.getElem?_eq_none (by omega), Option.map_none]

end InOrder

/-! ## The pool -/

/-- `Worker::add`. -/
def Worker.add {ι : Type v} {τ : Type u} (w : Worker ι τ) (task : τ) : Worker ι τ × Bool :=
  let (queue, result) := w.tasks.queue.push (.task task)
  ({ w with tasks := { w.tasks with queue } }, result)

namespace ThreadPool

variable {ι : Type u}

/-- A round of the loop of `add_task`: the body, the test in it and the one behind it. -/
def addTaskRound (call : ℕ) (workerId : Word) (pool : ThreadPool ι) :
    ThreadPool ι ⊕ ThreadPool ι × Bool :=
  let (worker, result) := (pool.workers pool.nextWorker).add call
  let nextWorker := pool.getNextWorkerId pool.nextWorker
  let pool := { pool with
    workers := Function.update pool.workers pool.nextWorker worker
    nextWorker := nextWorker }
  if nextWorker = workerId then .inr (pool, result)
  else if result then .inr (pool, result)
  else .inl pool

/-- `ThreadPool::add_task`, behind the lock, for at most so many attempts. -/
def addTask (attempts : ℕ) (pool : ThreadPool ι) (call : ℕ) : Option (ThreadPool ι × Bool) :=
  iterate (addTaskRound call pool.nextWorker) attempts pool

/-- The queue of a worker. -/
def queue (pool : ThreadPool ι) (id : Word) : SpscQueue (Request ℕ) :=
  (pool.workers id).tasks.queue

/-- The worker that many places behind `m_next_worker`, in cyclic order. -/
def workerAfter (pool : ThreadPool ι) (steps : ℕ) : Word :=
  BitVec.ofNat 64 ((pool.nextWorker.toNat + steps) % pool.nOfThreads.toNat)

/-! ### The ring of workers -/

section Ring

variable {pool : ThreadPool ι}

theorem workerAfter_toNat (positive : 0 < pool.nOfThreads.toNat) (steps : ℕ) :
    (pool.workerAfter steps).toNat =
      (pool.nextWorker.toNat + steps) % pool.nOfThreads.toNat := by
  have below := Nat.mod_lt (pool.nextWorker.toNat + steps) positive
  have fits := pool.nOfThreads.isLt
  rw [workerAfter, BitVec.toNat_ofNat, Nat.mod_eq_of_lt (by omega)]

theorem workerAfter_lt (positive : 0 < pool.nOfThreads.toNat) (steps : ℕ) :
    pool.workerAfter steps < pool.nOfThreads := by
  rw [← BitVec.toNat_lt_toNat, workerAfter_toNat positive]
  exact Nat.mod_lt _ positive

theorem workerAfter_zero (below : pool.nextWorker < pool.nOfThreads) :
    pool.workerAfter 0 = pool.nextWorker := by
  rw [← BitVec.toNat_lt_toNat] at below
  apply BitVec.eq_of_toNat_eq
  rw [workerAfter_toNat (by omega), Nat.add_zero, Nat.mod_eq_of_lt below]

theorem getNextWorkerId_workerAfter (positive : 0 < pool.nOfThreads.toNat) (steps : ℕ) :
    pool.getNextWorkerId (pool.workerAfter steps) = pool.workerAfter (steps + 1) := by
  have isSlot : IsSlot pool.nOfThreads.toNat (pool.workerAfter steps)
    (pool.nextWorker.toNat + steps) := workerAfter_toNat positive steps
  exact (isSlot.next rfl positive).unique (workerAfter_toNat positive (steps + 1))

/-- Going on is going around the ring. -/
theorem iterate_getNextWorkerId (below : pool.nextWorker < pool.nOfThreads) (steps : ℕ) :
    pool.getNextWorkerId^[steps] pool.nextWorker = pool.workerAfter steps := by
  have positive : 0 < pool.nOfThreads.toNat := by
    rw [← BitVec.toNat_lt_toNat] at below
    omega
  induction steps with
  | zero => exact (workerAfter_zero below).symm
  | succ steps ih =>
      rw [Function.iterate_succ_apply', ih, getNextWorkerId_workerAfter positive]

/-- It comes back after as many steps as there are workers. -/
theorem minimalPeriod_getNextWorkerId (below : pool.nextWorker < pool.nOfThreads) :
    Function.minimalPeriod pool.getNextWorkerId pool.nextWorker = pool.nOfThreads.toNat := by
  have bound : pool.nextWorker.toNat < pool.nOfThreads.toNat := BitVec.toNat_lt_toNat.mpr below
  have positive : 0 < pool.nOfThreads.toNat := by omega
  have back (steps : ℕ) :
      pool.getNextWorkerId^[steps] pool.nextWorker = pool.nextWorker ↔
        (pool.nextWorker.toNat + steps) % pool.nOfThreads.toNat = pool.nextWorker.toNat := by
    rw [iterate_getNextWorkerId below, ← BitVec.toNat_inj, workerAfter_toNat positive]
  have around : Function.IsPeriodicPt pool.getNextWorkerId pool.nOfThreads.toNat
      pool.nextWorker := by
    refine (back _).mpr ?_
    rw [Nat.add_mod_right, Nat.mod_eq_of_lt bound]
  refine le_antisymm (around.minimalPeriod_le positive) ?_
  by_contra less
  have some_ := around.minimalPeriod_pos positive
  have returned := (back _).mp Function.iterate_minimalPeriod
  have same : IsSlot pool.nOfThreads.toNat pool.nextWorker pool.nextWorker.toNat :=
    (Nat.mod_eq_of_lt bound).symm
  have again : IsSlot pool.nOfThreads.toNat pool.nextWorker (pool.nextWorker.toNat +
    Function.minimalPeriod pool.getNextWorkerId pool.nextWorker) := returned.symm
  have positions := same.position_eq again (Nat.le_add_right _ _) (by omega)
  omega

/-- The workers as the cells of the ring. -/
def rotation (pool : ThreadPool ι) : Rotation Word (Worker (PoolThread ι) ℕ) :=
  ⟨pool.workers, pool.nextWorker⟩

/-- The pool with other workers and another one next. -/
def withRotation (pool : ThreadPool ι) (r : Rotation Word (Worker (PoolThread ι) ℕ)) :
    ThreadPool ι :=
  { pool with workers := r.cells, nextWorker := r.next }

/-- A worker accepts a task when its queue is not full. -/
def offer (call : ℕ) (w : Worker (PoolThread ι) ℕ) : Option (Worker (PoolThread ι) ℕ) :=
  if w.tasks.queue.full then none else some (w.add call).1

theorem offer_eq_none {call : ℕ} {w : Worker (PoolThread ι) ℕ} :
    offer call w = none ↔ w.tasks.queue.full = true := by
  rw [offer]
  split
  · rename_i isFull
    exact iff_of_true rfl isFull
  · rename_i room
    exact iff_of_false (by simp) room

theorem offer_eq_some {call : ℕ} {w after : Worker (PoolThread ι) ℕ} :
    offer call w = some after ↔ w.tasks.queue.full = false ∧ (w.add call).1 = after := by
  rw [offer]
  split
  · rename_i isFull
    simp [isFull]
  · rename_i room
    simp [room]

theorem add_of_full {call : ℕ} {w : Worker (PoolThread ι) ℕ} (isFull : w.tasks.queue.full = true) :
    w.add call = (w, false) := by
  rw [Worker.add, SpscQueue.push_of_full isFull]

theorem add_of_room {call : ℕ} {w : Worker (PoolThread ι) ℕ} (room : w.tasks.queue.full = false) :
    (w.add call).2 = true := by
  rw [Worker.add, SpscQueue.push_of_room room]

theorem addTaskRound_of_full {call : ℕ} {workerId : Word}
    (isFull : (pool.queue pool.nextWorker).full = true) :
    addTaskRound call workerId pool =
      if pool.getNextWorkerId pool.nextWorker = workerId then
        .inr ({ pool with nextWorker := pool.getNextWorkerId pool.nextWorker }, false)
      else .inl { pool with nextWorker := pool.getNextWorkerId pool.nextWorker } := by
  have added : (pool.workers pool.nextWorker).add call = (pool.workers pool.nextWorker, false) :=
    add_of_full isFull
  rw [addTaskRound, added]
  dsimp only
  rw [Function.update_eq_self]
  rfl

/-- Whether or not the worker is the last one, the loop ends with it. -/
theorem addTaskRound_of_room {call : ℕ} {workerId : Word}
    (room : (pool.queue pool.nextWorker).full = false) :
    addTaskRound call workerId pool =
      .inr ({ pool with
        workers := Function.update pool.workers pool.nextWorker
          ((pool.workers pool.nextWorker).add call).1
        nextWorker := pool.getNextWorkerId pool.nextWorker }, true) := by
  have added : ((pool.workers pool.nextWorker).add call).2 = true := add_of_room room
  rw [addTaskRound]
  dsimp only
  rw [added, if_pos rfl, ite_self]

/-- A round that is not the last one leaves all threads where they stand. -/
theorem addTaskRound_keeps {call : ℕ} {workerId : Word} {next : ThreadPool ι}
    (turn : addTaskRound call workerId pool = .inl next) :
    next.callers = pool.callers ∧ next.destruction = pool.destruction ∧
      ∀ id, (next.workers id).tasks.producers = (pool.workers id).tasks.producers := by
  cases isFull : (pool.queue pool.nextWorker).full with
  | true =>
      rw [addTaskRound_of_full isFull] at turn
      split_ifs at turn
      obtain rfl := Sum.inl.inj turn
      exact ⟨rfl, rfl, fun _ => rfl⟩
  | false =>
      rw [addTaskRound_of_room isFull] at turn
      cases turn

/-- A round asks one worker. -/
theorem addTaskRound_eq (pool : ThreadPool ι) (call : ℕ) (workerId : Word)
    (r : Rotation Word (Worker (PoolThread ι) ℕ)) :
    addTaskRound call workerId (pool.withRotation r) =
      (Rotation.ask pool.getNextWorkerId (offer call) workerId r).map pool.withRotation
        (Prod.map pool.withRotation id) := by
  have next : (pool.withRotation r).getNextWorkerId (pool.withRotation r).nextWorker =
    pool.getNextWorkerId r.next := rfl
  rw [Rotation.ask]
  cases isFull : (r.cells r.next).tasks.queue.full with
  | true =>
      have asked : ((pool.withRotation r).queue (pool.withRotation r).nextWorker).full = true :=
        isFull
      rw [offer_eq_none.mpr isFull, addTaskRound_of_full asked, next]
      dsimp only
      split_ifs <;> rfl
  | false =>
      have asked : ((pool.withRotation r).queue (pool.withRotation r).nextWorker).full = false :=
        isFull
      rw [offer_eq_some.mpr ⟨isFull, rfl⟩, addTaskRound_of_room asked]
      rfl

end Ring

/-! ### Where a task is placed -/

/-- The task stands in the first queue with room, that many places behind the worker that was
next. -/
structure Placed (pool : ThreadPool ι) (call steps : ℕ) (after : ThreadPool ι) : Prop where
  below : steps < pool.nOfThreads.toNat
  refused : ∀ earlier < steps, (pool.queue (pool.workerAfter earlier)).full = true
  room : (pool.queue (pool.workerAfter steps)).full = false
  appended : (after.queue (pool.workerAfter steps)).contents =
    (pool.queue (pool.workerAfter steps)).contents ++ [.task call]
  others : ∀ id, id ≠ pool.workerAfter steps → after.workers id = pool.workers id
  next : after.nextWorker = pool.getNextWorkerId (pool.workerAfter steps)
  rest : after = { pool with workers := after.workers, nextWorker := after.nextWorker }

/-- Every worker is that many places behind the next one. -/
theorem exists_workerAfter {pool : ThreadPool ι} (below : pool.nextWorker < pool.nOfThreads)
    {id : Word} (inside : id < pool.nOfThreads) :
    ∃ steps < pool.nOfThreads.toNat, pool.workerAfter steps = id := by
  rw [← BitVec.toNat_lt_toNat] at below inside
  rcases Nat.lt_or_ge id.toNat pool.nextWorker.toNat with before | behind
  · refine ⟨id.toNat + (pool.nOfThreads.toNat - pool.nextWorker.toNat), by omega, ?_⟩
    apply BitVec.eq_of_toNat_eq
    rw [workerAfter_toNat (by omega), show pool.nextWorker.toNat +
      (id.toNat + (pool.nOfThreads.toNat - pool.nextWorker.toNat)) =
        id.toNat + pool.nOfThreads.toNat by omega, Nat.add_mod_right, Nat.mod_eq_of_lt inside]
  · refine ⟨id.toNat - pool.nextWorker.toNat, by omega, ?_⟩
    apply BitVec.eq_of_toNat_eq
    rw [workerAfter_toNat (by omega), Nat.add_sub_cancel' behind, Nat.mod_eq_of_lt inside]

theorem placed_of_asked {pool : ThreadPool ι} {call steps : ℕ}
    (below : pool.nextWorker < pool.nOfThreads)
    (rings : ∀ id < pool.nOfThreads, (pool.queue id).Ring) (less : steps < pool.nOfThreads.toNat)
    (refused : ∀ earlier < steps,
      (pool.queue (pool.getNextWorkerId^[earlier] pool.nextWorker)).full = true)
    (room : (pool.queue (pool.getNextWorkerId^[steps] pool.nextWorker)).full = false) :
    pool.Placed call steps (pool.withRotation ⟨Function.update pool.workers
      (pool.getNextWorkerId^[steps] pool.nextWorker)
      ((pool.workers (pool.getNextWorkerId^[steps] pool.nextWorker)).add call).1,
      pool.getNextWorkerId (pool.getNextWorkerId^[steps] pool.nextWorker)⟩) := by
  rw [iterate_getNextWorkerId below] at room ⊢
  have ring := rings _ (workerAfter_lt (Nat.zero_lt_of_lt less) steps)
  exact {
    below := less
    refused := fun earlier sooner => by
      rw [← iterate_getNextWorkerId below]
      exact refused earlier sooner
    room := room
    appended := by
      change (Function.update pool.workers (pool.workerAfter steps)
        ((pool.workers (pool.workerAfter steps)).add call).1
        (pool.workerAfter steps)).tasks.queue.contents = _
      rw [Function.update_self]
      exact ring.push_contents room _
    others := fun id other => Function.update_of_ne other _ _
    next := rfl
    rest := rfl }

/-- **A task is placed if and only if there is room**, after one attempt at most for each worker. -/
theorem add_task_places_iff_room (pool : ThreadPool ι) (call : ℕ)
    (below : pool.nextWorker < pool.nOfThreads)
    (rings : ∀ id < pool.nOfThreads, (pool.queue id).Ring) :
    ∃ after result, pool.addTask pool.nOfThreads.toNat call = some (after, result) ∧
      (result = true ↔ ∃ id < pool.nOfThreads, (pool.queue id).full = false) ∧
      (result = true → ∃ steps, pool.Placed call steps after) ∧
      (result = false → after = pool) := by
  have bound : pool.nextWorker.toNat < pool.nOfThreads.toNat := BitVec.toNat_lt_toNat.mpr below
  have positive : 0 < pool.nOfThreads.toNat := by omega
  have around : ∃ result, iterate (Rotation.ask pool.getNextWorkerId (offer call)
      pool.rotation.next) pool.nOfThreads.toNat pool.rotation = some result ∧
      Rotation.Asked pool.getNextWorkerId (offer call) pool.nOfThreads.toNat pool.rotation result :=
    Rotation.exists_asked (minimalPeriod_getNextWorkerId below) positive
  obtain ⟨⟨r, result⟩, ended, asked⟩ := around
  have added : pool.addTask pool.nOfThreads.toNat call =
      some (pool.withRotation r, result) := by
    have same := iterate_map (addTaskRound_eq pool call pool.nextWorker)
      pool.nOfThreads.toNat pool.rotation
    change pool.addTask pool.nOfThreads.toNat call = _ at same
    rw [same]
    exact congrArg (Option.map _) ended
  refine ⟨_, _, added, ?_⟩
  cases asked with
  | accepted steps cell less refused accepts =>
      obtain ⟨room, rfl⟩ := offer_eq_some.mp accepts
      refine ⟨iff_of_true rfl ⟨_, workerAfter_lt positive steps, ?_⟩, fun _ => ⟨steps, ?_⟩,
        fun same => absurd same (by decide)⟩
      · rw [← iterate_getNextWorkerId below]
        exact room
      · exact placed_of_asked below rings less (fun earlier sooner =>
          offer_eq_none.mp (refused earlier sooner)) room
  | refused all =>
      refine ⟨iff_of_false Bool.false_ne_true ?_, fun same => absurd same (by decide),
        fun _ => rfl⟩
      rintro ⟨id, inside, room⟩
      obtain ⟨steps, less, rfl⟩ := exists_workerAfter below inside
      have isFull := offer_eq_none.mp (all steps less)
      change (pool.queue (pool.getNextWorkerId^[steps] pool.nextWorker)).full = true at isFull
      rw [iterate_getNextWorkerId below, room] at isFull
      cases isFull

/-- The worker that is asked first has a task in its queue, which has room for one. -/
def halfFullPool : ThreadPool Unit :=
  { create 2 1 0 with
    workers := Function.update (create 2 1 0).workers 0 (((create 2 1 0).workers 0).add 3).1 }

theorem add_task_places_iff_room_half :
    (halfFullPool.queue 0).full = true ∧ ∃ after steps,
      halfFullPool.addTask 2 7 = some (after, true) ∧ halfFullPool.Placed 7 steps after ∧
        steps ≠ 0 := by
  have rings : ∀ id < halfFullPool.nOfThreads, (halfFullPool.queue id).Ring := by
    intro id _
    by_cases first : id = 0
    · subst first
      exact ⟨by decide, by decide, by decide⟩
    · have other : halfFullPool.workers id = (create 2 1 0 : ThreadPool Unit).workers id :=
        Function.update_of_ne first _ _
      rw [queue, other]
      exact ⟨(by decide : 1 < (2 : Word).toNat), (by decide : 0 < (2 : Word).toNat),
        (by decide : 0 < (2 : Word).toNat)⟩
  have isFull : (halfFullPool.queue 0).full = true := by decide
  obtain ⟨after, result, added, room, placed, -⟩ :=
    add_task_places_iff_room halfFullPool 7 (by decide) rings
  obtain rfl := room.mpr ⟨1, by decide, by decide⟩
  obtain ⟨steps, place⟩ := placed rfl
  refine ⟨isFull, after, steps, added, place, ?_⟩
  rintro rfl
  have same : halfFullPool.workerAfter 0 = 0 := by decide
  have empty := place.room
  rw [same, isFull] at empty
  cases empty

end ThreadPool

/-! ## Among all threads -/

namespace Worker

variable {ι : Type v} {τ : Type u} [DecidableEq ι]

/-- A thread stands there in `push`, with this queue. -/
def pushing (w : Worker ι τ) (thread : ι) (queue : SpscQueue (Request τ))
    (producer : Producer (Request τ)) : Worker ι τ :=
  { w with
    tasks := { w.tasks with
      queue := queue
      producers := Function.update w.tasks.producers thread producer } }

variable {w : Worker ι τ} {thread : ι} {queue : SpscQueue (Request τ)}
  {producer : Producer (Request τ)}

@[simp] theorem pushing_producer :
    (w.pushing thread queue producer).tasks.producers thread = producer :=
  Function.update_self _ _ _

theorem pushing_idle (outside : w.tasks.producers thread = .idle) :
    w.pushing thread queue .idle = { w with tasks := { w.tasks with queue } } := by
  rw [pushing, ← outside, Function.update_eq_self]

theorem step_push_of_idle (request : Request τ) (outside : w.tasks.producers thread = .idle) :
    w.step (.push thread request) =
      .ok (w.pushing thread w.tasks.queue (.loadedHead request w.tasks.queue.head)) := by
  simp only [step, pushStep, SharedQueue.step, SharedQueue.produce, outside,
    SharedQueue.seenBy, Spsc.step]
  rfl

theorem step_pushing (thread : ι) {after : SpscQueue (Request τ)} {next : Producer (Request τ)}
    (moved : (⟨queue, producer, w.tasks.consumer⟩ : Spsc (Request τ)).producerStep =
      .ok ⟨after, next, w.tasks.consumer⟩) :
    (w.pushing thread queue producer).step (.producer thread) =
      .ok (w.pushing thread after next) := by
  have seen : (w.pushing thread queue producer).tasks.seenBy producer =
    ⟨queue, producer, w.tasks.consumer⟩ := rfl
  simp only [step, pushStep, SharedQueue.step, SharedQueue.produce, pushing_producer, seen,
    Spsc.step, moved]
  simp only [pushing, Function.update_idem]

end Worker

namespace ThreadPool

variable {ι : Type u} [DecidableEq ι] {pool : ThreadPool ι} {caller : Caller ι} {call : ℕ}
  {workerId : Word} {queue after : SpscQueue (Request ℕ)} {producer next : Producer (Request ℕ)}

/-- A run in which only one caller takes steps. -/
abbrev RunsAlone (caller : Caller ι) (pool : ThreadPool ι) (ops : List (PoolOp ι))
    (after : ThreadPool ι) : Prop :=
  Run step (fun _ op => op = .caller caller) pool ops after

/-- The caller is inside `add` of the next worker, which has this queue. -/
def addingAt (pool : ThreadPool ι) (caller : Caller ι) (call : ℕ) (workerId : Word)
    (queue : SpscQueue (Request ℕ)) (producer : Producer (Request ℕ)) : ThreadPool ι :=
  (pool.setWorker pool.nextWorker
    ((pool.workers pool.nextWorker).pushing (.caller caller) queue producer)).setCaller caller
      (.adding call workerId)

/-- A step of `push` of the next worker's queue. -/
abbrev QueueStep (pool : ThreadPool ι) (queue : SpscQueue (Request ℕ))
    (producer : Producer (Request ℕ)) (after : SpscQueue (Request ℕ))
    (next : Producer (Request ℕ)) : Prop :=
  (⟨queue, producer, (pool.workers pool.nextWorker).tasks.consumer⟩ :
      Spsc (Request ℕ)).producerStep =
    .ok ⟨after, next, (pool.workers pool.nextWorker).tasks.consumer⟩

/-- The caller begins the body of the loop. -/
theorem runsAlone_enter (usable : pool.destruction.joins = false)
    (stage : pool.callers caller = .looping call workerId)
    (outside : (pool.workers pool.nextWorker).tasks.producers (.caller caller) = .idle) :
    RunsAlone caller pool [.caller caller]
      (pool.addingAt caller call workerId (pool.queue pool.nextWorker)
        (.loadedHead (.task call) (pool.queue pool.nextWorker).head)) := by
  have entered := Worker.step_push_of_idle (.task call) outside
  refine .single rfl ?_
  rw [step_caller usable]
  simp only [callerStep, stage, onWorker, entered]
  rfl

/-- It goes on in `push`. -/
theorem runsAlone_push (usable : pool.destruction.joins = false)
    (moved : pool.QueueStep queue producer after next)
    (inside : next.inside = true) :
    RunsAlone caller (pool.addingAt caller call workerId queue producer) [.caller caller]
      (pool.addingAt caller call workerId after next) := by
  have stepped := Worker.step_pushing (.caller caller) moved
  have still : (pool.addingAt caller call workerId queue producer).destruction.joins = false :=
    usable
  refine .single rfl ?_
  rw [step_caller still]
  simp only [callerStep, addingAt, setCaller, onWorker, Function.update_self, stepped,
    Worker.pushing_producer, inside, if_true, Function.update_idem]

/-- It comes back from `push`. -/
theorem runsAlone_leave (usable : pool.destruction.joins = false)
    (outside : (pool.workers pool.nextWorker).tasks.producers (.caller caller) = .idle)
    (moved : pool.QueueStep queue producer after .idle) :
    RunsAlone caller (pool.addingAt caller call workerId queue producer) [.caller caller]
      ((pool.setWorker pool.nextWorker
        { pool.workers pool.nextWorker with
          tasks := { (pool.workers pool.nextWorker).tasks with queue := after } }).added
        caller call workerId producer.result) := by
  have stepped := Worker.step_pushing (.caller caller) moved
  rw [Worker.pushing_idle outside] at stepped
  have still : (pool.addingAt caller call workerId queue producer).destruction.joins = false :=
    usable
  refine .single rfl ?_
  rw [step_caller still]
  simp only [callerStep, addingAt, setCaller, onWorker, Function.update_self, stepped,
    Worker.pushing_producer, outside, Producer.inside, Bool.false_eq_true, if_false,
    Function.update_idem, added]
  rfl

/-- Where the caller stands after a round. -/
def afterRound (caller : Caller ι) (call : ℕ) (workerId : Word) :
    ThreadPool ι ⊕ ThreadPool ι × Bool → ThreadPool ι
  | .inl pool => pool.setCaller caller (.looping call workerId)
  | .inr (pool, result) => pool.setCaller caller (.unlocking call result)

theorem added_of_full (isFull : (pool.queue pool.nextWorker).full = true) :
    pool.added caller call workerId false =
      afterRound caller call workerId (addTaskRound call workerId pool) := by
  rw [addTaskRound_of_full isFull, added]
  simp only [Bool.false_eq_true, if_false]
  split_ifs <;> rfl

theorem added_of_room (room : (pool.queue pool.nextWorker).full = false) :
    (pool.setWorker pool.nextWorker ((pool.workers pool.nextWorker).add call).1).added caller call
        workerId true =
      afterRound caller call workerId (addTaskRound call workerId pool) := by
  rw [addTaskRound_of_room room, added]
  dsimp only
  rw [if_pos rfl, ite_self]
  rfl

/-- A round of the loop is two steps of the caller, or four. -/
theorem runsAlone_round (usable : pool.destruction.joins = false)
    (stage : pool.callers caller = .looping call workerId)
    (outside : (pool.workers pool.nextWorker).tasks.producers (.caller caller) = .idle) :
    ∃ ops, RunsAlone caller pool ops (afterRound caller call workerId
      (addTaskRound call workerId pool)) := by
  have entered := runsAlone_enter usable stage outside
  set q := pool.queue pool.nextWorker with here
  cases isFull : q.full with
  | true =>
      have refused : pool.QueueStep q (.loadedHead (.task call) q.head) q .idle :=
        if_pos (SpscQueue.full_eq_true.mp isFull)
      have same : pool.setWorker pool.nextWorker (pool.workers pool.nextWorker) = pool := by
        rw [setWorker, Function.update_eq_self]
      have left : RunsAlone caller pool _
          ((pool.setWorker pool.nextWorker (pool.workers pool.nextWorker)).added caller call
            workerId false) := entered.append (runsAlone_leave usable outside refused)
      rw [same, added_of_full isFull] at left
      exact ⟨_, left⟩
  | false =>
      have accepted : pool.QueueStep q (.loadedHead (.task call) q.head) q
          (.writing (.task call) q.head) := if_neg (SpscQueue.full_eq_false.mp isFull)
      have wrote : pool.QueueStep q (.writing (.task call) q.head)
          { q with data := Function.update q.data q.head (.task call) }
          (.storing (.task call) q.head) := rfl
      have stored : pool.QueueStep { q with data := Function.update q.data q.head (.task call) }
          (.storing (.task call) q.head)
          { q with
            data := Function.update q.data q.head (.task call)
            head := q.increment q.head } .idle := rfl
      have left := ((entered.append (runsAlone_push usable accepted rfl)).append
        (runsAlone_push usable wrote rfl)).append (runsAlone_leave usable outside stored)
      have pushed : (pool.workers pool.nextWorker).tasks.queue.push (.task call) = _ :=
        SpscQueue.push_of_room isFull
      refine ⟨_, Eq.subst ?_ left⟩
      rw [← added_of_room isFull, Worker.add, pushed]
      rfl

/-- **A caller that nobody disturbs comes to what `add_task` returns.** -/
theorem addTask_alone {attempts : ℕ} {after : ThreadPool ι} {result : Bool}
    (usable : pool.destruction.joins = false)
    (stage : pool.callers caller = .looping call pool.nextWorker)
    (outside : ∀ id, (pool.workers id).tasks.producers (.caller caller) = .idle)
    (added : pool.addTask attempts call = some (after, result)) :
    ∃ ops, RunsAlone caller pool ops (after.setCaller caller (.unlocking call result)) := by
  rw [addTask] at added
  generalize pool.nextWorker = first at stage added
  induction attempts generalizing pool with
  | zero => cases added
  | succ attempts ih =>
      obtain ⟨ops, round⟩ := runsAlone_round usable stage (outside _)
      rw [iterate] at added
      cases turn : addTaskRound call first pool with
      | inl next =>
          obtain ⟨callers, destruction, producers⟩ := addTaskRound_keeps turn
          have same : next.setCaller caller (.looping call first) = next := by
            rw [setCaller, ← stage, ← callers, Function.update_eq_self]
          rw [turn] at added round
          rw [afterRound, same] at round
          obtain ⟨more, rest⟩ := ih (by rw [destruction, usable])
            (fun id => by rw [producers, outside]) (by rw [callers, stage]) added
          exact ⟨_, round.append rest⟩
      | inr ended =>
          rw [turn] at added round
          obtain rfl := Option.some.inj added
          exact ⟨ops, round⟩

end ThreadPool

end Jasl
