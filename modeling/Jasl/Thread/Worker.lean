import Jasl.Memory.SharedQueue

/-!
# A worker and its loop

`Worker`: a thread that pops tasks from its queue and runs them, until `m_done` is
set. `add` pushes a task, and `stop` pushes a request of its own, `stop_`, that
sets `m_done` when the loop runs it. Both are calls of `SPSCQueue::push`, and the
queue is the shared one: what the worker's users have to see to is that nobody
begins a push while another thread is inside (`Worker.Alone`).

The loop is a machine beside the queue's: a pop is several steps, and running a
task is open until the task returns or throws. What was begun and what was
finished is noted (`WorkerHistory`); with the order of the queue this is the order
in which requests were accepted (`Working`).
-/

set_option autoImplicit false

namespace Jasl

open Library

universe u v

/-- What stands in a worker's queue: a task, or `stop_`. -/
inductive Request (τ : Type u) where
  | task (task : τ)
  | stop
deriving DecidableEq, Repr

instance {τ : Type u} [Inhabited τ] : Inhabited (Request τ) := ⟨.task default⟩

/-- Where `Worker::run` stands. -/
inductive WorkerLoop (τ : Type u) where
  /-- Before the test of `m_done`. -/
  | testing
  | popping
  /-- `pop` was true, and the loop calls `func`. -/
  | running (request : Request τ)
  /-- `pop` was false. -/
  | sleeping
  | ended
deriving DecidableEq, Repr

/-- How a call of `func` ends; `threw` is a `std::exception`, which the loop catches. -/
inductive CallResult where
  | returned
  | threw
deriving DecidableEq, Repr

/-- `Worker`, with the threads that push and its own. -/
structure Worker (ι : Type v) (τ : Type u) where
  tasks : SharedQueue ι (Request τ)
  loop : WorkerLoop τ
  done : Bool

/-- A step of a thread inside `add` or `stop`, or of the loop. -/
inductive WorkerOp (ι : Type v) (τ : Type u) where
  /-- `add` of a task, or `stop`. -/
  | push (thread : ι) (request : Request τ)
  | producer (thread : ι)
  | loop (headFirst : Bool)
  /-- `func` comes to its end. -/
  | finish (result : CallResult)

/-- What a thread inside `push` pushes. -/
def Producer.value {α : Type u} : Producer α → Option α
  | .idle => none
  | .loadedHead value _ => some value
  | .writing value _ => some value
  | .storing value _ => some value

theorem Producer.value_eq_none {α : Type u} {producer : Producer α} :
    producer.value = none ↔ producer = .idle := by
  cases producer <;> simp [Producer.value]

/-- The request that the loop runs. -/
def WorkerLoop.current {τ : Type u} : WorkerLoop τ → List (Request τ)
  | .running request => [request]
  | _ => []

/-- Where the loop stands after a step inside `pop`. -/
def WorkerLoop.afterPop {τ : Type u} (before after : Consumer (Request τ)) : WorkerLoop τ :=
  match after, before with
  | .idle, .storing _ request => .running request
  | .idle, _ => .sleeping
  | _, _ => .popping

namespace Worker

variable {ι : Type v} {τ : Type u}

/-- `Worker::create`. -/
def create [Inhabited τ] (taskQueueSize : Word) : Worker ι τ :=
  ⟨.create taskQueueSize, .testing, false⟩

/-- A push is begun while no thread is inside. -/
def Alone (w : Worker ι τ) : WorkerOp ι τ → Prop
  | .push _ _ => ∀ thread, w.tasks.producers thread = .idle
  | _ => True

/-- `func` comes to its end: `stop_` sets `m_done` and does not throw. -/
def finish (w : Worker ι τ) (result : CallResult) : Except OutOfTurn (Worker ι τ) :=
  match w.loop, result with
  | .running .stop, .returned => .ok { w with loop := .testing, done := true }
  | .running (.task _), _ => .ok { w with loop := .testing }
  | _, _ => .error .outOfTurn

variable [DecidableEq ι]

/-- The next step of `Worker::run`. -/
def loopStep (w : Worker ι τ) (headFirst : Bool) : Except OutOfTurn (Worker ι τ) :=
  match w.loop with
  | .testing =>
      if w.done then .ok { w with loop := .ended }
      else
        match w.tasks.step (.pop headFirst) with
        | .error failed => .error failed
        | .ok tasks => .ok { w with tasks, loop := .popping }
  | .popping =>
      match w.tasks.step .consumer with
      | .error failed => .error failed
      | .ok tasks => .ok
          { w with tasks, loop := .afterPop w.tasks.consumer tasks.consumer }
  | .sleeping => .ok { w with loop := .testing }
  | .running _ => .error .outOfTurn
  | .ended => .error .outOfTurn

/-- A step inside `add` or `stop`. -/
def pushStep (w : Worker ι τ) (op : SharedOp ι (Request τ)) : Except OutOfTurn (Worker ι τ) :=
  match w.tasks.step op with
  | .error failed => .error failed
  | .ok tasks => .ok { w with tasks }

def step (w : Worker ι τ) : WorkerOp ι τ → Except OutOfTurn (Worker ι τ)
  | .push thread request => w.pushStep (.push thread request)
  | .producer thread => w.pushStep (.producer thread)
  | .loop headFirst => w.loopStep headFirst
  | .finish result => w.finish result

end Worker

/-! ## The history -/

/-- What happened to a worker. -/
structure WorkerHistory (τ : Type u) where
  queue : SpscHistory (Request τ)
  /-- The requests for which the loop called `func`. -/
  started : List (Request τ)
  /-- Those for which the call came to its end. -/
  finished : List (Request τ)

namespace WorkerHistory

variable {ι : Type v} {τ : Type u}

def empty : WorkerHistory τ := ⟨.empty, [], []⟩

/-- What a step of the loop adds. -/
def noteLoop (before : Worker ι τ) (headFirst : Bool) (after : Worker ι τ) (h : WorkerHistory τ) :
    WorkerHistory τ :=
  match before.loop with
  | .testing =>
      if before.done then h
      else { h with queue := SharedQueue.note before.tasks (.pop headFirst) h.queue }
  | .popping =>
      { h with
        queue := SharedQueue.note before.tasks .consumer h.queue
        started := h.started ++ after.loop.current }
  | _ => h

def note (before : Worker ι τ) (op : WorkerOp ι τ) (after : Worker ι τ) (h : WorkerHistory τ) :
    WorkerHistory τ :=
  match op with
  | .push _ _ => h
  | .producer thread =>
      { h with queue := SharedQueue.note before.tasks (.producer thread) h.queue }
  | .loop headFirst => noteLoop before headFirst after h
  | .finish _ => { h with finished := h.finished ++ before.loop.current }

end WorkerHistory

/-! ## Steps -/

namespace Worker

variable {ι : Type v} {τ : Type u} {w after : Worker ι τ}

/-- The ends of a call of `func`. -/
theorem finish_cases {result : CallResult} (stepped : w.finish result = .ok after) :
    (w.loop = .running .stop ∧ after = { w with loop := .testing, done := true }) ∨
      ∃ task, w.loop = .running (.task task) ∧ after = { w with loop := .testing } := by
  unfold finish at stepped
  split at stepped
  · rename_i place
    exact .inl ⟨place, (Except.ok.inj stepped).symm⟩
  · rename_i task place
    exact .inr ⟨task, place, (Except.ok.inj stepped).symm⟩
  · cases stepped

theorem finish_producers {result : CallResult} (stepped : w.finish result = .ok after) :
    after.tasks.producers = w.tasks.producers := by
  rcases finish_cases stepped with ⟨-, rfl⟩ | ⟨task, -, rfl⟩ <;> rfl

variable [DecidableEq ι]

/-- A step inside `add` or `stop` is one of the queue. -/
theorem pushStep_eq_ok {op : SharedOp ι (Request τ)} :
    w.pushStep op = .ok after ↔
      ∃ tasks, w.tasks.step op = .ok tasks ∧ after = { w with tasks } := by
  rw [pushStep]
  cases w.tasks.step op with
  | error failed => simp
  | ok tasks => simp [eq_comm]

/-- `add` and `stop` are begun by a thread that is outside. -/
theorem step_push {thread : ι} {request : Request τ}
    (stepped : w.step (.push thread request) = .ok after) :
    w.tasks.producers thread = .idle ∧
      after.tasks.producers = Function.update w.tasks.producers thread
        (.loadedHead request w.tasks.queue.head) := by
  obtain ⟨tasks, moved, rfl⟩ := pushStep_eq_ok.mp stepped
  obtain ⟨idle, rfl⟩ := SharedQueue.step_push moved
  exact ⟨idle, rfl⟩

/-- A step inside `add` or `stop` moves its thread, with its request. -/
theorem step_producer {thread : ι} (stepped : w.step (.producer thread) = .ok after) :
    w.tasks.producers thread ≠ .idle ∧ ∃ producer,
      after.tasks.producers = Function.update w.tasks.producers thread producer ∧
      (producer = .idle ∨ producer.value = (w.tasks.producers thread).value) := by
  obtain ⟨tasks, moved, rfl⟩ := pushStep_eq_ok.mp stepped
  obtain ⟨producer, producers, -, move⟩ := SharedQueue.step_producer .empty moved
  generalize SharedQueue.note w.tasks (.producer thread) .empty = noted at move
  generalize place : w.tasks.producers thread = before at move
  refine ⟨?_, producer, producers, ?_⟩
  · cases move <;> exact nofun
  · cases move
    · exact .inl rfl
    · exact .inr rfl
    · exact .inr rfl
    · exact .inl rfl

/-- The steps of the loop. -/
inductive LoopMove (w : Worker ι τ) (headFirst : Bool) (h : WorkerHistory τ) :
    Worker ι τ → WorkerHistory τ → Prop where
  | ends (testing : w.loop = .testing) (done : w.done = true) :
      LoopMove w headFirst h { w with loop := .ended } h
  | begins {tasks : SharedQueue ι (Request τ)} (testing : w.loop = .testing)
      (notDone : w.done = false) (popped : w.tasks.step (.pop headFirst) = .ok tasks) :
      LoopMove w headFirst h { w with tasks, loop := .popping }
        { h with queue := SharedQueue.note w.tasks (.pop headFirst) h.queue }
  | pops {tasks : SharedQueue ι (Request τ)} (popping : w.loop = .popping)
      (popped : w.tasks.step .consumer = .ok tasks) :
      LoopMove w headFirst h
        { w with tasks, loop := .afterPop w.tasks.consumer tasks.consumer }
        { h with
          queue := SharedQueue.note w.tasks .consumer h.queue
          started :=
            h.started ++ (WorkerLoop.afterPop w.tasks.consumer tasks.consumer).current }
  | wakes (sleeping : w.loop = .sleeping) : LoopMove w headFirst h { w with loop := .testing } h

theorem loopStep_cases {headFirst : Bool} (h : WorkerHistory τ)
    (stepped : w.loopStep headFirst = .ok after) :
    LoopMove w headFirst h after (WorkerHistory.noteLoop w headFirst after h) := by
  cases place : w.loop with
  | testing =>
      simp only [loopStep, place] at stepped
      simp only [WorkerHistory.noteLoop, place]
      by_cases done : w.done = true
      · rw [if_pos done] at stepped ⊢
        obtain rfl := Except.ok.inj stepped
        exact .ends place done
      · rw [if_neg done] at stepped ⊢
        split at stepped
        · cases stepped
        · rename_i tasks popped
          obtain rfl := Except.ok.inj stepped
          exact .begins place (Bool.not_eq_true _ ▸ done) popped
  | popping =>
      simp only [loopStep, place] at stepped
      simp only [WorkerHistory.noteLoop, place]
      split at stepped
      · cases stepped
      · rename_i tasks popped
        obtain rfl := Except.ok.inj stepped
        exact .pops place popped
  | sleeping =>
      simp only [loopStep, place] at stepped
      simp only [WorkerHistory.noteLoop, place]
      obtain rfl := Except.ok.inj stepped
      exact .wakes place
  | running request =>
      simp only [loopStep, place] at stepped
      cases stepped
  | ended =>
      simp only [loopStep, place] at stepped
      cases stepped

/-- The loop moves no thread that pushes. -/
theorem loopStep_producers {headFirst : Bool} (stepped : w.loopStep headFirst = .ok after) :
    after.tasks.producers = w.tasks.producers := by
  have move := loopStep_cases .empty stepped
  generalize WorkerHistory.noteLoop w headFirst after .empty = noted at move
  cases move with
  | ends => rfl
  | begins _ _ popped => exact SharedQueue.step_producers (.inr ⟨headFirst, rfl⟩) popped
  | pops _ popped => exact SharedQueue.step_producers (.inl rfl) popped
  | wakes => rfl

end Worker

/-! ## What holds in every state -/

section Invariant

variable {ι : Type v} {τ : Type u} {maxSize : ℕ}

/-- A worker whose queue is in order runs what it has popped, and is done after `stop_`. -/
structure Working (maxSize : ℕ) (w : Worker ι τ) (h : WorkerHistory τ) : Prop where
  order : SharedInOrder maxSize w.tasks h.queue
  popping : w.loop = .popping ↔ w.tasks.consumer ≠ .idle
  started : h.started = h.queue.popped
  finished : h.started = h.finished ++ w.loop.current
  done : w.done = true ↔ Request.stop ∈ h.finished
  leaves : w.done = true → w.loop = .testing ∨ w.loop = .ended
  ended : w.loop = .ended → w.done = true

namespace Working

variable {w after : Worker ι τ} {h : WorkerHistory τ}

theorem create [Inhabited τ] {size : Word} (fits : size.toNat < 2 ^ 64 - 1) :
    Working size.toNat (.create size : Worker ι τ) .empty where
  order := .create fits
  popping := iff_of_false nofun fun inside => inside rfl
  started := rfl
  finished := rfl
  done := iff_of_false nofun nofun
  leaves := nofun
  ended := nofun

/-- Requests are run in the order in which they were accepted. -/
theorem started_initial (working : Working maxSize w h) : h.started <+: h.queue.accepted := by
  rw [working.started]
  exact working.order.popped_prefix

theorem finished_initial (working : Working maxSize w h) : h.finished <+: h.started := by
  rw [working.finished]
  exact List.prefix_append _ _

theorem finish (working : Working maxSize w h) {result : CallResult}
    (stepped : w.finish result = .ok after) :
    Working maxSize after { h with finished := h.finished ++ w.loop.current } := by
  have all := working.finished
  have idle : ∀ {request}, w.loop = .running request → ¬ w.tasks.consumer ≠ .idle :=
    fun running => mt working.popping.mpr (by rw [running]; exact nofun)
  rcases Worker.finish_cases stepped with ⟨running, rfl⟩ | ⟨task, running, rfl⟩
  · exact { working with
      popping := iff_of_false nofun (idle running)
      finished := all.trans (List.append_nil _).symm
      done := by simp [running, WorkerLoop.current]
      leaves := fun _ => .inl rfl
      ended := nofun }
  · exact { working with
      popping := iff_of_false nofun (idle running)
      finished := all.trans (List.append_nil _).symm
      done := by
        rw [working.done]
        simp [running, WorkerLoop.current]
      leaves := fun _ => .inl rfl
      ended := nofun }

variable [DecidableEq ι]

/-- What the loop runs after a step inside `pop` is what was popped. -/
theorem current_afterPop {q next : SpscQueue (Request τ)} {noted before : SpscHistory (Request τ)}
    {first last : Consumer (Request τ)} (move : ConsumerMove q before first next last noted) :
    noted.popped = before.popped ++ (WorkerLoop.afterPop first last).current ∧
      (WorkerLoop.afterPop first last = .popping ↔ last ≠ .idle) ∧
      WorkerLoop.afterPop first last ≠ .ended := by
  cases move <;> simp [WorkerLoop.afterPop, WorkerLoop.current]

/-- A step inside `add` or `stop` leaves the loop alone. -/
theorem pushStep (working : Working maxSize w h) {op : SharedOp ι (Request τ)}
    (pushes : (∃ thread, op = .producer thread) ∨ ∃ thread request, op = .push thread request)
    (alone : w.tasks.Alone op) (stepped : w.pushStep op = .ok after) :
    Working maxSize after { h with queue := SharedQueue.note w.tasks op h.queue } := by
  obtain ⟨tasks, moved, rfl⟩ := Worker.pushStep_eq_ok.mp stepped
  have order := working.order.step alone moved
  have kept : tasks.consumer = w.tasks.consumer ∧
      (SharedQueue.note w.tasks op h.queue).popped = h.queue.popped := by
    rcases pushes with ⟨thread, rfl⟩ | ⟨thread, request, rfl⟩
    · obtain ⟨producer, -, consumer, move⟩ := SharedQueue.step_producer h.queue moved
      refine ⟨consumer, ?_⟩
      generalize SharedQueue.note w.tasks (.producer thread) h.queue = noted at move
      generalize w.tasks.producers thread = before at move
      cases move <;> rfl
    · obtain ⟨-, rfl⟩ := SharedQueue.step_push moved
      exact ⟨rfl, rfl⟩
  exact { working with
    order := order
    popping := by
      rw [kept.1]
      exact working.popping
    started := working.started.trans kept.2.symm }

theorem loopStep (working : Working maxSize w h) {headFirst : Bool}
    (stepped : w.loopStep headFirst = .ok after) :
    Working maxSize after (WorkerHistory.noteLoop w headFirst after h) := by
  have move := Worker.loopStep_cases h stepped
  generalize WorkerHistory.noteLoop w headFirst after h = noted at move ⊢
  have finished := working.finished
  cases move with
  | ends testing done =>
      rw [testing] at finished
      have idle := mt working.popping.mpr (by rw [testing]; exact nofun)
      exact { working with
        popping := iff_of_false nofun idle
        finished := finished
        leaves := fun _ => .inr rfl
        ended := fun _ => done }
  | begins testing notDone popped =>
      rw [testing] at finished
      obtain ⟨-, rfl⟩ := SharedQueue.step_pop popped
      have queue : (SharedQueue.note w.tasks (.pop headFirst) h.queue).popped =
          h.queue.popped := by
        cases headFirst <;> rfl
      refine ⟨working.order.step (show w.tasks.Alone (.pop headFirst) from trivial) popped, ?_, ?_,
        finished, working.done, ?_, nofun⟩
      · refine iff_of_true rfl ?_
        cases headFirst <;> exact nofun
      · exact working.started.trans queue.symm
      · intro done
        rw [notDone] at done
        cases done
  | @pops tasks popping popped =>
      rw [popping] at finished
      obtain ⟨-, move⟩ := SharedQueue.step_consumer h.queue popped
      obtain ⟨queue, inside, going⟩ := current_afterPop move
      have none : h.finished = h.started := by
        rw [finished]
        exact (List.append_nil _).symm
      refine ⟨working.order.step (show w.tasks.Alone .consumer from trivial) popped, inside, ?_, ?_,
        working.done, ?_, fun ended => absurd ended going⟩
      · change h.started ++ (WorkerLoop.afterPop w.tasks.consumer tasks.consumer).current = _
        rw [queue, working.started]
      · change h.started ++ (WorkerLoop.afterPop w.tasks.consumer tasks.consumer).current =
          h.finished ++ _
        rw [none]
      · intro done
        have stands := working.leaves done
        rw [popping] at stands
        rcases stands with stands | stands <;> cases stands
  | wakes sleeping =>
      rw [sleeping] at finished
      have idle := mt working.popping.mpr (by rw [sleeping]; exact nofun)
      exact { working with
        popping := iff_of_false nofun idle
        finished := finished
        leaves := fun _ => .inl rfl
        ended := nofun }

/-- **Every step keeps a worker working**, when no push is begun while a thread is inside. -/
theorem step (working : Working maxSize w h) {op : WorkerOp ι τ} (alone : w.Alone op)
    (stepped : w.step op = .ok after) :
    Working maxSize after (WorkerHistory.note w op after h) := by
  cases op with
  | push thread request => exact working.pushStep (.inr ⟨thread, request, rfl⟩) alone stepped
  | producer thread => exact working.pushStep (.inl ⟨thread, rfl⟩) trivial stepped
  | loop headFirst => exact working.loopStep stepped
  | finish result => exact working.finish stepped

end Working

end Invariant

end Jasl
