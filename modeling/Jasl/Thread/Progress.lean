import Jasl.Library.Executions
import Jasl.Thread.Shutdown
import Jasl.Thread.TasksOnce

/-!
# What comes to happen in a pool

The results so far say what the threads of a pool do not do. Here their steps go on
without end, and the scheduler leaves out none that has a step to take.

A request in a worker's queue has a place among those that were published
(`WorkerHistory.Due`). A step of the loop brings the end of a request nearer, and no
other thread moves it away (`Working.loop_stepsTo`), unless a request to stop stands
before it: then it is never run (`queued_requests_are_run`). A task for which
`add_task` has returned true comes to its end, once (`accepted_tasks_are_run`).
-/

set_option autoImplicit false

namespace Jasl

open Library

universe u v

/-! ## A request in the queue -/

section Places

variable {ι : Type v} {τ : Type u}

/-- A request is in the queue or has left it, and none before it makes the loop stop. -/
structure WorkerHistory.Due (h : WorkerHistory τ) (place : ℕ) : Prop where
  published : place < h.queue.published.length
  first : Request.stop ∉ h.queue.published.take place

/-- How many steps the loop is from the end of a request at most. -/
def Worker.stepsTo (w : Worker ι τ) (h : WorkerHistory τ) (place : ℕ) : ℕ :=
  if place < h.finished.length then 0
  else if place < h.queue.popped.length then 1
  else w.remaining (place - h.queue.popped.length)

namespace WorkerHistory

variable [DecidableEq ι] {w after : Worker ι τ} {h : WorkerHistory τ}

/-- What was published stays so. -/
theorem published_initial {op : WorkerOp ι τ} (stepped : w.step op = .ok after) :
    h.queue.published <+: (WorkerHistory.note w op after h).queue.published := by
  cases op with
  | push thread request => exact List.prefix_rfl
  | producer thread =>
      obtain ⟨tasks, moved, rfl⟩ := Worker.pushStep_eq_ok.mp stepped
      obtain ⟨producer, -, -, move⟩ := SharedQueue.step_producer h.queue moved
      change h.queue.published <+: (SharedQueue.note w.tasks (.producer thread) h.queue).published
      generalize SharedQueue.note w.tasks (.producer thread) h.queue = noted at move ⊢
      generalize w.tasks.producers thread = before at move
      cases move with
      | publishes => exact List.prefix_append _ _
      | _ => exact List.prefix_rfl
  | loop headFirst =>
      have move := Worker.loopStep_cases h stepped
      change h.queue.published <+: (WorkerHistory.noteLoop w headFirst after h).queue.published
      generalize WorkerHistory.noteLoop w headFirst after h = noted at move ⊢
      cases move with
      | begins _ _ _ => cases headFirst <;> exact List.prefix_rfl
      | @pops tasks _ popped =>
          have move := (SharedQueue.step_consumer h.queue popped).2
          change h.queue.published <+: (SharedQueue.note w.tasks .consumer h.queue).published
          generalize SharedQueue.note w.tasks .consumer h.queue = noted at move ⊢
          generalize w.tasks.consumer = before at move
          generalize tasks.consumer = next at move
          generalize tasks.queue = q at move
          cases move <;> exact List.prefix_rfl
      | _ => exact List.prefix_rfl
  | finish result => exact List.prefix_rfl

namespace Due

variable {place : ℕ}

/-- The requests before a place are the same later. -/
theorem of_initial {later : WorkerHistory τ} (due : h.Due place)
    (grows : h.queue.published <+: later.queue.published) : later.Due place where
  published := due.published.trans_le grows.length_le
  first := by
    obtain ⟨rest, same⟩ := grows
    rw [← same, List.take_append_of_le_length due.published.le]
    exact due.first

/-- It stays due. -/
theorem step (due : h.Due place) {op : WorkerOp ι τ} (stepped : w.step op = .ok after) :
    (WorkerHistory.note w op after h).Due place :=
  due.of_initial (published_initial stepped)

end Due

end WorkerHistory

end Places

namespace Working

variable {ι : Type v} {τ : Type u} {maxSize place : ℕ} {w after : Worker ι τ} {h : WorkerHistory τ}

theorem popped_initial (working : Working maxSize w h) :
    h.queue.popped <+: h.queue.published := by
  obtain ⟨active, -, order⟩ := working.order
  exact order.popped

/-- The loop is not done before the end of a request that is due. -/
theorem not_done_of_due (working : Working maxSize w h) (due : h.Due place)
    (unfinished : ¬ place < h.finished.length) : w.done = false := by
  rw [← Bool.not_eq_true]
  intro done
  have initial : h.finished <+: h.queue.published := by
    refine working.finished_initial.trans ?_
    rw [working.started]
    exact working.popped_initial
  have before : h.finished <+: h.queue.published.take place :=
    List.prefix_take_iff.mpr ⟨initial, Nat.not_lt.mp unfinished⟩
  exact due.first (before.subset (working.done.mp done))

/-- Where the loop runs nothing, what was popped is finished. -/
theorem finished_popped (working : Working maxSize w h) (nothing : w.loop.current = []) :
    h.finished.length = h.queue.popped.length := by
  rw [← working.started, working.finished, nothing, List.append_nil]

/-- A request that is due and was not popped is in the queue. -/
theorem queued_of_due (due : h.Due place) (unpopped : ¬ place < h.queue.popped.length) :
    ∃ request, request ∈ h.queued := by
  have some_ : 0 < h.queued.length := by
    have published := due.published
    rw [length_queued]
    omega
  exact List.exists_mem_of_length_pos some_

variable [DecidableEq ι]

/-- A step inside `pop` brings the end of a request nearer. -/
theorem pops_stepsTo (working : Working maxSize w h) (due : h.Due place)
    (unfinished : ¬ place < h.finished.length) (popping : w.loop = .popping) {headFirst : Bool}
    (stepped : w.step (.loop headFirst) = .ok after) :
    after.stepsTo (WorkerHistory.note w (.loop headFirst) after h) place < w.stepsTo h place := by
  have unpopped : ¬ place < h.queue.popped.length := by
    rw [← working.finished_popped (by rw [popping]; rfl)]
    exact unfinished
  have before : w.stepsTo h place = 10 * (place - h.queue.popped.length) + 10 +
      w.tasks.consumer.remaining w.tasks.queue.tail := by
    simp only [Worker.stepsTo, if_neg unfinished, if_neg unpopped, Worker.remaining, popping]
  rw [before]
  have move := Worker.loopStep_cases h stepped
  change after.stepsTo (WorkerHistory.noteLoop w headFirst after h) place < _
  generalize WorkerHistory.noteLoop w headFirst after h = noted at move ⊢
  cases move with
  | ends testing _ => rw [popping] at testing; cases testing
  | begins testing _ _ => rw [popping] at testing; cases testing
  | wakes sleeping => rw [popping] at sleeping; cases sleeping
  | @pops tasks _ popped =>
      obtain ⟨q, producers, next⟩ := tasks
      have move : ConsumerMove w.tasks.queue h.queue w.tasks.consumer q next
          (SharedQueue.note w.tasks .consumer h.queue) :=
        (SharedQueue.step_consumer h.queue popped).2
      obtain ⟨request, queued⟩ := queued_of_due due unpopped
      have empty := working.not_empty queued
      have own : ∀ tail, w.tasks.consumer = .loadedTail tail → tail = w.tasks.queue.tail :=
        fun _ => working.loaded_tail
      generalize SharedQueue.note w.tasks .consumer h.queue = noted at move ⊢
      generalize w.tasks.consumer = stands at move own ⊢
      cases move with
      | missesHead same =>
          simp [Worker.stepsTo, unfinished, unpopped, Worker.remaining, WorkerLoop.afterPop,
            Consumer.remaining, same]
      | findsHead more =>
          simp [Worker.stepsTo, unfinished, unpopped, Worker.remaining, WorkerLoop.afterPop,
            Consumer.remaining, more]
      | missesTail same => exact absurd (same.trans (own _ rfl)) empty
      | findsTail more =>
          simp [Worker.stepsTo, unfinished, unpopped, Worker.remaining, WorkerLoop.afterPop,
            Consumer.remaining]
      | loads =>
          simp [Worker.stepsTo, unfinished, unpopped, Worker.remaining, WorkerLoop.afterPop,
            Consumer.remaining]
      | reads =>
          simp [Worker.stepsTo, unfinished, unpopped, Worker.remaining, WorkerLoop.afterPop,
            Consumer.remaining]
      | @stores tail request =>
          simp only [Worker.stepsTo, unfinished, if_false, List.length_append,
            List.length_singleton, Consumer.remaining]
          split
          · omega
          · cases request <;> simp only [Worker.remaining, WorkerLoop.afterPop] <;> omega

/-- **A step of the loop brings the end of a request nearer**, when no request to stop stands before
it. -/
theorem loop_stepsTo (working : Working maxSize w h) (due : h.Due place)
    (unfinished : ¬ place < h.finished.length) {op : WorkerOp ι τ} (own : op.ofLoop = true)
    (stepped : w.step op = .ok after) :
    after.stepsTo (WorkerHistory.note w op after h) place < w.stepsTo h place := by
  have notDone := working.not_done_of_due due unfinished
  cases op with
  | push thread request => cases own
  | producer thread => cases own
  | loop headFirst =>
      by_cases popping : w.loop = .popping
      · exact working.pops_stepsTo due unfinished popping stepped
      · have move := Worker.loopStep_cases h stepped
        change after.stepsTo (WorkerHistory.noteLoop w headFirst after h) place < _
        generalize WorkerHistory.noteLoop w headFirst after h = noted at move ⊢
        cases move with
        | ends testing done =>
            rw [notDone] at done
            cases done
        | begins testing _ popped =>
            have unpopped : ¬ place < h.queue.popped.length := by
              rw [← working.finished_popped (by rw [testing]; rfl)]
              exact unfinished
            obtain ⟨request, queued⟩ := queued_of_due due unpopped
            have more := working.not_empty queued
            obtain ⟨-, rfl⟩ := SharedQueue.step_pop popped
            cases headFirst with
            | true =>
                simp [Worker.stepsTo, unfinished, unpopped, Worker.remaining, testing, notDone,
                  Consumer.remaining, more, SharedQueue.note]
            | false =>
                simp [Worker.stepsTo, unfinished, unpopped, Worker.remaining, testing, notDone,
                  Consumer.remaining, SharedQueue.note]
        | pops popping' _ => exact absurd popping' popping
        | wakes sleeping =>
            have unpopped : ¬ place < h.queue.popped.length := by
              rw [← working.finished_popped (by rw [sleeping]; rfl)]
              exact unfinished
            simp [Worker.stepsTo, unfinished, unpopped, Worker.remaining, sleeping, notDone]
  | finish result =>
      have all : h.queue.popped = h.finished ++ w.loop.current :=
        working.started.symm.trans working.finished
      by_cases taken : place < h.queue.popped.length
      · have ends : place < (h.finished ++ w.loop.current).length := by
          rw [← all]
          exact taken
        simp only [Worker.stepsTo, WorkerHistory.note, ends, unfinished, taken, if_true, if_false]
        exact Nat.zero_lt_one
      · have goes : ¬ place < (h.finished ++ w.loop.current).length := by
          rw [← all]
          exact taken
        simp only [Worker.stepsTo, WorkerHistory.note, goes, unfinished, taken, if_false]
        rcases Worker.finish_cases stepped with ⟨running, rfl⟩ | ⟨task, running, rfl⟩
        · simp [Worker.remaining, running]
        · simp [Worker.remaining, running, notDone]

/-- A step of another thread does not move it away. -/
theorem other_stepsTo {op : WorkerOp ι τ} (other : op.ofLoop = false)
    (stepped : w.step op = .ok after) :
    after.stepsTo (WorkerHistory.note w op after h) place = w.stepsTo h place := by
  cases op with
  | push thread request =>
      obtain ⟨tasks, moved, rfl⟩ := Worker.pushStep_eq_ok.mp stepped
      obtain ⟨-, rfl⟩ := SharedQueue.step_push moved
      rfl
  | producer thread =>
      obtain ⟨tasks, moved, rfl⟩ := Worker.pushStep_eq_ok.mp stepped
      obtain ⟨producer, -, consumer, move⟩ := SharedQueue.step_producer h.queue moved
      have tail := SharedQueue.step_producer_tail moved
      have popped : (SharedQueue.note w.tasks (.producer thread) h.queue).popped =
          h.queue.popped := by
        generalize SharedQueue.note w.tasks (.producer thread) h.queue = noted at move
        generalize w.tasks.producers thread = before at move
        cases move <;> rfl
      simp only [Worker.stepsTo, WorkerHistory.note, popped, Worker.remaining, consumer, tail]
  | loop headFirst => cases other
  | finish result => cases other

/-- A request to stop is the last one that is run. -/
def StopsLast (h : WorkerHistory τ) : Prop :=
  ∀ place < h.finished.length, Request.stop ∉ h.finished.take place

theorem stopsLast_step (working : Working maxSize w h) (last : StopsLast h) {op : WorkerOp ι τ}
    (stepped : w.step op = .ok after) : StopsLast (WorkerHistory.note w op after h) := by
  cases op with
  | push thread request => exact last
  | producer thread => exact last
  | loop headFirst =>
      have move := Worker.loopStep_cases h stepped
      change StopsLast (WorkerHistory.noteLoop w headFirst after h)
      generalize WorkerHistory.noteLoop w headFirst after h = noted at move ⊢
      cases move <;> exact last
  | finish result =>
      have runs : ∃ request, w.loop = .running request := by
        rcases Worker.finish_cases stepped with ⟨running, -⟩ | ⟨task, running, -⟩
        · exact ⟨_, running⟩
        · exact ⟨_, running⟩
      obtain ⟨request, running⟩ := runs
      have unstopped : Request.stop ∉ h.finished := by
        intro stopped
        have stands := working.leaves (working.done.mpr stopped)
        rw [running] at stands
        rcases stands with stands | stands <;> cases stands
      intro place below
      change place < (h.finished ++ w.loop.current).length at below
      change Request.stop ∉ (h.finished ++ w.loop.current).take place
      rw [running, WorkerLoop.current, List.length_append, List.length_singleton] at below
      rw [List.take_append_of_le_length (by omega)]
      exact fun member => unstopped (List.mem_of_mem_take member)

end Working

/-! ## In a pool -/

namespace ThreadPool

variable {ι : Type u} [DecidableEq ι]

/-- The threads of a pool, without end. -/
abbrev Lasting (ι : Type u) [DecidableEq ι] : Type u :=
  Execution (resting (observed (step : ThreadPool ι → _ → _) PoolHistory.note))

/-- The loop of a worker is not left out, and a task that it runs comes to its end. -/
def Scheduled (e : Lasting ι) (start : ℕ) (id : Word) : Prop :=
  Recurs start fun time =>
    e.Takes time (PoolOp.ofWorker id) ∨ ((e.state time).1.workers id).loop = .ended

section Finished

variable {maxSize start place : ℕ} {e : Lasting ι} {id : Word}

/-- What a worker has published stays so. -/
theorem published_later {time : ℕ} (later : start ≤ time) :
    ((e.state start).2.workers id).queue.published <+:
      ((e.state time).2.workers id).queue.published := by
  refine e.keeps_allowed (fun _ _ => True) (fun watched =>
    ((e.state start).2.workers id).queue.published <+: (watched.2.workers id).queue.published)
    (fun _ _ _ => trivial) List.prefix_rfl ?_ time later
  intro before op after grows _ stepped
  obtain ⟨moved, noted⟩ := observed_eq_ok.mp stepped
  rw [noted]
  rcases worker_cases (h := before.2) moved id with ⟨-, -, same⟩ | ⟨own, -, part, same⟩
  · rw [same]
    exact grows
  · rw [same]
    exact grows.trans (WorkerHistory.published_initial part)

/-- **A request that is due comes to its end.** -/
theorem eventually_finished
    (pools : ∀ time, start ≤ time → Pooling maxSize (e.state time).1 (e.state time).2)
    (scheduled : Scheduled e start id) (due : ((e.state start).2.workers id).Due place) :
    ∃ time, start ≤ time ∧ place < ((e.state time).2.workers id).finished.length := by
  have stays : ∀ time, start ≤ time → ((e.state time).2.workers id).Due place :=
    fun time later => due.of_initial (published_later later)
  apply e.eventually_of_kind
    (fun watched => (watched.1.workers id).stepsTo (watched.2.workers id) place)
    (fun watched => place < (watched.2.workers id).finished.length) (PoolOp.ofWorker id)
  · intro time later unfinished op taken kind
    obtain ⟨moved, noted⟩ := observed_eq_ok.mp (e.took taken)
    rw [noted]
    rcases worker_cases (h := (e.state time).2) moved id with
      ⟨apart, -, -⟩ | ⟨own, takes, part, same⟩
    · rw [ofWorker_of_apart apart] at kind
      cases kind
    · rw [same]
      rw [ofLoop_workerOp takes] at kind
      exact ((pools time later).working id).loop_stepsTo (stays time later) unfinished kind part
  · intro time later unfinished op taken kind
    obtain ⟨moved, noted⟩ := observed_eq_ok.mp (e.took taken)
    rw [noted]
    rcases worker_cases (h := (e.state time).2) moved id with
      ⟨apart, worker, same⟩ | ⟨own, takes, part, same⟩
    · rw [worker, same]
    · rw [same]
      rw [ofLoop_workerOp takes] at kind
      exact (Working.other_stepsTo kind part).le
  · intro time later
    obtain ⟨next, onward, takes | ended⟩ := scheduled time later
    · exact ⟨next, onward, .inl takes⟩
    · refine ⟨next, onward, .inr ?_⟩
      by_contra unfinished
      have working := (pools next (later.trans onward)).working id
      have notDone := working.not_done_of_due (stays next (later.trans onward)) unfinished
      rw [working.ended ended] at notDone
      cases notDone

/-- What is finished at a place is what was published there. -/
theorem finished_getElem {time : ℕ} {request : Request ℕ} (later : start ≤ time)
    (pooling : Pooling maxSize (e.state time).1 (e.state time).2)
    (published : ((e.state start).2.workers id).queue.published[place]? = some request)
    (ended : place < ((e.state time).2.workers id).finished.length) :
    ((e.state time).2.workers id).finished[place]? = some request := by
  have working := pooling.working id
  have initial := working.finished_initial
  rw [working.started] at initial
  have same := (initial.trans working.popped_initial).getElem ended
  obtain ⟨inside, there⟩ := List.getElem?_eq_some_iff.mp published
  have grows : ((e.state start).2.workers id).queue.published <+:
      ((e.state time).2.workers id).queue.published := published_later later
  rw [List.getElem?_eq_getElem ended, same, ← grows.getElem inside, there]

end Finished

section Results

variable {numberOfThreads workerTaskQueueSize hardwareConcurrency : Word} {e : Lasting ι}

/-- A pool whose threads are kept apart works at all times. -/
theorem pooling_of_apart (fits : (taskQueueSize workerTaskQueueSize).toNat < 2 ^ 64 - 1)
    (begins : e.state 0 =
      (create numberOfThreads workerTaskQueueSize hardwareConcurrency, .empty))
    (apart : ∀ time, ∀ op ∈ e.label time, (e.state time).1.KeepsApart op) (time : ℕ) :
    Pooling (taskQueueSize workerTaskQueueSize).toNat (e.state time).1 (e.state time).2 ∧
      ∀ id, Working.StopsLast ((e.state time).2.workers id) := by
  refine e.keeps_allowed (fun watched op => watched.1.KeepsApart op) (fun watched =>
    Pooling (taskQueueSize workerTaskQueueSize).toNat watched.1 watched.2 ∧
      ∀ id, Working.StopsLast (watched.2.workers id)) apart ?_ ?_ time (Nat.zero_le time)
  · rw [begins]
    exact ⟨.create fits, fun id place below => absurd below (Nat.not_lt_zero place)⟩
  · rintro before op after ⟨pooling, last⟩ keeps stepped
    obtain ⟨moved, noted⟩ := observed_eq_ok.mp stepped
    rw [noted]
    refine ⟨pooling.step keeps moved, fun id => ?_⟩
    rcases worker_cases (h := before.2) moved id with ⟨-, -, same⟩ | ⟨own, -, part, same⟩
    · rw [same]
      exact last id
    · rw [same]
      exact Working.stopsLast_step (pooling.working id) (last id) part

/-- **What is in a worker's queue is run, unless a request to stop stands before it.** In every
execution in which the threads are kept apart and the worker's loop is not left out: a request that
the worker has got comes to its end if none before it asks the loop to stop, and is never run if one
does, whether or not `add_task` has returned true for it. -/
theorem queued_requests_are_run (fits : (taskQueueSize workerTaskQueueSize).toNat < 2 ^ 64 - 1)
    (begins : e.state 0 =
      (create numberOfThreads workerTaskQueueSize hardwareConcurrency, .empty))
    (apart : ∀ time, ∀ op ∈ e.label time, (e.state time).1.KeepsApart op) {start place : ℕ}
    {id : Word} {request : Request ℕ} (scheduled : Scheduled e start id)
    (published : ((e.state start).2.workers id).queue.published[place]? = some request) :
    (∃ time, start ≤ time ∧ ((e.state time).2.workers id).finished[place]? = some request) ↔
      Request.stop ∉ ((e.state start).2.workers id).queue.published.take place := by
  have pools := pooling_of_apart fits begins apart
  obtain ⟨inside, -⟩ := List.getElem?_eq_some_iff.mp published
  constructor
  · rintro ⟨time, later, finished⟩
    obtain ⟨ended, -⟩ := List.getElem?_eq_some_iff.mp finished
    have working := (pools time).1.working id
    have initial := working.finished_initial
    rw [working.started] at initial
    have grows : ((e.state start).2.workers id).queue.published <+:
        ((e.state time).2.workers id).queue.published := published_later later
    -- the requests before the place are the same in all three lists
    have before : ((e.state start).2.workers id).queue.published.take place =
        ((e.state time).2.workers id).finished.take place := by
      obtain ⟨more, wasPublished⟩ := grows
      obtain ⟨rest, wasFinished⟩ := initial.trans working.popped_initial
      calc
        _ = (((e.state start).2.workers id).queue.published ++ more).take place :=
          (List.take_append_of_le_length inside.le).symm
        _ = (((e.state time).2.workers id).finished ++ rest).take place := by
          rw [wasPublished, wasFinished]
        _ = ((e.state time).2.workers id).finished.take place :=
          List.take_append_of_le_length ended.le
    rw [before]
    exact (pools time).2 id place ended
  · intro first
    obtain ⟨time, later, ended⟩ :=
      eventually_finished (fun time _ => (pools time).1) scheduled ⟨inside, first⟩
    exact ⟨time, later, finished_getElem later (pools time).1 published ended⟩

end Results

end ThreadPool

/-- The pool is destroyed. When its first worker is asked to stop, and the second one is not yet, a
task is added. -/
def lateTaskOps : List (PoolOp ℕ) := .destroy :: List.replicate 4 .destructor ++ addOps 6

/-- The first worker stops. -/
def stoppingOps : List (PoolOp ℕ) := runOps 0 .returned ++ [.loop 0 true]

def latePool : ThreadPool ℕ × PoolHistory :=
  (checkedRun (observed ThreadPool.step PoolHistory.note) (fun watched op => watched.1.KeepsApart op)
    (ThreadPool.create 2 2 1, .empty) lateTaskOps).get (by decide +kernel)

def stoppedPool : ThreadPool ℕ × PoolHistory :=
  (checkedRun (observed ThreadPool.step PoolHistory.note) (fun watched op => watched.1.KeepsApart op)
    latePool stoppingOps).get (by decide +kernel)

/-- The task is accepted, and never run. -/
theorem queued_requests_are_run_late : ∃ e : ThreadPool.Lasting ℕ,
    (0, true) ∈ (e.state 12).2.returned ∧
      ¬ ∃ time, 12 ≤ time ∧ ((e.state time).2.workers 0).finished[1]? = some (.task 0) := by
  have run : Run (observed ThreadPool.step PoolHistory.note)
      (fun watched op => watched.1.KeepsApart op)
      (ThreadPool.create 2 2 1, .empty) lateTaskOps latePool := Run.of_isSome _
  have rest : Run (observed ThreadPool.step PoolHistory.note)
      (fun watched op => watched.1.KeepsApart op) latePool stoppingOps stoppedPool :=
    Run.of_isSome _
  obtain ⟨e, begins, labels, apart, rests⟩ := (run.append rest).lasting
  have late : e.state 12 = latePool := by
    apply Execution.state_of_labels run begins
    intro time inRun
    rw [← labels time (by simp only [List.length_append]; omega), List.getElem?_append_left inRun]
  have scheduled : ThreadPool.Scheduled e 12 0 := by
    intro time _
    refine ⟨max time (lateTaskOps ++ stoppingOps).length, le_max_left _ _, .inr ?_⟩
    rw [(rests _ (le_max_right _ _)).1]
    decide +kernel
  have published : ((e.state 12).2.workers 0).queue.published[1]? = some (.task 0) := by
    rw [late]
    decide +kernel
  have fits : (ThreadPool.taskQueueSize 2).toNat < 2 ^ 64 - 1 := by decide
  have stands := ThreadPool.queued_requests_are_run fits begins apart scheduled published
  refine ⟨e, by rw [late]; decide +kernel, ?_⟩
  rw [stands, late]
  decide +kernel

namespace ThreadPool

variable {ι : Type u} [DecidableEq ι]

section Books

variable {numberOfThreads workerTaskQueueSize hardwareConcurrency : Word} {e : Lasting ι}

/-- Where the calls return before the pool is destroyed, the books are in order at all times. -/
theorem accounted_of_returns (fits : (taskQueueSize workerTaskQueueSize).toNat < 2 ^ 64 - 1)
    (begins : e.state 0 =
      (create numberOfThreads workerTaskQueueSize hardwareConcurrency, .empty))
    (returns : ∀ time, ∀ op ∈ e.label time, (e.state time).1.ReturnsFirst (e.state time).2 op)
    (time : ℕ) :
    Pooling (taskQueueSize workerTaskQueueSize).toNat (e.state time).1 (e.state time).2 ∧
      (e.state time).1.Accounted (e.state time).2 := by
  refine e.keeps_allowed (fun watched op => watched.1.ReturnsFirst watched.2 op) (fun watched =>
    Pooling (taskQueueSize workerTaskQueueSize).toNat watched.1 watched.2 ∧
      watched.1.Accounted watched.2) returns ?_ ?_ time (Nat.zero_le time)
  · rw [begins]
    exact ⟨.create fits, .create _ _ _⟩
  · rintro before op after ⟨pooling, accounted⟩ may stepped
    obtain ⟨moved, noted⟩ := observed_eq_ok.mp stepped
    rw [noted]
    exact ⟨pooling.step (accounted.keepsApart op) moved,
      (accounted.step pooling.serialised may moved).accounted⟩

end Books

omit [DecidableEq ι] in
/-- What a call that has returned true has placed is published, and no request to stop stands
before it. -/
theorem due_of_returned {maxSize : ℕ} {pool : ThreadPool ι} {h : PoolHistory}
    (pooling : Pooling maxSize pool h) (accounted : pool.Accounted h) {call : ℕ}
    (returned : (call, true) ∈ h.returned) :
    ∃ id < pool.nOfThreads, ∃ place, (h.workers id).Due place ∧
      (h.workers id).queue.published[place]? = some (.task call) := by
  have sound := accounted.sound
  obtain ⟨isPlaced, -, closed⟩ := sound.returned call true returned
  obtain ⟨id, placed⟩ := isPlaced.mp rfl
  have accepts : Request.task call ∈ (h.workers id).queue.accepted := placed
  obtain ⟨active, one, order⟩ := (pooling.working id).order
  have fits : active.Fits maxSize (pool.workers id).tasks.queue (h.workers id).queue :=
    order.producer
  -- a request that is not published yet is that of an open call
  have unpublished : ∀ {request}, active.value = some request → request ≠ .task call := by
    rintro request value rfl
    have inside : active ≠ .idle := by
      rintro rfl
      cases value
    obtain ⟨thread, here⟩ : ∃ thread, (pool.workers id).tasks.producers thread = active := by
      cases one with
      | nobody idle => exact absurd rfl inside
      | alone thread here others => exact ⟨thread, here⟩
    rw [← here] at value
    have pushes := (pooling.serialised.inside id thread _).mp value
    cases thread with
    | caller caller =>
        obtain ⟨-, other, workerId, stage, same⟩ := pushedBy_caller pushes
        obtain rfl := Request.task.inj same
        exact closed caller _ (current_adding stage)
    | destructor => cases (pushedBy_destructor pushes).2
  have published : Request.task call ∈ (h.workers id).queue.published ∧
      (h.workers id).queue.published <+: (h.workers id).queue.accepted := by
    cases active with
    | idle =>
        rw [← show (h.workers id).queue.accepted = _ from fits]
        exact ⟨accepts, List.prefix_rfl⟩
    | loadedHead value head =>
        rw [← fits.2]
        exact ⟨accepts, List.prefix_rfl⟩
    | writing value head =>
        rw [fits.2.2] at accepts ⊢
        refine ⟨(List.mem_append.mp accepts).resolve_right fun last => ?_, List.prefix_append _ _⟩
        exact unpublished rfl (List.mem_singleton.mp last).symm
    | storing value head =>
        rw [fits.2.2.1] at accepts ⊢
        refine ⟨(List.mem_append.mp accepts).resolve_right fun last => ?_, List.prefix_append _ _⟩
        exact unpublished rfl (List.mem_singleton.mp last).symm
  obtain ⟨member, initial⟩ := published
  obtain ⟨place, inside, there⟩ := List.mem_iff_getElem.mp member
  refine ⟨id, accounted.within id _ placed, place, ⟨inside, ?_⟩,
    List.getElem?_eq_some_iff.mpr ⟨inside, there⟩⟩
  intro stopped
  have taken : (h.workers id).queue.published.take place <+: (pool.ledger h).placed id :=
    (List.take_prefix place _).trans initial
  have whole := congrArg List.length (sound.eq_of_prefix taken stopped)
  have shorter := initial.length_le
  rw [List.length_take, show ((pool.ledger h).placed id).length =
    (h.workers id).queue.accepted.length from rfl] at whole
  omega

section Results

variable {numberOfThreads workerTaskQueueSize hardwareConcurrency : Word} {e : Lasting ι}

/-- **A task for which `add_task` has returned true is run to its end**, in every execution in which
the calls of `add_task` return before `~ThreadPool` starts and no worker's loop is left out. -/
theorem accepted_tasks_are_run (fits : (taskQueueSize workerTaskQueueSize).toNat < 2 ^ 64 - 1)
    (begins : e.state 0 =
      (create numberOfThreads workerTaskQueueSize hardwareConcurrency, .empty))
    (returns : ∀ time, ∀ op ∈ e.label time, (e.state time).1.ReturnsFirst (e.state time).2 op)
    {start call : ℕ} (scheduled : ∀ id < (e.state start).1.nOfThreads, Scheduled e start id)
    (returned : (call, true) ∈ (e.state start).2.returned) :
    ∃ time, start ≤ time ∧ ∃ id < (e.state start).1.nOfThreads,
      Request.task call ∈ ((e.state time).2.workers id).finished := by
  have books := accounted_of_returns fits begins returns
  obtain ⟨id, below, place, due, published⟩ :=
    due_of_returned (books start).1 (books start).2 returned
  obtain ⟨time, later, ended⟩ :=
    eventually_finished (fun time _ => (books time).1) (scheduled id below) due
  exact ⟨time, later, id, below,
    List.mem_of_getElem? (finished_getElem later (books time).1 published ended)⟩

end Results

end ThreadPool

/-- A task is added to a pool of two workers. -/
def addedPool : ThreadPool ℕ × PoolHistory :=
  (checkedRun (observed ThreadPool.step PoolHistory.note)
    (fun watched op => watched.1.ReturnsFirst watched.2 op)
    (ThreadPool.create 2 1 1, .empty) (addOps 6)).get (by decide +kernel)

def destroyedPool : ThreadPool ℕ × PoolHistory :=
  (checkedRun (observed ThreadPool.step PoolHistory.note)
    (fun watched op => watched.1.ReturnsFirst watched.2 op)
    addedPool (finishedOps.drop 7)).get (by decide +kernel)

theorem accepted_tasks_are_run_added : ∃ (e : ThreadPool.Lasting ℕ) (time : ℕ),
    e.state 7 = addedPool ∧ 7 ≤ time ∧
      ∃ id < 2, Request.task 0 ∈ ((e.state time).2.workers id).finished := by
  have run : Run (observed ThreadPool.step PoolHistory.note)
      (fun watched op => watched.1.ReturnsFirst watched.2 op)
      (ThreadPool.create 2 1 1, .empty) (addOps 6) addedPool := Run.of_isSome _
  have rest : Run (observed ThreadPool.step PoolHistory.note)
      (fun watched op => watched.1.ReturnsFirst watched.2 op) addedPool (finishedOps.drop 7)
      destroyedPool := Run.of_isSome _
  obtain ⟨e, begins, labels, returns, rests⟩ := (run.append rest).lasting
  have added : e.state 7 = addedPool := by
    apply Execution.state_of_labels run begins
    intro time inRun
    rw [← labels time (by simp only [List.length_append]; omega), List.getElem?_append_left inRun]
  have two : (e.state 7).1.nOfThreads = 2 := by
    rw [added]
    decide +kernel
  have scheduled : ∀ id < (e.state 7).1.nOfThreads, ThreadPool.Scheduled e 7 id := by
    intro id below time _
    refine ⟨max time (addOps 6 ++ finishedOps.drop 7).length, le_max_left _ _, .inr ?_⟩
    rw [(rests _ (le_max_right _ _)).1]
    rw [two, BitVec.lt_def] at below
    have which : id = 0 ∨ id = 1 := by
      have cases_ : id.toNat = 0 ∨ id.toNat = 1 := by
        change id.toNat < 2 at below
        omega
      exact cases_.imp BitVec.eq_of_toNat_eq BitVec.eq_of_toNat_eq
    rcases which with rfl | rfl <;> decide +kernel
  have fits : (ThreadPool.taskQueueSize 1).toNat < 2 ^ 64 - 1 := by decide
  have returned : (0, true) ∈ (e.state 7).2.returned := by
    rw [added]
    decide +kernel
  obtain ⟨time, later, id, below, finished⟩ :=
    ThreadPool.accepted_tasks_are_run fits begins returns scheduled returned
  exact ⟨e, time, added, later, id, two ▸ below, finished⟩

end Jasl
