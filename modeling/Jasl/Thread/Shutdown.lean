import Jasl.Thread.SinglePusher
import Mathlib.Data.Fintype.Basic

/-!
# The stop request and the end of the loop

`Worker::stop` pushes `stop_` as `add` pushes a task, and does not look at what
`push` returns. Where the queue is full when the push loads `m_tail`, the request
is refused and `stop` returns all the same (`Worker.stopped_iff`).

A loop whose stop request is in the queue is at its end after a bounded number of
its own steps, and is never stuck before (`Working.own_steps_le`,
`Working.can_step`): the bound counts the requests before the first stop request.
A loop without one does not end (`Unstoppable.step`). For the pool this says which
workers `~ThreadPool` can join (`shutdown_reaches_the_workers`).
-/

set_option autoImplicit false

namespace Jasl

open Library

universe u v

/-! ## A stop request that is in the queue -/

/-- What is in a worker's queue. -/
def WorkerHistory.queued {τ : Type u} (h : WorkerHistory τ) : List (Request τ) :=
  h.queue.published.drop h.queue.popped.length

/-- The next step of the push is not the load of `m_tail` in a full queue. -/
def Producer.FindsRoom {α : Type u} (q : SpscQueue α) : Producer α → Prop
  | .loadedHead _ head => q.increment head ≠ q.tail
  | _ => True

instance {α : Type u} (q : SpscQueue α) : (producer : Producer α) → Decidable (producer.FindsRoom q)
  | .loadedHead _ head => inferInstanceAs (Decidable (q.increment head ≠ q.tail))
  | .idle | .writing _ _ | .storing _ _ => inferInstanceAs (Decidable True)

/-- A step of the loop's thread. -/
def WorkerOp.ofLoop {ι : Type v} {τ : Type u} : WorkerOp ι τ → Bool
  | .loop _ => true
  | .finish _ => true
  | _ => false

namespace Worker

variable {ι : Type v} {τ : Type u}

/-- A stop request is in the queue, or has left it for the loop to run, or was run. -/
def StopReached (w : Worker ι τ) (h : WorkerHistory τ) : Prop :=
  Request.stop ∈ h.queued ∨ w.loop = .running .stop ∨ w.done = true

/-- A push of the worker does not find its queue full. -/
def FindsRoom (w : Worker ι τ) (thread : ι) : Prop :=
  (w.tasks.producers thread).FindsRoom w.tasks.queue

end Worker

namespace Working

variable {ι : Type v} {τ : Type u} {maxSize : ℕ} {w after : Worker ι τ} {h : WorkerHistory τ}

theorem popped_le (working : Working maxSize w h) :
    h.queue.popped.length ≤ h.queue.published.length := by
  obtain ⟨active, -, order⟩ := working.order
  exact order.popped_le

variable [DecidableEq ι]

/-- What a step inside a push does to what is queued. -/
inductive Published (q : SpscQueue (Request τ)) (before after : Producer (Request τ))
    (queued next : List (Request τ)) : Prop where
  | stays (inside : after ≠ .idle) (same : next = queued)
  | refused (full : ¬ before.FindsRoom q) (now : after = .idle) (same : next = queued)
  | publishes {request : Request τ} {head : Word} (was : before = .storing request head)
      (now : after = .idle) (longer : next = queued ++ [request])

theorem published (working : Working maxSize w h) {thread : ι}
    (stepped : w.step (.producer thread) = .ok after) :
    Published w.tasks.queue (w.tasks.producers thread) (after.tasks.producers thread) h.queued
      (WorkerHistory.note w (.producer thread) after h).queued := by
  obtain ⟨tasks, moved, rfl⟩ := Worker.pushStep_eq_ok.mp stepped
  obtain ⟨producer, producers, -, move⟩ := SharedQueue.step_producer h.queue moved
  have bound := working.popped_le
  have there : tasks.producers thread = producer := by
    rw [producers, Function.update_self]
  simp only [WorkerHistory.queued, WorkerHistory.note, there]
  generalize SharedQueue.note w.tasks (.producer thread) h.queue = noted at move
  generalize w.tasks.producers thread = before at move
  cases move with
  | refused full => exact .refused (fun room => room full) rfl rfl
  | finds room => exact .stays nofun rfl
  | writes => exact .stays nofun rfl
  | publishes => exact .publishes rfl rfl (List.drop_append_of_le_length bound)

/-- **Where `stop` returns**: the request is in the queue or the worker is done exactly if the push
has found room, or if that was so before. -/
theorem stopped_iff (working : Working maxSize w h) {thread : ι}
    (stepped : w.step (.producer thread) = .ok after)
    (stops : (w.tasks.producers thread).value = some .stop)
    (returns : after.tasks.producers thread = .idle) :
    (Request.stop ∈ (WorkerHistory.note w (.producer thread) after h).queued ∨
        after.done = true) ↔
      w.FindsRoom thread ∨ Request.stop ∈ h.queued ∨ w.done = true := by
  have done : after.done = w.done := by
    obtain ⟨tasks, -, rfl⟩ := Worker.pushStep_eq_ok.mp stepped
    rfl
  rw [done]
  cases working.published stepped with
  | stays inside _ => exact absurd returns inside
  | refused full _ same =>
      rw [same]
      exact ⟨.inr, fun found => found.resolve_left full⟩
  | @publishes request head was _ longer =>
      rw [was] at stops
      obtain rfl := Option.some.inj stops
      refine iff_of_true (.inl (by rw [longer]; simp)) (.inl ?_)
      rw [Worker.FindsRoom, was]
      trivial

end Working

/-! ## The way to the end -/

section Remaining

variable {ι : Type v} {τ : Type u}

/-- How many steps a pop is from its end at most, as long as the queue is not empty. -/
def Consumer.remaining {α : Type u} (tail : Word) : Consumer α → ℕ
  | .idle => 0
  | .loadedHead head => if head = tail then 8 else 5
  | .loadedTail _ => 5
  | .nonEmpty => 4
  | .reading _ => 3
  | .storing _ _ => 2

/-- How many steps the loop is from its end at most, when the first stop request has `ahead`
requests before it in the queue. -/
def Worker.remaining (w : Worker ι τ) (ahead : ℕ) : ℕ :=
  match w.loop with
  | .ended => 0
  | .testing => if w.done then 1 else 10 * ahead + 16
  | .running .stop => 2
  | .running (.task _) => 10 * ahead + 19
  | .sleeping => 10 * ahead + 17
  | .popping => 10 * ahead + 10 + w.tasks.consumer.remaining w.tasks.queue.tail

variable [DecidableEq τ]

/-- The requests before the first stop request. -/
def WorkerHistory.ahead (h : WorkerHistory τ) : ℕ := h.queued.idxOf .stop

end Remaining

namespace Working

variable {ι : Type v} {τ : Type u} {maxSize : ℕ} {w after : Worker ι τ} {h : WorkerHistory τ}

/-- Where a stop request is on its way, it is in the queue. -/
theorem stop_queued (reached : w.StopReached h) (notDone : w.done = false)
    (notRunning : w.loop ≠ .running .stop) : Request.stop ∈ h.queued := by
  rcases reached with queued | running | done
  · exact queued
  · exact absurd running notRunning
  · rw [notDone] at done
    cases done

/-- The loop is not done where it is not before its test or behind it. -/
theorem not_done (working : Working maxSize w h) (testing : w.loop ≠ .testing)
    (ended : w.loop ≠ .ended) : w.done = false := by
  rw [← Bool.not_eq_true]
  intro done
  rcases working.leaves done with stands | stands
  · exact testing stands
  · exact ended stands

theorem length_queued (h : WorkerHistory τ) :
    h.queued.length = h.queue.published.length - h.queue.popped.length := by
  rw [WorkerHistory.queued, List.length_drop]

/-- A queue that holds a request is not empty. -/
theorem not_empty (working : Working maxSize w h) {request : Request τ}
    (queued : request ∈ h.queued) : w.tasks.queue.head ≠ w.tasks.queue.tail := by
  obtain ⟨active, -, order⟩ := working.order
  have some_ : 0 < h.queued.length := List.length_pos_of_mem queued
  rw [length_queued] at some_
  intro same
  have positions := (order.empty_iff order.head order.popped_le (le_refl _)).mp same
  omega

/-- What the popping thread has read is the first request in the queue. -/
theorem first_queued (working : Working maxSize w h) {tail : Word} {request : Request τ}
    (storing : w.tasks.consumer = .storing tail request) :
    h.queued = request :: h.queue.published.drop (h.queue.popped.length + 1) := by
  obtain ⟨active, -, order⟩ := working.order
  have known : w.tasks.consumer.Fits maxSize w.tasks.queue h.queue := order.consumer
  rw [storing] at known
  obtain ⟨inside, same⟩ := List.getElem?_eq_some_iff.mp known.2
  rw [WorkerHistory.queued, List.drop_eq_getElem_cons inside, same]

/-- The index that the popping thread has loaded is its own. -/
theorem loaded_tail (working : Working maxSize w h) {tail : Word}
    (loaded : w.tasks.consumer = .loadedTail tail) : tail = w.tasks.queue.tail := by
  obtain ⟨active, -, order⟩ := working.order
  have known : w.tasks.consumer.Fits maxSize w.tasks.queue h.queue := order.consumer
  rw [loaded] at known
  exact known

variable [DecidableEq τ]

/-- One more request at the end of the queue does not matter. -/
theorem remaining_append (working : Working maxSize w h) (reached : w.StopReached h)
    (request : Request τ) :
    w.remaining ((h.queued ++ [request]).idxOf .stop) = w.remaining h.ahead := by
  by_cases queued : Request.stop ∈ h.queued
  · rw [List.idxOf_append_of_mem queued]
    rfl
  · rcases reached with there | running | done
    · exact absurd there queued
    · simp only [Worker.remaining, running]
    · rcases working.leaves done with testing | ended
      · simp only [Worker.remaining, testing, done, if_true]
      · simp only [Worker.remaining, ended]

variable [DecidableEq ι]

/-- A step inside `pop` brings the loop nearer to its end. -/
theorem pops_remaining (working : Working maxSize w h) (queued : Request.stop ∈ h.queued)
    (popping : w.loop = .popping) {headFirst : Bool}
    (stepped : w.step (.loop headFirst) = .ok after) :
    after.StopReached (WorkerHistory.note w (.loop headFirst) after h) ∧
      after.remaining (WorkerHistory.note w (.loop headFirst) after h).ahead <
        w.remaining h.ahead := by
  have before : w.remaining h.ahead =
      10 * h.ahead + 10 + w.tasks.consumer.remaining w.tasks.queue.tail := by
    simp only [Worker.remaining, popping]
  rw [before]
  have move := Worker.loopStep_cases h stepped
  change after.StopReached (WorkerHistory.noteLoop w headFirst after h) ∧
    after.remaining (WorkerHistory.noteLoop w headFirst after h).ahead < _
  generalize WorkerHistory.noteLoop w headFirst after h = noted at move ⊢
  cases move with
  | ends testing _ => rw [popping] at testing; cases testing
  | begins testing _ _ => rw [popping] at testing; cases testing
  | wakes sleeping => rw [popping] at sleeping; cases sleeping
  | @pops tasks _ popped =>
      obtain ⟨q, producers, next⟩ := tasks
      have move : ConsumerMove w.tasks.queue h.queue w.tasks.consumer q next
          (SharedQueue.note w.tasks .consumer h.queue) :=
        (SharedQueue.step_consumer h.queue popped).2
      have empty := working.not_empty queued
      have first : ∀ tail request, w.tasks.consumer = .storing tail request →
          h.queued = request :: h.queue.published.drop (h.queue.popped.length + 1) :=
        fun _ _ => working.first_queued
      have own : ∀ tail, w.tasks.consumer = .loadedTail tail → tail = w.tasks.queue.tail :=
        fun _ => working.loaded_tail
      simp only [Worker.StopReached, WorkerHistory.ahead, WorkerHistory.queued] at queued first ⊢
      generalize SharedQueue.note w.tasks .consumer h.queue = noted at move ⊢
      generalize w.tasks.consumer = place at move first own ⊢
      cases move with
      | missesHead same =>
          refine ⟨.inl queued, ?_⟩
          simp [Worker.remaining, WorkerLoop.afterPop, Consumer.remaining, same]
      | findsHead more =>
          refine ⟨.inl queued, ?_⟩
          simp [Worker.remaining, WorkerLoop.afterPop, Consumer.remaining, more]
      | missesTail same => exact absurd (same.trans (own _ rfl)) empty
      | findsTail more =>
          refine ⟨.inl queued, ?_⟩
          simp [Worker.remaining, WorkerLoop.afterPop, Consumer.remaining]
      | loads =>
          refine ⟨.inl queued, ?_⟩
          simp [Worker.remaining, WorkerLoop.afterPop, Consumer.remaining]
      | reads =>
          refine ⟨.inl queued, ?_⟩
          simp [Worker.remaining, WorkerLoop.afterPop, Consumer.remaining]
      | @stores tail request =>
          have all := first _ _ rfl
          rw [all] at queued ⊢
          cases request with
          | stop =>
              refine ⟨.inr (.inl rfl), ?_⟩
              simp [Worker.remaining, WorkerLoop.afterPop, Consumer.remaining]
          | task task =>
              refine ⟨.inl ?_, ?_⟩
              · simpa using queued
              · simp [Worker.remaining, WorkerLoop.afterPop, Consumer.remaining]
                omega

/-- **A step of the loop brings it nearer to its end.** -/
theorem loop_remaining (working : Working maxSize w h) (reached : w.StopReached h)
    {op : WorkerOp ι τ} (own : op.ofLoop = true) (stepped : w.step op = .ok after) :
    after.StopReached (WorkerHistory.note w op after h) ∧
      after.remaining (WorkerHistory.note w op after h).ahead < w.remaining h.ahead := by
  cases op with
  | push thread request => cases own
  | producer thread => cases own
  | loop headFirst =>
      by_cases popping : w.loop = .popping
      · have queued := stop_queued reached
          (working.not_done (by rw [popping]; simp) (by rw [popping]; simp))
          (by rw [popping]; simp)
        exact working.pops_remaining queued popping stepped
      · have move := Worker.loopStep_cases h stepped
        change after.StopReached (WorkerHistory.noteLoop w headFirst after h) ∧
          after.remaining (WorkerHistory.noteLoop w headFirst after h).ahead < _
        generalize WorkerHistory.noteLoop w headFirst after h = noted at move ⊢
        cases move with
        | ends testing done =>
            refine ⟨.inr (.inr done), ?_⟩
            simp [Worker.remaining, testing, done]
        | begins testing notDone popped =>
            have queued := stop_queued reached notDone (by rw [testing]; simp)
            have more := working.not_empty queued
            obtain ⟨-, rfl⟩ := SharedQueue.step_pop popped
            cases headFirst with
            | true =>
                refine ⟨.inl queued, ?_⟩
                simp [Worker.remaining, testing, notDone, Consumer.remaining, more,
                  WorkerHistory.ahead, WorkerHistory.queued, SharedQueue.note]
            | false =>
                refine ⟨.inl queued, ?_⟩
                simp [Worker.remaining, testing, notDone, Consumer.remaining,
                  WorkerHistory.ahead, WorkerHistory.queued, SharedQueue.note]
        | pops popping' _ => exact absurd popping' popping
        | wakes sleeping =>
            have notDone := working.not_done (by rw [sleeping]; simp)
              (by rw [sleeping]; simp)
            have queued := stop_queued reached notDone (by rw [sleeping]; simp)
            refine ⟨.inl queued, ?_⟩
            simp [Worker.remaining, sleeping, notDone]
  | finish result =>
      rcases Worker.finish_cases stepped with ⟨running, rfl⟩ | ⟨task, running, rfl⟩
      · refine ⟨.inr (.inr rfl), ?_⟩
        simp [Worker.remaining, running]
      · have notDone := working.not_done (by rw [running]; simp)
          (by rw [running]; simp)
        have queued := stop_queued reached notDone (by rw [running]; simp)
        refine ⟨.inl queued, ?_⟩
        simp [Worker.remaining, running, notDone, WorkerHistory.ahead, WorkerHistory.note,
          WorkerHistory.queued]

/-- A step of another thread leaves the loop where it is. -/
theorem other_remaining (working : Working maxSize w h) (reached : w.StopReached h)
    {op : WorkerOp ι τ} (other : op.ofLoop = false) (stepped : w.step op = .ok after) :
    after.StopReached (WorkerHistory.note w op after h) ∧
      after.remaining (WorkerHistory.note w op after h).ahead = w.remaining h.ahead := by
  cases op with
  | push thread request =>
      obtain ⟨tasks, moved, rfl⟩ := Worker.pushStep_eq_ok.mp stepped
      obtain ⟨-, rfl⟩ := SharedQueue.step_push moved
      exact ⟨reached, rfl⟩
  | producer thread =>
      have published := working.published stepped
      obtain ⟨tasks, moved, rfl⟩ := Worker.pushStep_eq_ok.mp stepped
      obtain ⟨-, -, consumer, -⟩ := SharedQueue.step_producer h.queue moved
      have queue := SharedQueue.step_producer_tail moved
      have same : ∀ ahead, Worker.remaining { w with tasks } ahead = w.remaining ahead := by
        intro ahead
        simp only [Worker.remaining, consumer, queue]
      rw [same, WorkerHistory.ahead]
      generalize WorkerHistory.note w (.producer thread) { w with tasks } h = noted at published ⊢
      rw [Worker.StopReached] at reached ⊢
      cases published with
      | stays inside stays =>
          rw [stays]
          exact ⟨reached, rfl⟩
      | refused full now stays =>
          rw [stays]
          exact ⟨reached, rfl⟩
      | @publishes request head was now longer =>
          rw [longer]
          exact ⟨reached.imp_left (List.mem_append_left _),
            working.remaining_append reached request⟩
  | loop headFirst => cases other
  | finish result => cases other

/-- **The loop's own steps are bounded**: a run from where a stop request is on its way has no more
of them than what remains. -/
theorem own_steps_le (working : Working maxSize w h) (reached : w.StopReached h)
    {ops : List (WorkerOp ι τ)} {last : Worker ι τ × WorkerHistory τ}
    (run : Run (observed Worker.step WorkerHistory.note) (fun watched op => watched.1.Alone op)
      (w, h) ops last) :
    Working maxSize last.1 last.2 ∧ last.1.StopReached last.2 ∧
      (ops.filter WorkerOp.ofLoop).length + last.1.remaining last.2.ahead ≤
        w.remaining h.ahead := by
  induction run with
  | nil => exact ⟨working, reached, by simp⟩
  | @snoc ops before after op _ alone stepped ih =>
      obtain ⟨works, reaches, bound⟩ := ih
      obtain ⟨moved, noted⟩ := observed_eq_ok.mp stepped
      rw [noted, List.filter_append, List.length_append]
      refine ⟨works.step alone moved, ?_⟩
      cases own : op.ofLoop with
      | true =>
          obtain ⟨still, less⟩ := works.loop_remaining reaches own moved
          refine ⟨still, ?_⟩
          rw [List.filter_cons_of_pos own]
          simp
          omega
      | false =>
          obtain ⟨still, same⟩ := works.other_remaining reaches own moved
          refine ⟨still, ?_⟩
          rw [List.filter_cons_of_neg (by simp [own])]
          simp
          omega

omit [DecidableEq τ] in
/-- The loop is not stuck before its end. -/
theorem can_step (working : Working maxSize w h) (going : w.loop ≠ .ended) :
    (∃ after, w.step (.finish .returned) = .ok after) ∨
      ∀ headFirst, ∃ after, w.step (.loop headFirst) = .ok after := by
  cases place : w.loop with
  | testing =>
      refine .inr fun headFirst => ?_
      have idle : w.tasks.consumer = .idle := by
        by_contra inside
        have popping := working.popping.mpr inside
        rw [place] at popping
        cases popping
      by_cases done : w.done = true
      · refine ⟨{ w with loop := .ended }, ?_⟩
        simp only [Worker.step, Worker.loopStep, place, if_pos done]
      · obtain ⟨tasks, popped⟩ := SharedQueue.can_pop idle headFirst
        refine ⟨{ w with tasks, loop := .popping }, ?_⟩
        simp only [Worker.step, Worker.loopStep, place, if_neg done, popped]
  | popping =>
      refine .inr fun headFirst => ?_
      obtain ⟨tasks, popped⟩ := SharedQueue.can_consume (working.popping.mp place)
      refine ⟨{ w with tasks, loop := .afterPop w.tasks.consumer tasks.consumer }, ?_⟩
      simp only [Worker.step, Worker.loopStep, place, popped]
  | running request =>
      refine .inl ?_
      cases request with
      | stop =>
          refine ⟨{ w with loop := .testing, done := true }, ?_⟩
          simp only [Worker.step, Worker.finish, place]
      | task task =>
          refine ⟨{ w with loop := .testing }, ?_⟩
          simp only [Worker.step, Worker.finish, place]
  | sleeping =>
      refine .inr fun headFirst => ⟨{ w with loop := .testing }, ?_⟩
      simp only [Worker.step, Worker.loopStep, place]
  | ended => exact absurd place going

end Working

/-! ## A worker without a stop request -/

section Unstoppable

variable {ι : Type v} {τ : Type u} {maxSize : ℕ} {w after : Worker ι τ} {h : WorkerHistory τ}

/-- No stop request is on its way, or pushed. -/
structure Unstoppable (w : Worker ι τ) (h : WorkerHistory τ) : Prop where
  reached : ¬ w.StopReached h
  pushes : ∀ thread, (w.tasks.producers thread).value ≠ some .stop

/-- Nobody calls `stop`. -/
def WorkerOp.NotStop : WorkerOp ι τ → Prop
  | .push _ .stop => False
  | _ => True

instance : (op : WorkerOp ι τ) → Decidable op.NotStop
  | .push _ .stop => inferInstanceAs (Decidable False)
  | .push _ (.task _) | .producer _ | .loop _ | .finish _ => inferInstanceAs (Decidable True)

namespace Unstoppable

theorem not_done (unstoppable : Unstoppable w h) : ¬ w.done = true :=
  fun done => unstoppable.reached (.inr (.inr done))

variable [DecidableEq ι]

/-- The loop makes no stop request. -/
theorem loopStep (unstoppable : Unstoppable w h) (working : Working maxSize w h)
    {headFirst : Bool} (stepped : w.step (.loop headFirst) = .ok after) :
    Unstoppable after (WorkerHistory.note w (.loop headFirst) after h) := by
  have producers := Worker.loopStep_producers stepped
  refine ⟨?_, by rw [producers]; exact unstoppable.pushes⟩
  have move := Worker.loopStep_cases h stepped
  change ¬ after.StopReached (WorkerHistory.noteLoop w headFirst after h)
  generalize WorkerHistory.noteLoop w headFirst after h = noted at move ⊢
  have notQueued : Request.stop ∉ h.queued := fun queued => unstoppable.reached (.inl queued)
  have notDone := unstoppable.not_done
  cases move with
  | ends testing done => exact absurd done notDone
  | begins testing _ popped =>
      have same : (SharedQueue.note w.tasks (.pop headFirst) h.queue).published =
          h.queue.published ∧
          (SharedQueue.note w.tasks (.pop headFirst) h.queue).popped = h.queue.popped := by
        cases headFirst <;> exact ⟨rfl, rfl⟩
      rintro (queued | running | done)
      · rw [WorkerHistory.queued, same.1, same.2] at queued
        exact notQueued queued
      · cases running
      · exact notDone done
  | @pops tasks popping popped =>
      obtain ⟨-, move⟩ := SharedQueue.step_consumer h.queue popped
      have first : ∀ tail request, w.tasks.consumer = .storing tail request →
          h.queued = request :: h.queue.published.drop (h.queue.popped.length + 1) :=
        fun _ _ => working.first_queued
      simp only [Worker.StopReached, WorkerHistory.queued] at notQueued first ⊢
      generalize SharedQueue.note w.tasks .consumer h.queue = noted at move ⊢
      generalize w.tasks.consumer = place at move first ⊢
      generalize tasks.consumer = next at move ⊢
      generalize tasks.queue = q at move
      cases move with
      | @stores tail request =>
          rw [first _ _ rfl] at notQueued
          rw [List.mem_cons, not_or] at notQueued
          rintro (queued | running | done)
          · rw [List.length_append, List.length_singleton] at queued
            exact notQueued.2 queued
          · simp only [WorkerLoop.afterPop, WorkerLoop.running.injEq] at running
            exact notQueued.1 running.symm
          · exact notDone done
      | _ => simp [WorkerLoop.afterPop, notQueued, notDone]
  | wakes sleeping =>
      rintro (queued | running | done)
      · exact notQueued queued
      · cases running
      · exact notDone done

/-- **Without a call of `stop` there is no stop request.** -/
theorem step (unstoppable : Unstoppable w h) (working : Working maxSize w h) {op : WorkerOp ι τ}
    (other : op.NotStop) (stepped : w.step op = .ok after) :
    Unstoppable after (WorkerHistory.note w op after h) := by
  cases op with
  | push thread request =>
      obtain ⟨idle, producers⟩ := Worker.step_push stepped
      obtain ⟨tasks, -, rfl⟩ := Worker.pushStep_eq_ok.mp stepped
      refine ⟨unstoppable.reached, ?_⟩
      intro this
      rw [producers]
      by_cases same : this = thread
      · rw [same, Function.update_self]
        cases request with
        | stop => exact absurd other id
        | task task => exact nofun
      · rw [Function.update_of_ne same]
        exact unstoppable.pushes this
  | producer thread =>
      obtain ⟨-, producer, producers, stays⟩ := Worker.step_producer stepped
      have published := working.published stepped
      obtain ⟨tasks, -, rfl⟩ := Worker.pushStep_eq_ok.mp stepped
      constructor
      · have notQueued : Request.stop ∉ h.queued := fun queued => unstoppable.reached (.inl queued)
        rintro (queued | moved)
        · cases published with
          | stays inside same => exact notQueued (same ▸ queued)
          | refused full now same => exact notQueued (same ▸ queued)
          | @publishes request head was now longer =>
              rw [longer, List.mem_append, List.mem_singleton] at queued
              rcases queued with before | rfl
              · exact notQueued before
              · exact unstoppable.pushes thread (by rw [was]; rfl)
        · exact unstoppable.reached (.inr moved)
      · intro this
        rw [producers]
        by_cases same : this = thread
        · rw [same, Function.update_self]
          rcases stays with rfl | value
          · exact nofun
          · rw [value]
            exact unstoppable.pushes thread
        · rw [Function.update_of_ne same]
          exact unstoppable.pushes this
  | loop headFirst => exact unstoppable.loopStep working stepped
  | finish result =>
      have producers := Worker.finish_producers stepped
      refine ⟨?_, by rw [producers]; exact unstoppable.pushes⟩
      rcases Worker.finish_cases stepped with ⟨running, rfl⟩ | ⟨task, running, rfl⟩
      · exact absurd (.inr (.inl running)) unstoppable.reached
      · rintro (queued | again | done)
        · exact unstoppable.reached (.inl queued)
        · cases again
        · exact unstoppable.reached (.inr (.inr done))

/-- The loop goes on. -/
theorem run (unstoppable : Unstoppable w h) (working : Working maxSize w h)
    {ops : List (WorkerOp ι τ)} {last : Worker ι τ × WorkerHistory τ}
    (reached : Run (observed Worker.step WorkerHistory.note)
      (fun watched op => watched.1.Alone op ∧ op.NotStop) (w, h) ops last) :
    last.1.loop ≠ .ended := by
  have kept : Working maxSize last.1 last.2 ∧ Unstoppable last.1 last.2 := by
    apply reached.invariant (fun watched =>
      Working maxSize watched.1 watched.2 ∧ Unstoppable watched.1 watched.2)
      ⟨working, unstoppable⟩
    intro before op after held allowed stepped
    obtain ⟨moved, noted⟩ := observed_eq_ok.mp stepped
    rw [noted]
    exact ⟨held.1.step allowed.1 moved, held.2.step held.1 allowed.2 moved⟩
  exact fun ended => kept.2.not_done (kept.1.ended ended)

end Unstoppable

end Unstoppable

/-! ## The workers of a pool -/

/-- A step of a worker's loop, in a pool. -/
def PoolOp.ofWorker {ι : Type u} (id : Word) : PoolOp ι → Bool
  | .loop worker _ => worker = id
  | .finish worker _ => worker = id
  | _ => false

namespace ThreadPool

variable {ι : Type u}

/-- The destructor's `stop` of a worker has returned. -/
def StopReturned (pool : ThreadPool ι) (id : Word) : Prop :=
  match pool.destruction with
  | .notStarted => False
  | .stopping worker => id < worker
  | .pushing worker => id < worker
  | .joining _ => True
  | .finished => True

/-- The destructor does not load `m_tail` in a full queue. -/
def StopFindsRoom (pool : ThreadPool ι) : PoolOp ι → Prop
  | .destructor =>
      match pool.destruction with
      | .pushing id => (pool.workers id).FindsRoom .destructor
      | _ => True
  | _ => True

instance (pool : ThreadPool ι) : (op : PoolOp ι) → Decidable (pool.StopFindsRoom op)
  | .destructor =>
      match stage : pool.destruction with
      | .pushing id =>
          decidable_of_iff (((pool.workers id).tasks.producers .destructor).FindsRoom
            (pool.workers id).tasks.queue) (by simp [StopFindsRoom, stage, Worker.FindsRoom])
      | .notStarted | .stopping _ | .joining _ | .finished =>
          .isTrue (by simp [StopFindsRoom, stage])
  | .addTask _ | .caller _ | .loop _ _ | .finish _ _ | .destroy => .isTrue trivial

/-- The steps that bring each worker its stop request. -/
def Reaches (pool : ThreadPool ι) (op : PoolOp ι) : Prop :=
  pool.KeepsApart op ∧ pool.StopFindsRoom op

instance (pool : ThreadPool ι) (op : PoolOp ι) : Decidable (pool.Reaches op) :=
  inferInstanceAs (Decidable (_ ∧ _))

/-- Stop requests that were made are on their way. -/
structure Stopping (pool : ThreadPool ι) (h : PoolHistory) : Prop where
  target : ∀ id, pool.destruction = .stopping id ∨ pool.destruction = .pushing id →
    id < pool.nOfThreads
  some_ : 0 < pool.nOfThreads
  reached : ∀ id < pool.nOfThreads, pool.StopReturned id →
    (pool.workers id).StopReached (h.workers id)

section Parts

variable {pool : ThreadPool ι}

/-- Where the destructor goes on to the next worker, the `stop` of this one and those before have
returned. -/
theorem returned_afterStop {id other : Word} (below : id < pool.nOfThreads)
    (inside : other < pool.nOfThreads)
    (now : ({ pool with destruction := pool.afterStop id } : ThreadPool ι).StopReturned other) :
    other < id ∨ other = id := by
  rw [StopReturned] at now
  rw [← le_iff_lt_or_eq, ← BitVec.toNat_le_toNat]
  by_cases last : id + 1 = pool.nOfThreads
  · have one : (1 : Word).toNat = 1 := rfl
    rw [BitVec.lt_def] at below inside
    rw [← last, BitVec.toNat_add_of_fits (by omega), one] at inside
    omega
  · have place : pool.afterStop id = .stopping (id + 1) := if_neg last
    have after := (Serialised.target_afterStop below (.inl place)).2.1
    simp only [place, BitVec.lt_def, after] at now
    omega

/-- A worker's part in a step of the pool. -/
theorem ofLoop_workerOp {op : PoolOp ι} {id : Word} {own : WorkerOp (PoolThread ι) ℕ}
    (takes : pool.workerOp op = some (id, own)) : op.ofWorker id = own.ofLoop := by
  cases op with
  | caller caller =>
      cases stage : pool.callers caller <;> simp only [workerOp, stage, reduceCtorEq,
        Option.some.injEq, Prod.mk.injEq] at takes
      · rw [← takes.2]
        rfl
      · rw [← takes.2]
        rfl
  | loop worker headFirst =>
      obtain ⟨rfl, rfl⟩ := Prod.mk.inj (Option.some.inj takes)
      simp [PoolOp.ofWorker, WorkerOp.ofLoop]
  | finish worker result =>
      obtain ⟨rfl, rfl⟩ := Prod.mk.inj (Option.some.inj takes)
      simp [PoolOp.ofWorker, WorkerOp.ofLoop]
  | destructor =>
      cases stage : pool.destruction <;> simp only [workerOp, stage, reduceCtorEq,
        Option.some.injEq, Prod.mk.injEq] at takes
      · rw [← takes.2]
        rfl
      · rw [← takes.2]
        rfl
  | addTask caller => cases takes
  | destroy => cases takes

/-- A step in which a worker takes no part is none of its loop. -/
theorem ofWorker_of_apart {op : PoolOp ι} {id : Word}
    (apart : ∀ own, pool.workerOp op ≠ some (id, own)) : op.ofWorker id = false := by
  cases op with
  | loop worker headFirst =>
      rw [PoolOp.ofWorker, decide_eq_false_iff_not]
      rintro rfl
      exact apart _ rfl
  | finish worker result =>
      rw [PoolOp.ofWorker, decide_eq_false_iff_not]
      rintro rfl
      exact apart _ rfl
  | _ => rfl

end Parts

variable [DecidableEq ι] {pool after : ThreadPool ι} {h : PoolHistory} {maxSize : ℕ}

/-- **A run of the pool is a run of each worker**, with the same steps of its loop. -/
theorem run_worker (pooling : Pooling maxSize pool h) {ops : List (PoolOp ι)}
    {last : ThreadPool ι × PoolHistory}
    (run : Run (observed step PoolHistory.note) (fun watched op => watched.1.KeepsApart op)
      (pool, h) ops last) (id : Word) :
    Pooling maxSize last.1 last.2 ∧ ∃ own : List (WorkerOp (PoolThread ι) ℕ),
      Run (observed Worker.step WorkerHistory.note) (fun watched op => watched.1.Alone op)
        (pool.workers id, h.workers id) own (last.1.workers id, last.2.workers id) ∧
      (own.filter WorkerOp.ofLoop).length = (ops.filter (PoolOp.ofWorker id)).length := by
  induction run with
  | nil => exact ⟨pooling, [], .nil, rfl⟩
  | @snoc ops before after op _ keeps stepped ih =>
      obtain ⟨held, own, ran, count⟩ := ih
      obtain ⟨moved, noted⟩ := observed_eq_ok.mp stepped
      rw [noted]
      refine ⟨held.step keeps moved, ?_⟩
      rcases worker_cases (h := before.2) moved id with ⟨apart, worker, same⟩ |
        ⟨part, takes, worker, same⟩
      · refine ⟨own, ?_, ?_⟩
        · rw [worker, same]
          exact ran
        · rw [List.filter_append, List.length_append, count,
            List.filter_cons_of_neg (by simp [ofWorker_of_apart apart])]
          rfl
      · refine ⟨own ++ [part], ran.snoc (held.serialised.alone keeps takes) ?_, ?_⟩
        · exact observed_eq_ok.mpr ⟨worker, same⟩
        · rw [List.filter_append, List.filter_append, List.length_append, List.length_append,
            count]
          congr 1
          rw [List.filter_cons, List.filter_cons, ofLoop_workerOp takes]
          split <;> rfl

/-- A stop request that is on its way stays on its way. -/
theorem reached_step (pooling : Pooling maxSize pool h) {op : PoolOp ι}
    (stepped : pool.step op = .ok after) {id : Word}
    (reached : (pool.workers id).StopReached (h.workers id)) :
    (after.workers id).StopReached ((PoolHistory.note pool op after h).workers id) := by
  rcases worker_cases (h := h) stepped id with ⟨-, worker, same⟩ | ⟨own, takes, moved, same⟩
  · rw [worker, same]
    exact reached
  · rw [same]
    cases ofLoop : own.ofLoop with
    | true => exact ((pooling.working id).loop_remaining reached ofLoop moved).1
    | false => exact ((pooling.working id).other_remaining reached ofLoop moved).1

namespace Stopping

/-- A step that lets no `stop` return. -/
theorem of_returned (stopping : pool.Stopping h) (pooling : Pooling maxSize pool h) {op : PoolOp ι}
    (stepped : pool.step op = .ok after)
    (size : after.nOfThreads = pool.nOfThreads)
    (target : ∀ id, after.destruction = .stopping id ∨ after.destruction = .pushing id →
      id < pool.nOfThreads)
    (returned : ∀ id < pool.nOfThreads, after.StopReturned id → pool.StopReturned id) :
    after.Stopping (.note pool op after h) where
  target := by
    rw [size]
    exact target
  some_ := by
    rw [size]
    exact stopping.some_
  reached := by
    rw [size]
    intro id below now
    exact reached_step pooling stepped (stopping.reached id below (returned id below now))

/-- **A step keeps the stop requests on their way**, where they find room. -/
theorem step (stopping : pool.Stopping h) (pooling : Pooling maxSize pool h) {op : PoolOp ι}
    (reaches : pool.Reaches op) (stepped : pool.step op = .ok after) :
    after.Stopping (.note pool op after h) := by
  have finds := reaches.2
  cases step_cases stepped with
  | calls _ => exact stopping.of_returned pooling stepped rfl stopping.target fun _ _ => id
  | locks _ _ => exact stopping.of_returned pooling stepped rfl stopping.target fun _ _ => id
  | enters _ _ => exact stopping.of_returned pooling stepped rfl stopping.target fun _ _ => id
  | pushes _ _ _ =>
      exact stopping.of_returned pooling stepped rfl stopping.target fun _ _ => id
  | adds _ _ _ => exact stopping.of_returned pooling stepped rfl stopping.target fun _ _ => id
  | unlocks _ => exact stopping.of_returned pooling stepped rfl stopping.target fun _ _ => id
  | loops _ _ => exact stopping.of_returned pooling stepped rfl stopping.target fun _ _ => id
  | finishes _ _ =>
      exact stopping.of_returned pooling stepped rfl stopping.target fun _ _ => id
  | destroys first =>
      refine stopping.of_returned pooling stepped rfl ?_ ?_
      · rintro id (target | target)
        · obtain rfl := Destruction.stopping.inj target
          exact stopping.some_
        · cases target
      · intro id _ now
        exact absurd (BitVec.lt_def.mp now) (Nat.not_lt_zero _)
  | @stops id worker stage moved =>
      refine stopping.of_returned pooling stepped rfl ?_ ?_
      · rintro other (target | target)
        · cases target
        · obtain rfl := Destruction.pushing.inj target
          exact stopping.target id (.inl stage)
      · intro other _ now
        rw [StopReturned, stage]
        exact now
  | stopPushes _ _ _ =>
      exact stopping.of_returned pooling stepped rfl stopping.target fun _ _ => id
  | @stopped id worker stage moved outside =>
      have below := stopping.target id (.inr stage)
      refine ⟨fun other target => (Serialised.target_afterStop below target).2.2, stopping.some_,
        ?_⟩
      intro other inside now
      rcases returned_afterStop below inside now with before | rfl
      · exact reached_step pooling stepped
          (stopping.reached other inside (by rw [StopReturned, stage]; exact before))
      · have room : (pool.workers other).FindsRoom .destructor := by
          rw [StopFindsRoom, stage] at finds
          exact finds
        have stops := (pooling.serialised.inside other .destructor .stop).mpr
          (by simp only [pushedBy, stage])
        have kept := ((pooling.working other).stopped_iff moved stops outside).mpr (.inl room)
        have noted : (PoolHistory.note pool .destructor
            { pool.setWorker other worker with destruction := pool.afterStop other } h).workers
              other = .note (pool.workers other) (.producer .destructor) worker
                (h.workers other) := by
          simp only [PoolHistory.note, PoolHistory.noteWorkers, workerOp, stage,
            Function.update_self]
        rw [noted]
        change (Function.update pool.workers other worker other).StopReached _
        rw [Function.update_self]
        exact kept.imp_right .inr
  | @joins id stage ended =>
      refine stopping.of_returned pooling stepped rfl ?_ ?_
      · intro other target
        exact absurd target (afterJoin_target pool id other)
      · intro other _ _
        rw [StopReturned, stage]
        trivial

omit [DecidableEq ι] in
theorem create {numberOfThreads workerTaskQueueSize hardwareConcurrency : Word} :
    (create numberOfThreads workerTaskQueueSize hardwareConcurrency : ThreadPool ι).Stopping
      .empty where
  target := by rintro id (target | target) <;> cases target
  some_ := numberOfWorkers_pos numberOfThreads hardwareConcurrency
  reached := nofun

end Stopping

end ThreadPool

/-! ## The end of the loops -/

section Ends

variable {κ : Type v} {τ : Type u} {ι : Type u} [DecidableEq κ] [DecidableEq τ] [DecidableEq ι]

/-- The loop of a worker can end, whatever else is pushed: the number of its own steps is bounded,
and before the end there is always one that it can take. -/
def Worker.LoopCanEnd (w : Worker κ τ) (h : WorkerHistory τ) : Prop :=
  ∃ bound, ∀ ops last,
    Run (observed Worker.step WorkerHistory.note) (fun watched op => watched.1.Alone op)
      (w, h) ops last →
    (ops.filter WorkerOp.ofLoop).length ≤ bound ∧
      (last.1.loop ≠ .ended → (∃ after, last.1.step (.finish .returned) = .ok after) ∨
        ∀ headFirst, ∃ after, last.1.step (.loop headFirst) = .ok after)

/-- The loop of a pool's worker can end, once what it runs has come to its end. -/
def ThreadPool.LoopCanEnd (pool : ThreadPool ι) (h : PoolHistory) (id : Word) : Prop :=
  ∃ bound, ∀ ops last,
    Run (observed ThreadPool.step PoolHistory.note) (fun watched op => watched.1.KeepsApart op)
      (pool, h) ops last →
    (ops.filter (PoolOp.ofWorker id)).length ≤ bound ∧
      ((last.1.workers id).loop = .ended ∨
        (∃ request, (last.1.workers id).loop = .running request) ∨
        ∀ headFirst, ∃ after, last.1.step (.loop id headFirst) = .ok after)

theorem Working.loopCanEnd {maxSize : ℕ} {w : Worker κ τ} {h : WorkerHistory τ}
    (working : Working maxSize w h) (reached : w.StopReached h) : w.LoopCanEnd h := by
  refine ⟨w.remaining h.ahead, fun ops last run => ?_⟩
  obtain ⟨works, -, bound⟩ := working.own_steps_le reached run
  exact ⟨by omega, works.can_step⟩

/-- A pool keeps its number of workers. -/
theorem ThreadPool.nOfThreads_step {pool after : ThreadPool ι} {op : PoolOp ι}
    (stepped : pool.step op = .ok after) : after.nOfThreads = pool.nOfThreads := by
  cases step_cases stepped <;> rfl

theorem ThreadPool.Pooling.loopCanEnd {maxSize : ℕ} {pool : ThreadPool ι} {h : PoolHistory}
    (pooling : Pooling maxSize pool h) {id : Word} (below : id < pool.nOfThreads)
    (reached : (pool.workers id).StopReached (h.workers id)) : pool.LoopCanEnd h id := by
  refine ⟨(pool.workers id).remaining (h.workers id).ahead, fun ops last run => ?_⟩
  obtain ⟨pools, own, ran, count⟩ := run_worker pooling run id
  obtain ⟨works, -, bound⟩ := (pooling.working id).own_steps_le reached ran
  have size : last.1.nOfThreads = pool.nOfThreads := by
    apply run.invariant (fun watched => watched.1.nOfThreads = pool.nOfThreads) rfl
    intro before op after same _ stepped
    exact (nOfThreads_step (observed_eq_ok.mp stepped).1).trans same
  refine ⟨by omega, ?_⟩
  by_cases ended : (last.1.workers id).loop = .ended
  · exact .inl ended
  · refine .inr ?_
    rcases works.can_step ended with ⟨after, finished⟩ | steps
    · rcases Worker.finish_cases finished with ⟨running, -⟩ | ⟨task, running, -⟩
      · exact .inl ⟨.stop, running⟩
      · exact .inl ⟨.task task, running⟩
    · refine .inr fun headFirst => ?_
      obtain ⟨worker, stepped⟩ := steps headFirst
      refine ⟨last.1.setWorker id worker, ?_⟩
      rw [ThreadPool.step, if_pos (by rw [size]; exact below)]
      exact onWorker_eq_ok.mpr ⟨worker, stepped, rfl⟩

/-- **Where the stop request reaches the worker.** In every state of a worker, `stop` returns with
the request in the queue or the worker done exactly if its push finds room, or that was so before.
Once a request is on its way the loop can end, and without one it does not.

For a pool: where the destructor's pushes find room, and meet no other push of the same worker, the
loop of every worker whose `stop` has returned can end, and the destructor joins it then. -/
theorem shutdown_reaches_the_workers [Inhabited τ] :
    (∀ {size : Word}, size.toNat < 2 ^ 64 - 1 →
      ∀ {ops : List (WorkerOp κ τ)} {w : Worker κ τ} {h : WorkerHistory τ},
      Run (observed Worker.step WorkerHistory.note) (fun watched op => watched.1.Alone op)
        (.create size, .empty) ops (w, h) →
      (∀ thread after, w.step (.producer thread) = .ok after →
        (w.tasks.producers thread).value = some .stop →
        after.tasks.producers thread = .idle →
        ((Request.stop ∈ (WorkerHistory.note w (.producer thread) after h).queued ∨
            after.done = true) ↔
          w.FindsRoom thread ∨ Request.stop ∈ h.queued ∨ w.done = true)) ∧
      (w.StopReached h → w.LoopCanEnd h) ∧
      (Unstoppable w h → ∀ more last,
        Run (observed Worker.step WorkerHistory.note)
          (fun watched op => watched.1.Alone op ∧ op.NotStop) (w, h) more last →
        last.1.loop ≠ .ended)) ∧
    ∀ {numberOfThreads workerTaskQueueSize hardwareConcurrency : Word},
      (ThreadPool.taskQueueSize workerTaskQueueSize).toNat < 2 ^ 64 - 1 →
      ∀ {ops : List (PoolOp ι)} {pool : ThreadPool ι} {h : PoolHistory},
      Run (observed ThreadPool.step PoolHistory.note) (fun watched op => watched.1.Reaches op)
        (.create numberOfThreads workerTaskQueueSize hardwareConcurrency, .empty) ops (pool, h) →
      (∀ id < pool.nOfThreads, pool.StopReturned id →
        (pool.workers id).StopReached (h.workers id) ∧ pool.LoopCanEnd h id) ∧
      ∀ id, pool.destruction = .joining id →
        ((∃ after, pool.step .destructor = .ok after) ↔ (pool.workers id).loop = .ended) := by
  constructor
  · intro size fits ops w h run
    have working : Working size.toNat w h := by
      apply run.invariant (fun watched => Working size.toNat watched.1 watched.2) (.create fits)
      intro before op after held alone stepped
      obtain ⟨moved, noted⟩ := observed_eq_ok.mp stepped
      rw [noted]
      exact held.step alone moved
    exact ⟨fun thread after => working.stopped_iff, working.loopCanEnd,
      fun unstoppable more last => unstoppable.run working⟩
  · intro numberOfThreads workerTaskQueueSize hardwareConcurrency fits ops pool h run
    obtain ⟨pooling, stopping⟩ :
        ThreadPool.Pooling (ThreadPool.taskQueueSize workerTaskQueueSize).toNat pool h ∧
          pool.Stopping h := by
      apply run.invariant (fun watched => ThreadPool.Pooling
        (ThreadPool.taskQueueSize workerTaskQueueSize).toNat watched.1 watched.2 ∧
          watched.1.Stopping watched.2) ⟨.create fits, .create⟩
      intro before op after held reaches stepped
      obtain ⟨moved, noted⟩ := observed_eq_ok.mp stepped
      rw [noted]
      exact ⟨held.1.step reaches.1 moved, held.2.step held.1 reaches moved⟩
    constructor
    · intro id below returned
      have reached := stopping.reached id below returned
      exact ⟨reached, pooling.loopCanEnd below reached⟩
    · intro id joining
      simp only [ThreadPool.step, ThreadPool.destructorStep, joining]
      by_cases ended : (pool.workers id).loop = .ended
      · simp [ended]
      · simp [ended]

end Ends

/-- A task is in the queue of a worker with room for one, and `stop` is called. -/
def fullOps : List (WorkerOp ℕ ℕ) :=
  [.push 0 (.task 7), .producer 0, .producer 0, .producer 0, .push 0 .stop]

def fullWorker : Worker ℕ ℕ × WorkerHistory ℕ :=
  (checkedRun (observed Worker.step WorkerHistory.note) (fun _ _ => True)
    (Worker.create 1, .empty) fullOps).get (by decide +kernel)

def refusedWorker : Worker ℕ ℕ :=
  (fullWorker.1.step (.producer 0)).toOption.get (by decide +kernel)

/-- The push finds the queue full, and `stop` returns. -/
theorem stop_is_refused :
    ¬ ∀ (ops : List (WorkerOp ℕ ℕ)) (w after : Worker ℕ ℕ) (h : WorkerHistory ℕ) (thread : ℕ),
      Run (observed Worker.step WorkerHistory.note) (fun _ _ => True)
        (Worker.create 1, .empty) ops (w, h) →
      w.step (.producer thread) = .ok after →
      (w.tasks.producers thread).value = some .stop → after.tasks.producers thread = .idle →
      Request.stop ∈ (WorkerHistory.note w (.producer thread) after h).queued ∨
        after.done = true := by
  intro claim
  have run : Run (observed Worker.step WorkerHistory.note) (fun _ _ => True)
      (Worker.create 1, .empty) fullOps fullWorker := Run.of_isSome _
  have stepped : fullWorker.1.step (.producer 0) = .ok refusedWorker := eq_ok_of_isSome _
  have returned : (refusedWorker.tasks.producers 0).inside = false := by decide +kernel
  have reached := claim fullOps fullWorker.1 refusedWorker fullWorker.2 0 run stepped
    (by decide +kernel) (Producer.inside_eq_false.mp returned)
  exact absurd reached (by decide +kernel)

instance {κ : Type v} [Fintype κ] {τ : Type u} (w : Worker κ τ) :
    (op : WorkerOp κ τ) → Decidable (w.Alone op)
  | .push _ _ =>
      decidable_of_iff (∀ thread, (w.tasks.producers thread).inside = false)
        (forall_congr' fun _ => Producer.inside_eq_false)
  | .producer _ | .loop _ | .finish _ => .isTrue trivial

/-- `stop` is called while the queue has room, and its push writes the slot. -/
def roomOps : List (WorkerOp Unit ℕ) :=
  [.push () .stop, .producer (), .producer ()]

def roomWorker : Worker Unit ℕ × WorkerHistory ℕ :=
  (checkedRun (observed Worker.step WorkerHistory.note) (fun watched op => watched.1.Alone op)
    (Worker.create 1, .empty) roomOps).get (by decide +kernel)

def stoppedWorker : Worker Unit ℕ :=
  (roomWorker.1.step (.producer ())).toOption.get (by decide +kernel)

theorem shutdown_reaches_the_workers_room :
    Request.stop ∈ (WorkerHistory.note roomWorker.1 (.producer ()) stoppedWorker
      roomWorker.2).queued ∨ stoppedWorker.done = true := by
  have run : Run (observed Worker.step WorkerHistory.note)
      (fun watched op => watched.1.Alone op)
      (Worker.create 1, .empty) roomOps roomWorker := Run.of_isSome _
  have stepped : roomWorker.1.step (.producer ()) = .ok stoppedWorker := eq_ok_of_isSome _
  have returned : (stoppedWorker.tasks.producers ()).inside = false := by decide +kernel
  have room : roomWorker.1.FindsRoom () := by
    rw [Worker.FindsRoom]
    decide +kernel
  have fits : (1 : Word).toNat < 2 ^ 64 - 1 := by decide
  have reaches := ((shutdown_reaches_the_workers (ι := ℕ)).1 fits
    (w := roomWorker.1) (h := roomWorker.2) run).1
  exact (reaches () stoppedWorker stepped (by decide +kernel)
    (Producer.inside_eq_false.mp returned)).mpr (.inl room)

end Jasl
