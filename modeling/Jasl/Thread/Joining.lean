import Jasl.Thread.Progress

/-!
# When the destructor of a pool returns

`~ThreadPool` asks one worker after the other to stop and then joins their threads.
`Worker::stop` does not look at what `push` returns, so the question is what becomes of
the destructor where a request was refused.

Its steps are counted down (`ThreadPool.destructionLeft`); it waits at a join only, for a
loop that has not ended. A loop whose request to stop was accepted ends
(`eventually_ended`), and one whose request was refused does not, because the destructor
does not ask again (`Lost`). So the destructor returns exactly if none of its requests
meets a full queue (`destructor_returns_iff`).
-/

set_option autoImplicit false

namespace Jasl

open Library

universe u v

/-! ## What the destructor has left to do -/

/-- How many steps a push has left at most. -/
def Producer.stepsLeft {α : Type u} : Producer α → ℕ
  | .idle => 0
  | .loadedHead _ _ => 3
  | .writing _ _ => 2
  | .storing _ _ => 1

section Steps

variable {ι : Type v} {τ : Type u} [DecidableEq ι] {w after : Worker ι τ}

/-- A step inside a push brings it nearer to its end. -/
theorem Worker.stepsLeft_producer {thread : ι} (stepped : w.step (.producer thread) = .ok after) :
    (after.tasks.producers thread).stepsLeft < (w.tasks.producers thread).stepsLeft := by
  obtain ⟨tasks, moved, rfl⟩ := Worker.pushStep_eq_ok.mp stepped
  obtain ⟨producer, producers, -, move⟩ := SharedQueue.step_producer .empty moved
  have there : tasks.producers thread = producer := by
    rw [producers, Function.update_self]
  change (tasks.producers thread).stepsLeft < _
  rw [there]
  generalize SharedQueue.note w.tasks (.producer thread) .empty = noted at move
  generalize w.tasks.producers thread = before at move
  cases move <;> simp [Producer.stepsLeft]

/-- A thread is where it was when the step is not its own. -/
theorem Worker.producers_other {thread : ι} {op : WorkerOp ι τ}
    (pushes : ∀ request, op ≠ .push thread request) (inside : op ≠ .producer thread)
    (stepped : w.step op = .ok after) :
    after.tasks.producers thread = w.tasks.producers thread := by
  cases op with
  | push other request =>
      obtain ⟨-, producers⟩ := Worker.step_push stepped
      have different : thread ≠ other := by
        rintro rfl
        exact pushes request rfl
      rw [producers, Function.update_of_ne different]
  | producer other =>
      obtain ⟨-, producer, producers, -⟩ := Worker.step_producer stepped
      have different : thread ≠ other := by
        rintro rfl
        exact inside rfl
      rw [producers, Function.update_of_ne different]
  | loop headFirst => rw [Worker.loopStep_producers stepped]
  | finish result => rw [Worker.finish_producers stepped]

/-- A loop that has ended takes no step. -/
theorem Worker.ended_step (ended : w.loop = .ended) {op : WorkerOp ι τ}
    (stepped : w.step op = .ok after) : after.loop = .ended := by
  cases op with
  | push thread request =>
      obtain ⟨tasks, -, rfl⟩ := Worker.pushStep_eq_ok.mp stepped
      exact ended
  | producer thread =>
      obtain ⟨tasks, -, rfl⟩ := Worker.pushStep_eq_ok.mp stepped
      exact ended
  | loop headFirst =>
      simp only [step, loopStep, ended] at stepped
      cases stepped
  | finish result =>
      simp only [step, finish, ended] at stepped
      cases stepped

end Steps

/-- The thread that takes a step which may be one inside a push. -/
def PoolOp.thread {ι : Type u} : PoolOp ι → Option (PoolThread ι)
  | .caller thread => some (.caller thread)
  | .destructor => some .destructor
  | _ => none

namespace ThreadPool

variable {ι : Type u}

/-- How many steps the destructor has left at most, those at which it has to wait included. -/
def destructionLeft (pool : ThreadPool ι) : ℕ :=
  match pool.destruction with
  | .notStarted => 6 * pool.nOfThreads.toNat + 2
  | .stopping id => 5 * (pool.nOfThreads.toNat - id.toNat) + pool.nOfThreads.toNat + 1
  | .pushing id => 5 * (pool.nOfThreads.toNat - id.toNat - 1) + pool.nOfThreads.toNat + 1 +
      ((pool.workers id).tasks.producers .destructor).stepsLeft
  | .joining id => pool.nOfThreads.toNat - id.toNat
  | .finished => 0

/-- The thread of a worker was joined. -/
def HasJoined (pool : ThreadPool ι) (id : Word) : Prop :=
  match pool.destruction with
  | .joining worker => id < worker
  | .finished => True
  | _ => False

/-- The destructor goes through the workers of the pool, and joins those whose loop has ended. -/
structure Destroys (pool : ThreadPool ι) : Prop where
  target : ∀ id, pool.destruction = .stopping id ∨ pool.destruction = .pushing id ∨
    pool.destruction = .joining id → id < pool.nOfThreads
  some_ : 0 < pool.nOfThreads
  joined : ∀ id < pool.nOfThreads, pool.HasJoined id → (pool.workers id).loop = .ended

/-- The worker after one of those before it. -/
theorem toNat_succ {id number : Word} (below : id < number) : (id + 1).toNat = id.toNat + 1 := by
  have one : (1 : Word).toNat = 1 := rfl
  rw [BitVec.lt_def] at below
  rw [BitVec.toNat_add_of_fits (by omega), one]

theorem succ_lt {id number : Word} (below : id < number) (more : id + 1 ≠ number) :
    id + 1 < number := by
  have different : (id + 1).toNat ≠ number.toNat := fun same => more (BitVec.eq_of_toNat_eq same)
  rw [toNat_succ below] at different
  rw [BitVec.lt_def] at below ⊢
  rw [toNat_succ below]
  omega

section Steps

variable [DecidableEq ι] {pool after : ThreadPool ι} {op : PoolOp ι}

theorem ended_step (stepped : pool.step op = .ok after) {id : Word}
    (ended : (pool.workers id).loop = .ended) : (after.workers id).loop = .ended := by
  rcases worker_cases (h := .empty) stepped id with ⟨-, same, -⟩ | ⟨own, -, part, -⟩
  · rw [same]
    exact ended
  · exact Worker.ended_step ended part

/-- A thread that pushes is where it was when the step is another's. -/
theorem producers_other (stepped : pool.step op = .ok after) {thread : PoolThread ι}
    (other : op.thread ≠ some thread) (id : Word) :
    (after.workers id).tasks.producers thread = (pool.workers id).tasks.producers thread := by
  rcases worker_cases (h := .empty) stepped id with ⟨-, same, -⟩ | ⟨own, takes, part, -⟩
  · rw [same]
  · have pushes : (∃ request, own = .push thread request) ∨ own = .producer thread →
        op.thread = some thread := by
      intro mine
      cases op with
      | caller caller =>
          cases stage : pool.callers caller <;> simp [workerOp, stage] at takes
          · obtain ⟨-, rfl⟩ := takes
            simpa [PoolOp.thread] using mine
          · obtain ⟨-, rfl⟩ := takes
            simpa [PoolOp.thread] using mine
      | destructor =>
          cases stage : pool.destruction <;> simp [workerOp, stage] at takes
          · obtain ⟨-, rfl⟩ := takes
            simpa [PoolOp.thread] using mine
          · obtain ⟨-, rfl⟩ := takes
            simpa [PoolOp.thread] using mine
      | loop worker headFirst =>
          obtain ⟨-, rfl⟩ := Prod.mk.inj (Option.some.inj takes)
          simp at mine
      | finish worker result =>
          obtain ⟨-, rfl⟩ := Prod.mk.inj (Option.some.inj takes)
          simp at mine
      | addTask caller => cases takes
      | destroy => cases takes
    apply Worker.producers_other _ _ part
    · rintro request rfl
      exact other (pushes (.inl ⟨request, rfl⟩))
    · rintro rfl
      exact other (pushes (.inr rfl))

/-- Only the destructor's steps, and the first of them all, move it on. -/
theorem destruction_other (stepped : pool.step op = .ok after) (other : op ≠ .destructor)
    (begun : op ≠ .destroy) : after.destruction = pool.destruction := by
  cases step_cases stepped with
  | destroys => exact absurd rfl begun
  | stops => exact absurd rfl other
  | stopPushes => exact absurd rfl other
  | stopped => exact absurd rfl other
  | joins => exact absurd rfl other
  | _ => rfl

/-- The steps of other threads leave the destructor as much as it had. -/
theorem destructionLeft_other (stepped : pool.step op = .ok after) (other : op ≠ .destructor) :
    after.destructionLeft ≤ pool.destructionLeft := by
  have size := nOfThreads_step stepped
  by_cases begun : op = .destroy
  · subst begun
    cases step_cases stepped with
    | destroys first =>
        simp only [destructionLeft, first, BitVec.ofNat_eq_ofNat, BitVec.toNat_ofNat]
        omega
  · have same := destruction_other stepped other begun
    cases stage : pool.destruction with
    | pushing id =>
        rw [stage] at same
        have apart : op.thread ≠ some .destructor := by
          cases op with
          | destructor => exact absurd rfl other
          | _ => simp [PoolOp.thread]
        simp only [destructionLeft, stage, same, size, producers_other stepped apart]
        exact le_rfl
    | _ =>
        rw [stage] at same
        simp only [destructionLeft, stage, same, size]
        exact le_rfl

end Steps

namespace Destroys

theorem create {numberOfThreads workerTaskQueueSize hardwareConcurrency : Word} :
    (create numberOfThreads workerTaskQueueSize hardwareConcurrency : ThreadPool ι).Destroys where
  target := by rintro id (target | target | target) <;> cases target
  some_ := numberOfWorkers_pos numberOfThreads hardwareConcurrency
  joined := nofun

variable [DecidableEq ι] {pool after : ThreadPool ι} {op : PoolOp ι}

/-- A step that does not move the destructor on. -/
theorem of_same (destroys : pool.Destroys) (stepped : pool.step op = .ok after)
    (same : after.destruction = pool.destruction) : after.Destroys where
  target := by
    rw [same, nOfThreads_step stepped]
    exact destroys.target
  some_ := by
    rw [nOfThreads_step stepped]
    exact destroys.some_
  joined := by
    intro id below has
    rw [nOfThreads_step stepped] at below
    rw [HasJoined, same] at has
    exact ended_step stepped (destroys.joined id below has)

/-- A step after which no worker has been joined. -/
theorem of_none (destroys : pool.Destroys) (stepped : pool.step op = .ok after)
    (target : ∀ id, after.destruction = .stopping id ∨ after.destruction = .pushing id ∨
      after.destruction = .joining id → id < pool.nOfThreads)
    (none : ∀ id, ¬ after.HasJoined id) : after.Destroys where
  target := by
    rw [nOfThreads_step stepped]
    exact target
  some_ := by
    rw [nOfThreads_step stepped]
    exact destroys.some_
  joined := fun id _ has => absurd has (none id)

omit [DecidableEq ι] in
/-- A worker is joined. -/
theorem join (destroys : pool.Destroys) {id : Word} (stage : pool.destruction = .joining id)
    (ended : (pool.workers id).loop = .ended) :
    ({ pool with destruction := pool.afterJoin id } : ThreadPool ι).Destroys := by
  have below := destroys.target id (.inr (.inr stage))
  have all : ∀ other, other.toNat < id.toNat + 1 → other < pool.nOfThreads →
      (pool.workers other).loop = .ended := by
    intro other before inside
    rcases Nat.lt_succ_iff_lt_or_eq.mp before with earlier | same
    · refine destroys.joined other inside ?_
      rw [HasJoined, stage]
      exact BitVec.lt_def.mpr earlier
    · rw [BitVec.eq_of_toNat_eq same]
      exact ended
  by_cases last : id + 1 = pool.nOfThreads
  · have place : pool.afterJoin id = .finished := if_pos last
    rw [place]
    refine ⟨?_, destroys.some_, ?_⟩
    · rintro other (target | target | target) <;> cases target
    · intro other inside _
      refine all other ?_ inside
      rw [← toNat_succ below, last]
      exact BitVec.lt_def.mp inside
  · have place : pool.afterJoin id = .joining (id + 1) := if_neg last
    rw [place]
    refine ⟨?_, destroys.some_, ?_⟩
    · rintro other (target | target | target)
      · cases target
      · cases target
      · obtain rfl := Destruction.joining.inj target
        exact succ_lt below last
    · intro other inside has
      have before : other < id + 1 := has
      refine all other ?_ inside
      rw [← toNat_succ below]
      exact BitVec.lt_def.mp before

/-- **A step keeps the destructor on its way.** -/
theorem step (destroys : pool.Destroys) (stepped : pool.step op = .ok after) : after.Destroys := by
  cases step_cases stepped with
  | destroys first =>
      refine destroys.of_none stepped ?_ fun id has => has
      rintro id (target | target | target)
      · obtain rfl := Destruction.stopping.inj target
        exact destroys.some_
      · cases target
      · cases target
  | @stops id worker stage moved =>
      refine destroys.of_none stepped ?_ fun other has => has
      rintro other (target | target | target)
      · cases target
      · obtain rfl := Destruction.pushing.inj target
        exact destroys.target id (.inl stage)
      · cases target
  | stopPushes stage moved inside => exact destroys.of_same stepped rfl
  | @stopped id worker stage moved outside =>
      have below := destroys.target id (.inr (.inl stage))
      by_cases last : id + 1 = pool.nOfThreads
      · have place : pool.afterStop id = .joining 0 := if_pos last
        rw [place] at stepped ⊢
        refine destroys.of_none stepped ?_ ?_
        · rintro other (target | target | target)
          · cases target
          · cases target
          · obtain rfl := Destruction.joining.inj target
            exact destroys.some_
        · intro other has
          exact absurd (BitVec.lt_def.mp has) (Nat.not_lt_zero _)
      · have place : pool.afterStop id = .stopping (id + 1) := if_neg last
        rw [place] at stepped ⊢
        refine destroys.of_none stepped ?_ fun other has => has
        rintro other (target | target | target)
        · obtain rfl := Destruction.stopping.inj target
          exact succ_lt below last
        · cases target
        · cases target
  | joins stage ended => exact destroys.join stage ended
  | _ => exact destroys.of_same stepped rfl

/-- **A step of the destructor leaves it less to do.** -/
theorem destructionLeft_lt (destroys : pool.Destroys) (stepped : pool.step .destructor = .ok after) :
    after.destructionLeft < pool.destructionLeft := by
  cases step_cases stepped with
  | @stops id worker stage moved =>
      have below := BitVec.lt_def.mp (destroys.target id (.inl stage))
      obtain ⟨-, producers⟩ := Worker.step_push moved
      simp only [destructionLeft, stage, Function.update_self, producers, Producer.stepsLeft]
      omega
  | @stopPushes id worker stage moved inside =>
      have nearer := Worker.stepsLeft_producer moved
      simp only [destructionLeft, stage, Function.update_self]
      omega
  | @stopped id worker stage moved outside =>
      have below := destroys.target id (.inr (.inl stage))
      have nearer := Worker.stepsLeft_producer moved
      by_cases last : id + 1 = pool.nOfThreads
      · have place : pool.afterStop id = .joining 0 := if_pos last
        simp only [destructionLeft, stage, place]
        omega
      · have place : pool.afterStop id = .stopping (id + 1) := if_neg last
        simp only [destructionLeft, stage, place, toNat_succ below]
        omega
  | @joins id stage ended =>
      have below := destroys.target id (.inr (.inr stage))
      have positive := BitVec.lt_def.mp below
      by_cases last : id + 1 = pool.nOfThreads
      · have place : pool.afterJoin id = .finished := if_pos last
        simp only [destructionLeft, stage, place]
        omega
      · have place : pool.afterJoin id = .joining (id + 1) := if_neg last
        simp only [destructionLeft, stage, place, toNat_succ below]
        omega

end Destroys

/-! ## A request that was refused -/

/-- The destructor has come back from a worker that has not accepted its request. -/
structure Lost (pool : ThreadPool ι) (h : PoolHistory) (id : Word) : Prop where
  returned : pool.StopReturned id
  none : Request.stop ∉ (h.workers id).queue.accepted

section Lost

variable [DecidableEq ι] {pool after : ThreadPool ι} {h : PoolHistory} {id : Word}

/-- A worker gets its request to stop while the destructor pushes it. -/
theorem stop_accepted (serialised : pool.Serialised) {op : PoolOp ι}
    (stepped : pool.step op = .ok after)
    (accepted : Request.stop ∈ ((PoolHistory.note pool op after h).workers id).queue.accepted) :
    Request.stop ∈ (h.workers id).queue.accepted ∨ pool.destruction = .pushing id := by
  rcases worker_cases (h := h) stepped id with ⟨-, -, same⟩ | ⟨own, -, part, same⟩
  · rw [same] at accepted
    exact .inl accepted
  · rw [same] at accepted
    by_cases pushes : ∃ thread, own = .producer thread
    · obtain ⟨thread, rfl⟩ := pushes
      obtain ⟨tasks, moved, -⟩ := Worker.pushStep_eq_ok.mp part
      obtain ⟨producer, -, -, move⟩ := SharedQueue.step_producer (h.workers id).queue moved
      have value : ((pool.workers id).tasks.producers thread).value = some .stop →
          pool.destruction = .pushing id := by
        intro stops
        have pushed := (serialised.inside id thread .stop).mp stops
        cases thread with
        | caller caller =>
            obtain ⟨-, call, workerId, -, other⟩ := pushedBy_caller pushed
            cases other
        | destructor => exact (pushedBy_destructor pushed).1
      simp only [WorkerHistory.note] at accepted
      generalize SharedQueue.note (pool.workers id).tasks (.producer thread)
        (h.workers id).queue = noted at move accepted
      generalize (pool.workers id).tasks.producers thread = before at move value
      cases move with
      | finds room =>
          rcases List.mem_append.mp accepted with earlier | last
          · exact .inl earlier
          · rw [List.mem_singleton.mp last] at value
            exact .inr (value rfl)
      | _ => exact .inl accepted
    · rw [WorkerHistory.note_accepted fun thread same => pushes ⟨thread, same⟩] at accepted
      exact .inl accepted

/-- A worker that the destructor has come back from is behind it for good. -/
theorem returned_step (destroys : pool.Destroys) {op : PoolOp ι}
    (stepped : pool.step op = .ok after) (returned : pool.StopReturned id) :
    after.StopReturned id := by
  cases step_cases stepped with
  | destroys first =>
      rw [StopReturned, first] at returned
      exact returned.elim
  | stops stage moved =>
      rw [StopReturned, stage] at returned
      exact returned
  | @stopped worker other stage moved outside =>
      rw [StopReturned, stage] at returned
      have below := destroys.target worker (.inr (.inl stage))
      by_cases last : worker + 1 = pool.nOfThreads
      · have place : pool.afterStop worker = .joining 0 := if_pos last
        rw [place]
        trivial
      · have place : pool.afterStop worker = .stopping (worker + 1) := if_neg last
        have before := BitVec.lt_def.mp returned
        rw [place]
        change id < worker + 1
        rw [BitVec.lt_def, toNat_succ below]
        omega
  | @joins worker stage ended =>
      by_cases last : worker + 1 = pool.nOfThreads
      · have place : pool.afterJoin worker = .finished := if_pos last
        rw [place]
        trivial
      · have place : pool.afterJoin worker = .joining (worker + 1) := if_neg last
        rw [place]
        trivial
  | _ => exact returned

/-- **A request that was refused stays refused.** -/
theorem Lost.step (lost : pool.Lost h id) (serialised : pool.Serialised) (destroys : pool.Destroys)
    {op : PoolOp ι} (stepped : pool.step op = .ok after) :
    after.Lost (.note pool op after h) id where
  returned := returned_step destroys stepped lost.returned
  none := by
    intro accepted
    rcases stop_accepted serialised stepped accepted with earlier | pushing
    · exact lost.none earlier
    · have returned := lost.returned
      rw [StopReturned, pushing] at returned
      exact lt_irrefl _ (BitVec.lt_def.mp returned)

/-- Where the destructor's push meets a full queue, the request is lost. -/
theorem lost_of_full (accounted : pool.Accounted h) (destroys : pool.Destroys)
    (stepped : pool.step .destructor = .ok after) (full : ¬ pool.StopFindsRoom .destructor) :
    ∃ id < pool.nOfThreads, after.Lost (.note pool .destructor after h) id := by
  cases stage : pool.destruction with
  | pushing id =>
      rw [StopFindsRoom, stage] at full
      have below := destroys.target id (.inr (.inl stage))
      obtain ⟨value, head, stands, same⟩ : ∃ value head,
          (pool.workers id).tasks.producers .destructor = .loadedHead value head ∧
            (pool.workers id).tasks.queue.increment head = (pool.workers id).tasks.queue.tail := by
        change ¬ Producer.FindsRoom _ _ at full
        generalize (pool.workers id).tasks.producers .destructor = producer at full ⊢
        cases producer with
        | loadedHead value head => exact ⟨value, head, rfl, not_ne_iff.mp full⟩
        | _ => exact absurd trivial full
      refine ⟨id, below, ?_, ?_⟩
      · cases step_cases stepped with
        | stops stage' moved => rw [stage] at stage'; cases stage'
        | joins stage' ended => rw [stage] at stage'; cases stage'
        | @stopPushes other worker stage' moved inside =>
            obtain rfl := Destruction.pushing.inj (stage.symm.trans stage')
            obtain ⟨tasks, pushed, rfl⟩ := Worker.pushStep_eq_ok.mp moved
            obtain ⟨producer, producers, -, move⟩ := SharedQueue.step_producer .empty pushed
            generalize SharedQueue.note (pool.workers id).tasks (.producer .destructor)
              .empty = noted at move
            rw [stands] at move
            change tasks.producers .destructor ≠ .idle at inside
            rw [producers, Function.update_self] at inside
            cases move with
            | refused => exact absurd rfl inside
            | finds room => exact absurd same room
        | @stopped other worker stage' moved outside =>
            obtain rfl := Destruction.pushing.inj (stage.symm.trans stage')
            by_cases last : id + 1 = pool.nOfThreads
            · have place : pool.afterStop id = .joining 0 := if_pos last
              rw [place]
              trivial
            · have place : pool.afterStop id = .stopping (id + 1) := if_neg last
              rw [place]
              change id < id + 1
              rw [BitVec.lt_def, toNat_succ below]
              omega
      · have unstopped : Request.stop ∉ (h.workers id).queue.accepted := by
          intro stop
          have stopped := accounted.stops id stop
          rw [HasStopped, stage] at stopped
          rcases stopped with before | ⟨-, accepted⟩
          · exact lt_irrefl _ (BitVec.lt_def.mp before)
          · rw [stands] at accepted
            cases accepted
        intro accepted
        rcases worker_cases (h := h) stepped id with ⟨-, -, noted⟩ | ⟨own, takes, part, noted⟩
        · rw [noted] at accepted
          exact unstopped accepted
        · simp only [workerOp, stage, Option.some.injEq, Prod.mk.injEq, true_and] at takes
          subst takes
          rw [noted] at accepted
          simp only [WorkerHistory.note, SharedQueue.note, stands, SharedQueue.seenBy,
            SpscHistory.noteProducer, same, if_true] at accepted
          exact unstopped accepted
  | _ =>
      rw [StopFindsRoom, stage] at full
      exact absurd trivial full

end Lost

end ThreadPool

/-! ## Executions -/

/-- A step of the destructor. -/
def PoolOp.ofDestructor {ι : Type u} : PoolOp ι → Bool
  | .destructor => true
  | _ => false

theorem PoolOp.ofDestructor_eq_true {ι : Type u} {op : PoolOp ι} :
    op.ofDestructor = true ↔ op = .destructor := by
  cases op <;> simp [ofDestructor]

namespace ThreadPool

variable {ι : Type u} [DecidableEq ι]

omit [DecidableEq ι] in
theorem returned_of_joins {pool : ThreadPool ι} (joins : pool.destruction.joins = true) (id : Word) :
    pool.StopReturned id := by
  rw [StopReturned]
  cases stage : pool.destruction with
  | joining worker => trivial
  | finished => trivial
  | _ =>
      rw [stage] at joins
      cases joins

/-- The destructor waits for a loop that has not ended, or has returned. -/
def Waits (pool : ThreadPool ι) : Prop :=
  pool.destruction = .finished ∨
    ∃ id, pool.destruction = .joining id ∧ (pool.workers id).loop ≠ .ended

/-- The destructor is not left out, while it has a step to take. -/
def DestructorScheduled (e : Lasting ι) (start : ℕ) : Prop :=
  Recurs start fun time => e.Takes time PoolOp.ofDestructor ∨ (e.state time).1.Waits

/-- A destructor with the workers that it asks to stop. -/
structure Stopped (maxSize : ℕ) (pool : ThreadPool ι) (h : PoolHistory) : Prop where
  pooling : Pooling maxSize pool h
  destroys : pool.Destroys
  stopping : pool.Stopping h

section Executions

variable {maxSize start : ℕ} {e : Lasting ι}

/-- **A loop whose request to stop is on its way ends**, when it is not left out. -/
theorem eventually_ended {id : Word}
    (pools : ∀ time, start ≤ time → Pooling maxSize (e.state time).1 (e.state time).2)
    (scheduled : Scheduled e start id)
    (reached : ((e.state start).1.workers id).StopReached ((e.state start).2.workers id)) :
    ∃ time, start ≤ time ∧ ((e.state time).1.workers id).loop = .ended := by
  have stays : ∀ time, start ≤ time →
      ((e.state time).1.workers id).StopReached ((e.state time).2.workers id) := by
    intro time later
    induction time, later using Nat.le_induction with
    | base => exact reached
    | succ time later ih =>
        cases taken : e.label time with
        | none =>
            rw [Execution.rested taken]
            exact ih
        | some op =>
            obtain ⟨moved, noted⟩ := observed_eq_ok.mp (Execution.took taken)
            rw [noted]
            exact reached_step (pools time later) moved ih
  apply e.eventually_of_kind
    (fun watched => (watched.1.workers id).remaining (watched.2.workers id).ahead)
    (fun watched => (watched.1.workers id).loop = .ended) (PoolOp.ofWorker id)
  · intro time later _ op taken kind
    obtain ⟨moved, noted⟩ := observed_eq_ok.mp (Execution.took taken)
    rw [noted]
    rcases worker_cases (h := (e.state time).2) moved id with
      ⟨apart, -, -⟩ | ⟨own, takes, part, same⟩
    · rw [ofWorker_of_apart apart] at kind
      cases kind
    · rw [same]
      rw [ofLoop_workerOp takes] at kind
      exact (((pools time later).working id).loop_remaining (stays time later) kind part).2
  · intro time later _ op taken kind
    obtain ⟨moved, noted⟩ := observed_eq_ok.mp (Execution.took taken)
    rw [noted]
    rcases worker_cases (h := (e.state time).2) moved id with
      ⟨apart, worker, same⟩ | ⟨own, takes, part, same⟩
    · rw [worker, same]
    · rw [same]
      rw [ofLoop_workerOp takes] at kind
      exact (((pools time later).working id).other_remaining (stays time later) kind part).2.le
  · exact scheduled

/-- A loop that has ended stays so. -/
theorem ended_later {id : Word} {time later : ℕ} (order : time ≤ later)
    (ended : ((e.state time).1.workers id).loop = .ended) :
    ((e.state later).1.workers id).loop = .ended := by
  refine e.keeps_allowed (fun _ _ => True) (fun watched => (watched.1.workers id).loop = .ended)
    (fun _ _ _ => trivial) ended ?_ later order
  intro before op after holds _ stepped
  exact ended_step (observed_eq_ok.mp stepped).1 holds

/-- The number of workers stays. -/
theorem size_later {time later : ℕ} (order : time ≤ later) :
    (e.state later).1.nOfThreads = (e.state time).1.nOfThreads := by
  refine e.keeps_allowed (fun _ _ => True)
    (fun watched => watched.1.nOfThreads = (e.state time).1.nOfThreads)
    (fun _ _ _ => trivial) rfl ?_ later order
  intro before op after same _ stepped
  exact (nOfThreads_step (observed_eq_ok.mp stepped).1).trans same

/-- A destructor that has returned stays so. -/
theorem finished_later {time later : ℕ} (order : time ≤ later)
    (finished : (e.state time).1.destruction = .finished) :
    (e.state later).1.destruction = .finished := by
  refine e.keeps_allowed (fun _ _ => True) (fun watched => watched.1.destruction = .finished)
    (fun _ _ _ => trivial) finished ?_ later order
  rintro before op ⟨after, noted⟩ holds - stepped
  have moved : before.1.step op = .ok after := (observed_eq_ok.mp stepped).1
  cases step_cases moved with
  | destroys first => cases first.symm.trans holds
  | stops stage => cases stage.symm.trans holds
  | stopped stage => cases stage.symm.trans holds
  | joins stage => cases stage.symm.trans holds
  | _ => exact holds

/-- The destructor comes to a goal when it does not wait before. -/
theorem eventually_of_destructor (goal : ThreadPool ι × PoolHistory → Prop)
    (destroys : ∀ time, start ≤ time → (e.state time).1.Destroys)
    (scheduled : DestructorScheduled e start)
    (reached : ∀ time, start ≤ time → (e.state time).1.Waits → goal (e.state time)) :
    ∃ time, start ≤ time ∧ goal (e.state time) := by
  apply e.eventually_of_kind (fun watched => watched.1.destructionLeft) goal PoolOp.ofDestructor
  · intro time later _ op taken kind
    obtain ⟨moved, -⟩ := observed_eq_ok.mp (Execution.took taken)
    rw [PoolOp.ofDestructor_eq_true.mp kind] at moved
    exact (destroys time later).destructionLeft_lt moved
  · intro time later _ op taken kind
    obtain ⟨moved, -⟩ := observed_eq_ok.mp (Execution.took taken)
    refine destructionLeft_other moved ?_
    rintro rfl
    cases kind
  · intro time later
    obtain ⟨next, onward, takes | waits⟩ := scheduled time later
    · exact ⟨next, onward, .inl takes⟩
    · exact ⟨next, onward, .inr (reached next (later.trans onward) waits)⟩

/-- **Where no request is refused the destructor returns.** -/
theorem eventually_finished_destruction
    (holds : ∀ time, start ≤ time → Stopped maxSize (e.state time).1 (e.state time).2)
    (loops : ∀ id < (e.state start).1.nOfThreads, Scheduled e start id)
    (scheduled : DestructorScheduled e start) :
    ∃ time, start ≤ time ∧ (e.state time).1.destruction = .finished := by
  -- the destructor makes all its requests
  obtain ⟨asked, later, joins⟩ := eventually_of_destructor
    (fun watched => watched.1.destruction.joins = true)
    (fun time later => (holds time later).destroys) scheduled (by
      rintro time - (finished | ⟨id, joining, -⟩)
      · rw [finished]
        rfl
      · rw [joining]
        rfl)
  -- every loop ends
  obtain ⟨quiet, order, ended⟩ : ∃ time, asked ≤ time ∧
      ∀ number < (e.state start).1.nOfThreads.toNat, ∀ id : Word, id.toNat = number →
        ((e.state time).1.workers id).loop = .ended := by
    apply exists_forall_lt
    · intro number time next onward all id same
      exact ended_later onward (all id same)
    · intro number below
      have inside : BitVec.ofNat 64 number < (e.state start).1.nOfThreads := by
        rw [BitVec.lt_def, BitVec.toNat_ofNat]
        exact (Nat.mod_le _ _).trans_lt below
      have reached := (holds asked later).stopping.reached _ (by rw [size_later later]; exact inside)
        (returned_of_joins joins (BitVec.ofNat 64 number))
      obtain ⟨time, onward, ended⟩ := eventually_ended
        (fun time onward => (holds time (later.trans onward)).pooling)
        (fun time onward => loops _ inside time (later.trans onward)) reached
      refine ⟨time, onward, ?_⟩
      rintro id rfl
      rw [BitVec.ofNat_toNat, BitVec.setWidth_eq] at ended
      exact ended
  -- the destructor joins them
  obtain ⟨time, onward, finished⟩ := eventually_of_destructor
    (fun watched => watched.1.destruction = .finished)
    (fun time onward => (holds time (later.trans (order.trans onward))).destroys)
    (fun time onward => scheduled time (later.trans (order.trans onward))) (by
      rintro time onward (finished | ⟨id, joining, going⟩)
      · exact finished
      · have since := later.trans (order.trans onward)
        have below := (holds time since).destroys.target id (.inr (.inr joining))
        rw [size_later since] at below
        exact absurd (ended_later onward (ended _ (BitVec.lt_def.mp below) id rfl)) going)
  exact ⟨time, later.trans (order.trans onward), finished⟩

end Executions

section Results

variable {numberOfThreads workerTaskQueueSize hardwareConcurrency : Word} {e : Lasting ι}

theorem destroys_of_begins (begins : e.state 0 =
      (create numberOfThreads workerTaskQueueSize hardwareConcurrency, .empty)) (time : ℕ) :
    (e.state time).1.Destroys := by
  refine e.keeps_allowed (fun _ _ => True) (fun watched => watched.1.Destroys)
    (fun _ _ _ => trivial) ?_ ?_ time (Nat.zero_le time)
  · rw [begins]
    exact .create
  · intro before op after destroys _ stepped
    exact destroys.step (observed_eq_ok.mp stepped).1

/-- **The destructor of a pool returns exactly if none of its requests meets a full queue.** In
every execution in which the calls of `add_task` return before `~ThreadPool` starts, and neither the
loop of a worker nor the destructor is left out while it has a step to take. -/
theorem destructor_returns_iff (fits : (taskQueueSize workerTaskQueueSize).toNat < 2 ^ 64 - 1)
    (begins : e.state 0 =
      (create numberOfThreads workerTaskQueueSize hardwareConcurrency, .empty))
    (returns : ∀ time, ∀ op ∈ e.label time, (e.state time).1.ReturnsFirst (e.state time).2 op)
    {start : ℕ} (loops : ∀ id < (e.state start).1.nOfThreads, Scheduled e start id)
    (scheduled : DestructorScheduled e start) :
    (∃ time, (e.state time).1.destruction = .finished) ↔
      ∀ time, ∀ op ∈ e.label time, (e.state time).1.StopFindsRoom op := by
  have books := accounted_of_returns fits begins returns
  have destroys := destroys_of_begins begins
  constructor
  · rintro ⟨time, finished⟩ early op taken
    by_contra full
    obtain rfl : op = .destructor := by
      cases op with
      | destructor => rfl
      | _ => exact absurd trivial full
    obtain ⟨moved, noted⟩ := observed_eq_ok.mp (Execution.took taken)
    obtain ⟨id, below, lost⟩ := lost_of_full (books early).2 (destroys early) moved full
    rw [← noted] at lost
    have stays : ∀ later, early + 1 ≤ later →
        (e.state later).1.Lost (e.state later).2 id := by
      intro later order
      induction later, order using Nat.le_induction with
      | base => exact lost
      | succ later _ ih =>
          cases next : e.label later with
          | none =>
              rw [Execution.rested next]
              exact ih
          | some op =>
              obtain ⟨stepped, kept⟩ := observed_eq_ok.mp (Execution.took next)
              rw [kept]
              exact ih.step (books later).1.serialised (destroys later) stepped
    -- where it has returned, the loop of that worker has ended, and so was asked to
    have hasReturned := finished_later (le_max_left time (early + 1)) finished
    have last := stays _ (le_max_right time (early + 1))
    have joined : (e.state (max time (early + 1))).1.HasJoined id := by
      rw [HasJoined, hasReturned]
      trivial
    have inside : id < (e.state (max time (early + 1))).1.nOfThreads := by
      rw [size_later ((Nat.le_succ early).trans (le_max_right time (early + 1)))]
      exact below
    have working := (books (max time (early + 1))).1.working id
    have done := working.ended ((destroys (max time (early + 1))).joined id inside joined)
    have initial := working.finished_initial.trans working.started_initial
    exact last.none (initial.subset (working.done.mp done))
  · intro room
    have stopping : ∀ time, (e.state time).1.Stopping (e.state time).2 := by
      intro time
      induction time with
      | zero =>
          rw [begins]
          exact .create
      | succ time ih =>
          cases taken : e.label time with
          | none =>
              rw [Execution.rested taken]
              exact ih
          | some op =>
              obtain ⟨moved, noted⟩ := observed_eq_ok.mp (Execution.took taken)
              rw [noted]
              exact ih.step (books time).1
                ⟨(books time).2.keepsApart op, room time op taken⟩ moved
    obtain ⟨time, -, finished⟩ := eventually_finished_destruction
      (fun time _ => ⟨(books time).1, destroys time, stopping time⟩) loops scheduled
    exact ⟨time, finished⟩

end Results

end ThreadPool

/-- Both loops have ended and the destructor has returned, so both requests were accepted. -/
theorem destructor_returns_iff_finished : ∃ e : ThreadPool.Lasting ℕ,
    e.state finishedOps.length = finishedPool ∧
      ∀ time, ∀ op ∈ e.label time, (e.state time).1.StopFindsRoom op := by
  have run : Run (observed ThreadPool.step PoolHistory.note)
      (fun watched op => watched.1.ReturnsFirst watched.2 op)
      (ThreadPool.create 2 1 1, .empty) finishedOps finishedPool := Run.of_isSome _
  obtain ⟨e, begins, -, returns, rests⟩ := run.lasting
  have hasReturned : e.state finishedOps.length = finishedPool := (rests _ le_rfl).1
  have finished : (e.state finishedOps.length).1.destruction = .finished := by
    rw [hasReturned]
    decide +kernel
  have loops : ∀ id < (e.state finishedOps.length).1.nOfThreads,
      ThreadPool.Scheduled e finishedOps.length id := by
    intro id below time order
    refine ⟨time, le_rfl, .inr (ThreadPool.ended_later order ?_)⟩
    refine (ThreadPool.destroys_of_begins begins _).joined id below ?_
    rw [ThreadPool.HasJoined, finished]
    trivial
  have scheduled : ThreadPool.DestructorScheduled e finishedOps.length :=
    fun time order => ⟨time, le_rfl, .inr (.inl (ThreadPool.finished_later order finished))⟩
  have fits : (ThreadPool.taskQueueSize 1).toNat < 2 ^ 64 - 1 := by decide
  exact ⟨e, hasReturned,
    (ThreadPool.destructor_returns_iff fits begins returns loops scheduled).mp ⟨_, finished⟩⟩

end Jasl
