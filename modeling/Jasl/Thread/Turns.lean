import Jasl.Thread.AddTask
import Jasl.Thread.Joining

/-!
# The turn of a caller

A caller that has `m_mutex` asks one worker after the other, in a loop that ends where it
finds room or comes back to the worker it began with. Meanwhile the loops of the workers
pop, and the destructor pushes; nobody else moves `m_next_worker`.

So `add_task` gives the mutex back after a bounded number of its own steps, whatever the
other threads do, and it never has to wait for one of them, until the mutex is destroyed
(`add_task_is_bounded`).
-/

set_option autoImplicit false

namespace Jasl

open Library

universe u v

/-- A thread that is inside a push is never stuck. -/
theorem Worker.can_push {ι : Type v} {τ : Type u} [DecidableEq ι] {w : Worker ι τ} {thread : ι}
    (inside : w.tasks.producers thread ≠ .idle) :
    ∃ after, w.step (.producer thread) = .ok after := by
  cases place : w.tasks.producers thread with
  | idle => exact absurd place inside
  | loadedHead request head =>
      simp only [step, pushStep, SharedQueue.step, SharedQueue.produce, place, SharedQueue.seenBy,
        Spsc.step, Spsc.producerStep]
      split_ifs <;> exact ⟨_, rfl⟩
  | writing request head =>
      simp only [step, pushStep, SharedQueue.step, SharedQueue.produce, place]
      exact ⟨_, rfl⟩
  | storing request head =>
      simp only [step, pushStep, SharedQueue.step, SharedQueue.produce, place]
      exact ⟨_, rfl⟩

/-- A step of a caller. -/
def PoolOp.ofCaller {ι : Type u} [DecidableEq ι] (caller : Caller ι) : PoolOp ι → Bool
  | .caller other => other = caller
  | _ => false

/-- A caller calls `add_task`. -/
def PoolOp.begins {ι : Type u} [DecidableEq ι] (caller : Caller ι) : PoolOp ι → Bool
  | .addTask other => other = caller
  | _ => false

/-- The worker that the loop of a call began with. -/
def AddTask.began : AddTask → Option Word
  | .looping _ workerId => some workerId
  | .adding _ workerId => some workerId
  | _ => none

namespace ThreadPool

variable {ι : Type u}

/-- How many workers are left to ask, the next one included, in a loop that began with one. -/
def workersLeft (pool : ThreadPool ι) (workerId : Word) : ℕ :=
  if pool.nextWorker < workerId then workerId.toNat - pool.nextWorker.toNat
  else pool.nOfThreads.toNat - pool.nextWorker.toNat + workerId.toNat

/-- How many steps a caller that has the mutex has left at most. -/
def callLeft (pool : ThreadPool ι) (caller : Caller ι) : ℕ :=
  match pool.callers caller with
  | .idle => 0
  | .locking _ => 0
  | .looping _ workerId => 4 * pool.workersLeft workerId + 1
  | .adding _ workerId => 4 * (pool.workersLeft workerId - 1) + 1 +
      ((pool.workers pool.nextWorker).tasks.producers (.caller caller)).stepsLeft
  | .unlocking _ _ => 1

/-- The callers ask workers of the pool. -/
structure Asks (pool : ThreadPool ι) : Prop where
  serialised : pool.Serialised
  next : pool.nextWorker < pool.nOfThreads
  began : ∀ caller, ∀ workerId ∈ (pool.callers caller).began, workerId < pool.nOfThreads

/-- The next worker is one less to ask. -/
theorem workersLeft_next {pool later : ThreadPool ι} {workerId : Word}
    (next : pool.nextWorker < pool.nOfThreads) (inside : workerId < pool.nOfThreads)
    (turned : later.nextWorker = pool.getNextWorkerId pool.nextWorker)
    (size : later.nOfThreads = pool.nOfThreads)
    (more : pool.getNextWorkerId pool.nextWorker ≠ workerId) :
    later.workersLeft workerId + 1 = pool.workersLeft workerId := by
  have different : (pool.getNextWorkerId pool.nextWorker).toNat ≠ workerId.toNat :=
    fun same => more (BitVec.eq_of_toNat_eq same)
  have position : (pool.getNextWorkerId pool.nextWorker).toNat =
      (pool.nextWorker.toNat + 1) % pool.nOfThreads.toNat := by
    rw [getNextWorkerId, BitVec.toNat_umod, toNat_succ next]
  rw [BitVec.lt_def] at next inside
  simp only [workersLeft, turned, size, BitVec.lt_def]
  rcases Nat.lt_or_ge (pool.nextWorker.toNat + 1) pool.nOfThreads.toNat with below | last
  · rw [Nat.mod_eq_of_lt below] at position
    split_ifs <;> omega
  · have around : pool.nextWorker.toNat + 1 = pool.nOfThreads.toNat := by omega
    rw [around, Nat.mod_self] at position
    split_ifs <;> omega

theorem workersLeft_le {pool : ThreadPool ι} {workerId : Word}
    (inside : workerId < pool.nOfThreads) : pool.workersLeft workerId ≤ pool.nOfThreads.toNat := by
  rw [BitVec.lt_def] at inside
  simp only [workersLeft, BitVec.lt_def]
  split_ifs <;> omega

theorem workersLeft_pos {pool : ThreadPool ι} (workerId : Word)
    (next : pool.nextWorker < pool.nOfThreads) : 0 < pool.workersLeft workerId := by
  rw [BitVec.lt_def] at next
  simp only [workersLeft, BitVec.lt_def]
  split_ifs <;> omega

/-- The bound on the steps of a call, in workers. -/
theorem callLeft_le {pool : ThreadPool ι} (asks : pool.Asks) (caller : Caller ι) :
    pool.callLeft caller ≤ 4 * pool.nOfThreads.toNat + 1 := by
  have positive := BitVec.lt_def.mp asks.next
  rw [callLeft]
  cases stage : pool.callers caller with
  | idle => exact Nat.zero_le _
  | locking call => exact Nat.zero_le _
  | looping call workerId =>
      have bound := workersLeft_le (asks.began caller workerId (by rw [stage]; rfl))
      simp only
      omega
  | adding call workerId =>
      have bound := workersLeft_le (asks.began caller workerId (by rw [stage]; rfl))
      have steps : ∀ producer : Producer (Request ℕ), producer.stepsLeft ≤ 3 := by
        intro producer
        cases producer <;> simp [Producer.stepsLeft]
      have left := steps ((pool.workers pool.nextWorker).tasks.producers (.caller caller))
      simp only
      omega
  | unlocking call result =>
      simp only
      omega

section Steps

variable [DecidableEq ι] {pool after : ThreadPool ι} {op : PoolOp ι} {caller : Caller ι}

namespace Asks

omit [DecidableEq ι] in
theorem create {numberOfThreads workerTaskQueueSize hardwareConcurrency : Word} :
    (create numberOfThreads workerTaskQueueSize hardwareConcurrency : ThreadPool ι).Asks where
  serialised := .create ..
  next := numberOfWorkers_pos numberOfThreads hardwareConcurrency
  began := nofun

/-- A caller stands somewhere else. -/
theorem began_setCaller (asks : pool.Asks) {stage : AddTask}
    (callers : after.callers = Function.update pool.callers caller stage)
    (size : after.nOfThreads = pool.nOfThreads)
    (inside : ∀ workerId ∈ stage.began, workerId < pool.nOfThreads) :
    ∀ other, ∀ workerId ∈ (after.callers other).began, workerId < after.nOfThreads := by
  intro other workerId
  rw [callers, size]
  by_cases same : other = caller
  · rw [same, Function.update_self]
    exact inside workerId
  · rw [Function.update_of_ne same]
    exact asks.began other workerId

/-- **A step keeps the callers asking workers of the pool.** -/
theorem step (asks : pool.Asks) (stepped : pool.step op = .ok after) : after.Asks := by
  have serialised := asks.serialised.step stepped
  cases step_cases stepped with
  | calls idle =>
      refine ⟨serialised, asks.next, asks.began_setCaller rfl rfl ?_⟩
      intro workerId began
      cases began
  | locks stage free =>
      refine ⟨serialised, asks.next, asks.began_setCaller rfl rfl ?_⟩
      intro workerId began
      obtain rfl := Option.some.inj began
      exact asks.next
  | @enters caller call workerId worker stage moved =>
      refine ⟨serialised, asks.next, asks.began_setCaller rfl rfl ?_⟩
      intro other began
      exact asks.began caller other (by rw [stage]; exact began)
  | @adds caller call workerId worker stage moved outside =>
      refine ⟨serialised, ?_, asks.began_setCaller rfl rfl ?_⟩
      · change pool.getNextWorkerId pool.nextWorker < pool.nOfThreads
        have positive := BitVec.lt_def.mp asks.next
        rw [BitVec.lt_def, getNextWorkerId, BitVec.toNat_umod]
        exact Nat.mod_lt _ (by omega)
      · intro other began
        refine asks.began caller other ?_
        rw [stage]
        split_ifs at began
        · cases began
        · cases began
        · exact began
  | unlocks stage =>
      refine ⟨serialised, asks.next, asks.began_setCaller rfl rfl ?_⟩
      intro workerId began
      cases began
  | _ => exact ⟨serialised, asks.next, asks.began⟩

end Asks

/-- **A step of a caller that has the mutex brings it nearer to giving it back.** -/
theorem callLeft_lt (asks : pool.Asks) (locked : (pool.callers caller).locked = true)
    (stepped : pool.step (.caller caller) = .ok after) :
    after.callLeft caller < pool.callLeft caller := by
  cases step_cases stepped with
  | locks stage free =>
      rw [stage] at locked
      cases locked
  | @enters _ call workerId worker stage moved =>
      obtain ⟨-, producers⟩ := Worker.step_push moved
      have more := workersLeft_pos workerId asks.next
      have same : ((pool.setWorker pool.nextWorker worker).setCaller caller
          (.adding call workerId)).workersLeft workerId = pool.workersLeft workerId := rfl
      simp only [callLeft, stage, setCaller, Function.update_self, producers, Producer.stepsLeft]
      simp only [setCaller] at same
      rw [same]
      omega
  | @pushes _ call workerId worker stage moved inside =>
      have nearer := Worker.stepsLeft_producer moved
      have same : (pool.setWorker pool.nextWorker worker).workersLeft workerId =
          pool.workersLeft workerId := rfl
      simp only [callLeft, stage, Function.update_self, same]
      omega
  | @adds _ call workerId worker stage moved outside =>
      have nearer := Worker.stepsLeft_producer moved
      have inside := asks.began caller workerId (by rw [stage]; rfl)
      have before : pool.callLeft caller = 4 * (pool.workersLeft workerId - 1) + 1 +
          ((pool.workers pool.nextWorker).tasks.producers (.caller caller)).stepsLeft := by
        simp only [callLeft, stage]
      generalize ((pool.workers pool.nextWorker).tasks.producers (.caller caller)).result = result
      have now : ((pool.setWorker pool.nextWorker worker).added caller call workerId
          result).callers caller =
            if pool.getNextWorkerId pool.nextWorker = workerId then .unlocking call result
            else if result then .unlocking call result else .looping call workerId :=
        Function.update_self ..
      rw [before]
      by_cases last : pool.getNextWorkerId pool.nextWorker = workerId
      · rw [if_pos last] at now
        simp only [callLeft, now]
        omega
      · rw [if_neg last] at now
        have one : ((pool.setWorker pool.nextWorker worker).added caller call workerId
            result).workersLeft workerId + 1 = pool.workersLeft workerId :=
          workersLeft_next asks.next inside rfl rfl last
        cases result with
        | true =>
            simp only [callLeft, now, if_true]
            omega
        | false =>
            simp only [callLeft, now, Bool.false_eq_true, if_false]
            omega
  | unlocks stage =>
      simp only [callLeft, stage, setCaller, Function.update_self]
      omega

/-- A caller has as many steps left where neither it nor the pool has moved. -/
theorem callLeft_same (stepped : pool.step op = .ok after) (apart : op.thread ≠ some (.caller caller))
    (callers : after.callers caller = pool.callers caller)
    (next : after.nextWorker = pool.nextWorker) :
    after.callers caller = pool.callers caller ∧ after.callLeft caller = pool.callLeft caller := by
  refine ⟨callers, ?_⟩
  have left : ∀ workerId, after.workersLeft workerId = pool.workersLeft workerId := by
    intro workerId
    simp only [workersLeft, next, nOfThreads_step stepped]
  simp only [callLeft, callers, left, next, producers_other stepped apart]

/-- The steps of others leave a caller that has the mutex where it is. -/
theorem callLeft_other (asks : pool.Asks) (locked : (pool.callers caller).locked = true)
    (stepped : pool.step op = .ok after) (other : op ≠ .caller caller) :
    after.callers caller = pool.callers caller ∧ after.callLeft caller = pool.callLeft caller := by
  have apart : op.thread ≠ some (.caller caller) := by
    cases op with
    | caller thread =>
        intro same
        exact other (congrArg PoolOp.caller (PoolThread.caller.inj (Option.some.inj same)))
    | _ => simp [PoolOp.thread]
  have alone : ∀ {thread}, (pool.callers thread).locked = true → op = .caller thread → False := by
    rintro thread holds rfl
    exact other (by rw [asks.serialised.unique holds locked])
  cases step_cases stepped with
  | @calls thread idle =>
      have different : caller ≠ thread := by
        rintro rfl
        rw [idle] at locked
        cases locked
      exact callLeft_same stepped apart (Function.update_of_ne different _ _) rfl
  | @locks thread call stage free =>
      have held := asks.serialised.mutex caller locked
      rw [free] at held
      cases held
  | enters stage moved => exact (alone (by rw [stage]; rfl) rfl).elim
  | pushes stage moved inside => exact (alone (by rw [stage]; rfl) rfl).elim
  | adds stage moved outside => exact (alone (by rw [stage]; rfl) rfl).elim
  | unlocks stage => exact (alone (by rw [stage]; rfl) rfl).elim
  | _ => exact callLeft_same stepped apart rfl rfl

/-- A caller that has the mutex is not stuck, as long as there is a mutex. -/
theorem can_step (asks : pool.Asks) (usable : pool.destruction.joins = false)
    (locked : (pool.callers caller).locked = true) :
    ∃ after, pool.step (.caller caller) = .ok after := by
  rw [step_caller usable]
  cases stage : pool.callers caller with
  | idle =>
      rw [stage] at locked
      cases locked
  | locking call =>
      rw [stage] at locked
      cases locked
  | looping call workerId =>
      have idle : (pool.workers pool.nextWorker).tasks.producers (.caller caller) = .idle := by
        by_contra inside
        have adds := (asks.serialised.caller_inside_iff.mp inside).2
        rw [stage] at adds
        cases adds
      simp only [callerStep, stage, onWorker, Worker.step_push_of_idle (.task call) idle]
      exact ⟨_, rfl⟩
  | adding call workerId =>
      have inside : (pool.workers pool.nextWorker).tasks.producers (.caller caller) ≠ .idle :=
        asks.serialised.caller_inside_iff.mpr ⟨rfl, by rw [stage]; rfl⟩
      obtain ⟨worker, moved⟩ := Worker.can_push inside
      simp only [callerStep, stage, onWorker, moved]
      split <;> exact ⟨_, rfl⟩
  | unlocking call result =>
      simp only [callerStep, stage]
      exact ⟨_, rfl⟩

/-- A caller is where it was when the step is another's. -/
theorem callers_other (stepped : pool.step op = .ok after) (other : op ≠ .caller caller)
    (begun : op.begins caller = false) : after.callers caller = pool.callers caller := by
  have moves : ∀ {thread : Caller ι} {stage : AddTask},
      op = .caller thread ∨ op = .addTask thread →
      Function.update pool.callers thread stage caller = pool.callers caller := by
    rintro thread stage mine
    refine Function.update_of_ne ?_ _ _
    rintro rfl
    refine mine.elim other ?_
    rintro rfl
    simp [PoolOp.begins] at begun
  cases step_cases stepped with
  | calls idle => exact moves (.inr rfl)
  | locks stage free => exact moves (.inl rfl)
  | enters stage moved => exact moves (.inl rfl)
  | adds stage moved outside => exact moves (.inl rfl)
  | unlocks stage => exact moves (.inl rfl)
  | _ => rfl

/-- A call goes on with the mutex, or returns. -/
theorem locked_step (locked : (pool.callers caller).locked = true)
    (stepped : pool.step (.caller caller) = .ok after) :
    (after.callers caller).locked = true ∨ after.callers caller = .idle := by
  cases step_cases stepped with
  | locks stage free => exact .inl (by simp [setCaller, AddTask.locked])
  | enters stage moved => exact .inl (by simp [setCaller, AddTask.locked])
  | pushes stage moved inside => exact .inl locked
  | @adds _ call workerId worker stage moved outside =>
      refine .inl ?_
      simp only [ThreadPool.added, setCaller, Function.update_self]
      split_ifs <;> rfl
  | unlocks stage => exact .inr (by simp [setCaller])

/-- A thread outside of `add_task` takes no step of it. -/
theorem callers_ne_idle (stepped : pool.step (.caller caller) = .ok after) :
    pool.callers caller ≠ .idle := by
  intro idle
  cases step_cases stepped with
  | locks stage _ | enters stage _ | pushes stage _ _ | adds stage _ _ | unlocks stage =>
      rw [idle] at stage
      cases stage

/-- The caller has the mutex, or has returned. -/
structure HasTurn (pool : ThreadPool ι) (caller : Caller ι) : Prop where
  asks : pool.Asks
  stands : (pool.callers caller).locked = true ∨ pool.callers caller = .idle

namespace HasTurn

/-- It has the mutex until it returns. -/
theorem step (turn : pool.HasTurn caller) (begun : op.begins caller = false)
    (stepped : pool.step op = .ok after) : after.HasTurn caller := by
  refine ⟨turn.asks.step stepped, ?_⟩
  by_cases own : op = .caller caller
  · subst own
    rcases turn.stands with locked | idle
    · exact locked_step locked stepped
    · exact absurd idle (callers_ne_idle stepped)
  · rw [callers_other stepped own begun]
    exact turn.stands

/-- **Its own steps count down, and no other step counts up.** -/
theorem callLeft_step (turn : pool.HasTurn caller) (begun : op.begins caller = false)
    (stepped : pool.step op = .ok after) :
    after.callLeft caller + (if op.ofCaller caller then 1 else 0) ≤ pool.callLeft caller := by
  rcases turn.stands with locked | idle
  · by_cases own : op = .caller caller
    · subst own
      have less := callLeft_lt turn.asks locked stepped
      rw [if_pos (by simp [PoolOp.ofCaller])]
      omega
    · have same := (callLeft_other turn.asks locked stepped own).2
      have other : op.ofCaller caller = false := by
        cases op with
        | caller thread => simpa [PoolOp.ofCaller] using own
        | _ => rfl
      rw [other, same]
      simp
  · have other : op.ofCaller caller = false := by
      cases op with
      | caller thread =>
          rw [PoolOp.ofCaller, decide_eq_false_iff_not]
          rintro rfl
          exact callers_ne_idle stepped idle
      | _ => rfl
    have own : op ≠ .caller caller := by
      rintro rfl
      simp [PoolOp.ofCaller] at other
    have still := (callers_other stepped own begun).trans idle
    rw [other]
    simp [callLeft, still]

end HasTurn

end Steps

end ThreadPool

/-- A caller has taken the mutex. -/
def lockedPool : ThreadPool ℕ :=
  (checkedRun ThreadPool.step (fun _ _ => True) (ThreadPool.create 2 1 1) (addOps 1)).get
    (by decide +kernel)

/-- It has returned, beside a worker that pops. -/
def givenPool : ThreadPool ℕ :=
  (checkedRun ThreadPool.step (fun _ op => op.begins (.outside 0) = false) lockedPool
    (.loop 0 true :: List.replicate 5 (.caller (.outside 0)))).get (by decide +kernel)

end Jasl
