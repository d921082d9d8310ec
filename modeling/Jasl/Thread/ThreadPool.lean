import Jasl.Thread.Worker

/-!
# The pool

`ThreadPool`: workers, and `add_task`, which offers a task to one worker after the
other under `m_mutex`, from `m_next_worker` on, until one has room for it or all
were asked. Any number of threads call `add_task`, the tasks that run on the
workers among them. `~ThreadPool` pushes a stop request to each worker; it does not
take the mutex. Then `m_mutex` is destroyed, and the workers one after the other, each
when its thread is joined. A call that goes on after that uses what is not there any
more, so here it takes no step once the joins have begun (`Destruction.joins`).

A call is several steps, and the steps of all threads interleave: the callers, the
loops of the workers, and the thread that destroys the pool. Calls are numbered,
and a task is named by the call that offers it. The history (`PoolHistory`) has one
of each worker and the calls that returned.
-/

set_option autoImplicit false

namespace Jasl

open Library

universe u

/-! ## The pool -/

/-- A thread that calls `add_task`: one outside of the pool, or a task on a worker. -/
inductive Caller (ι : Type u) where
  | outside (thread : ι)
  | task (worker : Word)
deriving DecidableEq, Repr

/-- A thread that pushes. -/
inductive PoolThread (ι : Type u) where
  | caller (caller : Caller ι)
  | destructor
deriving DecidableEq, Repr

/-- Where a call of `add_task` stands. -/
inductive AddTask where
  | idle
  | locking (call : ℕ)
  /-- At the begin of the body of the loop. -/
  | looping (call : ℕ) (workerId : Word)
  /-- Inside `add` of the worker that `m_next_worker` names. -/
  | adding (call : ℕ) (workerId : Word)
  | unlocking (call : ℕ) (result : Bool)
deriving DecidableEq, Repr

/-- Where `~ThreadPool` stands. -/
inductive Destruction where
  | notStarted
  /-- Before `stop` of a worker. -/
  | stopping (worker : Word)
  /-- Inside it. -/
  | pushing (worker : Word)
  /-- In `~Worker`. -/
  | joining (worker : Word)
  | finished
deriving DecidableEq, Repr

/-- The body of `~ThreadPool` has come to its end. -/
def Destruction.joins : Destruction → Bool
  | .notStarted | .stopping _ | .pushing _ => false
  | .joining _ | .finished => true

/-- `ThreadPool`, with the threads that use it. -/
structure ThreadPool (ι : Type u) where
  workers : Word → Worker (PoolThread ι) ℕ
  mutex : Option (Caller ι)
  nextWorker : Word
  nOfThreads : Word
  /-- The number of calls of `add_task` so far. -/
  calls : ℕ
  callers : Caller ι → AddTask
  destruction : Destruction

/-- A step of a thread. -/
inductive PoolOp (ι : Type u) where
  /-- A call of `add_task`. -/
  | addTask (caller : Caller ι)
  | caller (caller : Caller ι)
  | loop (worker : Word) (headFirst : Bool)
  /-- A task comes to its end. -/
  | finish (worker : Word) (result : CallResult)
  /-- `~ThreadPool`. -/
  | destroy
  | destructor

/-- The loop runs a task. -/
def WorkerLoop.runsTask {τ : Type u} : WorkerLoop τ → Bool
  | .running (.task _) => true
  | _ => false

/-- What `push` returns with its last step: it is true when that is the store of `m_head`. -/
def Producer.result {α : Type u} : Producer α → Bool
  | .storing _ _ => true
  | _ => false

/-- The task that a call offers. -/
def AddTask.call : AddTask → Option ℕ
  | .idle => none
  | .locking call => some call
  | .looping call _ => some call
  | .adding call _ => some call
  | .unlocking call _ => some call

/-- The caller has `m_mutex`. -/
def AddTask.locked : AddTask → Bool
  | .idle => false
  | .locking _ => false
  | _ => true

namespace ThreadPool

variable {ι : Type u}

def defaultNumberOfWorkers : Word := 1

def defaultWorkerQueueSize : Word := 10

/-- The number of workers: the one that is asked for, or that of the hardware's threads. -/
def numberOfWorkers (numberOfThreads hardwareConcurrency : Word) : Word :=
  if numberOfThreads = 0 then
    if hardwareConcurrency = 0 then defaultNumberOfWorkers else hardwareConcurrency
  else numberOfThreads

/-- There is a worker. -/
theorem numberOfWorkers_pos (numberOfThreads hardwareConcurrency : Word) :
    0 < numberOfWorkers numberOfThreads hardwareConcurrency := by
  have positive : ∀ {number : Word}, number ≠ 0 → 0 < number := by
    intro number some_
    rw [BitVec.lt_def]
    exact Nat.pos_of_ne_zero fun zero => some_ (BitVec.eq_of_toNat_eq zero)
  rw [numberOfWorkers]
  split
  · split
    · decide
    · exact positive ‹_›
  · exact positive ‹_›

/-- The size of their queues. -/
def taskQueueSize (workerTaskQueueSize : Word) : Word :=
  if workerTaskQueueSize = 0 then defaultWorkerQueueSize else workerTaskQueueSize

/-- `ThreadPool::ThreadPool`. -/
def create (numberOfThreads workerTaskQueueSize hardwareConcurrency : Word) : ThreadPool ι where
  workers := fun _ => .create (taskQueueSize workerTaskQueueSize)
  mutex := none
  nextWorker := 0
  nOfThreads := numberOfWorkers numberOfThreads hardwareConcurrency
  calls := 0
  callers := fun _ => .idle
  destruction := .notStarted

/-- `ThreadPool::get_next_worker_id`. -/
def getNextWorkerId (pool : ThreadPool ι) (currentId : Word) : Word :=
  (currentId + 1) % pool.nOfThreads

/-- A task calls while it runs. -/
def MayCall (pool : ThreadPool ι) : Caller ι → Prop
  | .outside _ => True
  | .task worker =>
      worker < pool.nOfThreads ∧ (pool.workers worker).loop.runsTask = true

instance (pool : ThreadPool ι) : (caller : Caller ι) → Decidable (pool.MayCall caller)
  | .outside _ => inferInstanceAs (Decidable True)
  | .task _ => inferInstanceAs (Decidable (_ ∧ _))

/-- The worker after one of those before it in the loop of the destructor. -/
def afterStop (pool : ThreadPool ι) (worker : Word) : Destruction :=
  if worker + 1 = pool.nOfThreads then .joining 0 else .stopping (worker + 1)

/-- The worker that is destroyed after another. -/
def afterJoin (pool : ThreadPool ι) (worker : Word) : Destruction :=
  if worker + 1 = pool.nOfThreads then .finished else .joining (worker + 1)

variable [DecidableEq ι]

def setCaller (pool : ThreadPool ι) (caller : Caller ι) (stage : AddTask) : ThreadPool ι :=
  { pool with callers := Function.update pool.callers caller stage }

/-- A step of a worker. -/
def onWorker (pool : ThreadPool ι) (id : Word) (op : WorkerOp (PoolThread ι) ℕ) :
    Except OutOfTurn (ThreadPool ι) :=
  match (pool.workers id).step op with
  | .error failed => .error failed
  | .ok worker => .ok { pool with workers := Function.update pool.workers id worker }

/-- `add` has returned: `m_next_worker` goes on, and the loop does or does not. -/
def added (pool : ThreadPool ι) (caller : Caller ι) (call : ℕ) (workerId : Word) (result : Bool) :
    ThreadPool ι :=
  let next := pool.getNextWorkerId pool.nextWorker
  let stage :=
    if next = workerId then AddTask.unlocking call result
    else if result then .unlocking call result
    else .looping call workerId
  { pool with nextWorker := next }.setCaller caller stage

/-- The next step of `add_task`. -/
def callerStep (pool : ThreadPool ι) (caller : Caller ι) : Except OutOfTurn (ThreadPool ι) :=
  match pool.callers caller with
  | .idle => .error .outOfTurn
  | .locking call =>
      if pool.mutex = none then
        .ok ({ pool with mutex := some caller }.setCaller caller (.looping call pool.nextWorker))
      else .error .outOfTurn
  | .looping call workerId =>
      match pool.onWorker pool.nextWorker (.push (.caller caller) (.task call)) with
      | .error failed => .error failed
      | .ok next => .ok (next.setCaller caller (.adding call workerId))
  | .adding call workerId =>
      match pool.onWorker pool.nextWorker (.producer (.caller caller)) with
      | .error failed => .error failed
      | .ok next =>
          if ((next.workers pool.nextWorker).tasks.producers (.caller caller)).inside then .ok next
          else
            .ok (next.added caller call workerId
              ((pool.workers pool.nextWorker).tasks.producers (.caller caller)).result)
  | .unlocking _ _ => .ok ({ pool with mutex := none }.setCaller caller .idle)

/-- The next step of `~ThreadPool`. -/
def destructorStep (pool : ThreadPool ι) : Except OutOfTurn (ThreadPool ι) :=
  match pool.destruction with
  | .notStarted => .error .outOfTurn
  | .stopping worker =>
      match pool.onWorker worker (.push .destructor .stop) with
      | .error failed => .error failed
      | .ok next => .ok { next with destruction := .pushing worker }
  | .pushing worker =>
      match pool.onWorker worker (.producer .destructor) with
      | .error failed => .error failed
      | .ok next =>
          if ((next.workers worker).tasks.producers .destructor).inside then .ok next
          else .ok { next with destruction := pool.afterStop worker }
  | .joining worker =>
      if (pool.workers worker).loop = .ended then
        .ok { pool with destruction := pool.afterJoin worker }
      else .error .outOfTurn
  | .finished => .error .outOfTurn

/-- One step. Those of `add_task` are undefined without the mutex and the workers, and not taken. -/
def step (pool : ThreadPool ι) : PoolOp ι → Except OutOfTurn (ThreadPool ι)
  | .addTask caller =>
      if pool.callers caller = .idle ∧ pool.MayCall caller ∧ pool.destruction.joins = false then
        .ok ({ pool with calls := pool.calls + 1 }.setCaller caller (.locking pool.calls))
      else .error .outOfTurn
  | .caller caller =>
      if pool.destruction.joins = false then pool.callerStep caller else .error .outOfTurn
  | .loop worker headFirst =>
      if worker < pool.nOfThreads then pool.onWorker worker (.loop headFirst)
      else .error .outOfTurn
  | .finish worker result =>
      if worker < pool.nOfThreads ∧ pool.callers (.task worker) = .idle then
        pool.onWorker worker (.finish result)
      else .error .outOfTurn
  | .destroy =>
      if pool.destruction = .notStarted then .ok { pool with destruction := .stopping 0 }
      else .error .outOfTurn
  | .destructor => pool.destructorStep

/-- Which worker takes part in a step, and with which of its steps. -/
def workerOp (pool : ThreadPool ι) : PoolOp ι → Option (Word × WorkerOp (PoolThread ι) ℕ)
  | .caller caller =>
      match pool.callers caller with
      | .looping call _ => some (pool.nextWorker, .push (.caller caller) (.task call))
      | .adding _ _ => some (pool.nextWorker, .producer (.caller caller))
      | _ => none
  | .loop worker headFirst => some (worker, .loop headFirst)
  | .finish worker result => some (worker, .finish result)
  | .destructor =>
      match pool.destruction with
      | .stopping worker => some (worker, .push .destructor .stop)
      | .pushing worker => some (worker, .producer .destructor)
      | _ => none
  | _ => none

end ThreadPool

/-- What happened to a pool. -/
structure PoolHistory where
  workers : Word → WorkerHistory ℕ
  /-- The calls of `add_task` that returned, with what they returned. -/
  returned : List (ℕ × Bool)

namespace PoolHistory

variable {ι : Type u} [DecidableEq ι]

def empty : PoolHistory := ⟨fun _ => .empty, []⟩

/-- What a step adds to the history of the worker that takes part. -/
def noteWorkers (before : ThreadPool ι) (op : PoolOp ι) (after : ThreadPool ι)
    (h : PoolHistory) : Word → WorkerHistory ℕ :=
  match before.workerOp op with
  | none => h.workers
  | some (id, workerOp) =>
      Function.update h.workers id
        (.note (before.workers id) workerOp (after.workers id) (h.workers id))

/-- The call that a step returns from. -/
def noteReturned (before : ThreadPool ι) (op : PoolOp ι) (h : PoolHistory) : List (ℕ × Bool) :=
  match op with
  | .caller caller =>
      match before.callers caller with
      | .unlocking call result => h.returned ++ [(call, result)]
      | _ => h.returned
  | _ => h.returned

def note (before : ThreadPool ι) (op : PoolOp ι) (after : ThreadPool ι) (h : PoolHistory) :
    PoolHistory :=
  ⟨noteWorkers before op after h, noteReturned before op h⟩

end PoolHistory

/-! ## Steps -/

namespace ThreadPool

variable {ι : Type u} [DecidableEq ι] {pool after : ThreadPool ι}

theorem onWorker_eq_ok {id : Word} {op : WorkerOp (PoolThread ι) ℕ} :
    pool.onWorker id op = .ok after ↔
      ∃ worker, (pool.workers id).step op = .ok worker ∧
        after = { pool with workers := Function.update pool.workers id worker } := by
  rw [onWorker]
  cases (pool.workers id).step op with
  | error failed => simp
  | ok worker => simp [eq_comm]

/-- The pool with another worker. -/
abbrev setWorker (pool : ThreadPool ι) (id : Word) (worker : Worker (PoolThread ι) ℕ) :
    ThreadPool ι :=
  { pool with workers := Function.update pool.workers id worker }

/-- The steps of the pool's threads. -/
inductive Move (pool : ThreadPool ι) : PoolOp ι → ThreadPool ι → Prop where
  | calls {caller : Caller ι} (idle : pool.callers caller = .idle) :
      Move pool (.addTask caller)
        ({ pool with calls := pool.calls + 1 }.setCaller caller (.locking pool.calls))
  | locks {caller : Caller ι} {call : ℕ} (stage : pool.callers caller = .locking call)
      (free : pool.mutex = none) :
      Move pool (.caller caller)
        ({ pool with mutex := some caller }.setCaller caller (.looping call pool.nextWorker))
  | enters {caller : Caller ι} {call : ℕ} {workerId : Word} {worker : Worker (PoolThread ι) ℕ}
      (stage : pool.callers caller = .looping call workerId)
      (stepped : (pool.workers pool.nextWorker).step (.push (.caller caller) (.task call)) =
        .ok worker) :
      Move pool (.caller caller)
        ((pool.setWorker pool.nextWorker worker).setCaller caller (.adding call workerId))
  | pushes {caller : Caller ι} {call : ℕ} {workerId : Word} {worker : Worker (PoolThread ι) ℕ}
      (stage : pool.callers caller = .adding call workerId)
      (stepped : (pool.workers pool.nextWorker).step (.producer (.caller caller)) = .ok worker)
      (inside : worker.tasks.producers (.caller caller) ≠ .idle) :
      Move pool (.caller caller) (pool.setWorker pool.nextWorker worker)
  | adds {caller : Caller ι} {call : ℕ} {workerId : Word} {worker : Worker (PoolThread ι) ℕ}
      (stage : pool.callers caller = .adding call workerId)
      (stepped : (pool.workers pool.nextWorker).step (.producer (.caller caller)) = .ok worker)
      (outside : worker.tasks.producers (.caller caller) = .idle) :
      Move pool (.caller caller)
        ((pool.setWorker pool.nextWorker worker).added caller call workerId
          ((pool.workers pool.nextWorker).tasks.producers (.caller caller)).result)
  | unlocks {caller : Caller ι} {call : ℕ} {result : Bool}
      (stage : pool.callers caller = .unlocking call result) :
      Move pool (.caller caller) ({ pool with mutex := none }.setCaller caller .idle)
  | loops {id : Word} {headFirst : Bool} {worker : Worker (PoolThread ι) ℕ}
      (below : id < pool.nOfThreads)
      (stepped : (pool.workers id).step (.loop headFirst) = .ok worker) :
      Move pool (.loop id headFirst) (pool.setWorker id worker)
  | finishes {id : Word} {result : CallResult} {worker : Worker (PoolThread ι) ℕ}
      (below : id < pool.nOfThreads)
      (stepped : (pool.workers id).step (.finish result) = .ok worker) :
      Move pool (.finish id result) (pool.setWorker id worker)
  | destroys (first : pool.destruction = .notStarted) :
      Move pool .destroy { pool with destruction := .stopping 0 }
  | stops {id : Word} {worker : Worker (PoolThread ι) ℕ}
      (stage : pool.destruction = .stopping id)
      (stepped : (pool.workers id).step (.push .destructor .stop) = .ok worker) :
      Move pool .destructor { pool.setWorker id worker with destruction := .pushing id }
  | stopPushes {id : Word} {worker : Worker (PoolThread ι) ℕ}
      (stage : pool.destruction = .pushing id)
      (stepped : (pool.workers id).step (.producer .destructor) = .ok worker)
      (inside : worker.tasks.producers .destructor ≠ .idle) :
      Move pool .destructor (pool.setWorker id worker)
  | stopped {id : Word} {worker : Worker (PoolThread ι) ℕ}
      (stage : pool.destruction = .pushing id)
      (stepped : (pool.workers id).step (.producer .destructor) = .ok worker)
      (outside : worker.tasks.producers .destructor = .idle) :
      Move pool .destructor
        { pool.setWorker id worker with destruction := pool.afterStop id }
  | joins {id : Word} (stage : pool.destruction = .joining id)
      (ended : (pool.workers id).loop = .ended) :
      Move pool .destructor { pool with destruction := pool.afterJoin id }

theorem step_caller (usable : pool.destruction.joins = false) (caller : Caller ι) :
    pool.step (.caller caller) = pool.callerStep caller :=
  if_pos usable

theorem callerStep_cases {caller : Caller ι} (stepped : pool.callerStep caller = .ok after) :
    Move pool (.caller caller) after := by
  cases stage : pool.callers caller with
  | idle =>
      simp only [callerStep, stage] at stepped
      cases stepped
  | locking call =>
      simp only [callerStep, stage] at stepped
      split at stepped
      · rename_i free
        obtain rfl := Except.ok.inj stepped
        exact .locks stage free
      · cases stepped
  | looping call workerId =>
      simp only [callerStep, stage] at stepped
      split at stepped
      · cases stepped
      · rename_i next entered
        obtain rfl := Except.ok.inj stepped
        obtain ⟨worker, moved, rfl⟩ := onWorker_eq_ok.mp entered
        exact .enters stage moved
  | adding call workerId =>
      simp only [callerStep, stage] at stepped
      split at stepped
      · cases stepped
      · rename_i next pushed
        obtain ⟨worker, moved, rfl⟩ := onWorker_eq_ok.mp pushed
        simp only [Function.update_self] at stepped
        split at stepped
        · rename_i inside
          obtain rfl := Except.ok.inj stepped
          exact .pushes stage moved (fun idle => by rw [idle] at inside; cases inside)
        · rename_i outside
          obtain rfl := Except.ok.inj stepped
          rw [Bool.not_eq_true, Producer.inside_eq_false] at outside
          exact .adds stage moved outside
  | unlocking call result =>
      simp only [callerStep, stage] at stepped
      obtain rfl := Except.ok.inj stepped
      exact .unlocks stage

theorem destructorStep_cases (stepped : pool.destructorStep = .ok after) :
    Move pool .destructor after := by
  cases stage : pool.destruction with
  | notStarted =>
      simp only [destructorStep, stage] at stepped
      cases stepped
  | stopping id =>
      simp only [destructorStep, stage] at stepped
      split at stepped
      · cases stepped
      · rename_i next entered
        obtain rfl := Except.ok.inj stepped
        obtain ⟨worker, moved, rfl⟩ := onWorker_eq_ok.mp entered
        exact .stops stage moved
  | pushing id =>
      simp only [destructorStep, stage] at stepped
      split at stepped
      · cases stepped
      · rename_i next pushed
        obtain ⟨worker, moved, rfl⟩ := onWorker_eq_ok.mp pushed
        simp only [Function.update_self] at stepped
        split at stepped
        · rename_i inside
          obtain rfl := Except.ok.inj stepped
          exact .stopPushes stage moved (fun idle => by rw [idle] at inside; cases inside)
        · rename_i outside
          obtain rfl := Except.ok.inj stepped
          rw [Bool.not_eq_true, Producer.inside_eq_false] at outside
          exact .stopped stage moved outside
  | joining id =>
      simp only [destructorStep, stage] at stepped
      split at stepped
      · rename_i ended
        obtain rfl := Except.ok.inj stepped
        exact .joins stage ended
      · cases stepped
  | finished =>
      simp only [destructorStep, stage] at stepped
      cases stepped

/-- **What a step does.** -/
theorem step_cases {op : PoolOp ι} (stepped : pool.step op = .ok after) : Move pool op after := by
  cases op with
  | addTask caller =>
      simp only [step] at stepped
      split at stepped
      · rename_i may
        obtain rfl := Except.ok.inj stepped
        exact .calls may.1
      · cases stepped
  | caller caller =>
      rw [step] at stepped
      split at stepped
      · exact callerStep_cases stepped
      · cases stepped
  | loop id headFirst =>
      simp only [step] at stepped
      split at stepped
      · rename_i below
        obtain ⟨worker, moved, rfl⟩ := onWorker_eq_ok.mp stepped
        exact .loops below moved
      · cases stepped
  | finish id result =>
      simp only [step] at stepped
      split at stepped
      · rename_i may
        obtain ⟨worker, moved, rfl⟩ := onWorker_eq_ok.mp stepped
        exact .finishes may.1 moved
      · cases stepped
  | destroy =>
      simp only [step] at stepped
      split at stepped
      · rename_i first
        obtain rfl := Except.ok.inj stepped
        exact .destroys first
      · cases stepped
  | destructor => exact destructorStep_cases stepped

end ThreadPool

end Jasl
