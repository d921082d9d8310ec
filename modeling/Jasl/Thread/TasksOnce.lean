import Jasl.Thread.SinglePusher
import Jasl.Thread.TaskLedger

/-!
# Accepted tasks run once

A pool keeps a ledger (`ThreadPool.ledger`): a call of `add_task` is open until it
returns, a push that finds room places its task at a worker, and the destructor's
pushes are the stop requests. In runs in which every call has returned before
`~ThreadPool` starts, each step of the pool's threads is one of the ledger's, or
none (`Accounted.step`), so a run of the pool is a run of its ledger
(`ledger_of_run`).

With what the workers do (`Working`) this gives the result: a task is run once, by
the one worker that accepted it, if `add_task` returned true, and never if it
returned false; and workers that have ended have run all they accepted
(`accepted_tasks_run_once`).
-/

set_option autoImplicit false

namespace Jasl

open Library

universe u v

/-- The push has found room. -/
def Producer.accepted {α : Type u} : Producer α → Bool
  | .writing _ _ => true
  | .storing _ _ => true
  | _ => false

/-- What a step that is not inside a push leaves accepted. -/
theorem WorkerHistory.note_accepted {ι : Type v} {τ : Type u} {w after : Worker ι τ}
    {op : WorkerOp ι τ} {h : WorkerHistory τ} (other : ∀ thread, op ≠ .producer thread) :
    (WorkerHistory.note w op after h).queue.accepted = h.queue.accepted := by
  cases op with
  | push thread request => rfl
  | producer thread => exact absurd rfl (other thread)
  | loop headFirst =>
      simp only [note, noteLoop]
      split
      · split
        · rfl
        · cases headFirst <;> rfl
      · exact SharedQueue.noteConsumer_accepted _ _
      · rfl
  | finish result => rfl

namespace ThreadPool

variable {ι : Type u}

/-- A call has placed its task. -/
def hasPlaced (pool : ThreadPool ι) (caller : Caller ι) : Bool :=
  match pool.callers caller with
  | .adding _ _ => ((pool.workers pool.nextWorker).tasks.producers (.caller caller)).accepted
  | .unlocking _ result => result
  | _ => false

/-- The open call of a caller. -/
def current (pool : ThreadPool ι) (caller : Caller ι) : Option (ℕ × Bool) :=
  (pool.callers caller).call.map fun call => (call, pool.hasPlaced caller)

/-- The ledger that a pool keeps. -/
def ledger (pool : ThreadPool ι) (h : PoolHistory) : TaskLedger (Caller ι) Word where
  calls := pool.calls
  current := pool.current
  placed := fun id => (h.workers id).queue.accepted
  returned := h.returned

@[simp] theorem ledger_current (pool : ThreadPool ι) (h : PoolHistory) :
    (pool.ledger h).current = pool.current := rfl

@[simp] theorem ledger_returned (pool : ThreadPool ι) (h : PoolHistory) :
    (pool.ledger h).returned = h.returned := rfl

/-- The destructor's push to a worker has found room, or was refused. -/
def HasStopped (pool : ThreadPool ι) (id : Word) : Prop :=
  match pool.destruction with
  | .notStarted => False
  | .stopping worker => id < worker
  | .pushing worker =>
      id < worker ∨
        (id = worker ∧ ((pool.workers id).tasks.producers .destructor).accepted = true)
  | .joining _ => True
  | .finished => True

/-- Every call has returned before the pool is destroyed, and none is begun after that. -/
def ReturnsFirst (pool : ThreadPool ι) (h : PoolHistory) : PoolOp ι → Prop
  | .addTask _ => pool.destruction = .notStarted
  | .destroy => ∀ call < pool.calls, call ∈ h.returned.map Prod.fst
  | _ => True

instance (pool : ThreadPool ι) (h : PoolHistory) :
    (op : PoolOp ι) → Decidable (pool.ReturnsFirst h op)
  | .addTask _ => inferInstanceAs (Decidable (pool.destruction = .notStarted))
  | .destroy =>
      inferInstanceAs (Decidable (∀ call < pool.calls, call ∈ h.returned.map Prod.fst))
  | .caller _ | .loop _ _ | .finish _ _ | .destructor => inferInstanceAs (Decidable True)

/-- The books of a pool are in order, and requests go to its workers only. -/
structure Accounted (pool : ThreadPool ι) (h : PoolHistory) : Prop where
  sound : (pool.ledger h).Sound
  next : pool.nextWorker < pool.nOfThreads
  target : ∀ id, pool.destruction = .stopping id ∨ pool.destruction = .pushing id →
    id < pool.nOfThreads
  within : ∀ id request, request ∈ (h.workers id).queue.accepted → id < pool.nOfThreads
  stops : ∀ id, Request.stop ∈ (h.workers id).queue.accepted → pool.HasStopped id
  quiet : pool.destruction ≠ .notStarted → ∀ caller, pool.callers caller = .idle

/-- A step is booked: the ledger takes a step of its own, or none. -/
structure Booked [DecidableEq ι] (pool : ThreadPool ι) (h : PoolHistory) (after : ThreadPool ι)
    (noted : PoolHistory) : Prop where
  moves : (pool.ledger h).Moves (after.ledger noted)
  accounted : after.Accounted noted

section Current

variable {pool after : ThreadPool ι}

/-- A call that does not have the mutex has placed nothing. -/
theorem current_of_unlocked {caller : Caller ι} (unlocked : (pool.callers caller).locked = false) :
    pool.current caller = (pool.callers caller).call.map fun call => (call, false) := by
  rw [current, hasPlaced]
  cases stage : pool.callers caller with
  | adding call workerId =>
      rw [stage] at unlocked
      cases unlocked
  | unlocking call result =>
      rw [stage] at unlocked
      cases unlocked
  | _ => rfl

theorem current_of_idle {caller : Caller ι} (idle : pool.callers caller = .idle) :
    pool.current caller = none := by
  rw [current, idle]
  rfl

/-- A caller that has not moved has the call it had: it is outside of the lock. -/
theorem current_of_locked (serialised : pool.Serialised) {caller other : Caller ι}
    (locked : (pool.callers caller).locked = true) (different : other ≠ caller)
    (same : after.callers other = pool.callers other) :
    after.current other = pool.current other := by
  have unlocked : (pool.callers other).locked = false := by
    rw [← Bool.not_eq_true]
    exact fun holds => different (serialised.unique holds locked)
  rw [current_of_unlocked unlocked, current_of_unlocked (by rw [same]; exact unlocked), same]

/-- A call stands where it stood when neither its caller nor its push has moved. -/
theorem current_of_same {caller : Caller ι} (callers : after.callers caller = pool.callers caller)
    (next : after.nextWorker = pool.nextWorker)
    (producers : (after.workers pool.nextWorker).tasks.producers (.caller caller) =
      (pool.workers pool.nextWorker).tasks.producers (.caller caller)) :
    after.current caller = pool.current caller := by
  simp only [current, hasPlaced, callers, next, producers]

/-- What a call that is inside a push has placed. -/
theorem current_adding {caller : Caller ι} {call : ℕ} {workerId : Word}
    (stage : pool.callers caller = .adding call workerId) :
    pool.current caller = some (call,
      ((pool.workers pool.nextWorker).tasks.producers (.caller caller)).accepted) := by
  simp only [current, hasPlaced, stage, AddTask.call, Option.map_some]

variable [DecidableEq ι]

/-- The other callers stand where they stood. -/
theorem callers_setCaller {caller other : Caller ι} {stage : AddTask}
    (callers : after.callers = Function.update pool.callers caller stage)
    (different : other ≠ caller) : after.callers other = pool.callers other := by
  rw [callers, Function.update_of_ne different]

/-- A push that has returned has placed its task, or not. -/
theorem current_added (pool : ThreadPool ι) (caller : Caller ι) {call : ℕ} (workerId : Word)
    (result : Bool) :
    (pool.added caller call workerId result).current caller = some (call, result) := by
  have stage : (pool.added caller call workerId result).callers caller =
      if pool.getNextWorkerId pool.nextWorker = workerId then .unlocking call result
      else if result then .unlocking call result else .looping call workerId :=
    Function.update_self ..
  by_cases last : pool.getNextWorkerId pool.nextWorker = workerId
  · rw [if_pos last] at stage
    simp only [current, hasPlaced, stage, AddTask.call, Option.map_some]
  · rw [if_neg last] at stage
    cases result with
    | true =>
        rw [if_pos rfl] at stage
        simp only [current, hasPlaced, stage, AddTask.call, Option.map_some]
    | false =>
        rw [if_neg Bool.false_ne_true] at stage
        simp only [current, hasPlaced, stage, AddTask.call, Option.map_some]

end Current

namespace Accounted

variable {pool after : ThreadPool ι} {h : PoolHistory}

/-- Where every call has returned, no caller is inside one. -/
theorem idle_of_returned (accounted : pool.Accounted h)
    (returned : ∀ call < pool.calls, call ∈ h.returned.map Prod.fst) (caller : Caller ι) :
    pool.callers caller = .idle := by
  by_contra busy
  obtain ⟨call, open_⟩ : ∃ call, (pool.callers caller).call = some call := by
    cases stage : pool.callers caller with
    | idle => exact absurd stage busy
    | _ => exact ⟨_, rfl⟩
  have current : pool.current caller = some (call, pool.hasPlaced caller) := by
    rw [ThreadPool.current, open_]
    rfl
  obtain ⟨⟨_, result⟩, closed, rfl⟩ :=
    List.mem_map.mp (returned call (accounted.sound.numbered caller call _ current))
  exact (accounted.sound.returned _ result closed).2.2 caller _ current

/-- No thread is begun beside the destructor. -/
theorem keepsApart (accounted : pool.Accounted h) (op : PoolOp ι) : pool.KeepsApart op := by
  cases op with
  | caller caller =>
      intro offers pushing
      have idle := accounted.quiet (by rw [pushing]; exact nofun) caller
      rw [idle] at offers
      cases offers
  | destructor =>
      intro stopping caller _
      rw [accounted.quiet (by rw [stopping]; exact nofun) caller]
      rfl
  | _ => trivial

/-- A caller that is inside a call is there before the pool is destroyed. -/
theorem notStarted (accounted : pool.Accounted h) (caller : Caller ι)
    (busy : pool.callers caller ≠ .idle) : pool.destruction = .notStarted := by
  by_contra started
  exact busy (accounted.quiet started caller)

/-- Before the pool is destroyed no worker has got a stop request. -/
theorem unstopped (accounted : pool.Accounted h) (first : pool.destruction = .notStarted)
    (id : Word) : Request.stop ∉ (h.workers id).queue.accepted := by
  intro stop
  have stopped := accounted.stops id stop
  rw [HasStopped, first] at stopped
  exact stopped

/-! ## What a step does to the ledger -/

section Books

variable {noted : PoolHistory}

/-- A step that leaves the callers and the workers' threads alone. -/
theorem current_same (callers : after.callers = pool.callers)
    (next : after.nextWorker = pool.nextWorker)
    (producers : ∀ id, (after.workers id).tasks.producers = (pool.workers id).tasks.producers) :
    after.current = pool.current := by
  funext caller
  exact current_of_same (congrFun callers caller) next (by rw [producers])

/-- The accepted requests, where they are the same. -/
theorem within_of_same
    (placed : (after.ledger noted).placed = (pool.ledger h).placed) :
    ∀ id request, request ∈ (noted.workers id).queue.accepted →
      request ∈ (h.workers id).queue.accepted ∨ (request ≠ .stop ∧ id = pool.nextWorker) := by
  intro id request accepted
  have same : (noted.workers id).queue.accepted = (h.workers id).queue.accepted :=
    congrFun placed id
  rw [same] at accepted
  exact .inl accepted

/-- Where the destructor has started, the ledger has no open calls. -/
theorem current_none (accounted : pool.Accounted h) (started : pool.destruction ≠ .notStarted)
    (callers : after.callers = pool.callers) : after.current = pool.current := by
  funext caller
  have idle := accounted.quiet started caller
  rw [current_of_idle idle, current_of_idle (by rw [callers]; exact idle)]

/-- While a worker is stopped, the ones that were stopped stand before it. -/
theorem le_of_hasStopped {id other : Word} (stage : pool.destruction = .pushing id)
    (stopped : pool.HasStopped other) : other ≤ id := by
  rw [HasStopped, stage] at stopped
  rcases stopped with below | ⟨rfl, -⟩
  · exact le_of_lt below
  · exact le_refl _

/-- Where all workers are joined, all were stopped. -/
theorem hasStopped_of_joining
    (past : (∃ id, pool.destruction = .joining id) ∨ pool.destruction = .finished) (id : Word) :
    pool.HasStopped id := by
  rw [HasStopped]
  rcases past with ⟨other, place⟩ | place <;> rw [place] <;> trivial

variable [DecidableEq ι]

/-- A step that changes the books of the callers only, before the pool is destroyed. -/
theorem of_caller (accounted : pool.Accounted h)
    (first : pool.destruction = .notStarted) (moves : (pool.ledger h).Moves (after.ledger noted))
    (workers : after.nOfThreads = pool.nOfThreads) (still : after.destruction = pool.destruction)
    (next : after.nextWorker < pool.nOfThreads)
    (within : ∀ id request, request ∈ (noted.workers id).queue.accepted →
      request ∈ (h.workers id).queue.accepted ∨
        (request ≠ .stop ∧ id = pool.nextWorker)) : pool.Booked h after noted where
  moves := moves
  accounted :=
    { sound := accounted.sound.moves moves
      next := by
        rw [workers]
        exact next
      target := by
        intro id target
        rw [still, first] at target
        rcases target with target | target <;> cases target
      within := by
        intro id request accepted
        rw [workers]
        rcases within id request accepted with before | ⟨-, rfl⟩
        · exact accounted.within id request before
        · exact accounted.next
      stops := by
        intro id stop
        rcases within id .stop stop with before | ⟨other, -⟩
        · exact absurd before (accounted.unstopped first id)
        · exact absurd rfl other
      quiet := by
        rw [still, first]
        exact fun started => absurd rfl started }

/-- The loop of a worker steps. -/
theorem ofLoop (accounted : pool.Accounted h) {id : Word}
    {worker : Worker (PoolThread ι) ℕ}
    (producers : worker.tasks.producers = (pool.workers id).tasks.producers)
    (placed : ((pool.setWorker id worker).ledger noted).placed = (pool.ledger h).placed)
    (returned : noted.returned = h.returned) :
    pool.Booked h (pool.setWorker id worker) noted := by
  have moves : (pool.ledger h).Moves ((pool.setWorker id worker).ledger noted) :=
    TaskLedger.Moves.of_eq .refl rfl
      (current_same rfl rfl (Serialised.producers_setWorker producers)) placed returned
  exact
    { moves
      accounted :=
        { sound := accounted.sound.moves moves
          next := accounted.next
          target := accounted.target
          within := by
            intro at_ request accepted
            refine accounted.within at_ request ?_
            rwa [show (h.workers at_).queue.accepted = (noted.workers at_).queue.accepted from
              (congrFun placed at_).symm]
          stops := by
            intro at_ stop
            have stopped := accounted.stops at_ (by
              rwa [show (h.workers at_).queue.accepted = (noted.workers at_).queue.accepted from
                (congrFun placed at_).symm])
            rw [HasStopped] at stopped ⊢
            rwa [Serialised.producers_setWorker producers]
          quiet := accounted.quiet } }

/-- A step of the destructor that leaves the requests of the workers alone. -/
theorem ofDestructor (accounted : pool.Accounted h)
    (started : pool.destruction ≠ .notStarted)
    (callers : after.callers = pool.callers) (calls : after.calls = pool.calls)
    (size : after.nOfThreads = pool.nOfThreads) (next : after.nextWorker = pool.nextWorker)
    (placed : (after.ledger noted).placed = (pool.ledger h).placed)
    (returned : noted.returned = h.returned)
    (target : ∀ id, after.destruction = .stopping id ∨ after.destruction = .pushing id →
      id < pool.nOfThreads)
    (stops : ∀ id, id < pool.nOfThreads → pool.HasStopped id → after.HasStopped id) :
    pool.Booked h after noted := by
  have moves : (pool.ledger h).Moves (after.ledger noted) :=
    TaskLedger.Moves.of_eq .refl calls (accounted.current_none started callers) placed returned
  exact
    { moves
      accounted :=
        { sound := accounted.sound.moves moves
          next := by
            rw [next, size]
            exact accounted.next
          target := by
            rw [size]
            exact target
          within := by
            intro id request accepted
            rw [size]
            refine accounted.within id request ?_
            rwa [show (h.workers id).queue.accepted = (noted.workers id).queue.accepted from
              (congrFun placed id).symm]
          stops := by
            intro id stop
            have before : Request.stop ∈ (h.workers id).queue.accepted := by
              rwa [show (h.workers id).queue.accepted = (noted.workers id).queue.accepted from
                (congrFun placed id).symm]
            exact stops id (accounted.within id _ before) (accounted.stops id before)
          quiet := by
            rw [callers]
            exact fun _ => accounted.quiet started } }

end Books

end Accounted

/-! ## Steps -/

/-- What a step inside a push does to what the workers have accepted. -/
inductive PushStep (before after : Producer (Request ℕ)) (request : Request ℕ) (id : Word)
    (placed next : Word → List (Request ℕ)) : Prop where
  | finds (was : before.accepted = false) (now : after.accepted = true)
      (accepted : next = Function.update placed id (placed id ++ [request]))
  | writes (was : before.accepted = true) (now : after.accepted = true) (same : next = placed)
  | returns (outside : after = .idle) (result : before.result = before.accepted)
      (same : next = placed)

variable [DecidableEq ι] {pool after : ThreadPool ι} {h : PoolHistory}

/-- A step that is not inside a push. -/
theorem accepted_of_step {op : PoolOp ι} (stepped : pool.step op = .ok after)
    (other : ∀ id thread, pool.workerOp op ≠ some (id, .producer thread)) :
    (after.ledger (.note pool op after h)).placed = (pool.ledger h).placed := by
  funext id
  change ((PoolHistory.note pool op after h).workers id).queue.accepted = _
  rcases worker_cases (h := h) stepped id with ⟨-, -, noted⟩ | ⟨own, takes, -, noted⟩
  · rw [noted]
    rfl
  · rw [noted, WorkerHistory.note_accepted]
    · rfl
    · exact fun thread same => other id thread (same ▸ takes)

/-- A step inside a push. -/
theorem accepted_of_push (serialised : pool.Serialised) {op : PoolOp ι} {id : Word}
    {thread : PoolThread ι} {request : Request ℕ} (stepped : pool.step op = .ok after)
    (takes : pool.workerOp op = some (id, .producer thread))
    (pushes : pool.pushedBy thread = some (id, request)) :
    PushStep ((pool.workers id).tasks.producers thread)
      ((after.workers id).tasks.producers thread) request id (pool.ledger h).placed
      (after.ledger (.note pool op after h)).placed := by
  have value := (serialised.inside id thread request).mpr pushes
  have moved := workers_step stepped
  rw [takes] at moved
  obtain ⟨worker, own, workers⟩ := moved
  obtain ⟨tasks, inside, rfl⟩ := Worker.pushStep_eq_ok.mp own
  obtain ⟨producer, producers, -, move⟩ := SharedQueue.step_producer (h.workers id).queue inside
  have there : (after.workers id).tasks.producers thread = producer := by
    rw [workers, Function.update_self, producers, Function.update_self]
  have placed : (after.ledger (.note pool op after h)).placed =
      Function.update (pool.ledger h).placed id
        (SharedQueue.note (pool.workers id).tasks (.producer thread)
          (h.workers id).queue).accepted := by
    funext at_
    simp only [ledger, PoolHistory.note, PoolHistory.noteWorkers, takes, WorkerHistory.note]
    by_cases same : at_ = id
    · subst same
      rw [Function.update_self, Function.update_self]
    · rw [Function.update_of_ne same, Function.update_of_ne same]
  rw [there, placed]
  generalize SharedQueue.note (pool.workers id).tasks (.producer thread)
    (h.workers id).queue = noted at move
  generalize (pool.workers id).tasks.producers thread = before at move value
  have kept : Function.update (pool.ledger h).placed id (h.workers id).queue.accepted =
      (pool.ledger h).placed := Function.update_eq_self id _
  cases move with
  | refused full => exact .returns rfl rfl kept
  | finds room =>
      obtain rfl := Option.some.inj value
      exact .finds rfl rfl rfl
  | writes => exact .writes rfl rfl kept
  | publishes => exact .returns rfl rfl kept

namespace Accounted

/-- A call takes a step inside a push. -/
theorem pushStep (accounted : pool.Accounted h) (serialised : pool.Serialised)
    {caller : Caller ι} {call : ℕ} {workerId : Word} {worker : Worker (PoolThread ι) ℕ}
    (stage : pool.callers caller = .adding call workerId)
    (stepped : pool.step (.caller caller) = .ok (pool.setWorker pool.nextWorker worker))
    (inside : worker.tasks.producers (.caller caller) ≠ .idle) :
    pool.Booked h (pool.setWorker pool.nextWorker worker)
      (.note pool (.caller caller) (pool.setWorker pool.nextWorker worker) h) := by
  have first := accounted.notStarted caller (by rw [stage]; simp)
  have locked : (pool.callers caller).locked = true := by
    rw [stage]
    rfl
  have takes : pool.workerOp (.caller caller) =
      some (pool.nextWorker, .producer (.caller caller)) := by
    simp only [workerOp, stage]
  have pushes : pool.pushedBy (.caller caller) = some (pool.nextWorker, .task call) := by
    simp only [pushedBy, stage]
  have push := accepted_of_push (h := h) serialised stepped takes pushes
  have returned : (PoolHistory.note pool (.caller caller)
      (pool.setWorker pool.nextWorker worker) h).returned = h.returned := by
    simp only [PoolHistory.note, PoolHistory.noteReturned, stage]
  have there : ((pool.setWorker pool.nextWorker worker).workers
      pool.nextWorker).tasks.producers (.caller caller) =
        worker.tasks.producers (.caller caller) := by
    simp
  have mine := current_adding stage
  have now : (pool.setWorker pool.nextWorker worker).current =
      Function.update pool.current caller
        (some (call, (worker.tasks.producers (.caller caller)).accepted)) := by
    funext other
    by_cases same : other = caller
    · subst same
      rw [Function.update_self, ← there]
      exact current_adding stage
    · rw [Function.update_of_ne same]
      exact current_of_locked serialised locked same rfl
  rw [there] at push
  cases push with
  | finds was found accepted =>
      rw [was] at mine
      rw [found] at now
      refine accounted.of_caller first ?_ rfl rfl accounted.next ?_
      · have placing : (pool.ledger h).current caller = some (call, false) := mine
        have unstopped : Request.stop ∉ (pool.ledger h).placed pool.nextWorker :=
          accounted.unstopped first pool.nextWorker
        exact TaskLedger.Moves.of_eq (.single (.place placing unstopped)) rfl now accepted returned
      · intro id request accepting
        have at_ : request ∈ Function.update (pool.ledger h).placed pool.nextWorker
            ((pool.ledger h).placed pool.nextWorker ++ [.task call]) id := by
          rw [← accepted]
          exact accepting
        rcases TaskLedger.Sound.mem_update.mp at_ with before | ⟨here, rfl⟩
        · exact .inl before
        · exact .inr ⟨by simp, here⟩
  | writes was still placed =>
      refine accounted.of_caller first ?_ rfl rfl accounted.next (within_of_same placed)
      refine TaskLedger.Moves.of_eq .refl rfl ?_ placed returned
      rw [ledger_current, ledger_current, now, still, ← was, ← mine, Function.update_eq_self]
  | returns outside _ _ => exact absurd outside inside

/-- A push returns, and the loop goes on or not. -/
theorem added (accounted : pool.Accounted h) (serialised : pool.Serialised)
    {caller : Caller ι} {call : ℕ} {workerId : Word} {worker : Worker (PoolThread ι) ℕ}
    (stage : pool.callers caller = .adding call workerId)
    (stepped : pool.step (.caller caller) =
      .ok ((pool.setWorker pool.nextWorker worker).added caller call workerId
        ((pool.workers pool.nextWorker).tasks.producers (.caller caller)).result))
    (outside : worker.tasks.producers (.caller caller) = .idle) :
    pool.Booked h ((pool.setWorker pool.nextWorker worker).added caller call workerId
      ((pool.workers pool.nextWorker).tasks.producers (.caller caller)).result)
      (.note pool (.caller caller) ((pool.setWorker pool.nextWorker worker).added caller call
        workerId ((pool.workers pool.nextWorker).tasks.producers (.caller caller)).result) h) := by
  have first := accounted.notStarted caller (by rw [stage]; exact nofun)
  have locked : (pool.callers caller).locked = true := by
    rw [stage]
    rfl
  have takes : pool.workerOp (.caller caller) =
      some (pool.nextWorker, .producer (.caller caller)) := by
    simp only [workerOp, stage]
  have pushes : pool.pushedBy (.caller caller) = some (pool.nextWorker, .task call) := by
    simp only [pushedBy, stage]
  have push := accepted_of_push (h := h) serialised stepped takes pushes
  have below : (pool.getNextWorkerId pool.nextWorker) < pool.nOfThreads := by
    have next := accounted.next
    rw [BitVec.lt_def] at next ⊢
    rw [getNextWorkerId, BitVec.toNat_umod]
    exact Nat.mod_lt _ (by omega)
  have there : (((pool.setWorker pool.nextWorker worker).added caller call workerId
      ((pool.workers pool.nextWorker).tasks.producers (.caller caller)).result).workers
        pool.nextWorker).tasks.producers (.caller caller) = .idle := by
    refine Eq.trans ?_ outside
    simp [ThreadPool.added, setCaller]
  rw [there] at push
  cases push with
  | finds was now accepted => cases now
  | writes was now placed => cases now
  | returns _ result placed =>
      refine accounted.of_caller first ?_ rfl rfl below (within_of_same placed)
      refine TaskLedger.Moves.of_eq .refl rfl ?_ placed ?_
      · funext other
        by_cases same : other = caller
        · subst same
          exact (current_added _ _ _ _).trans
            (by rw [result, ledger_current, current_adding stage])
        · exact current_of_locked serialised locked same (callers_setCaller rfl same)
      · simp only [ledger_returned, PoolHistory.note, PoolHistory.noteReturned, stage]

/-- **A step of `add_task` keeps the books.** -/
theorem callerStep (accounted : pool.Accounted h) (serialised : pool.Serialised)
    {caller : Caller ι} (stepped : pool.step (.caller caller) = .ok after) :
    pool.Booked h after (.note pool (.caller caller) after h) := by
  cases step_cases stepped with
  | @locks caller call stage free =>
      have first := accounted.notStarted caller (by rw [stage]; simp)
      have placed := accepted_of_step (h := h) stepped (by simp [workerOp, stage])
      refine accounted.of_caller first ?_ rfl rfl accounted.next (within_of_same placed)
      refine TaskLedger.Moves.of_eq .refl rfl ?_ placed ?_
      · funext other
        by_cases same : other = caller
        · subst same
          simp [current, hasPlaced, setCaller, stage, AddTask.call]
        · exact current_of_same (callers_setCaller rfl same) rfl rfl
      · simp only [ledger_returned, PoolHistory.note, PoolHistory.noteReturned, stage]
  | @enters caller call workerId worker stage moved =>
      have first := accounted.notStarted caller (by rw [stage]; simp)
      have placed := accepted_of_step (h := h) stepped (by simp [workerOp, stage])
      have locked : (pool.callers caller).locked = true := by
        rw [stage]
        rfl
      refine accounted.of_caller first ?_ rfl rfl accounted.next (within_of_same placed)
      refine TaskLedger.Moves.of_eq .refl rfl ?_ placed ?_
      · funext other
        by_cases same : other = caller
        · subst same
          obtain ⟨-, producers⟩ := Worker.step_push moved
          simp [current, hasPlaced, setCaller, stage, AddTask.call, producers, Producer.accepted]
        · exact current_of_locked serialised locked same (callers_setCaller rfl same)
      · simp only [ledger_returned, PoolHistory.note, PoolHistory.noteReturned, stage]
  | pushes stage moved inside => exact accounted.pushStep serialised stage stepped inside
  | adds stage moved outside => exact accounted.added serialised stage stepped outside
  | @unlocks caller call result stage =>
      have first := accounted.notStarted caller (by rw [stage]; simp)
      have locked : (pool.callers caller).locked = true := by
        rw [stage]
        rfl
      have placed := accepted_of_step (h := h) stepped (by simp [workerOp, stage])
      have mine : (pool.ledger h).current caller = some (call, result) := by
        simp only [ledger, current, hasPlaced, stage, AddTask.call, Option.map_some]
      refine accounted.of_caller first ?_ rfl rfl accounted.next (within_of_same placed)
      refine TaskLedger.Moves.of_eq (.single (.close mine)) rfl ?_ placed ?_
      · funext other
        by_cases same : other = caller
        · subst same
          simp [ledger, current, setCaller, AddTask.call]
        · exact (current_of_locked serialised locked same (callers_setCaller rfl same)).trans
            (Function.update_of_ne same _ _).symm
      · simp only [ledger, PoolHistory.note, PoolHistory.noteReturned, stage]

/-- The destructor takes a step inside the push of a stop request. -/
theorem stopPushStep (accounted : pool.Accounted h) (serialised : pool.Serialised) {id : Word}
    {worker : Worker (PoolThread ι) ℕ} (stage : pool.destruction = .pushing id)
    (stepped : pool.step .destructor = .ok (pool.setWorker id worker))
    (inside : worker.tasks.producers .destructor ≠ .idle) :
    pool.Booked h (pool.setWorker id worker)
      (.note pool .destructor (pool.setWorker id worker) h) := by
  have takes : pool.workerOp .destructor = some (id, .producer .destructor) := by
    simp only [workerOp, stage]
  have pushes : pool.pushedBy .destructor = some (id, .stop) := by
    simp only [pushedBy, stage]
  have push := accepted_of_push (h := h) serialised stepped takes pushes
  have started : pool.destruction ≠ .notStarted := by
    rw [stage]
    simp
  have there : ((pool.setWorker id worker).workers id).tasks.producers .destructor =
      worker.tasks.producers .destructor := by
    simp
  have stopped : worker.tasks.producers .destructor = .idle ∨
      (worker.tasks.producers .destructor).accepted = true →
      ∀ other, other ≤ id → (pool.setWorker id worker).HasStopped other := by
    intro found other ordered
    rw [HasStopped]
    simp only [stage]
    rcases lt_or_eq_of_le ordered with below | rfl
    · exact .inl below
    · rw [there]
      exact .inr ⟨rfl, found.resolve_left inside⟩
  rw [there] at push
  cases push with
  | finds was found accepted =>
      have unstopped : Request.stop ∉ (pool.ledger h).placed id := by
        intro stop
        have stopped := accounted.stops id stop
        rw [HasStopped, stage] at stopped
        rcases stopped with below | ⟨-, already⟩
        · exact lt_irrefl _ below
        · rw [was] at already
          cases already
      have moves : (pool.ledger h).Moves ((pool.setWorker id worker).ledger
          (.note pool .destructor (pool.setWorker id worker) h)) :=
        TaskLedger.Moves.of_eq (.single (.stop unstopped)) rfl
          (accounted.current_none started rfl) accepted rfl
      have requests : ∀ other request,
          request ∈ ((PoolHistory.note pool .destructor (pool.setWorker id worker) h).workers
            other).queue.accepted →
          request ∈ (h.workers other).queue.accepted ∨ (other = id ∧ request = .stop) := by
        intro other request accepting
        have at_ : request ∈ Function.update (pool.ledger h).placed id
            ((pool.ledger h).placed id ++ [.stop]) other := by
          rw [← accepted]
          exact accepting
        exact TaskLedger.Sound.mem_update.mp at_
      refine ⟨moves, accounted.sound.moves moves, accounted.next, accounted.target, ?_, ?_,
        accounted.quiet⟩
      · intro other request accepting
        rcases requests other request accepting with already | ⟨rfl, -⟩
        · exact accounted.within other request already
        · exact accounted.target other (.inr stage)
      · intro other accepting
        rcases requests other .stop accepting with already | ⟨rfl, -⟩
        · exact stopped (.inr found) other (le_of_hasStopped stage (accounted.stops other already))
        · exact stopped (.inr found) other (le_refl _)
  | writes was still placed =>
      refine accounted.ofDestructor started rfl rfl rfl rfl placed rfl accounted.target ?_
      exact fun other _ had => stopped (.inr still) other (le_of_hasStopped stage had)
  | returns outside _ _ => exact absurd outside inside

/-- The push of a stop request returns, and the destructor turns to the next worker or joins. -/
theorem stoppedStep (accounted : pool.Accounted h) (serialised : pool.Serialised) {id : Word}
    {worker : Worker (PoolThread ι) ℕ} (stage : pool.destruction = .pushing id)
    (stepped : pool.step .destructor =
      .ok { pool.setWorker id worker with destruction := pool.afterStop id })
    (outside : worker.tasks.producers .destructor = .idle) :
    pool.Booked h { pool.setWorker id worker with destruction := pool.afterStop id }
      (.note pool .destructor { pool.setWorker id worker with destruction := pool.afterStop id }
        h) := by
  have takes : pool.workerOp .destructor = some (id, .producer .destructor) := by
    simp only [workerOp, stage]
  have pushes : pool.pushedBy .destructor = some (id, .stop) := by
    simp only [pushedBy, stage]
  have push := accepted_of_push (h := h) serialised stepped takes pushes
  have below := accounted.target id (.inr stage)
  have there : (Function.update pool.workers id worker id).tasks.producers .destructor =
      .idle := by
    rw [Function.update_self]
    exact outside
  rw [there] at push
  cases push with
  | finds _ now _ => cases now
  | writes _ now _ => cases now
  | returns _ _ placed =>
      refine accounted.ofDestructor (by rw [stage]; simp) rfl rfl rfl rfl placed rfl
        (fun other target => (Serialised.target_afterStop below target).2.2) ?_
      intro other _ had
      have ordered := le_of_hasStopped stage had
      by_cases last : id + 1 = pool.nOfThreads
      · have place : pool.afterStop id = .joining 0 := if_pos last
        exact hasStopped_of_joining (.inl ⟨0, place⟩) other
      · have place : pool.afterStop id = .stopping (id + 1) := if_neg last
        have after := (Serialised.target_afterStop below (.inl place)).2.1
        rw [HasStopped]
        simp only [place]
        rw [← BitVec.toNat_le_toNat] at ordered
        rw [← BitVec.toNat_lt_toNat]
        omega

/-- **A step of the destructor keeps the books.** -/
theorem destructorStep (accounted : pool.Accounted h) (serialised : pool.Serialised)
    (stepped : pool.step .destructor = .ok after) :
    pool.Booked h after (.note pool .destructor after h) := by
  cases step_cases stepped with
  | @stops id worker stage moved =>
      have placed := accepted_of_step (h := h) stepped (by simp [workerOp, stage])
      refine accounted.ofDestructor (by rw [stage]; simp) rfl rfl rfl rfl placed rfl ?_ ?_
      · rintro other (target | target)
        · cases target
        · obtain rfl := Destruction.pushing.inj target
          exact accounted.target id (.inl stage)
      · intro other _ stopped
        rw [HasStopped, stage] at stopped
        exact .inl stopped
  | stopPushes stage moved inside => exact accounted.stopPushStep serialised stage stepped inside
  | stopped stage moved outside => exact accounted.stoppedStep serialised stage stepped outside
  | @joins id stage ended =>
      have placed := accepted_of_step (h := h) stepped (by simp [workerOp, stage])
      refine accounted.ofDestructor (by rw [stage]; simp) rfl rfl rfl rfl placed rfl ?_ ?_
      · intro other target
        exact absurd target (afterJoin_target pool id other)
      · intro other _ _
        refine hasStopped_of_joining ?_ other
        by_cases last : id + 1 = pool.nOfThreads
        · exact .inr (if_pos last)
        · exact .inl ⟨id + 1, if_neg last⟩

/-- A call is begun. -/
theorem offer (accounted : pool.Accounted h) {caller : Caller ι}
    (first : pool.destruction = .notStarted) (stepped : pool.step (.addTask caller) = .ok after) :
    pool.Booked h after (.note pool (.addTask caller) after h) := by
  have placed := accepted_of_step (h := h) stepped (by simp [workerOp])
  cases step_cases stepped with
  | calls idle =>
      refine accounted.of_caller first ?_ rfl rfl accounted.next (within_of_same placed)
      have free : (pool.ledger h).current caller = none := current_of_idle idle
      refine TaskLedger.Moves.of_eq (.single (.offer free)) rfl ?_ placed rfl
      funext other
      by_cases same : other = caller
      · subst same
        simp [current, hasPlaced, setCaller, AddTask.call, ledger]
      · have before : ({ pool with calls := pool.calls + 1 }.setCaller caller
            (.locking pool.calls)).current other = pool.current other :=
          current_of_same (callers_setCaller rfl same) rfl rfl
        exact before.trans (Function.update_of_ne same _ _).symm

/-- The pool begins to be destroyed. -/
theorem destroy (accounted : pool.Accounted h)
    (returned : ∀ call < pool.calls, call ∈ h.returned.map Prod.fst)
    (stepped : pool.step .destroy = .ok after) :
    pool.Booked h after (.note pool .destroy after h) := by
  have placed := accepted_of_step (h := h) stepped (by simp [workerOp])
  cases step_cases stepped with
  | destroys first =>
      have next := accounted.next
      have moves := TaskLedger.Moves.of_eq (.refl : (pool.ledger h).Moves (pool.ledger h)) rfl
        (current_same rfl rfl fun _ => rfl) placed rfl
      refine ⟨moves, accounted.sound.moves moves, next, ?_, accounted.within, ?_,
        fun _ => accounted.idle_of_returned returned⟩
      · rintro id (target | target)
        · obtain rfl := Destruction.stopping.inj target
          rw [BitVec.lt_def] at next ⊢
          exact lt_of_le_of_lt (Nat.zero_le _) next
        · cases target
      · exact fun id stop => absurd stop (accounted.unstopped first id)

/-- **A step keeps the books**, when calls return before the pool is destroyed. -/
theorem step (accounted : pool.Accounted h) (serialised : pool.Serialised) {op : PoolOp ι}
    (returns : pool.ReturnsFirst h op) (stepped : pool.step op = .ok after) :
    pool.Booked h after (.note pool op after h) := by
  cases op with
  | addTask caller => exact accounted.offer returns stepped
  | caller caller => exact accounted.callerStep serialised stepped
  | loop id headFirst =>
      have placed := accepted_of_step (h := h) stepped (by simp [workerOp])
      cases step_cases stepped with
      | loops below moved => exact accounted.ofLoop (Worker.loopStep_producers moved) placed rfl
  | finish id result =>
      have placed := accepted_of_step (h := h) stepped (by simp [workerOp])
      cases step_cases stepped with
      | finishes below moved => exact accounted.ofLoop (Worker.finish_producers moved) placed rfl
  | destroy => exact accounted.destroy returns stepped
  | destructor => exact accounted.destructorStep serialised stepped

end Accounted

omit [DecidableEq ι] in
theorem Accounted.create (numberOfThreads workerTaskQueueSize hardwareConcurrency : Word) :
    (create numberOfThreads workerTaskQueueSize hardwareConcurrency : ThreadPool ι).Accounted
      .empty where
  sound := TaskLedger.Sound.empty
  next := numberOfWorkers_pos numberOfThreads hardwareConcurrency
  target := by rintro id (target | target) <;> cases target
  within := nofun
  stops := nofun
  quiet := fun started => absurd rfl started

/-- **A run of a pool is a run of its ledger**, whose books are in order, if the calls of `add_task`
have returned before `~ThreadPool` starts. -/
theorem ledger_of_run {numberOfThreads workerTaskQueueSize hardwareConcurrency : Word}
    (fits : (taskQueueSize workerTaskQueueSize).toNat < 2 ^ 64 - 1) {ops : List (PoolOp ι)}
    (run : Run (observed step PoolHistory.note)
      (fun watched op => watched.1.ReturnsFirst watched.2 op)
      (create numberOfThreads workerTaskQueueSize hardwareConcurrency, .empty) ops (pool, h)) :
    Pooling (taskQueueSize workerTaskQueueSize).toNat pool h ∧ pool.Accounted h ∧
      Relation.ReflTransGen TaskLedger.Step .empty (pool.ledger h) := by
  apply run.invariant (fun watched =>
    Pooling (taskQueueSize workerTaskQueueSize).toNat watched.1 watched.2 ∧
      watched.1.Accounted watched.2 ∧
        Relation.ReflTransGen TaskLedger.Step .empty (watched.1.ledger watched.2))
    ⟨.create fits, .create _ _ _, .refl⟩
  intro before op after held returns stepped
  obtain ⟨pooling, accounted, reached⟩ := held
  obtain ⟨moved, noted⟩ := observed_eq_ok.mp stepped
  have booked := accounted.step pooling.serialised returns moved
  rw [noted]
  exact ⟨pooling.step (accounted.keepsApart op) moved, booked.accounted,
    reached.trans booked.moves.to_reflTransGen⟩

/-- **Every accepted task runs once**, in every run in which the calls of `add_task` have returned
before `~ThreadPool` starts. A task for which the call returned true was accepted by one worker,
which runs it once at most, and no other does; one for which it returned false is run by none. Each
worker runs what it accepted in this order, and has finished all of it when all loops have ended. -/
theorem accepted_tasks_run_once {numberOfThreads workerTaskQueueSize hardwareConcurrency : Word}
    (fits : (taskQueueSize workerTaskQueueSize).toNat < 2 ^ 64 - 1) {ops : List (PoolOp ι)}
    (run : Run (observed step PoolHistory.note)
      (fun watched op => watched.1.ReturnsFirst watched.2 op)
      (create numberOfThreads workerTaskQueueSize hardwareConcurrency, .empty) ops (pool, h)) :
    (∀ call, (call, true) ∈ h.returned → ∃ id < pool.nOfThreads,
      Request.task call ∈ (h.workers id).queue.accepted ∧
      (h.workers id).started.count (.task call) ≤ 1 ∧
      ∀ other, Request.task call ∈ (h.workers other).started → other = id) ∧
    (∀ call, (call, false) ∈ h.returned →
      ∀ id, Request.task call ∉ (h.workers id).started) ∧
    (∀ id, (h.workers id).finished <+: (h.workers id).started ∧
      (h.workers id).started <+: (h.workers id).queue.accepted) ∧
    ((∀ id < pool.nOfThreads, (pool.workers id).loop = .ended) →
      ∀ id < pool.nOfThreads, (h.workers id).finished = (h.workers id).queue.accepted) := by
  obtain ⟨pooling, accounted, -⟩ := ledger_of_run fits run
  have sound := accounted.sound
  have started : ∀ {id request}, request ∈ (h.workers id).started →
      request ∈ (h.workers id).queue.accepted :=
    fun began => (pooling.working _).started_initial.subset began
  refine ⟨?_, ?_, ?_, ?_⟩
  · intro call closed
    obtain ⟨id, placed⟩ := (sound.returned call true closed).1.mp rfl
    refine ⟨id, accounted.within id _ placed, placed, ?_, ?_⟩
    · have once : (h.workers id).queue.accepted.Nodup := sound.once id
      have again := (pooling.working id).started_initial.sublist.count_le (.task call)
      exact again.trans (List.nodup_iff_count_le_one.mp once _)
    · exact fun other began => sound.somewhere _ _ _ (started began) placed
  · intro call closed id began
    exact Bool.false_ne_true ((sound.returned call false closed).1.mpr ⟨id, started began⟩)
  · exact fun id => ⟨(pooling.working id).finished_initial, (pooling.working id).started_initial⟩
  · intro ended id below
    have working := pooling.working id
    have stop := working.done.mp (working.ended (ended id below))
    exact sound.eq_of_prefix (working.finished_initial.trans working.started_initial) stop

end ThreadPool

/-- A call of `add_task` from outside, in a pool of two workers with room for one task each. -/
def addOps (steps : ℕ) : List (PoolOp ℕ) :=
  .addTask (.outside 0) :: List.replicate steps (.caller (.outside 0))

/-- A worker pops a request and runs it. -/
def runOps (id : Word) (result : CallResult) : List (PoolOp ℕ) :=
  List.replicate 5 (.loop id true) ++ [.finish id result]

/-- Two tasks are accepted, by one worker each, and a third one by none; one of them throws. Then
the pool is destroyed. -/
def finishedOps : List (PoolOp ℕ) :=
  addOps 6 ++ addOps 6 ++ addOps 6 ++ runOps 0 .threw ++ runOps 1 .returned ++
    .destroy :: List.replicate 8 .destructor ++
    runOps 0 .returned ++ .loop 0 true :: runOps 1 .returned ++
    [.loop 1 true, .destructor, .destructor]

def finishedPool : ThreadPool ℕ × PoolHistory :=
  (checkedRun (observed ThreadPool.step PoolHistory.note)
    (fun watched op => watched.1.ReturnsFirst watched.2 op)
    (ThreadPool.create 2 1 1, .empty) finishedOps).get (by decide +kernel)

theorem accepted_tasks_run_once_finished :
    finishedPool.2.returned = [(0, true), (1, true), (2, false)] ∧
      finishedPool.1.destruction = .finished ∧
      (finishedPool.2.workers 1).finished = (finishedPool.2.workers 1).queue.accepted := by
  have fits : (ThreadPool.taskQueueSize 1).toNat < 2 ^ 64 - 1 := by decide
  have run : Run (observed ThreadPool.step PoolHistory.note)
      (fun watched op => watched.1.ReturnsFirst watched.2 op)
      (ThreadPool.create 2 1 1, .empty) finishedOps finishedPool := Run.of_isSome _
  have watched : Run (observed ThreadPool.step PoolHistory.note)
      (fun watched op => watched.1.ReturnsFirst watched.2 op)
      (ThreadPool.create 2 1 1, .empty) finishedOps (finishedPool.1, finishedPool.2) := run
  have two : finishedPool.1.nOfThreads = 2 := by decide +kernel
  have ended : ∀ id < finishedPool.1.nOfThreads, (finishedPool.1.workers id).loop = .ended := by
    intro id below
    rw [two, BitVec.lt_def] at below
    have which : id = 0 ∨ id = 1 := by
      have cases_ : id.toNat = 0 ∨ id.toNat = 1 := by
        change id.toNat < 2 at below
        omega
      exact cases_.imp BitVec.eq_of_toNat_eq BitVec.eq_of_toNat_eq
    rcases which with rfl | rfl <;> decide +kernel
  refine ⟨by decide +kernel, by decide +kernel, ?_⟩
  exact (ThreadPool.accepted_tasks_run_once fits watched).2.2.2 ended 1 (by rw [two]; decide)

end Jasl
