import Jasl.Thread.ThreadPool

/-!
# Who is inside `push`

The workers' queues are for one thread that pushes at a time. Callers of
`add_task` keep each other out with `m_mutex` (`Serialised`), so beside the
destructor at most one thread is inside a push of any worker. The destructor
pushes without the mutex, and a queue is entered twice exactly where it meets the
caller that has the mutex at one worker (`KeepsApart`).

What this gives, for any run that keeps them apart, is that every worker's queue is
in order (`Working`), and with it that no push overwrites what another has written
(`one_thread_pushes_at_a_time`).
-/

set_option autoImplicit false

namespace Jasl

open Library

universe u

namespace ThreadPool

variable {ι : Type u}

/-- To whose queue a thread pushes, and what. -/
def pushedBy (pool : ThreadPool ι) : PoolThread ι → Option (Word × Request ℕ)
  | .caller caller =>
      match pool.callers caller with
      | .adding call _ => some (pool.nextWorker, .task call)
      | _ => none
  | .destructor =>
      match pool.destruction with
      | .pushing id => some (id, .stop)
      | _ => none

theorem pushedBy_caller {pool : ThreadPool ι} {caller : Caller ι} {id : Word} {request : Request ℕ}
    (pushes : pool.pushedBy (.caller caller) = some (id, request)) :
    id = pool.nextWorker ∧
      ∃ call workerId, pool.callers caller = .adding call workerId ∧ request = .task call := by
  cases stage : pool.callers caller with
  | adding call workerId =>
      simp only [pushedBy, stage, Option.some.injEq, Prod.mk.injEq] at pushes
      exact ⟨pushes.1.symm, call, workerId, rfl, pushes.2.symm⟩
  | _ => simp [pushedBy, stage] at pushes

theorem pushedBy_destructor {pool : ThreadPool ι} {id : Word} {request : Request ℕ}
    (pushes : pool.pushedBy .destructor = some (id, request)) :
    pool.destruction = .pushing id ∧ request = .stop := by
  cases stage : pool.destruction with
  | pushing other =>
      simp only [pushedBy, stage, Option.some.injEq, Prod.mk.injEq] at pushes
      exact ⟨by rw [pushes.1], pushes.2.symm⟩
  | _ => simp [pushedBy, stage] at pushes

/-- The callers take turns, and a thread is inside a push where its call stands there. -/
structure Serialised (pool : ThreadPool ι) : Prop where
  mutex : ∀ caller, (pool.callers caller).locked = true → pool.mutex = some caller
  inside : ∀ id thread request,
    ((pool.workers id).tasks.producers thread).value = some request ↔
      pool.pushedBy thread = some (id, request)

/-- After a join no worker is being stopped. -/
theorem afterJoin_target (pool : ThreadPool ι) (worker id : Word) :
    ¬ (pool.afterJoin worker = .stopping id ∨ pool.afterJoin worker = .pushing id) := by
  rw [afterJoin]
  intro target
  split at target <;> rcases target with target | target <;> cases target

theorem afterJoin_ne (pool : ThreadPool ι) (worker id : Word) :
    pool.afterJoin worker ≠ .pushing id :=
  fun pushing => afterJoin_target pool worker id (.inr pushing)

namespace Serialised

variable {pool after : ThreadPool ι}

theorem create (numberOfThreads workerTaskQueueSize hardwareConcurrency : Word) :
    Serialised (.create numberOfThreads workerTaskQueueSize hardwareConcurrency :
      ThreadPool ι) where
  mutex := nofun
  inside := by
    intro id thread request
    cases thread <;> exact iff_of_false nofun nofun

/-- One caller at most has the mutex. -/
theorem unique (serialised : pool.Serialised) {caller other : Caller ι}
    (locked : (pool.callers caller).locked = true)
    (otherLocked : (pool.callers other).locked = true) : caller = other :=
  Option.some.inj ((serialised.mutex caller locked).symm.trans (serialised.mutex other otherLocked))

/-- No other caller is inside a push. -/
theorem pushedBy_other (serialised : pool.Serialised) {caller other : Caller ι}
    (locked : (pool.callers caller).locked = true) (different : other ≠ caller) :
    pool.pushedBy (.caller other) = none := by
  cases pushes : pool.pushedBy (.caller other) with
  | none => rfl
  | some target =>
      obtain ⟨-, call, workerId, stage, -⟩ := pushedBy_caller pushes
      exact absurd (serialised.unique (by rw [stage]; rfl) locked) different

/-- A step that moves no thread inside a push, or out of one. -/
theorem inside_same (serialised : pool.Serialised)
    (workers : ∀ id, (after.workers id).tasks.producers = (pool.workers id).tasks.producers)
    (pushes : ∀ thread, after.pushedBy thread = pool.pushedBy thread) :
    ∀ id thread request, ((after.workers id).tasks.producers thread).value = some request ↔
      after.pushedBy thread = some (id, request) := by
  intro id thread request
  rw [workers, pushes]
  exact serialised.inside id thread request

/-- The destructor steps. -/
theorem pushedBy_destruction {destruction : Destruction} (other : PoolThread ι)
    (different : other ≠ .destructor) :
    ({ pool with destruction := destruction } : ThreadPool ι).pushedBy other =
      pool.pushedBy other := by
  cases other with
  | caller caller => rfl
  | destructor => exact absurd rfl different

theorem pushedBy_outside {destruction : Destruction} (outside : ∀ id, destruction ≠ .pushing id) :
    ({ pool with destruction := destruction } : ThreadPool ι).pushedBy .destructor = none := by
  simp only [pushedBy]

theorem afterStop_ne (pool : ThreadPool ι) (worker id : Word) :
    pool.afterStop worker ≠ .pushing id := by
  rw [afterStop]
  split <;> exact nofun

/-- The next worker that is stopped is one of the pool's. -/
theorem target_afterStop {id other : Word} (below : id < pool.nOfThreads)
    (target : pool.afterStop id = .stopping other ∨ pool.afterStop id = .pushing other) :
    other = id + 1 ∧ other.toNat = id.toNat + 1 ∧ other < pool.nOfThreads := by
  rw [afterStop] at target
  split at target
  · rcases target with target | target <;> cases target
  · rename_i more
    rcases target with target | target
    · obtain rfl := Destruction.stopping.inj target
      rw [BitVec.lt_def] at below ⊢
      have one : (1 : Word).toNat = 1 := rfl
      have sum : (id + 1).toNat = id.toNat + 1 := by
        rw [BitVec.toNat_add_of_fits (by omega), one]
      have different : (id + 1).toNat ≠ pool.nOfThreads.toNat :=
        fun same => more (BitVec.eq_of_toNat_eq same)
      exact ⟨rfl, sum, by omega⟩
    · cases target

/-- A worker whose loop has stepped. -/
theorem producers_setWorker {id : Word} {worker : Worker (PoolThread ι) ℕ}
    (producers : worker.tasks.producers = (pool.workers id).tasks.producers) (other : Word) :
    ((pool.setWorker id worker).workers other).tasks.producers =
      (pool.workers other).tasks.producers := by
  change (Function.update pool.workers id worker other).tasks.producers = _
  by_cases same : other = id
  · subst same
    rw [Function.update_self, producers]
  · rw [Function.update_of_ne same]

variable [DecidableEq ι]

/-- A thread steps inside a push, enters it or leaves it. -/
theorem inside_step (serialised : pool.Serialised) (thread : PoolThread ι) {id : Word}
    {worker : Worker (PoolThread ι) ℕ} {producer : Producer (Request ℕ)}
    (workers : after.workers = Function.update pool.workers id worker)
    (producers : worker.tasks.producers =
      Function.update (pool.workers id).tasks.producers thread producer)
    (was : ∀ other request, pool.pushedBy thread = some (other, request) → other = id)
    (now : after.pushedBy thread = producer.value.map fun request => (id, request))
    (others : ∀ other, other ≠ thread → after.pushedBy other = pool.pushedBy other) :
    ∀ at_ other request, ((after.workers at_).tasks.producers other).value = some request ↔
      after.pushedBy other = some (at_, request) := by
  intro at_ other request
  rw [workers]
  by_cases same : other = thread
  · subst same
    rw [now]
    by_cases here : at_ = id
    · subst here
      rw [Function.update_self, producers, Function.update_self]
      cases producer.value <;> simp
    · rw [Function.update_of_ne here, serialised.inside at_ other request]
      refine iff_of_false ?_ ?_
      · exact fun pushes => here (was at_ request pushes)
      · cases producer.value with
        | none => exact nofun
        | some value =>
            intro pushes
            exact here (Prod.mk.inj (Option.some.inj pushes)).1.symm
  · rw [others other same, ← serialised.inside at_ other request]
    by_cases here : at_ = id
    · subst here
      rw [Function.update_self, producers, Function.update_of_ne same]
    · rw [Function.update_of_ne here]

/-- A caller that has the mutex, or goes on without it. -/
theorem mutex_setCaller (serialised : pool.Serialised) {caller : Caller ι} {stage : AddTask}
    (callers : after.callers = Function.update pool.callers caller stage)
    (kept : after.mutex = pool.mutex)
    (locked : stage.locked = true → (pool.callers caller).locked = true) :
    ∀ other, (after.callers other).locked = true → after.mutex = some other := by
  intro other
  rw [callers, kept]
  by_cases same : other = caller
  · subst same
    rw [Function.update_self]
    exact fun holds => serialised.mutex other (locked holds)
  · rw [Function.update_of_ne same]
    exact serialised.mutex other

theorem pushedBy_setCaller (pool : ThreadPool ι) {caller : Caller ι} {stage : AddTask}
    {thread : PoolThread ι} (other : thread ≠ .caller caller) :
    (pool.setCaller caller stage).pushedBy thread = pool.pushedBy thread := by
  cases thread with
  | caller this =>
      have different : this ≠ caller := fun same => other (by rw [same])
      simp only [pushedBy, setCaller, Function.update_of_ne different]
  | destructor => rfl

/-- Where a caller stands that is not inside a push. -/
theorem pushedBy_setCaller_self (pool : ThreadPool ι) {caller : Caller ι} {stage : AddTask}
    (outside : ∀ call workerId, stage ≠ .adding call workerId) :
    (pool.setCaller caller stage).pushedBy (.caller caller) = none := by
  simp only [pushedBy, setCaller, Function.update_self]

/-- A caller steps without its thread being inside a push, before or after. -/
theorem inside_setCaller (serialised : pool.Serialised) (caller : Caller ι)
    (workers : after.workers = pool.workers)
    (pushes : ∀ thread, thread ≠ .caller caller → after.pushedBy thread = pool.pushedBy thread)
    (outside : after.pushedBy (.caller caller) = none)
    (was : ∀ call workerId, pool.callers caller ≠ .adding call workerId) :
    ∀ id thread request, ((after.workers id).tasks.producers thread).value = some request ↔
      after.pushedBy thread = some (id, request) := by
  refine serialised.inside_same (fun id => by rw [workers]) ?_
  intro thread
  by_cases same : thread = .caller caller
  · subst same
    have nothing : pool.pushedBy (.caller caller) = none := by
      cases pushes : pool.pushedBy (.caller caller) with
      | none => rfl
      | some target =>
          obtain ⟨-, call, workerId, stage, -⟩ := pushedBy_caller pushes
          exact absurd stage (was call workerId)
    rw [outside, nothing]
  · exact pushes thread same

/-- **Every step keeps the callers taking turns.** -/
theorem step (serialised : pool.Serialised) {op : PoolOp ι} (stepped : pool.step op = .ok after) :
    after.Serialised := by
  cases step_cases stepped with
  | @calls caller idle =>
      refine ⟨serialised.mutex_setCaller rfl rfl (by simp [AddTask.locked]), ?_⟩
      refine serialised.inside_setCaller caller rfl
        (fun thread other => ?_) ?_ (fun call workerId => ?_)
      · exact pushedBy_setCaller { pool with calls := pool.calls + 1 } other
      · exact pushedBy_setCaller_self _ (by simp)
      · rw [idle]
        simp
  | @locks caller call stage free =>
      have none : ∀ other, (pool.callers other).locked = false := by
        intro other
        rw [← Bool.not_eq_true]
        intro locked
        have holds := serialised.mutex other locked
        rw [free] at holds
        cases holds
      constructor
      · intro other locked
        by_cases same : other = caller
        · rw [same]
          rfl
        · change (Function.update pool.callers caller _ other).locked = true at locked
          rw [Function.update_of_ne same, none other] at locked
          cases locked
      · refine serialised.inside_setCaller caller rfl (fun thread other => ?_) ?_
          (fun call workerId => ?_)
        · exact pushedBy_setCaller { pool with mutex := some caller } other
        · exact pushedBy_setCaller_self _ (by simp)
        · rw [stage]
          simp
  | @enters caller call workerId worker stage moved =>
      obtain ⟨idle, producers⟩ := Worker.step_push moved
      refine ⟨serialised.mutex_setCaller rfl rfl (fun _ => by rw [stage]; rfl), ?_⟩
      refine serialised.inside_step (.caller caller) rfl producers ?_ ?_ ?_
      · intro other request pushes
        obtain ⟨-, call, workerId, adding, -⟩ := pushedBy_caller pushes
        rw [stage] at adding
        cases adding
      · simp [pushedBy, setCaller, Producer.value]
      · exact fun other different => pushedBy_setCaller _ different
  | @pushes caller call workerId worker stage moved inside =>
      obtain ⟨-, producer, producers, stays⟩ := Worker.step_producer moved
      refine ⟨serialised.mutex, ?_⟩
      refine serialised.inside_step (.caller caller) rfl producers ?_ ?_ (fun _ _ => rfl)
      · exact fun other request pushes => (pushedBy_caller pushes).1
      · have pushes : pool.pushedBy (.caller caller) = some (pool.nextWorker, .task call) := by
          simp only [pushedBy, stage]
        rw [producers, Function.update_self] at inside
        rw [stays.resolve_left inside, (serialised.inside _ _ _).mpr pushes]
        exact pushes
  | @adds caller call workerId worker stage moved outside =>
      obtain ⟨-, producer, producers, -⟩ := Worker.step_producer moved
      have locked : (pool.callers caller).locked = true := by
        rw [stage]
        rfl
      rw [producers, Function.update_self] at outside
      subst outside
      refine ⟨serialised.mutex_setCaller rfl rfl (fun _ => locked), ?_⟩
      refine serialised.inside_step (.caller caller) rfl producers ?_ ?_ ?_
      · exact fun other request pushes => (pushedBy_caller pushes).1
      · refine pushedBy_setCaller_self _ ?_
        intro other id adding
        split at adding
        · cases adding
        · split at adding <;> cases adding
      · intro other different
        cases other with
        | caller this =>
            have apart : this ≠ caller := fun same => different (by rw [same])
            rw [serialised.pushedBy_other locked apart]
            refine (pushedBy_setCaller _ different).trans ?_
            have none := serialised.pushedBy_other locked apart
            cases place : pool.callers this <;> simp_all [pushedBy]
        | destructor => rfl
  | @unlocks caller call result stage =>
      have locked : (pool.callers caller).locked = true := by
        rw [stage]
        rfl
      constructor
      · intro other holds
        by_cases same : other = caller
        · subst same
          change (Function.update pool.callers other .idle other).locked = true at holds
          rw [Function.update_self] at holds
          cases holds
        · change (Function.update pool.callers caller .idle other).locked = true at holds
          rw [Function.update_of_ne same] at holds
          exact absurd (serialised.unique holds locked) same
      · refine serialised.inside_setCaller caller rfl
          (fun thread other => ?_) ?_ (fun call workerId => ?_)
        · exact pushedBy_setCaller { pool with mutex := none } other
        · exact pushedBy_setCaller_self _ (by simp)
        · rw [stage]
          simp
  | @loops id headFirst worker below moved =>
      have producers : worker.tasks.producers = (pool.workers id).tasks.producers :=
        Worker.loopStep_producers moved
      exact ⟨serialised.mutex, serialised.inside_same (producers_setWorker producers) fun _ => rfl⟩
  | @finishes id result worker below moved =>
      have producers : worker.tasks.producers = (pool.workers id).tasks.producers :=
        Worker.finish_producers moved
      exact ⟨serialised.mutex, serialised.inside_same (producers_setWorker producers) fun _ => rfl⟩
  | destroys first =>
      refine ⟨serialised.mutex, serialised.inside_same (fun _ => rfl) ?_⟩
      intro thread
      cases thread with
      | caller caller => rfl
      | destructor => simp only [pushedBy, first]
  | @stops id worker stage moved =>
      obtain ⟨idle, producers⟩ := Worker.step_push moved
      refine ⟨serialised.mutex, serialised.inside_step .destructor rfl producers ?_ ?_ ?_⟩
      · intro other request pushes
        rw [(pushedBy_destructor pushes).1] at stage
        cases stage
      · rfl
      · exact pushedBy_destruction
  | @stopPushes id worker stage moved inside =>
      obtain ⟨-, producer, producers, stays⟩ := Worker.step_producer moved
      refine ⟨serialised.mutex,
        serialised.inside_step .destructor rfl producers ?_ ?_ fun _ _ => rfl⟩
      · intro other request pushes
        rw [(pushedBy_destructor pushes).1] at stage
        exact Destruction.pushing.inj stage
      · have pushes : pool.pushedBy .destructor = some (id, .stop) := by
          simp only [pushedBy, stage]
        rw [producers, Function.update_self] at inside
        rw [stays.resolve_left inside, (serialised.inside _ _ _).mpr pushes]
        exact pushes
  | @stopped id worker stage moved outside =>
      obtain ⟨-, producer, producers, -⟩ := Worker.step_producer moved
      rw [producers, Function.update_self] at outside
      subst outside
      refine ⟨serialised.mutex, serialised.inside_step .destructor rfl producers ?_ ?_ ?_⟩
      · intro other request pushes
        rw [(pushedBy_destructor pushes).1] at stage
        exact Destruction.pushing.inj stage
      · exact pushedBy_outside (afterStop_ne pool id)
      · exact pushedBy_destruction
  | @joins id stage ended =>
      refine ⟨serialised.mutex, serialised.inside_same (fun _ => rfl) ?_⟩
      intro thread
      cases thread with
      | caller caller => rfl
      | destructor =>
          refine (pushedBy_outside (afterJoin_ne pool id)).trans ?_
          simp only [pushedBy, stage]

end Serialised

end ThreadPool

/-! ## The destructor and a caller -/

/-- The next step of the call is to enter a push. -/
def AddTask.offers : AddTask → Bool
  | .looping _ _ => true
  | _ => false

/-- The call is inside a push. -/
def AddTask.adds : AddTask → Bool
  | .adding _ _ => true
  | _ => false

theorem AddTask.locked_of_adds {stage : AddTask} (adds : stage.adds = true) :
    stage.locked = true := by
  cases stage with
  | adding call workerId => rfl
  | _ => cases adds

namespace ThreadPool

variable {ι : Type u}

/-- No two threads are inside a push of one worker. -/
def Apart (pool : ThreadPool ι) : Prop :=
  ∀ id thread other, (pool.workers id).tasks.producers thread ≠ .idle →
    (pool.workers id).tasks.producers other ≠ .idle → thread = other

/-- Neither the caller that has the mutex nor the destructor enters a push of the worker whose push
the other one is inside. -/
def KeepsApart (pool : ThreadPool ι) : PoolOp ι → Prop
  | .caller caller =>
      (pool.callers caller).offers = true → pool.destruction ≠ .pushing pool.nextWorker
  | .destructor =>
      pool.destruction = .stopping pool.nextWorker →
        ∀ caller ∈ pool.mutex, (pool.callers caller).adds = false
  | _ => True

instance (pool : ThreadPool ι) : (op : PoolOp ι) → Decidable (pool.KeepsApart op)
  | .caller caller => inferInstanceAs (Decidable ((pool.callers caller).offers = true → _))
  | .destructor =>
      inferInstanceAs (Decidable (_ → ∀ caller ∈ pool.mutex, (pool.callers caller).adds = false))
  | .addTask _ | .loop _ _ | .finish _ _ | .destroy => inferInstanceAs (Decidable True)

namespace Serialised

variable {pool after : ThreadPool ι}

theorem inside_iff (serialised : pool.Serialised) {id : Word} {thread : PoolThread ι} :
    (pool.workers id).tasks.producers thread ≠ .idle ↔
      ∃ request, pool.pushedBy thread = some (id, request) := by
  rw [ne_eq, ← Producer.value_eq_none, ← ne_eq, Option.ne_none_iff_exists']
  simp only [serialised.inside]

theorem caller_inside_iff (serialised : pool.Serialised) {id : Word} {caller : Caller ι} :
    (pool.workers id).tasks.producers (.caller caller) ≠ .idle ↔
      id = pool.nextWorker ∧ (pool.callers caller).adds = true := by
  rw [serialised.inside_iff]
  constructor
  · rintro ⟨request, pushes⟩
    obtain ⟨here, call, workerId, stage, -⟩ := pushedBy_caller pushes
    exact ⟨here, by rw [stage]; rfl⟩
  · rintro ⟨rfl, adds⟩
    cases stage : pool.callers caller with
    | adding call workerId => exact ⟨.task call, by simp only [pushedBy, stage]⟩
    | _ =>
        rw [stage] at adds
        cases adds

theorem destructor_inside_iff (serialised : pool.Serialised) {id : Word} :
    (pool.workers id).tasks.producers .destructor ≠ .idle ↔ pool.destruction = .pushing id := by
  rw [serialised.inside_iff]
  constructor
  · rintro ⟨request, pushes⟩
    exact (pushedBy_destructor pushes).1
  · intro stage
    exact ⟨.stop, by simp only [pushedBy, stage]⟩

/-- Two threads are inside one push only if one of them is the destructor. -/
theorem apart_iff (serialised : pool.Serialised) :
    pool.Apart ↔ (pool.destruction = .pushing pool.nextWorker →
      ∀ caller, (pool.callers caller).adds = false) := by
  constructor
  · intro apart stage caller
    rw [← Bool.not_eq_true]
    intro adds
    have same := apart pool.nextWorker (.caller caller) .destructor
      (serialised.caller_inside_iff.mpr ⟨rfl, adds⟩) (serialised.destructor_inside_iff.mpr stage)
    cases same
  · intro nobody id thread other inside otherInside
    have meet : ∀ caller, (pool.workers id).tasks.producers (.caller caller) ≠ .idle →
        (pool.workers id).tasks.producers .destructor ≠ .idle → False := by
      intro caller inside stops
      obtain ⟨here, adds⟩ := serialised.caller_inside_iff.mp inside
      have stage := serialised.destructor_inside_iff.mp stops
      rw [here] at stage
      rw [nobody stage caller] at adds
      cases adds
    cases thread with
    | caller caller =>
        cases other with
        | caller another =>
            have first := (serialised.caller_inside_iff.mp inside).2
            have second := (serialised.caller_inside_iff.mp otherInside).2
            rw [serialised.unique (AddTask.locked_of_adds first) (AddTask.locked_of_adds second)]
        | destructor => exact (meet caller inside otherInside).elim
    | destructor =>
        cases other with
        | caller caller => exact (meet caller otherInside inside).elim
        | destructor => rfl

/-- No caller is inside a push when the one that has the mutex is not. -/
theorem adds_of_locked (serialised : pool.Serialised) {caller : Caller ι}
    (locked : (pool.callers caller).locked = true) (outside : (pool.callers caller).adds = false)
    (other : Caller ι) : (pool.callers other).adds = false := by
  rw [← Bool.not_eq_true]
  intro adds
  rw [serialised.unique (AddTask.locked_of_adds adds) locked, outside] at adds
  cases adds

/-- A push is begun while nobody is inside, where the threads are kept apart. -/
theorem alone (serialised : pool.Serialised) {op : PoolOp ι} (keeps : pool.KeepsApart op)
    {id : Word} {own : WorkerOp (PoolThread ι) ℕ}
    (takes : pool.workerOp op = some (id, own)) : (pool.workers id).Alone own := by
  cases op with
  | caller caller =>
      cases stage : pool.callers caller with
      | looping call workerId =>
          simp only [workerOp, stage, Option.some.injEq, Prod.mk.injEq] at takes
          obtain ⟨rfl, rfl⟩ := takes
          have locked : (pool.callers caller).locked = true := by
            rw [stage]
            rfl
          intro thread
          by_contra inside
          cases thread with
          | caller other =>
              have adds := (serialised.caller_inside_iff.mp inside).2
              rw [serialised.adds_of_locked locked (by rw [stage]; rfl)] at adds
              cases adds
          | destructor =>
              exact keeps (by rw [stage]; rfl) (serialised.destructor_inside_iff.mp inside)
      | adding call workerId =>
          simp only [workerOp, stage, Option.some.injEq, Prod.mk.injEq] at takes
          obtain ⟨rfl, rfl⟩ := takes
          trivial
      | _ => simp [workerOp, stage] at takes
  | loop worker headFirst =>
      simp only [workerOp, Option.some.injEq, Prod.mk.injEq] at takes
      obtain ⟨rfl, rfl⟩ := takes
      trivial
  | finish worker result =>
      simp only [workerOp, Option.some.injEq, Prod.mk.injEq] at takes
      obtain ⟨rfl, rfl⟩ := takes
      trivial
  | destructor =>
      cases stage : pool.destruction with
      | stopping other =>
          simp only [workerOp, stage, Option.some.injEq, Prod.mk.injEq] at takes
          obtain ⟨rfl, rfl⟩ := takes
          intro thread
          by_contra inside
          cases thread with
          | caller caller =>
              obtain ⟨rfl, adds⟩ := serialised.caller_inside_iff.mp inside
              have locked := AddTask.locked_of_adds adds
              have outside := keeps stage caller (serialised.mutex caller locked)
              rw [adds] at outside
              cases outside
          | destructor =>
              have pushing := serialised.destructor_inside_iff.mp inside
              rw [stage] at pushing
              cases pushing
      | pushing other =>
          simp only [workerOp, stage, Option.some.injEq, Prod.mk.injEq] at takes
          obtain ⟨rfl, rfl⟩ := takes
          trivial
      | _ => simp [workerOp, stage] at takes
  | addTask caller => cases takes
  | destroy => cases takes

variable [DecidableEq ι]

/-- A caller goes where it does not push, and no other one pushes. -/
theorem adds_update {callers : Caller ι → AddTask} {caller : Caller ι} {stage : AddTask}
    (outside : stage.adds = false) (others : ∀ other, other ≠ caller → (callers other).adds = false)
    (other : Caller ι) : (Function.update callers caller stage other).adds = false := by
  by_cases same : other = caller
  · rw [same, Function.update_self]
    exact outside
  · rw [Function.update_of_ne same]
    exact others other same

/-- **A step brings no two threads into one push exactly when it keeps them apart.** -/
theorem apart_step (serialised : pool.Serialised) (apart : pool.Apart) {op : PoolOp ι}
    (stepped : pool.step op = .ok after) : after.Apart ↔ pool.KeepsApart op := by
  rw [(serialised.step stepped).apart_iff]
  rw [serialised.apart_iff] at apart
  cases step_cases stepped with
  | @calls caller idle =>
      refine iff_of_true (fun pushing => ?_) trivial
      exact adds_update rfl fun other _ => apart pushing other
  | @locks caller call stage free =>
      refine iff_of_true (fun pushing => ?_) (fun offers => ?_)
      · exact adds_update rfl fun other _ => apart pushing other
      · rw [stage] at offers
        cases offers
  | @enters caller call workerId worker stage moved =>
      have adds : (Function.update pool.callers caller (.adding call workerId) caller).adds =
          true := by
        rw [Function.update_self]
        rfl
      constructor
      · intro nobody _ pushing
        have outside := nobody pushing caller
        change (Function.update pool.callers caller (.adding call workerId) caller).adds =
          false at outside
        rw [adds] at outside
        cases outside
      · intro keeps pushing
        exact absurd pushing (keeps (by rw [stage]; rfl))
  | @pushes caller call workerId worker stage moved inside =>
      refine iff_of_true apart (fun offers => ?_)
      rw [stage] at offers
      cases offers
  | @adds caller call workerId worker stage moved outside =>
      refine iff_of_true (fun _ => adds_update ?_ fun other different => ?_) (fun offers => ?_)
      · split
        · rfl
        · split <;> rfl
      · rw [← Bool.not_eq_true]
        intro adds
        have locked : (pool.callers caller).locked = true := by
          rw [stage]
          rfl
        exact different (serialised.unique (AddTask.locked_of_adds adds) locked)
      · rw [stage] at offers
        cases offers
  | @unlocks caller call result stage =>
      refine iff_of_true (fun _ => adds_update rfl fun other _ => ?_) (fun offers => ?_)
      · exact serialised.adds_of_locked (by rw [stage]; rfl) (by rw [stage]; rfl) other
      · rw [stage] at offers
        cases offers
  | loops below moved => exact iff_of_true apart trivial
  | finishes below moved => exact iff_of_true apart trivial
  | destroys first => exact iff_of_true nofun trivial
  | @stops id worker stage moved =>
      constructor
      · intro nobody stopping caller _
        rw [stage] at stopping
        exact nobody (congrArg Destruction.pushing (Destruction.stopping.inj stopping)) caller
      · intro keeps pushing caller
        have stopping : pool.destruction = .stopping pool.nextWorker := by
          rw [stage, Destruction.pushing.inj pushing]
        rw [← Bool.not_eq_true]
        intro adds
        have outside := keeps stopping caller
          (serialised.mutex caller (AddTask.locked_of_adds adds))
        change (pool.callers caller).adds = true at adds
        rw [adds] at outside
        cases outside
  | @stopPushes id worker stage moved inside =>
      refine iff_of_true apart (fun stopping => ?_)
      rw [stage] at stopping
      cases stopping
  | @stopped id worker stage moved outside =>
      refine iff_of_true (fun pushing => absurd pushing (afterStop_ne pool id _)) ?_
      intro stopping
      rw [stage] at stopping
      cases stopping
  | @joins id stage ended =>
      refine iff_of_true (fun pushing => absurd pushing (afterJoin_ne pool id _)) ?_
      intro stopping
      rw [stage] at stopping
      cases stopping

end Serialised

end ThreadPool

/-! ## The workers of a pool -/

namespace ThreadPool

variable {ι : Type u} [DecidableEq ι] {pool after : ThreadPool ι} {h : PoolHistory}

/-- The worker that takes part in a step takes a step of its own, and no other does. -/
theorem workers_step {op : PoolOp ι} (stepped : pool.step op = .ok after) :
    match pool.workerOp op with
    | none => after.workers = pool.workers
    | some (id, workerOp) => ∃ worker, (pool.workers id).step workerOp = .ok worker ∧
        after.workers = Function.update pool.workers id worker := by
  cases step_cases stepped with
  | calls idle => rfl
  | locks stage free => simp only [workerOp, stage, setCaller]
  | @enters caller call workerId worker stage moved =>
      simp only [workerOp, stage]
      exact ⟨worker, moved, rfl⟩
  | @pushes caller call workerId worker stage moved inside =>
      simp only [workerOp, stage]
      exact ⟨worker, moved, rfl⟩
  | @adds caller call workerId worker stage moved outside =>
      simp only [workerOp, stage]
      exact ⟨worker, moved, rfl⟩
  | unlocks stage => simp only [workerOp, stage, setCaller]
  | @loops id headFirst worker below moved => exact ⟨worker, moved, rfl⟩
  | @finishes id result worker below moved => exact ⟨worker, moved, rfl⟩
  | destroys first => rfl
  | @stops id worker stage moved =>
      simp only [workerOp, stage]
      exact ⟨worker, moved, rfl⟩
  | @stopPushes id worker stage moved inside =>
      simp only [workerOp, stage]
      exact ⟨worker, moved, rfl⟩
  | @stopped id worker stage moved outside =>
      simp only [workerOp, stage]
      exact ⟨worker, moved, rfl⟩
  | joins stage ended => simp only [workerOp, stage]

/-- What a step is for one worker: a step of its own, or none. -/
theorem worker_cases {op : PoolOp ι} (stepped : pool.step op = .ok after) (id : Word) :
    ((∀ own, pool.workerOp op ≠ some (id, own)) ∧ after.workers id = pool.workers id ∧
      (PoolHistory.note pool op after h).workers id = h.workers id) ∨
    ∃ workerOp, pool.workerOp op = some (id, workerOp) ∧
      (pool.workers id).step workerOp = .ok (after.workers id) ∧
      (PoolHistory.note pool op after h).workers id =
        .note (pool.workers id) workerOp (after.workers id) (h.workers id) := by
  have moved := workers_step stepped
  cases takes : pool.workerOp op with
  | none =>
      rw [takes] at moved
      refine .inl ⟨nofun, by rw [moved], ?_⟩
      simp only [PoolHistory.note, PoolHistory.noteWorkers, takes]
  | some target =>
      obtain ⟨other, workerOp⟩ := target
      rw [takes] at moved
      obtain ⟨worker, own, workers⟩ := moved
      by_cases same : id = other
      · subst same
        refine .inr ⟨workerOp, rfl, ?_, ?_⟩
        · rw [workers, Function.update_self]
          exact own
        · simp only [PoolHistory.note, PoolHistory.noteWorkers, takes, Function.update_self]
      · refine .inl ⟨?_, by rw [workers, Function.update_of_ne same], ?_⟩
        · intro own takes
          exact same (Prod.mk.inj (Option.some.inj takes)).1.symm
        · simp only [PoolHistory.note, PoolHistory.noteWorkers, takes,
            Function.update_of_ne same]

/-- A pool whose threads are kept apart: its workers work. -/
structure Pooling (maxSize : ℕ) (pool : ThreadPool ι) (h : PoolHistory) : Prop where
  serialised : pool.Serialised
  apart : pool.Apart
  working : ∀ id, Working maxSize (pool.workers id) (h.workers id)

namespace Pooling

variable {maxSize : ℕ}

omit [DecidableEq ι] in
theorem create {numberOfThreads workerTaskQueueSize hardwareConcurrency : Word}
    (fits : (taskQueueSize workerTaskQueueSize).toNat < 2 ^ 64 - 1) :
    Pooling (taskQueueSize workerTaskQueueSize).toNat
      (.create numberOfThreads workerTaskQueueSize hardwareConcurrency : ThreadPool ι) .empty where
  serialised := .create ..
  apart := fun _ _ _ inside => absurd rfl inside
  working := fun _ => .create fits

/-- A step that keeps the threads apart keeps the workers working. -/
theorem step (pooling : Pooling maxSize pool h) {op : PoolOp ι} (keeps : pool.KeepsApart op)
    (stepped : pool.step op = .ok after) :
    Pooling maxSize after (PoolHistory.note pool op after h) := by
  refine ⟨pooling.serialised.step stepped,
    (pooling.serialised.apart_step pooling.apart stepped).mpr keeps, ?_⟩
  intro id
  rcases worker_cases (h := h) stepped id with ⟨-, worker, noted⟩ |
    ⟨workerOp, takes, moved, noted⟩
  · rw [worker, noted]
    exact pooling.working id
  · rw [noted]
    exact (pooling.working id).step (pooling.serialised.alone keeps takes) moved

end Pooling

/-- **One thread pushes at a time**, in every run in which neither the caller that has the mutex nor
the destructor enters a push that the other one is inside; and no push writes a slot that holds a
request that is accepted and not yet popped. A step leads to two threads inside one push exactly if
it is such an entry. -/
theorem one_thread_pushes_at_a_time {numberOfThreads workerTaskQueueSize : Word}
    {hardwareConcurrency : Word} (fits : (taskQueueSize workerTaskQueueSize).toNat < 2 ^ 64 - 1)
    {ops : List (PoolOp ι)}
    (run : Run (observed step PoolHistory.note) (fun watched op => watched.1.KeepsApart op)
      (create numberOfThreads workerTaskQueueSize hardwareConcurrency, .empty) ops (pool, h)) :
    pool.Apart ∧
    (∀ id thread request head,
      (pool.workers id).tasks.producers thread = .writing request head →
      ∀ i, (h.workers id).queue.popped.length ≤ i → (h.workers id).queue.slots[i]? ≠ some head) ∧
    ∀ op after, pool.step op = .ok after → (after.Apart ↔ pool.KeepsApart op) := by
  have pooling : Pooling (taskQueueSize workerTaskQueueSize).toNat pool h := by
    apply run.invariant
      (fun watched => Pooling (taskQueueSize workerTaskQueueSize).toNat watched.1 watched.2)
      (.create fits)
    intro before op after held keeps stepped
    obtain ⟨moved, noted⟩ := observed_eq_ok.mp stepped
    rw [noted]
    exact held.step keeps moved
  refine ⟨pooling.apart, ?_, fun op after => pooling.serialised.apart_step pooling.apart⟩
  exact fun id thread request head writes i unpopped =>
    (pooling.working id).order.writing_free writes unpopped

end ThreadPool

/-- A task is added and begins to run. -/
def runningOps : List (PoolOp ℕ) :=
  [.addTask (.outside 0), .caller (.outside 0), .caller (.outside 0), .caller (.outside 0),
    .caller (.outside 0), .caller (.outside 0), .caller (.outside 0),
    .loop 0 true, .loop 0 true, .loop 0 true, .loop 0 true, .loop 0 true]

/-- It calls `add_task`, and the pool is destroyed when the call is inside `push`. -/
def meetingOps : List (PoolOp ℕ) :=
  runningOps ++ [.addTask (.task 0), .caller (.task 0), .caller (.task 0), .destroy, .destructor]

/-- It calls `add_task`, and the pool is destroyed after that. -/
def partingOps : List (PoolOp ℕ) :=
  runningOps ++ [.addTask (.task 0), .caller (.task 0), .caller (.task 0), .destroy,
    .caller (.task 0), .caller (.task 0), .caller (.task 0), .destructor, .destructor]

def meetingPool : ThreadPool ℕ × PoolHistory :=
  (checkedRun (observed ThreadPool.step PoolHistory.note) (fun _ _ => True)
    (ThreadPool.create 1 2 1, .empty) meetingOps).get (by decide +kernel)

def partingPool : ThreadPool ℕ × PoolHistory :=
  (checkedRun (observed ThreadPool.step PoolHistory.note)
    (fun watched op => watched.1.KeepsApart op)
    (ThreadPool.create 1 2 1, .empty) partingOps).get (by decide +kernel)

theorem one_thread_pushes_at_a_time_parting :
    (partingPool.1.workers 0).tasks.producers .destructor ≠ .idle ∧ partingPool.1.Apart := by
  have fits : (ThreadPool.taskQueueSize 2).toNat < 2 ^ 64 - 1 := by decide
  have run : Run (observed ThreadPool.step PoolHistory.note)
      (fun watched op => watched.1.KeepsApart op)
      (ThreadPool.create 1 2 1, .empty) partingOps partingPool := Run.of_isSome _
  have inside : ((partingPool.1.workers 0).tasks.producers .destructor).inside = true := by
    decide +kernel
  refine ⟨fun idle => ?_, (ThreadPool.one_thread_pushes_at_a_time fits run).1⟩
  rw [idle] at inside
  cases inside

/-- The task and the destructor are inside `push` of the same worker. -/
theorem task_meets_destructor :
    ¬ ∀ (ops : List (PoolOp ℕ)) (pool : ThreadPool ℕ) (h : PoolHistory),
      Run (observed ThreadPool.step PoolHistory.note) (fun _ _ => True)
        (ThreadPool.create 1 2 1, .empty) ops (pool, h) → pool.Apart := by
  intro claim
  have run : Run (observed ThreadPool.step PoolHistory.note) (fun _ _ => True)
      (ThreadPool.create 1 2 1, .empty) meetingOps meetingPool := Run.of_isSome _
  have apart := claim meetingOps meetingPool.1 meetingPool.2 run
  have inside : ∀ thread, ((meetingPool.1.workers 0).tasks.producers thread).inside = true →
      (meetingPool.1.workers 0).tasks.producers thread ≠ .idle := by
    intro thread inside idle
    rw [idle] at inside
    cases inside
  exact nomatch apart 0 (.caller (.task 0)) .destructor
    (inside _ (by decide +kernel)) (inside _ (by decide +kernel))

end Jasl
