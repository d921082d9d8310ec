import Jasl.Reactor.Stopping
import Jasl.Thread.TasksOnce
import Jasl.Thread.Shutdown

/-!
# A reactor in a thread of its own

The constructor of `ReactorInThread` makes a worker with a queue for two tasks, adds
`run` and then asks the worker to stop. So the worker runs one task, the loop of the
reactor, and then the request to stop, and its thread ends when the loop has. The
destructor joins that thread; it does not stop the reactor.

The machine is a worker beside a reactor. The thread that constructs the object
pushes its two requests step by step while the worker's thread already runs, a step
of the reactor is taken while the worker runs the task, and the task comes to its end
as the loop does. Other threads may call `stop`, and anything else, at any time.

In every interleaving both requests are accepted and the loop is run once
(`Constructed`), and the destructor returns only after the loop has come to its end,
so not before a call of `stop` or an exception (`destructor_waits_for_run`). After a
`stop` it returns (`stop_ends_destructor`).
-/

set_option autoImplicit false

namespace Jasl

open Library

/-! ## States and steps -/

/-- Where the thread stands that constructs the object and destroys it. -/
inductive Lifetime where
  /-- `Worker::create(2)` has returned. -/
  | created
  /-- Inside `add`. -/
  | adding
  | added
  /-- Inside `Worker::stop`. -/
  | stopping
  /-- The constructor has returned. -/
  | alive
  /-- `~Worker` joins the thread. -/
  | joining
  | destroyed
deriving DecidableEq, Repr

/-- The constructor has returned. -/
def Lifetime.constructed : Lifetime → Bool
  | .alive | .joining | .destroyed => true
  | .created | .adding | .added | .stopping => false

/-- `ReactorInThread`, with the worker that runs its one task, and what happened to that worker. -/
structure ReactorInThread where
  worker : Worker Unit Unit
  reactor : Reacting
  lifetime : Lifetime
  history : WorkerHistory Unit

/-- A step of the constructor or the destructor, of the worker's thread, or of the reactor and the
threads that use it. -/
inductive ThreadedOp where
  | construct
  | loop (headFirst : Bool)
  /-- The call of `func` comes to its end. -/
  | finish
  | reactor (op : ReactingOp)
  | destroy
  | join
deriving Repr

/-- A step of the worker's thread. -/
def ThreadedOp.ofThread : ThreadedOp → Bool
  | .loop _ | .finish => true
  | .reactor op => op.own
  | .construct | .destroy | .join => false

/-- How a call of `run` ends where the loop stands. -/
def RunPlace.result : RunPlace → Option CallResult
  | .finished => some .returned
  | .escaped => some .threw
  | .testing | .polling _ | .draining | .taking _ | .dispatching _ => none

/-- The thread is still inside a push, or has come back from it. -/
def Lifetime.afterPush (inside outside : Lifetime) : Producer (Request Unit) → Lifetime
  | .idle => outside
  | .loadedHead _ _ | .writing _ _ | .storing _ _ => inside

/-- The object is not destroyed while it is constructed. -/
theorem Lifetime.afterPush_ne_destroyed {inside outside : Lifetime}
    (stage : inside = .adding ∧ outside = .added ∨ inside = .stopping ∧ outside = .alive)
    (producer : Producer (Request Unit)) : Lifetime.afterPush inside outside producer ≠ .destroyed := by
  rcases stage with ⟨rfl, rfl⟩ | ⟨rfl, rfl⟩
  · cases producer <;> exact Lifetime.noConfusion
  · cases producer <;> exact Lifetime.noConfusion

namespace ReactorInThread

/-- The object when `Worker::create(2)` has returned. -/
def create (world : World) : ReactorInThread := ⟨.create 2, .create world, .created, .empty⟩

/-- A step of the worker, which is noted. -/
def onWorker (c : ReactorInThread) (op : WorkerOp Unit Unit) (next : Worker Unit Unit → Lifetime) :
    Except Halt ReactorInThread :=
  match c.worker.step op with
  | .error _ => .error .outOfTurn
  | .ok worker => .ok
      { c with worker, lifetime := next worker, history := .note c.worker op worker c.history }

/-- The end of the call of `func`: `run` ends as the loop of the reactor does. -/
def finish (c : ReactorInThread) : Except Halt ReactorInThread :=
  match c.worker.loop with
  | .running (.task ()) =>
      match c.reactor.place.result with
      | some result => c.onWorker (.finish result) fun _ => c.lifetime
      | none => .error .outOfTurn
  | _ => c.onWorker (.finish .returned) fun _ => c.lifetime

def step (id : PollerId) (c : ReactorInThread) : ThreadedOp → Except Halt ReactorInThread
  | .construct =>
      match c.lifetime with
      | .created => c.onWorker (.push () (.task ())) fun _ => .adding
      | .adding => c.onWorker (.producer ())
          fun worker => .afterPush .adding .added (worker.tasks.producers ())
      | .added => c.onWorker (.push () .stop) fun _ => .stopping
      | .stopping => c.onWorker (.producer ())
          fun worker => .afterPush .stopping .alive (worker.tasks.producers ())
      | .alive | .joining | .destroyed => .error .outOfTurn
  | .loop headFirst => c.onWorker (.loop headFirst) fun _ => c.lifetime
  | .finish => c.finish
  | .reactor op =>
      if op.own = true ∧ c.worker.loop ≠ .running (.task ()) then .error .outOfTurn
      else
        match c.reactor.step id op with
        | .error halt => .error halt
        | .ok reactor => .ok { c with reactor }
  | .destroy =>
      match c.lifetime with
      | .alive => .ok { c with lifetime := .joining }
      | _ => .error .outOfTurn
  | .join =>
      match c.lifetime, c.worker.loop with
      | .joining, .ended => .ok { c with lifetime := .destroyed }
      | _, _ => .error .outOfTurn

/-- What a step can do. -/
inductive Stepped (id : PollerId) (c : ReactorInThread) : ThreadedOp → ReactorInThread → Prop where
  | push {request : Request Unit} {next : Lifetime} {worker : Worker Unit Unit}
      (stage : c.lifetime = .created ∧ request = .task () ∧ next = .adding ∨
        c.lifetime = .added ∧ request = .stop ∧ next = .stopping)
      (moved : c.worker.step (.push () request) = .ok worker) :
      Stepped id c .construct
        { c with
          worker
          lifetime := next
          history := .note c.worker (.push () request) worker c.history }
  | producer {inside outside : Lifetime} {worker : Worker Unit Unit}
      (stage : c.lifetime = inside ∧ (inside = .adding ∧ outside = .added ∨
        inside = .stopping ∧ outside = .alive))
      (moved : c.worker.step (.producer ()) = .ok worker) :
      Stepped id c .construct
        { c with
          worker
          lifetime := .afterPush inside outside (worker.tasks.producers ())
          history := .note c.worker (.producer ()) worker c.history }
  | loop {headFirst : Bool} {worker : Worker Unit Unit}
      (moved : c.worker.step (.loop headFirst) = .ok worker) :
      Stepped id c (.loop headFirst)
        { c with worker, history := .note c.worker (.loop headFirst) worker c.history }
  | returns {result : CallResult} {worker : Worker Unit Unit}
      (running : c.worker.loop = .running (.task ()))
      (ended : c.reactor.place.result = some result)
      (moved : c.worker.step (.finish result) = .ok worker) :
      Stepped id c .finish
        { c with worker, history := .note c.worker (.finish result) worker c.history }
  | stops {worker : Worker Unit Unit} (running : c.worker.loop ≠ .running (.task ()))
      (moved : c.worker.step (.finish .returned) = .ok worker) :
      Stepped id c .finish
        { c with worker, history := .note c.worker (.finish .returned) worker c.history }
  | reactor {op : ReactingOp} {reactor : Reacting}
      (running : op.own = true → c.worker.loop = .running (.task ()))
      (moved : c.reactor.step id op = .ok reactor) : Stepped id c (.reactor op) { c with reactor }
  | destroy (alive : c.lifetime = .alive) : Stepped id c .destroy { c with lifetime := .joining }
  | join (joining : c.lifetime = .joining) (ended : c.worker.loop = .ended) :
      Stepped id c .join { c with lifetime := .destroyed }

theorem onWorker_eq_ok {c after : ReactorInThread} {op : WorkerOp Unit Unit}
    {next : Worker Unit Unit → Lifetime} :
    c.onWorker op next = .ok after ↔ ∃ worker, c.worker.step op = .ok worker ∧ after =
      { c with worker, lifetime := next worker, history := .note c.worker op worker c.history } := by
  rw [onWorker]
  cases c.worker.step op with
  | error failed => simp
  | ok worker => simp [eq_comm]

theorem step_eq_ok {id : PollerId} {c after : ReactorInThread} {op : ThreadedOp}
    (returned : c.step id op = .ok after) : Stepped id c op after := by
  cases op with
  | construct =>
      cases stage : c.lifetime with
      | created =>
          simp only [step, stage] at returned
          obtain ⟨worker, moved, rfl⟩ := onWorker_eq_ok.mp returned
          exact .push (.inl ⟨stage, rfl, rfl⟩) moved
      | adding =>
          simp only [step, stage] at returned
          obtain ⟨worker, moved, rfl⟩ := onWorker_eq_ok.mp returned
          exact .producer ⟨stage, .inl ⟨rfl, rfl⟩⟩ moved
      | added =>
          simp only [step, stage] at returned
          obtain ⟨worker, moved, rfl⟩ := onWorker_eq_ok.mp returned
          exact .push (.inr ⟨stage, rfl, rfl⟩) moved
      | stopping =>
          simp only [step, stage] at returned
          obtain ⟨worker, moved, rfl⟩ := onWorker_eq_ok.mp returned
          exact .producer ⟨stage, .inr ⟨rfl, rfl⟩⟩ moved
      | alive | joining | destroyed =>
          simp only [step, stage] at returned
          cases returned
  | loop headFirst =>
      obtain ⟨worker, moved, rfl⟩ := onWorker_eq_ok.mp returned
      exact .loop moved
  | finish =>
      rw [step, finish] at returned
      split at returned
      · rename_i running
        split at returned
        · rename_i result ended
          obtain ⟨worker, moved, rfl⟩ := onWorker_eq_ok.mp returned
          exact .returns running ended moved
        · cases returned
      · rename_i running
        obtain ⟨worker, moved, rfl⟩ := onWorker_eq_ok.mp returned
        exact .stops running moved
  | reactor op =>
      rw [step] at returned
      split at returned
      · cases returned
      · rename_i turn
        split at returned
        · cases returned
        · rename_i reactor moved
          obtain rfl := Except.ok.inj returned
          refine .reactor ?_ moved
          intro own
          by_contra elsewhere
          exact turn ⟨own, elsewhere⟩
  | destroy =>
      rw [step] at returned
      split at returned
      · rename_i alive
        obtain rfl := Except.ok.inj returned
        exact .destroy alive
      · cases returned
  | join =>
      rw [step] at returned
      split at returned
      · rename_i joining ended
        obtain rfl := Except.ok.inj returned
        exact .join joining ended
      · cases returned

end ReactorInThread

/-! ## What the worker keeps -/

theorem Worker.loop_of_ended {ι τ : Type} [DecidableEq ι] {w after : Worker ι τ}
    {op : WorkerOp ι τ} (ended : w.loop = .ended) (stepped : w.step op = .ok after) :
    after.loop = .ended := by
  cases op with
  | push thread request =>
      obtain ⟨tasks, -, rfl⟩ := Worker.pushStep_eq_ok.mp stepped
      exact ended
  | producer thread =>
      obtain ⟨tasks, -, rfl⟩ := Worker.pushStep_eq_ok.mp stepped
      exact ended
  | loop headFirst =>
      simp only [Worker.step, Worker.loopStep, ended] at stepped
      cases stepped
  | finish result =>
      simp only [Worker.step, Worker.finish, ended] at stepped
      cases stepped

/-- A step of the loop that is not the end of a call finishes nothing. -/
theorem WorkerHistory.noteLoop_finished {ι τ : Type} (w : Worker ι τ) (headFirst : Bool)
    (after : Worker ι τ) (h : WorkerHistory τ) :
    (WorkerHistory.noteLoop w headFirst after h).finished = h.finished := by
  rw [noteLoop]
  split
  · split <;> rfl
  · rfl
  · rfl

/-- A step that is not inside a push refuses nothing. -/
theorem WorkerHistory.note_refused {ι τ : Type} {w after : Worker ι τ} {op : WorkerOp ι τ}
    {h : WorkerHistory τ} (other : ∀ thread, op ≠ .producer thread) :
    (WorkerHistory.note w op after h).queue.refused = h.queue.refused := by
  have consumed : ∀ s : Spsc (Request τ),
      (SpscHistory.noteConsumer s h.queue).refused = h.queue.refused := by
    intro s
    rw [SpscHistory.noteConsumer]
    split
    · split <;> rfl
    · split <;> rfl
    · rfl
    · rfl
  cases op with
  | push thread request => rfl
  | producer thread => exact absurd rfl (other thread)
  | loop headFirst =>
      simp only [note, noteLoop]
      split
      · split
        · rfl
        · cases headFirst <;> rfl
      · exact consumed _
      · rfl
  | finish result => rfl

/-- A push finds room while at most one request was accepted before. -/
theorem Working.finds_room {w : Worker Unit Unit} {h : WorkerHistory Unit}
    (working : Working 2 w h) {request : Request Unit} {head : Word}
    (inside : w.tasks.producers () = .loadedHead request head)
    (few : h.queue.accepted.length ≤ 1) : w.tasks.queue.increment head ≠ w.tasks.queue.tail := by
  have entered : w.tasks.producers () ≠ .idle := by
    rw [inside]
    exact nofun
  obtain ⟨order, -⟩ := working.order.inside entered
  have known : (w.tasks.producers ()).Fits 2 w.tasks.queue h.queue := order.producer
  rw [inside] at known
  obtain ⟨rfl, same⟩ := known
  intro full
  have unpopped : h.queue.unpopped = 2 := order.full_iff.mp full
  rw [SpscHistory.unpopped, ← same] at unpopped
  omega

/-! ## What holds in every interleaving -/

/-- The beginnings of a list of two. -/
theorem eq_of_initial_pair {α : Type} {first second : α} {list : List α}
    (initial : list <+: [first, second]) : list = [] ∨ list = [first] ∨ list = [first, second] := by
  rcases List.prefix_cons_iff.mp initial with nothing | ⟨rest, rfl, fromSecond⟩
  · exact .inl nothing
  · rcases List.prefix_cons_iff.mp fromSecond with rfl | ⟨more, rfl, fromThird⟩
    · exact .inr (.inl rfl)
    · rw [List.prefix_nil.mp fromThird]
      exact .inr (.inr rfl)

/-- What the constructor has pushed: the requests accepted, by where its thread stands. -/
inductive Pushing : Lifetime → Producer (Request Unit) → List (Request Unit) → Prop where
  | created : Pushing .created .idle []
  | adding {producer : Producer (Request Unit)} (inside : producer.value = some (.task ())) :
      Pushing .adding producer (if producer.accepted then [.task ()] else [])
  | added : Pushing .added .idle [.task ()]
  | stopping {producer : Producer (Request Unit)} (inside : producer.value = some .stop) :
      Pushing .stopping producer (if producer.accepted then [.task (), .stop] else [.task ()])
  | constructed {lifetime : Lifetime} (returned : lifetime.constructed = true) :
      Pushing lifetime .idle [.task (), .stop]

namespace Pushing

variable {lifetime : Lifetime} {producer : Producer (Request Unit)}
  {accepted : List (Request Unit)}

/-- The requests are the loop of the reactor and then the stop. -/
theorem initial (pushing : Pushing lifetime producer accepted) :
    accepted <+: [.task (), .stop] := by
  cases pushing with
  | created => exact List.nil_prefix
  | adding _ =>
      split
      · exact ⟨[.stop], rfl⟩
      · exact List.nil_prefix
  | added => exact ⟨[.stop], rfl⟩
  | stopping _ =>
      split
      · exact List.prefix_rfl
      · exact ⟨[.stop], rfl⟩
  | constructed _ => exact List.prefix_rfl

theorem of_constructed (pushing : Pushing lifetime producer accepted)
    (returned : lifetime.constructed = true) : accepted = [.task (), .stop] := by
  cases pushing with
  | created | adding | added | stopping => cases returned
  | constructed _ => rfl

theorem idle_of_constructed (pushing : Pushing lifetime producer accepted)
    (returned : lifetime.constructed = true) : producer = .idle := by
  cases pushing with
  | created | adding | added | stopping => cases returned
  | constructed _ => rfl

/-- Nothing is pushed after the constructor. -/
theorem later {next : Lifetime} (pushing : Pushing lifetime producer accepted)
    (returned : lifetime.constructed = true) (still : next.constructed = true) :
    Pushing next producer accepted := by
  cases pushing with
  | created | adding | added | stopping => cases returned
  | constructed _ => exact .constructed still

/-- A thread that is about to look for room has had at most one request accepted. -/
theorem few {request : Request Unit} {head : Word}
    (pushing : Pushing lifetime (.loadedHead request head) accepted) : accepted.length ≤ 1 := by
  cases pushing with
  | adding _ => exact Nat.zero_le _
  | stopping _ => exact le_rfl

/-- A step inside a push that finds room. -/
theorem move {inside outside : Lifetime} {q : SpscQueue (Request Unit)}
    {before next : Producer (Request Unit)} {h noted : SpscHistory (Request Unit)}
    (pushing : Pushing inside before h.accepted)
    (stage : inside = .adding ∧ outside = .added ∨ inside = .stopping ∧ outside = .alive)
    (room : ∀ request head, before = .loadedHead request head → q.increment head ≠ q.tail)
    (move : ProducerMove q h before next noted) :
    Pushing (.afterPush inside outside next) next noted.accepted ∧
      noted.refused = h.refused := by
  cases move with
  | refused full => exact absurd full (room _ _ rfl)
  | finds _ =>
      refine ⟨?_, rfl⟩
      generalize h.accepted = accepted at pushing ⊢
      rcases stage with ⟨rfl, rfl⟩ | ⟨rfl, rfl⟩
      · cases pushing with
        | adding inside =>
            obtain rfl := Option.some.inj inside
            exact .adding rfl
      · cases pushing with
        | stopping inside =>
            obtain rfl := Option.some.inj inside
            exact .stopping rfl
  | writes =>
      refine ⟨?_, rfl⟩
      generalize h.accepted = accepted at pushing ⊢
      rcases stage with ⟨rfl, rfl⟩ | ⟨rfl, rfl⟩
      · cases pushing with
        | adding inside => exact .adding inside
      · cases pushing with
        | stopping inside => exact .stopping inside
  | publishes =>
      refine ⟨?_, rfl⟩
      change Pushing outside .idle h.accepted
      generalize h.accepted = accepted at pushing ⊢
      rcases stage with ⟨rfl, rfl⟩ | ⟨rfl, rfl⟩
      · cases pushing with
        | adding _ => exact .added
      · cases pushing with
        | stopping _ => exact .constructed rfl

end Pushing

/-- A worker's thread that has come to its end stays there. -/
theorem ReactorInThread.ended_step {id : PollerId} {c after : ReactorInThread} {op : ThreadedOp}
    (ended : c.worker.loop = .ended) (returned : c.step id op = .ok after) :
    after.worker.loop = .ended := by
  cases step_eq_ok returned with
  | push _ moved => exact Worker.loop_of_ended ended moved
  | producer _ moved => exact Worker.loop_of_ended ended moved
  | loop moved => exact Worker.loop_of_ended ended moved
  | returns _ _ moved => exact Worker.loop_of_ended ended moved
  | stops _ moved => exact Worker.loop_of_ended ended moved
  | reactor _ _ => exact ended
  | destroy _ => exact ended
  | join _ _ => exact ended

theorem ReactorInThread.lifetime_of_join {id : PollerId} {c after : ReactorInThread}
    (returned : c.step id .join = .ok after) : after.lifetime = .destroyed := by
  cases step_eq_ok returned with
  | join _ _ => rfl

/-- The invariant of the machine. -/
structure Constructed (id : PollerId) (c : ReactorInThread) : Prop where
  working : Working 2 c.worker c.history
  pushing : Pushing c.lifetime (c.worker.tasks.producers ()) c.history.queue.accepted
  refused : c.history.queue.refused = []
  ran : Request.task () ∈ c.history.finished → c.reactor.place.ended = true
  joined : c.lifetime = .destroyed → c.worker.loop = .ended
  stops : Stops id c.reactor
  set : c.reactor.place = .finished → c.reactor.stop = true

namespace Constructed

variable {id : PollerId} {c after : ReactorInThread}

theorem create (world : World) : Constructed id (.create world) where
  working := Working.create (show (2 : Word).toNat < 2 ^ 64 - 1 by decide)
  pushing := .created
  refused := rfl
  ran := fun member => absurd member List.not_mem_nil
  joined := fun destroyed => by cases destroyed
  stops := .create world
  set := fun finished => by cases finished

/-- The thread that constructs the object enters a push. -/
theorem push (holds : Constructed id c) {request : Request Unit} {next : Lifetime}
    {worker : Worker Unit Unit}
    (stage : c.lifetime = .created ∧ request = .task () ∧ next = .adding ∨
      c.lifetime = .added ∧ request = .stop ∧ next = .stopping)
    (moved : c.worker.step (.push () request) = .ok worker) :
    Constructed id
      { c with
        worker
        lifetime := next
        history := .note c.worker (.push () request) worker c.history } := by
  obtain ⟨idle, producers⟩ := Worker.step_push moved
  have alone : c.worker.Alone (.push () request) := fun _ => idle
  refine ⟨holds.working.step alone moved, ?_, holds.refused, holds.ran, ?_, holds.stops, holds.set⟩
  · have pushing := holds.pushing
    change Pushing next (worker.tasks.producers ()) c.history.queue.accepted
    rw [producers, Function.update_self]
    rw [idle] at pushing
    generalize c.history.queue.accepted = accepted at pushing ⊢
    rcases stage with ⟨created, rfl, rfl⟩ | ⟨added, rfl, rfl⟩
    · rw [created] at pushing
      cases pushing with
      | created => exact .adding rfl
      | constructed returned => cases returned
    · rw [added] at pushing
      cases pushing with
      | added => exact .stopping rfl
      | constructed returned => cases returned
  · rintro rfl
    rcases stage with ⟨-, -, impossible⟩ | ⟨-, -, impossible⟩ <;> cases impossible

/-- It takes a step inside a push, which finds room. -/
theorem producer (holds : Constructed id c) {inside outside : Lifetime}
    {worker : Worker Unit Unit}
    (stage : c.lifetime = inside ∧ (inside = .adding ∧ outside = .added ∨
      inside = .stopping ∧ outside = .alive))
    (moved : c.worker.step (.producer ()) = .ok worker) :
    Constructed id
      { c with
        worker
        lifetime := .afterPush inside outside (worker.tasks.producers ())
        history := .note c.worker (.producer ()) worker c.history } := by
  obtain ⟨rfl, outside⟩ := stage
  have working := holds.working.step (show c.worker.Alone (.producer ()) from trivial) moved
  have room : ∀ request head, c.worker.tasks.producers () = .loadedHead request head →
      c.worker.tasks.queue.increment head ≠ c.worker.tasks.queue.tail := by
    intro request head entered
    have pushing := holds.pushing
    rw [entered] at pushing
    exact holds.working.finds_room entered pushing.few
  obtain ⟨tasks, succeeded, rfl⟩ := Worker.pushStep_eq_ok.mp moved
  obtain ⟨producer, producers, -, move⟩ := SharedQueue.step_producer c.history.queue succeeded
  obtain ⟨pushing, refused⟩ := holds.pushing.move outside room move
  have there : tasks.producers () = producer := by
    rw [producers, Function.update_self]
  refine ⟨working, ?_, refused.trans holds.refused, holds.ran, ?_, holds.stops, holds.set⟩
  · change Pushing (.afterPush c.lifetime _ (tasks.producers ())) (tasks.producers ()) _
    rw [there]
    exact pushing
  · intro destroyed
    exact absurd destroyed (Lifetime.afterPush_ne_destroyed outside _)

/-- The worker's thread takes a step. -/
theorem thread (holds : Constructed id c) {op : WorkerOp Unit Unit} {worker : Worker Unit Unit}
    (own : op.ofLoop = true)
    (ran : Request.task () ∈ (WorkerHistory.note c.worker op worker c.history).finished →
      c.reactor.place.ended = true)
    (moved : c.worker.step op = .ok worker) :
    Constructed id { c with worker, history := .note c.worker op worker c.history } := by
  have outside : ∀ thread, op ≠ .producer thread := by
    rintro thread rfl
    cases own
  have alone : c.worker.Alone op := by
    cases op with
    | push _ _ => cases own
    | producer _ => cases own
    | loop _ => trivial
    | finish _ => trivial
  have producers : worker.tasks.producers = c.worker.tasks.producers := by
    cases op with
    | push _ _ => cases own
    | producer _ => cases own
    | loop _ => exact Worker.loopStep_producers moved
    | finish _ => exact Worker.finish_producers moved
  refine ⟨holds.working.step alone moved, ?_, ?_, ran, ?_, holds.stops, holds.set⟩
  · change Pushing c.lifetime (worker.tasks.producers ()) _
    rw [producers, WorkerHistory.note_accepted outside]
    exact holds.pushing
  · exact (WorkerHistory.note_refused outside).trans holds.refused
  · intro destroyed
    exact Worker.loop_of_ended (holds.joined destroyed) moved

/-- The reactor takes a step, or another thread does. -/
theorem reactorStep (holds : Constructed id c) {op : ReactingOp} {reactor : Reacting}
    (moved : c.reactor.step id op = .ok reactor) : Constructed id { c with reactor } := by
  refine { holds with ran := ?_, stops := holds.stops.step moved, set := ?_ }
  · intro finished
    have ended := holds.ran finished
    change reactor.place.ended = true
    rw [Reacting.ended_step ended moved]
    exact ended
  · exact Reacting.set_of_finished_step holds.set moved

/-- **Every step of every thread keeps the invariant.** -/
theorem step (holds : Constructed id c) {op : ThreadedOp} (returned : c.step id op = .ok after) :
    Constructed id after := by
  cases ReactorInThread.step_eq_ok returned with
  | push stage moved => exact holds.push stage moved
  | producer stage moved => exact holds.producer stage moved
  | @loop headFirst worker moved =>
      refine holds.thread rfl ?_ moved
      rw [WorkerHistory.note, WorkerHistory.noteLoop_finished]
      exact holds.ran
  | returns running ended moved =>
      refine holds.thread rfl (fun _ => ?_) moved
      cases place : c.reactor.place with
      | finished | escaped => rfl
      | testing | polling _ | draining | taking _ | dispatching _ =>
          rw [place] at ended
          cases ended
  | stops running moved =>
      refine holds.thread rfl ?_ moved
      intro finished
      rcases List.mem_append.mp finished with before | current
      · exact holds.ran before
      · rcases Worker.finish_cases moved with ⟨stopping, -⟩ | ⟨⟨⟩, task, -⟩
        · rw [stopping] at current
          cases List.mem_singleton.mp current
        · exact absurd task running
  | reactor _ moved => exact holds.reactorStep moved
  | destroy alive =>
      refine { holds with pushing := ?_, joined := fun destroyed => by cases destroyed }
      exact holds.pushing.later (by rw [alive]; rfl) rfl
  | join joining ended =>
      refine { holds with pushing := ?_, joined := fun _ => ended }
      exact holds.pushing.later (by rw [joining]; rfl) rfl

theorem run {world : World} {allowed : ReactorInThread → ThreadedOp → Prop} {ops : List ThreadedOp}
    (run : Run (ReactorInThread.step id) allowed (.create world) ops c) : Constructed id c :=
  run.invariant (Constructed id) (.create world) fun _ _ _ held _ returned => held.step returned

/-- The worker runs the loop of the reactor, and then the request to stop. -/
theorem started_initial (holds : Constructed id c) :
    c.history.started <+: [.task (), .stop] :=
  holds.working.started_initial.trans holds.pushing.initial

/-- A thread that has come to its end has run both. -/
theorem finished_of_ended (holds : Constructed id c) (ended : c.worker.loop = .ended) :
    c.history.finished = [.task (), .stop] := by
  have stopped : Request.stop ∈ c.history.finished :=
    holds.working.done.mp (holds.working.ended ended)
  rcases eq_of_initial_pair (holds.working.finished_initial.trans holds.started_initial) with
    none | one | both
  · rw [none] at stopped
    cases stopped
  · rw [one] at stopped
    cases List.mem_singleton.mp stopped
  · exact both

end Constructed

/-- **The destructor waits for the loop.** However the steps of the constructor, of the worker's
thread, of the reactor and of the threads that use it follow each other: no request is refused; the
worker runs the loop of the reactor at most once and nothing else but the stop; and the destructor
returns only when both have come to their end, and the loop because `stop` was called or because an
exception left it. -/
theorem destructor_waits_for_run {id : PollerId} {world : World} {ops : List ThreadedOp}
    {c : ReactorInThread}
    (run : Run (ReactorInThread.step id) (fun _ _ => True) (.create world) ops c) :
    c.history.queue.refused = [] ∧ c.history.started <+: [.task (), .stop] ∧
      (c.lifetime.constructed = true → c.history.queue.accepted = [.task (), .stop]) ∧
      (c.lifetime = .destroyed → c.history.finished = [.task (), .stop] ∧
        (c.reactor.place = .finished ∧ c.reactor.stop = true ∨ c.reactor.place = .escaped)) := by
  have holds := Constructed.run run
  refine ⟨holds.refused, holds.started_initial, holds.pushing.of_constructed, ?_⟩
  intro destroyed
  have finished := holds.finished_of_ended (holds.joined destroyed)
  refine ⟨finished, ?_⟩
  have ended := holds.ran (finished ▸ List.mem_cons_self)
  cases place : c.reactor.place with
  | finished => exact .inl ⟨rfl, holds.set place⟩
  | escaped => exact .inr rfl
  | testing | polling _ | draining | taking _ | dispatching _ =>
      rw [place] at ended
      cases ended

/-- The object is constructed, the reactor falls asleep in its thread, the destructor is entered, and
another thread stops the reactor. -/
def partingThreadOps : List ThreadedOp :=
  List.replicate 8 .construct ++ List.replicate 5 (.loop true) ++
    [.reactor .test, .reactor (.poll (.compute 0)), .reactor (.poll .block), .destroy,
      .reactor .setStop, .reactor .signalStop]

/-- The reactor leaves its loop, the worker runs the stop, and the thread is joined. -/
def joiningThreadOps : List ThreadedOp :=
  [.reactor (.poll (.wakeUp [⟨3, epollIn⟩])), .reactor (.poll (.process 0 0)),
    .reactor (.copyFirst 0), .reactor .test, .finish] ++
    List.replicate 5 (.loop false) ++ [.finish, .loop true, .join]

/-- A reactor without sockets, in a thread of its own. -/
def idleThread : ReactorInThread := .create (.start (fun _ => 3) fun _ => .ready)

def partingThread : ReactorInThread :=
  (checkedRun (ReactorInThread.step 0) (fun _ _ => True) idleThread partingThreadOps).get
    (by decide +kernel)

def joinedThread : ReactorInThread :=
  (checkedRun (ReactorInThread.step 0) (fun _ _ => True) partingThread joiningThreadOps).get
    (by decide +kernel)

theorem destructor_waits_for_run_joined :
    joinedThread.lifetime = .destroyed ∧ joinedThread.history.finished = [.task (), .stop] := by
  have run : Run (ReactorInThread.step 0) (fun _ _ => True) idleThread partingThreadOps
      partingThread := Run.of_isSome _
  have destroyed : joinedThread.lifetime = .destroyed := by decide +kernel
  exact ⟨destroyed, ((destructor_waits_for_run (run.append (Run.of_isSome _))).2.2.2 destroyed).1⟩

/-! ## The end of the destructor -/

/-- Once the constructor has returned, the stop request is on its way. -/
theorem Constructed.stopReached {id : PollerId} {c : ReactorInThread} (holds : Constructed id c)
    (constructed : c.lifetime.constructed = true) : c.worker.StopReached c.history := by
  have accepted := holds.pushing.of_constructed constructed
  have idle := holds.pushing.idle_of_constructed constructed
  have published : c.history.queue.published = [.task (), .stop] := by
    obtain ⟨active, one, order⟩ := holds.working.order
    obtain rfl := one.idle fun _ => idle
    have same : c.history.queue.accepted = c.history.queue.published := order.producer
    rw [← same, accepted]
  have ran := holds.working.finished
  rw [holds.working.started] at ran
  have initial := holds.working.order.popped_prefix
  rw [accepted] at initial
  rw [Worker.StopReached, WorkerHistory.queued, published]
  rcases eq_of_initial_pair initial with none | one | both
  · rw [none]
    exact .inl (by simp)
  · rw [one]
    exact .inl (by simp)
  · rw [both] at ran
    cases place : c.worker.loop with
    | running request =>
        have last := congrArg List.getLast? ran
        simp only [place, WorkerLoop.current, List.getLast?_append, List.getLast?_singleton,
          Option.some_or] at last
        obtain rfl : Request.stop = request := by simpa using last
        exact .inr (.inl rfl)
    | testing | popping | sleeping | ended =>
        refine .inr (.inr (holds.working.done.mpr ?_))
        simp only [place, WorkerLoop.current, List.append_nil] at ran
        rw [← ran]
        simp

/-- The thread will come to its end: the object is being destroyed after a stop. -/
structure Parting (id : PollerId) (c : ReactorInThread) : Prop where
  constructed : Constructed id c
  begun : c.lifetime = .joining ∨ c.lifetime = .destroyed
  reached : c.worker.StopReached c.history
  heard : Heard id c.reactor

/-- The way to the end of the thread: what is left for the worker, and in the loop of the
reactor. -/
def ReactorInThread.rank (id : PollerId) (c : ReactorInThread) : ℕ ×ₗ (ℕ ×ₗ ℕ) :=
  toLex (c.worker.remaining c.history.ahead, c.reactor.rank id)

namespace Parting

variable {id : PollerId} {c after : ReactorInThread}

/-- What one step does: the worker's thread comes nearer to its end, unless a sleep is interrupted,
and the steps of others leave it where it is. -/
theorem step (parting : Parting id c) {op : ThreadedOp} (returned : c.step id op = .ok after) :
    Parting id after ∧
      (op.ofThread = true → op ≠ .reactor (.poll .interrupt) → after.rank id < c.rank id) ∧
      (op.ofThread = false → after.rank id ≤ c.rank id) := by
  have constructed := parting.constructed.step returned
  have thread : ∀ {workerOp : WorkerOp Unit Unit} {worker : Worker Unit Unit},
      workerOp.ofLoop = true → c.worker.step workerOp = .ok worker →
      worker.StopReached (.note c.worker workerOp worker c.history) ∧
        ({ c with worker, history := .note c.worker workerOp worker c.history } :
          ReactorInThread).rank id < c.rank id := by
    intro workerOp worker own moved
    obtain ⟨reached, fewer⟩ := parting.constructed.working.loop_remaining parting.reached own moved
    exact ⟨reached, Prod.Lex.toLex_lt_toLex.mpr (.inl fewer)⟩
  cases ReactorInThread.step_eq_ok returned with
  | push stage _ =>
      rcases parting.begun with begun | begun <;> rw [begun] at stage <;> simp at stage
  | producer stage _ =>
      obtain ⟨rfl, stage⟩ := stage
      rcases parting.begun with begun | begun <;> rw [begun] at stage <;> simp at stage
  | loop moved =>
      obtain ⟨reached, fewer⟩ := thread rfl moved
      exact ⟨⟨constructed, parting.begun, reached, parting.heard⟩, fun _ _ => fewer, nofun⟩
  | returns _ _ moved =>
      obtain ⟨reached, fewer⟩ := thread rfl moved
      exact ⟨⟨constructed, parting.begun, reached, parting.heard⟩, fun _ _ => fewer, nofun⟩
  | stops _ moved =>
      obtain ⟨reached, fewer⟩ := thread rfl moved
      exact ⟨⟨constructed, parting.begun, reached, parting.heard⟩, fun _ _ => fewer, nofun⟩
  | @reactor op reactor _ moved =>
      refine ⟨⟨constructed, parting.begun, parting.reached, parting.heard.step moved⟩, ?_, ?_⟩
      · intro own uninterrupted
        have fewer := parting.heard.rank_lt own
          (fun same => uninterrupted (congrArg ThreadedOp.reactor same)) moved
        exact Prod.Lex.toLex_lt_toLex.mpr (.inr ⟨rfl, fewer⟩)
      · intro other
        have fewer := Reacting.rank_le other moved
        rcases fewer.lt_or_eq with less | same
        · have falls : ReactorInThread.rank id { c with reactor } < c.rank id :=
            Prod.Lex.toLex_lt_toLex.mpr (.inr ⟨rfl, less⟩)
          exact falls.le
        · rw [ReactorInThread.rank, ReactorInThread.rank, same]
  | destroy alive =>
      rcases parting.begun with begun | begun <;> rw [begun] at alive <;> cases alive
  | join _ _ =>
      exact ⟨⟨constructed, .inr rfl, parting.reached, parting.heard⟩, nofun, fun _ => le_rfl⟩

end Parting

end Jasl
