import Jasl.Library.Executions
import Jasl.Poller.WakeUp
import Jasl.Reactor.Drain
import Mathlib.Data.Prod.Lex

/-!
# Stopping a reactor

`Reactor::stop` is called by any thread. It sets `m_stop`, which `Reactor::run` tests
before each poll, and then signals the poller, because the reactor may have tested
the flag already and be on its way into `epoll_wait`. Here the loop is a machine
with a place for each of its statements (`RunPlace`), `poll` is in its phases, and the
two statements of `stop` are steps of their own, so a run is any interleaving of the
reactor, of threads that stop it and of threads that do anything else.

`get_next_event` takes no lock. It copies the first event and then erases what is
first, which is another event when `remove_socket` of another thread has taken the
copied one out in between. So its two statements are steps as well, and a turn of the
inner loop is three: the copy, the erasing, and the dispatch of the copied event.

A stop is heard (`Heard`) when the flag is set and no poll sleeps, or is about to, with
nothing to read in the event descriptor. From then on every step keeps it so, and
the place in the loop with the pending events is a rank that every step of the reactor
lowers but an interrupted sleep (`Reacting.rank`). So once `stop` has returned the
reactor polls at most once more (`stop_is_heard`), and `run` comes to its end
(`stop_ends_run`).

The kernel reports the event descriptor, which the constructor registered, as long as
its counter is not zero. The flag is a plain `bool`; the model reads and writes it in
the order of the statements. A callback that calls `stop` is the setting of the flag
before its event and a signal in its script, since nothing reads the flag in between.
-/

set_option autoImplicit false

namespace Jasl

open Library

/-! ## States and steps -/

/-- `m_out_events.erase(m_out_events.begin())`, after the first event was copied. The copied event is
first still unless it was taken out in between; then another one is, wherever `begin()` stands. With
no event left the behaviour is undefined. -/
def Poller.eraseFirst (p : Poller) (copied : PollerEvent) (position : ℕ) : Option Poller :=
  ((p.outEvents.find copied.socket).or (p.outEvents.pick position)).map fun first =>
    { p with outEvents := p.outEvents.erase first.socket }

/-- Where the thread in `Reactor::run` stands. -/
inductive RunPlace where
  /-- Before the test of `m_stop`. -/
  | testing
  /-- In `m_poller->poll()`. -/
  | polling (phase : Phase)
  /-- In the inner loop, before `get_next_event`. -/
  | draining
  /-- In `get_next_event`: an event is copied and nothing is erased yet. -/
  | taking (event : PollerEvent)
  /-- `get_next_event` has returned an event. -/
  | dispatching (event : PollerEvent)
  /-- `run` has returned. -/
  | finished
  /-- An exception has left `run`. -/
  | escaped

/-- `run` has come to its end. -/
def RunPlace.ended : RunPlace → Bool
  | .finished | .escaped => true
  | .testing | .polling _ | .draining | .taking _ | .dispatching _ => false

/-- A reactor in a world, with the threads that call `stop`. -/
structure Reacting where
  world : World
  place : RunPlace
  /-- `m_stop`. -/
  stop : Bool
  /-- The calls of `stop` between their two statements. -/
  stopping : ℕ
  /-- The calls of `stop` that have returned. -/
  stopped : ℕ

/-- A step of the reactor, of a thread inside `stop`, or of another thread. -/
inductive ReactingOp where
  | test
  | poll (op : PollingOp)
  | copyFirst (position : ℕ)
  | eraseFirst (position : ℕ)
  | dispatch (script : EventScript)
  | setStop
  | signalStop
  | other (script : Callback)
deriving Repr

/-- A step of the thread in `run`. -/
def ReactingOp.own : ReactingOp → Bool
  | .test | .poll _ | .copyFirst _ | .eraseFirst _ | .dispatch _ => true
  | .setStop | .signalStop | .other _ => false

/-- A step inside `poll`, not a call of another thread. -/
def PollingOp.inside : PollingOp → Bool
  | .call _ => false
  | .compute _ | .block | .wakeUp _ | .interrupt | .process .. => true

/-- Why a step is not taken: the thread stands elsewhere, an assertion stops the process, or the
behaviour is undefined. -/
inductive Halt where
  | outOfTurn
  | aborted (failed : Assertion)
  | undefined
deriving DecidableEq, Repr

/-- Where `run` stands after a step of `poll`. -/
def RunPlace.afterPoll (phase : Phase) : PollingOp → RunPlace
  | .process .. => .draining
  | _ => .polling phase

theorem RunPlace.afterPoll_cases (phase : Phase) (op : PollingOp) :
    RunPlace.afterPoll phase op = .draining ∨ RunPlace.afterPoll phase op = .polling phase := by
  cases op with
  | process _ _ => exact .inl rfl
  | _ => exact .inr rfl

namespace Reacting

/-- A reactor that is about to enter its loop, before any call of `stop`. -/
def create (world : World) : Reacting := ⟨world, .testing, false, 0, 0⟩

/-- One step inside `poll`. -/
def pollStep (id : PollerId) (c : Reacting) (phase : Phase) (op : PollingOp) :
    Except Halt Reacting :=
  if op.inside && phase.accepts op then
    match Polling.step ⟨c.world.pollers id, phase⟩ op with
    | .error failed => .error (.aborted failed)
    | .ok after => .ok
        { c with world := c.world.setPoller id after.poller, place := .afterPoll after.phase op }
  else .error .outOfTurn

/-- The erasing in `get_next_event`, with which it returns the event it has copied. -/
def eraseStep (id : PollerId) (c : Reacting) (event : PollerEvent) (position : ℕ) :
    Except Halt Reacting :=
  match (c.world.pollers id).eraseFirst event position with
  | none => .error .undefined
  | some p => .ok
      { c with world := (c.world.setPoller id p).note (.took id event), place := .dispatching event }

/-- The body of the inner loop for an event. -/
def dispatchStep (c : Reacting) (event : PollerEvent) (script : EventScript) :
    Except Halt Reacting :=
  match event.socket with
  | none => .ok { c with place := .testing }
  | some socket =>
      if event.action = 0 then .ok { c with place := .testing }
      else
        match c.world.dispatch event socket script with
        | (world, .returned) => .ok { c with world, place := .draining }
        | (world, .threw) => .ok { c with world, place := .escaped }
        | (_, .aborted failed) => .error (.aborted failed)

/-- One step. -/
def step (id : PollerId) (c : Reacting) : ReactingOp → Except Halt Reacting
  | .test =>
      match c.place with
      | .testing => .ok { c with place := if c.stop then .finished else .polling .idle }
      | _ => .error .outOfTurn
  | .poll op =>
      match c.place with
      | .polling phase => c.pollStep id phase op
      | _ => .error .outOfTurn
  | .copyFirst position =>
      match c.place with
      | .draining =>
          match (c.world.pollers id).outEvents.pick position with
          | none => .ok { c with place := .testing }
          | some event => .ok { c with place := .taking event }
      | _ => .error .outOfTurn
  | .eraseFirst position =>
      match c.place with
      | .taking event => c.eraseStep id event position
      | _ => .error .outOfTurn
  | .dispatch script =>
      match c.place with
      | .dispatching event => c.dispatchStep event script
      | _ => .error .outOfTurn
  | .setStop => .ok { c with stop := true, stopping := c.stopping + 1 }
  | .signalStop =>
      if c.stopping = 0 then .error .outOfTurn
      else .ok
        { c with
          world := c.world.signal id .stop
          stopping := c.stopping - 1
          stopped := c.stopped + 1 }
  | .other script =>
      match script.run c.world with
      | (_, .aborted failed) => .error (.aborted failed)
      | (world, _) => .ok { c with world }

/-- What a step can do. -/
inductive Stepped (id : PollerId) (c : Reacting) : ReactingOp → Reacting → Prop where
  | stops (testing : c.place = .testing) (set : c.stop = true) :
      Stepped id c .test { c with place := .finished }
  | goesOn (testing : c.place = .testing) (unset : c.stop = false) :
      Stepped id c .test { c with place := .polling .idle }
  | polls {phase : Phase} {op : PollingOp} {after : Polling} (polling : c.place = .polling phase)
      (inside : op.inside = true) (accepted : phase.accepts op = true)
      (moved : Polling.step ⟨c.world.pollers id, phase⟩ op = .ok after) :
      Stepped id c (.poll op)
        { c with world := c.world.setPoller id after.poller, place := .afterPoll after.phase op }
  | drained {position : ℕ} (draining : c.place = .draining)
      (nothing : (c.world.pollers id).outEvents.elements = []) :
      Stepped id c (.copyFirst position) { c with place := .testing }
  | copies {position : ℕ} {event : PollerEvent} (draining : c.place = .draining)
      (picked : (c.world.pollers id).outEvents.pick position = some event) :
      Stepped id c (.copyFirst position) { c with place := .taking event }
  | erases {position : ℕ} {event : PollerEvent} {p : Poller} (taking : c.place = .taking event)
      (erased : (c.world.pollers id).eraseFirst event position = some p) :
      Stepped id c (.eraseFirst position)
        { c with
          world := (c.world.setPoller id p).note (.took id event)
          place := .dispatching event }
  | breaks {event : PollerEvent} {script : EventScript} (dispatching : c.place = .dispatching event)
      (inactive : event.socket = none ∨ event.action = 0) :
      Stepped id c (.dispatch script) { c with place := .testing }
  | handled {event : PollerEvent} {socket : SocketPtr} {script : EventScript} {world : World}
      (dispatching : c.place = .dispatching event) (belongs : event.socket = some socket)
      (dispatched : c.world.dispatch event socket script = (world, .returned)) :
      Stepped id c (.dispatch script) { c with world, place := .draining }
  | escapes {event : PollerEvent} {socket : SocketPtr} {script : EventScript} {world : World}
      (dispatching : c.place = .dispatching event) (belongs : event.socket = some socket)
      (dispatched : c.world.dispatch event socket script = (world, .threw)) :
      Stepped id c (.dispatch script) { c with world, place := .escaped }
  | setStop : Stepped id c .setStop { c with stop := true, stopping := c.stopping + 1 }
  | signalStop (inside : c.stopping ≠ 0) :
      Stepped id c .signalStop
        { c with
          world := c.world.signal id .stop
          stopping := c.stopping - 1
          stopped := c.stopped + 1 }
  | other {script : Callback} {world : World} {exit : Exit Assertion}
      (ran : script.run c.world = (world, exit)) : Stepped id c (.other script) { c with world }

theorem dispatchStep_eq_ok {id : PollerId} {c after : Reacting} {event : PollerEvent}
    {script : EventScript} (dispatching : c.place = .dispatching event)
    (returned : c.dispatchStep event script = .ok after) :
    Stepped id c (.dispatch script) after := by
  rw [dispatchStep] at returned
  split at returned
  · rename_i none
    obtain rfl := Except.ok.inj returned
    exact .breaks dispatching (.inl none)
  · rename_i socket belongs
    split at returned
    · rename_i inactive
      obtain rfl := Except.ok.inj returned
      exact .breaks dispatching (.inr inactive)
    · split at returned
      · rename_i dispatched
        obtain rfl := Except.ok.inj returned
        exact .handled dispatching belongs dispatched
      · rename_i dispatched
        obtain rfl := Except.ok.inj returned
        exact .escapes dispatching belongs dispatched
      · cases returned

theorem step_eq_ok {id : PollerId} {c after : Reacting} {op : ReactingOp}
    (returned : c.step id op = .ok after) : Stepped id c op after := by
  cases op with
  | test =>
      rw [step] at returned
      split at returned
      · rename_i testing
        obtain rfl := Except.ok.inj returned
        by_cases set : c.stop = true
        · rw [if_pos set]
          exact .stops testing set
        · rw [if_neg set]
          exact .goesOn testing (Bool.not_eq_true _ ▸ set)
      · cases returned
  | poll op =>
      rw [step] at returned
      split at returned
      · rename_i phase polling
        rw [pollStep] at returned
        split at returned
        · rename_i fits
          obtain ⟨inside, accepted⟩ := Bool.and_eq_true_iff.mp fits
          split at returned
          · cases returned
          · rename_i moved
            obtain rfl := Except.ok.inj returned
            exact .polls polling inside accepted moved
        · cases returned
      · cases returned
  | copyFirst position =>
      rw [step] at returned
      split at returned
      · rename_i draining
        split at returned
        · rename_i empty
          obtain rfl := Except.ok.inj returned
          exact .drained draining (KeyedSet.pick_eq_none.mp empty)
        · rename_i event picked
          obtain rfl := Except.ok.inj returned
          exact .copies draining picked
      · cases returned
  | eraseFirst position =>
      rw [step] at returned
      split at returned
      · rename_i event taking
        rw [eraseStep] at returned
        split at returned
        · cases returned
        · rename_i p erased
          obtain rfl := Except.ok.inj returned
          exact .erases taking erased
      · cases returned
  | dispatch script =>
      rw [step] at returned
      split at returned
      · rename_i event dispatching
        exact dispatchStep_eq_ok dispatching returned
      · cases returned
  | setStop =>
      obtain rfl := Except.ok.inj returned
      exact .setStop
  | signalStop =>
      rw [step] at returned
      split at returned
      · cases returned
      · rename_i inside
        obtain rfl := Except.ok.inj returned
        exact .signalStop inside
  | other script =>
      rw [step] at returned
      split at returned
      · cases returned
      · rename_i ran
        obtain rfl := Except.ok.inj returned
        exact .other ran

end Reacting

/-- A loop that has come to its end stays there. -/
theorem Reacting.ended_step {id : PollerId} {c after : Reacting} {op : ReactingOp}
    (ended : c.place.ended = true) (returned : c.step id op = .ok after) :
    after.place = c.place := by
  have elsewhere : ∀ {place}, c.place = place → place.ended = true := by
    rintro _ rfl
    exact ended
  cases Reacting.step_eq_ok returned with
  | stops testing _ => cases elsewhere testing
  | goesOn testing _ => cases elsewhere testing
  | polls polling _ _ _ => cases elsewhere polling
  | drained draining _ => cases elsewhere draining
  | copies draining _ => cases elsewhere draining
  | erases taking _ => cases elsewhere taking
  | breaks dispatching _ => cases elsewhere dispatching
  | handled dispatching _ _ => cases elsewhere dispatching
  | escapes dispatching _ _ => cases elsewhere dispatching
  | setStop => rfl
  | signalStop _ => rfl
  | other _ => rfl

/-! ## The loop in steps -/

section Loop

variable {id : PollerId} {w : World}

/-- A reactor that was never stopped, at a place of its loop. -/
def Reacting.at (w : World) (place : RunPlace) : Reacting := ⟨w, place, false, 0, 0⟩

/-- A step of `poll` is one of the loop. -/
theorem step_in_poll {phase : Phase} {op : PollingOp} {after : Polling} (inside : op.inside = true)
    (accepted : phase.accepts op = true)
    (moved : Polling.step ⟨w.pollers id, phase⟩ op = .ok after) :
    Reacting.step id (.at w (.polling phase)) (.poll op) =
      .ok (.at (w.setPoller id after.poller) (.afterPoll after.phase op)) := by
  simp only [Reacting.step, Reacting.at, Reacting.pollStep, inside, accepted, Bool.and_self,
    if_true, moved]

/-- A poll, from the test of the flag to the inner loop. -/
theorem poll_in_steps {batch : List EpollEvent} {waitClock eventClock schedulerClock : Word}
    {p : Poller} (polled : (w.pollers id).poll batch waitClock eventClock schedulerClock = .ok p) :
    ∃ ops, Run (Reacting.step id) (fun _ _ => True) (.create w) ops
      (.at (w.setPoller id p) .draining) := by
  obtain ⟨processed, succeeded, rfl⟩ := Poller.poll_eq_ok polled
  have tested : Reacting.step id (.create w) .test = .ok (.at w (.polling .idle)) := rfl
  have processes : ∀ batch, (w.pollers id).processEpollEvents batch eventClock = .ok processed →
      Reacting.step id (.at w (.polling (.returned batch)))
        (.poll (.process eventClock schedulerClock)) =
          .ok (.at (w.setPoller id (processed.processScheduler schedulerClock)) .draining) := by
    intro batch succeeded
    have moved : Polling.step ⟨w.pollers id, .returned batch⟩
        (.process eventClock schedulerClock) =
          .ok ⟨processed.processScheduler schedulerClock, .idle⟩ := by
      simp only [Polling.step, succeeded]
    exact step_in_poll rfl rfl moved
  -- the steps before that leave the poller alone
  have goesOn : ∀ {phase next} (op : PollingOp), op.inside = true → phase.accepts op = true →
      RunPlace.afterPoll next op = .polling next →
      Polling.step ⟨w.pollers id, phase⟩ op = .ok ⟨w.pollers id, next⟩ →
      Reacting.step id (.at w (.polling phase)) (.poll op) = .ok (.at w (.polling next)) := by
    intro phase next op inside accepted place moved
    rw [step_in_poll inside accepted moved, place, World.setPoller_self]
  rw [Poller.getEpollEvents] at succeeded
  by_cases due : (w.pollers id).scheduler.msToNextEvent waitClock = 0
  · rw [if_pos due] at succeeded
    have computed := goesOn _ rfl rfl rfl (Polling.step_compute_of_due due)
    exact ⟨_, ((Run.single trivial tested).snoc trivial computed).snoc trivial
      (processes _ succeeded)⟩
  · rw [if_neg due] at succeeded
    have computed := goesOn _ rfl rfl rfl (Polling.step_compute_of_waits due)
    have ready : Run (Reacting.step id) (fun _ _ => True) (.create w)
        [.test, .poll (.compute waitClock)] _ := (Run.single trivial tested).snoc trivial computed
    have woken := (ready.snoc trivial (goesOn .block rfl rfl rfl rfl)).snoc trivial
      (goesOn (.wakeUp batch) rfl rfl rfl rfl)
    exact ⟨_, woken.snoc trivial (processes _ succeeded)⟩

/-- A turn that nobody disturbs is three steps. -/
theorem turn_in_steps {users : Users} {event : PollerEvent} {socket : SocketPtr} {next : World}
    (takes : World.Takes id users w event socket)
    (handled : w.handled id users event socket = (next, .returned)) :
    Run (Reacting.step id) (fun _ _ => True) (.at w .draining)
      [.copyFirst (users.position w), .eraseFirst 0, .dispatch (users.script w event)]
      (.at next .draining) := by
  have copied : Reacting.step id (.at w .draining) (.copyFirst (users.position w)) =
      .ok (.at w (.taking event)) := by
    simp only [Reacting.step, Reacting.at, takes.picked]
  have first : (w.pollers id).outEvents.find event.socket = some event :=
    KeyedSet.find_eq_some.mpr ⟨takes.mem, rfl⟩
  have erased : Reacting.step id (.at w (.taking event)) (.eraseFirst 0) =
      .ok (.at (w.afterTake id event) (.dispatching event)) := by
    simp only [Reacting.step, Reacting.at, Reacting.eraseStep, Poller.eraseFirst, first,
      Option.some_or, Option.map_some, World.afterTake]
  have dispatched : Reacting.step id (.at (w.afterTake id event) (.dispatching event))
      (.dispatch (users.script w event)) = .ok (.at next .draining) := by
    rw [World.handled] at handled
    simp only [Reacting.step, Reacting.at, Reacting.dispatchStep, takes.belongs, takes.action,
      if_false, handled]
  exact ((Run.single trivial copied).snoc trivial erased).snoc trivial dispatched

/-- The inner loop, turn by turn. -/
theorem drain_in_steps {users : Users} {turns : ℕ} {result : World × DrainExit}
    (drains : World.Drains id users turns w result) (drained : result.2 = .drained) :
    ∃ ops, Run (Reacting.step id) (fun _ _ => True) (.at w .draining) ops (.create result.1) := by
  induction drains with
  | unfinished | escaped | aborted => cases drained
  | @drained w turns nothing =>
      have ends : Reacting.step id (.at w .draining) (.copyFirst 0) = .ok (.create w) := by
        simp only [Reacting.step, Reacting.at, Reacting.create, KeyedSet.pick_eq_none.mpr nothing]
      exact ⟨_, .single trivial ends⟩
  | goesOn takes handled _ ih =>
      obtain ⟨ops, rest⟩ := ih drained
      exact ⟨_, (turn_in_steps takes handled).append rest⟩

/-- An iteration up to its inner loop. -/
theorem iterationPoll_in_steps {iteration : Iteration} {polled : World}
    (poll : w.iterationPoll id iteration = .ok polled) :
    ∃ ops, Run (Reacting.step id) (fun _ _ => True) (.create w) ops (.at polled .draining) := by
  rw [World.iterationPoll] at poll
  split at poll
  · cases poll
  · rename_i before exit unfailing meanwhile
    split at poll
    · cases poll
    · rename_i p succeeded
      obtain rfl := Except.ok.inj poll
      obtain ⟨ops, reports⟩ := poll_in_steps succeeded
      have other : Reacting.step id (.create w) (.other iteration.meanwhile) =
          .ok (.create before) := by
        cases exit with
        | aborted failed => exact absurd rfl (unfailing failed)
        | returned | threw => simp only [Reacting.step, Reacting.create, meanwhile]
      exact ⟨_, (Run.single trivial other).append reports⟩

/-- **`Reactor::run` is a run of these steps.** The iterations of a loop that nothing leaves are
steps from the test of the flag to the test of the flag. -/
theorem run_in_steps {users : Users} {iterations : List Iteration} {after : World}
    (actionable : (w.pollers id).Actionable)
    (ran : w.run id users iterations = (after, .drained)) :
    ∃ ops, Run (Reacting.step id) (fun _ _ => True) (.create w) ops (.create after) := by
  induction iterations generalizing w with
  | nil =>
      obtain ⟨rfl, -⟩ := Prod.mk.inj ran
      exact ⟨[], .nil⟩
  | cons iteration rest ih =>
      rw [World.run] at ran
      cases poll : w.iterationPoll id iteration with
      | error failed => simp [poll] at ran
      | ok polled =>
          have ready := World.iterationPoll_actionable actionable poll
          have drains := World.drainAll_drains users ready
          obtain ⟨polling, reports⟩ := iterationPoll_in_steps poll
          cases loop : polled.drainAll id users with
          | mk next exit =>
              rw [loop] at drains
              simp only [poll, loop] at ran
              cases exit with
              | drained =>
                  obtain ⟨turns, drained⟩ := drain_in_steps drains rfl
                  obtain ⟨later, goesOn⟩ := ih (drains.actionable ready) ran
                  exact ⟨_, (reports.append drained).append goesOn⟩
              | escaped | aborted _ | unfinished => cases ran

end Loop

/-! ## What is erased -/

/-- An event of the set is erased, the copied one if it is there still. -/
theorem Poller.eraseFirst_eq_some {p after : Poller} {copied : PollerEvent} {position : ℕ}
    (erased : p.eraseFirst copied position = some after) :
    ∃ first ∈ p.outEvents, (copied ∈ p.outEvents → first = copied) ∧
      after = { p with outEvents := p.outEvents.erase first.socket } := by
  obtain ⟨first, chosen, rfl⟩ := Option.map_eq_some_iff.mp erased
  refine ⟨first, ?_, ?_, rfl⟩
  · cases found : p.outEvents.find copied.socket with
    | none =>
        rw [found, Option.none_or] at chosen
        exact KeyedSet.pick_mem chosen
    | some other =>
        rw [found, Option.some_or] at chosen
        obtain rfl := Option.some.inj chosen
        exact (KeyedSet.find_eq_some.mp found).1
  · intro there
    rw [KeyedSet.find_eq_some.mpr ⟨there, rfl⟩, Option.some_or] at chosen
    exact (Option.some.inj chosen).symm

/-! ## What user code leaves of a poller -/

/-- A signal leaves something to read. -/
theorem Poller.signal_eventCount_ne_zero (p : Poller) (sent : Signal) :
    (p.signal sent).eventCount ≠ 0 :=
  eventfdWrite_ne_zero _ _

namespace World

/-- User code takes nothing back of what was written to an event descriptor. -/
theorem primitives_eventCount (id : PollerId) :
    Primitives fun w => (w.pollers id).eventCount ≠ 0 where
  removeSocket := by
    intro w other socket written
    rw [removeSocket_pollers]
    by_cases same : id = other
    · subst same
      rwa [Function.update_self, Poller.removeSocket_eventCount]
    · rwa [Function.update_of_ne same]
  updateSocket := by
    intro w other socket _ _ _ _ p returned written
    rw [setPoller_pollers, noteClash_pollers]
    by_cases same : id = other
    · subst same
      rw [Function.update_self, (Poller.updateSocket_eq_ok returned).eventCount]
      split
      · exact eventfdWrite_ne_zero _ _
      · exact written
    · rwa [Function.update_of_ne same]
  signal := by
    intro w other sent written
    rw [signal, setPoller_pollers]
    by_cases same : id = other
    · subst same
      rw [Function.update_self]
      exact (w.pollers id).signal_eventCount_ne_zero sent
    · rwa [Function.update_of_ne same]
  setAttached := fun _ _ _ written => written
  setState := fun _ _ _ written => written
  note := fun _ _ _ written => written

/-- The number of events that `get_next_event` can still give. -/
def pending (w : World) (id : PollerId) : ℕ := (w.pollers id).outEvents.elements.length

theorem pending_signal (w : World) (id : PollerId) (sent : Signal) :
    (w.signal id sent).pending id = w.pending id := by
  rw [pending, signal, setPoller_pollers, Function.update_self]
  rfl

/-- User code adds no event. -/
theorem Shrinks.pending_le {id : PollerId} {first w : World} (shrinks : Shrinks id first w) :
    w.pending id ≤ first.pending id := by
  obtain ⟨_, -, -, remaining⟩ := shrinks
  exact KeyedSet.length_le_of_subset fun event member => ((remaining event).mp member).1

theorem pending_run_le (id : PollerId) (script : Callback) (w : World) :
    (script.run w).1.pending id ≤ w.pending id :=
  ((primitives_shrinks id w).eventRules.run (.refl id w) script).pending_le

theorem pending_dispatch_le (id : PollerId) (w : World) (event : PollerEvent) (socket : SocketPtr)
    (script : EventScript) : (w.dispatch event socket script).1.pending id ≤ w.pending id :=
  ((primitives_shrinks id w).eventRules.dispatch (.refl id w) event socket script).pending_le

/-- `get_next_event` leaves fewer events, whichever it erases. -/
theorem pending_erase_lt {w : World} {id : PollerId} {copied : PollerEvent} {position : ℕ}
    {p : Poller} (erased : (w.pollers id).eraseFirst copied position = some p) :
    ((w.setPoller id p).note (.took id copied)).pending id < w.pending id := by
  obtain ⟨first, member, -, rfl⟩ := Poller.eraseFirst_eq_some erased
  rw [pending, note_pollers, setPoller_pollers, Function.update_self]
  exact KeyedSet.length_erase_lt member

end World

/-! ## A stop that is heard -/

/-- In the part of `poll` that the kernel has not returned from. -/
def Phase.waits : Phase → Bool
  | .idle | .interrupted | .ready _ | .blocked _ => true
  | .returned _ => false

/-- The reactor will test the flag, and has something to read if it is to sleep before that. -/
structure Heard (id : PollerId) (c : Reacting) : Prop where
  set : c.stop = true
  readable : ∀ phase, c.place = .polling phase → phase.waits = true →
    (c.world.pollers id).eventCount ≠ 0

section Steps

variable {id : PollerId} {c after : Reacting}

/-- The phases before the reports are processed leave the poller alone. -/
theorem Polling.step_of_waits {phase : Phase} {p : Poller} {op : PollingOp} {after : Polling}
    (inside : op.inside = true) (accepted : phase.accepts op = true)
    (unprocessed : RunPlace.afterPoll after.phase op ≠ .draining)
    (moved : Polling.step ⟨p, phase⟩ op = .ok after) : after.poller = p ∧ phase.waits = true := by
  cases Polling.step_eq_ok moved with
  | call _ => cases inside
  | due idle _ =>
      obtain rfl : phase = .idle := idle
      exact ⟨rfl, rfl⟩
  | dueAgain interrupted _ =>
      obtain rfl : phase = .interrupted := interrupted
      exact ⟨rfl, rfl⟩
  | waits head _ =>
      obtain rfl | rfl : phase = .idle ∨ phase = .interrupted := head
      · exact ⟨rfl, rfl⟩
      · exact ⟨rfl, rfl⟩
  | block ready =>
      obtain rfl : phase = .ready _ := ready
      exact ⟨rfl, rfl⟩
  | wakeUp asleep =>
      obtain rfl : phase = .blocked _ := asleep
      exact ⟨rfl, rfl⟩
  | interrupt asleep =>
      obtain rfl : phase = .blocked _ := asleep
      exact ⟨rfl, rfl⟩
  | process _ _ => exact absurd rfl unprocessed
  | wrongPhase wrong =>
      rw [accepted] at wrong
      cases wrong

/-- A poll that goes on waits with the same poller. -/
theorem Heard.polls (heard : Heard id c) {phase : Phase} {op : PollingOp} {moved : Polling}
    (polling : c.place = .polling phase) (inside : op.inside = true)
    (accepted : phase.accepts op = true)
    (stepped : Polling.step ⟨c.world.pollers id, phase⟩ op = .ok moved) :
    Heard id
      { c with world := c.world.setPoller id moved.poller, place := .afterPoll moved.phase op } := by
  refine ⟨heard.set, ?_⟩
  intro next goesOn waiting
  have unprocessed : RunPlace.afterPoll moved.phase op ≠ .draining := by
    intro draining
    rw [draining] at goesOn
    cases goesOn
  obtain ⟨same, waited⟩ := Polling.step_of_waits inside accepted unprocessed stepped
  rw [World.setPoller_pollers, Function.update_self, same]
  exact heard.readable phase polling waited

/-- **A stop that is heard stays heard**, whatever any thread does. -/
theorem Heard.step (heard : Heard id c) {op : ReactingOp} (returned : c.step id op = .ok after) :
    Heard id after := by
  cases Reacting.step_eq_ok returned with
  | stops _ set => exact ⟨set, nofun⟩
  | goesOn _ unset =>
      rw [heard.set] at unset
      cases unset
  | polls polling inside accepted moved => exact heard.polls polling inside accepted moved
  | drained _ _ => exact ⟨heard.set, nofun⟩
  | copies _ _ => exact ⟨heard.set, nofun⟩
  | erases _ _ => exact ⟨heard.set, nofun⟩
  | breaks _ _ => exact ⟨heard.set, nofun⟩
  | handled _ _ _ => exact ⟨heard.set, nofun⟩
  | escapes _ _ _ => exact ⟨heard.set, nofun⟩
  | setStop => exact ⟨rfl, heard.readable⟩
  | signalStop _ =>
      refine ⟨heard.set, ?_⟩
      intro phase polling waiting
      exact (World.primitives_eventCount id).signal _ id .stop
        (heard.readable phase polling waiting)
  | @other script world exit ran =>
      refine ⟨heard.set, ?_⟩
      intro phase polling waiting
      have kept := (World.primitives_eventCount id).eventRules.run
        (heard.readable phase polling waiting) script
      rwa [ran] at kept

/-- What the calls of `stop` have done. -/
structure Stops (id : PollerId) (c : Reacting) : Prop where
  set : c.stopping ≠ 0 → c.stop = true
  heard : c.stopped ≠ 0 → Heard id c

theorem Stops.create (world : World) : Stops id (.create world) where
  set := fun inside => absurd rfl inside
  heard := fun returned => absurd rfl returned

/-- The signal is heard, since the flag was set before it. -/
theorem Stops.signalStop (stops : Stops id c) (inside : c.stopping ≠ 0) :
    Heard id { c with
      world := c.world.signal id .stop
      stopping := c.stopping - 1
      stopped := c.stopped + 1 } := by
  refine ⟨stops.set inside, ?_⟩
  intro _ _ _
  rw [World.signal, World.setPoller_pollers, Function.update_self]
  exact (c.world.pollers id).signal_eventCount_ne_zero .stop

theorem Stops.step (stops : Stops id c) {op : ReactingOp} (returned : c.step id op = .ok after) :
    Stops id after := by
  have heard : c.stopped ≠ 0 → Heard id after := fun stopped => (stops.heard stopped).step returned
  cases Reacting.step_eq_ok returned with
  | stops | goesOn | polls | drained | copies | erases | breaks | handled | escapes | other =>
      exact ⟨stops.set, heard⟩
  | setStop => exact ⟨fun _ => rfl, heard⟩
  | signalStop inside => exact ⟨fun _ => stops.set inside, fun _ => stops.signalStop inside⟩

theorem Stops.run {world : World} {allowed : Reacting → ReactingOp → Prop}
    {ops : List ReactingOp} (run : Run (Reacting.step id) allowed (.create world) ops c) : Stops id c :=
  run.invariant (Stops id) (.create world) fun _ _ _ held _ returned => held.step returned

/-! ## What is left to do -/

/-- The steps that a poll takes before the lock. -/
def Phase.stepsLeft : Phase → ℕ
  | .idle | .interrupted => 3
  | .ready _ => 2
  | .blocked _ => 1
  | .returned _ => 0

/-- The steps up to the test of the flag, and the test: three for each pending event, and one that
finds none. -/
def Reacting.turnsLeft (id : PollerId) (c : Reacting) : ℕ :=
  match c.place with
  | .dispatching _ => 3 * c.world.pending id + 3
  | .draining => 3 * c.world.pending id + 2
  | .taking _ => 3 * c.world.pending id + 1
  | .testing => 1
  | .polling _ | .finished | .escaped => 0

/-- The way to the end of the loop: a poll that is under way, and then the turns. -/
def Reacting.rank (id : PollerId) (c : Reacting) : ℕ ×ₗ ℕ :=
  match c.place with
  | .polling phase => toLex (1, phase.stepsLeft)
  | _ => toLex (0, c.turnsLeft id)

theorem Phase.stepsLeft_lt {p : Poller} {phase : Phase} {op : PollingOp} {moved : Polling}
    (inside : op.inside = true) (accepted : phase.accepts op = true)
    (uninterrupted : op ≠ .interrupt) (unprocessed : RunPlace.afterPoll moved.phase op ≠ .draining)
    (stepped : Polling.step ⟨p, phase⟩ op = .ok moved) :
    moved.phase.stepsLeft < phase.stepsLeft := by
  cases Polling.step_eq_ok stepped with
  | call _ => cases inside
  | due idle _ =>
      obtain rfl : phase = .idle := idle
      exact Nat.zero_lt_succ _
  | dueAgain interrupted _ =>
      obtain rfl : phase = .interrupted := interrupted
      exact Nat.zero_lt_succ _
  | waits head _ =>
      obtain rfl | rfl : phase = .idle ∨ phase = .interrupted := head
      · exact Nat.lt_succ_self _
      · exact Nat.lt_succ_self _
  | block ready =>
      obtain rfl : phase = .ready _ := ready
      exact Nat.lt_succ_self _
  | wakeUp asleep =>
      obtain rfl : phase = .blocked _ := asleep
      exact Nat.lt_succ_self _
  | interrupt _ => exact absurd rfl uninterrupted
  | process _ _ => exact absurd rfl unprocessed
  | wrongPhase wrong =>
      rw [accepted] at wrong
      cases wrong

theorem Reacting.rank_of_unpolled (unpolled : ∀ phase, c.place ≠ .polling phase) :
    c.rank id = toLex (0, c.turnsLeft id) := by
  rw [rank]
  split
  · rename_i phase polling
    exact absurd polling (unpolled phase)
  · rfl

/-- In the inner loop, from `get_next_event` to the end of the dispatch. -/
def RunPlace.drains : RunPlace → Bool
  | .draining | .taking _ | .dispatching _ => true
  | .testing | .polling _ | .finished | .escaped => false

/-- **Every step of the reactor in the inner loop leads on**, whatever it erases and dispatches. -/
theorem Reacting.turnsLeft_lt {op : ReactingOp} (drains : c.place.drains = true)
    (own : op.own = true) (returned : c.step id op = .ok after) :
    after.turnsLeft id < c.turnsLeft id := by
  cases Reacting.step_eq_ok returned with
  | stops testing _ | goesOn testing _ =>
      rw [testing] at drains
      cases drains
  | polls polling _ _ _ =>
      rw [polling] at drains
      cases drains
  | drained draining _ =>
      simp only [turnsLeft, draining]
      omega
  | copies draining _ =>
      simp only [turnsLeft, draining]
      omega
  | erases taking erased =>
      have fewer := World.pending_erase_lt erased
      simp only [turnsLeft, taking]
      omega
  | breaks dispatching _ =>
      simp only [turnsLeft, dispatching]
      omega
  | @handled event socket script world dispatching _ dispatched =>
      have fewer := World.pending_dispatch_le id c.world event socket script
      rw [dispatched] at fewer
      change world.pending id ≤ c.world.pending id at fewer
      simp only [turnsLeft, dispatching]
      omega
  | escapes dispatching _ _ =>
      simp only [turnsLeft, dispatching]
      omega
  | setStop | signalStop _ | other _ => cases own

/-- **Every step of the reactor lowers the rank** once a stop is heard, but for an interrupted
sleep. -/
theorem Heard.rank_lt (heard : Heard id c) {op : ReactingOp} (own : op.own = true)
    (uninterrupted : op ≠ .poll .interrupt) (returned : c.step id op = .ok after) :
    after.rank id < c.rank id := by
  have turns : c.place.drains = true → after.place.drains = true ∨ after.place = .testing ∨
      after.place = .escaped → after.rank id < c.rank id := by
    intro drains next
    have fewer := Reacting.turnsLeft_lt drains own returned
    have unpolled : ∀ {place : RunPlace}, place.drains = true ∨ place = .testing ∨
        place = .escaped → ∀ phase, place ≠ .polling phase := by
      rintro place inner phase rfl
      simp [RunPlace.drains] at inner
    rw [Reacting.rank_of_unpolled (unpolled next), Reacting.rank_of_unpolled (unpolled (.inl drains))]
    exact Prod.Lex.toLex_lt_toLex.mpr (.inr ⟨rfl, fewer⟩)
  cases Reacting.step_eq_ok returned with
  | stops testing _ =>
      simp only [Reacting.rank, Reacting.turnsLeft, testing]
      exact Prod.Lex.toLex_lt_toLex.mpr (.inr ⟨rfl, Nat.zero_lt_one⟩)
  | goesOn _ unset =>
      rw [heard.set] at unset
      cases unset
  | @polls phase op moved polling inside accepted stepped =>
      have before : c.rank id = toLex (1, phase.stepsLeft) := by simp only [Reacting.rank, polling]
      rw [before]
      rcases RunPlace.afterPoll_cases moved.phase op with place | place
      · simp only [Reacting.rank, place]
        exact Prod.Lex.toLex_lt_toLex.mpr (.inl Nat.zero_lt_one)
      · have unprocessed : RunPlace.afterPoll moved.phase op ≠ .draining := by
          rw [place]
          exact nofun
        have fewer := Phase.stepsLeft_lt inside accepted
          (fun same => uninterrupted (congrArg ReactingOp.poll same)) unprocessed stepped
        simp only [Reacting.rank, place]
        exact Prod.Lex.toLex_lt_toLex.mpr (.inr ⟨rfl, fewer⟩)
  | drained draining _ => exact turns (by rw [draining]; rfl) (.inr (.inl rfl))
  | copies draining _ => exact turns (by rw [draining]; rfl) (.inl rfl)
  | erases taking _ => exact turns (by rw [taking]; rfl) (.inl rfl)
  | breaks dispatching _ => exact turns (by rw [dispatching]; rfl) (.inr (.inl rfl))
  | handled dispatching _ _ => exact turns (by rw [dispatching]; rfl) (.inl rfl)
  | escapes dispatching _ _ => exact turns (by rw [dispatching]; rfl) (.inr (.inr rfl))
  | setStop | signalStop _ | other _ => cases own

theorem Reacting.turnsLeft_le (place : after.place = c.place)
    (pending : after.world.pending id ≤ c.world.pending id) :
    after.turnsLeft id ≤ c.turnsLeft id := by
  simp only [turnsLeft, place]
  split <;> omega

/-- No step of another thread raises the rank. -/
theorem Reacting.rank_le {op : ReactingOp} (other : op.own = false)
    (returned : c.step id op = .ok after) : after.rank id ≤ c.rank id := by
  have fewer : after.place = c.place → after.world.pending id ≤ c.world.pending id →
      after.rank id ≤ c.rank id := by
    intro place pending
    have turns := turnsLeft_le place pending
    rw [Reacting.rank, Reacting.rank, place]
    split
    · exact le_rfl
    · refine Prod.Lex.toLex_le_toLex.mpr (.inr ⟨rfl, turns⟩)
  cases Reacting.step_eq_ok returned with
  | stops | goesOn | polls | drained | copies | erases | breaks | handled | escapes => cases other
  | setStop => exact fewer rfl le_rfl
  | signalStop _ =>
      exact fewer rfl (World.pending_signal c.world id .stop).le
  | @other script world exit ran =>
      refine fewer rfl ?_
      have kept := World.pending_run_le id script c.world
      rwa [ran] at kept

/-! ## At most one more poll -/

/-- The end of a poll. -/
def ReactingOp.endsPoll : ReactingOp → Bool
  | .poll (.process ..) => true
  | _ => false

/-- The test of the flag. -/
def ReactingOp.tests : ReactingOp → Bool
  | .test => true
  | _ => false

/-- The polls that will come to their end, once the flag is set. -/
def RunPlace.pollsLeft : RunPlace → ℕ
  | .polling _ => 1
  | .testing | .draining | .taking _ | .dispatching _ | .finished | .escaped => 0

/-- The tests there will be, once the flag is set. -/
def RunPlace.testsLeft : RunPlace → ℕ
  | .testing | .polling _ | .draining | .taking _ | .dispatching _ => 1
  | .finished | .escaped => 0

theorem Heard.pollsLeft (heard : Heard id c) {op : ReactingOp}
    (returned : c.step id op = .ok after) :
    after.place.pollsLeft + (if op.endsPoll then 1 else 0) ≤ c.place.pollsLeft := by
  cases Reacting.step_eq_ok returned with
  | stops testing _ => simp [testing, RunPlace.pollsLeft, ReactingOp.endsPoll]
  | goesOn _ unset =>
      rw [heard.set] at unset
      cases unset
  | @polls _ op moved polling _ _ _ =>
      rw [polling]
      cases op <;> exact le_rfl
  | drained draining _ => simp [draining, RunPlace.pollsLeft, ReactingOp.endsPoll]
  | copies draining _ => simp [draining, RunPlace.pollsLeft, ReactingOp.endsPoll]
  | erases taking _ => simp [taking, RunPlace.pollsLeft, ReactingOp.endsPoll]
  | breaks dispatching _ => simp [dispatching, RunPlace.pollsLeft, ReactingOp.endsPoll]
  | handled dispatching _ _ => simp [dispatching, RunPlace.pollsLeft, ReactingOp.endsPoll]
  | escapes dispatching _ _ => simp [dispatching, RunPlace.pollsLeft, ReactingOp.endsPoll]
  | setStop => exact le_rfl
  | signalStop _ => exact le_rfl
  | other _ => exact le_rfl

theorem Heard.testsLeft (heard : Heard id c) {op : ReactingOp}
    (returned : c.step id op = .ok after) :
    after.place.testsLeft + (if op.tests then 1 else 0) ≤ c.place.testsLeft := by
  cases Reacting.step_eq_ok returned with
  | stops testing _ => simp [testing, RunPlace.testsLeft, ReactingOp.tests]
  | goesOn _ unset =>
      rw [heard.set] at unset
      cases unset
  | @polls _ op moved polling _ _ _ =>
      rw [polling]
      cases op <;> exact le_rfl
  | drained draining _ => simp [draining, RunPlace.testsLeft, ReactingOp.tests]
  | copies draining _ => simp [draining, RunPlace.testsLeft, ReactingOp.tests]
  | erases taking _ => simp [taking, RunPlace.testsLeft, ReactingOp.tests]
  | breaks dispatching _ => simp [dispatching, RunPlace.testsLeft, ReactingOp.tests]
  | handled dispatching _ _ => simp [dispatching, RunPlace.testsLeft, ReactingOp.tests]
  | escapes dispatching _ _ => simp [dispatching, RunPlace.testsLeft, ReactingOp.tests]
  | setStop => exact le_rfl
  | signalStop _ => exact le_rfl
  | other _ => exact le_rfl

/-- A loop that returns has seen the flag. -/
theorem Reacting.set_of_finished_step {op : ReactingOp}
    (held : c.place = .finished → c.stop = true) (returned : c.step id op = .ok after) :
    after.place = .finished → after.stop = true := by
  intro finished
  cases Reacting.step_eq_ok returned with
  | stops _ set => exact set
  | goesOn | drained | copies | erases | breaks | handled | escapes => cases finished
  | @polls _ op moved =>
      rcases RunPlace.afterPoll_cases moved.phase op with place | place
      · cases place.symm.trans finished
      · cases place.symm.trans finished
  | setStop => rfl
  | signalStop | other => exact held finished

end Steps

/-! ## The end of the loop -/

/-- **No stop is lost.** Once a call of `stop` has returned, and whatever the reactor and the other
threads did before and do after it: a reactor that sleeps in `epoll_wait`, or is on its way there,
has something to read in its event descriptor; at most one poll comes to its end; and `m_stop` is
tested at most once. -/
theorem stop_is_heard {id : PollerId} {world : World} {ops more : List ReactingOp}
    {c last : Reacting}
    (run : Run (Reacting.step id) (fun _ _ => True) (.create world) ops c)
    (returned : c.stopped ≠ 0) (rest : Run (Reacting.step id) (fun _ _ => True) c more last) :
    (∀ phase, last.place = .polling phase → phase.waits = true →
        (last.world.pollers id).eventCount ≠ 0) ∧
      more.countP ReactingOp.endsPoll + last.place.pollsLeft ≤ 1 ∧
      more.countP ReactingOp.tests + last.place.testsLeft ≤ 1 := by
  have heard := (Stops.run run).heard returned
  have step : ∀ before op after, Heard id before → True → before.step id op = .ok after →
      Heard id after := fun _ _ _ held _ stepped => held.step stepped
  refine ⟨?_, ?_, ?_⟩
  · have kept : Heard id last := rest.invariant (Heard id) heard step
    exact kept.readable
  · have polls := rest.countP_le (Heard id) (fun c => c.place.pollsLeft) ReactingOp.endsPoll heard
      step fun _ _ _ held _ stepped => held.pollsLeft stepped
    refine polls.trans ?_
    cases c.place <;> simp [RunPlace.pollsLeft]
  · have tests := rest.countP_le (Heard id) (fun c => c.place.testsLeft) ReactingOp.tests heard
      step fun _ _ _ held _ stepped => held.testsLeft stepped
    refine tests.trans ?_
    cases c.place <;> simp [RunPlace.testsLeft]

/-- The flag is set and the signal sent while the reactor is on its way into `epoll_wait`. -/
def stoppedOps : List ReactingOp :=
  [.test, .poll (.compute 0), .setStop, .signalStop, .poll .block]

/-- The reactor reads the signal and leaves its loop. -/
def leavingOps : List ReactingOp :=
  [.poll (.wakeUp [⟨3, epollIn⟩]), .poll (.process 0 0), .copyFirst 0, .test]

/-- A reactor without sockets. -/
def idleReactor : Reacting := .create (.start (fun _ => 3) fun _ => .ready)

def stoppedReactor : Reacting :=
  (checkedRun (Reacting.step 0) (fun _ _ => True) idleReactor stoppedOps).get (by decide +kernel)

def leftReactor : Reacting :=
  (checkedRun (Reacting.step 0) (fun _ _ => True) stoppedReactor leavingOps).get (by decide +kernel)

theorem stop_is_heard_asleep : (stoppedReactor.world.pollers 0).eventCount ≠ 0 :=
  (stop_is_heard (Run.of_isSome _) (by decide +kernel) .nil).1 (.blocked none) rfl rfl

/-- The thread sleeps in `epoll_wait`, and the kernel has nothing to report on the event
descriptor. -/
def Asleep (id : PollerId) (c : Reacting) : Prop :=
  (∃ wake, c.place = .polling (.blocked wake)) ∧ (c.world.pollers id).eventCount = 0

end Jasl
