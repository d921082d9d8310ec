import Jasl.Reactor.LastingTimers
import Jasl.Reactor.Stopping

/-!
# An idle socket is closed

The poller closes nothing: it pops the timer of a socket and leaves a CLOSE event, and
the loop of the reactor takes the event and closes the socket. In between other threads
call what they like, and the callbacks of other events run.

A socket that is left alone (`LeftAlone`) keeps its timer until the poll whose clock has
reached it. A sleep that begins while it has the timer ends by then (`OnTime`); one that
has begun before may not, since `update_socket` does not wake the poller for a registered
socket. The poll leaves a CLOSE event, which stays until its turn, unless `get_next_event`
erases it in the place of an event that another thread has removed after it was copied
(`Undisturbed`).

So where the loop stands, with the events that are pending, is a rank that falls
(`Reacting.idleRank`), and the socket is closed (`idle_socket_is_closed`).
-/

set_option autoImplicit false

namespace Jasl

open Library

/-! ## The steps of a poll and of the inner loop -/

/-- A step of `poll` leaves the poller alone, or processes the reports. -/
theorem Polling.inside_cases {p : Poller} {phase : Phase} {op : PollingOp} {moved : Polling}
    (inside : op.inside = true) (accepted : phase.accepts op = true)
    (stepped : Polling.step ⟨p, phase⟩ op = .ok moved) :
    (moved.poller = p ∧ RunPlace.afterPoll moved.phase op = .polling moved.phase) ∨
      ∃ batch eventClock schedulerClock processed, phase = .returned batch ∧
        op = .process eventClock schedulerClock ∧
          p.processEpollEvents batch eventClock = .ok processed ∧
            moved = ⟨processed.processScheduler schedulerClock, .idle⟩ := by
  cases Polling.step_eq_ok stepped with
  | call _ => cases inside
  | due _ _ | dueAgain _ _ | waits _ _ | block _ | wakeUp _ | interrupt _ => exact .inl ⟨rfl, rfl⟩
  | process returned succeeded => exact .inr ⟨_, _, _, _, returned, rfl, succeeded, rfl⟩
  | wrongPhase wrong =>
      rw [accepted] at wrong
      cases wrong

theorem Keyed.reaches {p after : Poller} (keyed : Keyed p) (reached : p.Reaches after) :
    Keyed after := by
  obtain ⟨ops, run⟩ := reached
  exact run.invariant Keyed keyed fun _ _ _ held _ returned => held.step returned

namespace World

theorem script_reaches (w : World) (id : PollerId) (script : Callback) :
    (w.pollers id).Reaches ((script.run w).1.pollers id) :=
  (primitives_pollersReach w).eventRules.run (fun _ => .refl _) script id

theorem dispatch_reaches (w : World) (id : PollerId) (event : PollerEvent) (socket : SocketPtr)
    (script : EventScript) :
    (w.pollers id).Reaches ((w.dispatch event socket script).1.pollers id) :=
  (primitives_pollersReach w).eventRules.dispatch (fun _ => .refl _) event socket script id

theorem signal_reaches (w : World) (id : PollerId) (sent : Signal) :
    (w.pollers id).Reaches ((w.signal id sent).pollers id) := by
  rw [signal, setPoller_pollers, Function.update_self]
  exact .of_step (.signal sent) rfl

end World

/-- What the steps of a world keep, and any change of its pollers, every step of a reactor keeps. -/
theorem StepRules.reacting {id : PollerId} {holds : World → Prop}
    (rules : StepRules (fun _ _ => True) holds)
    (setPoller : ∀ w p, holds w → holds (w.setPoller id p)) {c next : Reacting} {op : ReactingOp}
    (held : holds c.world) (returned : c.step id op = .ok next) : holds next.world := by
  have dispatch : ∀ {event socket script} {exit : Exit Assertion} {world : World},
      c.world.dispatch event socket script = (world, exit) → holds world := by
    intro event socket script exit world dispatched
    have kept := rules.dispatch held event socket script
    rwa [dispatched] at kept
  cases Reacting.step_eq_ok returned with
  | stops | goesOn | drained | copies | breaks | setStop => exact held
  | polls => exact setPoller _ _ held
  | erases _ _ => exact rules.took _ id _ (setPoller _ _ held)
  | handled _ _ dispatched | escapes _ _ dispatched => exact dispatch dispatched
  | signalStop _ => exact setPoller _ _ held
  | @other script world exit ran =>
      have kept := rules.toEventRules.run held script
      rwa [ran] at kept

/-! ## A reactor between its polls -/

/-- The event that `get_next_event` has copied or returned. -/
def RunPlace.event : RunPlace → Option PollerEvent
  | .taking event | .dispatching event => some event
  | .testing | .polling _ | .draining | .finished | .escaped => none

/-- The event that `get_next_event` has copied and not erased yet. -/
def RunPlace.copied : RunPlace → Option PollerEvent
  | .taking event => some event
  | .testing | .polling _ | .draining | .dispatching _ | .finished | .escaped => none

/-- The reports that the poller has and has not processed yet. -/
def RunPlace.reports : RunPlace → List EpollEvent
  | .polling (.returned batch) => batch
  | .polling _ | .testing | .draining | .taking _ | .dispatching _ | .finished | .escaped => []

/-- What holds of the reactor at every step: no event is pending outside of the inner loop, and the
one it takes there has an action and a socket. -/
structure Resting (id : PollerId) (c : Reacting) : Prop where
  keyed : Keyed (c.world.pollers id)
  actionable : (c.world.pollers id).Actionable
  drained : c.place = .testing ∨ (∃ phase, c.place = .polling phase) → c.world.pending id = 0
  acted : ∀ event ∈ c.place.event, event.action ≠ 0 ∧ event.socket.isSome = true
  closed : c.world.InvalidClosed

namespace Resting

variable {id : PollerId} {c after : Reacting}

theorem create {eventFds : PollerId → FD} {states : SocketPtr → SocketState}
    (opened : ∀ socket, states socket ≠ .invalid) :
    Resting id (.create (.start eventFds states)) where
  keyed := .create (eventFds id)
  actionable := .create (eventFds id)
  drained := fun _ => rfl
  acted := nofun
  closed := .start eventFds opened

/-- Inside the inner loop, and after it, events may be pending. -/
theorem of_reaches (resting : Resting id c)
    (reached : (c.world.pollers id).Reaches (after.world.pollers id))
    (inner : after.place.drains = true ∨ after.place = .escaped)
    (acted : ∀ event ∈ after.place.event, event.action ≠ 0 ∧ event.socket.isSome = true)
    (closed : after.world.InvalidClosed) : Resting id after := by
  refine ⟨resting.keyed.reaches reached, resting.actionable.reaches reached, ?_, acted, closed⟩
  rintro (testing | ⟨phase, polling⟩)
  · rw [testing] at inner
    simp [RunPlace.drains] at inner
  · rw [polling] at inner
    simp [RunPlace.drains] at inner

theorem polls (resting : Resting id c) {phase : Phase} {op : PollingOp} {moved : Polling}
    (polling : c.place = .polling phase) (inside : op.inside = true)
    (accepted : phase.accepts op = true)
    (stepped : Polling.step ⟨c.world.pollers id, phase⟩ op = .ok moved) :
    Resting id
      { c with
        world := c.world.setPoller id moved.poller
        place := .afterPoll moved.phase op } := by
  rcases Polling.inside_cases inside accepted stepped with
    ⟨same, place⟩ | ⟨batch, eventClock, schedulerClock, processed, -, rfl, succeeded, rfl⟩
  · rw [same, World.setPoller_self, place]
    exact { resting with drained := fun _ => resting.drained (.inr ⟨phase, polling⟩), acted := nofun }
  · have keyed := resting.keyed.processEpollEvents succeeded
    have actionable := resting.actionable.processEpollEvents succeeded
    refine ⟨?_, ?_, ?_, nofun, resting.closed⟩
    · rw [World.setPoller_pollers, Function.update_self]
      exact keyed.congr (processed.processScheduler_activeSockets schedulerClock)
    · rw [World.setPoller_pollers, Function.update_self]
      exact Poller.processScheduler_invariant Poller.Actionable
        (fun _ _ _ held turn => held.schedulerTurn turn) actionable
    · rintro (testing | ⟨next, polling⟩)
      · cases testing
      · cases polling

/-- An event is taken; it had an action and a socket when it was copied. -/
theorem erases (resting : Resting id c) {event : PollerEvent} {position : ℕ} {p : Poller}
    (taking : c.place = .taking event)
    (erased : (c.world.pollers id).eraseFirst event position = some p)
    (closed : ((c.world.setPoller id p).note (.took id event)).InvalidClosed) :
    Resting id
      { c with
        world := (c.world.setPoller id p).note (.took id event)
        place := .dispatching event } := by
  obtain ⟨first, -, -, rfl⟩ := Poller.eraseFirst_eq_some erased
  refine ⟨?_, ?_, ?_, ?_, closed⟩
  · rw [World.note_pollers, World.setPoller_pollers, Function.update_self]
    exact resting.keyed.congr rfl
  · rw [World.note_pollers, World.setPoller_pollers, Function.update_self]
    exact resting.actionable.mono fun event member => (KeyedSet.mem_erase.mp member).1
  · rintro (testing | ⟨next, polling⟩)
    · cases testing
    · cases polling
  · have acted := resting.acted
    rw [taking] at acted
    exact acted

/-- **Every step keeps it.** -/
theorem step (resting : Resting id c) {op : ReactingOp} (returned : c.step id op = .ok after) :
    Resting id after := by
  have closed : after.world.InvalidClosed := (World.InvalidClosed.stepRules _).reacting
    (fun _ _ closed => closed.congr rfl fun _ => rfl) resting.closed returned
  have quiet : ∀ event ∈ (none : Option PollerEvent),
      event.action ≠ 0 ∧ event.socket.isSome = true := by
    rintro _ ⟨⟩
  cases Reacting.step_eq_ok returned with
  | stops _ _ =>
      refine { resting with drained := ?_, acted := quiet }
      rintro (testing | ⟨phase, polling⟩)
      · cases testing
      · cases polling
  | goesOn testing _ =>
      exact { resting with drained := fun _ => resting.drained (.inl testing), acted := quiet }
  | polls polling inside accepted moved => exact resting.polls polling inside accepted moved
  | drained _ nothing =>
      refine { resting with drained := fun _ => ?_, acted := quiet }
      rw [World.pending, nothing, List.length_nil]
  | copies _ picked =>
      refine resting.of_reaches (.refl _) (.inl rfl) ?_ closed
      intro copied same
      obtain rfl := Option.some.inj same
      exact resting.actionable _ (KeyedSet.pick_mem picked)
  | erases taking erased => exact resting.erases taking erased closed
  | breaks dispatching inactive =>
      obtain ⟨action, belongs⟩ := resting.acted _ (by rw [dispatching]; rfl)
      rcases inactive with nobody | zero
      · rw [nobody] at belongs
        cases belongs
      · exact absurd zero action
  | @handled event socket script world _ _ dispatched =>
      have reached := c.world.dispatch_reaches id event socket script
      rw [dispatched] at reached
      exact resting.of_reaches reached (.inl rfl) quiet closed
  | @escapes event socket script world _ _ dispatched =>
      have reached := c.world.dispatch_reaches id event socket script
      rw [dispatched] at reached
      exact resting.of_reaches reached (.inr rfl) quiet closed
  | setStop => exact { resting with }
  | signalStop _ =>
      have reached := c.world.signal_reaches id .stop
      refine ⟨resting.keyed.reaches reached, resting.actionable.reaches reached, ?_, resting.acted,
        closed⟩
      rw [World.pending_signal]
      exact resting.drained
  | @other script world exit ran =>
      have reached := c.world.script_reaches id script
      have fewer := World.pending_run_le id script c.world
      rw [ran] at reached fewer
      exact ⟨resting.keyed.reaches reached, resting.actionable.reaches reached,
        fun outside => Nat.le_zero.mp (resting.drained outside ▸ fewer), resting.acted, closed⟩

end Resting

/-! ## The way of a socket to its end -/

theorem World.pending_ne_zero_of_closing {w : World} {id : PollerId} {socket : SocketPtr}
    (closing : (w.pollers id).closing socket = true) : w.pending id ≠ 0 := by
  rw [Poller.closing] at closing
  split at closing
  · cases closing
  · rename_i event found
    have member := (KeyedSet.find_eq_some.mp found).1
    exact Nat.ne_of_gt (List.length_pos_of_mem member)

/-- Nobody has done anything to the socket: it has the deadlines it had, it was not removed since
there were so many removals, and the reports that the reactor has say nothing of it. -/
structure LeftAlone (id : PollerId) (socket : SocketPtr) (context : SocketContext) (count : ℕ)
    (c : Reacting) : Prop where
  kept : (c.world.pollers id).activeSockets socket.fd = some context
  removals : c.world.removals socket.fd = count
  unreported : ∀ report ∈ c.place.reports, report.data ≠ socket.fd

/-- The socket was closed, or nobody has done anything to it. -/
def Idle (id : PollerId) (socket : SocketPtr) (context : SocketContext) (count : ℕ)
    (c : Reacting) : Prop :=
  (c.world.sockets socket).state = .invalid ∨ LeftAlone id socket context count c

/-- The event that `get_next_event` has copied is still there to be erased. -/
def Undisturbed (id : PollerId) (c : Reacting) : Prop :=
  ∀ event ∈ c.place.copied, event ∈ (c.world.pollers id).outEvents.elements

/-- The event to be dispatched closes the socket. -/
def RunPlace.closes (socket : SocketPtr) : RunPlace → Bool
  | .dispatching event => event.socket = some socket && event.action.has PollerEvent.close
  | .testing | .polling _ | .draining | .taking _ | .finished | .escaped => false

/-- The CLOSE event of the socket is pending, or to be dispatched. -/
def CloseDue (socket : SocketPtr) (place : RunPlace) (p : Poller) : Prop :=
  p.closing socket = true ∨ place.closes socket = true

instance (socket : SocketPtr) (place : RunPlace) (p : Poller) :
    Decidable (CloseDue socket place p) := inferInstanceAs (Decidable (_ ∨ _))

/-- The socket has a CLOSE event, which has its turn before the loop polls again. -/
def InTurn (id : PollerId) (socket : SocketPtr) (count : ℕ) (c : Reacting) : Prop :=
  c.place.drains = true ∧ c.world.Unless id socket count (CloseDue socket c.place)

/-- The loop has ended, or the socket has its timer, or its CLOSE event. -/
def Awaiting (id : PollerId) (socket : SocketPtr) (count : ℕ) (c : Reacting) : Prop :=
  c.place.ended = true ∨ c.world.Unless id socket count (World.KeepsTimer socket) ∨
    InTurn id socket count c

section Way

variable {id : PollerId} {socket : SocketPtr} {context : SocketContext} {count : ℕ}
  {c after : Reacting}

namespace InTurn

/-- `get_next_event` takes the CLOSE event, or leaves it. -/
theorem erases (due : InTurn id socket count c) (undisturbed : Undisturbed id c)
    {event : PollerEvent} {position : ℕ} {p : Poller} (taking : c.place = .taking event)
    (erased : (c.world.pollers id).eraseFirst event position = some p) :
    InTurn id socket count
      { c with
        world := (c.world.setPoller id p).note (.took id event)
        place := .dispatching event } := by
  obtain ⟨-, steady⟩ := due
  have there : event ∈ (c.world.pollers id).outEvents := undisturbed event (by rw [taking]; rfl)
  obtain ⟨first, -, same, rfl⟩ := Poller.eraseFirst_eq_some erased
  obtain rfl := same there
  have pending : c.world.Unless id socket count fun p => p.closing socket = true := by
    refine steady.mono fun due => due.resolve_right ?_
    rw [taking]
    exact Bool.false_ne_true
  by_cases own : first.socket = some socket
  · have due : c.world.Unless id socket count fun _ =>
        (RunPlace.dispatching first).closes socket = true := by
      refine pending.mono fun closing => ?_
      rw [Poller.closing, KeyedSet.find_eq_some.mpr ⟨there, own⟩] at closing
      exact Bool.and_eq_true_iff.mpr ⟨decide_eq_true own, closing⟩
    exact ⟨rfl, ((due.setPoller fun _ closes => closes).note _).mono .inr⟩
  · refine ⟨rfl, ((pending.setPoller ?_).note _).mono .inl⟩
    intro _ closing
    rw [Poller.closing_of_find, closing]
    exact (KeyedSet.find_erase ..).trans (if_neg (Ne.symm own))

/-- The dispatch closes the socket, or leaves it its CLOSE event. -/
theorem handled (due : InTurn id socket count c) {event : PollerEvent} {owner : SocketPtr}
    {script : EventScript} {world : World} (dispatching : c.place = .dispatching event)
    (belongs : event.socket = some owner)
    (dispatched : c.world.dispatch event owner script = (world, .returned)) :
    InTurn id socket count { c with world, place := .draining } := by
  obtain ⟨-, steady⟩ := due
  obtain ⟨rfl, left⟩ := Prod.mk.inj dispatched
  have finished : ∀ failed, (c.world.dispatch event owner script).2 ≠ .aborted failed := by
    intro failed aborted
    cases left.symm.trans aborted
  refine ⟨rfl, ?_⟩
  by_cases own : c.place.closes socket = true
  · -- the removals are counted all the same
    have kept := (World.Unless.eventRules ⟨fun _ _ _ _ => trivial, fun _ _ _ _ _ _ _ _ _ => trivial,
      fun _ _ _ => trivial⟩).dispatch (steady.mono fun _ => trivial) event owner script
    rw [dispatching] at own
    obtain ⟨mine, close⟩ := Bool.and_eq_true_iff.mp own
    obtain rfl := Option.some.inj (belongs.symm.trans (of_decide_eq_true mine))
    exact ⟨kept.since, .inl (World.dispatch_invalid close finished)⟩
  · have pending : c.world.Unless id socket count fun p => p.closing socket = true :=
      steady.mono fun due => due.resolve_right own
    exact ((World.Unless.eventRules (World.callsKeep_closing socket)).dispatch pending event owner
      script).mono .inl

/-- What another thread does leaves the CLOSE event. -/
theorem of_rules (due : InTurn id socket count c) (place : after.place = c.place)
    (keeps : ∀ holds, World.CallsKeep socket.fd holds → c.world.Unless id socket count holds →
      after.world.Unless id socket count holds) : InTurn id socket count after := by
  obtain ⟨drains, steady⟩ := due
  refine ⟨by rw [place, drains], ?_⟩
  rw [place]
  exact keeps _ ((World.callsKeep_closing socket).or_const _) steady

/-- **A CLOSE event has its turn**, whatever step the reactor or another thread takes: it is there
still, or the loop has ended, or the socket was closed or removed. -/
theorem step (due : InTurn id socket count c) (resting : Resting id c)
    (undisturbed : Undisturbed id c) {op : ReactingOp} (returned : c.step id op = .ok after) :
    InTurn id socket count after ∨ after.place.ended = true ∨
      after.world.Unless id socket count fun _ => False := by
  have drains := due.1
  cases Reacting.step_eq_ok returned with
  | stops testing _ | goesOn testing _ =>
      rw [testing] at drains
      cases drains
  | polls polling _ _ _ =>
      rw [polling] at drains
      cases drains
  | drained draining nothing =>
      refine .inr (.inr (due.2.mono ?_))
      rw [draining]
      rintro (pending | taken)
      · have some := World.pending_ne_zero_of_closing pending
        rw [World.pending, nothing] at some
        exact some rfl
      · cases taken
  | copies draining _ =>
      refine .inl ⟨rfl, due.2.mono ?_⟩
      rw [draining]
      exact Or.imp_right fun taken => by cases taken
  | erases taking erased => exact .inl (due.erases undisturbed taking erased)
  | breaks dispatching inactive =>
      obtain ⟨action, belongs⟩ := resting.acted _ (by rw [dispatching]; rfl)
      rcases inactive with none | zero
      · rw [none] at belongs
        cases belongs
      · exact absurd zero action
  | handled dispatching belongs dispatched =>
      exact .inl (due.handled dispatching belongs dispatched)
  | escapes _ _ _ => exact .inr (.inl rfl)
  | setStop => exact .inl due
  | signalStop _ =>
      exact .inl (due.of_rules rfl fun _ keep steady =>
        (World.Unless.closeRules keep).signal _ id .stop steady)
  | @other script world exit ran =>
      refine .inl (due.of_rules rfl fun _ keep steady => ?_)
      have kept := (World.Unless.eventRules keep).run steady script
      rwa [ran] at kept

end InTurn

namespace Awaiting

/-- What the reports leave: the timer, or a CLOSE event when it was due. -/
theorem process (resting : Resting id c) {batch : List EpollEvent}
    {eventClock schedulerClock : Word} {processed : Poller}
    (polling : c.place = .polling (.returned batch))
    (succeeded : (c.world.pollers id).processEpollEvents batch eventClock = .ok processed)
    (alone : LeftAlone id socket context count c)
    (kept : processed.activeSockets socket.fd = some context)
    (timer : World.KeepsTimer socket (c.world.pollers id)) :
    (schedulerClock < context.nearest ∧
        World.KeepsTimer socket (processed.processScheduler schedulerClock)) ∨
      (processed.processScheduler schedulerClock).closing socket = true := by
  obtain ⟨-, stored, timed⟩ := timer
  obtain rfl := Option.some.inj (alone.kept.symm.trans timed.found)
  have free : (c.world.pollers id).outEvents.find (some socket) = none := by
    have nothing := List.length_eq_zero_iff.mp (resting.drained (.inr ⟨_, polling⟩))
    refine KeyedSet.find_eq_none.mpr ?_
    intro event member
    rw [← KeyedSet.mem_elements, nothing] at member
    cases member
  have untouched : (c.world.pollers id).Untouched socket context := ⟨resting.keyed, timed, free⟩
  have unreported := alone.unreported
  rw [polling] at unreported
  rcases untouched.processEpollEvents unreported succeeded with
    cleared | untouched
  · rw [cleared] at kept
    cases kept
  · refine (untouched.processScheduler schedulerClock).imp_left ?_
    intro ⟨early, timed⟩
    exact ⟨early, untouched.toKeyed.congr (processed.processScheduler_activeSockets schedulerClock),
      context, timed⟩

/-- A step of `poll` leaves the timer, or puts the CLOSE event in its place. -/
theorem polls (timer : c.world.Unless id socket count (World.KeepsTimer socket))
    (resting : Resting id c) {phase : Phase} {op : PollingOp} {moved : Polling}
    (polling : c.place = .polling phase) (inside : op.inside = true)
    (accepted : phase.accepts op = true)
    (stepped : Polling.step ⟨c.world.pollers id, phase⟩ op = .ok moved)
    (idle : Idle id socket context count c)
    (idleAfter : Idle id socket context count
      { c with world := c.world.setPoller id moved.poller, place := .afterPoll moved.phase op }) :
    Awaiting id socket count
      { c with
        world := c.world.setPoller id moved.poller
        place := .afterPoll moved.phase op } := by
  rcases Polling.inside_cases inside accepted stepped with
    ⟨same, -⟩ | ⟨batch, eventClock, schedulerClock, processed, rfl, rfl, succeeded, rfl⟩
  · refine .inr (.inl ?_)
    rw [same, World.setPoller_self]
    exact timer
  · rcases timer.kept with invalid | removed | kept
    · exact .inr (.inl ⟨timer.since, .inl invalid⟩)
    · exact .inr (.inl ⟨timer.since, .inr (.inl removed)⟩)
    · rcases idle with invalid | alone
      · exact .inr (.inl ⟨timer.since, .inl invalid⟩)
      · rcases idleAfter with invalid | left
        · exact .inr (.inl ⟨timer.since, .inl invalid⟩)
        · have there := left.kept
          rw [World.setPoller_pollers, Function.update_self,
            Poller.processScheduler_activeSockets] at there
          rcases process resting polling succeeded alone there kept with ⟨-, timed⟩ | closing
          · refine .inr (.inl ⟨timer.since, .inr (.inr ?_)⟩)
            rw [World.setPoller_pollers, Function.update_self]
            exact timed
          · refine .inr (.inr ⟨rfl, timer.since, .inr (.inr (.inl ?_))⟩)
            rw [World.setPoller_pollers, Function.update_self]
            exact closing

/-- A socket with a timer keeps it, or gets its CLOSE event. -/
theorem timer_step (timer : c.world.Unless id socket count (World.KeepsTimer socket))
    (resting : Resting id c) (idle : Idle id socket context count c)
    (idleAfter : Idle id socket context count after) {op : ReactingOp}
    (returned : c.step id op = .ok after) : Awaiting id socket count after := by
  have dispatch : ∀ {event owner script} {exit : Exit Assertion} {world : World},
      c.world.dispatch event owner script = (world, exit) →
        world.Unless id socket count (World.KeepsTimer socket) := by
    intro event owner script exit world dispatched
    have kept := (World.Unless.eventRules (World.callsKeep_timer socket)).dispatch timer event owner
      script
    rwa [dispatched] at kept
  cases Reacting.step_eq_ok returned with
  | stops _ _ => exact .inl rfl
  | goesOn | drained | copies | breaks | setStop => exact .inr (.inl timer)
  | polls polling inside accepted moved =>
      exact polls timer resting polling inside accepted moved idle idleAfter
  | erases _ erased =>
      obtain ⟨first, -, -, rfl⟩ := Poller.eraseFirst_eq_some erased
      refine .inr (.inl ((timer.setPoller ?_).note _))
      rintro - ⟨keyed, context, timed⟩
      exact ⟨keyed.congr rfl, context, timed.found, timed.own, timed.timer⟩
  | handled _ _ dispatched => exact .inr (.inl (dispatch dispatched))
  | escapes _ _ _ => exact .inl rfl
  | signalStop _ =>
      exact .inr (.inl
        ((World.Unless.closeRules (World.callsKeep_timer socket)).signal _ id .stop timer))
  | @other script world exit ran =>
      have kept := (World.Unless.eventRules (World.callsKeep_timer socket)).run timer script
      rw [ran] at kept
      exact .inr (.inl kept)

/-- **An idle socket goes on to its end**, whatever step the reactor or another thread takes. -/
theorem step (awaiting : Awaiting id socket count c) (resting : Resting id c)
    (undisturbed : Undisturbed id c) (idle : Idle id socket context count c)
    (idleAfter : Idle id socket context count after) {op : ReactingOp}
    (returned : c.step id op = .ok after) : Awaiting id socket count after := by
  rcases awaiting with ended | timer | due
  · refine .inl ?_
    rw [Reacting.ended_step ended returned]
    exact ended
  · exact timer_step timer resting idle idleAfter returned
  · rcases due.step resting undisturbed returned with due | ended | gone
    · exact .inr (.inr due)
    · exact .inl ended
    · exact .inr (.inl (gone.mono False.elim))

end Awaiting

end Way

/-! ## The rank -/

/-- The steps of the loop up to the next processing of reports. -/
def Reacting.distance (id : PollerId) (c : Reacting) : ℕ :=
  match c.place with
  | .polling phase => phase.stepsLeft + 1
  | _ => c.turnsLeft id + 4

/-- The socket was closed, or the loop has ended. -/
def Reacting.settled (socket : SocketPtr) (c : Reacting) : Bool :=
  (c.world.sockets socket).state = .invalid || c.place.ended

/-- The way to the close of the socket: up to the poll that finds its timer due, and then the turns
up to the one of its event. -/
def Reacting.idleRank (id : PollerId) (socket : SocketPtr) (c : Reacting) : ℕ ×ₗ ℕ :=
  if c.settled socket then toLex (0, 0)
  else if CloseDue socket c.place (c.world.pollers id) then toLex (0, c.turnsLeft id)
  else toLex (1, c.distance id)

section Rank

variable {id : PollerId} {socket : SocketPtr} {context : SocketContext} {count : ℕ}
  {c after : Reacting}

/-- A loop that is not polling is as far from the next reports as from its next test, and a poll. -/
theorem Reacting.distance_le : c.distance id ≤ c.turnsLeft id + 4 := by
  rw [distance]
  split
  · rename_i phase _
    have most : phase.stepsLeft ≤ 3 := by
      cases phase <;> simp [Phase.stepsLeft]
    omega
  · exact le_rfl

theorem Reacting.distance_of_drains (drains : c.place.drains = true) :
    c.distance id = c.turnsLeft id + 4 := by
  rw [distance]
  split
  · rename_i phase polling
    rw [polling] at drains
    cases drains
  · rfl

/-- With its CLOSE event on the way, the socket gets on by every step in the inner loop. -/
theorem Reacting.idleRank_lt_of_due (open_ : c.settled socket = false)
    (due : CloseDue socket c.place (c.world.pollers id))
    (fewer : after.turnsLeft id < c.turnsLeft id)
    (onward : after.settled socket = true ∨ CloseDue socket after.place (after.world.pollers id)) :
    after.idleRank id socket < c.idleRank id socket := by
  rw [idleRank, idleRank, if_neg (Bool.eq_false_iff.mp open_), if_pos due]
  split
  · exact Prod.Lex.toLex_lt_toLex.mpr (.inr ⟨rfl, (Nat.zero_le _).trans_lt fewer⟩)
  · rename_i unsettled
    rw [if_pos (onward.resolve_left unsettled)]
    exact Prod.Lex.toLex_lt_toLex.mpr (.inr ⟨rfl, fewer⟩)

/-- Without, it gets on by every step towards the next poll, and by the event itself. -/
theorem Reacting.idleRank_lt_of_open (open_ : c.settled socket = false)
    (waiting : ¬ CloseDue socket c.place (c.world.pollers id))
    (onward : after.settled socket = true ∨ CloseDue socket after.place (after.world.pollers id) ∨
      after.distance id < c.distance id) :
    after.idleRank id socket < c.idleRank id socket := by
  rw [idleRank, idleRank, if_neg (Bool.eq_false_iff.mp open_), if_neg waiting]
  split
  · exact Prod.Lex.toLex_lt_toLex.mpr (.inl Nat.zero_lt_one)
  · rename_i unsettled
    split
    · exact Prod.Lex.toLex_lt_toLex.mpr (.inl Nat.zero_lt_one)
    · rename_i waiting
      have nearer := (onward.resolve_left unsettled).resolve_left waiting
      exact Prod.Lex.toLex_lt_toLex.mpr (.inr ⟨rfl, nearer⟩)

/-- A step that keeps the place and adds no event does not lead back. -/
theorem Reacting.idleRank_le (open_ : c.settled socket = false) (place : after.place = c.place)
    (pending : after.world.pending id ≤ c.world.pending id)
    (onward : CloseDue socket c.place (c.world.pollers id) →
      after.settled socket = true ∨ CloseDue socket after.place (after.world.pollers id)) :
    after.idleRank id socket ≤ c.idleRank id socket := by
  have turns := turnsLeft_le place pending
  have nearer : after.distance id ≤ c.distance id := by
    rw [distance, distance, place]
    split
    · exact le_rfl
    · exact Nat.add_le_add_right turns 4
  rw [idleRank, idleRank, if_neg (Bool.eq_false_iff.mp open_)]
  by_cases due : CloseDue socket c.place (c.world.pollers id)
  · rw [if_pos due]
    split
    · exact Prod.Lex.toLex_le_toLex.mpr (.inr ⟨rfl, Nat.zero_le _⟩)
    · rename_i unsettled
      rw [if_pos ((onward due).resolve_left unsettled)]
      exact Prod.Lex.toLex_le_toLex.mpr (.inr ⟨rfl, turns⟩)
  · rw [if_neg due]
    split
    · exact Prod.Lex.toLex_le_toLex.mpr (.inl Nat.zero_lt_one)
    · split
      · exact Prod.Lex.toLex_le_toLex.mpr (.inl Nat.zero_lt_one)
      · exact Prod.Lex.toLex_le_toLex.mpr (.inr ⟨rfl, nearer⟩)

theorem Reacting.settled_of_invalid (invalid : (c.world.sockets socket).state = .invalid) :
    c.settled socket = true := by
  rw [settled, decide_eq_true invalid, Bool.true_or]

theorem Reacting.settled_of_ended (ended : c.place.ended = true) : c.settled socket = true := by
  rw [settled, ended, Bool.or_true]

/-- The socket is closed for good, and the loop has ended for good. -/
theorem Reacting.settled_step {op : ReactingOp} (settled : c.settled socket = true)
    (returned : c.step id op = .ok after) : after.settled socket = true := by
  rcases Bool.or_eq_true_iff.mp settled with invalid | ended
  · have stays : (after.world.sockets socket).state = .invalid :=
      (World.stepRules_invalid _ socket).reacting (fun _ _ invalid => invalid)
        (of_decide_eq_true invalid) returned
    exact settled_of_invalid stays
  · exact settled_of_ended (by rw [ended_step ended returned, ended])

namespace Idle

/-- Nobody has removed a socket that was left alone. -/
theorem holds {holds : Poller → Prop} (idle : Idle id socket context count c)
    (steady : c.world.Unless id socket count holds) :
    c.settled socket = true ∨ holds (c.world.pollers id) := by
  rcases idle with invalid | alone
  · exact .inl (Reacting.settled_of_invalid invalid)
  · refine steady.kept.imp Reacting.settled_of_invalid fun kept => kept.resolve_left ?_
    exact fun removed => absurd alone.removals (Nat.ne_of_gt removed)

theorem alone (idle : Idle id socket context count c) (open_ : c.settled socket = false) :
    LeftAlone id socket context count c := by
  refine idle.resolve_left fun invalid => ?_
  rw [Reacting.settled_of_invalid invalid] at open_
  cases open_

theorem steady {holds : Poller → Prop} (idle : Idle id socket context count c)
    (open_ : c.settled socket = false) (held : holds (c.world.pollers id)) :
    c.world.Unless id socket count holds :=
  ⟨(idle.alone open_).removals.ge, .inr (.inr held)⟩

end Idle

/-- Outside of the inner loop no CLOSE event is on the way. -/
theorem Resting.drains_of_due (resting : Resting id c) (open_ : c.settled socket = false)
    (due : CloseDue socket c.place (c.world.pollers id)) : c.place.drains = true := by
  have outside : c.place = .testing ∨ (∃ phase, c.place = .polling phase) →
      (c.world.pollers id).closing socket = true → False :=
    fun outside pending => World.pending_ne_zero_of_closing pending (resting.drained outside)
  rcases due with pending | closes
  · cases place : c.place with
    | testing => exact (outside (.inl place) pending).elim
    | polling phase => exact (outside (.inr ⟨phase, place⟩) pending).elim
    | draining | taking _ | dispatching _ => rfl
    | finished | escaped =>
        rw [Reacting.settled_of_ended (by rw [place]; rfl)] at open_
        cases open_
  · cases place : c.place with
    | dispatching _ => rfl
    | _ =>
        rw [place] at closes
        cases closes

theorem Resting.not_due (resting : Resting id c) (open_ : c.settled socket = false)
    (outside : c.place.drains = false) : ¬ CloseDue socket c.place (c.world.pollers id) := by
  intro due
  rw [resting.drains_of_due open_ due] at outside
  cases outside

/-- A CLOSE event that is on the way stays so, or closes the socket. -/
theorem InTurn.onward (resting : Resting id c) (undisturbed : Undisturbed id c)
    (idle : Idle id socket context count c) (idleAfter : Idle id socket context count after)
    {op : ReactingOp} (returned : c.step id op = .ok after) (open_ : c.settled socket = false)
    (due : CloseDue socket c.place (c.world.pollers id)) :
    after.settled socket = true ∨ CloseDue socket after.place (after.world.pollers id) := by
  have inTurn : InTurn id socket count c :=
    ⟨resting.drains_of_due open_ due, idle.steady open_ due⟩
  rcases inTurn.step resting undisturbed returned with turn | ended | gone
  · exact idleAfter.holds turn.2
  · exact .inl (Reacting.settled_of_ended ended)
  · exact .inl ((idleAfter.holds gone).resolve_right not_false)

namespace Awaiting

/-- Where the loop polls, the socket has its timer. -/
theorem timer_of_polling (awaiting : Awaiting id socket count c)
    (idle : Idle id socket context count c) (open_ : c.settled socket = false) {phase : Phase}
    (polling : c.place = .polling phase) : World.KeepsTimer socket (c.world.pollers id) := by
  rcases awaiting with ended | timer | ⟨drains, -⟩
  · rw [polling] at ended
    cases ended
  · exact (idle.holds timer).resolve_left (Bool.eq_false_iff.mp open_)
  · rw [polling] at drains
    cases drains

/-- A step of `poll` gets nearer to the processing of the reports, which finds the timer due. -/
theorem rank_polls (awaiting : Awaiting id socket count c) (resting : Resting id c)
    {phase : Phase} {op : PollingOp} {moved : Polling} (polling : c.place = .polling phase)
    (inside : op.inside = true) (accepted : phase.accepts op = true)
    (uninterrupted : op ≠ .interrupt)
    (clock : ∀ eventClock schedulerClock, op = .process eventClock schedulerClock →
      context.nearest ≤ schedulerClock)
    (stepped : Polling.step ⟨c.world.pollers id, phase⟩ op = .ok moved)
    (idle : Idle id socket context count c)
    (after_ : after =
      { c with world := c.world.setPoller id moved.poller, place := .afterPoll moved.phase op })
    (idleAfter : Idle id socket context count after) (open_ : c.settled socket = false) :
    after.idleRank id socket < c.idleRank id socket := by
  have waiting : ¬ CloseDue socket c.place (c.world.pollers id) :=
    resting.not_due open_ (by rw [polling]; rfl)
  apply Reacting.idleRank_lt_of_open open_ waiting
  rcases Polling.inside_cases inside accepted stepped with
    ⟨-, place⟩ | ⟨batch, eventClock, schedulerClock, processed, rfl, rfl, succeeded, rfl⟩
  · have unprocessed : RunPlace.afterPoll moved.phase op ≠ .draining := by
      rw [place]
      exact nofun
    have fewer := Phase.stepsLeft_lt inside accepted uninterrupted unprocessed stepped
    refine .inr (.inr ?_)
    rw [after_]
    simp only [Reacting.distance, place, polling]
    omega
  · have timer := awaiting.timer_of_polling idle open_ polling
    have settled : after.settled socket = c.settled socket := by
      rw [after_, Reacting.settled, Reacting.settled, polling]
      rfl
    rw [open_] at settled
    have alone := idle.alone open_
    have kept := (idleAfter.alone settled).kept
    rw [after_, World.setPoller_pollers, Function.update_self,
      Poller.processScheduler_activeSockets] at kept
    refine .inr (.inl (.inl ?_))
    rw [after_, World.setPoller_pollers, Function.update_self]
    refine (process resting polling succeeded alone kept timer).resolve_left ?_
    exact fun early => absurd early.1 (not_lt.mpr (clock _ _ rfl))

/-- **Every step of the reactor leads on**, but for an interrupted sleep, when its clock has passed
the deadline. -/
theorem rank_lt (awaiting : Awaiting id socket count c) (resting : Resting id c)
    (undisturbed : Undisturbed id c) (idle : Idle id socket context count c)
    (idleAfter : Idle id socket context count after)
    {op : ReactingOp} (own : op.own = true) (uninterrupted : op ≠ .poll .interrupt)
    (clock : ∀ eventClock schedulerClock, op = .poll (.process eventClock schedulerClock) →
      context.nearest ≤ schedulerClock)
    (returned : c.step id op = .ok after) (open_ : c.settled socket = false) :
    after.idleRank id socket < c.idleRank id socket := by
  -- in the inner loop every step counts, with the CLOSE event on the way or not
  have inner : c.place.drains = true → after.idleRank id socket < c.idleRank id socket := by
    intro drains
    have fewer := Reacting.turnsLeft_lt drains own returned
    by_cases due : CloseDue socket c.place (c.world.pollers id)
    · exact Reacting.idleRank_lt_of_due open_ due fewer
        (InTurn.onward resting undisturbed idle idleAfter returned open_ due)
    · refine Reacting.idleRank_lt_of_open open_ due (.inr (.inr ?_))
      rw [Reacting.distance_of_drains drains]
      have most : after.distance id ≤ after.turnsLeft id + 4 := Reacting.distance_le
      omega
  have testing_waits : c.place = .testing → ¬ CloseDue socket c.place (c.world.pollers id) :=
    fun testing => resting.not_due open_ (by rw [testing]; rfl)
  cases Reacting.step_eq_ok returned with
  | stops testing _ =>
      exact Reacting.idleRank_lt_of_open open_ (testing_waits testing) (.inl (Bool.or_true _))
  | goesOn testing _ =>
      refine Reacting.idleRank_lt_of_open open_ (testing_waits testing) (.inr (.inr ?_))
      simp only [Reacting.distance, Reacting.turnsLeft, testing, Phase.stepsLeft]
      omega
  | polls polling inside accepted moved =>
      refine awaiting.rank_polls resting polling inside accepted ?_ ?_ moved idle rfl idleAfter
        open_
      · exact fun same => uninterrupted (congrArg ReactingOp.poll same)
      · exact fun _ _ same => clock _ _ (congrArg ReactingOp.poll same)
  | drained draining _ | copies draining _ => exact inner (by rw [draining]; rfl)
  | erases taking _ => exact inner (by rw [taking]; rfl)
  | breaks dispatching _ | handled dispatching _ _ | escapes dispatching _ _ =>
      exact inner (by rw [dispatching]; rfl)
  | setStop | signalStop _ | other _ => cases own

/-- No step of another thread leads back. -/
theorem rank_le (resting : Resting id c) (undisturbed : Undisturbed id c)
    (idle : Idle id socket context count c) (idleAfter : Idle id socket context count after)
    {op : ReactingOp} (other : op.own = false)
    (returned : c.step id op = .ok after) (open_ : c.settled socket = false) :
    after.idleRank id socket ≤ c.idleRank id socket := by
  have onward := InTurn.onward resting undisturbed idle idleAfter returned open_
  cases Reacting.step_eq_ok returned with
  | stops | goesOn | polls | drained | copies | erases | breaks | handled | escapes => cases other
  | setStop => exact Reacting.idleRank_le open_ rfl le_rfl onward
  | signalStop _ =>
      exact Reacting.idleRank_le open_ rfl (World.pending_signal ..).le onward
  | @other script world exit ran =>
      have fewer := World.pending_run_le id script c.world
      rw [ran] at fewer
      exact Reacting.idleRank_le open_ rfl fewer onward

end Awaiting

end Rank

/-! ## The sleep -/

/-- A poller that waits, or is about to, with nothing to read wakes up by a deadline. -/
def OnTime (id : PollerId) (deadline : Word) (c : Reacting) : Prop :=
  ∀ phase wake, c.place = .polling phase → phase.wake = some wake →
    (c.world.pollers id).eventCount = 0 → wake.by deadline

/-- The thread sleeps in `epoll_wait` with nothing to read, and its wake-up time is after a
deadline. -/
def SleepsPast (id : PollerId) (deadline : Word) (c : Reacting) : Prop :=
  ∃ wake, c.place = .polling (.blocked wake) ∧ (c.world.pollers id).eventCount = 0 ∧
    ¬ wake.by deadline

/-- The wait for a timer fits the `int` that `epoll_wait` takes. -/
def WaitFits (id : PollerId) (c : Reacting) : ReactingOp → Prop
  | .poll (.compute now) => (c.world.pollers id).scheduler.size ≠ 0 →
      0 ≤ waitArgument ((c.world.pollers id).scheduler.msToNextEvent now)
  | _ => True

section Sleep

variable {id : PollerId} {deadline : Word} {c after : Reacting}

theorem OnTime.not_sleepsPast (onTime : OnTime id deadline c) : ¬ SleepsPast id deadline c := by
  rintro ⟨wake, asleep, empty, late⟩
  exact late (onTime _ wake asleep rfl empty)

theorem OnTime.of_not_polling (elsewhere : ∀ phase, c.place ≠ .polling phase) :
    OnTime id deadline c :=
  fun phase _ polling => absurd polling (elsewhere phase)

/-- A step of `poll` keeps the wake-up in time: a wait is computed for the nearest timer. -/
theorem OnTime.polls (onTime : OnTime id deadline c) {phase : Phase} {op : PollingOp}
    {moved : Polling} (polling : c.place = .polling phase) (inside : op.inside = true)
    (accepted : phase.accepts op = true)
    (stepped : Polling.step ⟨c.world.pollers id, phase⟩ op = .ok moved) {fd : FD}
    (timer : (c.world.pollers id).scheduler.deadline fd = some deadline)
    (fits : WaitFits id c (.poll op)) :
    OnTime id deadline
      { c with
        world := c.world.setPoller id moved.poller
        place := .afterPoll moved.phase op } := by
  -- the phases that do not wait
  have quiet : (∀ next, RunPlace.afterPoll moved.phase op = .polling next → next.wake = none) →
      OnTime id deadline
        { c with
          world := c.world.setPoller id moved.poller
          place := .afterPoll moved.phase op } := by
    intro awake next wake goesOn waiting
    rw [awake next goesOn] at waiting
    cases waiting
  cases Polling.step_eq_ok stepped with
  | call _ => cases inside
  | due _ _ | dueAgain _ _ | wakeUp _ | interrupt _ =>
      refine quiet ?_
      rintro next goesOn
      obtain rfl := RunPlace.polling.inj goesOn
      rfl
  | waits _ waits =>
      intro next wake goesOn waiting _
      obtain rfl := RunPlace.polling.inj goesOn
      obtain rfl := Option.some.inj waiting
      exact wakeTime_by timer waits (fits (size_ne_zero_of_deadline timer))
  | block ready =>
      intro next wake goesOn waiting empty
      obtain rfl := RunPlace.polling.inj goesOn
      obtain rfl := Option.some.inj waiting
      obtain rfl : phase = .ready _ := ready
      rw [World.setPoller_self] at empty
      exact onTime _ _ polling rfl empty
  | process _ _ =>
      refine quiet ?_
      intro next goesOn
      cases goesOn
  | wrongPhase wrong =>
      rw [accepted] at wrong
      cases wrong

/-- **Every step keeps the wake-up in time**, while the timer is there. -/
theorem OnTime.step (onTime : OnTime id deadline c) {op : ReactingOp} {fd : FD}
    (timer : (∃ phase, c.place = .polling phase) →
      (c.world.pollers id).scheduler.deadline fd = some deadline)
    (fits : WaitFits id c op) (returned : c.step id op = .ok after) :
    OnTime id deadline after := by
  cases Reacting.step_eq_ok returned with
  | stops | drained | copies | erases | breaks | handled | escapes =>
      exact .of_not_polling nofun
  | goesOn _ _ =>
      intro phase wake polling waiting
      obtain rfl := RunPlace.polling.inj polling
      cases waiting
  | polls polling inside accepted moved =>
      exact onTime.polls polling inside accepted moved (timer ⟨_, polling⟩) fits
  | setStop => exact onTime
  | signalStop _ =>
      intro phase wake _ _ empty
      rw [World.signal, World.setPoller_pollers, Function.update_self] at empty
      exact absurd empty ((c.world.pollers id).signal_eventCount_ne_zero .stop)
  | @other script world exit ran =>
      intro phase wake polling waiting empty
      refine onTime phase wake polling waiting ?_
      by_contra written
      have kept := (World.primitives_eventCount id).eventRules.run written script
      rw [ran] at kept
      exact kept empty

end Sleep

/-! ## The close -/

/-- What the other threads and the clock leave of an idle socket before a step: it was left alone,
the event that is being taken is there, and a wait that is computed fits. -/
def LeavesIdle (id : PollerId) (socket : SocketPtr) (context : SocketContext) (count : ℕ)
    (c : Reacting) (op : ReactingOp) : Prop :=
  Idle id socket context count c ∧ Undisturbed id c ∧ WaitFits id c op

instance (id : PollerId) (socket : SocketPtr) (context : SocketContext) (count : ℕ)
    (c : Reacting) : Decidable (LeftAlone id socket context count c) :=
  decidable_of_iff
    ((c.world.pollers id).activeSockets socket.fd = some context ∧
      c.world.removals socket.fd = count ∧ ∀ report ∈ c.place.reports, report.data ≠ socket.fd)
    ⟨fun ⟨kept, removals, unreported⟩ => ⟨kept, removals, unreported⟩,
      fun ⟨kept, removals, unreported⟩ => ⟨kept, removals, unreported⟩⟩

instance (id : PollerId) (socket : SocketPtr) (context : SocketContext) (count : ℕ)
    (c : Reacting) : Decidable (Idle id socket context count c) :=
  inferInstanceAs (Decidable (_ ∨ _))

instance (id : PollerId) (c : Reacting) : Decidable (Undisturbed id c) :=
  inferInstanceAs (Decidable (∀ event ∈ c.place.copied, _))

instance (id : PollerId) (c : Reacting) : (op : ReactingOp) → Decidable (WaitFits id c op)
  | .poll (.compute _) => inferInstanceAs (Decidable (_ → _))
  | .poll (.call _) | .poll .block | .poll (.wakeUp _) | .poll .interrupt | .poll (.process ..) =>
      isTrue trivial
  | .test | .copyFirst _ | .eraseFirst _ | .dispatch _ | .setStop | .signalStop | .other _ =>
      isTrue trivial

instance (id : PollerId) (socket : SocketPtr) (context : SocketContext) (count : ℕ)
    (c : Reacting) (op : ReactingOp) : Decidable (LeavesIdle id socket context count c op) :=
  inferInstanceAs (Decidable (_ ∧ _ ∧ _))

/-- A client with a deadline, which the reactor polls. -/
def idleClient : SocketPtr := ⟨0, 7, .client⟩

/-- The client is registered at time 5, with 10 milliseconds to go. -/
def servedOps : List ReactingOp :=
  [.other (.call (.updateSocket 0 (some idleClient) epollIn 10 5 5) .done)]

def servedReactor : Reacting :=
  (checkedRun (Reacting.step 0) (fun _ _ => True) idleReactor servedOps).get (by decide +kernel)

def servedContext : SocketContext :=
  ((servedReactor.world.pollers 0).activeSockets idleClient.fd).get (by decide +kernel)

/-- The reactor reads the event descriptor and sleeps till the deadline. It closes the client, and
sleeps without a timer. -/
def expiringOps : List ReactingOp :=
  [.test, .poll (.compute 5), .poll .block, .poll (.wakeUp [⟨3, epollIn⟩]), .poll (.process 5 5),
    .copyFirst 0, .test, .poll (.compute 5), .poll .block, .poll (.wakeUp []),
    .poll (.process 15 15), .copyFirst 0, .eraseFirst 0, .dispatch {}, .copyFirst 0, .test,
    .poll (.compute 15), .poll .block]

/-- A step of the reactor finds the client idle. -/
def FindsIdle (c : Reacting) (op : ReactingOp) : Prop :=
  op.own = true → LeavesIdle 0 idleClient servedContext 0 c op

instance (c : Reacting) (op : ReactingOp) : Decidable (FindsIdle c op) :=
  inferInstanceAs (Decidable (_ → _))

def restingReactor : Reacting :=
  (checkedRun (Reacting.step 0) FindsIdle servedReactor expiringOps).get (by decide +kernel)

end Jasl
