import Jasl.Poller.PollPhases

/-!
# Readiness that is stale when it is processed

Between the return of `epoll_wait` and the processing of its batch the lock is free.
The batch names descriptors, and a socket that is removed in between takes its
descriptor out of the map: the process is stopped by an assertion
(`removed_socket_aborts`), or, when the descriptor is that of a new socket by then,
the readiness goes to the wrong one.

An observer keeps, for the batch that is in flight, the sockets that were registered
when it was returned, and the calls made since (`Flight`). As long as the last call on
none of these sockets is `remove_socket`, the batch is processed without that
assertion and every report goes to its socket (`readiness_is_attributed`).

The same assertion stops the process without any call: when a timer is due after an
interrupted sleep, what is processed is no batch of the kernel's (`interruptedBatch`).
So the condition is also that no timer is found due there (`NotDueAgain`).
-/

set_option autoImplicit false

namespace Jasl

open Library

/-! ## What the kernel watches -/

namespace Watched

variable {p after : Poller}

theorem processEpollEvents (watched : Watched p) {batch : List EpollEvent} {currentTime : Word}
    (quiet : ¬ p.StopReported batch)
    (returned : p.processEpollEvents batch currentTime = .ok after) : Watched after :=
  Poller.processEpollEvents_quiet (fun q (_ : Unit) => Watched q) (fun value _ => value) quiet
    (fun _ _ _ _ _ _ held processed => held.processReport processed)
    (fun _ _ held => held.congr (held.toKeyed.congr rfl) rfl rfl rfl)
    (fun _ _ _ held => held.congr (held.toKeyed.congr rfl) rfl rfl rfl) () watched returned

/-- A call of another thread keeps what is watched. -/
theorem call (watched : Watched p) {op : PollerOp} (other : Polling.OtherThread (.call op))
    (returned : p.step op = .ok after) : Watched after := by
  have keyed := watched.toKeyed.step returned
  cases Poller.step_outcome returned with
  | updateNull | removeNull | nextEmpty => exact watched
  | update => exact watched.updateSocket returned
  | remove socket => exact watched.removeSocket socket
  | poll => exact absurd other id
  | next | signal => exact watched.congr keyed rfl rfl rfl

end Watched

/-! ## The flight of a batch -/

/-- The reports in flight with the sockets they are about, and the calls made since they were
returned. -/
structure Flight where
  reports : List (EpollEvent × SocketPtr)
  window : List PollerOp

namespace Flight

def empty : Flight := ⟨[], []⟩

/-- What a step does to the flight. -/
def note (before : Polling) (op : PollingOp) (_ : Polling) (flight : Flight) : Flight :=
  match op, before.phase with
  | .compute _, .idle => empty
  | .compute _, .interrupted => empty
  | .wakeUp batch, .blocked _ =>
      { reports := (batch.take before.poller.epollEvents).filterMap fun report =>
          (before.poller.sockets report.data).map fun socket => (report, socket)
        window := [] }
  | .call op, _ => { flight with window := flight.window ++ [op] }
  | _, _ => flight

/-- A step in the wrong phase leaves the flight as it is. -/
theorem note_of_wrongPhase {before after : Polling} {op : PollingOp} {flight : Flight}
    (wrong : before.phase.accepts op = false) : note before op after flight = flight := by
  obtain ⟨p, phase⟩ := before
  cases op <;> cases phase <;> first | rfl | cases wrong

/-- What a call does to the removal of a socket. -/
def removal (socket : SocketPtr) (removed : Bool) : PollerOp → Bool
  | .update (some other) _ _ _ _ => if other = socket then false else removed
  | .remove (some other) => if other = socket then true else removed
  | _ => removed

/-- The last call of the window on the socket is `remove_socket`. -/
def removedLast (flight : Flight) (socket : SocketPtr) : Bool :=
  flight.window.foldl (removal socket) false

end Flight

/-! ## The conditions on a step -/

/-- What the callers and the kernel promise: descriptors of live sockets differ, a batch holds
watched descriptors, and no stop is processed. -/
def WindowStep (watched : Polling × Flight) : PollingOp → Prop
  | .call op => Polling.OtherThread (.call op) ∧ watched.1.poller.OwnDescriptor op
  | .wakeUp batch => ∀ report ∈ batch.take watched.1.poller.epollEvents,
      report.data = watched.1.poller.eventFd ∨
        Poller.watches watched.1.poller.epollFd report = true
  | .process _ _ => ∀ batch ∈ watched.1.phase.batch, ¬ watched.1.poller.StopReported batch
  | .compute _ | .block | .interrupt => True

instance (watched : Polling × Flight) : (op : PollingOp) → Decidable (WindowStep watched op)
  | .call op => inferInstanceAs (Decidable
      (Polling.OtherThread (.call op) ∧ watched.1.poller.OwnDescriptor op))
  | .wakeUp batch => inferInstanceAs (Decidable (∀ report ∈ batch.take watched.1.poller.epollEvents,
      report.data = watched.1.poller.eventFd ∨
        Poller.watches watched.1.poller.epollFd report = true))
  | .process _ _ => inferInstanceAs (Decidable
      (∀ batch ∈ watched.1.phase.batch, ¬ watched.1.poller.StopReported batch))
  | .compute _ | .block | .interrupt => inferInstanceAs (Decidable True)

/-- When a batch is processed, the last call on none of its sockets was `remove_socket`. -/
def NoneRemoved (watched : Polling × Flight) : PollingOp → Prop
  | .process _ _ => ∀ entry ∈ watched.2.reports, watched.2.removedLast entry.2 = false
  | _ => True

instance (watched : Polling × Flight) : (op : PollingOp) → Decidable (NoneRemoved watched op)
  | .process _ _ => inferInstanceAs (Decidable
      (∀ entry ∈ watched.2.reports, watched.2.removedLast entry.2 = false))
  | .call _ | .wakeUp _ | .compute _ | .block | .interrupt => inferInstanceAs (Decidable True)

/-- After an interrupted sleep no timer is due, or the event descriptor has number 0. -/
def NotDueAgain (watched : Polling × Flight) : PollingOp → Prop
  | .compute now => watched.1.phase = .interrupted →
      watched.1.poller.scheduler.msToNextEvent now = 0 → watched.1.poller.eventFd = 0
  | _ => True

instance (watched : Polling × Flight) : (op : PollingOp) → Decidable (NotDueAgain watched op)
  | .compute now => inferInstanceAs (Decidable (watched.1.phase = .interrupted →
      watched.1.poller.scheduler.msToNextEvent now = 0 → watched.1.poller.eventFd = 0))
  | .call _ | .wakeUp _ | .block | .interrupt | .process .. => inferInstanceAs (Decidable True)

/-- The interleavings in which stale readiness is harmless. -/
def HarmlessStep (watched : Polling × Flight) (op : PollingOp) : Prop :=
  WindowStep watched op ∧ NoneRemoved watched op ∧ NotDueAgain watched op

instance (watched : Polling × Flight) (op : PollingOp) : Decidable (HarmlessStep watched op) :=
  inferInstanceAs (Decidable (_ ∧ _))

/-! ## The property -/

/-- Processing a batch finds a socket for every report, and what it does for a report it does for
the socket the report is about: it builds the event of that socket, and changes the context of
that socket. -/
def ReadinessAttributed (p : Poller) (reports : List (EpollEvent × SocketPtr))
    (batch : List EpollEvent) (currentTime : Word) : Prop :=
  p.processEpollEvents batch currentTime ≠ .error .invalidSocketDescriptor ∧
    ∀ after, p.processEpollEvents batch currentTime = .ok after →
      (∀ event ∈ after.outEvents, event ∈ p.outEvents ∨
        ∃ entry ∈ reports, event = PollerEvent.ofReport entry.2 entry.1.events) ∧
      ∀ fd, after.activeSockets fd = p.activeSockets fd ∨
        ∃ entry ∈ reports, entry.1.data = fd ∧ after.sockets fd = some entry.2

namespace Poller

variable {p : Poller} {currentTime : Word}

/-- The loop fails for an unknown descriptor only on a report without a socket. -/
theorem processReports_invalid (batch : List EpollEvent) :
    ∀ {p : Poller}, p.processReports currentTime batch = .error .invalidSocketDescriptor →
      ∃ report ∈ batch, report.data ≠ p.eventFd ∧ p.sockets report.data = none := by
  induction batch with
  | nil => exact nofun
  | cons report rest ih =>
      intro p failed
      rw [processReports] at failed
      by_cases signalled : report.data = p.eventFd
      · simp only [if_pos signalled, processSignal] at failed
        by_cases stops : stopValue ≤ p.eventCount
        · simp only [if_pos stops, ne_eq, not_true_eq_false, if_false] at failed
          cases failed
        · simp only [if_neg stops] at failed
          split at failed
          · obtain ⟨entry, member, other, absent⟩ := ih failed
            exact ⟨entry, List.mem_cons_of_mem _ member, other, absent⟩
          · cases failed
      · simp only [if_neg signalled] at failed
        split at failed
        · rename_i reason unprocessed
          cases found : p.activeSockets report.data with
          | none => exact ⟨report, List.mem_cons_self, signalled, sockets_eq_none.mpr found⟩
          | some context =>
              exfalso
              obtain rfl := Except.error.inj failed
              simp only [processReport, found, SocketContext.getNearestTimeout] at unprocessed
              split at unprocessed
              · cases unprocessed
              · split at unprocessed
                · rename_i assertion
                  split at assertion
                  · cases assertion
                  · cases assertion
                    cases unprocessed
                · cases unprocessed
        · rename_i next processed
          obtain ⟨context, effect⟩ := processReport_eq_ok processed
          obtain ⟨entry, member, other, absent⟩ := ih failed
          rw [effect.eventFd] at other
          rw [sockets_processReport processed] at absent
          exact ⟨entry, List.mem_cons_of_mem _ member, other, absent⟩

theorem processEpollEvents_invalid {batch : List EpollEvent}
    (failed : p.processEpollEvents batch currentTime = .error .invalidSocketDescriptor) :
    ∃ report ∈ batch, report.data ≠ p.eventFd ∧ p.sockets report.data = none := by
  rw [processEpollEvents] at failed
  split at failed
  · rename_i reason unprocessed
    obtain rfl := Except.error.inj failed
    exact processReports_invalid batch unprocessed
  · cases failed
  · cases failed

/-- A batch whose reports are about the sockets registered now is attributed to them. -/
theorem attributed_of_registered {batch : List EpollEvent}
    {reports : List (EpollEvent × SocketPtr)}
    (registered : ∀ report ∈ batch, report.data ≠ p.eventFd →
      ∃ socket, (report, socket) ∈ reports ∧ p.sockets report.data = some socket)
    (quiet : ¬ p.StopReported batch) : ReadinessAttributed p reports batch currentTime := by
  refine ⟨?_, ?_⟩
  · intro failed
    obtain ⟨report, member, other, absent⟩ := processEpollEvents_invalid failed
    obtain ⟨socket, -, found⟩ := registered report member other
    rw [absent] at found
    cases found
  · intro after returned
    have kept := processEpollEvents_quiet
      (fun q (_ : Unit) => q.sockets = p.sockets ∧
        (∀ event ∈ q.outEvents, event ∈ p.outEvents ∨
          ∃ entry ∈ reports, event = PollerEvent.ofReport entry.2 entry.1.events) ∧
        ∀ fd, q.activeSockets fd = p.activeSockets fd ∨
          ∃ entry ∈ reports, entry.1.data = fd ∧ q.sockets fd = some entry.2)
      (fun value _ => value) quiet ?_ (fun _ _ => id) (fun _ _ _ => id) ()
      ⟨rfl, fun _ => .inl, fun _ => .inl rfl⟩ returned
    · exact kept.2
    · intro before _ report next member _ ⟨same, events, contexts⟩ processed
      obtain ⟨inBatch, other⟩ := mem_delivered member
      obtain ⟨socket, about, found⟩ := registered report inBatch other
      obtain ⟨context, effect⟩ := processReport_eq_ok processed
      have unchanged := sockets_processReport processed
      have belongs : context.socket = socket := by
        have stored := sockets_eq_some.mpr ⟨context, effect.found, rfl⟩
        rw [same, found] at stored
        exact (Option.some.inj stored).symm
      refine ⟨unchanged.trans same, ?_, ?_⟩
      · intro event present
        rw [effect.outEvents] at present
        rcases KeyedSet.mem_insert.mp present with pending | ⟨rfl, -⟩
        · exact events event pending
        · exact .inr ⟨(report, socket), about, by rw [belongs]⟩
      · intro fd
        rw [unchanged, effect.activeSockets]
        by_cases here : fd = report.data
        · refine .inr ⟨(report, socket), about, here.symm, ?_⟩
          rw [same, here]
          exact found
        · rw [Function.update_of_ne here]
          exact contexts fd

end Poller

/-! ## The invariant -/

/-- Every report in flight is about a socket that had its descriptor, and has it still unless the
last call on it was `remove_socket`. -/
structure InFlight (c : Polling) (flight : Flight) : Prop extends Watched c.poller where
  returned : ∀ batch, c.phase = .returned batch → ∀ report ∈ batch,
    report.data ≠ c.poller.eventFd → ∃ socket, (report, socket) ∈ flight.reports
  about : ∀ entry ∈ flight.reports, entry.2.fd = entry.1.data
  there : ∀ entry ∈ flight.reports, flight.removedLast entry.2 = false →
    c.poller.sockets entry.1.data = some entry.2

namespace InFlight

variable {c after : Polling} {flight : Flight}

theorem create (eventFd : FD) : InFlight (Polling.create eventFd) .empty where
  toWatched := Watched.create eventFd
  returned := nofun
  about := nofun
  there := nofun

/-- The event descriptor stays what it is. -/
theorem eventFd_call {p after : Poller} {op : PollerOp} (other : Polling.OtherThread (.call op))
    (returned : p.step op = .ok after) : after.eventFd = p.eventFd := by
  cases Poller.step_outcome returned with
  | updateNull | removeNull | nextEmpty | next | signal => rfl
  | update => exact (Poller.updateSocket_eq_ok returned).eventFd
  | remove socket => exact p.removeSocket_eventFd socket
  | poll => exact absurd other id

/-- A call with one socket leaves the registration of another. -/
theorem registered_other {p : Poller} {socket holder : SocketPtr} {fd : FD}
    (own : ∀ registered ∈ p.sockets socket.fd, registered = socket)
    (there : p.sockets fd = some holder) (different : socket ≠ holder)
    (value : Option SocketPtr) :
    Function.update p.sockets socket.fd value fd = some holder := by
  have apart : fd ≠ socket.fd := by
    intro clash
    rw [clash] at there
    exact different (own holder there).symm
  rw [Function.update_of_ne apart, there]

/-- A call leaves a socket in flight its descriptor, unless it removes the socket. -/
theorem call (held : InFlight c flight) {op : PollerOp} {poller : Poller}
    (other : Polling.OtherThread (.call op)) (own : c.poller.OwnDescriptor op)
    (returned : c.poller.step op = .ok poller) :
    InFlight { c with poller } { flight with window := flight.window ++ [op] } := by
  refine ⟨held.toWatched.call other returned, ?_, held.about, ?_⟩
  · intro batch phase report member foreign
    rw [eventFd_call other returned] at foreign
    exact held.returned batch phase report member foreign
  · intro entry member kept
    have fd := held.about entry member
    rw [Flight.removedLast, List.foldl_append, List.foldl_cons, List.foldl_nil] at kept
    change Flight.removal entry.2 (flight.removedLast entry.2) op = false at kept
    change poller.sockets entry.1.data = some entry.2
    cases Poller.step_outcome returned with
    | updateNull | removeNull | nextEmpty | next | signal => exact held.there entry member kept
    | @update socket =>
        rw [Poller.sockets_updateSocket returned, Poller.contextFor_socket own]
        by_cases same : socket = entry.2
        · rw [same, fd, Function.update_self]
        · rw [Flight.removal, if_neg same] at kept
          exact registered_other own (held.there entry member kept) same _
    | remove socket =>
        rw [Poller.sockets_removeSocket]
        by_cases same : socket = entry.2
        · rw [Flight.removal, if_pos same] at kept
          cases kept
        · rw [Flight.removal, if_neg same] at kept
          exact registered_other own (held.there entry member kept) same _
    | poll => exact absurd other id

/-- **Every step keeps the flight**, whatever is called while it lasts. -/
theorem step (held : InFlight c flight) {op : PollingOp} (allowed : WindowStep (c, flight) op)
    (notDue : NotDueAgain (c, flight) op) (returned : c.step op = .ok after) :
    InFlight after (Flight.note c op after flight) := by
  cases Polling.step_eq_ok returned with
  | call succeeded => exact held.call allowed.1 allowed.2 succeeded
  | due idle _ =>
      simp only [Flight.note, idle]
      refine ⟨held.toWatched, ?_, nofun, nofun⟩
      intro batch phase report member
      obtain rfl := Option.some.inj (congrArg Phase.batch phase)
      cases member
  | dueAgain interrupted due =>
      simp only [Flight.note, interrupted]
      refine ⟨held.toWatched, ?_, nofun, nofun⟩
      intro batch phase report member other
      obtain rfl := Option.some.inj (congrArg Phase.batch phase)
      obtain rfl := List.eq_of_mem_replicate member
      exact absurd (notDue interrupted due).symm other
  | @waits now head _ =>
      have forgets : ∀ next, Flight.note c (.compute now) next flight = .empty := by
        intro next
        rcases head with phase | phase
        · simp only [Flight.note, phase]
        · simp only [Flight.note, phase]
      rw [forgets]
      exact ⟨held.toWatched, nofun, nofun, nofun⟩
  | block ready =>
      simp only [Flight.note]
      exact ⟨held.toWatched, nofun, held.about, held.there⟩
  | @wakeUp wake batch asleep =>
      simp only [Flight.note, asleep]
      refine ⟨held.toWatched, ?_, ?_, ?_⟩
      · intro taken phase report member other
        obtain rfl := Option.some.inj (congrArg Phase.batch phase)
        rcases allowed report member with same | watches
        · exact absurd same other
        · cases found : c.poller.sockets report.data with
          | none =>
              rw [Poller.watches, held.registered _ other found] at watches
              cases watches
          | some socket =>
              refine ⟨socket, List.mem_filterMap.mpr ⟨report, member, ?_⟩⟩
              rw [found, Option.map_some]
      · intro entry member
        obtain ⟨report, -, found⟩ := List.mem_filterMap.mp member
        obtain ⟨socket, registered, rfl⟩ := Option.map_eq_some_iff.mp found
        obtain ⟨context, stored, rfl⟩ := Poller.sockets_eq_some.mp registered
        exact held.keys _ _ stored
      · intro entry member _
        obtain ⟨report, -, found⟩ := List.mem_filterMap.mp member
        obtain ⟨socket, registered, rfl⟩ := Option.map_eq_some_iff.mp found
        exact registered
  | interrupt asleep =>
      simp only [Flight.note]
      exact ⟨held.toWatched, nofun, held.about, held.there⟩
  | @process batch eventClock schedulerClock processed phase succeeded =>
      have quiet := allowed batch (by rw [phase]; rfl)
      have watched := held.toWatched.processEpollEvents quiet succeeded
      simp only [Flight.note]
      refine ⟨?_, nofun, held.about, ?_⟩
      · refine watched.congr (watched.toKeyed.congr ?_) ?_ ?_ ?_
        · exact processed.processScheduler_activeSockets _
        · exact processed.sockets_processScheduler _
        · exact processed.processScheduler_epollFd _
        · exact processed.processScheduler_eventFd _
      · intro entry member kept
        rw [Poller.sockets_processScheduler, Poller.sockets_processEpollEvents_quiet quiet succeeded]
        exact held.there entry member kept
  | wrongPhase wrong =>
      rw [Flight.note_of_wrongPhase wrong]
      exact held

end InFlight

/-- **Stale readiness is harmless** in the interleavings in which the last call on no socket in
flight is `remove_socket`, and no timer is due after an interrupted sleep: the batch is processed
without an invalid descriptor, and every report goes to the socket it is about. -/
theorem readiness_is_attributed {eventFd : FD} {ops : List PollingOp} {c : Polling}
    {flight : Flight} {batch : List EpollEvent} {eventClock schedulerClock : Word}
    (run : Run (observed Polling.step Flight.note) HarmlessStep (Polling.create eventFd, .empty) ops
      (c, flight))
    (call : HarmlessStep (c, flight) (.process eventClock schedulerClock))
    (returned : c.phase = .returned batch) :
    ReadinessAttributed c.poller flight.reports batch eventClock := by
  have held : InFlight c flight := by
    apply run.invariant (fun watched => InFlight watched.1 watched.2) (InFlight.create eventFd)
    intro before op after held allowed returned
    obtain ⟨stepped, noted⟩ := observed_eq_ok.mp returned
    rw [noted]
    exact held.step allowed.1 allowed.2.2 stepped
  refine Poller.attributed_of_registered ?_ (call.1 batch (by rw [returned]; rfl))
  intro report member other
  obtain ⟨socket, about⟩ := held.returned batch returned report member other
  exact ⟨socket, about, held.there _ about (call.2.1 _ about)⟩

/-- A socket is reported readable; before the report is processed, the socket is removed and
registered again. -/
def flownOps : List PollingOp :=
  [.call (.update (some ⟨0, 7, .client⟩) epollIn 1000 0 0), .compute 0, .block,
    .wakeUp [⟨7, epollIn⟩], .call (.remove (some ⟨0, 7, .client⟩)),
    .call (.update (some ⟨0, 7, .client⟩) epollIn 1000 5 5)]

def flownPolling : Polling × Flight :=
  (checkedRun (observed Polling.step Flight.note) HarmlessStep (Polling.create 3, .empty)
    flownOps).get (by decide +kernel)

theorem readiness_is_attributed_again :
    ReadinessAttributed flownPolling.1.poller flownPolling.2.reports [⟨7, epollIn⟩] 6 := by
  have run : Run (observed Polling.step Flight.note) HarmlessStep (Polling.create 3, .empty)
      flownOps flownPolling := Run.of_isSome _
  have call : HarmlessStep flownPolling (.process 6 6) := by decide +kernel
  exact readiness_is_attributed run call (by decide +kernel)

/-! ## A removed socket stops the process -/

/-- A socket is reported readable, and removed before the report is processed. -/
def removedOps : List PollingOp :=
  [.call (.update (some ⟨0, 7, .client⟩) epollIn 1000 0 0), .compute 0, .block,
    .wakeUp [⟨7, epollIn⟩], .call (.remove (some ⟨0, 7, .client⟩))]

def removedPolling : Polling × Flight :=
  (checkedRun (observed Polling.step Flight.note) WindowStep (Polling.create 3, .empty)
    removedOps).get (by decide +kernel)

/-- The batch is not processed: no socket has the descriptor. -/
theorem removed_socket_aborts :
    ¬ ∀ (eventFd : FD) (ops : List PollingOp) (c : Polling) (flight : Flight)
      (batch : List EpollEvent) (eventClock schedulerClock : Word),
      Run (observed Polling.step Flight.note) WindowStep (Polling.create eventFd, .empty) ops
        (c, flight) →
      WindowStep (c, flight) (.process eventClock schedulerClock) →
      c.phase = .returned batch →
      ReadinessAttributed c.poller flight.reports batch eventClock := by
  intro claim
  have run : Run (observed Polling.step Flight.note) WindowStep (Polling.create 3, .empty)
      removedOps removedPolling := Run.of_isSome _
  have call : WindowStep removedPolling (.process 5 5) := by decide +kernel
  have attributed := claim 3 removedOps removedPolling.1 removedPolling.2 [⟨7, epollIn⟩] 5 5 run
    call (by decide +kernel)
  exact attributed.1 rfl

end Jasl
