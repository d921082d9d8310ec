import Jasl.Poller.Registration

/-!
# Sockets without timeouts

A socket registered with `INVALID_TIME` gets no deadline and no timer. But the
step of its timeouts is the all-ones word as well, and a report adds the step to
the clock whether the direction was armed or not: the deadline becomes the reading
before the clock, and the socket is closed by a timeout it never had
(`untimed_socket_times_out`).

Without a report the deadlines stay as they are. `Untimed` is the invariant, and
`untimed_socket_never_times_out` says that a socket whose calls of `update_socket`
all pass `INVALID_TIME` never times out, in the runs that deliver no report on it
while it is registered. A stop forgets the sockets and leaves their timers, so the
socket must also not be registered over such a timer.
-/

set_option autoImplicit false

namespace Jasl

open Library

/-- The event closes its socket for a timeout. -/
def PollerEvent.timesOut (event : PollerEvent) : Bool :=
  event.closeReason.has PollerEvent.timeoutRead || event.closeReason.has PollerEvent.timeoutWrite

/-- An event built from a report is no timeout. -/
theorem PollerEvent.ofReport_timesOut (socket : SocketPtr) (mask : BitVec 32) :
    (PollerEvent.ofReport socket mask).timesOut = false := by
  obtain ⟨read, write⟩ := PollerEvent.ofReport_not_has_timeout socket mask
  rw [PollerEvent.timesOut, read, write, Bool.or_false]

/-! ## The conditions on a call -/

section Conditions

variable (socket : SocketPtr)

/-- A call of `update_socket` for the socket passes `INVALID_TIME`. -/
def PassesInvalid : PollerOp → Prop
  | .update (some updated) _ timeoutStep _ _ => updated = socket → timeoutStep = invalidTime
  | _ => True

instance : (op : PollerOp) → Decidable (PassesInvalid socket op)
  | .update (some updated) _ timeoutStep _ _ =>
      inferInstanceAs (Decidable (updated = socket → timeoutStep = invalidTime))
  | .update none .. | .remove _ | .poll .. | .next _ | .signal _ => inferInstanceAs (Decidable True)

/-- No report reaches the socket while it is registered. -/
def Unreported (p : Poller) (op : PollerOp) : Prop :=
  p.sockets socket.fd = some socket → ∀ report ∈ p.deliveredReports op, report.data ≠ socket.fd

instance (p : Poller) (op : PollerOp) : Decidable (Unreported socket p op) :=
  inferInstanceAs (Decidable (p.sockets socket.fd = some socket →
    ∀ report ∈ p.deliveredReports op, report.data ≠ socket.fd))

/-- The socket is not registered over a timer that a stop left under its descriptor. -/
def NoLeftover (p : Poller) : PollerOp → Prop
  | .update (some updated) _ _ _ _ =>
      updated = socket → p.sockets socket.fd = none → p.scheduler.deadline socket.fd = none
  | _ => True

instance (p : Poller) : (op : PollerOp) → Decidable (NoLeftover socket p op)
  | .update (some updated) _ _ _ _ =>
      inferInstanceAs (Decidable (updated = socket → p.sockets socket.fd = none →
        p.scheduler.deadline socket.fd = none))
  | .update none .. | .remove _ | .poll .. | .next _ | .signal _ => inferInstanceAs (Decidable True)

/-- What is assumed of a call: the descriptors of live sockets differ, the kernel reports what it
watches, and the socket is registered without timeouts. -/
def UntimedCall (p : Poller) (op : PollerOp) : Prop :=
  p.OwnDescriptor op ∧ p.ReportsWatched op ∧ PassesInvalid socket op

instance (p : Poller) (op : PollerOp) : Decidable (UntimedCall socket p op) :=
  inferInstanceAs (Decidable (_ ∧ _ ∧ _))

end Conditions

/-! ## The invariant -/

/-- The socket has no deadline, no timer and no timeout among the pending events. -/
structure Untimed (socket : SocketPtr) (p : Poller) : Prop extends Keyed p where
  deadlines : ∀ context, p.activeSockets socket.fd = some context → context.socket = socket →
    context.readTimeout.time = invalidTime ∧ context.writeTimeout.time = invalidTime
  timer : p.sockets socket.fd = some socket → p.scheduler.deadline socket.fd = none
  events : ∀ event ∈ p.outEvents, event.socket = some socket → event.timesOut = false

namespace Untimed

variable {socket : SocketPtr} {p after : Poller}

theorem create (eventFd : FD) : Untimed socket (Poller.create eventFd) where
  toKeyed := Keyed.create eventFd
  deadlines := nofun
  timer := nofun
  events := fun _ member => absurd member (KeyedSet.not_mem_empty _)

theorem congr (untimed : Untimed socket p) (sockets : after.activeSockets = p.activeSockets)
    (timers : after.scheduler.deadline = p.scheduler.deadline)
    (events : ∀ event ∈ after.outEvents, event ∈ p.outEvents) : Untimed socket after where
  toKeyed := untimed.toKeyed.congr sockets
  deadlines := by
    rw [sockets]
    exact untimed.deadlines
  timer := by
    rw [Poller.sockets_congr sockets, timers]
    exact untimed.timer
  events := fun event member => untimed.events event (events event member)

/-- A change under another descriptor leaves the socket as it is. -/
theorem store_other (untimed : Untimed socket p) {fd : FD} {context : Option SocketContext}
    (other : fd ≠ socket.fd) (keyed : Keyed after)
    (sockets : after.activeSockets = Function.update p.activeSockets fd context)
    (timers : after.scheduler.deadline socket.fd = p.scheduler.deadline socket.fd)
    (events : ∀ event ∈ after.outEvents, event.socket = some socket → event.timesOut = false) :
    Untimed socket after where
  toKeyed := keyed
  deadlines := by
    rw [sockets, Function.update_of_ne other.symm]
    exact untimed.deadlines
  timer := by
    rw [Poller.sockets_store sockets, Function.update_of_ne other.symm, timers]
    exact untimed.timer
  events := events

/-- While another socket, or none, is registered under the descriptor, only the events matter. -/
theorem of_unregistered (keyed : Keyed after) (absent : after.sockets socket.fd ≠ some socket)
    (events : ∀ event ∈ after.outEvents, event.socket = some socket → event.timesOut = false) :
    Untimed socket after where
  toKeyed := keyed
  deadlines := fun context found same =>
    absurd (Poller.sockets_eq_some.mpr ⟨context, found, same⟩) absent
  timer := fun registered => absurd registered absent
  events := events

theorem updateSocket (untimed : Untimed socket p) {updated : SocketPtr}
    {eventMask timeoutStep readClock writeClock : Word}
    (own : ∀ registered ∈ p.sockets updated.fd, registered = updated)
    (passes : updated = socket → timeoutStep = invalidTime)
    (leftover : updated = socket → p.sockets socket.fd = none →
      p.scheduler.deadline socket.fd = none)
    (returned : p.updateSocket (some updated) eventMask timeoutStep readClock writeClock =
      .ok after) : Untimed socket after := by
  have effect := Poller.updateSocket_eq_ok returned
  have keyed := untimed.toKeyed.updateSocket returned
  have belongs := Poller.contextFor_socket own
  have events : ∀ event ∈ after.outEvents, event.socket = some socket →
      event.timesOut = false := by
    rw [effect.outEvents]
    exact untimed.events
  by_cases same : updated = socket
  · subst same
    have unchanged := congrArg (fun s : Scheduler => s.deadline) (effect.untimed (passes rfl))
    have context : p.updatedContext updated eventMask timeoutStep readClock writeClock =
        p.contextFor updated := if_pos (passes rfl)
    refine ⟨keyed, ?_, ?_, events⟩
    · intro stored found _
      rw [effect.activeSockets, Function.update_self, context, Option.some.injEq] at found
      rw [← found]
      cases registered : p.activeSockets updated.fd with
      | none =>
          rw [Poller.contextFor_of_none registered]
          exact ⟨rfl, rfl⟩
      | some old =>
          rw [Poller.contextFor_of_some registered] at belongs ⊢
          exact untimed.deadlines old registered belongs
    · intro _
      rw [unchanged]
      cases registered : p.sockets updated.fd with
      | none => exact leftover rfl registered
      | some old => exact untimed.timer (registered.trans (congrArg some (own old registered)))
  · by_cases clash : updated.fd = socket.fd
    · refine of_unregistered keyed ?_ events
      rw [Poller.sockets_updateSocket returned, clash, Function.update_self, belongs]
      exact fun equal => same (Option.some.inj equal)
    · refine untimed.store_other clash keyed effect.activeSockets ?_ events
      by_cases timed : timeoutStep = invalidTime
      · exact congrFun (congrArg (fun s : Scheduler => s.deadline) (effect.untimed timed)) _
      · rw [effect.timed timed, belongs, Function.update_of_ne (Ne.symm clash)]

theorem removeSocket (untimed : Untimed socket p) (removed : SocketPtr) :
    Untimed socket (p.removeSocket (some removed)) := by
  have keyed := untimed.toKeyed.removeSocket removed
  have events : ∀ event ∈ (p.removeSocket (some removed)).outEvents, event.socket = some socket →
      event.timesOut = false := by
    intro event member
    rw [Poller.removeSocket_outEvents] at member
    split at member
    · exact untimed.events event member
    · exact untimed.events event (KeyedSet.mem_erase.mp member).1
  by_cases clash : removed.fd = socket.fd
  · refine of_unregistered keyed ?_ events
    rw [Poller.sockets_removeSocket, clash, Function.update_self]
    exact nofun
  · refine untimed.store_other clash keyed (p.removeSocket_activeSockets removed) ?_ events
    rw [Poller.removeSocket_deadline]
    split
    · rfl
    · rw [Function.update_of_ne (Ne.symm clash)]

/-- A report on another descriptor leaves the socket without a timeout. -/
theorem processReport (untimed : Untimed socket p) {report : EpollEvent} {currentTime : Word}
    (other : p.sockets socket.fd = some socket → report.data ≠ socket.fd)
    (returned : p.processReport report currentTime = .ok after) : Untimed socket after := by
  obtain ⟨context, effect⟩ := Poller.processReport_eq_ok returned
  have keyed := untimed.toKeyed.processReport returned
  have events : ∀ event ∈ after.outEvents, event.socket = some socket →
      event.timesOut = false := by
    intro event member belongs
    rw [effect.outEvents] at member
    rcases KeyedSet.mem_insert.mp member with pending | ⟨rfl, -⟩
    · exact untimed.events event pending belongs
    · exact PollerEvent.ofReport_timesOut _ _
  by_cases registered : p.sockets socket.fd = some socket
  · refine untimed.store_other (other registered) keyed effect.activeSockets ?_ events
    rw [effect.deadline, Function.update_of_ne (other registered).symm]
  · refine of_unregistered keyed ?_ events
    rw [Poller.sockets_processReport returned]
    exact registered

theorem processEpollEvents (untimed : Untimed socket p) {batch : List EpollEvent}
    {currentTime : Word}
    (other : p.sockets socket.fd = some socket →
      ∀ report ∈ Poller.delivered p.eventFd p.eventCount batch, report.data ≠ socket.fd)
    (returned : p.processEpollEvents batch currentTime = .ok after) : Untimed socket after := by
  -- no report registers a socket, so the condition at the start holds at every report
  have kept := Poller.processEpollEvents_invariant
    (fun q => Untimed socket q ∧
      (q.sockets socket.fd = some socket → p.sockets socket.fd = some socket))
    ?_ ?_ ?_ ?_ ⟨untimed, id⟩ returned
  · exact kept.1
  · intro before report next member ⟨held, was⟩ processed
    refine ⟨held.processReport (fun registered => other (was registered) report member) processed,
      ?_⟩
    rw [Poller.sockets_processReport processed]
    exact was
  · intro before _ ⟨held, was⟩
    exact ⟨held.congr rfl rfl fun _ => id, was⟩
  · intro before _ _ _
    exact ⟨of_unregistered ⟨nofun⟩ nofun fun _ member => absurd member (KeyedSet.not_mem_empty _),
      nofun⟩
  · intro before size ⟨held, was⟩
    exact ⟨held.congr rfl rfl fun _ => id, was⟩

/-- A turn of the loop pops the timer of another socket. -/
theorem schedulerTurn (untimed : Untimed socket p) {now : Word} {payload : EventPayload}
    (turn : p.schedulerTurn now = some (payload, after)) : Untimed socket after := by
  obtain ⟨time, scheduler, due, timers, -, outcome⟩ := Poller.schedulerTurn_eq_some turn
  have foreign : ∀ context, p.activeSockets payload = some context →
      context.socket ≠ socket := by
    intro context found same
    have key := untimed.keys payload context found
    rw [same] at key
    have none := untimed.timer (Poller.sockets_eq_some.mpr ⟨context, key ▸ found, same⟩)
    rw [key, due.entry] at none
    cases none
  have popped : Untimed socket { p with scheduler } := by
    refine ⟨untimed.toKeyed.congr rfl, untimed.deadlines, ?_, untimed.events⟩
    intro registered
    rw [timers]
    exact TimerMap.removed_eq_none (untimed.timer registered) payload
  cases outcome with
  | unknown _ => exact popped
  | early _ _ => exact popped
  | @closes context found _ _ =>
      refine ⟨popped.toKeyed.congr rfl, popped.deadlines, popped.timer, ?_⟩
      intro event member belongs
      rcases KeyedSet.mem_insert.mp member with pending | ⟨rfl, -⟩
      · exact untimed.events event pending belongs
      · exact absurd (Option.some.inj belongs) (foreign context found)
  | closing _ _ _ _ => exact popped
  | masked _ _ _ _ _ => exact popped
  | @joins context pending found _ taken _ _ =>
      refine ⟨popped.toKeyed.congr rfl, popped.deadlines, ?_, ?_⟩
      · intro registered
        rw [Scheduler.deadline_deleteEvent]
        exact TimerMap.removed_eq_none (popped.timer registered) context.socket.fd
      · intro event member belongs
        rcases KeyedSet.mem_insert.mp member with kept | ⟨rfl, -⟩
        · exact untimed.events event (KeyedSet.mem_erase.mp kept).1 belongs
        · have owner : pending.socket = some context.socket := (KeyedSet.find_eq_some.mp taken).2
          exact absurd (Option.some.inj (owner.symm.trans belongs)) (foreign context found)

/-- **Every call leaves the socket without a timeout** that delivers no report on it. -/
theorem step (untimed : Untimed socket p) {op : PollerOp} (call : UntimedCall socket p op)
    (unreported : Unreported socket p op) (leftover : NoLeftover socket p op)
    (returned : p.step op = .ok after) : Untimed socket after := by
  obtain ⟨own, -, passes⟩ := call
  cases Poller.step_outcome returned with
  | updateNull | removeNull | nextEmpty => exact untimed
  | update => exact untimed.updateSocket own passes leftover returned
  | remove removed => exact untimed.removeSocket removed
  | poll succeeded =>
      exact Poller.processScheduler_invariant (Untimed socket)
        (fun _ _ _ held turn => held.schedulerTurn turn)
        (untimed.processEpollEvents unreported succeeded)
  | next => exact untimed.congr rfl rfl fun _ member => (KeyedSet.mem_erase.mp member).1
  | signal => exact untimed.congr rfl rfl fun _ => id

end Untimed

/-- What the poller promises a socket registered without timeouts: while it is registered it has
no deadline and no timer, and no pending event closes it for a timeout. -/
def NeverTimesOut (socket : SocketPtr) (p : Poller) : Prop :=
  (∀ context, p.activeSockets socket.fd = some context → context.socket = socket →
    context.readTimeout.time = invalidTime ∧ context.writeTimeout.time = invalidTime ∧
      p.scheduler.deadline socket.fd = none) ∧
  ∀ event ∈ p.outEvents, event.socket = some socket → event.timesOut = false

/-- **A socket registered without timeouts never times out** in the runs that deliver no report on
it while it is registered, and never register it over a timer left by a stop. -/
theorem untimed_socket_never_times_out {socket : SocketPtr} {eventFd : FD} {ops : List PollerOp}
    {p : Poller}
    (run : Run Poller.step
      (fun p op => UntimedCall socket p op ∧ Unreported socket p op ∧ NoLeftover socket p op)
      (Poller.create eventFd) ops p) : NeverTimesOut socket p := by
  have untimed : Untimed socket p :=
    run.invariant (Untimed socket) (Untimed.create eventFd) fun _ _ _ held call returned =>
      held.step call.1 call.2.1 call.2.2 returned
  refine ⟨?_, untimed.events⟩
  intro context found same
  obtain ⟨read, write⟩ := untimed.deadlines context found same
  exact ⟨read, write, untimed.timer (Poller.sockets_eq_some.mpr ⟨context, found, same⟩)⟩

/-- Two sockets, one of them without timeouts; the timer of the other one expires at 15. -/
def untimedPoller : Poller :=
  (checkedRun Poller.step
    (fun p op => UntimedCall ⟨0, 7, .client⟩ p op ∧ Unreported ⟨0, 7, .client⟩ p op ∧
      NoLeftover ⟨0, 7, .client⟩ p op) (Poller.create 3)
    [.update (some ⟨0, 7, .client⟩) epollIn invalidTime 5 5,
      .update (some ⟨1, 8, .client⟩) epollIn 10 5 5,
      .poll [] 15 15 15]).get (by decide +kernel)

theorem untimed_socket_never_times_out_quiet :
    untimedPoller.sockets 7 = some ⟨0, 7, .client⟩ ∧ NeverTimesOut ⟨0, 7, .client⟩ untimedPoller :=
  ⟨by decide +kernel, untimed_socket_never_times_out (Run.of_isSome _)⟩

/-! ## A report brings the timeout about -/

/-- A socket without timeouts is reported readable at 10 and, its event taken, writable at 20. -/
def reportedPoller : Poller :=
  (checkedRun Poller.step (UntimedCall ⟨0, 7, .client⟩) (Poller.create 3)
    [.update (some ⟨0, 7, .client⟩) epollIn invalidTime 5 5,
      .poll [⟨7, epollIn⟩] 10 10 10,
      .next 0,
      .update (some ⟨0, 7, .client⟩) epollOut invalidTime 15 15,
      .poll [⟨7, epollOut⟩] 20 20 20]).get (by decide +kernel)

/-- The second report closes the socket for a read timeout. -/
theorem untimed_socket_times_out :
    ¬ ∀ (socket : SocketPtr) (eventFd : FD) (ops : List PollerOp) (p : Poller),
      Run Poller.step (UntimedCall socket) (Poller.create eventFd) ops p →
        NeverTimesOut socket p := by
  intro claim
  have never := claim _ _ _ reportedPoller (Run.of_isSome _)
  have pending : reportedPoller.outEvents.elements =
      [⟨some ⟨0, 7, .client⟩, PollerEvent.write ||| PollerEvent.close, PollerEvent.timeoutRead⟩] := by
    decide +kernel
  have closes := never.2
    ⟨some ⟨0, 7, .client⟩, PollerEvent.write ||| PollerEvent.close, PollerEvent.timeoutRead⟩
    (KeyedSet.mem_elements.mp (pending ▸ List.mem_singleton_self _)) rfl
  exact absurd closes (by decide +kernel)

end Jasl
