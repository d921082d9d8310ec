import Jasl.Poller.Registration

/-!
# The timers agree with the contexts

The scheduler holds a copy of a deadline that the poller changes in place: by a
step change, by arming, by readiness. `TimersAgree` says that every timer belongs
to a registered socket and stands at the nearer of its two deadlines. Every call
keeps it (`TimersAgree.step`), whatever the clock and the kernel answer, as long
as no assertion fails and no stop is processed; a stop forgets the sockets and
leaves their timers.

So whenever `process_scheduler` pops a timer, its socket is registered and has
timed out in some direction (`scheduler_agrees_with_contexts`).
-/

set_option autoImplicit false

namespace Jasl

open Library

/-- Every timer is that of a registered socket, at its nearer deadline. -/
structure TimersAgree (p : Poller) : Prop extends Keyed p where
  scheduled : ∀ fd time, p.scheduler.deadline fd = some time →
    ∃ context, p.activeSockets fd = some context ∧ time = context.nearest

namespace TimersAgree

variable {p after : Poller}

theorem create (eventFd : FD) : TimersAgree (Poller.create eventFd) where
  toKeyed := Keyed.create eventFd
  scheduled := nofun

/-- A descriptor without a context has no timer. -/
theorem deadline_of_absent (agree : TimersAgree p) {fd : FD} (absent : p.activeSockets fd = none) :
    p.scheduler.deadline fd = none := by
  rw [Option.eq_none_iff_forall_ne_some]
  intro time scheduled
  obtain ⟨context, found, -⟩ := agree.scheduled fd time scheduled
  cases absent.symm.trans found

/-- A timer that is due belongs to a socket that has timed out. -/
theorem due_context (agree : TimersAgree p) {now time : Word} {payload : EventPayload}
    (due : p.scheduler.deadline.Due now payload time) :
    ∃ context, p.activeSockets payload = some context ∧ time = context.nearest ∧
      context.getTimeoutType now ≠ 0 := by
  obtain ⟨context, found, rfl⟩ := agree.scheduled payload time due.entry
  exact ⟨context, found, rfl,
    fun zero => absurd due.reached (not_le.mpr (SocketContext.getTimeoutType_eq_zero.mp zero))⟩

/-- Agreement looks at the contexts and the timers only. -/
theorem congr (agree : TimersAgree p) (sockets : after.activeSockets = p.activeSockets)
    (timers : after.scheduler.deadline = p.scheduler.deadline) : TimersAgree after where
  toKeyed := agree.toKeyed.congr sockets
  scheduled := by
    rw [sockets, timers]
    exact agree.scheduled

/-- Dropping timers keeps the agreement. -/
theorem mono (agree : TimersAgree p) (sockets : after.activeSockets = p.activeSockets)
    (timers : ∀ fd time, after.scheduler.deadline fd = some time →
      p.scheduler.deadline fd = some time) : TimersAgree after where
  toKeyed := agree.toKeyed.congr sockets
  scheduled := by
    intro fd time scheduled
    rw [sockets]
    exact agree.scheduled fd time (timers fd time scheduled)

/-- Storing a context together with its timer keeps the agreement. -/
theorem store (agree : TimersAgree p) {fd : FD} {context : SocketContext}
    (key : context.socket.fd = fd)
    (sockets : after.activeSockets = Function.update p.activeSockets fd (some context))
    (timers : after.scheduler.deadline =
      Function.update p.scheduler.deadline fd (some context.nearest)) : TimersAgree after where
  toKeyed := agree.toKeyed.store key sockets
  scheduled := by
    intro other time scheduled
    rw [timers] at scheduled
    rw [sockets]
    by_cases same : other = fd
    · subst same
      rw [Function.update_self, Option.some.injEq] at scheduled
      exact ⟨context, Function.update_self .., scheduled.symm⟩
    · rw [Function.update_of_ne same] at scheduled ⊢
      exact agree.scheduled other time scheduled

/-! ## Each call -/

theorem updateSocket (agree : TimersAgree p) {socket : SocketPtr}
    {eventMask timeoutStep readClock writeClock : Word}
    (returned : p.updateSocket (some socket) eventMask timeoutStep readClock writeClock =
      .ok after) : TimersAgree after := by
  have effect := Poller.updateSocket_eq_ok returned
  have key := agree.toKeyed.contextFor_fd socket
  by_cases timed : timeoutStep = invalidTime
  · -- no deadline changes; a new context has no timer
    have context : p.updatedContext socket eventMask timeoutStep readClock writeClock =
        p.contextFor socket := if_pos timed
    have timers := congrArg (fun s : Scheduler => s.deadline) (effect.untimed timed)
    refine ⟨agree.toKeyed.updateSocket returned, ?_⟩
    intro fd time scheduled
    rw [timers] at scheduled
    obtain ⟨stored, found, nearest⟩ := agree.scheduled fd time scheduled
    refine ⟨stored, ?_, nearest⟩
    rw [effect.activeSockets, context]
    by_cases same : fd = socket.fd
    · subst same
      rw [Function.update_self, Poller.contextFor_of_some found]
    · rw [Function.update_of_ne same]
      exact found
  · refine agree.store ?_ effect.activeSockets ?_
    · rw [Poller.updatedContext_socket]
      exact key
    · rw [effect.timed timed, key]

theorem removeSocket (agree : TimersAgree p) (socket : SocketPtr) :
    TimersAgree (p.removeSocket (some socket)) := by
  have timers : (p.removeSocket (some socket)).scheduler.deadline =
      Function.update p.scheduler.deadline socket.fd none := by
    rw [Poller.removeSocket_deadline]
    split
    · rename_i absent
      have none := agree.deadline_of_absent (Option.isNone_iff_eq_none.mp absent)
      rw [← none, Function.update_eq_self]
    · rfl
  refine ⟨agree.toKeyed.removeSocket socket, ?_⟩
  intro fd time scheduled
  rw [timers] at scheduled
  rw [Poller.removeSocket_activeSockets]
  by_cases same : fd = socket.fd
  · subst same
    rw [Function.update_self] at scheduled
    cases scheduled
  · rw [Function.update_of_ne same] at scheduled ⊢
    exact agree.scheduled fd time scheduled

theorem processReport (agree : TimersAgree p) {report : EpollEvent} {currentTime : Word}
    (returned : p.processReport report currentTime = .ok after) : TimersAgree after := by
  obtain ⟨context, effect⟩ := Poller.processReport_eq_ok returned
  have key := agree.keys _ _ effect.found
  refine agree.store ?_ effect.activeSockets effect.deadline
  rw [SocketContext.refresh_socket]
  exact key

theorem processEpollEvents (agree : TimersAgree p) {batch : List EpollEvent} {currentTime : Word}
    (quiet : ¬ p.StopReported batch)
    (returned : p.processEpollEvents batch currentTime = .ok after) : TimersAgree after :=
  Poller.processEpollEvents_quiet (fun q (_ : Unit) => TimersAgree q) (fun value _ => value) quiet
    (fun _ _ _ _ _ _ held processed => held.processReport processed)
    (fun _ _ held => held.congr rfl rfl) (fun _ _ _ held => held.congr rfl rfl) () agree returned

/-- A turn of the loop drops timers, and changes no context. -/
theorem schedulerTurn (agree : TimersAgree p) {now : Word} {payload : EventPayload}
    (turn : p.schedulerTurn now = some (payload, after)) : TimersAgree after :=
  agree.mono (Poller.schedulerTurn_activeSockets turn)
    fun _ _ scheduled => Poller.schedulerTurn_deadline turn scheduled

theorem schedulerTurns (agree : TimersAgree p) (now : Word) (turns : ℕ) :
    TimersAgree (p.schedulerTurns now turns) :=
  Poller.schedulerTurns_invariant TimersAgree (fun _ _ _ held turn => held.schedulerTurn turn)
    turns agree

theorem getNextEvent (agree : TimersAgree p) (position : ℕ) :
    TimersAgree (p.getNextEvent position).2 := by
  rw [Poller.getNextEvent]
  split
  · exact agree
  · exact agree.congr rfl rfl

/-- **Every call keeps the agreement** that processes no stop and fails no assertion. -/
theorem step (agree : TimersAgree p) {op : PollerOp} (quiet : ¬ p.ReadsStop op)
    (returned : p.step op = .ok after) : TimersAgree after := by
  cases Poller.step_outcome returned with
  | updateNull | removeNull | nextEmpty => exact agree
  | update => exact agree.updateSocket returned
  | remove socket => exact agree.removeSocket socket
  | poll succeeded => exact (agree.processEpollEvents quiet succeeded).schedulerTurns _ _
  | next | signal => exact agree.congr rfl rfl

/-- **Every run keeps the agreement** in which no stop is processed. -/
theorem run {eventFd : FD} {ops : List PollerOp}
    (run : Run Poller.step (fun p op => ¬ p.ReadsStop op) (Poller.create eventFd) ops p) :
    TimersAgree p :=
  run.invariant TimersAgree (create eventFd) fun _ _ _ held quiet returned => held.step quiet returned

end TimersAgree

/-- **Scheduler entries agree with socket contexts.** In every state that calls on a poller reach
without a failed assertion and without a stop, each timer is that of a registered socket and stands
at the nearer of its deadlines; and whenever the loop of `process_scheduler`, after any number of
turns in any poll, pops a payload, the socket is found and has timed out in some direction. -/
theorem scheduler_agrees_with_contexts {eventFd : FD} {ops : List PollerOp} {p : Poller}
    (run : Run Poller.step (fun p op => ¬ p.ReadsStop op) (Poller.create eventFd) ops p) :
    (∀ fd time, p.scheduler.deadline fd = some time →
      ∃ context, p.activeSockets fd = some context ∧
        time = min context.readTimeout.time context.writeTimeout.time) ∧
    ∀ batch waitClock eventClock schedulerClock turns processed payload scheduler,
      ¬ p.ReadsStop (.poll batch waitClock eventClock schedulerClock) →
      p.processEpollEvents (p.getEpollEvents waitClock batch) eventClock = .ok processed →
      (processed.schedulerTurns schedulerClock turns).scheduler.getNextEvent schedulerClock =
        some (payload, scheduler) →
      ∃ context,
        (processed.schedulerTurns schedulerClock turns).activeSockets payload = some context ∧
          context.getTimeoutType schedulerClock ≠ 0 := by
  have agree := TimersAgree.run run
  refine ⟨agree.scheduled, ?_⟩
  intro batch waitClock eventClock schedulerClock turns processed payload scheduler quiet
    succeeded taken
  have reached := (agree.processEpollEvents quiet succeeded).schedulerTurns schedulerClock turns
  obtain ⟨time, due, -⟩ := Scheduler.getNextEvent_eq_some taken
  obtain ⟨context, found, -, expired⟩ := reached.due_context due
  exact ⟨context, found, expired⟩

/-- The poller after a socket with descriptor 7 was registered at clock 5 for reads within 10. -/
def armedPoller : Poller :=
  (checkedRun Poller.step (fun p op => ¬ p.ReadsStop op) (Poller.create 3)
    [.update (some ⟨0, 7, .client⟩) epollIn 10 5 5]).get (by decide)

/-- Its timer is the read deadline of its socket. -/
theorem scheduler_agrees_with_contexts_armed :
    armedPoller.scheduler.deadline 7 = some 15 ∧
      ∃ context, armedPoller.activeSockets 7 = some context ∧
        15 = min context.readTimeout.time context.writeTimeout.time :=
  ⟨by decide, (scheduler_agrees_with_contexts (Run.of_isSome _)).1 7 15 (by decide)⟩

end Jasl
