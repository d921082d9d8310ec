import Jasl.Poller.TimersAgree

/-!
# No timer is lost

A socket with a deadline should have a timer until it is closed. The loop of
`process_scheduler` pops the timer first and then looks at the pending event of
the socket. When the event is ready itself in every direction that has timed out,
the body does nothing, and the popped timer is gone: the socket stays registered
and no timeout will ever close it (`masked_timer_is_lost`).

`Kept` is the invariant, and `no_timer_is_lost` says that the timers are kept in
the runs in which no poll meets that branch. An observer notes for each socket
whether a CLOSE event was produced for it since it was registered (`noteClosed`).
-/

set_option autoImplicit false

namespace Jasl

open Library

/-! ## The observer -/

/-- The sockets a CLOSE event was produced for. -/
abbrev Closed := SocketPtr → Bool

theorem PollerEvent.close_has_close : PollerEvent.close.has PollerEvent.close = true := by
  decide

namespace Poller

/-- A CLOSE event is pending for the socket. -/
def closing (p : Poller) (socket : SocketPtr) : Bool :=
  match p.outEvents.find (some socket) with
  | none => false
  | some event => event.action.has PollerEvent.close

/-- The socket is registered now and was not before. -/
def newlyRegistered (before after : Poller) (socket : SocketPtr) : Bool :=
  decide (after.sockets socket.fd = some socket) && decide (before.sockets socket.fd ≠ some socket)

/-- A CLOSE event was produced for the socket since it was registered. -/
def noteClosed (before : Poller) (_ : PollerOp) (after : Poller) (closed : Closed) : Closed :=
  fun socket => after.closing socket || closed socket && !newlyRegistered before after socket

/-! ## The branch that drops a timer -/

/-- The body of the loop of `process_scheduler` does nothing for a due timer under the descriptor:
the pending event is ready in every direction that has timed out. -/
def dropsTimer (p : Poller) (closed : Closed) (now : Word) (fd : FD) : Bool :=
  match p.activeSockets fd with
  | none => false
  | some context =>
      !closed context.socket &&
        match p.outEvents.find (some context.socket) with
        | none => false
        | some event =>
            !event.action.has PollerEvent.close &&
              unmaskedTimeouts event.action (context.getTimeoutType now) == 0

/-- No due timer is dropped. -/
def DropsNone (p : Poller) (closed : Closed) (now : Word) : Prop :=
  p.EveryDue now fun fd => !p.dropsTimer closed now fd

/-- No poll meets the branch: once the reports are processed, no due timer is dropped. -/
def PollDropsNone (p : Poller) (closed : Closed) : PollerOp → Prop
  | .poll batch waitClock eventClock schedulerClock =>
      (p.afterReports batch waitClock eventClock).DropsNone closed schedulerClock
  | _ => True

instance (p : Poller) (closed : Closed) : (op : PollerOp) → Decidable (p.PollDropsNone closed op)
  | .poll batch waitClock eventClock schedulerClock =>
      inferInstanceAs (Decidable ((p.afterReports batch waitClock eventClock).EveryDue schedulerClock
        fun fd => !(p.afterReports batch waitClock eventClock).dropsTimer closed schedulerClock fd))
  | .update .. | .remove _ | .next _ | .signal _ => inferInstanceAs (Decidable True)

/-- No stop is processed and no due timer is dropped. -/
def KeepsTimers (watched : Poller × Closed) (op : PollerOp) : Prop :=
  ¬ watched.1.ReadsStop op ∧ watched.1.PollDropsNone watched.2 op

instance (watched : Poller × Closed) (op : PollerOp) : Decidable (KeepsTimers watched op) :=
  inferInstanceAs (Decidable (_ ∧ _))

variable {p after : Poller}

theorem closing_of_find {socket : SocketPtr}
    (same : after.outEvents.find (some socket) = p.outEvents.find (some socket)) :
    after.closing socket = p.closing socket := by
  rw [closing, closing, same]

/-- An insertion hides no pending close. -/
theorem closing_of_insert {event : PollerEvent} {socket : SocketPtr}
    (events : after.outEvents = p.outEvents.insert event)
    (open_ : after.closing socket = false) : p.closing socket = false := by
  rw [closing] at open_ ⊢
  rw [events, KeyedSet.find_insert] at open_
  cases found : p.outEvents.find (some socket) with
  | none => rfl
  | some pending =>
      rw [found, Option.some_or] at open_
      exact open_

/-- A socket that was registered before and is not noted after was not noted before. -/
theorem closed_of_noteClosed {op : PollerOp} {closed : Closed} {socket : SocketPtr}
    (open_ : noteClosed p op after closed socket = false)
    (was : p.sockets socket.fd = some socket) : closed socket = false := by
  rw [noteClosed, Bool.or_eq_false_iff] at open_
  simpa [newlyRegistered, was] using open_.2

end Poller

/-! ## The invariant -/

/-- Every socket with a deadline has its timer, unless a CLOSE event was produced for it. -/
structure Kept (p : Poller) (closed : Closed) : Prop extends TimersAgree p where
  timer : ∀ fd context, p.activeSockets fd = some context → context.nearest ≠ invalidTime →
    closed context.socket = false → p.closing context.socket = false →
      p.scheduler.deadline fd = some context.nearest

namespace Kept

variable {p after : Poller} {closed : Closed}

theorem create (eventFd : FD) : Kept (Poller.create eventFd) closed where
  toTimersAgree := TimersAgree.create eventFd
  timer := nofun

theorem congr (kept : Kept p closed) (sockets : after.activeSockets = p.activeSockets)
    (timers : after.scheduler.deadline = p.scheduler.deadline)
    (events : after.outEvents = p.outEvents) : Kept after closed where
  toTimersAgree := kept.toTimersAgree.congr sockets timers
  timer := by
    intro fd context found valid open_ noClose
    rw [timers]
    apply kept.timer fd context (sockets ▸ found) valid open_
    rwa [← Poller.closing_of_find (p := p) (by rw [events])]

theorem processReport (kept : Kept p closed) {report : EpollEvent} {currentTime : Word}
    (returned : p.processReport report currentTime = .ok after) : Kept after closed := by
  obtain ⟨context, effect⟩ := Poller.processReport_eq_ok returned
  refine ⟨kept.toTimersAgree.processReport returned, ?_⟩
  intro fd stored found valid open_ noClose
  rw [effect.activeSockets] at found
  rw [effect.deadline]
  by_cases same : fd = report.data
  · rw [same, Function.update_self, Option.some.injEq] at found
    rw [same, Function.update_self, found]
  · rw [Function.update_of_ne same] at found ⊢
    exact kept.timer fd stored found valid open_ (Poller.closing_of_insert effect.outEvents noClose)

theorem processEpollEvents (kept : Kept p closed) {batch : List EpollEvent} {currentTime : Word}
    (quiet : ¬ p.StopReported batch)
    (returned : p.processEpollEvents batch currentTime = .ok after) : Kept after closed :=
  Poller.processEpollEvents_quiet (fun q (_ : Unit) => Kept q closed) (fun value _ => value) quiet
    (fun _ _ _ _ _ _ held processed => held.processReport processed)
    (fun _ _ held => held.congr rfl rfl rfl) (fun _ _ _ held => held.congr rfl rfl rfl)
    () kept returned

end Kept

/-- In the loop of `process_scheduler` the timers still there stand as they did at the start, and
so do the pending events of their sockets. -/
structure KeptSince (start : Poller) (closed : Closed) (p : Poller) : Prop extends Kept p closed where
  sockets : p.activeSockets = start.activeSockets
  pending : ∀ fd time context, p.scheduler.deadline fd = some time →
    p.activeSockets fd = some context → start.scheduler.deadline fd = some time ∧
      p.outEvents.find (some context.socket) = start.outEvents.find (some context.socket)

namespace KeptSince

variable {start p after : Poller} {closed : Closed}

/-- A turn takes the timer of one socket away, and leaves the other sockets their timers and
events. -/
theorem popped (kept : KeptSince start closed p) {fd : FD} {context : SocketContext}
    (found : p.activeSockets fd = some context) (agree : TimersAgree after)
    (sockets : after.activeSockets = p.activeSockets)
    (timers : after.scheduler.deadline = Function.update p.scheduler.deadline fd none)
    (events : ∀ socket, socket ≠ context.socket →
      after.outEvents.find (some socket) = p.outEvents.find (some socket))
    (closes : closed context.socket = false → after.closing context.socket = true) :
    KeptSince start closed after := by
  have foreign : ∀ other stored, other ≠ fd → p.activeSockets other = some stored →
      stored.socket ≠ context.socket := by
    intro other stored different inMap same
    apply different
    rw [← kept.keys other stored inMap, ← kept.keys fd context found, same]
  refine ⟨⟨agree, ?_⟩, sockets.trans kept.sockets, ?_⟩
  · intro other stored inMap valid open_ noClose
    rw [sockets] at inMap
    by_cases same : other = fd
    · rw [same, found, Option.some.injEq] at inMap
      rw [← inMap] at open_ noClose
      rw [closes open_] at noClose
      cases noClose
    · rw [timers, Function.update_of_ne same]
      apply kept.timer other stored inMap valid open_
      rwa [← Poller.closing_of_find (events _ (foreign other stored same inMap))]
  · intro other time stored scheduled inMap
    rw [sockets] at inMap
    rw [timers] at scheduled
    by_cases same : other = fd
    · rw [same, Function.update_self] at scheduled
      cases scheduled
    · rw [Function.update_of_ne same] at scheduled
      rw [events _ (foreign other stored same inMap)]
      exact kept.pending other time stored scheduled inMap

/-- A turn that does not take the branch keeps the timers of the sockets that stay open. -/
theorem turn (kept : KeptSince start closed p) {now : Word} {payload : EventPayload}
    (drops : start.DropsNone closed now)
    (turn : p.schedulerTurn now = some (payload, after)) : KeptSince start closed after := by
  have agree := kept.toTimersAgree.schedulerTurn turn
  obtain ⟨time, scheduler, due, timers, -, outcome⟩ := Poller.schedulerTurn_eq_some turn
  obtain ⟨context, found, -, expired⟩ := kept.toTimersAgree.due_context due
  have events : ∀ socket, socket ≠ context.socket →
      after.outEvents.find (some socket) = p.outEvents.find (some socket) := by
    intro socket other
    refine outcome.find_of_other fun stored same equal => other ?_
    obtain rfl := Option.some.inj (found.symm.trans same)
    exact Option.some.inj equal
  cases outcome with
  | unknown absent => cases absent.symm.trans found
  | early same zero =>
      obtain rfl := Option.some.inj (found.symm.trans same)
      exact absurd zero expired
  | closes same _ absent =>
      obtain rfl := Option.some.inj (found.symm.trans same)
      apply kept.popped found agree rfl timers events
      · intro _
        rw [Poller.closing, KeyedSet.find_insert, absent, if_pos rfl, Option.none_or]
        exact PollerEvent.close_has_close
  | closing same _ pending close =>
      obtain rfl := Option.some.inj (found.symm.trans same)
      apply kept.popped found agree rfl timers events
      intro _
      rw [Poller.closing, pending]
      exact close
  | @masked _ event same _ pending open_ left =>
      obtain rfl := Option.some.inj (found.symm.trans same)
      apply kept.popped found agree rfl timers events
      intro notClosed
      -- the timer and the event stood so at the start, where the branch is excluded
      obtain ⟨scheduled, unchanged⟩ := kept.pending payload time context due.entry found
      have excluded := Poller.EveryDue.at_timer drops scheduled due.reached
      rw [Bool.not_eq_true', Poller.dropsTimer, ← kept.sockets, found] at excluded
      simp [notClosed, ← unchanged, pending, open_, left] at excluded
  | @joins _ event same _ pending open_ left =>
      obtain rfl := Option.some.inj (found.symm.trans same)
      have owner : event.socket = some context.socket := (KeyedSet.find_eq_some.mp pending).2
      have key := kept.keys payload context found
      apply kept.popped found agree rfl ?_ events
      · intro _
        rw [Poller.closing, KeyedSet.find_insert, KeyedSet.find_erase, owner, if_pos rfl,
          if_pos rfl, Option.none_or]
        simp only [BitVec.has_or, PollerEvent.close_has_close, Bool.or_true]
      · rw [Scheduler.deadline_deleteEvent, timers, key, Function.update_idem]

end KeptSince

/-- `process_scheduler` keeps the timers of the sockets that stay open when it takes the branch for
none of them. -/
theorem Kept.processScheduler {p : Poller} {closed : Closed} (kept : Kept p closed) {now : Word}
    (drops : p.DropsNone closed now) : Kept (p.processScheduler now) closed :=
  (Poller.processScheduler_invariant (KeptSince p closed) (fun _ _ _ held turn => held.turn drops turn)
    ⟨kept, rfl, fun _ _ _ scheduled _ => ⟨scheduled, rfl⟩⟩).toKept

/-! ## Runs -/

/-- The invariant of a watched run: every pending close is noted, and the sockets without one have
their timers. -/
structure AllKept (p : Poller) (closed : Closed) : Prop extends Kept p closed where
  noted : ∀ socket, p.closing socket = true → closed socket = true

namespace AllKept

variable {p after : Poller} {closed : Closed}

/-- A socket that was registered and open has its timer. -/
theorem timer_of_open (kept : AllKept p closed) {fd : FD} {context : SocketContext}
    (found : p.activeSockets fd = some context) (valid : context.nearest ≠ invalidTime)
    (open_ : p.sockets context.socket.fd = some context.socket → closed context.socket = false) :
    p.scheduler.deadline fd = some context.nearest := by
  have key := kept.keys fd context found
  have notClosed := open_ (Poller.sockets_eq_some.mpr ⟨context, key ▸ found, rfl⟩)
  apply kept.timer fd context found valid notClosed
  cases pending : p.closing context.socket with
  | false => rfl
  | true => exact absurd (kept.noted _ pending) (by simp [notClosed])

/-- `update_socket` keeps the timers of the sockets that were open. -/
theorem timer_update (kept : AllKept p closed) {socket : SocketPtr}
    {eventMask timeoutStep readClock writeClock : Word}
    (returned : p.updateSocket (some socket) eventMask timeoutStep readClock writeClock =
      .ok after) {fd : FD} {context : SocketContext}
    (found : after.activeSockets fd = some context) (valid : context.nearest ≠ invalidTime)
    (open_ : p.sockets context.socket.fd = some context.socket → closed context.socket = false) :
    after.scheduler.deadline fd = some context.nearest := by
  have effect := Poller.updateSocket_eq_ok returned
  have key := kept.contextFor_fd socket
  rw [effect.activeSockets] at found
  by_cases timed : timeoutStep = invalidTime
  · rw [effect.untimed timed]
    by_cases same : fd = socket.fd
    · subst same
      rw [Function.update_self, Option.some.injEq, Poller.updatedContext, if_pos timed] at found
      cases registered : p.activeSockets socket.fd with
      | none =>
          rw [Poller.contextFor_of_none registered] at found
          rw [← found] at valid
          exact absurd rfl valid
      | some old =>
          rw [Poller.contextFor_of_some registered] at found
          exact kept.timer_of_open (found ▸ registered) valid open_
    · rw [Function.update_of_ne same] at found
      exact kept.timer_of_open found valid open_
  · rw [effect.timed timed, key]
    by_cases same : fd = socket.fd
    · rw [same, Function.update_self, Option.some.injEq] at found
      rw [same, Function.update_self, found]
    · rw [Function.update_of_ne same] at found ⊢
      exact kept.timer_of_open found valid open_

/-- `remove_socket` keeps the timers of the other sockets that were open. -/
theorem timer_remove (kept : AllKept p closed) (socket : SocketPtr) {fd : FD}
    {context : SocketContext}
    (found : (p.removeSocket (some socket)).activeSockets fd = some context)
    (valid : context.nearest ≠ invalidTime)
    (open_ : p.sockets context.socket.fd = some context.socket → closed context.socket = false) :
    (p.removeSocket (some socket)).scheduler.deadline fd = some context.nearest := by
  rw [Poller.removeSocket_activeSockets] at found
  by_cases same : fd = socket.fd
  · rw [same, Function.update_self] at found
    cases found
  · rw [Function.update_of_ne same] at found
    rw [Poller.removeSocket_deadline]
    split
    · exact kept.timer_of_open found valid open_
    · rw [Function.update_of_ne same]
      exact kept.timer_of_open found valid open_

/-- **Every call keeps the timers** that processes no stop and whose poll drops none. -/
theorem step (kept : AllKept p closed) {op : PollerOp} (quiet : ¬ p.ReadsStop op)
    (drops : p.PollDropsNone closed op) (returned : p.step op = .ok after) :
    AllKept after (p.noteClosed op after closed) := by
  refine ⟨⟨kept.toTimersAgree.step quiet returned, ?_⟩, ?_⟩
  · intro fd context found valid noted noClose
    have open_ := Poller.closed_of_noteClosed noted
    cases Poller.step_outcome returned with
    | updateNull | removeNull | nextEmpty | next | signal =>
        exact kept.timer_of_open found valid open_
    | update => exact kept.timer_update returned found valid open_
    | remove socket => exact kept.timer_remove socket found valid open_
    | @poll _ _ _ schedulerClock processed succeeded =>
        have unchanged := Poller.sockets_processEpollEvents_quiet quiet succeeded
        have dropsNone : processed.DropsNone closed schedulerClock := by
          rw [← Poller.afterReports_of_ok succeeded]
          exact drops
        have reached := (kept.toKept.processEpollEvents quiet succeeded).processScheduler dropsNone
        have was : p.sockets context.socket.fd = some context.socket := by
          rw [← unchanged, ← processed.sockets_processScheduler schedulerClock]
          exact Poller.sockets_eq_some.mpr ⟨context, reached.keys fd context found ▸ found, rfl⟩
        exact reached.timer fd context found valid (open_ was) noClose
  · intro socket pending
    rw [Poller.noteClosed, pending, Bool.true_or]

end AllKept

/-- Every open socket with a deadline has its timer, at the nearer of its deadlines. -/
def TimersAllKept (p : Poller) (closed : Closed) : Prop :=
  ∀ fd context, p.activeSockets fd = some context →
    (context.readTimeout.time ≠ invalidTime ∨ context.writeTimeout.time ≠ invalidTime) →
      closed context.socket = false →
        p.scheduler.deadline fd = some (min context.readTimeout.time context.writeTimeout.time)

/-- **No timer is lost** in the runs whose polls never find the pending event of a due timer ready
in every direction that has timed out. -/
theorem no_timer_is_lost {eventFd : FD} {ops : List PollerOp} {p : Poller} {closed : Closed}
    (run : Run (observed Poller.step Poller.noteClosed) Poller.KeepsTimers
      (Poller.create eventFd, fun _ => false) ops (p, closed)) : TimersAllKept p closed := by
  have kept : AllKept p closed := by
    apply run.invariant (fun watched => AllKept watched.1 watched.2)
    · exact ⟨Kept.create eventFd, fun _ pending => absurd pending Bool.false_ne_true⟩
    · intro before op after held allowed returned
      obtain ⟨stepped, noted⟩ := observed_eq_ok.mp returned
      rw [noted]
      exact held.step allowed.1 allowed.2 stepped
  intro fd context found valid open_
  refine kept.timer_of_open found ?_ fun _ => open_
  intro invalid
  obtain ⟨read, write⟩ := SocketContext.nearest_eq_invalid.mp invalid
  rcases valid with valid | valid
  · exact valid read
  · exact valid write

/-- A socket is reported readable at 10, and its step of 5 is not over when the timers are
processed. -/
def keptOps : List PollerOp :=
  [.update (some ⟨0, 7, .client⟩) epollIn 5 6 6, .poll [⟨7, epollIn⟩] 8 10 11]

def keptPoller : Poller × Closed :=
  (checkedRun (observed Poller.step Poller.noteClosed) Poller.KeepsTimers
    (Poller.create 3, fun _ => false) keptOps).get (by decide +kernel)

theorem no_timer_is_lost_reported :
    keptPoller.1.scheduler.deadline 7 = some 15 ∧ TimersAllKept keptPoller.1 keptPoller.2 := by
  have run : Run (observed Poller.step Poller.noteClosed) Poller.KeepsTimers
      (Poller.create 3, fun _ => false) keptOps keptPoller := Run.of_isSome _
  exact ⟨by decide +kernel, no_timer_is_lost run⟩

/-! ## The branch loses a timer -/

/-- What the callers and the kernel promise: a mask names directions and nothing else, descriptors
of live sockets differ, the kernel reports what it watches, and no stop is processed. -/
def Poller.PlainCall (watched : Poller × Closed) (op : PollerOp) : Prop :=
  op.NamesDirections ∧ watched.1.OwnDescriptor op ∧ watched.1.ReportsWatched op ∧
    ¬ watched.1.ReadsStop op

instance (watched : Poller × Closed) (op : PollerOp) : Decidable (Poller.PlainCall watched op) :=
  inferInstanceAs (Decidable (_ ∧ _ ∧ _ ∧ _))

/-- A socket with a step of 1 is reported readable at 10; the timers are processed at 11, when the
new deadline has come while the event is pending. -/
def maskedOps : List PollerOp :=
  [.update (some ⟨0, 7, .client⟩) epollIn 1 9 9, .poll [⟨7, epollIn⟩] 9 10 11]

def maskedPoller : Poller × Closed :=
  (checkedRun (observed Poller.step Poller.noteClosed) Poller.PlainCall
    (Poller.create 3, fun _ => false) maskedOps).get (by decide +kernel)

/-- The timer of the socket is lost though nothing closes it. -/
theorem masked_timer_is_lost :
    ¬ ∀ (eventFd : FD) (ops : List PollerOp) (p : Poller) (closed : Closed),
      (ops.flatMap PollerOp.readings).Pairwise (· ≤ ·) →
      Run (observed Poller.step Poller.noteClosed) Poller.PlainCall
        (Poller.create eventFd, fun _ => false) ops (p, closed) →
      TimersAllKept p closed := by
  intro claim
  have run : Run (observed Poller.step Poller.noteClosed) Poller.PlainCall
      (Poller.create 3, fun _ => false) maskedOps maskedPoller :=
    Run.of_isSome _
  have kept := claim 3 maskedOps maskedPoller.1 maskedPoller.2 (by decide) run
  have found : maskedPoller.1.activeSockets 7 = some ⟨⟨0, 7, .client⟩, ⟨11, 1⟩, {}⟩ := by
    decide +kernel
  have lost : maskedPoller.1.scheduler.deadline 7 = none := by decide +kernel
  have timer := kept 7 _ found (.inl (by decide)) (by decide +kernel)
  rw [lost] at timer
  cases timer

end Jasl
