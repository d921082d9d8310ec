import Jasl.Poller.Poller

/-!
# What each call does to a poller

One statement for each operation of the poller, from which every invariant is
derived: the effect of `update_socket` (`UpdateEffect`), of `remove_socket`, of
one report (`ReportEffect`) and of one popped timer (`TimerOutcome`). The loops
of `process_epoll_events` and `process_scheduler` have an induction rule each
(`processEpollEvents_fold`, `processScheduler_invariant`). `step_outcome` takes
a call of any kind apart.
-/

set_option autoImplicit false

namespace Jasl

open Library

/-! ## The interest set -/

theorem epollCtlAdd_apply (interest : InterestSet) (fd other : FD) (events : BitVec 32) :
    epollCtlAdd interest fd events other =
      if other = fd then some ((interest fd).getD events) else interest other := by
  cases there : interest fd with
  | none =>
      simp only [epollCtlAdd, there]
      rw [Function.update_apply, Option.getD_none]
  | some watched =>
      simp only [epollCtlAdd, there]
      split
      · rename_i same
        rw [same, there, Option.getD_some]
      · rfl

theorem epollCtlMod_apply (interest : InterestSet) (fd other : FD) (events : BitVec 32) :
    epollCtlMod interest fd events other =
      if other = fd then (interest fd).map fun _ => events else interest other := by
  cases there : interest fd with
  | none =>
      simp only [epollCtlMod, there]
      split
      · rename_i same
        rw [same, there, Option.map_none]
      · rfl
  | some watched =>
      simp only [epollCtlMod, there]
      rw [Function.update_apply, Option.map_some]

namespace Poller

/-! ## update_socket -/

/-- The context that `update_socket` works on: the registered one, or a new one. -/
def contextFor (p : Poller) (socket : SocketPtr) : SocketContext :=
  (p.activeSockets socket.fd).getD { socket }

/-- The context that `update_socket` leaves. -/
def updatedContext (p : Poller) (socket : SocketPtr)
    (eventMask timeoutStep readClock writeClock : Word) : SocketContext :=
  if timeoutStep = invalidTime then p.contextFor socket
  else (p.contextFor socket).arm eventMask (effectiveStep timeoutStep) readClock writeClock

theorem contextFor_of_some {p : Poller} {socket : SocketPtr} {context : SocketContext}
    (found : p.activeSockets socket.fd = some context) : p.contextFor socket = context := by
  rw [contextFor, found, Option.getD_some]

theorem contextFor_of_none {p : Poller} {socket : SocketPtr}
    (absent : p.activeSockets socket.fd = none) : p.contextFor socket = { socket } := by
  rw [contextFor, absent, Option.getD_none]

@[simp] theorem updatedContext_socket (p : Poller) (socket : SocketPtr)
    (eventMask timeoutStep readClock writeClock : Word) :
    (p.updatedContext socket eventMask timeoutStep readClock writeClock).socket =
      (p.contextFor socket).socket := by
  rw [updatedContext]
  split <;> rfl

/-- The effect of a call of `update_socket` that returns. -/
structure UpdateEffect (p : Poller) (socket : SocketPtr)
    (eventMask timeoutStep readClock writeClock : Word) (after : Poller) : Prop where
  activeSockets : after.activeSockets = Function.update p.activeSockets socket.fd
    (some (p.updatedContext socket eventMask timeoutStep readClock writeClock))
  untimed : timeoutStep = invalidTime → after.scheduler = p.scheduler
  valid : timeoutStep ≠ invalidTime →
    (p.updatedContext socket eventMask timeoutStep readClock writeClock).nearest ≠ invalidTime
  timed : timeoutStep ≠ invalidTime → after.scheduler.deadline =
    Function.update p.scheduler.deadline (p.contextFor socket).socket.fd
      (some (p.updatedContext socket eventMask timeoutStep readClock writeClock).nearest)
  outEvents : after.outEvents = p.outEvents
  eventFd : after.eventFd = p.eventFd
  eventCount : after.eventCount =
    if p.registers socket then eventfdWrite p.eventCount Signal.update.value else p.eventCount
  epollFd : after.epollFd =
    if p.registers socket then epollCtlAdd p.epollFd socket.fd (watchedEvents eventMask)
    else epollCtlMod p.epollFd socket.fd (watchedEvents eventMask)

/-- What `setTimeout` changes when it returns. -/
theorem setTimeout_eq_ok {p after : Poller} {fd : FD} {context : SocketContext}
    {eventMask timeoutStep readClock writeClock : Word}
    (returned : p.setTimeout fd context eventMask timeoutStep readClock writeClock = .ok after) :
    (timeoutStep = invalidTime ∧ after = p) ∨
      (timeoutStep ≠ invalidTime ∧
        (context.arm eventMask (effectiveStep timeoutStep) readClock writeClock).nearest ≠
          invalidTime ∧
        after = { p with
          activeSockets := Function.update p.activeSockets fd
            (some (context.arm eventMask (effectiveStep timeoutStep) readClock writeClock))
          scheduler := p.scheduler.addEvent
            (context.arm eventMask (effectiveStep timeoutStep) readClock writeClock).nearest
            context.socket.fd }) := by
  rw [setTimeout] at returned
  split at returned
  · rename_i untimed
    exact .inl ⟨untimed, (Except.ok.inj returned).symm⟩
  · rename_i timed
    simp only [addToScheduler] at returned
    split at returned
    · cases returned
    · rename_i nearest valid
      obtain ⟨rfl, valid⟩ := SocketContext.getNearestTimeout_eq_ok.mp valid
      exact .inr ⟨timed, valid, (Except.ok.inj returned).symm⟩

/-- **The effect of `update_socket`**, on a new socket and on a registered one. -/
theorem updateSocket_eq_ok {p after : Poller} {socket : SocketPtr}
    {eventMask timeoutStep readClock writeClock : Word}
    (returned : p.updateSocket (some socket) eventMask timeoutStep readClock writeClock =
      .ok after) :
    UpdateEffect p socket eventMask timeoutStep readClock writeClock after := by
  simp only [updateSocket] at returned
  cases found : p.activeSockets socket.fd with
  | none =>
      have context := contextFor_of_none found
      simp only [found] at returned
      split at returned
      · cases returned
      · rename_i set succeeded
        obtain rfl := Except.ok.inj returned
        rcases setTimeout_eq_ok succeeded with ⟨untimed, rfl⟩ | ⟨timed, valid, rfl⟩
        · exact
            { activeSockets := by simp [signal, updatedContext, untimed, context]
              untimed := fun _ => rfl
              valid := fun timed => absurd untimed timed
              timed := fun timed => absurd untimed timed
              outEvents := rfl
              eventFd := rfl
              eventCount := by simp [signal, registers, found]
              epollFd := by simp [signal, registers, found] }
        · exact
            { activeSockets := by simp [signal, updatedContext, timed, context]
              untimed := fun untimed => absurd untimed timed
              valid := fun _ => by simpa [updatedContext, timed, context] using valid
              timed := fun _ => by
                simp [signal, updatedContext, timed, context, Scheduler.deadline_addEvent _ valid]
              outEvents := rfl
              eventFd := rfl
              eventCount := by simp [signal, registers, found]
              epollFd := by simp [signal, registers, found] }
  | some registered =>
      have context := contextFor_of_some found
      simp only [found] at returned
      split at returned
      · cases returned
      · rename_i set succeeded
        obtain rfl := Except.ok.inj returned
        rcases setTimeout_eq_ok succeeded with ⟨untimed, rfl⟩ | ⟨timed, valid, rfl⟩
        · exact
            { activeSockets := by simp [updatedContext, untimed, context, ← found]
              untimed := fun _ => rfl
              valid := fun timed => absurd untimed timed
              timed := fun timed => absurd untimed timed
              outEvents := rfl
              eventFd := rfl
              eventCount := by simp [registers, found]
              epollFd := by simp [registers, found] }
        · exact
            { activeSockets := by simp [updatedContext, timed, context]
              untimed := fun untimed => absurd untimed timed
              valid := fun _ => by simpa [updatedContext, timed, context] using valid
              timed := fun _ => by
                simp [updatedContext, timed, context, Scheduler.deadline_addEvent _ valid]
              outEvents := rfl
              eventFd := rfl
              eventCount := by simp [registers, found]
              epollFd := by simp [registers, found] }

/-! ## remove_socket -/

@[simp] theorem removeSocket_activeSockets (p : Poller) (socket : SocketPtr) :
    (p.removeSocket (some socket)).activeSockets =
      Function.update p.activeSockets socket.fd none := by
  simp only [removeSocket]
  split
  · rename_i absent
    rw [← absent, Function.update_eq_self]
  · rfl

theorem removeSocket_outEvents (p : Poller) (socket : SocketPtr) :
    (p.removeSocket (some socket)).outEvents =
      if p.registers socket then p.outEvents else p.outEvents.erase (some socket) := by
  simp only [removeSocket, registers]
  split <;> simp_all

theorem removeSocket_deadline (p : Poller) (socket : SocketPtr) :
    (p.removeSocket (some socket)).scheduler.deadline =
      if p.registers socket then p.scheduler.deadline
      else Function.update p.scheduler.deadline socket.fd none := by
  simp only [removeSocket, registers]
  split <;> simp_all [Scheduler.deadline_deleteEvent]

@[simp] theorem removeSocket_epollFd (p : Poller) (socket : SocketPtr) :
    (p.removeSocket (some socket)).epollFd = epollCtlDel p.epollFd socket.fd := by
  simp only [removeSocket]
  split <;> rfl

@[simp] theorem removeSocket_eventFd (p : Poller) (socket : Option SocketPtr) :
    (p.removeSocket socket).eventFd = p.eventFd := by
  cases socket with
  | none => rfl
  | some socket =>
      simp only [removeSocket]
      split <;> rfl

@[simp] theorem removeSocket_eventCount (p : Poller) (socket : Option SocketPtr) :
    (p.removeSocket socket).eventCount = p.eventCount := by
  cases socket with
  | none => rfl
  | some socket =>
      simp only [removeSocket]
      split <;> rfl

/-! ## One report -/

/-- The effect of a report that is processed. -/
structure ReportEffect (p : Poller) (report : EpollEvent) (currentTime : Word)
    (context : SocketContext) (after : Poller) : Prop where
  found : p.activeSockets report.data = some context
  valid : (context.refresh report.events currentTime).nearest ≠ invalidTime
  action : (PollerEvent.ofReport context.socket report.events).action ≠ 0
  activeSockets : after.activeSockets = Function.update p.activeSockets report.data
    (some (context.refresh report.events currentTime))
  deadline : after.scheduler.deadline = Function.update p.scheduler.deadline report.data
    (some (context.refresh report.events currentTime).nearest)
  outEvents : after.outEvents =
    p.outEvents.insert (PollerEvent.ofReport context.socket report.events)
  eventFd : after.eventFd = p.eventFd
  eventCount : after.eventCount = p.eventCount
  epollFd : after.epollFd = p.epollFd

/-- **The effect of a report**, when no assertion fails. -/
theorem processReport_eq_ok {p after : Poller} {report : EpollEvent} {currentTime : Word}
    (returned : p.processReport report currentTime = .ok after) :
    ∃ context, ReportEffect p report currentTime context after := by
  simp only [processReport] at returned
  cases found : p.activeSockets report.data with
  | none => simp [found] at returned
  | some context =>
      simp only [found] at returned
      rw [SocketContext.refresh_socket] at returned
      by_cases action : (PollerEvent.ofReport context.socket report.events).action = 0
      · simp [action] at returned
      · rw [if_neg action] at returned
        split at returned
        · cases returned
        · rename_i nearest succeeded
          obtain ⟨rfl, valid⟩ := SocketContext.getNearestTimeout_eq_ok.mp succeeded
          obtain rfl := Except.ok.inj returned
          refine ⟨context, found, valid, action, rfl, ?_, rfl, rfl, rfl, rfl⟩
          simp only [Scheduler.deadline_addEvent _ valid]
          split
          · rw [Scheduler.deadline_deleteEvent, Function.update_idem]
          · rfl

/-! ## The loop over the reports -/

/-- The reports of a batch that reach the sockets: all but those on the event descriptor, and none
after a signal that leaves the function. -/
def delivered (eventFd : FD) : ℕ → List EpollEvent → List EpollEvent
  | _, [] => []
  | eventCount, report :: rest =>
      if report.data = eventFd then
        if eventCount = 0 ∨ stopValue ≤ eventCount then [] else delivered eventFd 0 rest
      else report :: delivered eventFd eventCount rest

/-- A delivered report is one of the batch, and not on the event descriptor. -/
theorem mem_delivered {eventFd : FD} {report : EpollEvent} {batch : List EpollEvent} :
    ∀ {eventCount : ℕ}, report ∈ delivered eventFd eventCount batch →
      report ∈ batch ∧ report.data ≠ eventFd := by
  induction batch with
  | nil => exact nofun
  | cons first rest ih =>
      intro eventCount member
      rw [delivered] at member
      split at member
      · split at member
        · cases member
        · obtain ⟨inRest, other⟩ := ih member
          exact ⟨List.mem_cons_of_mem _ inRest, other⟩
      · rename_i other
        cases member with
        | head => exact ⟨List.mem_cons_self, other⟩
        | tail _ inRest =>
            obtain ⟨inRest, other⟩ := ih inRest
            exact ⟨List.mem_cons_of_mem _ inRest, other⟩

/-- What the loop leaves is left, but for the size of the buffer if it came to its end. -/
theorem processEpollEvents_eq_ok {p after : Poller} {batch : List EpollEvent} {currentTime : Word}
    (returned : p.processEpollEvents batch currentTime = .ok after) :
    ∃ left toEnd, p.processReports currentTime batch = .ok (left, toEnd) ∧
      (after = left ∨ toEnd = true ∧ ∃ size, after = { left with epollEvents := size }) := by
  rw [processEpollEvents] at returned
  split at returned
  · cases returned
  · rename_i left succeeded
    obtain rfl := Except.ok.inj returned
    exact ⟨_, false, succeeded, .inl rfl⟩
  · rename_i finished succeeded
    obtain rfl := Except.ok.inj returned
    refine ⟨_, true, succeeded, ?_⟩
    split
    · exact .inr ⟨rfl, _, rfl⟩
    · exact .inl rfl

/-- The poller after a stop was read. -/
def stopped (p : Poller) : Poller :=
  { p with eventCount := 0, activeSockets := fun _ => none, outEvents := .empty }

section Loop

variable {τ : Type} (holds : Poller → τ → Prop) (note : τ → EpollEvent → τ)
  {currentTime : Word}

/-- The induction rule of the loop over the reports. A value is carried along that notes the
reports delivered. -/
theorem processReports_fold (batch : List EpollEvent)
    (update : ∀ before value, before.eventCount < stopValue → holds before value →
      holds { before with eventCount := 0 } value)
    (stop : ∀ before value, (∃ entry ∈ batch, entry.data = before.eventFd) →
      stopValue ≤ before.eventCount → holds before value → holds before.stopped value) :
    ∀ (p after : Poller) (value : τ) (toEnd : Bool),
      (∀ before value entry after, entry ∈ delivered p.eventFd p.eventCount batch →
        holds before value → before.processReport entry currentTime = .ok after →
          holds after (note value entry)) →
      holds p value → p.processReports currentTime batch = .ok (after, toEnd) →
        holds after ((delivered p.eventFd p.eventCount batch).foldl note value) := by
  induction batch with
  | nil =>
      intro p after value toEnd _ initial returned
      simp only [processReports, Except.ok.injEq, Prod.mk.injEq] at returned
      obtain ⟨rfl, -⟩ := returned
      exact initial
  | cons entry rest ih =>
      intro p after value toEnd report initial returned
      have later := ih fun before value inRest => by
        obtain ⟨next, member, same⟩ := inRest
        exact stop before value ⟨next, List.mem_cons_of_mem _ member, same⟩
      rw [processReports] at returned
      by_cases signalled : entry.data = p.eventFd
      · simp only [if_pos signalled, processSignal] at returned
        rw [delivered, if_pos signalled] at report ⊢
        by_cases stops : stopValue ≤ p.eventCount
        · simp only [if_pos stops, ne_eq, not_true_eq_false, if_false, Except.ok.injEq,
            Prod.mk.injEq] at returned
          obtain ⟨rfl, -⟩ := returned
          rw [if_pos (.inr stops)]
          exact stop p value ⟨entry, List.mem_cons_self, signalled⟩ stops initial
        · simp only [if_neg stops] at returned
          have read := update p value (not_le.mp stops) initial
          by_cases empty : p.eventCount = 0
          · rw [if_neg (by simp [empty])] at returned
            simp only [Except.ok.injEq, Prod.mk.injEq] at returned
            obtain ⟨rfl, -⟩ := returned
            rw [if_pos (.inl empty)]
            exact read
          · rw [if_pos empty] at returned
            rw [if_neg (by simp [empty, stops])] at report ⊢
            exact later _ _ _ _ report read returned
      · simp only [if_neg signalled] at returned
        rw [delivered, if_neg signalled] at report ⊢
        rw [List.foldl_cons]
        split at returned
        · cases returned
        · rename_i next succeeded
          obtain ⟨context, effect⟩ := processReport_eq_ok succeeded
          have noted := report p value entry next List.mem_cons_self initial succeeded
          have unchanged : delivered next.eventFd next.eventCount rest =
              delivered p.eventFd p.eventCount rest := by
            rw [effect.eventFd, effect.eventCount]
          rw [← unchanged]
          refine later _ _ _ _ ?_ noted returned
          intro before value next after member
          rw [unchanged] at member
          exact report before value next after (List.mem_cons_of_mem _ member)

/-- The induction rule of `process_epoll_events`. -/
theorem processEpollEvents_fold {batch : List EpollEvent} {p after : Poller}
    (report : ∀ before value entry after, entry ∈ delivered p.eventFd p.eventCount batch →
      holds before value → before.processReport entry currentTime = .ok after →
        holds after (note value entry))
    (update : ∀ before value, before.eventCount < stopValue → holds before value →
      holds { before with eventCount := 0 } value)
    (stop : ∀ before value, (∃ entry ∈ batch, entry.data = before.eventFd) →
      stopValue ≤ before.eventCount → holds before value → holds before.stopped value)
    (resize : ∀ before value size, holds before value →
      holds { before with epollEvents := size } value)
    (value : τ) (initial : holds p value)
    (returned : p.processEpollEvents batch currentTime = .ok after) :
    holds after ((delivered p.eventFd p.eventCount batch).foldl note value) := by
  obtain ⟨left, toEnd, succeeded, same⟩ := processEpollEvents_eq_ok returned
  have reached := processReports_fold holds note batch update stop _ _ _ _ report initial succeeded
  obtain rfl | ⟨-, size, rfl⟩ := same
  · exact reached
  · exact resize _ _ _ reached

end Loop

/-- What every report, every signal read and a growing buffer keep, `process_epoll_events`
keeps. -/
theorem processEpollEvents_invariant (holds : Poller → Prop) {batch : List EpollEvent}
    {currentTime : Word} {p after : Poller}
    (report : ∀ before entry after, entry ∈ delivered p.eventFd p.eventCount batch →
      holds before → before.processReport entry currentTime = .ok after → holds after)
    (update : ∀ before, before.eventCount < stopValue → holds before →
      holds { before with eventCount := 0 })
    (stop : ∀ before, (∃ entry ∈ batch, entry.data = before.eventFd) →
      stopValue ≤ before.eventCount → holds before → holds before.stopped)
    (resize : ∀ before size, holds before → holds { before with epollEvents := size })
    (initial : holds p)
    (returned : p.processEpollEvents batch currentTime = .ok after) : holds after :=
  processEpollEvents_fold (fun p (_ : Unit) => holds p) (fun value _ => value)
    (fun before _ entry after member => report before entry after member)
    (fun before _ => update before) (fun before _ => stop before)
    (fun before _ size => resize before size) () initial returned

/-- What the kernel reports holds a signal that is a stop. -/
def StopReported (p : Poller) (reports : List EpollEvent) : Prop :=
  stopValue ≤ p.eventCount ∧ ∃ entry ∈ reports, entry.data = p.eventFd

instance (p : Poller) (reports : List EpollEvent) : Decidable (p.StopReported reports) :=
  inferInstanceAs (Decidable (_ ∧ _))

/-- Without a stop among the reports, no report and no signal read is a stop. -/
theorem processEpollEvents_quiet {τ : Type} (holds : Poller → τ → Prop)
    (note : τ → EpollEvent → τ) {currentTime : Word} {p after : Poller} {batch : List EpollEvent}
    (quiet : ¬ p.StopReported batch)
    (report : ∀ before value entry after, entry ∈ delivered p.eventFd p.eventCount batch →
      before.eventFd = p.eventFd → holds before value →
        before.processReport entry currentTime = .ok after → holds after (note value entry))
    (update : ∀ before value, holds before value → holds { before with eventCount := 0 } value)
    (resize : ∀ before value size, holds before value →
      holds { before with epollEvents := size } value)
    (value : τ) (initial : holds p value)
    (returned : p.processEpollEvents batch currentTime = .ok after) :
    holds after ((delivered p.eventFd p.eventCount batch).foldl note value) := by
  -- the counter never grows in the loop, so a stop read later was there at its start
  have kept := processEpollEvents_fold
    (fun q value => holds q value ∧ q.eventFd = p.eventFd ∧ q.eventCount ≤ p.eventCount)
    note ?_ ?_ ?_ ?_ value ⟨initial, rfl, le_refl _⟩ returned
  · exact kept.1
  · intro before value entry next member ⟨held, sameFd, count⟩ processed
    obtain ⟨context, effect⟩ := processReport_eq_ok processed
    exact ⟨report before value entry next member sameFd held processed,
      effect.eventFd.trans sameFd, effect.eventCount.symm ▸ count⟩
  · intro before value _ ⟨held, sameFd, _⟩
    exact ⟨update before value held, sameFd, Nat.zero_le _⟩
  · intro before value ⟨entry, member, same⟩ stops ⟨_, sameFd, count⟩
    exact absurd ⟨stops.trans count, entry, member, same.trans sameFd⟩ quiet
  · intro before value size ⟨held, sameFd, count⟩
    exact ⟨resize before value size held, sameFd, count⟩

/-- With a stop among the reports, the loop leaves the function when it reads it. -/
theorem processReports_stop {currentTime : Word} {batch : List EpollEvent} :
    ∀ {p after : Poller} {toEnd : Bool}, p.StopReported batch →
      p.processReports currentTime batch = .ok (after, toEnd) →
        after.activeSockets = (fun _ => none) ∧ after.outEvents = .empty ∧ toEnd = false := by
  induction batch with
  | nil =>
      rintro p after toEnd ⟨_, _, member, -⟩
      exact absurd member List.not_mem_nil
  | cons entry rest ih =>
      intro p after toEnd ⟨stops, reported⟩ returned
      rw [processReports] at returned
      by_cases signalled : entry.data = p.eventFd
      · simp only [if_pos signalled, processSignal, if_pos stops, ne_eq, not_true_eq_false,
          if_false, Except.ok.injEq, Prod.mk.injEq] at returned
        obtain ⟨rfl, rfl⟩ := returned
        exact ⟨rfl, rfl, rfl⟩
      · rw [if_neg signalled] at returned
        split at returned
        · cases returned
        · rename_i next succeeded
          obtain ⟨context, effect⟩ := processReport_eq_ok succeeded
          obtain ⟨signal, member, same⟩ := reported
          refine ih ⟨effect.eventCount.symm ▸ stops, signal, ?_, effect.eventFd.symm ▸ same⟩ returned
          cases member with
          | head => exact absurd same signalled
          | tail _ inRest => exact inRest

/-- **A stop forgets every registration and every pending event.** -/
theorem processEpollEvents_stop {currentTime : Word} {p after : Poller} {batch : List EpollEvent}
    (stop : p.StopReported batch) (returned : p.processEpollEvents batch currentTime = .ok after) :
    after.activeSockets = (fun _ => none) ∧ after.outEvents = .empty := by
  obtain ⟨left, toEnd, succeeded, same⟩ := processEpollEvents_eq_ok returned
  obtain ⟨sockets, events, early⟩ := processReports_stop stop succeeded
  obtain rfl | ⟨ended, -⟩ := same
  · exact ⟨sockets, events⟩
  · exact absurd (early.symm.trans ended) Bool.false_ne_true

/-- The call processes a stop. -/
def ReadsStop (p : Poller) : PollerOp → Prop
  | .poll batch waitClock _ _ => p.StopReported (p.getEpollEvents waitClock batch)
  | _ => False

instance (p : Poller) : (op : PollerOp) → Decidable (p.ReadsStop op)
  | .poll batch waitClock _ _ =>
      inferInstanceAs (Decidable (p.StopReported (p.getEpollEvents waitClock batch)))
  | .update .. | .remove _ | .next _ | .signal _ => inferInstanceAs (Decidable False)

/-! ## Timers -/

/-- The six ways through the body of the loop of `process_scheduler`. -/
inductive TimerOutcome (p : Poller) (payload : EventPayload) (now : Word) : Poller → Prop where
  | unknown (absent : p.activeSockets payload = none) : TimerOutcome p payload now p
  | early {context : SocketContext} (found : p.activeSockets payload = some context)
      (zero : context.getTimeoutType now = 0) : TimerOutcome p payload now p
  | closes {context : SocketContext} (found : p.activeSockets payload = some context)
      (expired : context.getTimeoutType now ≠ 0)
      (absent : p.outEvents.find (some context.socket) = none) :
      TimerOutcome p payload now
        { p with
          outEvents := p.outEvents.insert
            { socket := some context.socket
              action := PollerEvent.close
              closeReason := context.getTimeoutType now } }
  | closing {context : SocketContext} {event : PollerEvent}
      (found : p.activeSockets payload = some context)
      (expired : context.getTimeoutType now ≠ 0)
      (pending : p.outEvents.find (some context.socket) = some event)
      (close : event.action.has PollerEvent.close = true) : TimerOutcome p payload now p
  | masked {context : SocketContext} {event : PollerEvent}
      (found : p.activeSockets payload = some context)
      (expired : context.getTimeoutType now ≠ 0)
      (pending : p.outEvents.find (some context.socket) = some event)
      (open_ : event.action.has PollerEvent.close = false)
      (zero : unmaskedTimeouts event.action (context.getTimeoutType now) = 0) :
      TimerOutcome p payload now p
  | joins {context : SocketContext} {event : PollerEvent}
      (found : p.activeSockets payload = some context)
      (expired : context.getTimeoutType now ≠ 0)
      (pending : p.outEvents.find (some context.socket) = some event)
      (open_ : event.action.has PollerEvent.close = false)
      (left : unmaskedTimeouts event.action (context.getTimeoutType now) ≠ 0) :
      TimerOutcome p payload now
        { p with
          scheduler := p.scheduler.deleteEvent context.socket.fd
          outEvents := (p.outEvents.erase event.socket).insert
            { event with
              action := event.action ||| PollerEvent.close
              closeReason := unmaskedTimeouts event.action (context.getTimeoutType now) } }

theorem processTimer_outcome (p : Poller) (payload : EventPayload) (now : Word) :
    TimerOutcome p payload now (p.processTimer payload now) := by
  cases found : p.activeSockets payload with
  | none =>
      simp only [processTimer, found]
      exact .unknown found
  | some context =>
      by_cases zero : context.getTimeoutType now = 0
      · simp only [processTimer, found, if_pos zero]
        exact .early found zero
      · cases pending : p.outEvents.find (some context.socket) with
        | none =>
            simp only [processTimer, found, if_neg zero, pending]
            exact .closes found zero pending
        | some event =>
            cases close : event.action.has PollerEvent.close with
            | true =>
                simp only [processTimer, found, if_neg zero, pending, close, if_true]
                exact .closing found zero pending close
            | false =>
                by_cases left : unmaskedTimeouts event.action (context.getTimeoutType now) = 0
                · simp only [processTimer, found, if_neg zero, pending, close, left, ne_eq,
                    not_true_eq_false, if_false, Bool.false_eq_true]
                  exact .masked found zero pending close left
                · simp only [processTimer, found, if_neg zero, pending, close, ne_eq, left,
                    not_false_eq_true, if_true, if_false, Bool.false_eq_true]
                  exact .joins found zero pending close left

/-- The body changes the pending event of the socket of the timer, and no other. -/
theorem TimerOutcome.find_of_other {p after : Poller} {payload : EventPayload} {now : Word}
    (outcome : TimerOutcome p payload now after) {key : Option SocketPtr}
    (other : ∀ context, p.activeSockets payload = some context → key ≠ some context.socket) :
    after.outEvents.find key = p.outEvents.find key := by
  cases outcome with
  | closes found _ _ => rw [KeyedSet.find_insert, if_neg (other _ found).symm, Option.or_none]
  | joins found _ pending _ _ =>
      have own := (KeyedSet.find_eq_some.mp pending).2
      have different := other _ found
      rw [← own] at different
      rw [KeyedSet.find_insert, if_neg different.symm, Option.or_none, KeyedSet.find_erase,
        if_neg different]
  | _ => rfl

/-- One turn pops a payload that is due and runs the body. -/
theorem schedulerTurn_eq_some {p after : Poller} {now : Word} {payload : EventPayload}
    (turn : p.schedulerTurn now = some (payload, after)) :
    ∃ time scheduler, p.scheduler.deadline.Due now payload time ∧
      scheduler.deadline = Function.update p.scheduler.deadline payload none ∧
      scheduler.size + 1 = p.scheduler.size ∧
      TimerOutcome { p with scheduler } payload now after := by
  rw [schedulerTurn] at turn
  split at turn
  · cases turn
  · rename_i popped scheduler taken
    obtain ⟨rfl, rfl⟩ := Prod.mk.inj (Option.some.inj turn)
    obtain ⟨time, due, deadline, size⟩ := Scheduler.getNextEvent_eq_some taken
    exact ⟨time, scheduler, due, deadline, size, processTimer_outcome _ _ _⟩

/-- A turn leaves fewer timers. -/
theorem schedulerTurn_size {p after : Poller} {now : Word} {payload : EventPayload}
    (turn : p.schedulerTurn now = some (payload, after)) :
    after.scheduler.size < p.scheduler.size := by
  obtain ⟨_, scheduler, -, -, size, outcome⟩ := schedulerTurn_eq_some turn
  cases outcome with
  | @joins context _ _ _ _ _ _ =>
      have fewer := scheduler.size_deleteEvent_le context.socket.fd
      change (scheduler.deleteEvent context.socket.fd).size < p.scheduler.size
      omega
  | _ =>
      change scheduler.size < p.scheduler.size
      omega

/-- With a turn for every timer, the loop of `process_scheduler` ends by itself. -/
theorem schedulerTurns_done {now : Word} :
    ∀ {turns : ℕ} {p : Poller}, p.scheduler.size ≤ turns →
      (p.schedulerTurns now turns).schedulerTurn now = none := by
  intro turns
  induction turns with
  | zero =>
      intro p enough
      rw [schedulerTurns]
      cases taken : p.schedulerTurn now with
      | none => rfl
      | some pair =>
          have fewer := schedulerTurn_size taken
          omega
  | succ turns ih =>
      intro p enough
      rw [schedulerTurns]
      cases taken : p.schedulerTurn now with
      | none => exact taken
      | some pair =>
          have fewer := schedulerTurn_size taken
          exact ih (by omega)

/-- **No timer is due after `process_scheduler`.** -/
theorem processScheduler_deadline {p : Poller} {now time : Word} {fd : FD}
    (scheduled : (p.processScheduler now).scheduler.deadline fd = some time) : now < time := by
  have done : (p.processScheduler now).schedulerTurn now = none := schedulerTurns_done (le_refl _)
  rw [schedulerTurn] at done
  split at done
  · rename_i waiting
    exact Scheduler.getNextEvent_eq_none.mp waiting fd time scheduled
  · cases done

/-- The induction rule of `process_scheduler`. -/
theorem schedulerTurns_invariant (holds : Poller → Prop) {now : Word}
    (turn : ∀ before payload after, holds before →
      before.schedulerTurn now = some (payload, after) → holds after) :
    ∀ (turns : ℕ) {p : Poller}, holds p → holds (p.schedulerTurns now turns)
  | 0, _, initial => initial
  | turns + 1, p, initial => by
      rw [schedulerTurns]
      cases taken : p.schedulerTurn now with
      | none => exact initial
      | some pair =>
          obtain ⟨payload, next⟩ := pair
          exact schedulerTurns_invariant holds turn turns (turn p payload next initial taken)

theorem processScheduler_invariant (holds : Poller → Prop) {now : Word}
    (turn : ∀ before payload after, holds before →
      before.schedulerTurn now = some (payload, after) → holds after)
    {p : Poller} (initial : holds p) : holds (p.processScheduler now) :=
  schedulerTurns_invariant holds turn _ initial

/-! ## One call -/

/-- A poll that returns has processed the reports and then the timers. -/
theorem poll_eq_ok {p after : Poller} {batch : List EpollEvent}
    {waitClock eventClock schedulerClock : Word}
    (returned : p.poll batch waitClock eventClock schedulerClock = .ok after) :
    ∃ processed, p.processEpollEvents (p.getEpollEvents waitClock batch) eventClock =
      .ok processed ∧ after = processed.processScheduler schedulerClock := by
  rw [poll] at returned
  split at returned
  · cases returned
  · rename_i processed succeeded
    exact ⟨processed, succeeded, (Except.ok.inj returned).symm⟩

/-- What a call that returns does: a null socket and an empty `out_events_` leave the poller as it
is. -/
inductive CallOutcome (p : Poller) : PollerOp → Poller → Prop where
  | updateNull {eventMask timeoutStep readClock writeClock : Word} :
      CallOutcome p (.update none eventMask timeoutStep readClock writeClock) p
  | update {socket : SocketPtr} {eventMask timeoutStep readClock writeClock : Word} {after : Poller}
      (returned : p.updateSocket (some socket) eventMask timeoutStep readClock writeClock =
        .ok after) :
      CallOutcome p (.update (some socket) eventMask timeoutStep readClock writeClock) after
  | removeNull : CallOutcome p (.remove none) p
  | remove (socket : SocketPtr) :
      CallOutcome p (.remove (some socket)) (p.removeSocket (some socket))
  | poll {batch : List EpollEvent} {waitClock eventClock schedulerClock : Word} {processed : Poller}
      (succeeded : p.processEpollEvents (p.getEpollEvents waitClock batch) eventClock =
        .ok processed) :
      CallOutcome p (.poll batch waitClock eventClock schedulerClock)
        (processed.processScheduler schedulerClock)
  | nextEmpty {position : ℕ} (nothing : p.outEvents.pick position = none) :
      CallOutcome p (.next position) p
  | next {position : ℕ} {event : PollerEvent} (picked : p.outEvents.pick position = some event) :
      CallOutcome p (.next position) { p with outEvents := p.outEvents.erase event.socket }
  | signal (sent : Signal) : CallOutcome p (.signal sent) (p.signal sent)

theorem step_outcome {p after : Poller} {op : PollerOp} (returned : p.step op = .ok after) :
    CallOutcome p op after := by
  cases op with
  | update socket eventMask timeoutStep readClock writeClock =>
      cases socket with
      | none =>
          obtain rfl := Except.ok.inj returned
          exact .updateNull
      | some socket => exact .update returned
  | remove socket =>
      obtain rfl := Except.ok.inj returned
      cases socket with
      | none => exact .removeNull
      | some socket => exact .remove socket
  | poll batch waitClock eventClock schedulerClock =>
      obtain ⟨processed, succeeded, rfl⟩ := poll_eq_ok returned
      exact .poll succeeded
  | next position =>
      obtain rfl := Except.ok.inj returned
      cases picked : p.outEvents.pick position with
      | none =>
          simp only [getNextEvent, picked]
          exact .nextEmpty picked
      | some event =>
          simp only [getNextEvent, picked]
          exact .next picked
  | signal sent =>
      obtain rfl := Except.ok.inj returned
      exact .signal sent

end Poller

end Jasl
