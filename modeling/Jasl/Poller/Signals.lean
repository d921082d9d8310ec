import Jasl.Poller.WakeUp

/-!
# Signals in one counter

`Poller::signal` adds a number to the counter of the event descriptor, `1` for an
update and 2⁴⁸ - 1 for a stop, and `process_epoll_events` reads the sum and sets it
back to zero. What is at least a stop is taken for one. A write that would overflow
the counter fails, and nobody looks at the result.

`Sent` counts beside the poller which signals were sent since the last read. The
calls of the poller and the reads come in any order, and a signal may come between
the reports of one batch, so a read is a step of its own next to the calls. With
fewer than 2⁴⁸ - 1 updates between two reads no stop is lost and none is made up
(`stop_is_read_iff_sent`).
-/

set_option autoImplicit false

namespace Jasl

open Library

/-! ## Reads -/

namespace Poller

/-- What `process_epoll_events` does at a report on the event descriptor, with what
`process_signal` returns. -/
def readSignal (p : Poller) : Poller × ℕ := { p with eventCount := 0 }.processSignal p.eventCount

/-- The loop reads the counter, and goes on unless the signal is a stop or nothing was there. -/
theorem processReports_signalled {p : Poller} {now : Word} {report : EpollEvent}
    (signalled : report.data = p.eventFd) (rest : List EpollEvent) :
    p.processReports now (report :: rest) =
      if p.readSignal.2 ≠ 0 then p.readSignal.1.processReports now rest
      else .ok (p.readSignal.1, false) := by
  rw [processReports, if_pos signalled]
  rfl

/-- The two outcomes of a read. -/
theorem readSignal_eq (p : Poller) :
    p.readSignal =
      if stopValue ≤ p.eventCount then (p.stopped, 0)
      else ({ p with eventCount := 0 }, p.eventCount) := by
  rw [readSignal, processSignal]
  rfl

@[simp] theorem readSignal_eventFd (p : Poller) : p.readSignal.1.eventFd = p.eventFd := by
  rw [readSignal_eq]
  split <;> rfl

@[simp] theorem readSignal_eventCount (p : Poller) : p.readSignal.1.eventCount = 0 := by
  rw [readSignal_eq]
  split <;> rfl

/-- The loop leaves the counter at zero when it meets the event descriptor, and as it was
otherwise. -/
theorem processReports_eventCount {now : Word} {batch : List EpollEvent} :
    ∀ {p after : Poller} {toEnd : Bool}, p.processReports now batch = .ok (after, toEnd) →
      after.eventCount =
        if ∃ report ∈ batch, report.data = p.eventFd then 0 else p.eventCount := by
  induction batch with
  | nil =>
      intro p after toEnd returned
      simp only [processReports, Except.ok.injEq, Prod.mk.injEq] at returned
      rw [← returned.1]
      simp
  | cons report rest ih =>
      intro p after toEnd returned
      by_cases signalled : report.data = p.eventFd
      · rw [if_pos ⟨report, List.mem_cons_self, signalled⟩]
        rw [processReports_signalled signalled] at returned
        split at returned
        · have later := ih returned
          rw [readSignal_eventCount, ite_self] at later
          exact later
        · simp only [Except.ok.injEq, Prod.mk.injEq] at returned
          rw [← returned.1, readSignal_eventCount]
      · rw [processReports, if_neg signalled] at returned
        split at returned
        · cases returned
        · rename_i next processed
          obtain ⟨context, effect⟩ := processReport_eq_ok processed
          rw [ih returned, effect.eventFd, effect.eventCount]
          simp only [List.mem_cons, exists_eq_or_imp, signalled, false_or]

theorem processEpollEvents_eventCount {p after : Poller} {now : Word} {batch : List EpollEvent}
    (returned : p.processEpollEvents batch now = .ok after) :
    after.eventCount =
      if ∃ report ∈ batch, report.data = p.eventFd then 0 else p.eventCount := by
  obtain ⟨left, toEnd, succeeded, same⟩ := processEpollEvents_eq_ok returned
  rw [← processReports_eventCount succeeded]
  obtain rfl | ⟨-, size, rfl⟩ := same
  · rfl
  · rfl

@[simp] theorem processScheduler_eventCount (p : Poller) (now : Word) :
    (p.processScheduler now).eventCount = p.eventCount := by
  rw [processScheduler_frame]

end Poller

/-! ## What was sent -/

/-- A call on a poller, or a read of the event descriptor in the middle of a batch. -/
inductive SignalOp where
  | call (op : PollerOp)
  | read

namespace Poller

def signalStep (p : Poller) : SignalOp → Except Assertion Poller
  | .call op => p.step op
  | .read => .ok p.readSignal.1

/-- The call reads the event descriptor. -/
def ReadsSignal (p : Poller) : PollerOp → Prop
  | .poll batch waitClock _ _ =>
      ∃ report ∈ p.getEpollEvents waitClock batch, report.data = p.eventFd
  | _ => False

instance (p : Poller) : (op : PollerOp) → Decidable (p.ReadsSignal op)
  | .poll batch waitClock _ _ => inferInstanceAs
      (Decidable (∃ report ∈ p.getEpollEvents waitClock batch, report.data = p.eventFd))
  | .update .. | .remove _ | .next _ | .signal _ => inferInstanceAs (Decidable False)

/-- The signal that a call sends. -/
def sentSignal (p : Poller) : PollerOp → Option Signal
  | .signal sent => some sent
  | .update (some socket) _ _ _ _ => if p.registers socket then some .update else none
  | .update none .. | .remove _ | .poll .. | .next _ => none

end Poller

/-- How many signals were sent since the last read, whether the write took effect or not. -/
structure Sent where
  stops : ℕ := 0
  updates : ℕ := 0
deriving DecidableEq, Repr

namespace Sent

def add (sent : Sent) : Option Signal → Sent
  | some .stop => { sent with stops := sent.stops + 1 }
  | some .update => { sent with updates := sent.updates + 1 }
  | none => sent

/-- What was sent after a step. -/
def noted (p : Poller) (sent : Sent) : SignalOp → Sent
  | .read => {}
  | .call op => if p.ReadsSignal op then {} else sent.add (p.sentSignal op)

def note (before : Poller) (op : SignalOp) (_ : Poller) (sent : Sent) : Sent :=
  sent.noted before op

/-- Fewer than 2⁴⁸ - 1 updates since the last read. -/
def FewUpdates (sent : Sent) : Prop := sent.updates < stopValue

instance (sent : Sent) : Decidable sent.FewUpdates :=
  inferInstanceAs (Decidable (sent.updates < stopValue))

end Sent

/-- What the counter says of the signals that were sent: without a stop it is the number of
updates, and with one it is at least a stop. -/
structure Carries (p : Poller) (sent : Sent) : Prop where
  updates : sent.stops = 0 → p.eventCount = sent.updates
  stops : 0 < sent.stops → stopValue ≤ p.eventCount

namespace Carries

variable {p after : Poller} {sent : Sent}

theorem nothing (empty : p.eventCount = 0) : Carries p {} where
  updates := fun _ => empty
  stops := nofun

theorem congr (carries : Carries p sent) (same : after.eventCount = p.eventCount) :
    Carries after sent where
  updates := fun none => same.trans (carries.updates none)
  stops := fun some => same.symm ▸ carries.stops some

/-- A signal that is sent arrives, or the counter holds a stop already: near the end of its range
every write fails, and it is past a stop long before. -/
theorem write (carries : Carries p sent) {signal : Signal}
    (few : (sent.add (some signal)).FewUpdates)
    (written : after.eventCount = eventfdWrite p.eventCount signal.value) :
    Carries after (sent.add (some signal)) := by
  rw [Sent.FewUpdates, stopValue] at few
  rw [eventfdWrite] at written
  cases signal with
  | stop =>
      rw [Signal.value, stopValue] at written
      simp only [Sent.add] at few ⊢
      refine ⟨by simp, fun _ => ?_⟩
      rw [stopValue, written]
      by_cases stopped : 0 < sent.stops
      · have before := carries.stops stopped
        rw [stopValue] at before
        split <;> omega
      · have before := carries.updates (Nat.eq_zero_of_not_pos stopped)
        rw [if_pos (by omega)]
        omega
  | update =>
      rw [Signal.value] at written
      simp only [Sent.add] at few ⊢
      constructor
      · intro none
        have before := carries.updates none
        rw [written, if_pos (by omega), before]
      · intro some
        have before := carries.stops some
        rw [stopValue] at before ⊢
        rw [written]
        split <;> omega

/-- A call that reads the counter leaves nothing in it. -/
theorem call (carries : Carries p sent) {op : PollerOp}
    (few : (sent.noted p (.call op)).FewUpdates) (returned : p.step op = .ok after) :
    Carries after (sent.noted p (.call op)) := by
  rw [Sent.noted] at few ⊢
  cases Poller.step_outcome returned with
  | updateNull | removeNull | nextEmpty => exact carries
  | @update socket _ _ _ _ _ =>
      have effect := Poller.updateSocket_eq_ok returned
      rw [if_neg (by exact not_false)] at few ⊢
      rw [Poller.sentSignal] at few ⊢
      have written := effect.eventCount
      split
      · rename_i registers
        rw [if_pos registers] at few written
        exact carries.write few written
      · rename_i present
        rw [if_neg present] at written
        exact carries.congr written
  | remove socket => exact carries.congr (p.removeSocket_eventCount _)
  | @poll batch waitClock eventClock schedulerClock processed succeeded =>
      have counted := Poller.processEpollEvents_eventCount succeeded
      by_cases reads : p.ReadsSignal (.poll batch waitClock eventClock schedulerClock)
      · rw [if_pos reads]
        refine nothing ?_
        rw [Poller.processScheduler_eventCount, counted]
        exact if_pos reads
      · rw [if_neg reads]
        refine carries.congr ?_
        rw [Poller.processScheduler_eventCount, counted]
        exact if_neg reads
  | next => exact carries.congr rfl
  | signal signal =>
      rw [if_neg (by exact not_false)] at few ⊢
      exact carries.write few rfl

theorem step (carries : Carries p sent) {op : SignalOp} (few : (sent.noted p op).FewUpdates)
    (returned : p.signalStep op = .ok after) : Carries after (sent.noted p op) := by
  cases op with
  | call op => exact carries.call few returned
  | read =>
      obtain rfl := Except.ok.inj returned
      exact nothing p.readSignal_eventCount

/-- The test of `process_signal` tells whether a stop was sent. -/
theorem stop_iff (carries : Carries p sent) (few : sent.FewUpdates) :
    stopValue ≤ p.eventCount ↔ 0 < sent.stops := by
  constructor
  · intro stop
    by_contra none
    have count := carries.updates (Nat.eq_zero_of_not_pos none)
    exact absurd few (not_lt.mpr (count ▸ stop))
  · exact carries.stops

theorem ne_zero (carries : Carries p sent) (some : 0 < sent.stops + sent.updates) :
    p.eventCount ≠ 0 := by
  by_cases stopped : 0 < sent.stops
  · have stop := carries.stops stopped
    rw [stopValue] at stop
    omega
  · have count := carries.updates (Nat.eq_zero_of_not_pos stopped)
    omega

end Carries

/-- **No stop is lost and none is made up.** However calls on a poller, the signals among them, and
reads of its event descriptor follow each other, with fewer than 2⁴⁸ - 1 updates between two reads:
the value read next is taken for a stop exactly when a stop was sent since the read before, and it
is not zero when anything was sent. -/
theorem stop_is_read_iff_sent {eventFd : FD} {ops : List SignalOp} {p : Poller} {sent : Sent}
    (run : Run (observed Poller.signalStep Sent.note)
      (fun watched op => (watched.2.noted watched.1 op).FewUpdates)
      (Poller.create eventFd, {}) ops (p, sent)) :
    (stopValue ≤ p.eventCount ↔ 0 < sent.stops) ∧
      p.readSignal = (if 0 < sent.stops then (p.stopped, 0)
        else ({ p with eventCount := 0 }, p.eventCount)) ∧
      (0 < sent.stops + sent.updates → p.eventCount ≠ 0) := by
  have holds : Carries p sent ∧ sent.FewUpdates := by
    apply run.invariant (fun watched => Carries watched.1 watched.2 ∧ watched.2.FewUpdates)
      ⟨.nothing rfl, Nat.zero_lt_succ _⟩
    intro before op after ⟨carries, _⟩ few stepped
    obtain ⟨returned, noted⟩ := observed_eq_ok.mp stepped
    rw [noted]
    exact ⟨carries.step few returned, few⟩
  obtain ⟨carries, few⟩ := holds
  have stop := carries.stop_iff few
  refine ⟨stop, ?_, carries.ne_zero⟩
  rw [Poller.readSignal_eq]
  simp only [stop]

/-- An update is read, and after it two stops and another update are sent. -/
def signalledOps : List SignalOp :=
  [.call (.signal .update), .read, .call (.signal .stop), .call (.signal .stop),
    .call (.update (some ⟨0, 7, .client⟩) epollIn 1000 0 0)]

def signalledPoller : Poller × Sent :=
  (checkedRun (observed Poller.signalStep Sent.note)
    (fun watched op => (watched.2.noted watched.1 op).FewUpdates)
    (Poller.create 3, {}) signalledOps).get (by decide +kernel)

theorem stop_is_read_iff_sent_twice : stopValue ≤ signalledPoller.1.eventCount := by
  have run : Run (observed Poller.signalStep Sent.note)
      (fun watched op => (watched.2.noted watched.1 op).FewUpdates)
      (Poller.create 3, {}) signalledOps signalledPoller := Run.of_isSome _
  exact (stop_is_read_iff_sent run).1.mpr (by decide +kernel)

end Jasl
