import Jasl.Poller.WakeUp
import Jasl.Poller.Deadlines
import Mathlib.Algebra.Group.Int.Defs

/-!
# The timeout of epoll_wait

`ms_to_next_event` returns the time to the earliest deadline as a signed 64-bit
number, `-1` when there is none. `get_epoll_events` takes it as an unsigned one,
leaves `epoll_wait` out when it is zero, and passes it on otherwise, as the `int`
that `epoll_wait` takes. All but the lower 32 bits are lost.

So a deadline that is 2³¹ milliseconds away makes the poller sleep until an event
comes (`far_deadline_sleeps_for_ever`). The wait is right exactly when the lower
32 bits are a positive `int` (`epoll_wait_never_oversleeps_iff`).
-/

set_option autoImplicit false

namespace Jasl

open Library

/-! ## The earliest deadline -/

namespace Scheduler

variable {s : Scheduler}

/-- The first element has the earliest deadline. -/
theorem earliest_of_begin {event : Node Word EventPayload} (first : s.events.begin = some event) :
    s.deadline.Earliest event.key where
  entry := ⟨_, s.linked.deadline_value (OrderedMultimap.begin_mem first)⟩
  least := by
    intro other later scheduled
    obtain ⟨node, member, -, rfl⟩ := s.linked.deadline_eq_some.mp scheduled
    exact OrderedMultimap.begin_le first member

/-- Without a first element there is no timer. -/
theorem deadline_of_begin_eq_none (none : s.events.begin = none) :
    s.deadline = TimerMap.empty := by
  funext payload
  rw [TimerMap.empty, Option.eq_none_iff_forall_ne_some]
  intro time scheduled
  obtain ⟨node, member, -⟩ := s.linked.deadline_eq_some.mp scheduled
  rw [OrderedMultimap.begin_eq_none.mp none] at member
  cases member

/-- A scheduler has no timer, or an earliest deadline, which decides the wait and whether a timer
is due. -/
theorem empty_or_earliest (s : Scheduler) (now : Word) :
    (s.deadline = TimerMap.empty ∧ s.msToNextEvent now = -1 ∧ s.getNextEvent now = none) ∨
      ∃ earliest, s.deadline.Earliest earliest ∧
        s.msToNextEvent now = (if earliest ≤ now then 0 else earliest - now) ∧
        ((s.getNextEvent now).isSome ↔ earliest ≤ now) := by
  cases first : s.events.begin with
  | none =>
      have empty := deadline_of_begin_eq_none first
      refine .inl ⟨empty, by rw [msToNextEvent, first], getNextEvent_eq_none.mpr ?_⟩
      intro payload time scheduled
      rw [empty] at scheduled
      cases scheduled
  | some event =>
      have earliest := earliest_of_begin first
      refine .inr ⟨event.key, earliest, by rw [msToNextEvent, first], ?_⟩
      rw [← not_iff_not, Bool.not_eq_true, Option.isSome_eq_false_iff, Option.isNone_iff_eq_none,
        getNextEvent_eq_none, not_le]
      constructor
      · intro waiting
        obtain ⟨payload, scheduled⟩ := earliest.entry
        exact waiting payload _ scheduled
      · intro later payload time scheduled
        exact later.trans_le (earliest.least payload time scheduled)

end Scheduler

/-! ## The argument -/

/-- A word as an `int`: its remainder modulo 2³², as a signed number. -/
theorem waitArgument_eq (wait : Word) :
    waitArgument wait =
      if wait.toNat % 2 ^ 32 < 2 ^ 31 then ((wait.toNat % 2 ^ 32 : ℕ) : ℤ)
      else ((wait.toNat % 2 ^ 32 : ℕ) : ℤ) - 2 ^ 32 := by
  rw [waitArgument, BitVec.toInt_eq_toNat_cond, BitVec.toNat_setWidth]
  split <;> split <;> omega

namespace Poller

/-- The timeout that `get_epoll_events` passes to `epoll_wait`, `none` when it does not call it. -/
def epollWaitTimeout (p : Poller) (waitClock : Word) : Option ℤ :=
  let wait := p.scheduler.msToNextEvent waitClock
  if wait = 0 then none else some (waitArgument wait)

/-- The kernel is asked when there is a timeout to pass. -/
theorem getEpollEvents_eq (p : Poller) (waitClock : Word) (batch : List EpollEvent) :
    p.getEpollEvents waitClock batch =
      (p.epollWaitTimeout waitClock).elim [] fun _ => batch.take p.epollEvents := by
  simp only [getEpollEvents, epollWaitTimeout]
  split <;> rfl

/-- `epoll_wait` is called when no timer is due, and waits for ever only without timers and
otherwise no longer than to the earliest deadline. -/
structure NeverOversleeps (p : Poller) (now : Word) : Prop where
  for_ever : ∀ timeout, p.epollWaitTimeout now = some timeout → timeout < 0 →
    p.scheduler.deadline = TimerMap.empty
  bounded : ∀ timeout earliest, p.epollWaitTimeout now = some timeout →
    p.scheduler.deadline.Earliest earliest →
      1 ≤ timeout ∧ timeout ≤ (earliest.toNat : ℤ) - now.toNat
  skipped : p.epollWaitTimeout now = none ↔ (p.scheduler.getNextEvent now).isSome

/-- The time to the earliest deadline, when there is some, has lower 32 bits that are a positive
`int`. -/
def WaitFits (p : Poller) (now : Word) : Prop :=
  ∀ earliest, p.scheduler.deadline.Earliest earliest → now < earliest →
    0 < (earliest.toNat - now.toNat) % 2 ^ 32 ∧ (earliest.toNat - now.toNat) % 2 ^ 32 < 2 ^ 31

end Poller

/-- **When epoll_wait sleeps no longer than it may**: for every content of the scheduler and every
clock, exactly when the time to the earliest deadline does not become zero or negative as an
`int`. -/
theorem epoll_wait_never_oversleeps_iff (p : Poller) (now : Word) :
    p.NeverOversleeps now ↔ p.WaitFits now := by
  rcases p.scheduler.empty_or_earliest now with ⟨empty, wait, taken⟩ |
    ⟨earliest, first, wait, taken⟩
  · -- Without a timer the argument is `-1`.
    have timeout : p.epollWaitTimeout now = some (-1) := by
      simp only [Poller.epollWaitTimeout, wait]
      decide
    refine iff_of_true ⟨fun _ _ _ => empty, ?_, ?_⟩ ?_
    · exact fun _ _ _ first => absurd empty first.ne_empty
    · rw [timeout, taken]
      exact iff_of_false nofun nofun
    · exact fun _ first => absurd empty first.ne_empty
  · by_cases due : earliest ≤ now
    · have timeout : p.epollWaitTimeout now = none := by
        simp only [Poller.epollWaitTimeout, wait, if_pos due, if_true]
      refine iff_of_true ⟨?_, ?_, iff_of_true timeout (taken.mpr due)⟩ ?_
      · exact fun _ passed => absurd (timeout.symm.trans passed) nofun
      · exact fun _ _ passed => absurd (timeout.symm.trans passed) nofun
      · intro other first' later
        rw [first'.unique first] at later
        exact absurd due (not_le.mpr later)
    · have later : now.toNat < earliest.toNat := BitVec.toNat_lt_toNat.mpr (not_le.mp due)
      have difference : (earliest - now).toNat = earliest.toNat - now.toNat := by
        have bound := earliest.isLt
        rw [BitVec.toNat_sub]
        omega
      have nonzero : earliest - now ≠ 0 := by
        intro zero
        rw [zero] at difference
        exact absurd difference (by simp; omega)
      have timeout : p.epollWaitTimeout now = some (waitArgument (earliest - now)) := by
        simp only [Poller.epollWaitTimeout, wait, if_neg due, if_neg nonzero]
      have argument := waitArgument_eq (earliest - now)
      rw [difference] at argument
      constructor
      · intro timed other first' _
        obtain ⟨positive, -⟩ := timed.bounded _ _ timeout first
        rw [first'.unique first]
        split at argument <;> omega
      · intro fits
        obtain ⟨positive, small⟩ := fits earliest first (not_le.mp due)
        rw [if_pos small] at argument
        refine ⟨?_, ?_, iff_of_false (by rw [timeout]; exact nofun) (mt taken.mp due)⟩
        · intro passed isPassed negative
          obtain rfl := Option.some.inj (timeout.symm.trans isPassed)
          omega
        · intro passed other isPassed first'
          obtain rfl := Option.some.inj (timeout.symm.trans isPassed)
          rw [first'.unique first]
          have cut := Nat.mod_le (earliest.toNat - now.toNat) (2 ^ 32)
          omega

/-- A socket is registered for reading with a timeout of 2³¹ milliseconds. -/
def patientPoller : Poller :=
  (checkedRun Poller.step Poller.Plausible (Poller.create 3)
    [.update (some ⟨0, 7, .client⟩) epollIn 0x80000000 0 0]).get (by decide +kernel)

/-- The poller waits for ever, with a timer. -/
theorem far_deadline_sleeps_for_ever :
    ¬ ∀ (eventFd : FD) (ops : List PollerOp) (p : Poller) (now : Word),
      Run Poller.step Poller.Plausible (Poller.create eventFd) ops p → p.NeverOversleeps now := by
  intro claim
  have never := claim 3 _ patientPoller 0 (Run.of_isSome _)
  have empty := never.for_ever (-0x80000000) (by decide +kernel) (by decide)
  have scheduled : patientPoller.scheduler.deadline 7 = some 0x80000000 := by decide +kernel
  rw [empty] at scheduled
  cases scheduled

end Jasl
