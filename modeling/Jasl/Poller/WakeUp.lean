import Jasl.Poller.PollPhases

/-!
# A sleeping poller and nearer deadlines

A poller sleeps until the nearest deadline it knew when it computed its wait. A
call of `update_socket` may bring a nearer one while it sleeps. A call that
registers a socket writes to the event descriptor, which ends the sleep; a call
for a registered socket does not, so the poller sleeps past the new deadline
(`sleeps_past_new_deadline`). The wait is also cut to an `int`.

`WokenInTime` is the property of a state, and `sleeping_poller_is_woken` says that
it holds in every state that any interleaving reaches in which the waits fit and
no call on a registered socket brings a deadline before the end of a sleep.
-/

set_option autoImplicit false

namespace Jasl

open Library

/-! ## The property and the condition -/

/-- A sleep is over by a time. -/
def Wake.by (wake : Wake) (time : Word) : Prop :=
  match wake with
  | none => False
  | some wakeUp => wakeUp ≤ time.toNat

instance (wake : Wake) (time : Word) : Decidable (wake.by time) :=
  match wake with
  | none => inferInstanceAs (Decidable False)
  | some wakeUp => inferInstanceAs (Decidable (wakeUp ≤ time.toNat))

/-- The wake-up time of a poller that waits or is about to. -/
def Phase.wake : Phase → Option Wake
  | .ready wake | .blocked wake => some wake
  | .idle | .interrupted | .returned _ => none

/-- A poller that is asleep with nothing to read from the event descriptor wakes up by every
deadline. -/
def WokenInTime (c : Polling) : Prop :=
  ∀ wake, c.phase = .blocked wake → c.poller.eventCount = 0 →
    ∀ fd time, c.poller.scheduler.deadline fd = some time → wake.by time

/-- The wait for a timer is not negative as an `int`; and while the poller waits with nothing to
read, a call of `update_socket` for a registered socket leaves it no deadline before the wake-up
time. -/
def KeepsWakeUp (c : Polling) : PollingOp → Prop
  | .compute now =>
      c.poller.scheduler.size ≠ 0 → 0 ≤ waitArgument (c.poller.scheduler.msToNextEvent now)
  | .call (.update (some socket) eventMask timeoutStep readClock writeClock) =>
      c.poller.registers socket = false → timeoutStep ≠ invalidTime → c.poller.eventCount = 0 →
        ∀ wake ∈ c.phase.wake, wake.by
          (c.poller.updatedContext socket eventMask timeoutStep readClock writeClock).nearest
  | _ => True

instance (c : Polling) : (op : PollingOp) → Decidable (KeepsWakeUp c op)
  | .compute now => inferInstanceAs (Decidable (c.poller.scheduler.size ≠ 0 →
      0 ≤ waitArgument (c.poller.scheduler.msToNextEvent now)))
  | .call (.update (some socket) eventMask timeoutStep readClock writeClock) =>
      inferInstanceAs (Decidable (c.poller.registers socket = false → timeoutStep ≠ invalidTime →
        c.poller.eventCount = 0 → ∀ wake ∈ c.phase.wake, wake.by
          (c.poller.updatedContext socket eventMask timeoutStep readClock writeClock).nearest))
  | .call (.update none ..) | .call (.remove _) | .call (.next _) | .call (.signal _)
  | .call (.poll ..) | .block | .wakeUp _ | .interrupt | .process .. =>
      inferInstanceAs (Decidable True)

/-! ## The invariant -/

/-- A poller that waits, or is about to, with nothing to read wakes up by every deadline. -/
def AwakeInTime (c : Polling) : Prop :=
  ∀ wake, c.phase.wake = some wake → c.poller.eventCount = 0 →
    ∀ fd time, c.poller.scheduler.deadline fd = some time → wake.by time

theorem AwakeInTime.woken {c : Polling} (awake : AwakeInTime c) : WokenInTime c := by
  intro wake asleep
  exact awake wake (by rw [asleep]; rfl)

/-- An `int` that is not negative is at most the wait it was cut from. -/
theorem waitArgument_toNat_le {wait : Word} (fits : 0 ≤ waitArgument wait) :
    (waitArgument wait).toNat ≤ wait.toNat := by
  rw [waitArgument, BitVec.toInt_eq_toNat_cond] at fits ⊢
  have narrowed : (wait.setWidth 32).toNat ≤ wait.toNat := by
    rw [BitVec.toNat_setWidth]
    exact Nat.mod_le _ _
  split at fits <;> omega

/-- A computed wake-up time is reached by every deadline. -/
theorem wakeTime_by {p : Poller} {now time : Word} {fd : FD}
    (scheduled : p.scheduler.deadline fd = some time) (waits : p.scheduler.msToNextEvent now ≠ 0)
    (fits : 0 ≤ waitArgument (p.scheduler.msToNextEvent now)) :
    (wakeTime now (p.scheduler.msToNextEvent now)).by time := by
  have bound := Scheduler.msToNextEvent_le scheduled waits
  have cut := waitArgument_toNat_le fits
  rw [wakeTime, if_neg (not_lt.mpr fits)]
  change now.toNat + _ ≤ time.toNat
  omega

/-- A signal leaves something to read in the event descriptor. -/
theorem eventfdWrite_ne_zero (counter : ℕ) (sent : Signal) :
    eventfdWrite counter sent.value ≠ 0 := by
  have positive : 0 < sent.value := by
    cases sent with
    | stop => exact Nat.zero_lt_succ _
    | update => exact Nat.zero_lt_one
  have small : sent.value ≤ 2 ^ 64 - 2 := by
    cases sent with
    | stop =>
        rw [Signal.value, stopValue]
        omega
    | update =>
        rw [Signal.value]
        omega
  rw [eventfdWrite]
  split <;> omega

theorem size_ne_zero_of_deadline {s : Scheduler} {fd : FD} {time : Word}
    (scheduled : s.deadline fd = some time) : s.size ≠ 0 := by
  obtain ⟨node, member, -⟩ := s.linked.deadline_eq_some.mp scheduled
  exact (List.length_pos_of_mem member).ne'

namespace AwakeInTime

variable {c after : Polling}

/-- A poller that does not wait is not late. -/
theorem of_not_waiting (phase : c.phase.wake = none) : AwakeInTime c := by
  intro wake waiting
  rw [phase] at waiting
  cases waiting

/-- Fewer deadlines need no earlier wake-up. -/
theorem mono (awake : AwakeInTime c) (phase : after.phase = c.phase)
    (count : after.poller.eventCount = 0 → c.poller.eventCount = 0)
    (timers : ∀ fd time, after.poller.scheduler.deadline fd = some time →
      c.poller.scheduler.deadline fd = some time) : AwakeInTime after := by
  intro wake waiting empty fd time scheduled
  rw [phase] at waiting
  exact awake wake waiting (count empty) fd time (timers fd time scheduled)

/-- A call of `update_socket` either leaves something to read, or no deadline before the
wake-up. -/
theorem updateSocket (awake : AwakeInTime c) {socket : SocketPtr}
    {eventMask timeoutStep readClock writeClock : Word} {poller : Poller}
    (keeps : KeepsWakeUp c (.call (.update (some socket) eventMask timeoutStep readClock writeClock)))
    (returned : c.poller.updateSocket (some socket) eventMask timeoutStep readClock writeClock =
      .ok poller) : AwakeInTime { c with poller } := by
  have effect := Poller.updateSocket_eq_ok returned
  cases new : c.poller.registers socket with
  | true =>
      intro wake _ empty
      rw [effect.eventCount, new, if_pos rfl] at empty
      exact absurd empty (eventfdWrite_ne_zero _ _)
  | false =>
      have count : poller.eventCount = c.poller.eventCount := by
        rw [effect.eventCount, new, if_neg Bool.false_ne_true]
      by_cases timed : timeoutStep = invalidTime
      · refine awake.mono rfl (fun empty => count ▸ empty) ?_
        intro fd time scheduled
        rwa [effect.untimed timed] at scheduled
      · intro wake waiting empty fd time scheduled
        rw [count] at empty
        rw [effect.timed timed] at scheduled
        by_cases same : fd = (c.poller.contextFor socket).socket.fd
        · rw [same, Function.update_self, Option.some.injEq] at scheduled
          rw [← scheduled]
          exact keeps new timed empty wake waiting
        · rw [Function.update_of_ne same] at scheduled
          exact awake wake waiting empty fd time scheduled

/-- A call of another thread keeps the wake-up in time. -/
theorem call (awake : AwakeInTime c) {op : PollerOp} (other : Polling.OtherThread (.call op))
    (keeps : KeepsWakeUp c (.call op)) {poller : Poller} (returned : c.poller.step op = .ok poller) :
    AwakeInTime { c with poller } := by
  cases Poller.step_outcome returned with
  | updateNull | removeNull | nextEmpty => exact awake
  | update => exact awake.updateSocket keeps returned
  | remove socket =>
      refine awake.mono rfl ?_ ?_
      · rw [Poller.removeSocket_eventCount]
        exact id
      · intro fd time scheduled
        rw [Poller.removeSocket_deadline] at scheduled
        split at scheduled
        · exact scheduled
        · by_cases same : fd = socket.fd
          · rw [same, Function.update_self] at scheduled
            cases scheduled
          · rwa [Function.update_of_ne same] at scheduled
  | poll => exact absurd other id
  | next => exact awake.mono rfl id fun _ _ => id
  | signal =>
      intro wake _ empty
      exact absurd empty (eventfdWrite_ne_zero _ _)

/-- **Every step keeps the wake-up in time** that meets the condition. -/
theorem step (awake : AwakeInTime c) {op : PollingOp} (other : Polling.OtherThread op)
    (keeps : KeepsWakeUp c op) (returned : c.step op = .ok after) : AwakeInTime after := by
  cases Polling.step_eq_ok returned with
  | call succeeded => exact awake.call other keeps succeeded
  | due _ _ => exact of_not_waiting rfl
  | dueAgain _ _ => exact of_not_waiting rfl
  | waits _ waits =>
      intro wake waiting _ fd time scheduled
      obtain rfl := Option.some.inj waiting
      exact wakeTime_by scheduled waits (keeps (size_ne_zero_of_deadline scheduled))
  | block ready =>
      intro wake waiting
      exact awake wake (by rw [ready]; exact waiting)
  | wakeUp _ => exact of_not_waiting rfl
  | interrupt _ => exact of_not_waiting rfl
  | process _ _ => exact of_not_waiting rfl
  | wrongPhase _ => exact awake

end AwakeInTime

/-- The interleavings in which a sleeping poller is woken. -/
def WakingStep (c : Polling) (op : PollingOp) : Prop := Polling.OtherThread op ∧ KeepsWakeUp c op

instance (c : Polling) (op : PollingOp) : Decidable (WakingStep c op) :=
  inferInstanceAs (Decidable (_ ∧ _))

/-- **A sleeping poller is woken for every deadline** in the interleavings in which the waits fit an
`int` and no call on a registered socket brings a deadline before the end of a wait. -/
theorem sleeping_poller_is_woken {eventFd : FD} {ops : List PollingOp} {c : Polling}
    (run : Run Polling.step WakingStep (Polling.create eventFd) ops c) : WokenInTime c := by
  have awake : AwakeInTime c := by
    apply run.invariant AwakeInTime (AwakeInTime.of_not_waiting rfl)
    intro before op after held allowed returned
    exact held.step allowed.1 allowed.2 returned
  exact awake.woken

/-- A socket is registered, the signal read, and the poller asleep until 1000 when the socket gets a
later deadline. -/
def sleepingOps : List PollingOp :=
  [.call (.update (some ⟨0, 7, .client⟩) epollIn 1000 0 0), .compute 0, .block,
    .wakeUp [⟨3, epollIn⟩], .process 0 0, .compute 0, .block,
    .call (.update (some ⟨0, 7, .client⟩) epollIn 2000 5 5)]

def sleepingPolling : Polling :=
  (checkedRun Polling.step WakingStep (Polling.create 3) sleepingOps).get (by decide +kernel)

theorem sleeping_poller_is_woken_later :
    sleepingPolling.phase = .blocked (some 1000) ∧ WokenInTime sleepingPolling :=
  ⟨by decide +kernel, sleeping_poller_is_woken (Run.of_isSome _)⟩

/-! ## A call on a registered socket does not wake the poller -/

/-- The poller is asleep until 1000 when the step of the socket is set to 10. -/
def lateOps : List PollingOp :=
  [.call (.update (some ⟨0, 7, .client⟩) epollIn 1000 0 0), .compute 0, .block,
    .wakeUp [⟨3, epollIn⟩], .process 0 0, .compute 0, .block,
    .call (.update (some ⟨0, 7, .client⟩) epollIn 10 5 5)]

def latePolling : Polling :=
  (checkedRun Polling.step (fun _ op => Polling.OtherThread op) (Polling.create 3) lateOps).get
    (by decide +kernel)

/-- It sleeps past the new deadline. -/
theorem sleeps_past_new_deadline :
    ¬ ∀ (eventFd : FD) (ops : List PollingOp) (c : Polling),
      Run Polling.step (fun _ op => Polling.OtherThread op) (Polling.create eventFd) ops c →
        WokenInTime c := by
  intro claim
  have woken := claim 3 lateOps latePolling (Run.of_isSome _) (some 1000)
    (by decide +kernel) (by decide +kernel) 7 10 (by decide +kernel)
  exact absurd woken (by decide)

end Jasl
