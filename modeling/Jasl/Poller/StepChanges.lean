import Jasl.Poller.SocketContext
import Mathlib.Data.BitVec
import Mathlib.Data.List.Infix

/-!
# Changing the step of an armed timeout

A timeout that is armed has its deadline changed in two ways: readiness counts it
anew from the clock, and a new step moves it by the difference of the steps. The
difference is a signed 64-bit number added to an unsigned time, and the word that
stands for no deadline is not moved at all.

As long as no sum reaches that word, the deadline is the last reading of the clock
plus the last step, whatever was called in between (`deadline_is_last_clock_and_step`).
-/

set_option autoImplicit false

namespace Jasl

/-- What is called on a timeout that is armed. -/
inductive TimeoutOp where
  | updateTimeout (currentTime : Word)
  | updateTimeoutStep (newStep : Word)
deriving DecidableEq, Repr

namespace TimeoutOp

/-- The last reading of the clock after the call. -/
def noteClock (clock : Word) : TimeoutOp → Word
  | updateTimeout currentTime => currentTime
  | updateTimeoutStep _ => clock

/-- The last step after the call. -/
def noteStep (step : Word) : TimeoutOp → Word
  | updateTimeout _ => step
  | updateTimeoutStep newStep => newStep

end TimeoutOp

/-- The last reading of the clock in a sequence of calls, from that of the arming. -/
def lastClock (clock : Word) (ops : List TimeoutOp) : Word := ops.foldl TimeoutOp.noteClock clock

/-- The last step in a sequence of calls, from that of the arming. -/
def lastStep (step : Word) (ops : List TimeoutOp) : Word := ops.foldl TimeoutOp.noteStep step

namespace Timeout

def perform (timeout : Timeout) : TimeoutOp → Timeout
  | .updateTimeout currentTime => timeout.updateTimeout currentTime
  | .updateTimeoutStep newStep => timeout.updateTimeoutStep newStep

/-- At every moment the last reading and the last step add up to less than `INVALID_TIME`. -/
def SumsFit (clock step : Word) (ops : List TimeoutOp) : Prop :=
  ∀ before, before <+: ops →
    (lastClock clock before).toNat + (lastStep step before).toNat < 2 ^ 64 - 1

instance (clock step : Word) (ops : List TimeoutOp) : Decidable (SumsFit clock step ops) :=
  decidable_of_iff (∀ before ∈ ops.inits,
      (lastClock clock before).toNat + (lastStep step before).toNat < 2 ^ 64 - 1)
    (by simp only [List.mem_inits, SumsFit])

theorem SumsFit.initial {clock step : Word} {before ops : List TimeoutOp}
    (fits : SumsFit clock step ops) (first : before <+: ops) : SumsFit clock step before :=
  fun shorter initial => fits shorter (initial.trans first)

/-- A timeout that counts from a reading with a step. -/
structure Counts (timeout : Timeout) (clock step : Word) : Prop where
  time : timeout.time = clock + step
  step : timeout.step = step

namespace Counts

variable {timeout : Timeout} {clock step : Word}

theorem arm (unarmed : timeout.time = invalidTime) (step clock : Word) :
    (timeout.arm step clock).Counts clock step where
  time := arm_time_of_invalid unarmed step clock
  step := arm_step timeout step clock

theorem toNat_time (counts : timeout.Counts clock step)
    (fits : clock.toNat + step.toNat < 2 ^ 64 - 1) :
    timeout.time.toNat = clock.toNat + step.toNat := by
  rw [counts.time]
  exact BitVec.toNat_add_of_fits (by omega)

/-- A deadline that fits is not the word for none. -/
theorem valid (counts : timeout.Counts clock step)
    (fits : clock.toNat + step.toNat < 2 ^ 64 - 1) : timeout.time ≠ invalidTime := by
  intro invalid
  have sum := counts.toNat_time fits
  rw [invalid, invalidTime, BitVec.toNat_allOnes] at sum
  omega

/-- A new step replaces the old one in the sum, modulo the word: the signed difference does it. -/
theorem perform (counts : timeout.Counts clock step)
    (fits : clock.toNat + step.toNat < 2 ^ 64 - 1) (op : TimeoutOp) :
    (timeout.perform op).Counts (op.noteClock clock) (op.noteStep step) := by
  cases op with
  | updateTimeout currentTime =>
      refine ⟨?_, counts.step⟩
      change currentTime + timeout.step = currentTime + step
      rw [counts.step]
  | updateTimeoutStep newStep =>
      refine ⟨?_, rfl⟩
      have moved : clock + step + (newStep - step) = clock + newStep := by
        rw [BitVec.add_assoc, BitVec.add_comm step, BitVec.sub_add_cancel]
      change (if timeout.time ≠ invalidTime then _ else _) = clock + newStep
      rw [if_pos (counts.valid fits), counts.time, counts.step, moved]

/-- Every sequence of calls in which the sums fit keeps the count. -/
theorem performAll {ops : List TimeoutOp} (counts : timeout.Counts clock step)
    (fits : SumsFit clock step ops) :
    (ops.foldl Timeout.perform timeout).Counts (lastClock clock ops) (lastStep step ops) := by
  induction ops using List.reverseRecOn with
  | nil => exact counts
  | append_singleton ops op ih =>
      have reached := ih (fits.initial (List.prefix_append _ _))
      have next := reached.perform (fits ops (List.prefix_append _ _)) op
      rw [lastClock, lastStep, List.foldl_append, List.foldl_append, List.foldl_append]
      exact next

end Counts

end Timeout

/-- **The deadline is the last activity plus the last step.** A timeout without a deadline is armed,
and then any readings and any new steps follow, such that the sums fit. At every moment its deadline
is the last reading plus the last step, with no wrap; and it is the deadline of every other timeout
armed and changed in such a way to that reading and that step. -/
theorem deadline_is_last_clock_and_step {timeout : Timeout} (unarmed : timeout.time = invalidTime)
    {clock step : Word} {ops : List TimeoutOp} (fits : Timeout.SumsFit clock step ops) :
    (∀ before, before <+: ops →
      (before.foldl Timeout.perform (timeout.arm step clock)).time.toNat =
        (lastClock clock before).toNat + (lastStep step before).toNat) ∧
    ∀ (other : Timeout) (clock' step' : Word) (ops' : List TimeoutOp),
      other.time = invalidTime → Timeout.SumsFit clock' step' ops' →
      lastClock clock' ops' = lastClock clock ops → lastStep step' ops' = lastStep step ops →
        (ops'.foldl Timeout.perform (other.arm step' clock')).time =
          (ops.foldl Timeout.perform (timeout.arm step clock)).time := by
  have counts := Timeout.Counts.arm unarmed step clock
  constructor
  · intro before first
    exact (counts.performAll (fits.initial first)).toNat_time (fits before first)
  · intro other clock' step' ops' unarmed' fits' sameClock sameStep
    have counts' := (Timeout.Counts.arm unarmed' step' clock').performAll fits'
    rw [counts'.time, (counts.performAll fits).time, sameClock, sameStep]

/-- The step grows by more than half of the word, there is activity, and it shrinks again. -/
theorem deadline_is_last_clock_and_step_grown :
    ([.updateTimeoutStep (2 ^ 63 + 100), .updateTimeout 12, .updateTimeoutStep 20].foldl
      Timeout.perform (({} : Timeout).arm 10 5)).time.toNat = 12 + 20 :=
  (deadline_is_last_clock_and_step rfl (by decide +kernel)).1
    [.updateTimeoutStep (2 ^ 63 + 100), .updateTimeout 12, .updateTimeoutStep 20] List.prefix_rfl

end Jasl
