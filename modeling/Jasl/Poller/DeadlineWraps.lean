import Jasl.Poller.Deadlines

/-!
# Deadlines that wrap into the past

`add_to_scheduler` and `update_timeout` write a deadline as the sum of the clock and
a step, modulo 2⁶⁴. A direction that was never armed has the all-ones word for its
step, so the first report on it writes a deadline one before the clock
(`report_of_unarmed_direction_wraps`); the same happens with a step so large that
the sum does not fit.

The deadlines that a call writes are noted beside the poller (`Poller.writes`). In a
run whose calls compute sums that fit none lies before the clock it was computed
from, and a further call keeps that exactly when its sums fit
(`deadlines_never_wrap`).
-/

set_option autoImplicit false

namespace Jasl

open Library

/-! ## What is written -/

/-- A deadline that is written, with the reading of the clock it was computed from. -/
structure DeadlineWrite where
  clock : Word
  deadline : Word
deriving DecidableEq, Repr

/-- The deadline is none, or not before the reading. -/
def DeadlineWrite.NotPast (write : DeadlineWrite) : Prop :=
  write.deadline = invalidTime ∨ write.clock ≤ write.deadline

instance (write : DeadlineWrite) : Decidable write.NotPast := inferInstanceAs (Decidable (_ ∨ _))

/-- The sum of a reading and a step does not wrap. -/
def Unwrapped (reading step : Word) : Prop := reading.toNat + step.toNat < 2 ^ 64

instance (reading step : Word) : Decidable (Unwrapped reading step) :=
  inferInstanceAs (Decidable (_ < _))

/-- **A sum lies before the reading exactly when it wraps.** -/
theorem notPast_add {clock step : Word} :
    DeadlineWrite.NotPast ⟨clock, clock + step⟩ ↔ Unwrapped clock step := by
  have clockBound := clock.isLt
  have stepBound := step.isLt
  constructor
  · intro notPast
    have above : clock ≤ clock + step := by
      rcases notPast with none | later
      · change clock + step = invalidTime at none
        rw [none]
        exact SocketContext.le_invalidTime clock
      · exact later
    rw [← BitVec.toNat_le_toNat, BitVec.toNat_add] at above
    rw [Unwrapped]
    by_contra wraps
    have less : (clock.toNat + step.toNat) % 2 ^ 64 = clock.toNat + step.toNat - 2 ^ 64 := by
      rw [Nat.mod_eq_sub_mod (by omega), Nat.mod_eq_of_lt (by omega)]
    omega
  · intro fits
    refine .inr ?_
    change clock ≤ clock + step
    rw [← BitVec.toNat_le_toNat, BitVec.toNat_add_of_fits fits]
    omega

/-- The deadline that arming writes: none when the timeout has one after its step is changed. -/
def Timeout.armWrites (timeout : Timeout) (timeoutStep clock : Word) : List DeadlineWrite :=
  if (timeout.updateTimeoutStep timeoutStep).time = invalidTime then
    [⟨clock, (timeout.arm timeoutStep clock).time⟩]
  else []

namespace SocketContext

/-- The deadlines that `add_to_scheduler` writes. -/
def armWrites (context : SocketContext) (action timeoutStep readClock writeClock : Word) :
    List DeadlineWrite :=
  [Direction.read, .write].flatMap fun direction =>
    if action.has direction.epoll then
      (context.timeout direction).armWrites timeoutStep (direction.clock readClock writeClock)
    else []

/-- The deadlines that `update_timeout` writes for a report. -/
def refreshWrites (context : SocketContext) (mask : BitVec 32) (currentTime : Word) :
    List DeadlineWrite :=
  [Direction.read, .write].flatMap fun direction =>
    if mask.has direction.epoll then
      [⟨currentTime, ((context.timeout direction).updateTimeout currentTime).time⟩]
    else []

end SocketContext

namespace Poller

/-- The deadlines that the loop of `process_epoll_events` writes, up to the assertion that fails
when one does. -/
def reportWrites (p : Poller) (currentTime : Word) : List EpollEvent → List DeadlineWrite
  | [] => []
  | report :: rest =>
      if report.data = p.eventFd then
        let (p, handled) := { p with eventCount := 0 }.processSignal p.eventCount
        if handled ≠ 0 then p.reportWrites currentTime rest else []
      else
        match p.activeSockets report.data with
        | none => []
        | some context =>
            context.refreshWrites report.events currentTime ++
              match p.processReport report currentTime with
              | .error _ => []
              | .ok p => p.reportWrites currentTime rest

/-- The deadlines that a call writes. -/
def writes (p : Poller) : PollerOp → List DeadlineWrite
  | .update (some socket) eventMask timeoutStep readClock writeClock =>
      if timeoutStep = invalidTime then []
      else
        (p.contextFor socket).armWrites eventMask (effectiveStep timeoutStep) readClock writeClock
  | .poll batch waitClock eventClock _ =>
      p.reportWrites eventClock (p.getEpollEvents waitClock batch)
  | _ => []

/-! ## The sums of a call -/

/-- Arming counts from the clock when there is no deadline, or when the moved one would be the word
for none. -/
def ArmSumFits (timeout : Timeout) (timeoutStep clock : Word) : Prop :=
  timeout.time = invalidTime ∨ timeout.time + (timeoutStep - timeout.step) = invalidTime →
    Unwrapped clock timeoutStep

instance (timeout : Timeout) (timeoutStep clock : Word) :
    Decidable (ArmSumFits timeout timeoutStep clock) := inferInstanceAs (Decidable (_ → _))

/-- The sums that the call computes from readings of the clock do not wrap. -/
def SumsFit (p : Poller) : PollerOp → Prop
  | .update (some socket) eventMask timeoutStep readClock writeClock =>
      timeoutStep ≠ invalidTime → ∀ direction ∈ [Direction.read, .write],
        eventMask.has direction.epoll = true →
          ArmSumFits ((p.contextFor socket).timeout direction) (effectiveStep timeoutStep)
            (direction.clock readClock writeClock)
  | .poll batch waitClock eventClock _ =>
      ∀ report ∈ delivered p.eventFd p.eventCount (p.getEpollEvents waitClock batch),
        ∀ context ∈ p.activeSockets report.data, ∀ direction ∈ [Direction.read, .write],
          report.events.has direction.epoll = true →
            Unwrapped eventClock (context.timeout direction).step
  | _ => True

instance (p : Poller) : (op : PollerOp) → Decidable (p.SumsFit op)
  | .update (some _) _ _ _ _ => inferInstanceAs (Decidable (_ → _))
  | .poll _ _ _ _ => inferInstanceAs (Decidable (∀ _ ∈ _, _))
  | .update none .. | .remove _ | .next _ | .signal _ => inferInstanceAs (Decidable True)

end Poller

/-! ## One context -/

namespace Direction

theorem mem_both (direction : Direction) : direction ∈ [read, write] := by
  cases direction <;> decide

end Direction

theorem Timeout.updateTimeoutStep_time_eq_invalid {timeout : Timeout} {timeoutStep : Word} :
    (timeout.updateTimeoutStep timeoutStep).time = invalidTime ↔
      timeout.time = invalidTime ∨
        timeout.time + (timeoutStep - timeout.step) = invalidTime := by
  by_cases armed : timeout.time = invalidTime
  · simp [updateTimeoutStep, armed]
  · simp [updateTimeoutStep, armed]

/-- What arming writes is the sum of the clock and the step. -/
theorem Timeout.mem_armWrites {timeout : Timeout} {timeoutStep clock : Word}
    {write : DeadlineWrite} :
    write ∈ timeout.armWrites timeoutStep clock ↔
      (timeout.updateTimeoutStep timeoutStep).time = invalidTime ∧
        write = ⟨clock, clock + timeoutStep⟩ := by
  rw [armWrites]
  split
  · rename_i unarmed
    rw [List.mem_singleton, arm, if_pos unarmed, and_iff_right unarmed]
  · rename_i armed
    exact iff_of_false List.not_mem_nil fun written => armed written.1

theorem Timeout.armWrites_notPast {timeout : Timeout} {timeoutStep clock : Word} :
    (∀ write ∈ timeout.armWrites timeoutStep clock, write.NotPast) ↔
      Poller.ArmSumFits timeout timeoutStep clock := by
  simp only [mem_armWrites, Poller.ArmSumFits, updateTimeoutStep_time_eq_invalid]
  constructor
  · intro sound unarmed
    exact notPast_add.mp (sound _ ⟨unarmed, rfl⟩)
  · rintro fits _ ⟨unarmed, rfl⟩
    exact notPast_add.mpr (fits unarmed)

namespace SocketContext

variable {context : SocketContext} {write : DeadlineWrite}

theorem mem_armWrites {action timeoutStep readClock writeClock : Word} :
    write ∈ context.armWrites action timeoutStep readClock writeClock ↔
      ∃ direction : Direction, action.has direction.epoll = true ∧
        write ∈ (context.timeout direction).armWrites timeoutStep
          (direction.clock readClock writeClock) := by
  simp only [armWrites, List.mem_flatMap, Direction.mem_both, true_and, List.mem_ite_nil_right]

theorem mem_refreshWrites {mask : BitVec 32} {now : Word} :
    write ∈ context.refreshWrites mask now ↔
      ∃ direction : Direction, mask.has direction.epoll = true ∧
        write = ⟨now, now + (context.timeout direction).step⟩ := by
  simp only [refreshWrites, List.mem_flatMap, Direction.mem_both, true_and,
    List.mem_ite_nil_right, List.mem_singleton]
  rfl

/-- Earlier reports change no step, and so nothing that is written. -/
theorem refreshWrites_reported (context : SocketContext) (now : Word) (masks : List (BitVec 32))
    (mask : BitVec 32) :
    (context.reported now masks).refreshWrites mask now = context.refreshWrites mask now := by
  have steps : ∀ direction,
      ((context.reported now masks).timeout direction).updateTimeout now =
        (context.timeout direction).updateTimeout now := by
    intro direction
    rw [timeout_reported]
    split <;> rfl
  simp only [refreshWrites, steps]

end SocketContext

/-! ## The reports of a batch -/

namespace Poller

variable {p : Poller} {now : Word}

/-- The deadlines that some reports write, on the contexts as they are. -/
def refreshesOf (p : Poller) (now : Word) (reports : List EpollEvent) : List DeadlineWrite :=
  reports.flatMap fun report =>
    (p.activeSockets report.data).elim [] fun context => context.refreshWrites report.events now

theorem mem_refreshesOf {reports : List EpollEvent} {write : DeadlineWrite} :
    write ∈ p.refreshesOf now reports ↔ ∃ report ∈ reports,
      ∃ context ∈ p.activeSockets report.data,
        write ∈ context.refreshWrites report.events now := by
  rw [refreshesOf, List.mem_flatMap]
  refine exists_congr fun report => and_congr_right fun _ => ?_
  cases p.activeSockets report.data with
  | none => exact iff_of_false List.not_mem_nil nofun
  | some context =>
      constructor
      · exact fun written => ⟨context, rfl, written⟩
      · rintro ⟨_, own, written⟩
        obtain rfl := Option.some.inj own
        exact written

/-- **What the loop writes** is what the reports delivered write on the contexts before the batch,
or the beginning of that when an assertion fails. -/
theorem reportWrites_spec (batch : List EpollEvent) :
    ∀ {q : Poller} {seen : List EpollEvent}, p.Refreshed now seen q →
      q.reportWrites now batch <+: p.refreshesOf now (delivered q.eventFd q.eventCount batch) ∧
        ∀ result, q.processReports now batch = .ok result →
          q.reportWrites now batch =
            p.refreshesOf now (delivered q.eventFd q.eventCount batch) := by
  induction batch with
  | nil => exact fun _ => ⟨List.prefix_rfl, fun _ _ => rfl⟩
  | cons report rest ih =>
      intro q seen refreshed
      rw [reportWrites, processReports, delivered]
      by_cases signalled : report.data = q.eventFd
      · simp only [if_pos signalled, processSignal]
        by_cases stops : stopValue ≤ q.eventCount
        · rw [if_pos (Or.inr stops)]
          simp only [if_pos stops]
          exact ⟨List.prefix_rfl, fun _ _ => rfl⟩
        · simp only [if_neg stops]
          by_cases empty : q.eventCount = 0
          · rw [if_neg (not_not.mpr empty), if_pos (Or.inl empty)]
            exact ⟨List.prefix_rfl, fun _ _ => rfl⟩
          · rw [if_pos empty, if_pos empty, if_neg (by simp [empty, stops])]
            exact ih refreshed
      · simp only [if_neg signalled]
        rw [refreshesOf, List.flatMap_cons]
        have stored := refreshed report.data
        cases there : p.activeSockets report.data with
        | none =>
            rw [there, Option.map_none] at stored
            have invalid : q.processReport report now = .error .invalidSocketDescriptor := by
              simp only [Poller.processReport, stored]
            simp only [stored, invalid]
            exact ⟨List.nil_prefix, by simp⟩
        | some context =>
            rw [there, Option.map_some] at stored
            simp only [stored, SocketContext.refreshWrites_reported, Option.elim_some]
            cases processed : q.processReport report now with
            | error failed =>
                rw [List.append_nil]
                exact ⟨List.prefix_append _ _, by simp⟩
            | ok next =>
                obtain ⟨_, effect⟩ := processReport_eq_ok processed
                have later := ih (refreshed.processReport processed)
                rw [effect.eventFd, effect.eventCount] at later
                refine ⟨(List.prefix_append_right_inj _).mpr later.1, ?_⟩
                intro result succeeded
                exact congrArg _ (later.2 result succeeded)

/-! ## One call -/

/-- The sums of the reports delivered fit exactly when nothing they write lies in the past. -/
theorem refreshesOf_notPast {reports : List EpollEvent} :
    (∀ write ∈ p.refreshesOf now reports, write.NotPast) ↔
      ∀ report ∈ reports, ∀ context ∈ p.activeSockets report.data,
        ∀ direction ∈ [Direction.read, .write], report.events.has direction.epoll = true →
          Unwrapped now (context.timeout direction).step := by
  constructor
  · intro sound report member context found direction _ reported
    exact notPast_add.mp (sound _ (mem_refreshesOf.mpr
      ⟨report, member, context, found, SocketContext.mem_refreshWrites.mpr
        ⟨direction, reported, rfl⟩⟩))
  · intro fits write written
    obtain ⟨report, member, context, found, written⟩ := mem_refreshesOf.mp written
    obtain ⟨direction, reported, rfl⟩ := SocketContext.mem_refreshWrites.mp written
    exact notPast_add.mpr (fits report member context found direction direction.mem_both reported)

theorem armWrites_notPast {context : SocketContext}
    {action timeoutStep readClock writeClock : Word} :
    (∀ write ∈ context.armWrites action timeoutStep readClock writeClock, write.NotPast) ↔
      ∀ direction ∈ [Direction.read, .write], action.has direction.epoll = true →
        ArmSumFits (context.timeout direction) timeoutStep
          (direction.clock readClock writeClock) := by
  simp only [SocketContext.mem_armWrites, ← Timeout.armWrites_notPast]
  constructor
  · intro sound direction _ named write written
    exact sound write ⟨direction, named, written⟩
  · rintro sound write ⟨direction, named, written⟩
    exact sound direction direction.mem_both named write written

/-- When its sums fit, a call writes no deadline in the past, and a call that returns writes one
otherwise. -/
theorem writes_notPast (p : Poller) (op : PollerOp) :
    (p.SumsFit op → ∀ write ∈ p.writes op, write.NotPast) ∧
      ∀ after, p.step op = .ok after → (∀ write ∈ p.writes op, write.NotPast) → p.SumsFit op := by
  cases op with
  | update socket eventMask timeoutStep readClock writeClock =>
      cases socket with
      | none => exact ⟨fun _ _ written => absurd written List.not_mem_nil, fun _ _ _ => trivial⟩
      | some socket =>
          simp only [writes, SumsFit]
          by_cases untimed : timeoutStep = invalidTime
          · simp [untimed]
          · simp only [if_neg untimed, armWrites_notPast]
            exact ⟨fun fits => fits untimed, fun _ _ fits _ => fits⟩
  | poll batch waitClock eventClock schedulerClock =>
      obtain ⟨written, all⟩ :=
        reportWrites_spec (p.getEpollEvents waitClock batch) (.start p eventClock)
      simp only [writes, SumsFit, ← refreshesOf_notPast]
      refine ⟨fun sound write member => sound write (written.subset member), ?_⟩
      intro after returned sound
      obtain ⟨processed, succeeded, -⟩ := poll_eq_ok returned
      obtain ⟨left, toEnd, reached, -⟩ := processEpollEvents_eq_ok succeeded
      rwa [all (left, toEnd) reached] at sound
  | _ => exact ⟨fun _ _ written => absurd written List.not_mem_nil, fun _ _ _ => trivial⟩

end Poller

/-! ## Sequences of calls -/

/-- The deadlines written since the poller was created. -/
abbrev WriteLog := List DeadlineWrite

def WriteLog.note (p : Poller) (op : PollerOp) (_ : Poller) (log : WriteLog) : WriteLog :=
  log ++ p.writes op

/-- **When no deadline wraps into the past**: in every run, with any masks, steps, reports and
clocks, whose calls compute sums that fit. A further call keeps that when its sums fit, also if an
assertion stops it, and a call that returns in no other case. -/
theorem deadlines_never_wrap {eventFd : FD} {ops : List PollerOp} {p : Poller} {log : WriteLog}
    (run : Run (observed Poller.step WriteLog.note) (fun watched op => watched.1.SumsFit op)
      (Poller.create eventFd, []) ops (p, log)) :
    (∀ write ∈ log, write.NotPast) ∧
      ∀ op, (p.SumsFit op → ∀ write ∈ p.writes op, write.NotPast) ∧
        ∀ after, p.step op = .ok after →
          ((∀ write ∈ p.writes op, write.NotPast) ↔ p.SumsFit op) := by
  constructor
  · apply run.invariant (fun watched => ∀ write ∈ watched.2, write.NotPast) nofun
    intro before op after sound fits stepped write written
    rw [(observed_eq_ok.mp stepped).2, WriteLog.note, List.mem_append] at written
    rcases written with earlier | own
    · exact sound write earlier
    · exact (before.1.writes_notPast op).1 fits write own
  · intro op
    obtain ⟨sound, exact_⟩ := p.writes_notPast op
    exact ⟨sound, fun after returned => ⟨exact_ after returned, sound⟩⟩

/-- A socket is armed in one direction, reported, and given a longer step in both. -/
def armedOps : List PollerOp :=
  [.update (some ⟨0, 7, .client⟩) epollIn 1000 5 5, .poll [⟨7, epollIn⟩] 6 7 8,
    .update (some ⟨0, 7, .client⟩) (epollIn ||| epollOut) 0 9 10]

def armedWrites : Poller × WriteLog :=
  (checkedRun (observed Poller.step WriteLog.note) (fun watched op => watched.1.SumsFit op)
    (Poller.create 3, []) armedOps).get (by decide +kernel)

theorem deadlines_never_wrap_armed :
    Run (observed Poller.step WriteLog.note) (fun watched op => watched.1.SumsFit op)
      (Poller.create 3, []) armedOps armedWrites ∧ ∀ write ∈ armedWrites.2, write.NotPast := by
  have run : Run (observed Poller.step WriteLog.note) (fun watched op => watched.1.SumsFit op)
      (Poller.create 3, []) armedOps armedWrites := Run.of_isSome _
  exact ⟨run, (deadlines_never_wrap run).1⟩

/-- A socket is registered for reading without a timeout, and is readable at 5: its new deadline
is 4. -/
def unarmedOps : List PollerOp :=
  [.update (some ⟨0, 7, .client⟩) epollIn invalidTime 0 0, .poll [⟨7, epollIn⟩] 1 5 6]

def unarmedWrites : Poller × WriteLog :=
  (checkedRun (observed Poller.step WriteLog.note) (fun watched op => watched.1.Plausible op)
    (Poller.create 3, []) unarmedOps).get (by decide +kernel)

theorem report_of_unarmed_direction_wraps :
    ¬ ∀ (eventFd : FD) (ops : List PollerOp) (reached : Poller × WriteLog),
      Run (observed Poller.step WriteLog.note) (fun watched op => watched.1.Plausible op)
        (Poller.create eventFd, []) ops reached →
      (ops.flatMap PollerOp.readings).Pairwise (· ≤ ·) →
        ∀ write ∈ reached.2, write.NotPast := by
  intro claim
  have sound := claim 3 unarmedOps unarmedWrites (Run.of_isSome _) (by decide +kernel) ⟨5, 4⟩
    (by decide +kernel)
  exact absurd sound (by decide +kernel)

end Jasl
