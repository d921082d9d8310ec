import Jasl.Poller.Registration

/-!
# A poll in its phases

`Poller::poll` takes `m_lock` for the second half of its work only. Before that it
computes how long to wait, and sleeps in `epoll_wait`, while other threads call
`update_socket` and `remove_socket`, each under the lock. Here a poll is the four
steps `compute`, `block`, `wakeUp` and `process`, and every call of another thread is
a step of its own, so that a run is any interleaving of them. Without such calls in
between, the four steps are `Poller.poll` (`poll_in_phases`).

The wait is a 64-bit number of milliseconds, but `epoll_wait` takes an `int`: the
upper half is lost, and a negative argument waits for ever. The wake-up time is
counted from the reading of the clock the wait was computed from.

After an interrupted sleep the loop of `get_epoll_events` starts again with `nfds`
at -1. When a timer is due by then, that is what it returns, and `poll` processes as
many reports as -1 is without its sign, of a buffer that was cleared. Unless the
event descriptor has number 0, the first of them stops the process
(`interrupted_poll_aborts`).
-/

set_option autoImplicit false

namespace Jasl

open Library

/-! ## States and steps -/

/-- When a sleep ends at the latest; `none` when only an event ends it. -/
abbrev Wake := Option ℕ

/-- Where the thread that polls stands. -/
inductive Phase where
  /-- Outside of `poll`, or before the loop of `get_epoll_events`. -/
  | idle
  /-- At the head of that loop again, after an interrupted sleep: `nfds` is -1. -/
  | interrupted
  /-- The wait is computed, and `epoll_wait` is not entered yet. -/
  | ready (wake : Wake)
  /-- Asleep in `epoll_wait`. -/
  | blocked (wake : Wake)
  /-- The reports are in the buffer, and the lock is not taken yet. -/
  | returned (batch : List EpollEvent)
deriving DecidableEq, Repr

/-- The batch that is in the buffer. -/
def Phase.batch : Phase → Option (List EpollEvent)
  | .returned batch => some batch
  | .idle | .interrupted | .ready _ | .blocked _ => none

/-- A poller and the thread that polls it. -/
structure Polling where
  poller : Poller
  phase : Phase

/-- What is processed when the -1 of an interrupted `epoll_wait` is taken for the number of reports:
the buffer was set to zero before the call. The loop over them does not get past the second. -/
def interruptedBatch : List EpollEvent := List.replicate (2 ^ 64 - 1) ⟨0, 0⟩

/-- The `int` that `epoll_wait` gets for a wait. -/
def waitArgument (wait : Word) : Int := (wait.setWidth 32).toInt

/-- The wake-up time of a wait computed at a reading of the clock. -/
def wakeTime (now wait : Word) : Wake :=
  if waitArgument wait < 0 then none else some (now.toNat + (waitArgument wait).toNat)

/-- A step of the thread that polls, or a call of another thread. -/
inductive PollingOp where
  | call (op : PollerOp)
  | compute (now : Word)
  | block
  | wakeUp (batch : List EpollEvent)
  | interrupt
  | process (eventClock schedulerClock : Word)
deriving Repr

/-- The steps that a phase takes; a call is taken in every phase. -/
def Phase.accepts : Phase → PollingOp → Bool
  | _, .call _ => true
  | .idle, .compute _ => true
  | .interrupted, .compute _ => true
  | .ready _, .block => true
  | .blocked _, .wakeUp _ => true
  | .blocked _, .interrupt => true
  | .returned _, .process _ _ => true
  | _, _ => false

namespace Polling

def create (eventFd : FD) : Polling := ⟨.create eventFd, .idle⟩

/-- The head of the loop of `get_epoll_events`, with the reports that are returned when a timer is
due. -/
def compute (c : Polling) (now : Word) (unasked : List EpollEvent) : Polling :=
  let wait := c.poller.scheduler.msToNextEvent now
  { c with phase := if wait = 0 then .returned unasked else .ready (wakeTime now wait) }

/-- One step; a step of the thread that polls does nothing in the wrong phase. -/
def step (c : Polling) : PollingOp → Except Assertion Polling
  | .call op =>
      match c.poller.step op with
      | .error failed => .error failed
      | .ok poller => .ok { c with poller }
  | .compute now =>
      match c.phase with
      | .idle => .ok (c.compute now [])
      | .interrupted => .ok (c.compute now interruptedBatch)
      | _ => .ok c
  | .block =>
      match c.phase with
      | .ready wake => .ok { c with phase := .blocked wake }
      | _ => .ok c
  | .wakeUp batch =>
      match c.phase with
      | .blocked _ => .ok { c with phase := .returned (batch.take c.poller.epollEvents) }
      | _ => .ok c
  | .interrupt =>
      match c.phase with
      | .blocked _ => .ok { c with phase := .interrupted }
      | _ => .ok c
  | .process eventClock schedulerClock =>
      match c.phase with
      | .returned batch =>
          match c.poller.processEpollEvents batch eventClock with
          | .error failed => .error failed
          | .ok poller => .ok ⟨poller.processScheduler schedulerClock, .idle⟩
      | _ => .ok c

/-- What a step can do. -/
inductive Stepped (c : Polling) : PollingOp → Polling → Prop where
  | call {op : PollerOp} {poller : Poller} (returned : c.poller.step op = .ok poller) :
      Stepped c (.call op) { c with poller }
  | due {now : Word} (idle : c.phase = .idle) (due : c.poller.scheduler.msToNextEvent now = 0) :
      Stepped c (.compute now) { c with phase := .returned [] }
  | dueAgain {now : Word} (interrupted : c.phase = .interrupted)
      (due : c.poller.scheduler.msToNextEvent now = 0) :
      Stepped c (.compute now) { c with phase := .returned interruptedBatch }
  | waits {now : Word} (head : c.phase = .idle ∨ c.phase = .interrupted)
      (waits : c.poller.scheduler.msToNextEvent now ≠ 0) :
      Stepped c (.compute now)
        { c with phase := .ready (wakeTime now (c.poller.scheduler.msToNextEvent now)) }
  | block {wake : Wake} (ready : c.phase = .ready wake) :
      Stepped c .block { c with phase := .blocked wake }
  | wakeUp {wake : Wake} {batch : List EpollEvent} (asleep : c.phase = .blocked wake) :
      Stepped c (.wakeUp batch) { c with phase := .returned (batch.take c.poller.epollEvents) }
  | interrupt {wake : Wake} (asleep : c.phase = .blocked wake) :
      Stepped c .interrupt { c with phase := .interrupted }
  | process {batch : List EpollEvent} {eventClock schedulerClock : Word} {processed : Poller}
      (returned : c.phase = .returned batch)
      (succeeded : c.poller.processEpollEvents batch eventClock = .ok processed) :
      Stepped c (.process eventClock schedulerClock)
        ⟨processed.processScheduler schedulerClock, .idle⟩
  | wrongPhase {op : PollingOp} (wrong : c.phase.accepts op = false) : Stepped c op c

theorem step_eq_ok {c after : Polling} {op : PollingOp} (returned : c.step op = .ok after) :
    Stepped c op after := by
  obtain ⟨p, phase⟩ := c
  cases op with
  | call op =>
      simp only [step] at returned
      split at returned
      · cases returned
      · rename_i poller succeeded
        obtain rfl := Except.ok.inj returned
        exact .call succeeded
  | compute now =>
      cases phase with
      | idle =>
          obtain rfl := Except.ok.inj returned
          by_cases due : p.scheduler.msToNextEvent now = 0
          · simp only [compute, due, if_true]
            exact .due rfl due
          · simp only [compute, due, if_false]
            exact .waits (.inl rfl) due
      | interrupted =>
          obtain rfl := Except.ok.inj returned
          by_cases due : p.scheduler.msToNextEvent now = 0
          · simp only [compute, due, if_true]
            exact .dueAgain rfl due
          · simp only [compute, due, if_false]
            exact .waits (.inr rfl) due
      | _ =>
          obtain rfl := Except.ok.inj returned
          exact .wrongPhase rfl
  | block =>
      cases phase with
      | ready wake =>
          obtain rfl := Except.ok.inj returned
          exact .block rfl
      | _ =>
          obtain rfl := Except.ok.inj returned
          exact .wrongPhase rfl
  | wakeUp batch =>
      cases phase with
      | blocked wake =>
          obtain rfl := Except.ok.inj returned
          exact .wakeUp rfl
      | _ =>
          obtain rfl := Except.ok.inj returned
          exact .wrongPhase rfl
  | interrupt =>
      cases phase with
      | blocked wake =>
          obtain rfl := Except.ok.inj returned
          exact .interrupt rfl
      | _ =>
          obtain rfl := Except.ok.inj returned
          exact .wrongPhase rfl
  | process eventClock schedulerClock =>
      cases phase with
      | returned batch =>
          simp only [step] at returned
          split at returned
          · cases returned
          · rename_i processed succeeded
            obtain rfl := Except.ok.inj returned
            exact .process rfl succeeded
      | _ =>
          obtain rfl := Except.ok.inj returned
          exact .wrongPhase rfl

theorem step_compute_of_due {p : Poller} {now : Word} (due : p.scheduler.msToNextEvent now = 0) :
    step ⟨p, .idle⟩ (.compute now) = .ok ⟨p, .returned []⟩ := by
  simp only [step, compute, due, if_true]

theorem step_compute_of_waits {p : Poller} {now : Word} (waits : p.scheduler.msToNextEvent now ≠ 0) :
    step ⟨p, .idle⟩ (.compute now) =
      .ok ⟨p, .ready (wakeTime now (p.scheduler.msToNextEvent now))⟩ := by
  simp only [step, compute, waits, if_false]

/-- The calls of another thread are not polls. -/
def OtherThread : PollingOp → Prop
  | .call (.poll ..) => False
  | _ => True

instance : (op : PollingOp) → Decidable (OtherThread op)
  | .call (.poll ..) => inferInstanceAs (Decidable False)
  | .call (.update ..) | .call (.remove _) | .call (.next _) | .call (.signal _) | .compute _
  | .block | .wakeUp _ | .interrupt | .process .. => inferInstanceAs (Decidable True)

/-- The steps of a poll that no other thread interrupts. -/
def phasesOf (p : Poller) (batch : List EpollEvent) (waitClock eventClock schedulerClock : Word) :
    List PollingOp :=
  if p.scheduler.msToNextEvent waitClock = 0 then
    [.compute waitClock, .process eventClock schedulerClock]
  else [.compute waitClock, .block, .wakeUp batch, .process eventClock schedulerClock]

/-- **A poll is the run of its phases.** -/
theorem poll_in_phases {p after : Poller} {batch : List EpollEvent}
    {waitClock eventClock schedulerClock : Word}
    (returned : p.poll batch waitClock eventClock schedulerClock = .ok after) :
    Run step (fun _ op => OtherThread op) ⟨p, .idle⟩
      (phasesOf p batch waitClock eventClock schedulerClock) ⟨after, .idle⟩ := by
  obtain ⟨processed, succeeded, rfl⟩ := Poller.poll_eq_ok returned
  rw [Poller.getEpollEvents] at succeeded
  rw [phasesOf]
  by_cases due : p.scheduler.msToNextEvent waitClock = 0
  · rw [if_pos due] at succeeded ⊢
    have done : step ⟨p, .returned []⟩ (.process eventClock schedulerClock) =
        .ok ⟨processed.processScheduler schedulerClock, .idle⟩ := by
      simp only [step, succeeded]
    exact (Run.single trivial (step_compute_of_due due)).snoc trivial done
  · rw [if_neg due] at succeeded ⊢
    have done : step ⟨p, .returned (batch.take p.epollEvents)⟩
        (.process eventClock schedulerClock) =
          .ok ⟨processed.processScheduler schedulerClock, .idle⟩ := by
      simp only [step, succeeded]
    exact (((Run.single trivial (step_compute_of_waits due)).snoc trivial rfl).snoc trivial
      rfl).snoc trivial done

end Polling

/-! ## After an interrupted sleep -/

/-- No socket is found for the first report, or no event is built for it. -/
theorem Poller.processEpollEvents_interruptedBatch {p : Poller} (eventFd : p.eventFd ≠ 0)
    (eventClock : Word) :
    p.processEpollEvents interruptedBatch eventClock = .error
      (if (p.activeSockets 0).isNone then .invalidSocketDescriptor else .emptyEvent) := by
  have failed : p.processReport ⟨0, 0⟩ eventClock = .error
      (if (p.activeSockets 0).isNone then .invalidSocketDescriptor else .emptyEvent) := by
    rw [processReport]
    cases p.activeSockets 0 with
    | none => rfl
    | some context => exact if_pos rfl
  have count : 2 ^ 64 - 1 = 2 ^ 64 - 2 + 1 := by omega
  rw [interruptedBatch, count, List.replicate_succ, processEpollEvents, processReports,
    if_neg eventFd.symm, failed]

/-- **A poll whose sleep was interrupted and whose timer is due then stops the process**, when the
event descriptor is not 0. -/
theorem interrupted_poll_aborts {c due : Polling} {now eventClock schedulerClock : Word}
    (interrupted : c.phase = .interrupted) (isDue : c.poller.scheduler.msToNextEvent now = 0)
    (eventFd : c.poller.eventFd ≠ 0) (computed : c.step (.compute now) = .ok due) :
    due.step (.process eventClock schedulerClock) = .error
      (if (c.poller.activeSockets 0).isNone then .invalidSocketDescriptor else .emptyEvent) := by
  cases Polling.step_eq_ok computed with
  | due idle _ => cases idle.symm.trans interrupted
  | dueAgain _ _ =>
      simp only [Polling.step, Poller.processEpollEvents_interruptedBatch eventFd]
  | waits _ waits => exact absurd isDue waits
  | wrongPhase wrong =>
      rw [interrupted] at wrong
      cases wrong

end Jasl
