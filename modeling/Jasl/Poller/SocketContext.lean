import Jasl.Poller.Scheduler
import Jasl.Library.KeyedSet
import Mathlib.Order.MinMax

/-!
# Sockets as the poller sees them: events, contexts and timeouts

A `PollerEvent` tells the reactor what to do with a socket; a `SocketContext`
holds the two timeouts the poller keeps for one. Deadlines and steps are 64-bit
words, and every sum of them wraps. The all-ones word is `INVALID_TIME`: no
deadline, and also the step a timeout starts with.

The event flags are the enumerators of `PollerEvent`, the report flags those of
`sys/epoll.h`.
-/

set_option autoImplicit false

namespace Jasl

open Library

/-- The 64 bits of `FileDescriptor::FD`. -/
abbrev FD := Word

/-- The class of a socket object, which decides what its virtual `read` and `write` do. -/
inductive SocketClass where
  | client
  | server
deriving DecidableEq, Repr

/-- A `std::shared_ptr<Socket>` that is not null: the address of the object, with what never
changes in it after its construction, the descriptor `*m_fd` and its class. -/
structure SocketPtr where
  address : ℕ
  fd : FD
  kind : SocketClass
deriving DecidableEq, Repr

/-- The assertions that stop the process. -/
inductive Assertion where
  /-- `SocketContext::get_nearest_timeout` finds both deadlines invalid. -/
  | noDeadline
  /-- `Poller::process_epoll_events` finds no socket under a reported descriptor. -/
  | invalidSocketDescriptor
  /-- `Poller::process_epoll_events` builds an event without an action. -/
  | emptyEvent
deriving DecidableEq, Repr

/-! ## Reports of `epoll_wait` -/

section EpollFlags

variable {w : ℕ}

def epollIn : BitVec w := BitVec.twoPow w 0
def epollOut : BitVec w := BitVec.twoPow w 2
def epollErr : BitVec w := BitVec.twoPow w 3
def epollHup : BitVec w := BitVec.twoPow w 4
def epollRdHup : BitVec w := BitVec.twoPow w 13

end EpollFlags

/-- `epoll_event`, with the descriptor in `data`. -/
structure EpollEvent where
  data : FD
  events : BitVec 32
deriving DecidableEq, Repr

/-! ## Events for the reactor -/

/-- `PollerEvent`, where `none` is the null pointer. -/
structure PollerEvent where
  socket : Option SocketPtr := none
  action : Word := 0
  closeReason : Word := 0
deriving DecidableEq, Repr

namespace PollerEvent

def read : Word := 1#64 <<< 0
def write : Word := 1#64 <<< 1
def close : Word := 1#64 <<< 2

def peerShutdown : Word := 1#64 <<< 0
def unexpectedShutdown : Word := 1#64 <<< 1
def socketError : Word := 1#64 <<< 2
def timeoutRead : Word := 1#64 <<< 3
def timeoutWrite : Word := 1#64 <<< 4

/-- The event that `Poller::process_epoll_events` builds from the report on a socket. -/
def ofReport (socket : SocketPtr) (mask : BitVec 32) : PollerEvent where
  socket := some socket
  action :=
    (if mask.has epollIn then read else 0#64) ||| (if mask.has epollOut then write else 0#64) |||
      (if mask.has (epollHup ||| epollRdHup ||| epollErr) then close else 0#64)
  closeReason :=
    (if mask.has epollHup then peerShutdown else 0#64) |||
      (if mask.has epollRdHup then unexpectedShutdown else 0#64) |||
        (if mask.has epollErr then socketError else 0#64)

/-- A report never gives a timeout as the reason of a close. -/
theorem ofReport_not_has_timeout (socket : SocketPtr) (mask : BitVec 32) :
    (ofReport socket mask).closeReason.has timeoutRead = false ∧
      (ofReport socket mask).closeReason.has timeoutWrite = false := by
  simp only [ofReport, BitVec.has_or, BitVec.has_ite]
  cases mask.has epollHup <;> cases mask.has epollRdHup <;> cases mask.has epollErr <;> decide

end PollerEvent

/-- The pending events, told apart by their sockets as `PollerEvent::hash` and `operator==` do. -/
abbrev OutputEvents := KeyedSet PollerEvent.socket

/-! ## Timeouts -/

/-- `SocketContext::Timeout`. -/
structure Timeout where
  time : Word := invalidTime
  step : Word := invalidTime
deriving DecidableEq, Repr

namespace Timeout

/-- `SocketContext::Timeout::update_timeout`. -/
def updateTimeout (timeout : Timeout) (currentTime : Word) : Timeout :=
  { timeout with time := currentTime + timeout.step }

/-- `SocketContext::Timeout::update_timeout_step`. -/
def updateTimeoutStep (timeout : Timeout) (newStep : Word) : Timeout where
  time :=
    if timeout.time ≠ invalidTime then timeout.time + (newStep - timeout.step) else timeout.time
  step := newStep

/-- What `Poller::add_to_scheduler` does with the timeout of a direction in the mask. -/
def arm (timeout : Timeout) (timeoutStep clock : Word) : Timeout :=
  let timeout := timeout.updateTimeoutStep timeoutStep
  if timeout.time = invalidTime then { timeout with time := clock + timeoutStep } else timeout

@[simp] theorem arm_step (timeout : Timeout) (timeoutStep clock : Word) :
    (timeout.arm timeoutStep clock).step = timeoutStep := by
  rw [arm]
  split <;> rfl

/-- Arming without a deadline counts from the clock. -/
theorem arm_time_of_invalid {timeout : Timeout} (unarmed : timeout.time = invalidTime)
    (timeoutStep clock : Word) : (timeout.arm timeoutStep clock).time = clock + timeoutStep := by
  simp [arm, updateTimeoutStep, unarmed]

/-- Arming with a deadline moves it by the change of the step. -/
theorem arm_time_of_valid {timeout : Timeout} {timeoutStep : Word} (clock : Word)
    (armed : timeout.time ≠ invalidTime)
    (valid : timeout.time + (timeoutStep - timeout.step) ≠ invalidTime) :
    (timeout.arm timeoutStep clock).time = timeout.time + (timeoutStep - timeout.step) := by
  simp [arm, updateTimeoutStep, armed, valid]

end Timeout

/-! ## Contexts -/

/-- `SocketContext`. -/
@[ext] structure SocketContext where
  socket : SocketPtr
  readTimeout : Timeout := {}
  writeTimeout : Timeout := {}
deriving DecidableEq, Repr

namespace SocketContext

def defaultTimeoutMs : Word := 30000

/-- The earlier of the two deadlines. -/
def nearest (context : SocketContext) : Word :=
  min context.readTimeout.time context.writeTimeout.time

/-- `SocketContext::get_nearest_timeout`. -/
def getNearestTimeout (context : SocketContext) : Except Assertion Word :=
  if context.readTimeout.time ≠ invalidTime ∨ context.writeTimeout.time ≠ invalidTime then
    .ok context.nearest
  else .error .noDeadline

/-- `SocketContext::get_timeout_type`. -/
def getTimeoutType (context : SocketContext) (currentTime : Word) : Word :=
  (if context.readTimeout.time ≤ currentTime then PollerEvent.timeoutRead else 0#64) |||
    (if context.writeTimeout.time ≤ currentTime then PollerEvent.timeoutWrite else 0#64)

/-- What `Poller::add_to_scheduler` does with the timeouts of a socket; the clock is read once for
each direction in the mask. -/
def arm (context : SocketContext) (action timeoutStep readClock writeClock : Word) :
    SocketContext :=
  { context with
    readTimeout :=
      if action.has epollIn then context.readTimeout.arm timeoutStep readClock
      else context.readTimeout
    writeTimeout :=
      if action.has epollOut then context.writeTimeout.arm timeoutStep writeClock
      else context.writeTimeout }

/-- What `Poller::process_epoll_events` does with the timeouts of a reported socket. -/
def refresh (context : SocketContext) (mask : BitVec 32) (currentTime : Word) : SocketContext :=
  { context with
    readTimeout :=
      if mask.has epollIn then context.readTimeout.updateTimeout currentTime
      else context.readTimeout
    writeTimeout :=
      if mask.has epollOut then context.writeTimeout.updateTimeout currentTime
      else context.writeTimeout }

@[simp] theorem arm_socket (context : SocketContext) (action step readClock writeClock : Word) :
    (context.arm action step readClock writeClock).socket = context.socket := rfl

@[simp] theorem refresh_socket (context : SocketContext) (mask : BitVec 32) (currentTime : Word) :
    (context.refresh mask currentTime).socket = context.socket := rfl

theorem le_invalidTime (time : Word) : time ≤ invalidTime :=
  BitVec.le_def.mpr (by simp only [invalidTime, BitVec.toNat_allOnes]; omega)

/-- The earlier deadline is invalid only when both are. -/
theorem nearest_eq_invalid {context : SocketContext} :
    context.nearest = invalidTime ↔
      context.readTimeout.time = invalidTime ∧ context.writeTimeout.time = invalidTime := by
  constructor
  · intro invalid
    constructor
    · apply le_antisymm (le_invalidTime _)
      rw [← invalid]
      exact min_le_left _ _
    · apply le_antisymm (le_invalidTime _)
      rw [← invalid]
      exact min_le_right _ _
  · rintro ⟨read, write⟩
    rw [nearest, read, write, min_self]

/-- When the assertion holds, the deadline returned is the earlier one, and it is valid. -/
theorem getNearestTimeout_eq_ok {context : SocketContext} {time : Word} :
    context.getNearestTimeout = .ok time ↔ time = context.nearest ∧ time ≠ invalidTime := by
  rw [getNearestTimeout]
  by_cases valid : context.readTimeout.time ≠ invalidTime ∨ context.writeTimeout.time ≠ invalidTime
  · have some : context.nearest ≠ invalidTime := fun invalid => by
      obtain ⟨read, write⟩ := nearest_eq_invalid.mp invalid
      rcases valid with valid | valid
      · exact valid read
      · exact valid write
    rw [if_pos valid, Except.ok.injEq]
    constructor
    · rintro rfl
      exact ⟨rfl, some⟩
    · rintro ⟨rfl, -⟩
      rfl
  · have none : context.nearest = invalidTime := nearest_eq_invalid.mpr (by simpa using valid)
    rw [if_neg valid]
    constructor
    · exact nofun
    · rintro ⟨rfl, valid⟩
      exact absurd none valid

theorem getTimeoutType_has_read (context : SocketContext) (currentTime : Word) :
    (context.getTimeoutType currentTime).has PollerEvent.timeoutRead =
      decide (context.readTimeout.time ≤ currentTime) := by
  rw [getTimeoutType, BitVec.has_or, BitVec.has_ite, BitVec.has_ite]
  cases decide (context.readTimeout.time ≤ currentTime) <;>
    cases decide (context.writeTimeout.time ≤ currentTime) <;> rfl

theorem getTimeoutType_has_write (context : SocketContext) (currentTime : Word) :
    (context.getTimeoutType currentTime).has PollerEvent.timeoutWrite =
      decide (context.writeTimeout.time ≤ currentTime) := by
  rw [getTimeoutType, BitVec.has_or, BitVec.has_ite, BitVec.has_ite]
  cases decide (context.readTimeout.time ≤ currentTime) <;>
    cases decide (context.writeTimeout.time ≤ currentTime) <;> rfl

/-- A socket has timed out in some direction once its earlier deadline has come. -/
theorem getTimeoutType_eq_zero {context : SocketContext} {currentTime : Word} :
    context.getTimeoutType currentTime = 0 ↔ currentTime < context.nearest := by
  rw [nearest, lt_min_iff, getTimeoutType]
  by_cases read : context.readTimeout.time ≤ currentTime <;>
    by_cases write : context.writeTimeout.time ≤ currentTime <;>
      simp only [read, write, if_true, if_false, ← not_le] <;> decide

end SocketContext

end Jasl
