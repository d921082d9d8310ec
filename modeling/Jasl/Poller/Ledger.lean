import Jasl.Poller.Registration

/-!
# The ledger of a run

What a caller of the poller knows of its timeouts without looking into the
poller: for each registered socket the mask it passed last, and for each
direction when it was armed, when it was last reported ready, and with which
step. The ledger is kept by an observer of the run (`Ledger.note`). It has no
deadlines; those are the poller's own, and whether they are right is a question
about both.

The two directions of a socket have the same rules, so the flags, the timeouts and
the accounts are indexed by a `Direction`.
-/

set_option autoImplicit false

namespace Jasl

open Library

/-! ## Directions -/

inductive Direction where
  | read
  | write
deriving DecidableEq, Repr

namespace Direction

/-- The flag of a direction in masks and reports. -/
def epoll {w : ℕ} : Direction → BitVec w
  | read => epollIn
  | write => epollOut

/-- The reason of a close for a timeout in a direction. -/
def expired : Direction → Word
  | read => PollerEvent.timeoutRead
  | write => PollerEvent.timeoutWrite

/-- The reading of the clock that belongs to a direction. -/
def clock (readClock writeClock : Word) : Direction → Word
  | read => readClock
  | write => writeClock

/-- Narrowing a mask keeps the directions. -/
theorem epoll_setWidth (mask : Word) (direction : Direction) :
    (mask.setWidth 32).has (direction.epoll : BitVec 32) = mask.has direction.epoll := by
  cases direction with
  | read => exact BitVec.has_setWidth_twoPow (by decide) mask
  | write => exact BitVec.has_setWidth_twoPow (by decide) mask

theorem epollErr_has (direction : Direction) :
    (epollErr : BitVec 32).has direction.epoll = false := by
  cases direction <;> decide

theorem epollHup_has (direction : Direction) :
    (epollHup : BitVec 32).has direction.epoll = false := by
  cases direction <;> decide

/-- The flags added to a mask name no direction. -/
theorem watchedEvents_has (mask : Word) (direction : Direction) :
    (Poller.watchedEvents mask).has direction.epoll = mask.has direction.epoll := by
  have hangup : (epollHup : Word).has direction.epoll = false := by cases direction <;> decide
  have peerHangup : (epollRdHup : Word).has direction.epoll = false := by
    cases direction <;> decide
  rw [Poller.watchedEvents, epoll_setWidth, BitVec.has_or, BitVec.has_or, hangup, peerHangup,
    Bool.or_false, Bool.or_false]

end Direction

/-- The timeout of a direction. -/
def SocketContext.timeout (context : SocketContext) : Direction → Timeout
  | .read => context.readTimeout
  | .write => context.writeTimeout

namespace SocketContext

theorem timeout_arm (context : SocketContext) (action step readClock writeClock : Word)
    (direction : Direction) :
    (context.arm action step readClock writeClock).timeout direction =
      if action.has direction.epoll then
        (context.timeout direction).arm step (direction.clock readClock writeClock)
      else context.timeout direction := by
  cases direction <;> rfl

theorem timeout_refresh (context : SocketContext) (mask : BitVec 32) (currentTime : Word)
    (direction : Direction) :
    (context.refresh mask currentTime).timeout direction =
      if mask.has direction.epoll then (context.timeout direction).updateTimeout currentTime
      else context.timeout direction := by
  cases direction <;> rfl

theorem getTimeoutType_has (context : SocketContext) (currentTime : Word)
    (direction : Direction) :
    (context.getTimeoutType currentTime).has direction.expired =
      decide ((context.timeout direction).time ≤ currentTime) := by
  cases direction with
  | read => exact context.getTimeoutType_has_read currentTime
  | write => exact context.getTimeoutType_has_write currentTime

end SocketContext

/-- Masking the ready directions adds no timeout. -/
theorem Poller.unmaskedTimeouts_has {action timeoutType : Word} {direction : Direction}
    (left : (Poller.unmaskedTimeouts action timeoutType).has direction.expired = true) :
    timeoutType.has direction.expired = true := by
  have remove : ∀ {word flag : Word}, (word &&& ~~~flag).has direction.expired = true →
      word.has direction.expired = true := by
    intro word flag kept
    refine BitVec.has_of_subset ?_ kept
    rw [BitVec.and_comm word (~~~flag), BitVec.and_assoc, BitVec.and_not_self]
    exact BitVec.and_zero
  rw [Poller.unmaskedTimeouts] at left
  split at left <;> split at left
  · exact remove (remove left)
  · exact remove left
  · exact remove left
  · exact left

/-! ## Accounts -/

/-- What is known of the timeout of a direction: the reading at which it was armed, the last one
at which it was reported ready, and its step. -/
structure Watch where
  armed : Word
  ready : Option Word := none
  step : Word
deriving DecidableEq, Repr

/-- The reading its step counts from. -/
def Watch.since (watch : Watch) : Word :=
  match watch.ready with
  | none => watch.armed
  | some ready => max watch.armed ready

/-- What is known of a registered socket: the mask passed last, the directions armed, and whether
a mask has left one of them out. -/
structure Account where
  mask : Word
  watch : Direction → Option Watch
  dropped : Bool

namespace Account

/-- The account of a socket that no call has named. -/
def fresh : Account where
  mask := 0
  watch := fun _ => none
  dropped := false

/-- A call of `update_socket`: the directions of the mask are armed if they were not, and get the
new step. -/
def update (account : Account) (mask step readClock writeClock : Word) : Account where
  mask := mask
  watch := fun direction =>
    if mask.has direction.epoll then
      match account.watch direction with
      | none => some { armed := direction.clock readClock writeClock, step }
      | some watch => some { watch with step }
    else account.watch direction
  dropped := account.dropped ||
    [Direction.read, .write].any fun direction =>
      (account.watch direction).isSome && !mask.has direction.epoll

/-- A report: the directions reported are ready. -/
def report (account : Account) (events : BitVec 32) (clock : Word) : Account :=
  { account with
    watch := fun direction =>
      if events.has direction.epoll then
        (account.watch direction).map fun watch => { watch with ready := some clock }
      else account.watch direction }

end Account

/-! ## The ledger -/

abbrev Accounts := SocketPtr → Option Account

/-- A report on a descriptor is one on the socket that has it. -/
def Accounts.report (accounts : Accounts) (clock : Word) (report : EpollEvent) : Accounts :=
  fun socket =>
    if socket.fd = report.data then
      (accounts socket).map fun account => account.report report.events clock
    else accounts socket

/-- The accounts of the registered sockets, and the last reading of the clock. -/
structure Ledger where
  accounts : Accounts
  clock : Word

namespace Ledger

def empty : Ledger := ⟨fun _ => none, 0⟩

/-- What a call does to the accounts. -/
def noteAccounts (before : Poller) (accounts : Accounts) : PollerOp → Accounts
  | .update (some socket) eventMask timeoutStep readClock writeClock =>
      Function.update accounts socket (some
        (((accounts socket).getD .fresh).update eventMask (Poller.effectiveStep timeoutStep)
          readClock writeClock))
  | .remove (some socket) => Function.update accounts socket none
  | .poll batch waitClock eventClock schedulerClock =>
      (before.deliveredReports (.poll batch waitClock eventClock schedulerClock)).foldl
        (fun accounts report => accounts.report eventClock report) accounts
  | _ => accounts

/-- What a call does to the ledger. -/
def note (before : Poller) (op : PollerOp) (_ : Poller) (ledger : Ledger) : Ledger where
  accounts := noteAccounts before ledger.accounts op
  clock := op.readings.getLastD ledger.clock

/-- The clock does not run backwards. -/
def Forward (ledger : Ledger) (op : PollerOp) : Prop :=
  (ledger.clock :: op.readings).Pairwise (· ≤ ·)

instance (ledger : Ledger) (op : PollerOp) : Decidable (ledger.Forward op) :=
  inferInstanceAs (Decidable ((ledger.clock :: op.readings).Pairwise (· ≤ ·)))

theorem forward_update {ledger : Ledger} {socket : Option SocketPtr}
    {eventMask timeoutStep readClock writeClock : Word}
    (forward : ledger.Forward (.update socket eventMask timeoutStep readClock writeClock)) :
    ledger.clock ≤ readClock ∧ readClock ≤ writeClock := by
  simp only [Forward, PollerOp.readings, List.pairwise_cons, List.mem_cons] at forward
  exact ⟨forward.1 _ (.inl rfl), forward.2.1 _ (.inl rfl)⟩

theorem forward_poll {ledger : Ledger} {batch : List EpollEvent}
    {waitClock eventClock schedulerClock : Word}
    (forward : ledger.Forward (.poll batch waitClock eventClock schedulerClock)) :
    ledger.clock ≤ eventClock ∧ eventClock ≤ schedulerClock := by
  simp only [Forward, PollerOp.readings, List.pairwise_cons, List.mem_cons] at forward
  exact ⟨forward.1 _ (.inr (.inl rfl)), forward.2.2.1 _ (.inl rfl)⟩

end Ledger

end Jasl
