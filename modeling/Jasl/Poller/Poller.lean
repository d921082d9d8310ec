import Jasl.Poller.SchedulerRefinement
import Jasl.Poller.SocketContext
import Jasl.Library.Runs

/-!
# The poller

The state of a `Poller` with the two kernel objects it owns, and its operations.
The kernel's side is what the poller sees of it: the interest set of the epoll
descriptor, changed by `epoll_ctl` whose results the poller ignores, and the
counter behind the event descriptor. What `epoll_wait` reports and what the clock
reads are arguments of the operations, one reading for each call of
`milliseconds_from_epoch`. The order of an `unordered_set` is not determined, so
`get_next_event` takes the position of its `begin()` as an argument.

An operation fails when an assertion of the source fails, which stops the
process. `step` runs one call on a poller, and the runs of a poller are the
sequences of calls from `create`.

`update_socket` calls `Socket::attach_to_poller` of a socket it registers, and
that call changes the socket and the poller the socket was registered with
before, but not this poller. It is a step of the world of sockets and pollers,
and it happens when `registers` holds.
-/

set_option autoImplicit false

namespace Jasl

open Library

/-! ## Kernel objects -/

/-- The descriptors an epoll instance watches, with the events it reports for each. -/
abbrev InterestSet := FD → Option (BitVec 32)

/-- `EPOLL_CTL_ADD`, which fails without effect on a descriptor that is there. -/
def epollCtlAdd (interest : InterestSet) (fd : FD) (events : BitVec 32) : InterestSet :=
  match interest fd with
  | some _ => interest
  | none => Function.update interest fd (some events)

/-- `EPOLL_CTL_MOD`, which fails without effect on a descriptor that is not there. -/
def epollCtlMod (interest : InterestSet) (fd : FD) (events : BitVec 32) : InterestSet :=
  match interest fd with
  | some _ => Function.update interest fd (some events)
  | none => interest

/-- `EPOLL_CTL_DEL`. -/
def epollCtlDel (interest : InterestSet) (fd : FD) : InterestSet :=
  Function.update interest fd none

/-- A non-blocking write to an event descriptor adds to its counter, or fails without effect when
the sum would exceed the largest value the counter may have. -/
def eventfdWrite (counter value : ℕ) : ℕ :=
  if counter + value ≤ 2 ^ 64 - 2 then counter + value else counter

/-- `Poller::Signal`. -/
inductive Signal where
  | stop
  | update
deriving DecidableEq, Repr

/-- `Poller::STOP`. -/
def stopValue : ℕ := 0xffffffffffff

def Signal.value : Signal → ℕ
  | .stop => stopValue
  | .update => 1

/-! ## The state -/

structure Poller where
  activeSockets : FD → Option SocketContext
  outEvents : OutputEvents
  scheduler : Scheduler
  /-- The size of the buffer `m_epoll_events`. -/
  epollEvents : ℕ
  /-- What the kernel watches for `m_epoll_fd`. -/
  epollFd : InterestSet
  eventFd : FD
  /-- The counter behind `m_event_fd`. -/
  eventCount : ℕ

namespace Poller

/-- `Poller::Poller`, with the descriptor that `eventfd` returned. -/
def create (eventFd : FD) : Poller where
  activeSockets := fun _ => none
  outEvents := .empty
  scheduler := .empty
  epollEvents := 100
  epollFd := epollCtlAdd (fun _ => none) eventFd (epollIn ||| epollHup ||| epollRdHup)
  eventFd := eventFd
  eventCount := 0

/-- `Poller::signal`. -/
def signal (p : Poller) (sent : Signal) : Poller :=
  { p with eventCount := eventfdWrite p.eventCount sent.value }

/-! ## Registration -/

/-- `Poller::add_to_scheduler` for the context stored under a descriptor. -/
def addToScheduler (p : Poller) (fd : FD) (context : SocketContext)
    (action timeoutStep readClock writeClock : Word) : Except Assertion Poller :=
  let context := context.arm action timeoutStep readClock writeClock
  match context.getNearestTimeout with
  | .error failed => .error failed
  | .ok nearest => .ok
      { p with
        activeSockets := Function.update p.activeSockets fd (some context)
        scheduler := p.scheduler.addEvent nearest context.socket.fd }

/-- The step `update_socket` passes on: `0` stands for the default. -/
def effectiveStep (timeoutStep : Word) : Word :=
  if timeoutStep = 0 then SocketContext.defaultTimeoutMs else timeoutStep

/-- The last part of both branches of `update_socket`: no timeout is set for `INVALID_TIME`. -/
def setTimeout (p : Poller) (fd : FD) (context : SocketContext)
    (eventMask timeoutStep readClock writeClock : Word) : Except Assertion Poller :=
  if timeoutStep = invalidTime then .ok p
  else p.addToScheduler fd context eventMask (effectiveStep timeoutStep) readClock writeClock

/-- The events the poller asks the kernel to report: those of the mask, and both hangups. -/
def watchedEvents (eventMask : Word) : BitVec 32 :=
  (eventMask ||| epollHup ||| epollRdHup).setWidth 32

/-- Whether `update_socket` registers a socket, because its descriptor is not in the map. -/
def registers (p : Poller) (socket : SocketPtr) : Bool := (p.activeSockets socket.fd).isNone

/-- `Poller::update_socket`. -/
def updateSocket (p : Poller) (socket : Option SocketPtr)
    (eventMask timeoutStep readClock writeClock : Word) : Except Assertion Poller :=
  match socket with
  | none => .ok p
  | some socket =>
      match p.activeSockets socket.fd with
      | none =>
          let context : SocketContext := { socket }
          let p := { p with
            epollFd := epollCtlAdd p.epollFd socket.fd (watchedEvents eventMask)
            activeSockets := Function.update p.activeSockets socket.fd (some context) }
          match p.setTimeout socket.fd context eventMask timeoutStep readClock writeClock with
          | .error failed => .error failed
          -- `socket->attach_to_poller(shared_from_this())` happens here
          | .ok p => .ok (p.signal .update)
      | some context =>
          match p.setTimeout socket.fd context eventMask timeoutStep readClock writeClock with
          | .error failed => .error failed
          | .ok p => .ok
              { p with epollFd := epollCtlMod p.epollFd socket.fd (watchedEvents eventMask) }

/-- `Poller::remove_socket`. -/
def removeSocket (p : Poller) (socket : Option SocketPtr) : Poller :=
  match socket with
  | none => p
  | some socket =>
      let p := { p with epollFd := epollCtlDel p.epollFd socket.fd }
      match p.activeSockets socket.fd with
      | none => p
      | some _ =>
          { p with
            scheduler := p.scheduler.deleteEvent socket.fd
            outEvents := p.outEvents.erase (some socket)
            activeSockets := Function.update p.activeSockets socket.fd none }

/-! ## Polling -/

/-- `Poller::get_epoll_events`, where the kernel would answer `epoll_wait` with `batch`. The kernel
is not asked when a timer is due, and never fills more than the buffer. Here its sleep is not
interrupted; the loop around it is among the phases of a poll. -/
def getEpollEvents (p : Poller) (waitClock : Word) (batch : List EpollEvent) : List EpollEvent :=
  if p.scheduler.msToNextEvent waitClock = 0 then [] else batch.take p.epollEvents

/-- `Poller::process_signal`, with what it returns. -/
def processSignal (p : Poller) (value : ℕ) : Poller × ℕ :=
  if stopValue ≤ value then
    ({ p with activeSockets := fun _ => none, outEvents := .empty }, 0)
  else (p, value)

/-- The body of the loop of `process_epoll_events` for the report on a socket. -/
def processReport (p : Poller) (report : EpollEvent) (currentTime : Word) :
    Except Assertion Poller :=
  match p.activeSockets report.data with
  | none => .error .invalidSocketDescriptor
  | some context =>
      let mask := report.events
      let context := context.refresh mask currentTime
      let event := PollerEvent.ofReport context.socket mask
      let scheduler :=
        if mask.has (epollHup ||| epollRdHup ||| epollErr) then
          p.scheduler.deleteEvent report.data
        else p.scheduler
      if event.action = 0 then .error .emptyEvent
      else
        match context.getNearestTimeout with
        | .error failed => .error failed
        | .ok nearest => .ok
            { p with
              activeSockets := Function.update p.activeSockets report.data (some context)
              scheduler := scheduler.addEvent nearest report.data
              outEvents := p.outEvents.insert event }

/-- The loop of `process_epoll_events`, with whether it ran to its end: a signal that is a stop, or
that was not there to be read, leaves the function. -/
def processReports (p : Poller) (currentTime : Word) :
    List EpollEvent → Except Assertion (Poller × Bool)
  | [] => .ok (p, true)
  | report :: rest =>
      if report.data = p.eventFd then
        let (p, handled) := { p with eventCount := 0 }.processSignal p.eventCount
        if handled ≠ 0 then p.processReports currentTime rest else .ok (p, false)
      else
        match p.processReport report currentTime with
        | .error failed => .error failed
        | .ok p => p.processReports currentTime rest

/-- `Poller::process_epoll_events`. -/
def processEpollEvents (p : Poller) (batch : List EpollEvent) (currentTime : Word) :
    Except Assertion Poller :=
  match p.processReports currentTime batch with
  | .error failed => .error failed
  | .ok (p, false) => .ok p
  | .ok (p, true) => .ok
      (if batch.length = p.epollEvents then { p with epollEvents := 2 * p.epollEvents } else p)

/-- What is left of the expired directions once those in which the pending event is ready itself
are taken away. -/
def unmaskedTimeouts (action timeoutType : Word) : Word :=
  let timeoutType :=
    if action.has PollerEvent.read && timeoutType.has PollerEvent.timeoutRead then
      timeoutType &&& ~~~PollerEvent.timeoutRead
    else timeoutType
  if action.has PollerEvent.write && timeoutType.has PollerEvent.timeoutWrite then
    timeoutType &&& ~~~PollerEvent.timeoutWrite
  else timeoutType

/-- The body of the loop of `process_scheduler`, after the timer of `payload` was popped. -/
def processTimer (p : Poller) (payload : EventPayload) (currentTime : Word) : Poller :=
  match p.activeSockets payload with
  | none => p
  | some context =>
      let timeoutType := context.getTimeoutType currentTime
      if timeoutType = 0 then p
      else
        match p.outEvents.find (some context.socket) with
        | none =>
            { p with outEvents :=
                p.outEvents.insert ⟨some context.socket, PollerEvent.close, timeoutType⟩ }
        | some outEvent =>
            if outEvent.action.has PollerEvent.close then p
            else
              let timeoutType := unmaskedTimeouts outEvent.action timeoutType
              if timeoutType ≠ 0 then
                { p with
                  scheduler := p.scheduler.deleteEvent context.socket.fd
                  outEvents := (p.outEvents.erase outEvent.socket).insert
                    { outEvent with
                      action := outEvent.action ||| PollerEvent.close
                      closeReason := timeoutType } }
              else p

/-- One turn of the loop of `process_scheduler`: the payload popped and the poller after the body,
`none` when no timer is due. -/
def schedulerTurn (p : Poller) (currentTime : Word) : Option (EventPayload × Poller) :=
  match p.scheduler.getNextEvent currentTime with
  | none => none
  | some (payload, scheduler) =>
      some (payload, { p with scheduler }.processTimer payload currentTime)

/-- The loop of `process_scheduler`, for a number of turns. -/
def schedulerTurns (p : Poller) (currentTime : Word) : ℕ → Poller
  | 0 => p
  | turns + 1 =>
      match p.schedulerTurn currentTime with
      | none => p
      | some (_, p) => p.schedulerTurns currentTime turns

/-- `Poller::process_scheduler`. Every turn pops a timer and none adds one, so the loop ends after
at most as many turns as there are timers (`schedulerTurns_done`). -/
def processScheduler (p : Poller) (currentTime : Word) : Poller :=
  p.schedulerTurns currentTime p.scheduler.size

/-- `Poller::poll`, with the kernel's answer and the three readings of the clock. -/
def poll (p : Poller) (batch : List EpollEvent) (waitClock eventClock schedulerClock : Word) :
    Except Assertion Poller :=
  match p.processEpollEvents (p.getEpollEvents waitClock batch) eventClock with
  | .error failed => .error failed
  | .ok p => .ok (p.processScheduler schedulerClock)

/-- `Poller::get_next_event`, where `begin()` stands at a position. -/
def getNextEvent (p : Poller) (position : ℕ) : PollerEvent × Poller :=
  match p.outEvents.pick position with
  | none => ({}, p)
  | some event => (event, { p with outEvents := p.outEvents.erase event.socket })

end Poller

/-! ## Runs -/

/-- A call on a poller, with what the kernel and the clock answer during it. -/
inductive PollerOp where
  | update (socket : Option SocketPtr) (eventMask timeoutStep readClock writeClock : Word)
  | remove (socket : Option SocketPtr)
  | poll (batch : List EpollEvent) (waitClock eventClock schedulerClock : Word)
  | next (position : ℕ)
  | signal (sent : Signal)
deriving Repr

namespace Poller

/-- One call on a poller. -/
def step (p : Poller) : PollerOp → Except Assertion Poller
  | .update socket eventMask timeoutStep readClock writeClock =>
      p.updateSocket socket eventMask timeoutStep readClock writeClock
  | .remove socket => .ok (p.removeSocket socket)
  | .poll batch waitClock eventClock schedulerClock =>
      p.poll batch waitClock eventClock schedulerClock
  | .next position => .ok (p.getNextEvent position).2
  | .signal sent => .ok (p.signal sent)

end Poller

end Jasl
