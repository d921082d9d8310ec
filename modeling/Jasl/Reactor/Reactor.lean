import Jasl.Reactor.World

/-!
# The reactor

`Reactor::run` polls, and then takes one pending event after another and calls
the socket for each of its bits; an exception makes it close the socket. `dispatch`
is the body of the inner loop for one event, `drain` the inner loop.

What the user's callbacks do is an argument: the scripts of all callbacks that one
event can lead to (`EventScript`), and for a whole loop a choice of scripts for each
event, which may depend on everything that has happened (`Users`). A listening
socket accepts until there is no connection left, so a script for its event has a
callback for each connection. `run` is the outer loop.

A world goes on by polls and events of any reactor and by what other threads do in
between (`WorldOp`).
-/

set_option autoImplicit false

namespace Jasl

open Library

/-- What the user code does in one event: `on_read`, one `on_accept` for each connection,
`on_write`, and `on_close` when the CLOSE bit and when the exception handler closes the socket. -/
structure EventScript where
  onRead : Callback := .done
  onAccepts : List Callback := []
  onWrite : Callback := .done
  onClose : Callback := .done
  onHandlerClose : Callback := .done
deriving Repr

namespace World

/-! ## The sockets -/

/-- `Socket::accept`, for the connections there are. -/
def accept (w : World) (socket : SocketPtr) : List Callback → Outcome World Assertion
  | [] => (w, .returned)
  | onAccept :: rest =>
      (onAccept.run (w.note (.onAccept socket))).andThen fun w => w.accept socket rest

/-- `Socket::read` and `TcpServer::read`. -/
def read (w : World) (socket : SocketPtr) (script : EventScript) : Outcome World Assertion :=
  match socket.kind with
  | .client => script.onRead.run (w.note (.onRead socket))
  | .server => w.accept socket script.onAccepts

/-- `Socket::write` and `TcpServer::write`. -/
def write (w : World) (socket : SocketPtr) (script : EventScript) : Outcome World Assertion :=
  match socket.kind with
  | .client => script.onWrite.run (w.note (.onWrite socket))
  | .server => (w, .threw)

/-! ## One event -/

/-- What the READ bit of an event leads to. -/
def readEvent (w : World) (event : PollerEvent) (socket : SocketPtr) (script : EventScript) :
    Outcome World Assertion :=
  if event.action.has PollerEvent.read then w.read socket script else (w, .returned)

/-- What the WRITE bit of an event leads to. -/
def writeEvent (w : World) (event : PollerEvent) (socket : SocketPtr) (script : EventScript) :
    Outcome World Assertion :=
  if event.action.has PollerEvent.write then w.write socket script else (w, .returned)

/-- What the CLOSE bit of an event leads to. -/
def closeEvent (w : World) (event : PollerEvent) (socket : SocketPtr) (script : EventScript) :
    Outcome World Assertion :=
  if event.action.has PollerEvent.close then w.close socket event.closeReason script.onClose.run
  else (w, .returned)

/-- The `try` block of the inner loop. -/
def tryEvent (w : World) (event : PollerEvent) (socket : SocketPtr) (script : EventScript) :
    Outcome World Assertion :=
  ((w.readEvent event socket script).andThen fun w => w.writeEvent event socket script).andThen
    fun w => w.closeEvent event socket script

/-- The `try` block with its handler. -/
def dispatch (w : World) (event : PollerEvent) (socket : SocketPtr) (script : EventScript) :
    Outcome World Assertion :=
  (w.tryEvent event socket script).rescue fun w => w.close socket 0 script.onHandlerClose.run

/-- One turn of the inner loop, with how its event ends; `none` when the loop ends. An event with an
action has a socket (`Poller.Actionable`), so the loop ends when the event has none. The turn is one
step here, other threads come before and after it: `get_next_event` takes no lock, and a
`remove_socket` between its copy and its erase is in `Reacting.step`, which has the copy, the erase
and the dispatch as three steps. -/
def turn (w : World) (id : PollerId) (position : ℕ) (script : PollerEvent → EventScript) :
    World × Option (Exit Assertion) :=
  let (event, p) := (w.pollers id).getNextEvent position
  let taken := w.setPoller id p
  match event.socket with
  | none => (taken, none)
  | some socket =>
      if event.action = 0 then (taken, none)
      else
        let (after, exit) := (taken.note (.took id event)).dispatch event socket (script event)
        (after, some exit)

end World

/-! ## The inner loop -/

/-- What the pollers and the user code choose: where `begin()` stands, and what the callbacks of an
event do. -/
structure Users where
  position : World → ℕ
  script : World → PollerEvent → EventScript

/-- How the inner loop ends. -/
inductive DrainExit where
  | drained
  | escaped
  | aborted (failed : Assertion)
  | unfinished
deriving DecidableEq, Repr

/-- The inner loop of `Reactor::run`, for a number of turns. -/
def World.drain (w : World) (id : PollerId) (users : Users) : ℕ → World × DrainExit
  | 0 => (w, .unfinished)
  | turns + 1 =>
      match w.turn id (users.position w) (users.script w) with
      | (w, none) => (w, .drained)
      | (w, some .returned) => w.drain id users turns
      | (w, some .threw) => (w, .escaped)
      | (w, some (.aborted failed)) => (w, .aborted failed)

/-! ## The outer loop -/

/-- An iteration of the outer loop: what other threads do before it, and what the kernel and the
clock answer to its poll. -/
structure Iteration where
  meanwhile : Callback
  batch : List EpollEvent
  waitClock : Word
  eventClock : Word
  schedulerClock : Word
deriving Repr

namespace World

/-- The poll of an iteration. -/
def iterationPoll (w : World) (id : PollerId) (iteration : Iteration) : Except Assertion World :=
  match iteration.meanwhile.run w with
  | (_, .aborted failed) => .error failed
  | (w, _) =>
      match (w.pollers id).poll iteration.batch iteration.waitClock iteration.eventClock
          iteration.schedulerClock with
      | .error failed => .error failed
      | .ok p => .ok (w.setPoller id p)

/-- The inner loop with as many turns as it needs: one for each event, and one that finds none. -/
def drainAll (w : World) (id : PollerId) (users : Users) : World × DrainExit :=
  w.drain id users ((w.pollers id).outEvents.elements.length + 1)

/-- `Reactor::run`, for the iterations there are until `m_stop` is set. -/
def run (w : World) (id : PollerId) (users : Users) : List Iteration → World × DrainExit
  | [] => (w, .drained)
  | iteration :: rest =>
      match w.iterationPoll id iteration with
      | .error failed => (w, .aborted failed)
      | .ok polled =>
          match polled.drainAll id users with
          | (w, .drained) => w.run id users rest
          | other => other

end World

/-! ## Runs -/

/-- A poll or an event of a reactor, or what another thread does in between. -/
inductive WorldOp where
  | poll (poller : PollerId) (batch : List EpollEvent) (waitClock eventClock schedulerClock : Word)
  | event (poller : PollerId) (position : ℕ) (script : EventScript)
  | other (script : Callback)
deriving Repr

namespace World

/-- What a step does; an exception that leaves it ends the reactor or the thread. -/
def exec (w : World) : WorldOp → Outcome World Assertion
  | .poll id batch waitClock eventClock schedulerClock =>
      match (w.pollers id).poll batch waitClock eventClock schedulerClock with
      | .error failed => (w, .aborted failed)
      | .ok p => (w.setPoller id p, .returned)
  | .event id position script =>
      let (after, exit) := w.turn id position fun _ => script
      (after, exit.getD .returned)
  | .other script => script.run w

/-- A step that no assertion stops. -/
def step (w : World) (op : WorldOp) : Except Assertion World :=
  match w.exec op with
  | (_, .aborted failed) => .error failed
  | (after, _) => .ok after

theorem step_eq_ok {w after : World} {op : WorldOp} (stepped : w.step op = .ok after) :
    (w.exec op).1 = after := by
  rw [step] at stepped
  split at stepped
  · cases stepped
  · rename_i result _ executed
    obtain rfl := Except.ok.inj stepped
    rw [executed]

end World

end Jasl
