import Jasl.Library.Outcomes
import Jasl.Poller.Registration
import Jasl.Socket.Socket

/-!
# Sockets and pollers together

A socket remembers the poller it is attached to (`m_poller`) and whether it is
closed (`m_info.state`), and a poller its registered sockets; `update_socket`,
`remove_from_poller` and `close` change both sides, and moving a socket to another
poller changes two pollers. A `World` is all of them with a log of what happened.

The log is an observer: nothing reads it but the statements about runs. It has an
entry for every event taken from a poller, every callback invoked, every
registration and every removal, the newest first. The entry `clash` marks a call
that finds another socket under its descriptor, which cannot happen while a
descriptor belongs to one live socket.

Pollers are alive as long as they are named, so locking the weak pointer `m_poller`
gives the poller, or null when the socket was never attached or was detached.
-/

set_option autoImplicit false

namespace Jasl

open Library

/-- A `Poller` object. -/
abbrev PollerId := ℕ

/-- What changes in a socket: `m_poller` and `m_info.state`. -/
structure SocketInfo where
  poller : Option PollerId
  state : SocketState
deriving DecidableEq, Repr

/-- Something that happened. -/
inductive Entry where
  /-- `get_next_event` on a poller gave an event. -/
  | took (poller : PollerId) (event : PollerEvent)
  | onRead (socket : SocketPtr)
  | onWrite (socket : SocketPtr)
  | onAccept (socket : SocketPtr)
  | onClose (socket : SocketPtr) (closeReason : Word)
  /-- `update_socket` registered a socket. -/
  | registered (poller : PollerId) (socket : SocketPtr)
  /-- `remove_socket` found the descriptor of a socket in the map. -/
  | removed (poller : PollerId) (socket : SocketPtr)
  /-- A call found another socket under its descriptor. -/
  | clash (poller : PollerId) (socket : SocketPtr)
deriving DecidableEq, Repr

structure World where
  pollers : PollerId → Poller
  sockets : SocketPtr → SocketInfo
  log : List Entry

namespace World

/-- The world before anything is registered: the event descriptors of the pollers, and the states
the sockets were constructed in. -/
def start (eventFds : PollerId → FD) (states : SocketPtr → SocketState) : World where
  pollers := fun id => .create (eventFds id)
  sockets := fun socket => ⟨none, states socket⟩
  log := []

def note (w : World) (entry : Entry) : World := { w with log := entry :: w.log }

def setPoller (w : World) (id : PollerId) (p : Poller) : World :=
  { w with pollers := Function.update w.pollers id p }

def setAttached (w : World) (socket : SocketPtr) (poller : Option PollerId) : World :=
  { w with sockets := Function.update w.sockets socket { w.sockets socket with poller } }

def setState (w : World) (socket : SocketPtr) (state : SocketState) : World :=
  { w with sockets := Function.update w.sockets socket { w.sockets socket with state } }

/-- Another socket is registered under the descriptor of a socket. -/
def clashes (w : World) (id : PollerId) (socket : SocketPtr) : Bool :=
  ((w.pollers id).sockets socket.fd).any fun registered => registered ≠ socket

/-- Marks a call that finds another socket under its descriptor. -/
def noteClash (w : World) (id : PollerId) (socket : SocketPtr) : World :=
  if w.clashes id socket then w.note (.clash id socket) else w

/-! ## Calls -/

/-- `Poller::remove_socket`. -/
def removeSocket (w : World) (id : PollerId) : Option SocketPtr → World
  | none => w
  | some socket =>
      let removed := (w.noteClash id socket).setPoller id
        ((w.pollers id).removeSocket (some socket))
      if (w.pollers id).registers socket then removed else removed.note (.removed id socket)

/-- `Socket::remove_from_poller`. -/
def removeFromPoller (w : World) (socket : SocketPtr) : World :=
  match (w.sockets socket).poller with
  | none => w
  | some id => (w.removeSocket id (some socket)).setAttached socket none

/-- `Socket::attach_to_poller`. -/
def attachToPoller (w : World) (socket : SocketPtr) (id : PollerId) : World :=
  if (w.sockets socket).poller = some id then w
  else (w.removeFromPoller socket).setAttached socket (some id)

/-- `Poller::update_socket`, with the attachment of a socket it registers. -/
def updateSocket (w : World) (id : PollerId) (socket : Option SocketPtr)
    (eventMask timeoutStep readClock writeClock : Word) : Except Assertion World :=
  match (w.pollers id).updateSocket socket eventMask timeoutStep readClock writeClock with
  | .error failed => .error failed
  | .ok p =>
      match socket with
      | none => .ok w
      | some socket =>
          let updated := (w.noteClash id socket).setPoller id p
          .ok (if (w.pollers id).registers socket then
            (updated.attachToPoller socket id).note (.registered id socket)
          else updated)

/-- `Poller::signal`. -/
def signal (w : World) (id : PollerId) (sent : Signal) : World :=
  w.setPoller id ((w.pollers id).signal sent)

/-- `Socket::close` for a socket that is not closed yet, up to the callback. -/
def beginClose (w : World) (socket : SocketPtr) (closeReason : Word) : World :=
  ((w.setState socket .invalid).removeFromPoller socket).note (.onClose socket closeReason)

/-- `Socket::close`, with what `on_close` does. -/
def close (w : World) (socket : SocketPtr) (closeReason : Word)
    (onClose : World → Outcome World Assertion) : Outcome World Assertion :=
  if (w.sockets socket).state = .invalid then (w, .returned)
  else onClose (w.beginClose socket closeReason)

end World

/-! ## Callbacks -/

/-- A call that user code makes on a poller or a socket and that invokes no callback. -/
inductive Call where
  | updateSocket (poller : PollerId) (socket : Option SocketPtr)
      (eventMask timeoutStep readClock writeClock : Word)
  | removeSocket (poller : PollerId) (socket : Option SocketPtr)
  | removeFromPoller (socket : SocketPtr)
  | attachToPoller (socket : SocketPtr) (poller : PollerId)
  | signal (poller : PollerId) (sent : Signal)
deriving Repr

def World.call (w : World) : Call → Except Assertion World
  | .updateSocket poller socket eventMask timeoutStep readClock writeClock =>
      w.updateSocket poller socket eventMask timeoutStep readClock writeClock
  | .removeSocket poller socket => .ok (w.removeSocket poller socket)
  | .removeFromPoller socket => .ok (w.removeFromPoller socket)
  | .attachToPoller socket poller => .ok (w.attachToPoller socket poller)
  | .signal poller sent => .ok (w.signal poller sent)

/-- What user code does when it is run: the calls it makes, and how it ends. `update_poll_mask`
throws when the socket is attached to no poller, and `close` throws what `on_close` throws; the user
code goes on in one way when such a call returns and in another when it throws. -/
inductive Callback where
  | done
  | throw
  | call (call : Call) (next : Callback)
  | updatePollMask (socket : SocketPtr) (mask timeout readClock writeClock : Word)
      (next rescue : Callback)
  | close (socket : SocketPtr) (closeReason : Word) (onClose next rescue : Callback)
deriving Repr

/-- Runs user code. -/
def Callback.run : Callback → World → Outcome World Assertion
  | .done, w => (w, .returned)
  | .throw, w => (w, .threw)
  | .call made next, w =>
      match w.call made with
      | .error failed => (w, .aborted failed)
      | .ok w => next.run w
  | .updatePollMask socket mask timeout readClock writeClock next rescue, w =>
      match (w.sockets socket).poller with
      | none => rescue.run w
      | some poller =>
          match w.updateSocket poller (some socket) mask timeout readClock writeClock with
          | .error failed => (w, .aborted failed)
          | .ok w => next.run w
  | .close socket closeReason onClose next rescue, w =>
      (w.close socket closeReason onClose.run).resume next.run rescue.run

/-! ## Rules for callbacks -/

section Rules

variable {holds : World → Prop}

/-- What the call of `on_close` keeps, `close` keeps. -/
theorem World.close_keeps {w : World} {socket : SocketPtr} {closeReason : Word}
    {onClose : World → Outcome World Assertion} (kept : holds w)
    (begin_ : (w.sockets socket).state ≠ .invalid → holds (w.beginClose socket closeReason))
    (callback : ∀ state, holds state → holds (onClose state).1) :
    holds (w.close socket closeReason onClose).1 := by
  rw [World.close]
  split
  · exact kept
  · rename_i open_
    exact callback _ (begin_ open_)

/-- **What every call and the start of every close keep, user code keeps.** -/
theorem Callback.run_keeps
    (call : ∀ w call after, holds w → w.call call = .ok after → holds after)
    (begin_ : ∀ w socket closeReason, (w.sockets socket).state ≠ .invalid → holds w →
      holds (w.beginClose socket closeReason)) (callback : Callback) :
    ∀ w, holds w → holds (callback.run w).1 := by
  induction callback with
  | done => exact fun _ kept => kept
  | throw => exact fun _ kept => kept
  | call made next ih =>
      intro w kept
      rw [Callback.run]
      cases called : w.call made with
      | error failed => exact kept
      | ok after => exact ih after (call w made after kept called)
  | updatePollMask socket mask timeout readClock writeClock next rescue ihNext ihRescue =>
      intro w kept
      rw [Callback.run]
      cases attached : (w.sockets socket).poller with
      | none => exact ihRescue w kept
      | some poller =>
          cases called : w.updateSocket poller (some socket) mask timeout readClock writeClock with
          | error failed =>
              simp only [called]
              exact kept
          | ok after =>
              simp only [called]
              exact ihNext after (call w
                (.updateSocket poller (some socket) mask timeout readClock writeClock) after kept
                called)
  | close socket closeReason onClose next rescue ihClose ihNext ihRescue =>
      intro w kept
      rw [Callback.run]
      refine Outcome.resume_keeps ?_ ihNext ihRescue
      exact World.close_keeps kept (fun open_ => begin_ w socket closeReason open_ kept) ihClose

end Rules

end Jasl
