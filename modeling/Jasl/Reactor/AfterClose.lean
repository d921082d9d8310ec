import Jasl.Reactor.Closing
import Jasl.Reactor.Drain

/-!
# Callbacks of one event

The event that is dispatched is a copy, and no registration is asked for between
its READ and its WRITE, or between two connections that a listening socket accepts.
So a callback that closes its socket and returns can be followed by another of the
same event (`written_after_close`).

Where no callback closes its socket between two others of one event (`keepsOpen`),
nothing is called on a socket after its close, in the whole run
(`nothing_after_close`): a later event of the socket would be pending, and so the
socket registered.
-/

set_option autoImplicit false

namespace Jasl

open Library

namespace World

/-! ## Between two callbacks of one event -/

/-- Each `on_accept` with another one after it leaves the socket open when it returns. -/
def acceptsOpen (socket : SocketPtr) : World → List Callback → Bool
  | _, [] => true
  | w, onAccept :: rest =>
      match onAccept.run (w.note (.onAccept socket)) with
      | (after, .returned) =>
          (rest.isEmpty || !closedSince socket after.log) && acceptsOpen socket after rest
      | _ => true

/-- An `on_read` with an `on_write` after it, and each `on_accept` with another one after it, leaves
the socket open when it returns. -/
def staysOpen (w : World) (event : PollerEvent) (socket : SocketPtr) (script : EventScript) :
    Bool :=
  if event.action.has PollerEvent.read then
    match socket.kind with
    | .client =>
        !event.action.has PollerEvent.write ||
          match script.onRead.run (w.note (.onRead socket)) with
          | (after, .returned) => !closedSince socket after.log
          | _ => true
    | .server => acceptsOpen socket w script.onAccepts
  else true

/-- No callback of a step closes its socket before another callback of the same event. -/
def keepsOpen (w : World) : WorldOp → Bool
  | .event id position script =>
      match (w.pollers id).outEvents.pick position with
      | none => true
      | some event =>
          match event.socket with
          | none => true
          | some socket => (w.afterTake id event).staysOpen event socket script
  | _ => true

namespace Orderly

variable {w : World} {socket : SocketPtr}

/-- Invoking a callback of a socket that is open. -/
theorem invoke (orderly : w.Orderly) {entry : Entry} (invokes : entry.invokes = some socket)
    (open_ : closedSince socket w.log = false) : (w.note entry).Orderly := by
  apply orderly.note
  · cases entry with
    | onClose _ _ => cases invokes
    | registered _ _ => cases invokes
    | _ => trivial
  · intro other invoked
    obtain rfl := Option.some.inj (invokes.symm.trans invoked)
    exact open_

theorem accept (socket : SocketPtr) (onAccepts : List Callback) :
    ∀ {w : World}, w.Orderly → (onAccepts ≠ [] → closedSince socket w.log = false) →
      acceptsOpen socket w onAccepts = true → (w.accept socket onAccepts).1.Orderly := by
  induction onAccepts with
  | nil => exact fun orderly _ _ => orderly
  | cons onAccept rest ih =>
      intro w orderly open_ keeps
      rw [World.accept]
      have invoked : (w.note (.onAccept socket)).Orderly :=
        orderly.invoke rfl (open_ (List.cons_ne_nil _ _))
      apply Outcome.andThen_keeps (invoked.run onAccept)
      intro after ran held
      rw [acceptsOpen, ran] at keeps
      obtain ⟨between, later⟩ := (Bool.and_eq_true _ _).mp keeps
      refine ih held ?_ later
      intro more
      rcases (Bool.or_eq_true _ _).mp between with none | stillOpen
      · exact absurd (List.isEmpty_iff.mp none) more
      · simpa using stillOpen

/-- **An event of an open socket keeps the world orderly**, when the socket stays open between its
callbacks. -/
theorem dispatch (orderly : w.Orderly) {event : PollerEvent} {script : EventScript}
    (open_ : closedSince socket w.log = false)
    (keeps : w.staysOpen event socket script = true) :
    (w.dispatch event socket script).1.Orderly := by
  have read : (w.readEvent event socket script).1.Orderly := by
    rw [readEvent]
    split
    · rename_i reads
      rw [staysOpen, if_pos reads] at keeps
      rw [World.read]
      cases kind : socket.kind with
      | client => exact (orderly.invoke rfl open_).run script.onRead
      | server =>
          rw [kind] at keeps
          exact accept socket script.onAccepts orderly (fun _ => open_) keeps
    · exact orderly
  have write : ∀ after, w.readEvent event socket script = (after, .returned) → after.Orderly →
      (after.writeEvent event socket script).1.Orderly := by
    intro after ran held
    rw [writeEvent]
    split
    · rename_i writes
      rw [World.write]
      cases kind : socket.kind with
      | client =>
          refine (held.invoke rfl ?_).run script.onWrite
          -- Between READ and WRITE the socket stayed open; without READ nothing happened.
          rw [readEvent] at ran
          rw [staysOpen, kind] at keeps
          split at ran
          · rename_i reads
            rw [World.read, kind] at ran
            simp only [if_pos reads, writes, ran] at keeps
            simpa using keeps
          · obtain rfl := (Prod.mk.inj ran).1
            exact open_
      | server => exact held
    · exact held
  have closed : ∀ after : World, after.Orderly →
      (after.closeEvent event socket script).1.Orderly := by
    intro after held
    rw [closeEvent]
    split
    · exact held.close socket event.closeReason script.onClose
    · exact held
  rw [World.dispatch, tryEvent]
  refine Outcome.rescue_keeps ?_ fun after _ held => held.close socket 0 script.onHandlerClose
  refine Outcome.andThen_keeps ?_ fun after _ held => closed after held
  exact Outcome.andThen_keeps read write

end Orderly

/-! ## Steps -/

namespace Coherent

variable {w : World} {id : PollerId} {event : PollerEvent} {socket : SocketPtr}

/-- The socket of a pending event is open. -/
theorem open_of_pending (coherent : Coherent Strict w) (member : event ∈ (w.pollers id).outEvents)
    (belongs : event.socket = some socket) : closedSince socket w.log = false := by
  have registered : w.Registered id socket :=
    (coherent.listed id).pending event member socket belongs
  exact (coherent.closed id socket registered).resolve_left not_false

theorem next (coherent : Coherent Strict w) (id : PollerId) (position : ℕ) :
    Coherent Strict (w.setPoller id ((w.pollers id).getNextEvent position).2) :=
  (coherent.fitting.next id position).coherent coherent.silent

theorem poll (coherent : Coherent Strict w) {batch : List EpollEvent}
    {waitClock eventClock schedulerClock : Word} {p : Poller}
    (polled : (w.pollers id).poll batch waitClock eventClock schedulerClock = .ok p) :
    Coherent Strict (w.setPoller id p) :=
  (coherent.fitting.poll polled).coherent coherent.silent

end Coherent

/-- An event keeps the world orderly. -/
theorem Orderly.event {w : World} (orderly : w.Orderly) {id : PollerId} {position : ℕ}
    {script : EventScript} (keeps : w.keepsOpen (.event id position script) = true) :
    (w.exec (.event id position script)).1.Orderly := by
  have taken : (w.setPoller id ((w.pollers id).getNextEvent position).2).Orderly :=
    orderly.imp (fun marked => marked) fun coherent => coherent.next id position
  cases picked : (w.pollers id).outEvents.pick position with
  | none =>
      simp only [Poller.getNextEvent, picked] at taken
      simp only [exec, turn, Poller.getNextEvent, picked]
      exact taken
  | some event =>
      obtain ⟨target, action, closeReason⟩ := event
      simp only [Poller.getNextEvent, picked] at taken
      simp only [exec, turn, Poller.getNextEvent, picked]
      simp only [keepsOpen, picked] at keeps
      cases target with
      | none => exact taken
      | some socket =>
          by_cases zero : action = 0
          · simp only [if_pos zero]
            exact taken
          · simp only [if_neg zero]
            rcases orderly with marked | coherent
            · have noted : (w.afterTake id ⟨some socket, action, closeReason⟩).Marked :=
                marked.note _
              exact .inl (primitives_marked.eventRules.dispatch noted _ socket script)
            · have noted : (w.afterTake id ⟨some socket, action, closeReason⟩).Orderly :=
                taken.note trivial (by simp [Entry.invokes])
              have open_ := coherent.open_of_pending (KeyedSet.pick_mem picked) rfl
              exact noted.dispatch open_ keeps

/-- **A step keeps the world orderly**, when no callback in it closes its socket before another of
the same event. -/
theorem Orderly.exec {w : World} (orderly : w.Orderly) {op : WorldOp}
    (keeps : w.keepsOpen op = true) : (w.exec op).1.Orderly := by
  cases op with
  | poll id batch waitClock eventClock schedulerClock =>
      rw [World.exec]
      cases polled : (w.pollers id).poll batch waitClock eventClock schedulerClock with
      | error failed => exact orderly
      | ok p => exact orderly.imp (fun marked => marked) fun coherent => coherent.poll polled
  | event id position script => exact orderly.event keeps
  | other script => exact orderly.run script

/-! ## Runs -/

/-- **Nothing is called on a socket after its close**, in every run in which no callback closes its
socket before another callback of the same event, and no call is made on the descriptor of another
live socket. -/
theorem nothing_after_close {eventFds : PollerId → FD} {states : SocketPtr → SocketState}
    {ops : List WorldOp} {w : World} {op : WorldOp}
    (reached : Run step (fun w op => w.keepsOpen op = true) (start eventFds states) ops w)
    (keeps : w.keepsOpen op = true) (unmarked : ¬ (w.exec op).1.Marked) :
    NothingAfterClose (w.exec op).1.log := by
  have orderly : w.Orderly := by
    apply reached.invariant Orderly (.start eventFds states)
    intro before op after held keeps stepped
    rw [← step_eq_ok stepped]
    exact held.exec keeps
  rcases orderly.exec keeps with marked | coherent
  · exact absurd marked unmarked
  · exact coherent.silent

/-- Two sockets are registered for both directions and reported ready for both. -/
def readyOps : List WorldOp :=
  [.other (.call (.updateSocket 0 (some ⟨0, 7, .client⟩) (epollIn ||| epollOut) 1000 0 0)
      (.call (.updateSocket 0 (some ⟨1, 8, .client⟩) (epollIn ||| epollOut) 1000 0 0) .done)),
    .poll 0 [⟨7, epollIn ||| epollOut⟩, ⟨8, epollIn ||| epollOut⟩] 1 2 2]

/-- The event of a socket, whose `on_read` closes another. -/
def closesOther : WorldOp :=
  .event 0 0 { onRead := .close ⟨0, 7, .client⟩ 0 .done .done .done }

def readyWorld : World :=
  (checkedRun step (fun w op => w.keepsOpen op = true) (start (fun _ => 3) fun _ => .ready)
    readyOps).get (by decide +kernel)

theorem readyWorld_reached :
    Run step (fun w op => w.keepsOpen op = true) (start (fun _ => 3) fun _ => .ready) readyOps
      readyWorld :=
  Run.of_isSome _

theorem nothing_after_close_of_other :
    NothingAfterClose (readyWorld.exec closesOther).1.log :=
  nothing_after_close readyWorld_reached (by decide +kernel) (by decide +kernel)

/-- The event of a socket, whose `on_read` closes the socket itself. -/
def closesItself : WorldOp :=
  .event 0 0 { onRead := .close ⟨1, 8, .client⟩ 0 .done .done .done }

/-- The socket is closed in its `on_read`, and its `on_write` is invoked after that. -/
theorem written_after_close :
    ¬ ∀ (eventFds : PollerId → FD) (states : SocketPtr → SocketState) (ops : List WorldOp)
      (w : World) (op : WorldOp),
      Run step (fun _ _ => True) (start eventFds states) ops w → ¬ (w.exec op).1.Marked →
      NothingAfterClose (w.exec op).1.log := by
  intro claim
  have reached := readyWorld_reached.mono fun _ _ _ => trivial
  have silent := claim _ _ _ _ closesItself reached (by decide +kernel)
  have written : (readyWorld.exec closesItself).1.log =
      [] ++ .onWrite ⟨1, 8, .client⟩ :: (readyWorld.exec closesItself).1.log.tail := by
    decide +kernel
  have stillOpen := silent [] _ _ written ⟨1, 8, .client⟩ rfl
  exact absurd stillOpen (by decide +kernel)

end World

end Jasl
