import Jasl.Poller.Registration

/-!
# Pending events

What holds of every event in `m_out_events`. It has an action and a socket
(`Poller.Actionable`), so the reactor does not take it for the end of the events.
And its socket is registered (`Poller.Listed`), because `remove_socket` takes the
event away with the registration; this needs that a call on a registered descriptor
is made with the registered socket.
-/

set_option autoImplicit false

namespace Jasl

open Library

/-- Only a poll adds pending events. -/
theorem Poller.outEvents_of_step {p after : Poller} {op : PollerOp}
    (returned : p.step op = .ok after)
    (notPoll : ∀ batch waitClock eventClock schedulerClock,
      op ≠ .poll batch waitClock eventClock schedulerClock) :
    ∀ event ∈ after.outEvents, event ∈ p.outEvents := by
  cases step_outcome returned with
  | updateNull | removeNull | nextEmpty | signal => exact fun _ => id
  | update =>
      rw [(updateSocket_eq_ok returned).outEvents]
      exact fun _ => id
  | remove socket =>
      rw [removeSocket_outEvents]
      split
      · exact fun _ => id
      · exact fun _ member => (KeyedSet.mem_erase.mp member).1
  | poll => exact absurd rfl (notPoll _ _ _ _)
  | next => exact fun _ member => (KeyedSet.mem_erase.mp member).1

/-! ## Pending events have an action and a socket -/

/-- Every pending event has an action and a socket. -/
def Poller.Actionable (p : Poller) : Prop :=
  ∀ event ∈ p.outEvents, event.action ≠ 0 ∧ event.socket.isSome

namespace Poller.Actionable

variable {p after : Poller}

theorem create (eventFd : FD) : (Poller.create eventFd).Actionable :=
  fun event member => absurd member (KeyedSet.not_mem_empty event)

theorem mono (actionable : p.Actionable) (events : ∀ event ∈ after.outEvents,
    event ∈ p.outEvents) : after.Actionable :=
  fun event member => actionable event (events event member)

theorem processEpollEvents (actionable : p.Actionable) {batch : List EpollEvent}
    {currentTime : Word} (returned : p.processEpollEvents batch currentTime = .ok after) :
    after.Actionable := by
  refine processEpollEvents_invariant Actionable ?_ (fun _ _ => id) ?_ (fun _ _ => id)
    actionable returned
  · intro before report next _ held processed event member
    obtain ⟨context, effect⟩ := processReport_eq_ok processed
    rw [effect.outEvents] at member
    rcases KeyedSet.mem_insert.mp member with pending | ⟨rfl, -⟩
    · exact held event pending
    · exact ⟨effect.action, rfl⟩
  · intro before _ _ _ event member
    exact absurd member (KeyedSet.not_mem_empty event)

theorem schedulerTurn (actionable : p.Actionable) {now : Word} {payload : EventPayload}
    (turn : p.schedulerTurn now = some (payload, after)) : after.Actionable := by
  obtain ⟨_, _, -, -, -, outcome⟩ := schedulerTurn_eq_some turn
  cases outcome with
  | closes _ _ _ =>
      intro event member
      rcases KeyedSet.mem_insert.mp member with pending | ⟨rfl, -⟩
      · exact actionable event pending
      · exact ⟨show PollerEvent.close ≠ 0 by decide, rfl⟩
  | joins _ _ taken _ _ =>
      intro event member
      rcases KeyedSet.mem_insert.mp member with other | ⟨rfl, -⟩
      · exact actionable event (KeyedSet.mem_erase.mp other).1
      · refine ⟨?_, (actionable _ (KeyedSet.find_eq_some.mp taken).1).2⟩
        intro zero
        exact absurd (BitVec.or_eq_zero_iff.mp zero).2 (by decide)
  | _ => exact actionable

/-- **Every call keeps the pending events actionable.** -/
theorem step (actionable : p.Actionable) {op : PollerOp} (returned : p.step op = .ok after) :
    after.Actionable := by
  cases op with
  | poll batch waitClock eventClock schedulerClock =>
      obtain ⟨processed, succeeded, rfl⟩ := poll_eq_ok returned
      exact processScheduler_invariant Actionable (fun _ _ _ held turn => held.schedulerTurn turn)
        (actionable.processEpollEvents succeeded)
  | _ => exact actionable.mono (outEvents_of_step returned nofun)

end Poller.Actionable

/-! ## Pending events belong to registered sockets -/

/-- Every context is stored under the descriptor of its socket, and every pending event belongs to
a registered socket. -/
structure Poller.Listed (p : Poller) : Prop extends Keyed p where
  pending : ∀ event ∈ p.outEvents, ∀ socket, event.socket = some socket →
    p.sockets socket.fd = some socket

namespace Poller.Listed

variable {p after : Poller}

theorem create (eventFd : FD) : (Poller.create eventFd).Listed where
  toKeyed := .create eventFd
  pending := fun event member => absurd member (KeyedSet.not_mem_empty event)

theorem processReport (listed : p.Listed) {report : EpollEvent} {currentTime : Word}
    (returned : p.processReport report currentTime = .ok after) : after.Listed := by
  obtain ⟨context, effect⟩ := processReport_eq_ok returned
  refine ⟨listed.toKeyed.processReport returned, ?_⟩
  rw [sockets_processReport returned, effect.outEvents]
  intro event member socket belongs
  rcases KeyedSet.mem_insert.mp member with pending | ⟨rfl, -⟩
  · exact listed.pending event pending socket belongs
  · obtain rfl : context.socket = socket := Option.some.inj belongs
    rw [listed.keys _ _ effect.found]
    exact sockets_eq_some.mpr ⟨context, effect.found, rfl⟩

theorem processEpollEvents (listed : p.Listed) {batch : List EpollEvent} {currentTime : Word}
    (returned : p.processEpollEvents batch currentTime = .ok after) : after.Listed := by
  refine processEpollEvents_invariant Listed ?_ ?_ ?_ ?_ listed returned
  · intro before report next _ held processed
    exact held.processReport processed
  · intro before _ held
    exact ⟨held.toKeyed.congr rfl, held.pending⟩
  · intro before _ _ _
    exact ⟨⟨nofun⟩, fun event member => absurd member (KeyedSet.not_mem_empty event)⟩
  · intro before _ held
    exact ⟨held.toKeyed.congr rfl, held.pending⟩

theorem schedulerTurn (listed : p.Listed) {now : Word} {payload : EventPayload}
    (turn : p.schedulerTurn now = some (payload, after)) : after.Listed := by
  refine ⟨listed.toKeyed.congr (schedulerTurn_activeSockets turn), ?_⟩
  rw [sockets_congr (schedulerTurn_activeSockets turn)]
  obtain ⟨_, _, -, -, -, outcome⟩ := schedulerTurn_eq_some turn
  cases outcome with
  | @closes context found _ _ =>
      intro event member socket belongs
      rcases KeyedSet.mem_insert.mp member with pending | ⟨rfl, -⟩
      · exact listed.pending event pending socket belongs
      · obtain rfl : context.socket = socket := Option.some.inj belongs
        rw [listed.keys _ _ found]
        exact sockets_eq_some.mpr ⟨context, found, rfl⟩
  | joins _ _ taken _ _ =>
      intro event member socket belongs
      rcases KeyedSet.mem_insert.mp member with other | ⟨rfl, -⟩
      · exact listed.pending event (KeyedSet.mem_erase.mp other).1 socket belongs
      · exact listed.pending _ (KeyedSet.find_eq_some.mp taken).1 socket belongs
  | _ => exact listed.pending

theorem removeSocket (listed : p.Listed) {socket : SocketPtr}
    (own : ∀ registered ∈ p.sockets socket.fd, registered = socket) :
    (p.removeSocket (some socket)).Listed := by
  refine ⟨listed.toKeyed.removeSocket socket, ?_⟩
  rw [sockets_removeSocket, removeSocket_outEvents]
  intro event member other belongs
  have kept : event ∈ p.outEvents ∧ (p.registers socket = false → event.socket ≠ some socket) := by
    split at member
    · rename_i absent
      refine ⟨member, ?_⟩
      intro present
      cases absent.symm.trans present
    · obtain ⟨pending, different⟩ := KeyedSet.mem_erase.mp member
      exact ⟨pending, fun _ => different⟩
  have registered := listed.pending event kept.1 other belongs
  by_cases same : other.fd = socket.fd
  · -- The socket of the event is the one that is removed, so the event went with it.
    rw [same] at registered
    obtain rfl := own other registered
    obtain ⟨context, found, -⟩ := sockets_eq_some.mp registered
    have present : p.registers other = false := by rw [registers, found, Option.isNone_some]
    exact absurd belongs (kept.2 present)
  · rw [Function.update_of_ne same]
    exact registered

theorem updateSocket (listed : p.Listed) {socket : SocketPtr}
    {eventMask timeoutStep readClock writeClock : Word}
    (own : ∀ registered ∈ p.sockets socket.fd, registered = socket)
    (returned : p.updateSocket (some socket) eventMask timeoutStep readClock writeClock =
      .ok after) : after.Listed := by
  refine ⟨listed.toKeyed.updateSocket returned, ?_⟩
  rw [sockets_updateSocket returned, contextFor_socket own, (updateSocket_eq_ok returned).outEvents]
  intro event member other belongs
  have registered := listed.pending event member other belongs
  by_cases same : other.fd = socket.fd
  · rw [same] at registered
    obtain rfl := own other registered
    exact Function.update_self ..
  · rw [Function.update_of_ne same]
    exact registered

theorem getNextEvent (listed : p.Listed) (position : ℕ) : (p.getNextEvent position).2.Listed := by
  refine ⟨listed.toKeyed.congr (p.getNextEvent_activeSockets position), ?_⟩
  rw [sockets_congr (p.getNextEvent_activeSockets position), Poller.getNextEvent]
  split
  · exact listed.pending
  · exact fun event member => listed.pending event (KeyedSet.mem_erase.mp member).1

theorem poll (listed : p.Listed) {batch : List EpollEvent}
    {waitClock eventClock schedulerClock : Word}
    (returned : p.poll batch waitClock eventClock schedulerClock = .ok after) : after.Listed := by
  obtain ⟨processed, succeeded, rfl⟩ := poll_eq_ok returned
  exact processScheduler_invariant Listed (fun _ _ _ held turn => held.schedulerTurn turn)
    (listed.processEpollEvents succeeded)

theorem signal (listed : p.Listed) (sent : Signal) : (p.signal sent).Listed :=
  ⟨listed.toKeyed.congr rfl, listed.pending⟩

end Poller.Listed

end Jasl
