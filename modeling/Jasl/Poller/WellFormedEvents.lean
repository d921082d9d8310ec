import Jasl.Poller.Pending

/-!
# Pending events are well formed

An event says what the reactor is to do with its socket, and why if it is to
close it. The reasons are those `epoll_wait` gives or those the timeouts give,
never both, and a direction that is ready has not timed out
(`PollerEvent.WellFormed`).

`process_epoll_events` builds events of this form from any report, and
`process_scheduler` keeps the form when it turns a pending event into a close
(`WellFormed.joined`): the event had no reason yet, and the directions in which it
is ready are taken out of the expired ones.
-/

set_option autoImplicit false

namespace Jasl

open Library

namespace PollerEvent

/-- The reasons that a report gives. -/
def epollReasons : Word := peerShutdown ||| unexpectedShutdown ||| socketError

/-- The reasons that timeouts give. -/
def timeoutReasons : Word := timeoutRead ||| timeoutWrite

/-- An event the reactor can act upon. -/
structure WellFormed (event : PollerEvent) : Prop where
  acts : event.action ≠ 0
  actions : event.action &&& ~~~(read ||| write ||| close) = 0
  closes : event.action.has close = true ↔ event.closeReason ≠ 0
  reasons : event.closeReason &&& ~~~epollReasons = 0 ∨ event.closeReason &&& ~~~timeoutReasons = 0
  readable : ¬ (event.action.has read = true ∧ event.closeReason.has timeoutRead = true)
  writable : ¬ (event.action.has write = true ∧ event.closeReason.has timeoutWrite = true)

namespace WellFormed

/-- The event of a report is well formed when it has an action. -/
theorem ofReport {socket : SocketPtr} {mask : BitVec 32}
    (acts : (PollerEvent.ofReport socket mask).action ≠ 0) :
    (PollerEvent.ofReport socket mask).WellFormed := by
  have closing : mask.has (epollHup ||| epollRdHup ||| epollErr) =
      (mask.has epollHup || mask.has epollRdHup || mask.has epollErr) := by
    rw [BitVec.has_flag_or, BitVec.has_flag_or]
  refine ⟨acts, ?_, ?_, .inl ?_, ?_, ?_⟩
  all_goals
    simp only [PollerEvent.ofReport, closing]
    generalize mask.has epollIn = reads
    generalize mask.has epollOut = writes
    generalize mask.has epollHup = hangsUp
    generalize mask.has epollRdHup = readHangsUp
    generalize mask.has epollErr = fails
    revert reads writes hangsUp readHangsUp fails
    decide

/-- What is left of expired directions is a reason of the timeouts, in a direction that is not
ready. -/
theorem unmasked (action : Word) (context : SocketContext) (now : Word) :
    Poller.unmaskedTimeouts action (context.getTimeoutType now) &&& ~~~timeoutReasons = 0 ∧
      ¬ (action.has read = true ∧
        (Poller.unmaskedTimeouts action (context.getTimeoutType now)).has timeoutRead = true) ∧
      ¬ (action.has write = true ∧
        (Poller.unmaskedTimeouts action (context.getTimeoutType now)).has timeoutWrite = true) := by
  rw [SocketContext.getTimeoutType]
  simp only [Poller.unmaskedTimeouts]
  generalize action.has read = reads
  generalize action.has write = writes
  by_cases readExpired : context.readTimeout.time ≤ now <;>
    by_cases writeExpired : context.writeTimeout.time ≤ now <;>
      simp only [readExpired, writeExpired, if_true, if_false] <;> revert reads writes <;> decide

/-- The event of a socket that timed out without being ready. -/
theorem timedOut {context : SocketContext} {now : Word} (expired : context.getTimeoutType now ≠ 0) :
    PollerEvent.WellFormed
      { socket := some context.socket
        action := PollerEvent.close
        closeReason := context.getTimeoutType now } where
  acts := show PollerEvent.close ≠ 0 by decide
  actions := show PollerEvent.close &&& ~~~(read ||| write ||| PollerEvent.close) = 0 by decide
  closes := iff_of_true (show PollerEvent.close.has PollerEvent.close = true by decide) expired
  reasons := .inr (unmasked 0 context now).1
  readable := fun both => absurd both.1 (show PollerEvent.close.has read ≠ true by decide)
  writable := fun both => absurd both.1 (show PollerEvent.close.has write ≠ true by decide)

/-- A pending event that a timeout turns into a close. -/
theorem joined {event : PollerEvent} {context : SocketContext} {now : Word}
    (wellFormed : event.WellFormed)
    (left : Poller.unmaskedTimeouts event.action (context.getTimeoutType now) ≠ 0) :
    PollerEvent.WellFormed
      { event with
        action := event.action ||| PollerEvent.close
        closeReason := Poller.unmaskedTimeouts event.action (context.getTimeoutType now) } where
  acts := fun zero => wellFormed.acts (BitVec.or_eq_zero_iff.mp zero).1
  actions := by
    have closes : PollerEvent.close &&& ~~~(read ||| write ||| PollerEvent.close) = 0 := by decide
    change (event.action ||| PollerEvent.close) &&& ~~~(read ||| write ||| PollerEvent.close) = 0
    rw [BitVec.and_or_distrib_right, wellFormed.actions, closes]
    rfl
  closes := by
    refine iff_of_true ?_ left
    change (event.action ||| PollerEvent.close).has PollerEvent.close = true
    rw [BitVec.has_or]
    exact Bool.or_eq_true _ _ ▸ .inr (by decide)
  reasons := .inr (unmasked event.action context now).1
  readable := by
    have ready : (event.action ||| PollerEvent.close).has read = event.action.has read := by
      rw [BitVec.has_or, show PollerEvent.close.has read = false by decide, Bool.or_false]
    rw [ready]
    exact (unmasked event.action context now).2.1
  writable := by
    have ready : (event.action ||| PollerEvent.close).has write = event.action.has write := by
      rw [BitVec.has_or, show PollerEvent.close.has write = false by decide, Bool.or_false]
    rw [ready]
    exact (unmasked event.action context now).2.2

end WellFormed

end PollerEvent

/-! ## Every pending event -/

/-- Every pending event is well formed. -/
def Poller.EventsWellFormed (p : Poller) : Prop :=
  ∀ event ∈ p.outEvents, event.WellFormed

namespace Poller.EventsWellFormed

variable {p after : Poller}

theorem create (eventFd : FD) : (Poller.create eventFd).EventsWellFormed :=
  fun event member => absurd member (KeyedSet.not_mem_empty event)

theorem mono (wellFormed : p.EventsWellFormed) (events : ∀ event ∈ after.outEvents,
    event ∈ p.outEvents) : after.EventsWellFormed :=
  fun event member => wellFormed event (events event member)

theorem insert (wellFormed : p.EventsWellFormed) {added : PollerEvent}
    (fits : added.WellFormed) (outEvents : after.outEvents = p.outEvents.insert added) :
    after.EventsWellFormed := by
  intro event member
  rw [outEvents] at member
  rcases KeyedSet.mem_insert.mp member with pending | ⟨rfl, -⟩
  · exact wellFormed event pending
  · exact fits

theorem processEpollEvents (wellFormed : p.EventsWellFormed) {batch : List EpollEvent}
    {currentTime : Word} (returned : p.processEpollEvents batch currentTime = .ok after) :
    after.EventsWellFormed := by
  refine processEpollEvents_invariant EventsWellFormed ?_ (fun _ _ => id) ?_ (fun _ _ => id)
    wellFormed returned
  · intro before report next _ held processed
    obtain ⟨context, effect⟩ := processReport_eq_ok processed
    exact held.insert (.ofReport effect.action) effect.outEvents
  · intro before _ _ _ event member
    exact absurd member (KeyedSet.not_mem_empty event)

theorem schedulerTurn (wellFormed : p.EventsWellFormed) {now : Word} {payload : EventPayload}
    (turn : p.schedulerTurn now = some (payload, after)) : after.EventsWellFormed := by
  obtain ⟨_, _, -, -, -, outcome⟩ := schedulerTurn_eq_some turn
  cases outcome with
  | closes _ expired _ => exact wellFormed.insert (.timedOut expired) rfl
  | @joins context event _ _ taken _ left =>
      have others : Poller.EventsWellFormed
          { p with outEvents := p.outEvents.erase event.socket } :=
        wellFormed.mono fun other member => (KeyedSet.mem_erase.mp member).1
      have pending := wellFormed event (KeyedSet.find_eq_some.mp taken).1
      exact others.insert (pending.joined left) rfl
  | _ => exact wellFormed

/-- **Every call keeps the pending events well formed.** -/
theorem step (wellFormed : p.EventsWellFormed) {op : PollerOp} (returned : p.step op = .ok after) :
    after.EventsWellFormed := by
  cases op with
  | poll batch waitClock eventClock schedulerClock =>
      obtain ⟨processed, succeeded, rfl⟩ := poll_eq_ok returned
      exact processScheduler_invariant EventsWellFormed
        (fun _ _ _ held turn => held.schedulerTurn turn) (wellFormed.processEpollEvents succeeded)
  | _ => exact wellFormed.mono (outEvents_of_step returned nofun)

end Poller.EventsWellFormed

/-- **Pending events are well formed**, in every state a poller reaches, and no two of them are of
one socket. -/
theorem pending_events_are_well_formed {eventFd : FD} {ops : List PollerOp} {p : Poller}
    (reached : Run Poller.step (fun _ _ => True) (Poller.create eventFd) ops p) :
    (p.outEvents.elements.map PollerEvent.socket).Nodup ∧
      ∀ event ∈ p.outEvents, event.WellFormed := by
  refine ⟨p.outEvents.distinct, ?_⟩
  apply reached.invariant Poller.EventsWellFormed (.create eventFd)
  intro before op after held _ stepped
  exact held.step stepped

/-- A socket is reported readable, and its write timeout joins that event later. -/
def joinedOps : List PollerOp :=
  [.update (some ⟨0, 7, .client⟩) (epollIn ||| epollOut) 1000 0 0, .poll [⟨7, epollIn⟩] 1 600 600,
    .poll [] 1000 1000 1100]

def joinedPoller : Poller :=
  (checkedRun Poller.step (fun _ _ => True) (Poller.create 3) joinedOps).get (by decide +kernel)

example : joinedPoller.outEvents.elements =
    [⟨some ⟨0, 7, .client⟩, PollerEvent.read ||| PollerEvent.close, PollerEvent.timeoutWrite⟩] := by
  decide +kernel

theorem pending_events_are_well_formed_joined :
    (joinedPoller.outEvents.elements.map PollerEvent.socket).Nodup ∧
      ∀ event ∈ joinedPoller.outEvents, event.WellFormed :=
  pending_events_are_well_formed (Run.of_isSome _)

end Jasl
