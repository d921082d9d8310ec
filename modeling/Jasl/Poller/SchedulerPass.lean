import Jasl.Poller.Merging

/-!
# What process_scheduler leaves

`process_scheduler` pops the timers that are due one after another and looks up the
pending event of each socket. It may insert an event, replace one, or leave it.
Said of one socket, without the loop: a direction has timed out when its deadline
has come (`expiredIn`), and the event of the socket afterwards is a function of
that and of the event pending before (`expire`).

In every state in which the timers agree with the contexts the loop ends, drops the
timers that are due and no other, applies `expire` to the socket of each of them,
once, and changes no other event (`scheduler_pass_is_exact`).
-/

set_option autoImplicit false

namespace Jasl

open Library

/-! ## The events afterwards -/

/-- The action of an event that is ready in a direction. -/
def Direction.action : Direction → Word
  | read => PollerEvent.read
  | write => PollerEvent.write

/-- The reason of a close for timeouts in some directions. -/
def timeoutReason (directions : Direction → Bool) : Word :=
  (bif directions .read then Direction.read.expired else 0#64) |||
    (bif directions .write then Direction.write.expired else 0#64)

namespace SocketContext

/-- The deadline of a direction has come. -/
def expiredIn (context : SocketContext) (now : Word) (direction : Direction) : Bool :=
  decide ((context.timeout direction).time ≤ now)

/-- The event of a socket whose timer was due, from the one that was pending: the directions that
have timed out close it, those in which it is ready left out, unless it closes already. -/
def expire (context : SocketContext) (now : Word) : Option PollerEvent → PollerEvent
  | none =>
      { socket := some context.socket
        action := PollerEvent.close
        closeReason := timeoutReason (context.expiredIn now) }
  | some event =>
      let left := fun direction =>
        context.expiredIn now direction && !event.action.has direction.action
      if event.action.has PollerEvent.close then event
      else if left .read || left .write then
        { event with
          action := event.action ||| PollerEvent.close
          closeReason := timeoutReason left }
      else event

end SocketContext

/-- The code keeps the directions that have timed out as flags of a word. -/
theorem SocketContext.getTimeoutType_eq (context : SocketContext) (now : Word) :
    context.getTimeoutType now = timeoutReason (context.expiredIn now) := by
  simp only [getTimeoutType, timeoutReason, expiredIn, Bool.cond_decide]
  rfl

theorem timeoutReason_eq_zero {directions : Direction → Bool} :
    timeoutReason directions = 0 ↔ (directions .read || directions .write) = false := by
  rw [timeoutReason]
  generalize directions .read = read
  generalize directions .write = write
  revert read write
  decide

/-- Taking the ready directions out of the word leaves the flags of the others. -/
theorem unmaskedTimeouts_timeoutReason (action : Word) (directions : Direction → Bool) :
    Poller.unmaskedTimeouts action (timeoutReason directions) =
      timeoutReason fun direction => directions direction && !action.has direction.action := by
  cases reads : action.has PollerEvent.read <;> cases writes : action.has PollerEvent.write <;>
    cases read : directions .read <;> cases write : directions .write <;>
      simp only [Poller.unmaskedTimeouts, timeoutReason, Direction.action, reads, writes, read,
        write] <;> decide

namespace Poller

/-- The body of the loop, for a timer that is due: the event of its socket is the one that `expire`
gives. -/
theorem TimerOutcome.find_of_own {p after : Poller} {payload : EventPayload} {now : Word}
    (outcome : TimerOutcome p payload now after) {context : SocketContext}
    (own : p.activeSockets payload = some context) (due : context.getTimeoutType now ≠ 0) :
    after.outEvents.find (some context.socket) =
      some (context.expire now (p.outEvents.find (some context.socket))) := by
  cases outcome with
  | unknown absent => cases absent.symm.trans own
  | early found zero =>
      obtain rfl := Option.some.inj (own.symm.trans found)
      exact absurd zero due
  | closes found _ absent =>
      obtain rfl := Option.some.inj (own.symm.trans found)
      rw [KeyedSet.find_insert, absent, if_pos rfl, Option.none_or, SocketContext.expire,
        SocketContext.getTimeoutType_eq]
  | closing found _ pending closes =>
      obtain rfl := Option.some.inj (own.symm.trans found)
      simp only [pending, SocketContext.expire, closes, if_true]
  | masked found _ pending open_ masked =>
      obtain rfl := Option.some.inj (own.symm.trans found)
      rw [SocketContext.getTimeoutType_eq, unmaskedTimeouts_timeoutReason,
        timeoutReason_eq_zero] at masked
      simp only [pending, SocketContext.expire, open_, masked, if_false, Bool.false_eq_true]
  | joins found _ pending open_ left =>
      obtain rfl := Option.some.inj (own.symm.trans found)
      have key := (KeyedSet.find_eq_some.mp pending).2
      rw [SocketContext.getTimeoutType_eq, unmaskedTimeouts_timeoutReason] at left ⊢
      have remains := mt timeoutReason_eq_zero.mpr left
      rw [Bool.not_eq_false] at remains
      simp only [KeyedSet.find_insert, KeyedSet.find_erase, key, if_true, Option.none_or, pending,
        SocketContext.expire, open_, remains, if_false, Bool.false_eq_true]

/-! ## The loop -/

/-- The timer of a descriptor is due. -/
def DueAt (p : Poller) (now : Word) (fd : FD) : Prop :=
  ∃ time, p.scheduler.deadline fd = some time ∧ time ≤ now

/-- The loop of `process_scheduler` on its way: each registered socket has its timer and its event,
or its timer was due and is popped and its event is settled. -/
structure Swept (p : Poller) (now : Word) (q : Poller) : Prop extends TimersAgree q where
  activeSockets : q.activeSockets = p.activeSockets
  socket : ∀ fd context, p.activeSockets fd = some context →
    (q.scheduler.deadline fd = p.scheduler.deadline fd ∧
      q.outEvents.find (some context.socket) = p.outEvents.find (some context.socket)) ∨
    (q.scheduler.deadline fd = none ∧ p.DueAt now fd ∧
      q.outEvents.find (some context.socket) =
        some (context.expire now (p.outEvents.find (some context.socket))))
  others : ∀ key, (∀ fd context, p.DueAt now fd → p.activeSockets fd = some context →
      key ≠ some context.socket) →
    q.outEvents.find key = p.outEvents.find key

namespace Swept

variable {p q after : Poller} {now : Word}

theorem start (agree : TimersAgree p) (now : Word) : p.Swept now p where
  toTimersAgree := agree
  activeSockets := rfl
  socket := fun _ _ _ => .inl ⟨rfl, rfl⟩
  others := fun _ _ => rfl

/-- Sockets under different descriptors are different. -/
theorem apart (swept : p.Swept now q) {fd other : FD} {context stored : SocketContext}
    (found : p.activeSockets fd = some context) (inMap : p.activeSockets other = some stored)
    (different : other ≠ fd) : some stored.socket ≠ some context.socket := by
  rw [← swept.activeSockets] at found inMap
  intro same
  apply different
  rw [← swept.keys other stored inMap, ← swept.keys fd context found, Option.some.inj same]

/-- A turn settles the socket of the timer it pops, which no turn before did. -/
theorem turn (swept : p.Swept now q) {payload : EventPayload}
    (turn : q.schedulerTurn now = some (payload, after)) : p.Swept now after := by
  have timers := schedulerTurn_timers swept.toKeyed turn
  have agree := swept.toTimersAgree.schedulerTurn turn
  have sockets := (schedulerTurn_activeSockets turn).trans swept.activeSockets
  obtain ⟨time, scheduler, due, -, -, outcome⟩ := schedulerTurn_eq_some turn
  obtain ⟨context, found, -, expired⟩ := swept.toTimersAgree.due_context due
  have before : p.activeSockets payload = some context := swept.activeSockets ▸ found
  obtain ⟨standing, unsettled⟩ : q.scheduler.deadline payload = p.scheduler.deadline payload ∧
      q.outEvents.find (some context.socket) = p.outEvents.find (some context.socket) := by
    rcases swept.socket payload context before with kept | ⟨gone, -⟩
    · exact kept
    · cases gone.symm.trans due.entry
  have dueAt : p.DueAt now payload := ⟨time, standing.symm.trans due.entry, due.reached⟩
  have unchanged : ∀ key, key ≠ some context.socket →
      after.outEvents.find key = q.outEvents.find key := by
    intro key other
    refine outcome.find_of_other fun stored same => ?_
    obtain rfl := Option.some.inj (found.symm.trans same)
    exact other
  refine ⟨agree, sockets, ?_, ?_⟩
  · intro fd stored inMap
    rw [timers]
    by_cases own : fd = payload
    · subst own
      obtain rfl := Option.some.inj (before.symm.trans inMap)
      rw [Function.update_self]
      refine .inr ⟨rfl, dueAt, ?_⟩
      rw [← unsettled]
      exact outcome.find_of_own found expired
    · rw [Function.update_of_ne own, unchanged _ (swept.apart before inMap own)]
      exact swept.socket fd stored inMap
  · intro key other
    rw [unchanged key (other payload context dueAt before)]
    exact swept.others key other

end Swept

theorem processScheduler_swept {p : Poller} (agree : TimersAgree p) (now : Word) :
    p.Swept now (p.processScheduler now) :=
  processScheduler_invariant (p.Swept now) (fun _ _ _ swept turn => swept.turn turn)
    (.start agree now)

end Poller

/-- **What process_scheduler does**, in every state in which the timers agree with the contexts.
The loop ends by itself. The timers that are due are gone, and the later ones are as they were. The
socket of each timer that was due has the event that `expire` makes of the one pending before, and
every other event is as it was. -/
theorem scheduler_pass_is_exact {p : Poller} (agree : TimersAgree p) (now : Word) :
    (p.processScheduler now).schedulerTurn now = none ∧
    (∀ fd time, (p.processScheduler now).scheduler.deadline fd = some time ↔
      p.scheduler.deadline fd = some time ∧ now < time) ∧
    (∀ fd context, p.DueAt now fd → p.activeSockets fd = some context →
      (p.processScheduler now).outEvents.find (some context.socket) =
        some (context.expire now (p.outEvents.find (some context.socket)))) ∧
    ∀ key, (∀ fd context, p.DueAt now fd → p.activeSockets fd = some context →
        key ≠ some context.socket) →
      (p.processScheduler now).outEvents.find key = p.outEvents.find key := by
  have swept := Poller.processScheduler_swept agree now
  refine ⟨Poller.schedulerTurns_done (le_refl _), ?_, ?_, swept.others⟩
  · intro fd time
    constructor
    · intro scheduled
      refine ⟨?_, Poller.processScheduler_deadline scheduled⟩
      obtain ⟨context, found, -⟩ := swept.scheduled fd time scheduled
      rw [swept.activeSockets] at found
      rcases swept.socket fd context found with ⟨kept, -⟩ | ⟨gone, -⟩
      · exact kept.symm.trans scheduled
      · cases gone.symm.trans scheduled
    · rintro ⟨scheduled, later⟩
      obtain ⟨context, found, -⟩ := agree.scheduled fd time scheduled
      rcases swept.socket fd context found with ⟨kept, -⟩ | ⟨-, ⟨other, scheduled', reached⟩, -⟩
      · exact kept.trans scheduled
      · obtain rfl := Option.some.inj (scheduled.symm.trans scheduled')
        exact absurd reached (not_le.mpr later)
  · rintro fd context ⟨time, scheduled, reached⟩ found
    rcases swept.socket fd context found with ⟨kept, -⟩ | ⟨-, -, settled⟩
    · exact absurd reached (not_le.mpr (Poller.processScheduler_deadline (kept.trans scheduled)))
    · exact settled

/-- A socket that is registered for both directions within 1000. -/
def bothTimedClient : Poller :=
  (checkedRun Poller.step (fun p op => ¬ p.ReadsStop op) (Poller.create 3)
    [.update (some ⟨0, 7, .client⟩) (epollIn ||| epollOut) 1000 0 0]).get (by decide +kernel)

/-- It was reported readable at 600. -/
def readableClient : Poller :=
  (bothTimedClient.processEpollEvents [⟨7, epollIn⟩] 600).toOption.get (by decide +kernel)

/-- At 1000 its write timeout joins the event. -/
theorem scheduler_pass_is_exact_joins :
    (readableClient.processScheduler 1000).outEvents.find (some ⟨0, 7, .client⟩) =
      some ⟨some ⟨0, 7, .client⟩, PollerEvent.read ||| PollerEvent.close,
        PollerEvent.timeoutWrite⟩ := by
  have agree : TimersAgree readableClient :=
    (TimersAgree.run (Run.of_isSome _)).processEpollEvents (by decide +kernel) (eq_ok_of_isSome _)
  have settled := (scheduler_pass_is_exact agree 1000).2.2.1 7
    ⟨⟨0, 7, .client⟩, ⟨1600, 1000⟩, ⟨1000, 1000⟩⟩ ⟨1000, by decide +kernel, le_refl _⟩
    (by decide +kernel)
  exact settled.trans (by decide +kernel)

end Jasl
