import Jasl.Poller.KernelAgreement

/-!
# Reports that meet a pending event

`get_next_event` need not have been called until no event is left when `poll` is
called again, so a report may be about a socket whose event is still pending. The
pending events are told apart by their sockets alone, and `insert` leaves the event
that stands there: the conditions of the report are in no event unless the standing
one has them already (`unmerged_report_is_lost`). `process_scheduler`, in the same
place, replaces the standing event by one with the close added.

`Owed` notes beside the poller which conditions were reported for a socket and not
returned since. Nothing owed is lost as long as the standing event has the
conditions of every report that meets it, or a timeout of the same call adds the
close (`Poller.Absorbs`), and in no other case (`no_readiness_is_lost`).
-/

set_option autoImplicit false

namespace Jasl

open Library

/-! ## What is owed -/

namespace PollerEvent

/-- What `epoll_wait` can say about a socket. -/
inductive Condition where
  | read
  | write
  | close
deriving DecidableEq, Repr

def Condition.flag : Condition → Word
  | .read => PollerEvent.read
  | .write => PollerEvent.write
  | .close => PollerEvent.close

theorem Condition.close_has (condition : Condition) :
    PollerEvent.close.has condition.flag = true ↔ condition = .close := by
  cases condition <;> decide

instance {holds : Condition → Prop} [DecidablePred holds] :
    Decidable (∀ condition, holds condition) :=
  decidable_of_iff (holds .read ∧ holds .write ∧ holds .close)
    ⟨fun all condition => by cases condition <;> simp only [all], fun all => ⟨all _, all _, all _⟩⟩

end PollerEvent

open PollerEvent (Condition)

/-- A report gives the event of a socket a condition. -/
def EpollEvent.gives (report : EpollEvent) (socket : SocketPtr) (condition : Condition) : Bool :=
  (PollerEvent.ofReport socket report.events).action.has condition.flag

/-- The conditions reported for each socket since it was registered, and not returned since. -/
abbrev Owed := SocketPtr → Condition → Bool

namespace Poller

/-- What `epoll_wait` returns in a call. -/
def returnedReports (p : Poller) : PollerOp → List EpollEvent
  | .poll batch waitClock _ _ => p.getEpollEvents waitClock batch
  | _ => []

/-- What `get_next_event` returns in a call. -/
def returnedEvent (p : Poller) : PollerOp → PollerEvent
  | .next position => (p.getNextEvent position).1
  | _ => {}

end Poller

def Owed.note (p : Poller) (op : PollerOp) (after : Poller) (owed : Owed) : Owed :=
  fun socket condition =>
    decide (after.sockets socket.fd = some socket) &&
      (owed socket condition || (p.returnedReports op).any fun report =>
        decide (report.data = socket.fd) && report.gives socket condition) &&
      !(decide ((p.returnedEvent op).socket = some socket) &&
        (p.returnedEvent op).action.has condition.flag)

namespace Poller

/-- The action of the pending event of a socket, `0` when it has none. -/
def pendingAction (p : Poller) (socket : SocketPtr) : Word :=
  ((p.outEvents.find (some socket)).map PollerEvent.action).getD 0

/-- Everything owed is in a pending event. -/
def Contains (p : Poller) (owed : Owed) : Prop :=
  ∀ socket condition, owed socket condition = true →
    (p.pendingAction socket).has condition.flag = true

/-! ## What a call absorbs -/

/-- The event of a socket that stands after some reports: the one pending before, or that of the
first report on its descriptor. -/
def standingEvent (p : Poller) (reports : List EpollEvent) (socket : SocketPtr) :
    Option PollerEvent :=
  (p.outEvents.find (some socket)).or
    ((reports.find? fun report => report.data = socket.fd).map fun report =>
      PollerEvent.ofReport socket report.events)

def standingAction (p : Poller) (reports : List EpollEvent) (socket : SocketPtr) : Word :=
  ((p.standingEvent reports socket).map PollerEvent.action).getD 0

/-- The timer of a socket is due after some reports, and one of its directions has timed out that
its standing event does not name. -/
def closesAfter (p : Poller) (eventClock : Word) (reports : List EpollEvent) (schedulerClock : Word)
    (context : SocketContext) : Bool :=
  (p.deadlineAfter eventClock reports context.socket.fd).any (fun time => time ≤ schedulerClock) &&
    unmaskedTimeouts (p.standingAction reports context.socket)
      ((context.reported eventClock (masksOn context.socket.fd reports)).getTimeoutType
        schedulerClock) != 0

/-- Every report that a call returns meets an event that has its conditions, or that a timeout of
the call closes; or the call processes a stop. -/
def Absorbs (p : Poller) : PollerOp → Prop
  | .poll batch waitClock eventClock schedulerClock =>
      p.StopReported (p.getEpollEvents waitClock batch) ∨
        ∀ report ∈ p.getEpollEvents waitClock batch, ∀ context ∈ p.activeSockets report.data,
          ∀ condition, report.gives context.socket condition = true →
            (p.standingAction (delivered p.eventFd p.eventCount (p.getEpollEvents waitClock batch))
              context.socket).has condition.flag = true ∨
            (condition = .close ∧ p.closesAfter eventClock
              (delivered p.eventFd p.eventCount (p.getEpollEvents waitClock batch))
              schedulerClock context = true)
  | _ => True

instance (p : Poller) : (op : PollerOp) → Decidable (p.Absorbs op)
  | .poll _ _ _ _ => inferInstanceAs (Decidable (_ ∨ _))
  | .update .. | .remove _ | .next _ | .signal _ => inferInstanceAs (Decidable True)

/-! ## Pending events of a call -/

theorem pendingAction_congr {p after : Poller} {socket : SocketPtr}
    (same : after.outEvents.find (some socket) = p.outEvents.find (some socket)) :
    after.pendingAction socket = p.pendingAction socket := by
  rw [pendingAction, pendingAction, same]

theorem pendingAction_of_find {p : Poller} {socket : SocketPtr} {event : PollerEvent}
    (pending : p.outEvents.find (some socket) = some event) :
    p.pendingAction socket = event.action := by
  rw [pendingAction, pending]
  rfl

theorem unmaskedTimeouts_zero (action : Word) : unmaskedTimeouts action 0 = 0 := by
  simp [unmaskedTimeouts]

/-- Without an action nothing is taken out of the expired directions. -/
theorem unmaskedTimeouts_of_zero (timeoutType : Word) :
    unmaskedTimeouts 0 timeoutType = timeoutType := by
  simp [unmaskedTimeouts]

theorem pendingAction_removeSocket {p : Poller} {socket target : SocketPtr}
    (other : socket ≠ target) :
    (p.removeSocket (some target)).pendingAction socket = p.pendingAction socket := by
  apply pendingAction_congr
  rw [removeSocket_outEvents]
  split
  · rfl
  · rw [KeyedSet.find_erase, if_neg fun same => other (Option.some.inj same)]

/-- `get_next_event` takes the pending event of a socket, or leaves it. -/
theorem pendingAction_getNextEvent (p : Poller) (position : ℕ) (socket : SocketPtr) :
    (p.getNextEvent position).2.pendingAction socket = p.pendingAction socket ∨
      ((p.getNextEvent position).1.socket = some socket ∧
        (p.getNextEvent position).1.action = p.pendingAction socket) := by
  rw [Poller.getNextEvent]
  cases picked : p.outEvents.pick position with
  | none => exact .inl rfl
  | some event =>
      by_cases own : event.socket = some socket
      · have found := KeyedSet.find_eq_some.mpr ⟨KeyedSet.pick_mem picked, own⟩
        exact .inr ⟨own, (pendingAction_of_find found).symm⟩
      · refine .inl (pendingAction_congr ?_)
        change (p.outEvents.erase event.socket).find (some socket) = _
        rw [KeyedSet.find_erase, if_neg fun same => own same.symm]

/-- A turn of the loop of `process_scheduler` drops the timer it pops, and no other. -/
theorem schedulerTurn_timers {p after : Poller} (keyed : Keyed p) {now : Word}
    {payload : EventPayload} (turn : p.schedulerTurn now = some (payload, after)) :
    after.scheduler.deadline = Function.update p.scheduler.deadline payload none := by
  obtain ⟨_, scheduler, -, timers, -, outcome⟩ := schedulerTurn_eq_some turn
  cases outcome with
  | @joins context _ found _ _ _ _ =>
      have key : context.socket.fd = payload := keyed.keys payload context found
      rw [Scheduler.deadline_deleteEvent, timers, key, Function.update_idem]
  | _ => exact timers

/-- The timer of another descriptor leaves the pending event of a socket. -/
theorem TimerOutcome.pendingAction_of_other {p after : Poller} (keyed : Keyed p) {now : Word}
    {payload : EventPayload} (outcome : TimerOutcome p payload now after) {socket : SocketPtr}
    (other : socket.fd ≠ payload) : after.pendingAction socket = p.pendingAction socket := by
  apply pendingAction_congr
  apply outcome.find_of_other
  intro context found same
  apply other
  rw [Option.some.inj same]
  exact keyed.keys payload context found

/-- The timer of a socket adds a close to its pending event, if it has expired directions that the
event does not name. -/
theorem TimerOutcome.pendingAction_of_own {p after : Poller} {now : Word} {payload : EventPayload}
    (outcome : TimerOutcome p payload now after) {context : SocketContext}
    (own : p.activeSockets payload = some context) (condition : Condition) :
    (after.pendingAction context.socket).has condition.flag = true ↔
      (p.pendingAction context.socket).has condition.flag = true ∨
        (condition = .close ∧
          unmaskedTimeouts (p.pendingAction context.socket) (context.getTimeoutType now) ≠ 0) := by
  cases outcome with
  | unknown absent => cases absent.symm.trans own
  | early found zero =>
      obtain rfl := Option.some.inj (own.symm.trans found)
      rw [zero, unmaskedTimeouts_zero]
      simp
  | closes found expired absent =>
      obtain rfl := Option.some.inj (own.symm.trans found)
      have none : p.pendingAction context.socket = 0 := by
        rw [pendingAction, absent]
        rfl
      rw [none, unmaskedTimeouts_of_zero, pendingAction, KeyedSet.find_insert, absent, if_pos rfl,
        and_iff_left expired]
      change PollerEvent.close.has condition.flag = true ↔ _
      rw [condition.close_has]
      simp
  | closing found _ pending closes =>
      obtain rfl := Option.some.inj (own.symm.trans found)
      rw [pendingAction_of_find pending]
      constructor
      · exact Or.inl
      · rintro (has | ⟨rfl, -⟩)
        · exact has
        · exact closes
  | masked found _ pending _ masked =>
      obtain rfl := Option.some.inj (own.symm.trans found)
      rw [pendingAction_of_find pending, masked]
      simp
  | @joins _ event found _ pending _ left =>
      obtain rfl := Option.some.inj (own.symm.trans found)
      have key := (KeyedSet.find_eq_some.mp pending).2
      rw [pendingAction_of_find pending, pendingAction, KeyedSet.find_insert, if_pos key,
        KeyedSet.find_erase, key, if_pos rfl, Option.none_or]
      change (event.action ||| PollerEvent.close).has condition.flag = true ↔ _
      rw [BitVec.has_or, Bool.or_eq_true, condition.close_has, and_iff_left left]

/-- The loop of `process_scheduler` as one socket sees it: its timer stands and its event is what it
was, or its timer was due and is gone. -/
def SeenBy (p : Poller) (context : SocketContext) (now : Word) (q : Poller) : Prop :=
  (q.scheduler.deadline context.socket.fd = p.scheduler.deadline context.socket.fd ∧
    q.pendingAction context.socket = p.pendingAction context.socket) ∨
  (q.scheduler.deadline context.socket.fd = none ∧
    (∃ time, p.scheduler.deadline context.socket.fd = some time ∧ time ≤ now) ∧
    ∀ condition : Condition,
      (q.pendingAction context.socket).has condition.flag = true ↔
        (p.pendingAction context.socket).has condition.flag = true ∨
          (condition = .close ∧
            unmaskedTimeouts (p.pendingAction context.socket) (context.getTimeoutType now) ≠ 0))

/-- Only the timer of the socket changes what it sees. -/
theorem SeenBy.turn {p q after : Poller} {context : SocketContext} {now : Word}
    (seen : p.SeenBy context now q) (keyed : Keyed q)
    (found : q.activeSockets context.socket.fd = some context) {payload : EventPayload}
    (turn : q.schedulerTurn now = some (payload, after)) : p.SeenBy context now after := by
  have timers := schedulerTurn_timers keyed turn
  obtain ⟨time, scheduler, due, -, -, outcome⟩ := schedulerTurn_eq_some turn
  have popped : Keyed { q with scheduler } := keyed.congr rfl
  rw [SeenBy, timers]
  by_cases own : context.socket.fd = payload
  · subst own
    rw [Function.update_self]
    rcases seen with ⟨timer, pending⟩ | ⟨gone, -⟩
    · refine .inr ⟨rfl, ⟨time, timer.symm.trans due.entry, due.reached⟩, ?_⟩
      intro condition
      rw [← pending]
      exact outcome.pendingAction_of_own found condition
    · cases gone.symm.trans due.entry
  · have kept : after.pendingAction context.socket = q.pendingAction context.socket :=
      outcome.pendingAction_of_other popped own
    rw [Function.update_of_ne own, kept]
    exact seen

/-- **What `process_scheduler` adds to the pending event of a socket**: a close, when the timer of
the socket is due and it has expired directions that the event does not name. -/
theorem processScheduler_pendingAction {p : Poller} (keyed : Keyed p) {context : SocketContext}
    (found : p.activeSockets context.socket.fd = some context) (now : Word)
    (condition : Condition) :
    ((p.processScheduler now).pendingAction context.socket).has condition.flag = true ↔
      (p.pendingAction context.socket).has condition.flag = true ∨
        (condition = .close ∧
          (∃ time, p.scheduler.deadline context.socket.fd = some time ∧ time ≤ now) ∧
          unmaskedTimeouts (p.pendingAction context.socket) (context.getTimeoutType now) ≠ 0) := by
  have seen : p.SeenBy context now (p.processScheduler now) := by
    refine (processScheduler_invariant
      (fun q => q.activeSockets = p.activeSockets ∧ p.SeenBy context now q)
      ?_ ⟨rfl, .inl ⟨rfl, rfl⟩⟩).2
    intro before payload after ⟨sockets, seen⟩ turn
    exact ⟨(schedulerTurn_activeSockets turn).trans sockets,
      seen.turn (keyed.congr sockets) (sockets ▸ found) turn⟩
  rcases seen with ⟨timer, pending⟩ | ⟨-, due, pending⟩
  · -- A timer that is left is not due.
    rw [pending]
    constructor
    · exact Or.inl
    · rintro (has | ⟨-, ⟨time, scheduled, reached⟩, -⟩)
      · exact has
      · exact absurd reached (not_le.mpr (processScheduler_deadline (timer.trans scheduled)))
  · rw [pending condition]
    simp only [due, true_and]

/-! ## The reports of a call -/

theorem standingEvent_reverse_cons {p : Poller} {seen : List EpollEvent} {report : EpollEvent}
    {socket : SocketPtr} :
    p.standingEvent (report :: seen).reverse socket =
      (p.standingEvent seen.reverse socket).or
        (if report.data = socket.fd then some (.ofReport socket report.events) else none) := by
  rw [standingEvent, standingEvent, List.reverse_cons, List.find?_append, Option.map_or,
    Option.or_assoc]
  by_cases same : report.data = socket.fd
  · simp [same]
  · simp [same]

/-- The loop over the reports as one socket sees it: of several events for it the first stands. -/
structure Standing (p : Poller) (socket : SocketPtr) (q : Poller) (seen : List EpollEvent) : Prop
    extends Keyed q where
  sockets : q.sockets = p.sockets
  pending : q.outEvents.find (some socket) = p.standingEvent seen.reverse socket

/-- A report inserts the event of its socket. -/
theorem Standing.processReport {p q next : Poller} {socket : SocketPtr} {seen : List EpollEvent}
    (standing : p.Standing socket q seen) (registered : p.sockets socket.fd = some socket)
    {report : EpollEvent} {now : Word} (processed : q.processReport report now = .ok next) :
    p.Standing socket next (report :: seen) := by
  refine ⟨standing.toKeyed.processReport processed,
    (sockets_processReport processed).trans standing.sockets, ?_⟩
  obtain ⟨context, effect⟩ := processReport_eq_ok processed
  rw [effect.outEvents, KeyedSet.find_insert, standing.pending, standingEvent_reverse_cons]
  by_cases same : report.data = socket.fd
  · have own : context.socket = socket := by
      have stored := sockets_eq_some.mpr ⟨context, effect.found, rfl⟩
      rw [standing.sockets, same, registered] at stored
      exact (Option.some.inj stored).symm
    have key : (PollerEvent.ofReport context.socket report.events).socket = some socket :=
      congrArg some own
    rw [if_pos key, if_pos same, own]
  · have other : (PollerEvent.ofReport context.socket report.events).socket ≠ some socket := by
      intro equal
      apply same
      rw [← standing.keys _ _ effect.found, Option.some.inj equal]
    rw [if_neg same, if_neg other]

theorem processEpollEvents_find {p after : Poller} (keyed : Keyed p) {batch : List EpollEvent}
    {now : Word} (quiet : ¬ p.StopReported batch)
    (returned : p.processEpollEvents batch now = .ok after) {socket : SocketPtr}
    (registered : p.sockets socket.fd = some socket) :
    after.outEvents.find (some socket) =
      p.standingEvent (delivered p.eventFd p.eventCount batch) socket := by
  have start : p.Standing socket p [] := by
    refine ⟨keyed, rfl, ?_⟩
    rw [standingEvent, List.reverse_nil, List.find?_nil, Option.map_none, Option.or_none]
  have reached := (processEpollEvents_quiet (fun q seen => p.Standing socket q seen)
    (fun seen report => report :: seen) quiet
    (fun _ _ _ _ _ _ held processed => held.processReport registered processed)
    (fun _ _ held => ⟨held.toKeyed.congr rfl, held.sockets, held.pending⟩)
    (fun _ _ _ held => ⟨held.toKeyed.congr rfl, held.sockets, held.pending⟩) [] start
    returned).pending
  rwa [List.foldl_flip_cons_eq_append', List.append_nil, List.reverse_reverse] at reached

/-- The contexts after the reports of a call without a stop. -/
theorem processEpollEvents_refreshed {p after : Poller} {batch : List EpollEvent} {now : Word}
    (quiet : ¬ p.StopReported batch) (returned : p.processEpollEvents batch now = .ok after) :
    p.Refreshed now (delivered p.eventFd p.eventCount batch) after := by
  have reached := processEpollEvents_quiet (fun q seen => p.Refreshed now seen q)
    (fun seen report => report :: seen) quiet
    (fun _ _ _ _ _ _ held processed => held.processReport processed)
    (fun _ _ held => held) (fun _ _ _ held => held) [] (.start p now) returned
  rw [List.foldl_flip_cons_eq_append', List.append_nil] at reached
  exact reached.perm (List.reverse_perm _)

/-- **The conditions of the pending event of a socket after a poll** without a stop. -/
theorem poll_pendingAction {p after : Poller} (keyed : Keyed p) {batch : List EpollEvent}
    {waitClock eventClock schedulerClock : Word}
    (quiet : ¬ p.StopReported (p.getEpollEvents waitClock batch))
    (returned : p.poll batch waitClock eventClock schedulerClock = .ok after)
    {context : SocketContext} (found : p.activeSockets context.socket.fd = some context)
    (condition : Condition) :
    (after.pendingAction context.socket).has condition.flag = true ↔
      (p.standingAction (delivered p.eventFd p.eventCount (p.getEpollEvents waitClock batch))
        context.socket).has condition.flag = true ∨
      (condition = .close ∧ p.closesAfter eventClock
        (delivered p.eventFd p.eventCount (p.getEpollEvents waitClock batch)) schedulerClock
        context = true) := by
  obtain ⟨processed, succeeded, rfl⟩ := poll_eq_ok returned
  have refreshed := processEpollEvents_refreshed quiet succeeded context.socket.fd
  rw [found, Option.map_some] at refreshed
  have registered : p.sockets context.socket.fd = some context.socket :=
    sockets_eq_some.mpr ⟨context, found, rfl⟩
  have pending : processed.pendingAction context.socket =
      p.standingAction (delivered p.eventFd p.eventCount (p.getEpollEvents waitClock batch))
        context.socket := by
    rw [pendingAction, processEpollEvents_find keyed quiet succeeded registered, standingAction]
  rw [closesAfter, ← processEpollEvents_deadline succeeded]
  generalize current : context.reported eventClock (masksOn context.socket.fd
    (delivered p.eventFd p.eventCount (p.getEpollEvents waitClock batch))) = reported at refreshed ⊢
  have socket : reported.socket = context.socket := by rw [← current, context.reported_socket]
  rw [← socket] at refreshed
  have settled := processScheduler_pendingAction (keyed.processEpollEvents succeeded) refreshed
    schedulerClock condition
  rw [socket, pending] at settled
  rw [settled, Bool.and_eq_true, Option.any_eq_true, bne_iff_ne]
  simp only [decide_eq_true_eq]

/-! ## What is owed after a call -/

theorem note_eq_true {p after : Poller} {op : PollerOp} {owed : Owed} {socket : SocketPtr}
    {condition : Condition} :
    Owed.note p op after owed socket condition = true ↔
      after.sockets socket.fd = some socket ∧
        (owed socket condition = true ∨ ∃ report ∈ p.returnedReports op,
          report.data = socket.fd ∧ report.gives socket condition = true) ∧
        ¬ ((p.returnedEvent op).socket = some socket ∧
          (p.returnedEvent op).action.has condition.flag = true) := by
  simp only [Owed.note, Bool.and_eq_true, decide_eq_true_eq, Bool.or_eq_true, List.any_eq_true,
    Bool.not_eq_true', ← Bool.not_eq_true, and_assoc]

/-- What is pending is in the standing event. -/
theorem standingAction_of_pending {p : Poller} {socket : SocketPtr} {condition : Condition}
    (pending : (p.pendingAction socket).has condition.flag = true) (reports : List EpollEvent) :
    (p.standingAction reports socket).has condition.flag = true := by
  rw [pendingAction] at pending
  rw [standingAction, standingEvent]
  cases found : p.outEvents.find (some socket) with
  | none =>
      rw [found] at pending
      simp at pending
  | some event =>
      rw [found] at pending
      exact pending

/-- What holds in every state: only registered sockets are owed something, and it is pending. -/
structure Absorbed (p : Poller) (owed : Owed) : Prop extends Keyed p where
  registered : ∀ socket condition, owed socket condition = true →
    p.sockets socket.fd = some socket
  contains : p.Contains owed

namespace Absorbed

variable {p after : Poller} {owed : Owed}

theorem create (eventFd : FD) : (Poller.create eventFd).Absorbed fun _ _ => false where
  toKeyed := .create eventFd
  registered := nofun
  contains := nofun

/-- A poll without a stop. -/
theorem poll (absorbed : p.Absorbed owed) {batch : List EpollEvent}
    {waitClock eventClock schedulerClock : Word}
    (quiet : ¬ p.StopReported (p.getEpollEvents waitClock batch))
    (returned : p.poll batch waitClock eventClock schedulerClock = .ok after) :
    after.Contains (Owed.note p (.poll batch waitClock eventClock schedulerClock) after owed) ↔
      p.Absorbs (.poll batch waitClock eventClock schedulerClock) := by
  have kept : after.sockets = p.sockets := by
    obtain ⟨processed, succeeded, rfl⟩ := poll_eq_ok returned
    rw [sockets_processScheduler, sockets_processEpollEvents_quiet quiet succeeded]
  have stored : ∀ {fd : FD} {context : SocketContext}, p.activeSockets fd = some context →
      p.activeSockets context.socket.fd = some context := by
    intro fd context found
    rw [absorbed.keys fd context found]
    exact found
  constructor
  · intro contains
    refine .inr ?_
    intro report member context found condition gives
    rw [← poll_pendingAction absorbed.toKeyed quiet returned (stored found)]
    apply contains
    refine note_eq_true.mpr ⟨?_, .inr ⟨report, member, ?_, gives⟩, nofun⟩
    · rw [kept]
      exact sockets_eq_some.mpr ⟨context, stored found, rfl⟩
    · exact (absorbed.keys report.data context found).symm
  · intro absorbs socket condition owes
    obtain ⟨registered, reason, -⟩ := note_eq_true.mp owes
    rw [kept] at registered
    obtain ⟨context, found, rfl⟩ := sockets_eq_some.mp registered
    rw [poll_pendingAction absorbed.toKeyed quiet returned found]
    rcases reason with before | ⟨report, member, on, gives⟩
    · exact .inl (standingAction_of_pending (absorbed.contains _ _ before) _)
    · rcases absorbs with stop | absorbs
      · exact absurd stop quiet
      · exact absorbs report member context (on ▸ found) condition gives

/-- A call that does not poll. -/
theorem call (absorbed : p.Absorbed owed) {op : PollerOp} (returned : p.step op = .ok after)
    (notPoll : ∀ batch waitClock eventClock schedulerClock,
      op ≠ .poll batch waitClock eventClock schedulerClock) :
    after.Contains (Owed.note p op after owed) := by
  intro socket condition owes
  obtain ⟨registered, reason, kept⟩ := note_eq_true.mp owes
  have before : owed socket condition = true := by
    rcases reason with before | ⟨report, member, -⟩
    · exact before
    · cases op with
      | poll batch waitClock eventClock schedulerClock => exact absurd rfl (notPoll _ _ _ _)
      | _ => exact absurd member List.not_mem_nil
  have pending := absorbed.contains socket condition before
  cases step_outcome returned with
  | updateNull | removeNull | nextEmpty | signal => exact pending
  | update =>
      rw [pendingAction, (updateSocket_eq_ok returned).outEvents]
      exact pending
  | remove target =>
      have other : socket ≠ target := by
        rintro rfl
        rw [sockets_removeSocket, Function.update_self] at registered
        cases registered
      rw [pendingAction_removeSocket other]
      exact pending
  | poll => exact absurd rfl (notPoll _ _ _ _)
  | @next position =>
      rw [← Except.ok.inj returned]
      rcases p.pendingAction_getNextEvent position socket with same | ⟨taken, action⟩
      · rw [same]
        exact pending
      · rw [← action] at pending
        exact absurd ⟨taken, pending⟩ kept

/-- **Exactly the calls that absorb their reports keep everything owed.** -/
theorem step (absorbed : p.Absorbed owed) {op : PollerOp} (returned : p.step op = .ok after) :
    after.Contains (Owed.note p op after owed) ↔ p.Absorbs op := by
  cases op with
  | poll batch waitClock eventClock schedulerClock =>
      by_cases stops : p.ReadsStop (.poll batch waitClock eventClock schedulerClock)
      · refine iff_of_true ?_ (.inl stops)
        intro socket condition owes
        have registered := (note_eq_true.mp owes).1
        rw [sockets_of_stop stops returned] at registered
        cases registered
      · exact absorbed.poll stops returned
  | _ => exact iff_of_true (absorbed.call returned nofun) trivial

end Absorbed

end Poller

/-- **No readiness is lost between polls**, in every state of a run whose calls absorb their
reports: each condition reported for a registered socket and not returned since is in the action of
its pending event. A further call keeps that if and only if it absorbs its reports. -/
theorem no_readiness_is_lost {eventFd : FD} {ops : List PollerOp} {p : Poller} {owed : Owed}
    (run : Run (observed Poller.step Owed.note) (fun watched op => watched.1.Absorbs op)
      (Poller.create eventFd, fun _ _ => false) ops (p, owed)) :
    p.Contains owed ∧
      ∀ op after, p.step op = .ok after →
        (after.Contains (Owed.note p op after owed) ↔ p.Absorbs op) := by
  have absorbed : p.Absorbed owed := by
    apply run.invariant (fun watched => watched.1.Absorbed watched.2) (.create eventFd)
    intro before op after held absorbs stepped
    obtain ⟨returned, noted⟩ := observed_eq_ok.mp stepped
    rw [noted]
    exact ⟨held.toKeyed.step returned, fun _ _ owes => (Poller.note_eq_true.mp owes).1,
      (held.step returned).mpr absorbs⟩
  exact ⟨absorbed.contains, fun op after returned => absorbed.step returned⟩

/-- A socket is reported readable, and again while its event is pending, with a hangup; its write
timeout adds the close. -/
def absorbedOps : List PollerOp :=
  [.update (some ⟨0, 7, .client⟩) (epollIn ||| epollOut) 1000 0 0, .poll [⟨7, epollIn⟩] 1 600 600,
    .poll [⟨7, epollIn ||| epollHup⟩] 900 950 1100]

def absorbedReports : Poller × Owed :=
  (checkedRun (observed Poller.step Owed.note) (fun watched op => watched.1.Absorbs op)
    (Poller.create 3, fun _ _ => false) absorbedOps).get (by decide +kernel)

theorem no_readiness_is_lost_closed :
    (absorbedReports.1.pendingAction ⟨0, 7, .client⟩).has PollerEvent.close = true := by
  have run : Run (observed Poller.step Owed.note) (fun watched op => watched.1.Absorbs op)
      (Poller.create 3, fun _ _ => false) absorbedOps absorbedReports := Run.of_isSome _
  exact (no_readiness_is_lost run).1 ⟨0, 7, .client⟩ .close (by decide +kernel)

/-- A socket is reported readable, and writable while its event is pending. -/
def unmergedOps : List PollerOp :=
  [.update (some ⟨0, 7, .client⟩) (epollIn ||| epollOut) 1000 0 0, .poll [⟨7, epollIn⟩] 1 2 3,
    .poll [⟨7, epollOut⟩] 4 5 6]

def unmergedReport : Poller × Owed :=
  (checkedRun (observed Poller.step Owed.note) (fun watched op => watched.1.Plausible op)
    (Poller.create 3, fun _ _ => false) unmergedOps).get (by decide +kernel)

/-- That it is writable is in no event. -/
theorem unmerged_report_is_lost :
    ¬ ∀ (eventFd : FD) (ops : List PollerOp) (reached : Poller × Owed),
      Run (observed Poller.step Owed.note) (fun watched op => watched.1.Plausible op)
        (Poller.create eventFd, fun _ _ => false) ops reached →
      reached.1.Contains reached.2 := by
  intro claim
  have contains := claim 3 _ unmergedReport (Run.of_isSome _)
  exact absurd (contains ⟨0, 7, .client⟩ .write (by decide +kernel)) (by decide +kernel)

end Jasl
