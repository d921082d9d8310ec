import Jasl.Poller.Merging
import Jasl.Poller.Pending
import Jasl.Poller.WellFormedEvents

/-!
# Reports of a hangup

A report with a hangup or an error gives its socket an event that closes it, with
reasons that the comments of `CloseReason` name after the flags of the report:
`PEER_SHUTDOWN` for `EPOLLRDHUP`, `UNEXPECTED_SHUTDOWN` for `EPOLLHUP`. The code
tests the two flags the other way round (`peer_shutdown_is_unexpected`), so the
reasons are right exactly for sockets for which both are reported or none is
(`close_reasons_are_documented_iff`).

The timer of the socket is deleted in the same place. A few lines below every
report adds a timer for its socket, this one too, so the deletion is undone
(`closing_socket_has_a_timer`) by every report that closes
(`closing_socket_has_no_timer_iff`).

Of several reports on one descriptor the event of the first stands.
-/

set_option autoImplicit false

namespace Jasl

open Library

/-! ## First reports -/

/-- A report that is the first of some reports on its descriptor. -/
def EpollEvent.FirstOf (report : EpollEvent) (reports : List EpollEvent) : Prop :=
  reports.find? (fun other => other.data = report.data) = some report

instance (report : EpollEvent) (reports : List EpollEvent) : Decidable (report.FirstOf reports) :=
  inferInstanceAs (Decidable (_ = _))

namespace EpollEvent

variable {report : EpollEvent} {reports : List EpollEvent}

theorem FirstOf.mem (first : report.FirstOf reports) : report ∈ reports :=
  List.mem_of_find?_eq_some first

/-- What is found under a descriptor is the first report on it. -/
theorem firstOf_of_find {fd : FD}
    (found : reports.find? (fun other => other.data = fd) = some report) :
    report.FirstOf reports ∧ report.data = fd := by
  have same : report.data = fd := by simpa using List.find?_some found
  refine ⟨?_, same⟩
  rw [FirstOf, same]
  exact found

/-- Where there is a report there is a first one. -/
theorem exists_firstOf (member : report ∈ reports) :
    ∃ first : EpollEvent, first.FirstOf reports ∧ first.data = report.data := by
  cases found : reports.find? fun other => other.data = report.data with
  | none =>
      rw [List.find?_eq_none] at found
      exact absurd (decide_eq_true rfl) (found report member)
  | some first => exact ⟨first, firstOf_of_find found⟩

end EpollEvent

theorem masksOn_ne_nil {report : EpollEvent} {reports : List EpollEvent}
    (member : report ∈ reports) : masksOn report.data reports ≠ [] := by
  have own : report ∈ reports.filter fun other => other.data = report.data :=
    List.mem_filter.mpr ⟨member, decide_eq_true rfl⟩
  exact List.ne_nil_of_mem (List.mem_map_of_mem own)

theorem masksOn_eq_nil {fd : FD} {reports : List EpollEvent}
    (none : ∀ report ∈ reports, report.data ≠ fd) : masksOn fd reports = [] := by
  rw [masksOn, List.map_eq_nil_iff, List.filter_eq_nil_iff]
  intro report member
  rw [decide_eq_true_eq]
  exact none report member

namespace Poller

variable {p after : Poller} {batch : List EpollEvent} {now : Word}

/-- Nothing is pending. -/
def NothingPending (p : Poller) : Prop := ∀ event, event ∉ p.outEvents

instance (p : Poller) : Decidable p.NothingPending :=
  decidable_of_iff (p.outEvents.elements = []) List.eq_nil_iff_forall_not_mem

/-- A report that is processed is about a registered socket. -/
theorem registered_of_delivered (returned : p.processEpollEvents batch now = .ok after)
    {report : EpollEvent} (member : report ∈ delivered p.eventFd p.eventCount batch) :
    ∃ context, p.activeSockets report.data = some context := by
  have reached := (processEpollEvents_fold
    (fun q (seen : List EpollEvent) => (q.sockets = p.sockets ∨ q.sockets = fun _ => none) ∧
      ∀ entry ∈ seen, ∃ context, p.activeSockets entry.data = some context)
    (fun seen entry => entry :: seen) ?_ (fun _ _ _ held => held)
    (fun _ _ _ _ held => ⟨.inr rfl, held.2⟩) (fun _ _ _ held => held) [] ⟨.inl rfl, nofun⟩
    returned).2
  · apply reached
    rw [List.foldl_flip_cons_eq_append', List.append_nil]
    exact List.mem_reverse.mpr member
  · intro before seen entry next _ ⟨sockets, registered⟩ processed
    rw [sockets_processReport processed]
    refine ⟨sockets, ?_⟩
    intro other inSeen
    rcases List.mem_cons.mp inSeen with rfl | earlier
    · obtain ⟨context, effect⟩ := processReport_eq_ok processed
      have stored : before.sockets other.data = some context.socket :=
        sockets_eq_some.mpr ⟨context, effect.found, rfl⟩
      rcases sockets with same | none
      · rw [same] at stored
        obtain ⟨registered, found, -⟩ := sockets_eq_some.mp stored
        exact ⟨registered, found⟩
      · rw [none] at stored
        cases stored
    · exact registered other earlier

/-- When nothing was pending, the pending event of a registered socket is that of the first report
on its descriptor. -/
theorem processEpollEvents_find_first (keyed : Keyed p) (nothing : p.NothingPending)
    (quiet : ¬ p.StopReported batch) (returned : p.processEpollEvents batch now = .ok after)
    {socket : SocketPtr} (registered : p.sockets socket.fd = some socket) :
    after.outEvents.find (some socket) =
      ((delivered p.eventFd p.eventCount batch).find? fun report => report.data = socket.fd).map
        fun report => PollerEvent.ofReport socket report.events := by
  have none : p.outEvents.find (some socket) = none :=
    KeyedSet.find_eq_none.mpr fun event member => absurd member (nothing event)
  rw [processEpollEvents_find keyed quiet returned registered, standingEvent, none, Option.none_or]

end Poller

/-! ## Timers of sockets that close -/

namespace Poller

/-- No socket whose pending event closes it has a timer. -/
def ClosingUntimed (p : Poller) : Prop :=
  ∀ socket event, p.outEvents.find (some socket) = some event →
    event.action.has PollerEvent.close = true → p.scheduler.deadline socket.fd = none

end Poller

/-- A report with a hangup or an error. -/
def EpollEvent.closes (report : EpollEvent) : Bool :=
  report.events.has (epollHup ||| epollRdHup ||| epollErr)

theorem PollerEvent.ofReport_closes (socket : SocketPtr) (report : EpollEvent) :
    (ofReport socket report.events).action.has close = report.closes := by
  have read : PollerEvent.read.has close = false := by decide
  have write : PollerEvent.write.has close = false := by decide
  have own : close.has close = true := by decide
  simp only [ofReport, BitVec.has_or, BitVec.has_ite, read, write, own, EpollEvent.closes,
    Bool.and_false, Bool.and_true, Bool.false_or, Bool.decide_eq_true]

/-- **When a socket that closes has no timer**: with nothing pending before and no stop, exactly
when the first report on no descriptor has a hangup or an error. So a socket that
`process_epoll_events` closes always has one. -/
theorem closing_socket_has_no_timer_iff {p after : Poller} (keyed : Keyed p)
    (nothing : p.NothingPending) {batch : List EpollEvent} (quiet : ¬ p.StopReported batch)
    {now : Word} (returned : p.processEpollEvents batch now = .ok after) :
    after.ClosingUntimed ↔
      ∀ report : EpollEvent, report.FirstOf (Poller.delivered p.eventFd p.eventCount batch) →
        report.closes = false := by
  constructor
  · intro untimed report first
    obtain ⟨context, found⟩ := Poller.registered_of_delivered returned first.mem
    have key := keyed.keys _ _ found
    have pending : after.outEvents.find (some context.socket) =
        some (PollerEvent.ofReport context.socket report.events) := by
      rw [Poller.processEpollEvents_find_first keyed nothing quiet returned
        (Poller.sockets_eq_some.mpr ⟨context, key.symm ▸ found, rfl⟩), key, first, Option.map_some]
    -- The report has added a timer after it deleted the one that was there.
    have timer := Poller.processEpollEvents_deadline returned report.data
    rw [Poller.deadlineAfter, if_neg (masksOn_ne_nil first.mem), found, Option.map_some] at timer
    rw [← Bool.not_eq_true]
    intro closes
    rw [← PollerEvent.ofReport_closes context.socket] at closes
    have gone := untimed _ _ pending closes
    rw [key] at gone
    cases gone.symm.trans timer
  · intro open_ socket event pending closes
    have listed : p.Listed := ⟨keyed, fun event member => absurd member (nothing event)⟩
    obtain ⟨member, belongs⟩ := KeyedSet.find_eq_some.mp pending
    have registered := (listed.processEpollEvents returned).pending event member socket belongs
    rw [Poller.sockets_processEpollEvents_quiet quiet returned] at registered
    rw [Poller.processEpollEvents_find_first keyed nothing quiet returned registered,
      Option.map_eq_some_iff] at pending
    obtain ⟨report, found, rfl⟩ := pending
    rw [PollerEvent.ofReport_closes, open_ report (EpollEvent.firstOf_of_find found).1] at closes
    cases closes

/-- A socket is registered for reading within 1000. -/
def quietClient : Poller :=
  (checkedRun Poller.step Poller.Plausible (Poller.create 3)
    [.update (some ⟨0, 7, .client⟩) epollIn 1000 0 0]).get (by decide +kernel)

/-- Its peer hangs up, and it has an event that closes it and a timer. -/
theorem closing_socket_has_a_timer :
    ¬ ∀ (eventFd : FD) (ops : List PollerOp) (p : Poller) (batch : List EpollEvent) (now : Word)
      (after : Poller), Run Poller.step Poller.Plausible (Poller.create eventFd) ops p →
        p.NothingPending → ¬ p.StopReported batch →
          p.processEpollEvents batch now = .ok after → after.ClosingUntimed := by
  intro claim
  have untimed := claim 3 _ quietClient [⟨7, epollHup⟩] 5 _ (Run.of_isSome _) (by decide +kernel)
    (by decide +kernel) (eq_ok_of_isSome (by decide +kernel))
  have gone := untimed ⟨0, 7, .client⟩ ⟨some ⟨0, 7, .client⟩, PollerEvent.close,
    PollerEvent.peerShutdown⟩ (by decide +kernel) (by decide)
  exact absurd gone (by decide +kernel)

/-- A report that the socket is readable leaves no socket that closes. -/
theorem closing_socket_has_no_timer_iff_read :
    ((quietClient.processEpollEvents [⟨7, epollIn⟩] 5).toOption.get
      (by decide +kernel)).ClosingUntimed := by
  have keyed : Keyed quietClient :=
    (Run.of_isSome _).invariant Keyed (.create 3) fun _ _ _ held _ returned => held.step returned
  refine (closing_socket_has_no_timer_iff keyed (by decide +kernel) (by decide +kernel)
    (eq_ok_of_isSome _)).mpr ?_
  intro report first
  have member := List.mem_singleton.mp first.mem
  rw [member]
  decide

/-! ## The reasons of a close -/

/-- What the comments of `PollerEvent::CloseReason` tell apart. -/
inductive Shutdown where
  | peer
  | unexpected
  | error
deriving DecidableEq, Repr

namespace Shutdown

def reason : Shutdown → Word
  | peer => PollerEvent.peerShutdown
  | unexpected => PollerEvent.unexpectedShutdown
  | error => PollerEvent.socketError

/-- The flag of a report in the comment beside the reason. -/
def documented : Shutdown → BitVec 32
  | peer => epollRdHup
  | unexpected => epollHup
  | error => epollErr

/-- The flag of a report that `process_epoll_events` tests for the reason. -/
def tested : Shutdown → BitVec 32
  | peer => epollHup
  | unexpected => epollRdHup
  | error => epollErr

theorem forall_iff {holds : Shutdown → Prop} :
    (∀ shutdown, holds shutdown) ↔ holds peer ∧ holds unexpected ∧ holds error :=
  ⟨fun all => ⟨all _, all _, all _⟩, fun all shutdown => by
    cases shutdown <;> simp only [all]⟩

instance {holds : Shutdown → Prop} [DecidablePred holds] :
    Decidable (∀ shutdown, holds shutdown) := decidable_of_iff' _ forall_iff

/-- Timeouts give none of these reasons. -/
theorem not_has_of_timeout {reason : Word} (timeout : reason &&& ~~~PollerEvent.timeoutReasons = 0)
    (shutdown : Shutdown) : reason.has shutdown.reason = false := by
  rw [← Bool.not_eq_true]
  intro has
  have within := BitVec.has_of_subset timeout has
  revert within
  cases shutdown <;> decide

end Shutdown

theorem PollerEvent.ofReport_reason (socket : SocketPtr) (mask : BitVec 32) (shutdown : Shutdown) :
    (ofReport socket mask).closeReason.has shutdown.reason = mask.has shutdown.tested := by
  simp only [ofReport]
  cases shutdown <;> cases hup : mask.has epollHup <;> cases rdHup : mask.has epollRdHup <;>
    cases err : mask.has epollErr <;> simp only [Shutdown.tested, hup, rdHup, err] <;> decide

namespace Poller

/-- What a pass of `process_scheduler` may do to a pending event: nothing, or add a close for
timeouts to one that does not close. -/
theorem processScheduler_pending {p : Poller} {key : Option SocketPtr} {event : PollerEvent}
    (pending : p.outEvents.find key = some event) (now : Word) :
    (p.processScheduler now).outEvents.find key = some event ∨
      (event.action.has PollerEvent.close = false ∧
        ∃ reason, reason &&& ~~~PollerEvent.timeoutReasons = 0 ∧
          (p.processScheduler now).outEvents.find key = some
            { event with
              action := event.action ||| PollerEvent.close
              closeReason := reason }) := by
  refine processScheduler_invariant (fun q => q.outEvents.find key = some event ∨
    (event.action.has PollerEvent.close = false ∧
      ∃ reason, reason &&& ~~~PollerEvent.timeoutReasons = 0 ∧
        q.outEvents.find key = some { event with
          action := event.action ||| PollerEvent.close
          closeReason := reason })) ?_ (.inl pending)
  intro before payload after held turn
  obtain ⟨_, scheduler, -, -, -, outcome⟩ := schedulerTurn_eq_some turn
  cases outcome with
  | closes _ _ _ =>
      rw [KeyedSet.find_insert]
      rcases held with same | ⟨open_, reason, timeout, joined⟩
      · exact .inl (by rw [same, Option.some_or])
      · exact .inr ⟨open_, reason, timeout, by rw [joined, Option.some_or]⟩
  | @joins context standing found expired taken open_ left =>
      have owner := (KeyedSet.find_eq_some.mp taken).2
      by_cases own : key = some context.socket
      · subst own
        rcases held with same | ⟨-, reason, -, joined⟩
        · obtain rfl := Option.some.inj (same.symm.trans taken)
          refine .inr ⟨open_, _, (PollerEvent.WellFormed.unmasked event.action context now).1, ?_⟩
          rw [KeyedSet.find_insert, KeyedSet.find_erase, owner, if_pos rfl, if_pos rfl,
            Option.none_or]
        · -- An event that a timeout has joined closes, and is not joined again.
          obtain rfl := Option.some.inj (joined.symm.trans taken)
          simp [show PollerEvent.close.has PollerEvent.close = true by decide] at open_
      · have different : key ≠ standing.socket := owner.symm ▸ own
        rw [KeyedSet.find_insert, if_neg different.symm, Option.or_none, KeyedSet.find_erase,
          if_neg different]
        exact held
  | _ => exact held

/-- A pass over a poller that has forgotten its sockets changes no event. -/
theorem processScheduler_outEvents_of_empty {p : Poller} (empty : p.activeSockets = fun _ => none)
    (now : Word) : (p.processScheduler now).outEvents = p.outEvents := by
  refine (processScheduler_invariant
    (fun q => q.activeSockets = (fun _ => none) ∧ q.outEvents = p.outEvents) ?_ ⟨empty, rfl⟩).2
  intro before payload after ⟨cleared, events⟩ turn
  refine ⟨(schedulerTurn_activeSockets turn).trans cleared, ?_⟩
  obtain ⟨_, scheduler, -, -, -, outcome⟩ := schedulerTurn_eq_some turn
  cases outcome with
  | closes found | joins found =>
      change before.activeSockets payload = some _ at found
      rw [cleared] at found
      cases found
  | _ => exact events

/-- The reasons of a close after a poll, for the reports that were processed: the event of a
reported socket has those that the comments name after its reports, there is one unless a stop was
processed, and `process_scheduler` leaves what `process_epoll_events` left with such a reason. -/
structure ReasonsDocumented (p : Poller) (batch : List EpollEvent) (waitClock eventClock : Word)
    (after : Poller) : Prop where
  documented : ∀ report ∈ delivered p.eventFd p.eventCount (p.getEpollEvents waitClock batch),
    ∀ context, p.activeSockets report.data = some context →
      ∀ event, after.outEvents.find (some context.socket) = some event →
        ∀ shutdown : Shutdown, event.closeReason.has shutdown.reason =
          (delivered p.eventFd p.eventCount (p.getEpollEvents waitClock batch)).any fun other =>
            decide (other.data = report.data) && other.events.has shutdown.documented
  pending : ¬ p.StopReported (p.getEpollEvents waitClock batch) →
    ∀ report ∈ delivered p.eventFd p.eventCount (p.getEpollEvents waitClock batch),
      ∀ context, p.activeSockets report.data = some context →
        (after.outEvents.find (some context.socket)).isSome
  kept : ∀ key event, ∀ shutdown : Shutdown,
    (p.afterReports batch waitClock eventClock).outEvents.find key = some event →
      event.closeReason.has shutdown.reason = true → after.outEvents.find key = some event

/-- The first report on each descriptor has the flag that is tested for a reason exactly when some
report on it has the flag that the comment names. -/
def TestsDocumented (reports : List EpollEvent) : Prop :=
  ∀ report ∈ reports, report.FirstOf reports → ∀ shutdown : Shutdown,
    report.events.has shutdown.tested = reports.any fun other =>
      decide (other.data = report.data) && other.events.has shutdown.documented

instance (reports : List EpollEvent) : Decidable (TestsDocumented reports) :=
  inferInstanceAs (Decidable (∀ _ ∈ _, _ → _))

/-- A report whose event does not close has none of the flags tested for a reason. -/
theorem tested_eq_false {report : EpollEvent} (open_ : report.closes = false)
    (shutdown : Shutdown) : report.events.has shutdown.tested = false := by
  rw [EpollEvent.closes, BitVec.has_flag_or, BitVec.has_flag_or, Bool.or_eq_false_iff,
    Bool.or_eq_false_iff] at open_
  obtain ⟨⟨hup, rdHup⟩, err⟩ := open_
  cases shutdown with
  | peer => exact hup
  | unexpected => exact rdHup
  | error => exact err

/-- The reasons in the event of a reported socket after both halves of a poll: those whose tested
flag the first report on it has. -/
theorem reasons_after_poll {p processed : Poller} (keyed : Keyed p) (nothing : p.NothingPending)
    {batch : List EpollEvent} (quiet : ¬ p.StopReported batch) {eventClock : Word}
    (succeeded : p.processEpollEvents batch eventClock = .ok processed) {report : EpollEvent}
    (first : report.FirstOf (delivered p.eventFd p.eventCount batch)) {context : SocketContext}
    (found : p.activeSockets report.data = some context) (schedulerClock : Word) :
    ∃ event, (processed.processScheduler schedulerClock).outEvents.find (some context.socket) =
        some event ∧
      ∀ shutdown : Shutdown,
        event.closeReason.has shutdown.reason = report.events.has shutdown.tested := by
  have key := keyed.keys _ _ found
  have pending : processed.outEvents.find (some context.socket) =
      some (PollerEvent.ofReport context.socket report.events) := by
    rw [processEpollEvents_find_first keyed nothing quiet succeeded
      (sockets_eq_some.mpr ⟨context, key.symm ▸ found, rfl⟩), key, first, Option.map_some]
  rcases processScheduler_pending pending schedulerClock with
    same | ⟨open_, reason, timeout, joined⟩
  · exact ⟨_, same, PollerEvent.ofReport_reason _ _⟩
  · refine ⟨_, joined, fun shutdown => ?_⟩
    rw [PollerEvent.ofReport_closes] at open_
    rw [tested_eq_false open_]
    exact Shutdown.not_has_of_timeout timeout shutdown

end Poller

/-- **When the reasons of a close are the documented ones**: in every reachable state with nothing
pending, for every batch and every clock, exactly when the poll processes a stop or the flags tested
for the reported sockets agree with those documented. With one report on a descriptor that is
EPOLLHUP and EPOLLRDHUP together or neither. -/
theorem close_reasons_are_documented_iff {eventFd : FD} {ops : List PollerOp} {p : Poller}
    (run : Run Poller.step (fun _ _ => True) (Poller.create eventFd) ops p)
    (nothing : p.NothingPending) {batch : List EpollEvent}
    {waitClock eventClock schedulerClock : Word} {after : Poller}
    (returned : p.poll batch waitClock eventClock schedulerClock = .ok after) :
    p.ReasonsDocumented batch waitClock eventClock after ↔
      p.StopReported (p.getEpollEvents waitClock batch) ∨ Poller.TestsDocumented
        (Poller.delivered p.eventFd p.eventCount (p.getEpollEvents waitClock batch)) := by
  have keyed : Keyed p := run.invariant Keyed (.create eventFd) fun _ _ _ held _ => held.step
  obtain ⟨processed, succeeded, rfl⟩ := Poller.poll_eq_ok returned
  have left := Poller.afterReports_of_ok succeeded
  by_cases stop : p.StopReported (p.getEpollEvents waitClock batch)
  · obtain ⟨sockets, events⟩ := Poller.processEpollEvents_stop stop succeeded
    have forgotten := Poller.processScheduler_outEvents_of_empty sockets schedulerClock
    rw [events] at forgotten
    refine iff_of_true ⟨?_, fun quiet => absurd stop quiet, ?_⟩ (.inl stop)
    · intro _ _ _ _ event pending
      rw [forgotten] at pending
      cases pending
    · intro key event shutdown pending
      rw [left, events] at pending
      cases pending
  · constructor
    · intro documented
      refine .inr fun report member first shutdown => ?_
      obtain ⟨context, found⟩ := Poller.registered_of_delivered succeeded member
      obtain ⟨event, pending, reasons⟩ :=
        Poller.reasons_after_poll keyed nothing stop succeeded first found schedulerClock
      rw [← reasons, documented.documented report member context found event pending]
    · rintro (reads | tests)
      · exact absurd reads stop
      · refine ⟨?_, ?_, ?_⟩
        · intro report member context found event pending shutdown
          obtain ⟨first, isFirst, same⟩ := EpollEvent.exists_firstOf member
          obtain ⟨other, pending', reasons⟩ := Poller.reasons_after_poll keyed nothing stop
            succeeded isFirst (same.symm ▸ found) schedulerClock
          obtain rfl := Option.some.inj (pending.symm.trans pending')
          rw [reasons, tests first isFirst.mem isFirst, same]
        · intro _ report member context found
          obtain ⟨first, isFirst, same⟩ := EpollEvent.exists_firstOf member
          obtain ⟨event, pending, -⟩ := Poller.reasons_after_poll keyed nothing stop
            succeeded isFirst (same.symm ▸ found) schedulerClock
          rw [pending]
          rfl
        · intro key event shutdown pending has
          rw [left] at pending
          -- An event with a reason closes, and such an event is left alone.
          have wellFormed : p.EventsWellFormed := fun other member => absurd member (nothing other)
          have own := wellFormed.processEpollEvents succeeded event
            (KeyedSet.find_eq_some.mp pending).1
          have closes : event.action.has PollerEvent.close = true := by
            refine own.closes.mpr fun zero => ?_
            rw [zero] at has
            cases has.symm.trans (BitVec.zero_has shutdown.reason)
          rcases Poller.processScheduler_pending pending schedulerClock with same | ⟨open_, -⟩
          · exact same
          · cases closes.symm.trans open_

/-- The peer of a registered socket has shut down its side. -/
theorem peer_shutdown_is_unexpected :
    ¬ ∀ (eventFd : FD) (ops : List PollerOp) (p : Poller) (batch : List EpollEvent)
      (waitClock eventClock schedulerClock : Word) (after : Poller),
        Run Poller.step Poller.Plausible (Poller.create eventFd) ops p → p.NothingPending →
          p.poll batch waitClock eventClock schedulerClock = .ok after →
            p.ReasonsDocumented batch waitClock eventClock after := by
  intro claim
  have documented := (claim 3 _ quietClient [⟨7, epollRdHup⟩] 1 2 3 _ (Run.of_isSome _)
    (by decide +kernel) (eq_ok_of_isSome (by decide +kernel))).documented ⟨7, epollRdHup⟩
      (by decide +kernel) ⟨⟨0, 7, .client⟩, ⟨1000, 1000⟩, {}⟩ (by decide +kernel)
      ⟨some ⟨0, 7, .client⟩, PollerEvent.close, PollerEvent.unexpectedShutdown⟩ (by decide +kernel)
      .peer
  exact absurd documented (by decide +kernel)

/-- The socket hangs up in both directions, and its timer is due in the same poll. -/
theorem close_reasons_are_documented_iff_both :
    quietClient.ReasonsDocumented [⟨7, epollHup ||| epollRdHup⟩] 1 2
      ((quietClient.poll [⟨7, epollHup ||| epollRdHup⟩] 1 2 1000).toOption.get
        (by decide +kernel)) :=
  (close_reasons_are_documented_iff ((Run.of_isSome _).mono fun _ _ _ => trivial)
    (by decide +kernel) (eq_ok_of_isSome _)).mpr (.inr (by decide +kernel))

end Jasl
