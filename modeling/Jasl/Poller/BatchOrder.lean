import Jasl.Poller.Hangups

/-!
# A batch in any order

`process_epoll_events` goes through the reports of a batch one after another, and
each changes the context, the timer and the event of its socket. When the reports
are on different descriptors these changes do not meet, so the batch is translated
report by report (`Poller.Translated`), and every permutation of it leaves the same
events, contexts and timers (`batch_is_translated_in_any_order`). A signal that is
not a stop may stand anywhere between the reports.

A report that names none of the five flags would give an event without an action,
and an assertion stops the process (`empty_report_aborts`).
-/

set_option autoImplicit false

namespace Jasl

open Library

open PollerEvent (Condition)

/-! ## One report -/

/-- The flags of a report that mean a condition. -/
def PollerEvent.Condition.reported : Condition → BitVec 32
  | .read => epollIn
  | .write => epollOut
  | .close => epollHup ||| epollRdHup ||| epollErr

/-- **The flags of an event are those of its report.** -/
theorem PollerEvent.ofReport_has (socket : SocketPtr) (mask : BitVec 32) (condition : Condition) :
    (ofReport socket mask).action.has condition.flag = mask.has condition.reported := by
  simp only [ofReport, BitVec.has_or, BitVec.has_ite, Bool.decide_eq_true]
  cases condition with
  | read =>
      simp [Condition.flag, Condition.reported, show read.has read = true by decide,
        show write.has read = false by decide, show close.has read = false by decide]
  | write =>
      simp [Condition.flag, Condition.reported, show read.has write = false by decide,
        show write.has write = true by decide, show close.has write = false by decide]
  | close =>
      simp [Condition.flag, Condition.reported, show read.has close = false by decide,
        show write.has close = false by decide, show close.has close = true by decide]

/-- The report names a condition. -/
def EpollEvent.Acts (report : EpollEvent) : Prop :=
  ∃ condition : Condition, report.events.has condition.reported = true

instance (report : EpollEvent) : Decidable report.Acts :=
  decidable_of_iff (¬ ∀ condition : Condition, report.events.has condition.reported = false) (by
    simp only [EpollEvent.Acts, not_forall, Bool.not_eq_false])

theorem EpollEvent.Acts.action {report : EpollEvent} (acts : report.Acts) (socket : SocketPtr) :
    (PollerEvent.ofReport socket report.events).action ≠ 0 := by
  obtain ⟨condition, reported⟩ := acts
  intro zero
  have flag := PollerEvent.ofReport_has socket report.events condition
  rw [reported, zero] at flag
  cases flag.symm.trans (BitVec.zero_has condition.flag)

/-- A context that a report can refresh: it has a deadline in some direction, and the new deadlines
of the reported directions fit. -/
structure SocketContext.Refreshable (context : SocketContext) (mask : BitVec 32) (now : Word) :
    Prop where
  armed : ∃ direction, (context.timeout direction).time ≠ invalidTime
  fits : ∀ direction : Direction, mask.has direction.epoll = true →
    now.toNat + (context.timeout direction).step.toNat < 2 ^ 64 - 1

namespace SocketContext.Refreshable

/-- Both directions are looked at. -/
instance (context : SocketContext) (mask : BitVec 32) (now : Word) :
    Decidable (context.Refreshable mask now) :=
  decidable_of_iff
    ((context.readTimeout.time ≠ invalidTime ∨ context.writeTimeout.time ≠ invalidTime) ∧
      ∀ direction ∈ [Direction.read, .write], mask.has direction.epoll = true →
        now.toNat + (context.timeout direction).step.toNat < 2 ^ 64 - 1) <| by
    constructor
    · rintro ⟨armed, fits⟩
      refine ⟨?_, ?_⟩
      · rcases armed with read | write
        · exact ⟨.read, read⟩
        · exact ⟨.write, write⟩
      · intro direction
        cases direction with
        | read => exact fits .read (by decide)
        | write => exact fits .write (by decide)
    · rintro ⟨⟨direction, armed⟩, fits⟩
      refine ⟨?_, fun direction _ => fits direction⟩
      cases direction with
      | read => exact .inl armed
      | write => exact .inr armed

variable {context : SocketContext} {mask : BitVec 32} {now : Word}

theorem toNat_time (refreshable : context.Refreshable mask now) {direction : Direction}
    (reported : mask.has direction.epoll = true) :
    ((context.refresh mask now).timeout direction).time.toNat =
      now.toNat + (context.timeout direction).step.toNat := by
  have fits := refreshable.fits direction reported
  rw [timeout_refresh, if_pos reported]
  exact BitVec.toNat_add_of_fits (by omega)

/-- Some direction has a deadline afterwards. -/
theorem armed_refresh (refreshable : context.Refreshable mask now) :
    ∃ direction, ((context.refresh mask now).timeout direction).time ≠ invalidTime := by
  obtain ⟨direction, armed⟩ := refreshable.armed
  refine ⟨direction, ?_⟩
  by_cases reported : mask.has direction.epoll = true
  · intro invalid
    have fits := refreshable.fits direction reported
    have sum := refreshable.toNat_time reported
    rw [invalid, invalidTime, BitVec.toNat_allOnes] at sum
    omega
  · rw [timeout_refresh, if_neg reported]
    exact armed

end SocketContext.Refreshable

/-! ## Reports on different descriptors -/

/-- The reports are on different descriptors. -/
def Apart (reports : List EpollEvent) : Prop := (reports.map EpollEvent.data).Nodup

namespace Apart

variable {reports : List EpollEvent} {report : EpollEvent}

theorem tail {first : EpollEvent} (apart : Apart (first :: reports)) : Apart reports :=
  (List.nodup_cons.mp apart).2

/-- No later report is on the descriptor of the first. -/
theorem data_ne {first : EpollEvent} (apart : Apart (first :: reports))
    (member : report ∈ reports) : report.data ≠ first.data := by
  intro same
  apply (List.nodup_cons.mp apart).1
  rw [← same]
  exact List.mem_map_of_mem member

/-- Each report is the first on its descriptor. -/
theorem firstOf (apart : Apart reports) (member : report ∈ reports) : report.FirstOf reports := by
  obtain ⟨first, isFirst, same⟩ := EpollEvent.exists_firstOf member
  obtain rfl := List.inj_on_of_nodup_map apart isFirst.mem member same
  exact isFirst

/-- Each report is the only one on its descriptor. -/
theorem masksOn (apart : Apart reports) (member : report ∈ reports) :
    masksOn report.data reports = [report.events] := by
  induction reports with
  | nil => cases member
  | cons first rest ih =>
      rw [Poller.masksOn_cons]
      rcases List.mem_cons.mp member with rfl | inRest
      · rw [if_pos rfl, masksOn_eq_nil fun _ => apart.data_ne]
      · rw [if_neg (apart.data_ne inRest).symm, ih apart.tail inRest]

theorem filter (apart : Apart reports) (keeps : EpollEvent → Bool) :
    Apart (reports.filter keeps) :=
  List.Nodup.sublist (List.filter_sublist.map _) apart

end Apart

namespace Poller

variable {p after : Poller} {now : Word} {batch : List EpollEvent}

/-- The reports on sockets: all but those on the event descriptor. -/
def socketReports (p : Poller) (batch : List EpollEvent) : List EpollEvent :=
  batch.filter fun report => report.data ≠ p.eventFd

theorem mem_socketReports {report : EpollEvent} :
    report ∈ p.socketReports batch ↔ report ∈ batch ∧ report.data ≠ p.eventFd := by
  rw [socketReports, List.mem_filter, decide_eq_true_eq]

/-- All socket reports are delivered when the signal among them does not leave the loop. -/
theorem delivered_of_apart {eventFd : FD} {batch : List EpollEvent} :
    ∀ {eventCount : ℕ}, Apart batch →
      ((∃ entry ∈ batch, entry.data = eventFd) → 0 < eventCount ∧ eventCount < stopValue) →
        delivered eventFd eventCount batch =
          batch.filter fun report => report.data ≠ eventFd := by
  induction batch with
  | nil => exact fun _ _ => rfl
  | cons entry rest ih =>
      intro eventCount apart signal
      rw [delivered]
      by_cases signalled : entry.data = eventFd
      · obtain ⟨there, noStop⟩ := signal ⟨entry, List.mem_cons_self, signalled⟩
        have stays : ¬ (eventCount = 0 ∨ stopValue ≤ eventCount) := by omega
        rw [if_pos signalled, if_neg stays, List.filter_cons_of_neg (by simpa using signalled)]
        apply ih apart.tail
        -- There is no second entry on the event descriptor.
        rintro ⟨other, inRest, same⟩
        exact absurd (same.trans signalled.symm) (apart.data_ne inRest)
      · rw [if_neg signalled, List.filter_cons_of_pos (by simpa using signalled)]
        congr 1
        apply ih apart.tail
        rintro ⟨other, inRest, same⟩
        exact signal ⟨other, List.mem_cons_of_mem _ inRest, same⟩

/-- A batch that can be translated in this state: the reports are on different descriptors, each of
a socket that can be refreshed, and a signal is there to be read that is not a stop. -/
structure Translatable (p : Poller) (now : Word) (batch : List EpollEvent) : Prop where
  apart : Apart batch
  active : ∀ report ∈ p.socketReports batch,
    ∃ context ∈ p.activeSockets report.data, context.Refreshable report.events now
  signal : (∃ entry ∈ batch, entry.data = p.eventFd) →
    0 < p.eventCount ∧ p.eventCount < stopValue

/-! ## The batch is processed to its end -/

namespace Translatable

instance (p : Poller) (now : Word) (batch : List EpollEvent) :
    Decidable (p.Translatable now batch) :=
  decidable_of_iff
    ((batch.map EpollEvent.data).Nodup ∧
      (∀ report ∈ p.socketReports batch,
        ∃ context ∈ p.activeSockets report.data, context.Refreshable report.events now) ∧
      ((∃ entry ∈ batch, entry.data = p.eventFd) → 0 < p.eventCount ∧ p.eventCount < stopValue))
    ⟨fun holds => ⟨holds.1, holds.2.1, holds.2.2⟩, fun holds =>
      ⟨holds.apart, holds.active, holds.signal⟩⟩

theorem quiet (translatable : p.Translatable now batch) : ¬ p.StopReported batch := by
  rintro ⟨stops, signalled⟩
  exact absurd stops (not_le.mpr (translatable.signal signalled).2)

theorem perm (translatable : p.Translatable now batch) {other : List EpollEvent}
    (perm : other.Perm batch) : p.Translatable now other where
  apart := (perm.map EpollEvent.data).nodup_iff.mpr translatable.apart
  active report member := translatable.active report ((perm.filter _).mem_iff.mp member)
  signal signalled := translatable.signal (by simpa only [perm.mem_iff] using signalled)

/-- A socket report changes nothing that the rest of the batch needs. -/
theorem report {report : EpollEvent} {rest : List EpollEvent}
    (translatable : p.Translatable now (report :: rest)) (other : report.data ≠ p.eventFd)
    (acts : report.Acts) :
    ∃ next, p.processReport report now = .ok next ∧ next.eventFd = p.eventFd ∧
      next.Translatable now rest := by
  obtain ⟨context, found, refreshable⟩ :=
    translatable.active report (mem_socketReports.mpr ⟨List.mem_cons_self, other⟩)
  rcases processReport_outcome now found with ⟨zero, -⟩ | ⟨-, none, -⟩ | ⟨-, -, next, processed⟩
  · exact absurd zero (acts.action _)
  · obtain ⟨direction, armed⟩ := refreshable.armed_refresh
    exact absurd (none direction) armed
  · obtain ⟨_, effect⟩ := processReport_eq_ok processed
    refine ⟨next, processed, effect.eventFd, translatable.apart.tail, ?_, ?_⟩
    · intro entry member
      obtain ⟨inRest, socketEntry⟩ := mem_socketReports.mp member
      rw [effect.activeSockets, Function.update_of_ne (translatable.apart.data_ne inRest)]
      rw [effect.eventFd] at socketEntry
      exact translatable.active entry
        (mem_socketReports.mpr ⟨List.mem_cons_of_mem _ inRest, socketEntry⟩)
    · rintro ⟨entry, inRest, signalled⟩
      rw [effect.eventFd] at signalled
      rw [effect.eventCount]
      exact translatable.signal ⟨entry, List.mem_cons_of_mem _ inRest, signalled⟩

/-- Nor does the signal that is read. -/
theorem read {entry : EpollEvent} {rest : List EpollEvent}
    (translatable : p.Translatable now (entry :: rest)) (signalled : entry.data = p.eventFd) :
    Translatable { p with eventCount := 0 } now rest := by
  refine ⟨translatable.apart.tail, ?_, ?_⟩
  · intro report member
    obtain ⟨inRest, other⟩ := mem_socketReports.mp member
    exact translatable.active report
      (mem_socketReports.mpr ⟨List.mem_cons_of_mem _ inRest, other⟩)
  · rintro ⟨other, inRest, same⟩
    exact absurd (same.trans signalled.symm) (translatable.apart.data_ne inRest)

/-- The loop reaches the end of the batch. -/
theorem processReports_ok (now : Word) {batch : List EpollEvent} :
    ∀ {p : Poller}, p.Translatable now batch → (∀ report ∈ p.socketReports batch, report.Acts) →
      ∃ after, p.processReports now batch = .ok (after, true) := by
  induction batch with
  | nil => exact fun {p} _ _ => ⟨p, rfl⟩
  | cons entry rest ih =>
      intro p translatable acts
      rw [processReports]
      have actsLater : ∀ report ∈ p.socketReports rest, report.Acts := by
        intro report member
        obtain ⟨inRest, other⟩ := mem_socketReports.mp member
        exact acts report (mem_socketReports.mpr ⟨List.mem_cons_of_mem _ inRest, other⟩)
      by_cases signalled : entry.data = p.eventFd
      · obtain ⟨there, noStop⟩ := translatable.signal ⟨entry, List.mem_cons_self, signalled⟩
        simp only [if_pos signalled, processSignal, if_neg (not_le.mpr noStop),
          ne_eq, if_pos there.ne']
        exact ih (translatable.read signalled) actsLater
      · obtain ⟨next, processed, eventFd, left⟩ := translatable.report signalled
          (acts entry (mem_socketReports.mpr ⟨List.mem_cons_self, signalled⟩))
        simp only [if_neg signalled, processed]
        refine ih left fun report member => actsLater report ?_
        rw [mem_socketReports, ← eventFd, ← mem_socketReports]
        exact member

theorem processEpollEvents_ok (translatable : p.Translatable now batch)
    (acts : ∀ report ∈ p.socketReports batch, report.Acts) :
    ∃ after, p.processEpollEvents batch now = .ok after := by
  obtain ⟨left, succeeded⟩ := processReports_ok now translatable acts
  rw [processEpollEvents, succeeded]
  exact ⟨_, rfl⟩

theorem apartReports (translatable : p.Translatable now batch) : Apart (p.socketReports batch) :=
  translatable.apart.filter _

theorem delivered_eq (translatable : p.Translatable now batch) :
    delivered p.eventFd p.eventCount batch = p.socketReports batch :=
  delivered_of_apart translatable.apart translatable.signal

end Translatable

/-! ## What it leaves -/

/-- What a batch leaves: for each reported socket one event, with the conditions of its report, and
no other event; new deadlines for the directions in the report; and everything else as it was. -/
structure Translated (p : Poller) (now : Word) (batch : List EpollEvent) (after : Poller) :
    Prop where
  event : ∀ report ∈ p.socketReports batch, ∀ context ∈ p.activeSockets report.data,
    ∃ event ∈ after.outEvents, event.socket = some context.socket ∧
      (∀ other ∈ after.outEvents, other.socket = some context.socket → other = event) ∧
      ∀ condition : Condition,
        event.action.has condition.flag = report.events.has condition.reported
  reported : ∀ event ∈ after.outEvents, ∃ report ∈ p.socketReports batch,
    ∃ context ∈ p.activeSockets report.data, event.socket = some context.socket
  deadline : ∀ report ∈ p.socketReports batch, ∀ context ∈ p.activeSockets report.data,
    ∃ refreshed, after.activeSockets report.data = some refreshed ∧
      refreshed.socket = context.socket ∧
      after.scheduler.deadline report.data = some refreshed.nearest ∧
      ∀ direction : Direction,
        (refreshed.timeout direction).step = (context.timeout direction).step ∧
        if report.events.has direction.epoll then
          (refreshed.timeout direction).time.toNat =
            now.toNat + (context.timeout direction).step.toNat
        else (refreshed.timeout direction).time = (context.timeout direction).time
  unreported : ∀ fd, (∀ report ∈ p.socketReports batch, report.data ≠ fd) →
    after.activeSockets fd = p.activeSockets fd ∧
      after.scheduler.deadline fd = p.scheduler.deadline fd

/-- Two pollers with the same events, contexts and timers. -/
structure SameOutcome (first second : Poller) : Prop where
  events : ∀ event, event ∈ first.outEvents ↔ event ∈ second.outEvents
  contexts : first.activeSockets = second.activeSockets
  timers : first.scheduler.deadline = second.scheduler.deadline

/-- The batch is processed to its end and translated, and every permutation of it has the same
outcome. -/
def TranslatesInAnyOrder (p : Poller) (now : Word) (batch : List EpollEvent) : Prop :=
  ∃ after, p.processEpollEvents batch now = .ok after ∧ p.Translated now batch after ∧
    ∀ other : List EpollEvent, other.Perm batch →
      ∃ permuted, p.processEpollEvents other now = .ok permuted ∧ permuted.SameOutcome after

namespace Translatable

/-- The events after the batch are those of its reports. -/
theorem mem_outEvents (translatable : p.Translatable now batch) (keyed : Keyed p)
    (nothing : p.NothingPending) (returned : p.processEpollEvents batch now = .ok after)
    (event : PollerEvent) :
    event ∈ after.outEvents ↔ ∃ report ∈ p.socketReports batch,
      ∃ context ∈ p.activeSockets report.data,
        event = PollerEvent.ofReport context.socket report.events := by
  have found := fun {socket : SocketPtr} (registered : p.sockets socket.fd = some socket) =>
    processEpollEvents_find_first keyed nothing translatable.quiet returned registered
  rw [translatable.delivered_eq] at found
  constructor
  · intro member
    have actionable : p.Actionable := fun event member => absurd member (nothing event)
    have listed : p.Listed := ⟨keyed, fun event member => absurd member (nothing event)⟩
    obtain ⟨socket, belongs⟩ :=
      Option.isSome_iff_exists.mp (actionable.processEpollEvents returned event member).2
    have registered := (listed.processEpollEvents returned).pending event member socket belongs
    rw [sockets_processEpollEvents_quiet translatable.quiet returned] at registered
    have pending := (found registered).symm.trans (KeyedSet.find_eq_some.mpr ⟨member, belongs⟩)
    obtain ⟨report, first, rfl⟩ := Option.map_eq_some_iff.mp pending
    obtain ⟨isFirst, same⟩ := EpollEvent.firstOf_of_find first
    obtain ⟨context, stored, rfl⟩ := sockets_eq_some.mp registered
    exact ⟨report, isFirst.mem, context, same ▸ stored, rfl⟩
  · rintro ⟨report, member, context, stored, rfl⟩
    have key := keyed.keys _ _ stored
    have pending := found (sockets_eq_some.mpr ⟨context, key.symm ▸ stored, rfl⟩)
    rw [key, translatable.apartReports.firstOf member, Option.map_some] at pending
    exact (KeyedSet.find_eq_some.mp pending).1

/-- The contexts after the batch. -/
theorem refreshed (translatable : p.Translatable now batch)
    (returned : p.processEpollEvents batch now = .ok after) :
    p.Refreshed now (p.socketReports batch) after := by
  have reached := processEpollEvents_refreshed translatable.quiet returned
  rwa [translatable.delivered_eq] at reached

/-- The timers after the batch. -/
theorem timers (translatable : p.Translatable now batch)
    (returned : p.processEpollEvents batch now = .ok after) (fd : FD) :
    after.scheduler.deadline fd = p.deadlineAfter now (p.socketReports batch) fd := by
  rw [processEpollEvents_deadline returned, translatable.delivered_eq]

theorem translated (translatable : p.Translatable now batch) (keyed : Keyed p)
    (nothing : p.NothingPending) (returned : p.processEpollEvents batch now = .ok after) :
    p.Translated now batch after := by
  have events := translatable.mem_outEvents keyed nothing returned
  refine ⟨?_, ?_, ?_, ?_⟩
  · intro report member context found
    have inEvents := (events _).mpr ⟨report, member, context, found, rfl⟩
    exact ⟨_, inEvents, rfl, fun other pending same => KeyedSet.eq_of_key pending inEvents same,
      PollerEvent.ofReport_has _ _⟩
  · intro event member
    obtain ⟨report, inBatch, context, found, rfl⟩ := (events event).mp member
    exact ⟨report, inBatch, context, found, rfl⟩
  · intro report member context found
    obtain ⟨_, stored, refreshable⟩ := translatable.active report member
    obtain rfl := Option.some.inj (found.symm.trans stored)
    have reached := translatable.refreshed returned report.data
    have timer := translatable.timers returned report.data
    have own := translatable.apartReports.masksOn member
    rw [own, stored, Option.map_some] at reached
    rw [deadlineAfter, own, if_neg (List.cons_ne_nil _ _), stored, Option.map_some] at timer
    refine ⟨context.refresh report.events now, reached, rfl, timer, ?_⟩
    intro direction
    by_cases inReport : report.events.has direction.epoll = true
    · rw [if_pos inReport]
      refine ⟨?_, refreshable.toNat_time inReport⟩
      rw [SocketContext.timeout_refresh, if_pos inReport]
      rfl
    · rw [if_neg inReport, SocketContext.timeout_refresh, if_neg inReport]
      exact ⟨rfl, rfl⟩
  · intro fd none
    have reached := translatable.refreshed returned fd
    have timer := translatable.timers returned fd
    rw [masksOn_eq_nil none] at reached
    rw [deadlineAfter, if_pos (masksOn_eq_nil none)] at timer
    exact ⟨reached.trans Option.map_id', timer⟩

end Translatable

end Poller

/-- **A batch is translated independently of its order**: in every state with nothing pending, for
every batch that can be translated and whose socket reports name some condition. -/
theorem batch_is_translated_in_any_order {p : Poller} (keyed : Keyed p)
    (nothing : p.NothingPending) {now : Word} {batch : List EpollEvent}
    (translatable : p.Translatable now batch)
    (acts : ∀ report ∈ p.socketReports batch, report.Acts) :
    p.TranslatesInAnyOrder now batch := by
  obtain ⟨after, returned⟩ := translatable.processEpollEvents_ok acts
  refine ⟨after, returned, translatable.translated keyed nothing returned, ?_⟩
  intro other perm
  have reports : (p.socketReports other).Perm (p.socketReports batch) := perm.filter _
  have permutable := translatable.perm perm
  obtain ⟨permuted, returned'⟩ :=
    permutable.processEpollEvents_ok fun report member => acts report (reports.mem_iff.mp member)
  refine ⟨permuted, returned', ?_, ?_, ?_⟩
  · intro event
    rw [permutable.mem_outEvents keyed nothing returned',
      translatable.mem_outEvents keyed nothing returned]
    simp only [reports.mem_iff]
  · funext fd
    rw [((permutable.refreshed returned').perm reports) fd, translatable.refreshed returned fd]
  · funext fd
    rw [permutable.timers returned', translatable.timers returned,
      Poller.deadlineAfter_perm p now reports]

/-- A reader, a writer and a signal to be read. -/
def busyPoller : Poller :=
  (checkedRun Poller.step Poller.Plausible (Poller.create 3)
    [.update (some ⟨0, 7, .client⟩) epollIn 1000 0 0,
      .update (some ⟨1, 8, .client⟩) (epollIn ||| epollOut) 500 0 0]).get (by decide +kernel)

def busyBatch : List EpollEvent := [⟨7, epollIn⟩, ⟨3, epollIn⟩, ⟨8, epollOut ||| epollHup⟩]

theorem batch_is_translated_in_any_order_signal :
    busyPoller.TranslatesInAnyOrder 20 busyBatch := by
  have keyed : Keyed busyPoller :=
    (Run.of_isSome _).invariant Keyed (.create 3) fun _ _ _ held _ returned => held.step returned
  exact batch_is_translated_in_any_order keyed (by decide +kernel) (by decide +kernel)
    (by decide +kernel)

/-- A socket is watched for urgent data as well. -/
def urgentClient : Poller :=
  (checkedRun Poller.step Poller.OwnDescriptor (Poller.create 3)
    [.update (some ⟨0, 7, .client⟩) (epollIn ||| 2) 1000 0 0]).get (by decide +kernel)

/-- The kernel reports urgent data alone, and the process stops. -/
theorem empty_report_aborts :
    ¬ ∀ (eventFd : FD) (ops : List PollerOp) (p : Poller) (batch : List EpollEvent) (now : Word),
      Run Poller.step Poller.OwnDescriptor (Poller.create eventFd) ops p → p.NothingPending →
        (∀ report ∈ batch, Poller.watches p.epollFd report = true) → p.Translatable now batch →
          p.TranslatesInAnyOrder now batch := by
  intro claim
  obtain ⟨after, returned, -⟩ := claim 3 _ urgentClient [⟨7, 2⟩] 5 (Run.of_isSome _)
    (by decide +kernel) (by decide +kernel) (by decide +kernel)
  have fails : (urgentClient.processEpollEvents [⟨7, 2⟩] 5).toOption.isNone = true := by
    decide +kernel
  rw [returned] at fails
  cases fails

end Jasl
