import Jasl.Poller.Deadlines
import Jasl.Poller.TimersAgree

/-!
# The poller and the kernel

The interest set of the epoll descriptor, the map of active sockets and the timers
are changed by different statements. `AgreesWithEpoll` says that they agree: the
kernel watches exactly the registered descriptors, each with the mask passed last,
and no other descriptor has a timer.

The kernel drops a descriptor by itself when it is closed, and a descriptor is
closed when the last pointer to its socket goes. The map holds such pointers, so
that can happen inside a call, and only for descriptors that are not in the map
after it (`ReleasingCall`).

A stop clears the map and the pending events alone, where `remove_socket` takes the
descriptor out of all of them. So the three agree after a stop only when the stop
finds nothing to leave behind (`StopsEmpty`): every registered socket goes with it,
and every timer is due when the timers are processed. In all other calls they agree
(`poller_agrees_with_epoll`).
-/

set_option autoImplicit false

namespace Jasl

open Library

/-! ## Descriptors that are closed -/

/-- A call, with the descriptors that are closed in it because the last pointers to their sockets
go. -/
structure ReleasingCall where
  op : PollerOp
  released : List FD
deriving Repr

namespace Poller

/-- The kernel forgets closed descriptors. -/
def release (p : Poller) (closed : List FD) : Poller :=
  { p with epollFd := fun fd => if fd ∈ closed then none else p.epollFd fd }

def releasingStep (p : Poller) (call : ReleasingCall) : Except Assertion Poller :=
  match p.step call.op with
  | .error failed => .error failed
  | .ok after => .ok (after.release call.released)

theorem releasingStep_eq_ok {p after : Poller} {call : ReleasingCall} :
    p.releasingStep call = .ok after ↔
      ∃ returned, p.step call.op = .ok returned ∧ after = returned.release call.released := by
  rw [releasingStep]
  cases p.step call.op with
  | error failed => simp
  | ok returned => simp [eq_comm]

/-- The socket of a call does not have the event descriptor. -/
def OtherDescriptor (p : Poller) : PollerOp → Prop
  | .update (some socket) _ _ _ _ | .remove (some socket) => socket.fd ≠ p.eventFd
  | _ => True

instance (p : Poller) : (op : PollerOp) → Decidable (p.OtherDescriptor op)
  | .update (some socket) _ _ _ _ | .remove (some socket) =>
      inferInstanceAs (Decidable (socket.fd ≠ p.eventFd))
  | .update none .. | .remove none | .poll .. | .next _ | .signal _ =>
      inferInstanceAs (Decidable True)

/-- The map holds no pointer to a socket with one of the descriptors. -/
def HoldsNone (p : Poller) (closed : List FD) : Prop := ∀ fd ∈ closed, p.sockets fd = none

instance (p : Poller) (closed : List FD) : Decidable (p.HoldsNone closed) :=
  List.decidableBAll _ _

/-- The descriptors that are open at one time differ, so a socket does not have the event
descriptor; and what is in the map after the call is not closed in it. -/
def OpenDescriptors (p : Poller) (call : ReleasingCall) : Prop :=
  p.OtherDescriptor call.op ∧ p.eventFd ∉ call.released ∧
    ∀ after ∈ (p.step call.op).toOption, after.HoldsNone call.released

instance (p : Poller) (call : ReleasingCall) : Decidable (p.OpenDescriptors call) :=
  inferInstanceAs (Decidable (_ ∧ _ ∧ _))

/-- The masks passed last, by descriptors. -/
abbrev LastMasks := FD → Word

def LastMasks.note (_ : Poller) (call : ReleasingCall) (_ : Poller) (masks : LastMasks) :
    LastMasks :=
  match call.op with
  | .update (some socket) eventMask _ _ _ => Function.update masks socket.fd eventMask
  | _ => masks

/-- The kernel watches the registered descriptors with the masks passed last, and only they have
timers. -/
structure AgreesWithEpoll (p : Poller) (masks : LastMasks) : Prop where
  watched : ∀ fd, fd ≠ p.eventFd →
    p.epollFd fd = (p.sockets fd).map fun _ => watchedEvents (masks fd)
  scheduled : ∀ fd time, p.scheduler.deadline fd = some time → (p.sockets fd).isSome

/-! ## What a stop leaves behind -/

/-- The timers after some reports, from the timers and the contexts before. -/
def deadlineAfter (p : Poller) (now : Word) (reports : List EpollEvent) (fd : FD) : Option Word :=
  if masksOn fd reports = [] then p.scheduler.deadline fd
  else (p.activeSockets fd).map fun context => (context.reported now (masksOn fd reports)).nearest

/-- No timer after the reports is later than a reading of the clock. -/
def TimersSpent (p : Poller) (now : Word) (reports : List EpollEvent) (schedulerClock : Word) :
    Prop :=
  ∀ fd time, p.deadlineAfter now reports fd = some time → time ≤ schedulerClock

/-- A stop that the call processes finds nothing to leave behind: it closes every registered
descriptor, and no timer is later than the reading at which the timers are processed. -/
def StopsEmpty (p : Poller) (call : ReleasingCall) : Prop :=
  match call.op with
  | .poll batch waitClock eventClock schedulerClock =>
      p.StopReported (p.getEpollEvents waitClock batch) →
        (∀ fd, (p.sockets fd).isSome → fd ∈ call.released) ∧
        p.TimersSpent eventClock
          (delivered p.eventFd p.eventCount (p.getEpollEvents waitClock batch)) schedulerClock
  | _ => True

/-! ## The timers of a batch -/

/-- One report sets the timer of its descriptor. -/
theorem Refreshed.deadline {p q next : Poller} {now : Word} {seen : List EpollEvent}
    {report : EpollEvent} (refreshed : p.Refreshed now seen q)
    (timers : ∀ fd, q.scheduler.deadline fd = p.deadlineAfter now seen fd)
    (processed : q.processReport report now = .ok next) (fd : FD) :
    next.scheduler.deadline fd = p.deadlineAfter now (report :: seen) fd := by
  obtain ⟨context, effect⟩ := processReport_eq_ok processed
  rw [effect.deadline, deadlineAfter, masksOn_cons]
  by_cases same : report.data = fd
  · subst same
    have found := effect.found
    rw [refreshed report.data, Option.map_eq_some_iff] at found
    obtain ⟨start, there, rfl⟩ := found
    rw [Function.update_self, if_pos rfl, if_neg (List.cons_ne_nil _ _), there, Option.map_some]
    rfl
  · rw [Function.update_of_ne (Ne.symm same), if_neg same]
    exact timers fd

theorem deadlineAfter_perm (p : Poller) (now : Word) {reports others : List EpollEvent}
    (perm : reports.Perm others) (fd : FD) :
    p.deadlineAfter now reports fd = p.deadlineAfter now others fd := by
  have masks := masksOn_perm fd perm
  have empty : masksOn fd reports = [] ↔ masksOn fd others = [] := by
    rw [← List.length_eq_zero_iff, masks.length_eq, List.length_eq_zero_iff]
  simp only [deadlineAfter, empty, SocketContext.reported_perm _ now masks]

/-- **The timers after the reports**, with or without a stop among them. -/
theorem processEpollEvents_deadline {p after : Poller} {batch : List EpollEvent} {now : Word}
    (returned : p.processEpollEvents batch now = .ok after) (fd : FD) :
    after.scheduler.deadline fd =
      p.deadlineAfter now (delivered p.eventFd p.eventCount batch) fd := by
  have folded := processEpollEvents_fold
    (fun q seen => (p.Refreshed now seen q ∨ q.activeSockets = fun _ => none) ∧
      ∀ fd, q.scheduler.deadline fd = p.deadlineAfter now seen fd)
    (fun seen report => report :: seen) ?_ (fun _ _ _ held => held)
    (fun _ _ _ _ held => ⟨.inr rfl, held.2⟩) (fun _ _ _ held => held) [] ?_ returned
  · have timers := folded.2 fd
    rwa [List.foldl_flip_cons_eq_append', List.append_nil,
      deadlineAfter_perm p now (List.reverse_perm _)] at timers
  · rintro before seen report next _ ⟨refreshed | cleared, timers⟩ processed
    · exact ⟨.inl (refreshed.processReport processed), refreshed.deadline timers processed⟩
    · obtain ⟨context, effect⟩ := processReport_eq_ok processed
      have found := effect.found
      rw [cleared] at found
      cases found
  · exact ⟨.inl (.start p now), fun _ => rfl⟩

/-- Without a context nothing is done with a timer but popping it. -/
theorem processScheduler_of_empty {p : Poller} {now time : Word} {fd : FD}
    (empty : p.activeSockets = fun _ => none) (scheduled : p.scheduler.deadline fd = some time)
    (later : now < time) : (p.processScheduler now).scheduler.deadline fd = some time := by
  refine (processScheduler_invariant
    (fun q => q.activeSockets = (fun _ => none) ∧ q.scheduler.deadline fd = some time)
    ?_ ⟨empty, scheduled⟩).2
  intro before payload after ⟨empty, scheduled⟩ turn
  refine ⟨(schedulerTurn_activeSockets turn).trans empty, ?_⟩
  obtain ⟨due, scheduler, ready, timers, -, outcome⟩ := schedulerTurn_eq_some turn
  have different : fd ≠ payload := by
    rintro rfl
    have same := ready.entry
    rw [scheduled] at same
    obtain rfl := Option.some.inj same
    exact absurd ready.reached (not_le.mpr later)
  have popped : scheduler.deadline fd = some time := by
    rw [timers, Function.update_of_ne different]
    exact scheduled
  have none : ({ before with scheduler } : Poller).activeSockets payload = none :=
    congrFun empty payload
  cases outcome with
  | unknown _ => exact popped
  | early found _ => cases none.symm.trans found
  | closes found _ _ => cases none.symm.trans found
  | closing found _ _ _ => cases none.symm.trans found
  | masked found _ _ _ _ => cases none.symm.trans found
  | joins found _ _ _ _ => cases none.symm.trans found

/-! ## The interest set of a call -/

theorem poll_epollFd {p after : Poller} {batch : List EpollEvent}
    {waitClock eventClock schedulerClock : Word}
    (returned : p.poll batch waitClock eventClock schedulerClock = .ok after) :
    after.epollFd = p.epollFd ∧ after.eventFd = p.eventFd := by
  obtain ⟨processed, succeeded, rfl⟩ := poll_eq_ok returned
  rw [processScheduler_epollFd, processScheduler_eventFd]
  refine processEpollEvents_invariant (fun q => q.epollFd = p.epollFd ∧ q.eventFd = p.eventFd)
    ?_ (fun _ _ held => held) (fun _ _ _ held => held) (fun _ _ held => held) ⟨rfl, rfl⟩ succeeded
  intro before report next _ held processed
  obtain ⟨context, effect⟩ := processReport_eq_ok processed
  exact ⟨effect.epollFd.trans held.1, effect.eventFd.trans held.2⟩

/-- The kernel watches the registered descriptors with the masks passed last. -/
structure Watches (p : Poller) (masks : LastMasks) : Prop where
  apart : p.sockets p.eventFd = none
  watched : ∀ fd, fd ≠ p.eventFd →
    p.epollFd fd = (p.sockets fd).map fun _ => watchedEvents (masks fd)

namespace Watches

variable {p after : Poller} {masks : LastMasks}

theorem create (eventFd : FD) (masks : LastMasks) : (Poller.create eventFd).Watches masks := by
  refine ⟨rfl, ?_⟩
  intro fd other
  change epollCtlAdd (fun _ => none) eventFd (epollIn ||| epollHup ||| epollRdHup) fd = none
  rw [epollCtlAdd_apply]
  exact if_neg other

theorem updateSocket (watches : p.Watches masks) {socket : SocketPtr}
    {eventMask timeoutStep readClock writeClock : Word} (other : socket.fd ≠ p.eventFd)
    (returned : p.updateSocket (some socket) eventMask timeoutStep readClock writeClock =
      .ok after) : after.Watches (Function.update masks socket.fd eventMask) := by
  have effect := updateSocket_eq_ok returned
  refine ⟨?_, ?_⟩
  · rw [effect.eventFd, sockets_updateSocket returned, Function.update_of_ne other.symm]
    exact watches.apart
  · intro fd different
    rw [effect.eventFd] at different
    rw [effect.epollFd, sockets_updateSocket returned]
    have before := watches.watched fd different
    by_cases same : fd = socket.fd
    · subst same
      rw [Function.update_self, Function.update_self, Option.map_some]
      cases found : p.sockets socket.fd with
      | none =>
          have absent : p.registers socket = true := by
            rw [registers, sockets_eq_none.mp found, Option.isNone_none]
          rw [found, Option.map_none] at before
          rw [if_pos absent, epollCtlAdd_apply, if_pos rfl, before, Option.getD_none]
      | some registered =>
          obtain ⟨context, there, -⟩ := sockets_eq_some.mp found
          have present : ¬ p.registers socket = true := by
            rw [registers, there, Option.isNone_some]
            exact Bool.false_ne_true
          rw [found, Option.map_some] at before
          rw [if_neg present, epollCtlMod_apply, if_pos rfl, before, Option.map_some]
    · rw [Function.update_of_ne same, Function.update_of_ne same, ← before]
      split
      · rw [epollCtlAdd_apply, if_neg same]
      · rw [epollCtlMod_apply, if_neg same]

theorem removeSocket (watches : p.Watches masks) (socket : SocketPtr) :
    (p.removeSocket (some socket)).Watches masks := by
  refine ⟨?_, ?_⟩
  · rw [removeSocket_eventFd, sockets_removeSocket]
    by_cases same : p.eventFd = socket.fd
    · rw [same, Function.update_self]
    · rw [Function.update_of_ne same]
      exact watches.apart
  · intro fd different
    rw [removeSocket_eventFd] at different
    rw [removeSocket_epollFd, epollCtlDel, sockets_removeSocket]
    by_cases same : fd = socket.fd
    · rw [same, Function.update_self, Function.update_self, Option.map_none]
    · rw [Function.update_of_ne same, Function.update_of_ne same]
      exact watches.watched fd different

theorem congr (watches : p.Watches masks) (sockets : after.sockets = p.sockets)
    (interest : after.epollFd = p.epollFd) (eventFd : after.eventFd = p.eventFd) :
    after.Watches masks where
  apart := by
    rw [sockets, eventFd]
    exact watches.apart
  watched := by
    rw [sockets, interest, eventFd]
    exact watches.watched

theorem release (watches : p.Watches masks) {closed : List FD}
    (absent : p.HoldsNone closed) : (p.release closed).Watches masks := by
  refine ⟨watches.apart, ?_⟩
  intro fd different
  change (if fd ∈ closed then none else p.epollFd fd) =
    (p.sockets fd).map fun _ => watchedEvents (masks fd)
  split
  · rename_i member
    rw [absent fd member, Option.map_none]
  · exact watches.watched fd different

/-- A call that processes no stop. -/
theorem step (watches : p.Watches masks) {call : ReleasingCall} (opened : p.OpenDescriptors call)
    (quiet : ¬ p.ReadsStop call.op) (returned : p.step call.op = .ok after) :
    after.Watches (LastMasks.note p call after masks) := by
  obtain ⟨op, released⟩ := call
  have other := opened.1
  have outcome : CallOutcome p op after := step_outcome returned
  cases outcome with
  | updateNull | removeNull | nextEmpty => exact watches
  | update => exact watches.updateSocket other returned
  | remove socket => exact watches.removeSocket socket
  | poll succeeded =>
      obtain ⟨interest, eventFd⟩ := poll_epollFd returned
      refine watches.congr ?_ interest eventFd
      rw [sockets_processScheduler]
      exact sockets_processEpollEvents_quiet quiet succeeded
  | next | signal => exact watches.congr rfl rfl rfl

end Watches

/-! ## Calls and the descriptors they close -/

theorem release_of_open {p after : Poller} {call : ReleasingCall} (opened : p.OpenDescriptors call)
    (returned : p.step call.op = .ok after) : after.HoldsNone call.released := by
  refine opened.2.2 after ?_
  rw [returned]
  rfl

/-- The timers after a poll are those of the batch that are later than the reading. -/
theorem poll_deadline {p after : Poller} {batch : List EpollEvent}
    {waitClock eventClock schedulerClock time : Word} {fd : FD}
    (returned : p.poll batch waitClock eventClock schedulerClock = .ok after)
    (scheduled : after.scheduler.deadline fd = some time) :
    p.deadlineAfter eventClock
        (delivered p.eventFd p.eventCount (p.getEpollEvents waitClock batch)) fd = some time ∧
      schedulerClock < time := by
  obtain ⟨processed, succeeded, rfl⟩ := poll_eq_ok returned
  refine ⟨?_, processScheduler_deadline scheduled⟩
  rw [← processEpollEvents_deadline succeeded]
  revert scheduled
  apply processScheduler_invariant
    fun q => q.scheduler.deadline fd = some time → processed.scheduler.deadline fd = some time
  · intro before payload next held turn left
    exact held (schedulerTurn_deadline turn left)
  · exact id

/-- What holds of the poller in every state: the timers agree with the contexts, and the kernel
with the registrations. -/
structure Agreeing (p : Poller) (masks : LastMasks) : Prop extends TimersAgree p, p.Watches masks

namespace Agreeing

variable {p after : Poller} {masks : LastMasks}

theorem agreesWithEpoll (agreeing : p.Agreeing masks) : p.AgreesWithEpoll masks where
  watched := agreeing.watched
  scheduled := by
    intro fd time scheduled
    obtain ⟨context, found, -⟩ := agreeing.scheduled fd time scheduled
    rw [sockets, found]
    rfl

/-- Without sockets, timers and descriptors watched there is nothing to agree about. -/
theorem of_empty (sockets : after.activeSockets = fun _ => none)
    (timers : ∀ fd, after.scheduler.deadline fd = none)
    (unwatched : ∀ fd, fd ≠ after.eventFd → after.epollFd fd = none) : after.Agreeing masks := by
  have none : after.sockets = fun _ => none := by
    funext fd
    rw [sockets_eq_none, sockets]
  refine { keys := ?_, scheduled := ?_, apart := congrFun none _, watched := ?_ }
  · intro fd context found
    rw [sockets] at found
    cases found
  · intro fd time scheduled
    rw [timers fd] at scheduled
    cases scheduled
  · intro fd different
    rw [none]
    exact unwatched fd different

/-- A stop that finds nothing to leave behind. -/
theorem stop (agreeing : p.Agreeing masks) {call : ReleasingCall} (empties : p.StopsEmpty call)
    (stops : p.ReadsStop call.op) (returned : p.step call.op = .ok after) :
    (after.release call.released).Agreeing (LastMasks.note p call after masks) := by
  obtain ⟨op, released⟩ := call
  cases op with
  | poll batch waitClock eventClock schedulerClock =>
      obtain ⟨goes, spent⟩ := empties stops
      obtain ⟨interest, eventFd⟩ := poll_epollFd returned
      apply of_empty
      · funext fd
        exact sockets_eq_none.mp (congrFun (sockets_of_stop stops returned) fd)
      · intro fd
        rw [Option.eq_none_iff_forall_ne_some]
        intro time scheduled
        obtain ⟨left, later⟩ := poll_deadline returned scheduled
        exact absurd (spent fd time left) (not_le.mpr later)
      · intro fd different
        change (if fd ∈ released then none else after.epollFd fd) = none
        split
        · rfl
        · rename_i kept
          have absent : p.sockets fd = none := by
            rw [← Option.not_isSome_iff_eq_none]
            exact fun registered => kept (goes fd registered)
          rw [interest, agreeing.watched fd (eventFd ▸ different), absent, Option.map_none]
  | _ => exact absurd stops not_false

/-- **Every call keeps the agreement** whose stop, if it processes one, leaves nothing behind. -/
theorem step (agreeing : p.Agreeing masks) {call : ReleasingCall}
    (opened : p.OpenDescriptors call) (empties : p.StopsEmpty call)
    (returned : p.releasingStep call = .ok after) :
    after.Agreeing (LastMasks.note p call after masks) := by
  obtain ⟨unreleased, stepped, rfl⟩ := releasingStep_eq_ok.mp returned
  by_cases stops : p.ReadsStop call.op
  · exact agreeing.stop empties stops stepped
  · have timers := agreeing.toTimersAgree.step stops stepped
    have watches := agreeing.toWatches.step opened stops stepped
    exact ⟨timers.congr rfl rfl, watches.release (release_of_open opened stepped)⟩

/-- If poller and kernel agree after a call, its stop left nothing behind. -/
theorem stopsEmpty (agreeing : p.Agreeing masks) {call : ReleasingCall}
    {later : LastMasks} (returned : p.releasingStep call = .ok after)
    (agrees : after.AgreesWithEpoll later) : p.StopsEmpty call := by
  obtain ⟨unreleased, stepped, rfl⟩ := releasingStep_eq_ok.mp returned
  obtain ⟨op, released⟩ := call
  cases op with
  | poll batch waitClock eventClock schedulerClock =>
      intro stops
      have sockets : unreleased.sockets = fun _ => none :=
        sockets_of_stop (show p.ReadsStop (.poll batch waitClock _ _) from stops) stepped
      refine ⟨?_, ?_⟩
      · intro fd registered
        by_contra kept
        have different : fd ≠ p.eventFd := by
          rintro rfl
          rw [agreeing.apart] at registered
          cases registered
        obtain ⟨interest, eventFd⟩ := poll_epollFd stepped
        have watched := agrees.watched fd (eventFd.symm ▸ different)
        change (if fd ∈ released then none else unreleased.epollFd fd) =
          (unreleased.sockets fd).map _ at watched
        rw [if_neg kept, interest, agreeing.watched fd different, sockets, Option.map_none,
          Option.map_eq_none_iff] at watched
        rw [watched] at registered
        cases registered
      · intro fd time scheduled
        by_contra late
        obtain ⟨processed, succeeded, rfl⟩ := poll_eq_ok stepped
        have empty := (processEpollEvents_stop stops succeeded).1
        rw [← processEpollEvents_deadline succeeded] at scheduled
        have left := processScheduler_of_empty empty scheduled (not_le.mp late)
        have registered := agrees.scheduled fd time left
        change ((processed.processScheduler schedulerClock).sockets fd).isSome at registered
        rw [sockets] at registered
        cases registered
  | _ => trivial

end Agreeing

end Poller

/-- **Poller and kernel agree.** In every state of a run whose stops leave nothing behind, the
kernel watches exactly the registered descriptors, with the masks passed last, and no other
descriptor has a timer; and a further call keeps that if and only if its stop, if it processes one,
leaves nothing behind. -/
theorem poller_agrees_with_epoll {eventFd : FD} {calls : List ReleasingCall} {p : Poller}
    {start masks : Poller.LastMasks}
    (run : Run (observed Poller.releasingStep Poller.LastMasks.note)
      (fun watched call => watched.1.OpenDescriptors call ∧ watched.1.StopsEmpty call)
      (Poller.create eventFd, start) calls (p, masks)) :
    p.AgreesWithEpoll masks ∧
    ∀ call after, p.OpenDescriptors call → p.releasingStep call = .ok after →
      (after.AgreesWithEpoll (Poller.LastMasks.note p call after masks) ↔ p.StopsEmpty call) := by
  have agreeing : p.Agreeing masks :=
    run.invariant (fun watched => watched.1.Agreeing watched.2)
      { toTimersAgree := .create eventFd, toWatches := .create eventFd start }
      (by
        intro before call after held ⟨opened, empties⟩ stepped
        obtain ⟨returned, noted⟩ := observed_eq_ok.mp stepped
        rw [noted]
        exact held.step opened empties returned)
  refine ⟨agreeing.agreesWithEpoll, ?_⟩
  intro call after opened returned
  constructor
  · intro agrees
    exact agreeing.stopsEmpty returned agrees
  · intro empties
    exact (agreeing.step opened empties returned).agreesWithEpoll

/-! ## A stop that leaves nothing behind -/

namespace Poller

theorem signal_eventFd (p : Poller) (sent : Signal) : (p.signal sent).eventFd = p.eventFd := rfl

theorem signal_activeSockets (p : Poller) (sent : Signal) :
    (p.signal sent).activeSockets = p.activeSockets := rfl

theorem signal_scheduler (p : Poller) (sent : Signal) :
    (p.signal sent).scheduler = p.scheduler := rfl

theorem release_nil (p : Poller) : p.release [] = p := rfl

section

variable {eventFd : FD} {p : Poller} {socket : SocketPtr}
  {eventMask timeoutStep readClock writeClock : Word}

/-- A socket is registered, and a stop is sent. -/
theorem run_of_updateSocket (other : socket.fd ≠ eventFd)
    (returned : (Poller.create eventFd).updateSocket (some socket) eventMask timeoutStep readClock
      writeClock = .ok p) (start : LastMasks) :
    Run (observed releasingStep LastMasks.note)
      (fun watched call => watched.1.OpenDescriptors call ∧ watched.1.StopsEmpty call)
      (Poller.create eventFd, start)
      ([⟨.update (some socket) eventMask timeoutStep readClock writeClock, []⟩] ++
        [⟨.signal .stop, []⟩])
      (p.signal .stop, Function.update start socket.fd eventMask) := by
  have closesNone : ∀ after : Poller, after.HoldsNone [] :=
    fun _ _ closed => absurd closed List.not_mem_nil
  have updated : (Poller.create eventFd).releasingStep
      ⟨.update (some socket) eventMask timeoutStep readClock writeClock, []⟩ = .ok p :=
    releasingStep_eq_ok.mpr ⟨p, returned, p.release_nil.symm⟩
  have sent : p.releasingStep ⟨.signal .stop, []⟩ = .ok (p.signal .stop) :=
    releasingStep_eq_ok.mpr ⟨p.signal .stop, rfl, (p.signal .stop).release_nil.symm⟩
  have first : Run (observed releasingStep LastMasks.note)
      (fun watched call => watched.1.OpenDescriptors call ∧ watched.1.StopsEmpty call)
      (Poller.create eventFd, start)
      [⟨.update (some socket) eventMask timeoutStep readClock writeClock, []⟩]
      (p, Function.update start socket.fd eventMask) :=
    .single ⟨⟨other, List.not_mem_nil, fun after _ => closesNone after⟩, trivial⟩
      (observed_eq_ok.mpr ⟨updated, rfl⟩)
  exact first.snoc ⟨⟨trivial, List.not_mem_nil, fun after _ => closesNone after⟩, trivial⟩
    (observed_eq_ok.mpr ⟨sent, rfl⟩)

/-- The stop is read when the timer of the socket is due, and closes the socket. -/
theorem stopsEmpty_of_updateSocket {waitClock eventClock schedulerClock : Word}
    (returned : (Poller.create eventFd).updateSocket (some socket) eventMask timeoutStep readClock
      writeClock = .ok p)
    (timed : timeoutStep ≠ invalidTime)
    (due : ((Poller.create eventFd).updatedContext socket eventMask timeoutStep readClock
      writeClock).nearest ≤ schedulerClock) :
    (p.signal .stop).StopsEmpty
      ⟨.poll [⟨eventFd, epollIn⟩] waitClock eventClock schedulerClock, [socket.fd]⟩ := by
  have effect := updateSocket_eq_ok returned
  have own : (p.signal .stop).eventFd = eventFd := (p.signal_eventFd .stop).trans effect.eventFd
  intro _
  refine ⟨?_, ?_⟩
  · intro fd registered
    rw [sockets_congr (p.signal_activeSockets .stop), sockets_updateSocket returned] at registered
    by_cases same : fd = socket.fd
    · exact List.mem_singleton.mpr same
    · rw [Function.update_of_ne same] at registered
      cases registered
  · intro fd time scheduled
    have silent : ∀ count, masksOn fd (delivered eventFd count
        ((p.signal .stop).getEpollEvents waitClock [⟨eventFd, epollIn⟩])) = [] := by
      intro count
      rw [masksOn, List.map_eq_nil_iff, List.filter_eq_nil_iff]
      intro report member
      obtain ⟨reported, other⟩ := mem_delivered member
      rw [getEpollEvents] at reported
      split at reported
      · exact absurd reported List.not_mem_nil
      · cases List.mem_singleton.mp (List.mem_of_mem_take reported)
        exact absurd rfl other
    rw [deadlineAfter, own, if_pos (silent _), signal_scheduler, effect.timed timed,
      contextFor_of_none rfl] at scheduled
    by_cases same : fd = socket.fd
    · rw [same, Function.update_self] at scheduled
      exact Option.some.inj scheduled ▸ due
    · rw [Function.update_of_ne same] at scheduled
      cases scheduled

end

end Poller

/-- A socket is registered for reads within 10. -/
def timedClient : Poller :=
  ((Poller.create 3).updateSocket (some ⟨0, 7, .client⟩) epollIn 10 5 5).toOption.get
    (by decide +kernel)

theorem timedClient_updateSocket :
    (Poller.create 3).updateSocket (some ⟨0, 7, .client⟩) epollIn 10 5 5 = .ok timedClient :=
  eq_ok_of_isSome _

/-- A stop is sent, and read when the timer is due; it closes the socket. -/
theorem poller_agrees_with_epoll_stopped :
    timedClient.epollFd 7 ≠ none ∧
      ∃ after, (timedClient.signal .stop).releasingStep ⟨.poll [⟨3, epollIn⟩] 6 7 20, [7]⟩ =
          .ok after ∧
        after.AgreesWithEpoll (Function.update (fun _ => 0) 7 epollIn) :=
  ⟨by decide +kernel, _, eq_ok_of_isSome (by decide +kernel),
    ((poller_agrees_with_epoll
      (Poller.run_of_updateSocket (by decide) timedClient_updateSocket fun _ => 0)).2
      ⟨.poll [⟨3, epollIn⟩] 6 7 20, [7]⟩ _ (by decide +kernel) (eq_ok_of_isSome _)).mpr
      (Poller.stopsEmpty_of_updateSocket timedClient_updateSocket (by decide) (by decide +kernel))⟩

/-- A socket is registered, and a stop is read while something else holds the socket. -/
def heldClient : Poller × Poller.LastMasks :=
  (checkedRun (observed Poller.releasingStep Poller.LastMasks.note)
    (fun watched call => watched.1.OpenDescriptors call) (Poller.create 3, fun _ => 0)
    [⟨.update (some ⟨0, 7, .client⟩) epollIn invalidTime 0 0, []⟩, ⟨.signal .stop, []⟩,
      ⟨.poll [⟨3, epollIn⟩] 1 2 2, []⟩]).get (by decide +kernel)

/-- The kernel goes on watching its descriptor. -/
theorem stop_leaves_registrations :
    ¬ ∀ (eventFd : FD) (start : Poller.LastMasks) (calls : List ReleasingCall)
      (reached : Poller × Poller.LastMasks),
      Run (observed Poller.releasingStep Poller.LastMasks.note)
        (fun watched call => watched.1.OpenDescriptors call)
        (Poller.create eventFd, start) calls reached →
      reached.1.AgreesWithEpoll reached.2 := by
  intro claim
  have agrees := claim 3 _ _ heldClient (Run.of_isSome _)
  exact absurd (agrees.watched 7 (by decide +kernel)) (by decide +kernel)

end Jasl
