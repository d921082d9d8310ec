import Jasl.Poller.SchedulerPass
import Jasl.Poller.TimersKept
import Jasl.Reactor.CloseEvents

/-!
# The timer of a socket that is left alone

A socket with a timer (`Poller.Timed`) keeps it until the poll whose clock has reached
it, if nobody removes the socket and the kernel does not report it. That poll leaves a
CLOSE event (`Untouched.processScheduler`).

In a world, user code keeps a property of a poller that its calls keep, until it closes
the socket or removes it from a map (`World.Unless`); the timer and the pending CLOSE
event of a socket are such properties.
-/

set_option autoImplicit false

namespace Jasl

open Library

/-! ## The timer of a socket -/

namespace Poller

/-- The socket is registered, and has a timer at its nearer deadline. -/
structure Timed (p : Poller) (socket : SocketPtr) (context : SocketContext) : Prop where
  found : p.activeSockets socket.fd = some context
  own : context.socket = socket
  timer : p.scheduler.deadline socket.fd = some context.nearest

variable {p after : Poller} {socket : SocketPtr} {context : SocketContext}

/-- The socket has a timer and no event. -/
structure Untouched (p : Poller) (socket : SocketPtr) (context : SocketContext) : Prop
    extends Keyed p, Timed p socket context where
  free : p.outEvents.find (some socket) = none

/-- The socket of another descriptor is another socket. -/
theorem Untouched.apart (untouched : p.Untouched socket context) {fd : FD} {other : SocketContext}
    (found : p.activeSockets fd = some other) (different : fd ≠ socket.fd) :
    some socket ≠ some other.socket := by
  intro same
  obtain rfl := Option.some.inj same
  exact different (untouched.keys fd other found).symm

/-- Reports on other sockets leave it its timer, unless a stop is processed. -/
theorem Untouched.processEpollEvents (untouched : p.Untouched socket context)
    {batch : List EpollEvent} {currentTime : Word}
    (unreported : ∀ report ∈ batch, report.data ≠ socket.fd)
    (succeeded : p.processEpollEvents batch currentTime = .ok after) :
    after.activeSockets = (fun _ => none) ∨ after.Untouched socket context := by
  refine processEpollEvents_invariant
    (fun q => q.activeSockets = (fun _ => none) ∨ q.Untouched socket context)
    ?_ ?_ (fun _ _ _ _ => .inl rfl) ?_ (.inr untouched) succeeded
  · rintro before report next member (cleared | held) processed
    · obtain ⟨_, effect⟩ := processReport_eq_ok processed
      have found := effect.found
      rw [cleared] at found
      cases found
    · have other := unreported report (mem_delivered member).1
      obtain ⟨reported, effect⟩ := processReport_eq_ok processed
      have apart := held.apart effect.found other
      refine .inr ⟨held.toKeyed.processReport processed, ⟨?_, held.own, ?_⟩, ?_⟩
      · rw [effect.activeSockets, Function.update_of_ne other.symm]
        exact held.found
      · rw [effect.deadline, Function.update_of_ne other.symm]
        exact held.timer
      · have inserted : (PollerEvent.ofReport reported.socket report.events).socket ≠
            some socket := apart.symm
        rw [effect.outEvents, KeyedSet.find_insert, if_neg inserted, Option.or_none]
        exact held.free
  · exact fun _ _ held => held.imp_right fun held =>
      ⟨held.toKeyed.congr rfl, ⟨held.found, held.own, held.timer⟩, held.free⟩
  · exact fun _ _ held => held.imp_right fun held =>
      ⟨held.toKeyed.congr rfl, ⟨held.found, held.own, held.timer⟩, held.free⟩

/-- The body of the loop of `process_scheduler` takes no CLOSE event back. -/
theorem TimerOutcome.keeps_closing {payload : EventPayload} {now : Word}
    (outcome : TimerOutcome p payload now after) (pending : p.closing socket = true) :
    after.closing socket = true := by
  cases found : p.outEvents.find (some socket) with
  | none =>
      rw [Poller.closing, found] at pending
      cases pending
  | some event =>
      have close : event.action.has PollerEvent.close = true := by
        rwa [Poller.closing, found] at pending
      have kept : after.outEvents.find (some socket) = some event →
          after.closing socket = true := by
        intro same
        rw [Poller.closing, same]
        exact close
      apply kept
      cases outcome with
      | closes _ _ _ => rw [KeyedSet.find_insert, found, Option.some_or]
      | @joins stored other _ _ there open_ _ =>
          have key := (KeyedSet.find_eq_some.mp there).2
          have different : some socket ≠ other.socket := by
            intro same
            rw [← key, ← same, found] at there
            obtain rfl := Option.some.inj there
            rw [close] at open_
            cases open_
          rw [KeyedSet.find_insert, KeyedSet.find_erase, if_neg different, found, Option.some_or]
      | _ => exact found

/-- **The timer of a socket without an event closes it when it is due.** After `process_scheduler`
the timer stands at a later time, or a CLOSE event is pending. -/
theorem Untouched.processScheduler (untouched : p.Untouched socket context) (now : Word) :
    (now < context.nearest ∧ (p.processScheduler now).Timed socket context) ∨
      (p.processScheduler now).closing socket = true := by
  have swept : (p.processScheduler now).Untouched socket context ∨
      (p.processScheduler now).closing socket = true := by
    refine processScheduler_invariant
      (fun q => q.Untouched socket context ∨ q.closing socket = true) ?_ (.inl untouched)
    rintro before payload next (held | pending) turn
    · have sockets := schedulerTurn_activeSockets turn
      have timers := schedulerTurn_timers held.toKeyed turn
      obtain ⟨time, scheduler, due, -, -, outcome⟩ := schedulerTurn_eq_some turn
      by_cases own : payload = socket.fd
      · right
        subst own
        have same := due.entry
        rw [held.timer, Option.some.injEq] at same
        have expired : context.getTimeoutType now ≠ 0 := by
          intro zero
          have early := SocketContext.getTimeoutType_eq_zero.mp zero
          rw [same] at early
          exact absurd due.reached (not_le.mpr early)
        have event := outcome.find_of_own held.found expired
        rw [held.own, held.free] at event
        rw [Poller.closing, event]
        exact PollerEvent.close_has_close
      · left
        refine ⟨held.toKeyed.congr sockets, ⟨?_, held.own, ?_⟩, ?_⟩
        · rw [sockets]
          exact held.found
        · rw [timers, Function.update_of_ne (Ne.symm own)]
          exact held.timer
        · rw [outcome.find_of_other]
          · exact held.free
          · intro other found
            exact held.apart found own
    · obtain ⟨time, scheduler, -, -, -, outcome⟩ := schedulerTurn_eq_some turn
      exact .inr (outcome.keeps_closing pending)
  refine swept.imp_left ?_
  intro held
  exact ⟨processScheduler_deadline held.timer, held.toTimed⟩

/-! ## Calls -/

/-- A call on another descriptor, or on one that is not registered, is no removal of the socket. -/
theorem Timed.removeSocket (timed : p.Timed socket context) {target : SocketPtr}
    (other : target.fd ≠ socket.fd) : (p.removeSocket (some target)).Timed socket context where
  found := by
    rw [removeSocket_activeSockets, Function.update_of_ne other.symm]
    exact timed.found
  own := timed.own
  timer := by
    rw [removeSocket_deadline]
    split
    · exact timed.timer
    · rw [Function.update_of_ne other.symm]
      exact timed.timer

/-- An `update_socket` of a registered socket sets its timer to its deadlines. -/
theorem Timed.updateSocket (keyed : Keyed p) (timed : p.Timed socket context) {target : SocketPtr}
    {eventMask timeoutStep readClock writeClock : Word}
    (returned : p.updateSocket (some target) eventMask timeoutStep readClock writeClock =
      .ok after) : ∃ context, after.Timed socket context := by
  have effect := updateSocket_eq_ok returned
  have key := keyed.contextFor_fd target
  by_cases same : socket.fd = target.fd
  · have before : p.contextFor target = context := contextFor_of_some (same ▸ timed.found)
    refine ⟨p.updatedContext target eventMask timeoutStep readClock writeClock, ?_, ?_, ?_⟩
    · rw [effect.activeSockets, same, Function.update_self]
    · rw [updatedContext_socket, before]
      exact timed.own
    · by_cases untimed : timeoutStep = invalidTime
      · rw [effect.untimed untimed, updatedContext, if_pos untimed, before]
        exact timed.timer
      · rw [effect.timed untimed, key, same, Function.update_self]
  · refine ⟨context, ?_, timed.own, ?_⟩
    · rw [effect.activeSockets, Function.update_of_ne same]
      exact timed.found
    · by_cases untimed : timeoutStep = invalidTime
      · rw [effect.untimed untimed]
        exact timed.timer
      · rw [effect.timed untimed, key, Function.update_of_ne same]
        exact timed.timer

end Poller

/-! ## What user code leaves of a timer and of an event -/

/-- A socket was taken out of a map under a descriptor. -/
def Entry.removes (fd : FD) : Entry → Bool
  | .removed _ socket => socket.fd = fd
  | _ => false

namespace World

/-- How often a socket with a descriptor was taken out of a map. -/
def removals (w : World) (fd : FD) : ℕ := w.log.countP (Entry.removes fd)

/-- The socket was closed, or a socket with its descriptor was removed since there were so many
removals, or the poller still has the property. -/
structure Unless (id : PollerId) (socket : SocketPtr) (count : ℕ) (holds : Poller → Prop)
    (w : World) : Prop where
  since : count ≤ w.removals socket.fd
  kept : (w.sockets socket).state = .invalid ∨ count < w.removals socket.fd ∨ holds (w.pollers id)

/-- A property of a poller that its calls keep, but for removals under a descriptor. -/
structure CallsKeep (fd : FD) (holds : Poller → Prop) : Prop where
  remove : ∀ p target, holds p → p.registers target = true ∨ target.fd ≠ fd →
    holds (p.removeSocket (some target))
  update : ∀ p target eventMask timeoutStep readClock writeClock after, holds p →
    p.updateSocket (some target) eventMask timeoutStep readClock writeClock = .ok after →
      holds after
  signal : ∀ p sent, holds p → holds (p.signal sent)

theorem removals_note (w : World) (entry : Entry) (fd : FD) :
    (w.note entry).removals fd = w.removals fd + if entry.removes fd then 1 else 0 :=
  List.countP_cons ..

namespace Unless

variable {id : PollerId} {socket : SocketPtr} {count : ℕ} {holds : Poller → Prop} {w : World}

theorem note (steady : w.Unless id socket count holds) (entry : Entry) :
    (w.note entry).Unless id socket count holds where
  since := by
    rw [removals_note]
    exact steady.since.trans (Nat.le_add_right _ _)
  kept := by
    rw [removals_note]
    exact steady.kept.imp_right fun kept =>
      kept.imp_left fun removed => removed.trans_le (Nat.le_add_right _ _)

/-- A poller is replaced by one that has the property as well, if it had. -/
theorem setPoller (steady : w.Unless id socket count holds) {other : PollerId} {p : Poller}
    (keeps : other = id → holds (w.pollers id) → holds p) :
    (w.setPoller other p).Unless id socket count holds where
  since := steady.since
  kept := by
    refine steady.kept.imp_right fun kept => kept.imp_right fun held => ?_
    rw [setPoller_pollers]
    by_cases same : id = other
    · subst same
      rw [Function.update_self]
      exact keeps rfl held
    · rwa [Function.update_of_ne same]

theorem mono (steady : w.Unless id socket count holds) {other : Poller → Prop}
    (weaker : holds (w.pollers id) → other (w.pollers id)) : w.Unless id socket count other where
  since := steady.since
  kept := steady.kept.imp_right fun kept => kept.imp_right weaker

theorem noteClash (steady : w.Unless id socket count holds) (other : PollerId)
    (target : SocketPtr) : (w.noteClash other target).Unless id socket count holds := by
  rw [World.noteClash]
  split
  · exact steady.note _
  · exact steady

theorem removeSocket (keep : CallsKeep socket.fd holds)
    (steady : w.Unless id socket count holds) (other : PollerId) (target : SocketPtr) :
    (w.removeSocket other (some target)).Unless id socket count holds := by
  have noted := steady.noteClash other target
  simp only [World.removeSocket]
  cases absent : (w.pollers other).registers target with
  | true =>
      rw [if_pos rfl]
      refine noted.setPoller ?_
      rintro rfl held
      rw [noteClash_pollers] at held
      exact keep.remove _ target held (.inl absent)
  | false =>
      rw [if_neg Bool.false_ne_true]
      by_cases same : target.fd = socket.fd
      · refine ⟨?_, .inr (.inl ?_)⟩
        · rw [removals_note]
          exact noted.since.trans (Nat.le_add_right _ _)
        · have counted : (Entry.removed other target).removes socket.fd = true :=
            decide_eq_true same
          rw [removals_note, if_pos counted]
          exact Nat.lt_succ_of_le noted.since
      · refine (noted.setPoller ?_).note _
        rintro rfl held
        rw [noteClash_pollers] at held
        exact keep.remove _ target held (.inr same)

/-- User code keeps what calls keep, until it closes the socket or removes it. -/
theorem closeRules (keep : CallsKeep socket.fd holds) :
    CloseRules (Unless id socket count holds) where
  removeSocket := fun _ other target steady => steady.removeSocket keep other target
  updateSocket := by
    intro w other target eventMask timeoutStep readClock writeClock p returned steady
    refine (steady.noteClash other target).setPoller ?_
    rintro rfl held
    rw [noteClash_pollers] at held
    exact keep.update _ target _ _ _ _ p held returned
  signal := by
    intro w other sent steady
    refine steady.setPoller ?_
    rintro rfl held
    exact keep.signal _ sent held
  setAttached := by
    intro w target poller steady
    refine ⟨steady.since, steady.kept.imp_left fun invalid => ?_⟩
    rw [setAttached_sockets, Function.update_apply]
    split
    · rename_i same
      rw [← same]
      exact invalid
    · exact invalid
  registered := fun _ _ _ steady => steady.note _
  setState := by
    intro w target steady
    refine ⟨steady.since, steady.kept.imp_left fun invalid => ?_⟩
    rw [setState_sockets, Function.update_apply]
    split
    · rfl
    · exact invalid
  onClose := fun _ _ _ steady => steady.note _

theorem eventRules (keep : CallsKeep socket.fd holds) :
    EventRules (Unless id socket count holds) where
  call := fun _ _ _ steady called => (closeRules keep).call steady called
  beginClose := fun _ target closeReason _ steady =>
    (closeRules keep).beginClose steady target closeReason
  invoke := fun _ entry _ steady => steady.note entry

end Unless

/-- The socket has a timer at its deadline, whatever that is. -/
def KeepsTimer (socket : SocketPtr) (p : Poller) : Prop :=
  Keyed p ∧ ∃ context, p.Timed socket context

theorem callsKeep_timer (socket : SocketPtr) : CallsKeep socket.fd (KeepsTimer socket) where
  remove := by
    rintro p target ⟨keyed, context, timed⟩ (absent | other)
    · have other : target.fd ≠ socket.fd := by
        intro same
        rw [Poller.registers, same, timed.found] at absent
        cases absent
      exact ⟨keyed.removeSocket target, context, timed.removeSocket other⟩
    · exact ⟨keyed.removeSocket target, context, timed.removeSocket other⟩
  update := by
    rintro p target _ _ _ _ after ⟨keyed, context, timed⟩ returned
    exact ⟨keyed.updateSocket returned, timed.updateSocket keyed returned⟩
  signal := fun _ _ ⟨keyed, context, timed⟩ =>
    ⟨keyed.congr rfl, context, timed.found, timed.own, timed.timer⟩

/-- Where something else holds, nothing is to be kept. -/
theorem CallsKeep.or_const {fd : FD} {holds : Poller → Prop} (keep : CallsKeep fd holds)
    (other : Prop) : CallsKeep fd fun p => holds p ∨ other where
  remove := fun p target held apart => held.imp_left fun held => keep.remove p target held apart
  update := fun p target _ _ _ _ after held returned =>
    held.imp_left fun held => keep.update p target _ _ _ _ after held returned
  signal := fun p sent held => held.imp_left (keep.signal p sent)

theorem callsKeep_closing (socket : SocketPtr) :
    CallsKeep socket.fd fun p => p.closing socket = true where
  remove := by
    intro p target pending other
    rw [Poller.closing_of_find, pending]
    rw [Poller.removeSocket_outEvents]
    split
    · rfl
    · rename_i present
      have different : some socket ≠ some target := by
        intro same
        obtain rfl := Option.some.inj same
        exact other.elim present fun apart => apart rfl
      rw [KeyedSet.find_erase, if_neg different]
  update := by
    intro p target _ _ _ _ after pending returned
    rw [Poller.closing_of_find, pending]
    rw [(Poller.updateSocket_eq_ok returned).outEvents]
  signal := fun _ _ pending => pending

end World

end Jasl
