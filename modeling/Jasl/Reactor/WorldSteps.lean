import Jasl.Reactor.Reactor

/-!
# What the steps of a world keep

Every call, callback and event changes a world by a few primitive changes: a
removal, an update, a signal, a field of a socket, an entry of the log. What all
of these keep, a callback and an event keep (`Primitives`).

Behind that stand the rules for a property that only some of them keep. What the
changes of a call keep, every call keeps (`CallRules`), and the start of a close has
two changes more (`CloseRules`); what these keep, together with the entries of
callbacks, an event keeps (`EventRules`); and what a poll and the taking of an event
keep as well, a whole run keeps (`StepRules`).

The first use is the connection to the poller: whatever the callbacks of all
sockets do, each poller of a world only runs through the calls of `Poller.step`
(`pollers_run`), so the invariants of pollers hold of the pollers of a world.
-/

set_option autoImplicit false

namespace Jasl

open Library

namespace World

variable (w : World) (id : PollerId) (socket : SocketPtr)

@[simp] theorem note_pollers (entry : Entry) : (w.note entry).pollers = w.pollers := rfl
@[simp] theorem note_sockets (entry : Entry) : (w.note entry).sockets = w.sockets := rfl
@[simp] theorem note_log (entry : Entry) : (w.note entry).log = entry :: w.log := rfl

@[simp] theorem setPoller_pollers (p : Poller) :
    (w.setPoller id p).pollers = Function.update w.pollers id p := rfl
@[simp] theorem setPoller_sockets (p : Poller) : (w.setPoller id p).sockets = w.sockets := rfl
@[simp] theorem setPoller_log (p : Poller) : (w.setPoller id p).log = w.log := rfl

@[simp] theorem setAttached_pollers (poller : Option PollerId) :
    (w.setAttached socket poller).pollers = w.pollers := rfl
@[simp] theorem setAttached_sockets (poller : Option PollerId) :
    (w.setAttached socket poller).sockets =
      Function.update w.sockets socket { w.sockets socket with poller } := rfl
@[simp] theorem setAttached_log (poller : Option PollerId) :
    (w.setAttached socket poller).log = w.log := rfl

@[simp] theorem setState_pollers (state : SocketState) :
    (w.setState socket state).pollers = w.pollers := rfl
@[simp] theorem setState_sockets (state : SocketState) :
    (w.setState socket state).sockets =
      Function.update w.sockets socket { w.sockets socket with state } := rfl
@[simp] theorem setState_log (state : SocketState) : (w.setState socket state).log = w.log := rfl

@[simp] theorem noteClash_pollers : (w.noteClash id socket).pollers = w.pollers := by
  rw [noteClash]
  split <;> rfl

@[simp] theorem noteClash_sockets : (w.noteClash id socket).sockets = w.sockets := by
  rw [noteClash]
  split <;> rfl

@[simp] theorem removeSocket_pollers :
    (w.removeSocket id (some socket)).pollers =
      Function.update w.pollers id ((w.pollers id).removeSocket (some socket)) := by
  simp only [removeSocket]
  split <;> simp

@[simp] theorem removeSocket_sockets :
    (w.removeSocket id (some socket)).sockets = w.sockets := by
  simp only [removeSocket]
  split <;> simp

end World

/-! ## The rule -/

/-- An entry that takes or removes nothing. -/
def Entry.Idle : Entry → Prop
  | .took _ _ | .removed _ _ => False
  | _ => True

/-- A property of worlds that the primitive changes keep. -/
structure Primitives (holds : World → Prop) : Prop where
  removeSocket : ∀ w id socket, holds w → holds (w.removeSocket id (some socket))
  updateSocket : ∀ (w : World) id socket eventMask timeoutStep readClock writeClock p,
    (w.pollers id).updateSocket (some socket) eventMask timeoutStep readClock writeClock = .ok p →
      holds w → holds ((w.noteClash id socket).setPoller id p)
  signal : ∀ w id sent, holds w → holds (w.signal id sent)
  setAttached : ∀ w socket poller, holds w → holds (w.setAttached socket poller)
  setState : ∀ w socket state, holds w → holds (w.setState socket state)
  note : ∀ w (entry : Entry), entry.Idle → holds w → holds (w.note entry)

/-! ## Rules for calls -/

/-- A property of worlds that the calls user code makes keep, change by change. -/
structure CallRules (holds : World → Prop) : Prop where
  removeSocket : ∀ w id socket, holds w → holds (w.removeSocket id (some socket))
  updateSocket : ∀ (w : World) id socket eventMask timeoutStep readClock writeClock p,
    (w.pollers id).updateSocket (some socket) eventMask timeoutStep readClock writeClock = .ok p →
      holds w → holds ((w.noteClash id socket).setPoller id p)
  signal : ∀ w id sent, holds w → holds (w.signal id sent)
  setAttached : ∀ w socket poller, holds w → holds (w.setAttached socket poller)
  registered : ∀ w id socket, holds w → holds (w.note (.registered id socket))

/-- A property of worlds that calls keep, and that the start of a close keeps. -/
structure CloseRules (holds : World → Prop) : Prop extends CallRules holds where
  setState : ∀ w socket, holds w → holds (w.setState socket .invalid)
  onClose : ∀ w socket closeReason, holds w → holds (w.note (.onClose socket closeReason))

namespace CallRules

variable {holds : World → Prop} (rules : CallRules holds)

include rules

theorem removeFromPoller {w : World} (kept : holds w) (socket : SocketPtr) :
    holds (w.removeFromPoller socket) := by
  rw [World.removeFromPoller]
  split
  · exact kept
  · exact rules.setAttached _ _ _ (rules.removeSocket _ _ _ kept)

theorem attachToPoller {w : World} (kept : holds w) (socket : SocketPtr) (id : PollerId) :
    holds (w.attachToPoller socket id) := by
  rw [World.attachToPoller]
  split
  · exact kept
  · exact rules.setAttached _ _ _ (rules.removeFromPoller kept socket)

theorem update {w after : World} (kept : holds w) {id : PollerId} {socket : Option SocketPtr}
    {eventMask timeoutStep readClock writeClock : Word}
    (returned : w.updateSocket id socket eventMask timeoutStep readClock writeClock = .ok after) :
    holds after := by
  rw [World.updateSocket] at returned
  split at returned
  · cases returned
  · rename_i p succeeded
    cases socket with
    | none =>
        obtain rfl := Except.ok.inj returned
        exact kept
    | some socket =>
        obtain rfl := Except.ok.inj returned
        have updated := rules.updateSocket w id socket _ _ _ _ p succeeded kept
        split
        · exact rules.registered _ id socket (rules.attachToPoller updated socket id)
        · exact updated

theorem call {w after : World} (kept : holds w) {made : Call} (called : w.call made = .ok after) :
    holds after := by
  cases made with
  | updateSocket poller socket eventMask timeoutStep readClock writeClock =>
      exact rules.update kept called
  | removeSocket poller socket =>
      obtain rfl := Except.ok.inj called
      cases socket with
      | none => exact kept
      | some socket => exact rules.removeSocket _ _ _ kept
  | removeFromPoller socket =>
      obtain rfl := Except.ok.inj called
      exact rules.removeFromPoller kept socket
  | attachToPoller socket poller =>
      obtain rfl := Except.ok.inj called
      exact rules.attachToPoller kept socket poller
  | signal poller sent =>
      obtain rfl := Except.ok.inj called
      exact rules.signal _ _ _ kept

end CallRules

theorem CloseRules.beginClose {holds : World → Prop} (rules : CloseRules holds) {w : World}
    (kept : holds w) (socket : SocketPtr) (closeReason : Word) :
    holds (w.beginClose socket closeReason) :=
  rules.onClose _ socket closeReason (rules.removeFromPoller (rules.setState _ _ kept) socket)

theorem Primitives.closeRules {holds : World → Prop} (rules : Primitives holds) :
    CloseRules holds where
  removeSocket := rules.removeSocket
  updateSocket := rules.updateSocket
  signal := rules.signal
  setAttached := rules.setAttached
  setState := fun w socket => rules.setState w socket .invalid
  registered := fun w id socket => rules.note w (.registered id socket) trivial
  onClose := fun w socket closeReason => rules.note w (.onClose socket closeReason) trivial

/-! ## Rules for events and steps -/

/-- The socket whose `on_read`, `on_write` or `on_accept` an entry is. -/
def Entry.invokes : Entry → Option SocketPtr
  | .onRead socket | .onWrite socket | .onAccept socket => some socket
  | _ => none

/-- A property of worlds that an event keeps, whatever its callbacks do. -/
structure EventRules (holds : World → Prop) : Prop where
  call : ∀ w made after, holds w → w.call made = .ok after → holds after
  beginClose : ∀ w socket closeReason, (w.sockets socket).state ≠ .invalid → holds w →
    holds (w.beginClose socket closeReason)
  invoke : ∀ w (entry : Entry), entry.invokes.isSome → holds w → holds (w.note entry)

namespace EventRules

variable {holds : World → Prop} (rules : EventRules holds)

include rules

/-- User code keeps what calls and closes keep. -/
theorem run {w : World} (kept : holds w) (callback : Callback) : holds (callback.run w).1 :=
  callback.run_keeps rules.call rules.beginClose w kept

theorem close {w : World} (kept : holds w) (socket : SocketPtr) (closeReason : Word)
    (onClose : Callback) : holds (w.close socket closeReason onClose.run).1 :=
  World.close_keeps kept (fun open_ => rules.beginClose w socket closeReason open_ kept)
    fun _ held => rules.run held onClose

theorem accept (socket : SocketPtr) (onAccepts : List Callback) :
    ∀ {w : World}, holds w → holds (w.accept socket onAccepts).1 := by
  induction onAccepts with
  | nil => exact fun kept => kept
  | cons onAccept rest ih =>
      intro w kept
      rw [World.accept]
      exact Outcome.andThen_keeps (rules.run (rules.invoke _ (.onAccept socket) rfl kept) onAccept)
        fun _ _ held => ih held

theorem readEvent {w : World} (kept : holds w) (event : PollerEvent) (socket : SocketPtr)
    (script : EventScript) : holds (w.readEvent event socket script).1 := by
  rw [World.readEvent]
  split
  · rw [World.read]
    cases socket.kind with
    | client => exact rules.run (rules.invoke _ (.onRead socket) rfl kept) script.onRead
    | server => exact rules.accept socket script.onAccepts kept
  · exact kept

theorem writeEvent {w : World} (kept : holds w) (event : PollerEvent) (socket : SocketPtr)
    (script : EventScript) : holds (w.writeEvent event socket script).1 := by
  rw [World.writeEvent]
  split
  · rw [World.write]
    cases socket.kind with
    | client => exact rules.run (rules.invoke _ (.onWrite socket) rfl kept) script.onWrite
    | server => exact kept
  · exact kept

theorem closeEvent {w : World} (kept : holds w) (event : PollerEvent) (socket : SocketPtr)
    (script : EventScript) : holds (w.closeEvent event socket script).1 := by
  rw [World.closeEvent]
  split
  · exact rules.close kept socket event.closeReason script.onClose
  · exact kept

theorem tryEvent {w : World} (kept : holds w) (event : PollerEvent) (socket : SocketPtr)
    (script : EventScript) : holds (w.tryEvent event socket script).1 := by
  rw [World.tryEvent]
  refine Outcome.andThen_keeps ?_ fun w _ held => rules.closeEvent held event socket script
  exact Outcome.andThen_keeps (rules.readEvent kept event socket script)
    fun w _ held => rules.writeEvent held event socket script

/-- **An event keeps what its rules keep.** -/
theorem dispatch {w : World} (kept : holds w) (event : PollerEvent) (socket : SocketPtr)
    (script : EventScript) : holds (w.dispatch event socket script).1 := by
  rw [World.dispatch]
  exact Outcome.rescue_keeps (rules.tryEvent kept event socket script)
    fun w _ held => rules.close held socket 0 script.onHandlerClose

end EventRules

theorem Primitives.eventRules {holds : World → Prop} (rules : Primitives holds) :
    EventRules holds where
  call := fun _ _ _ kept called => rules.closeRules.call kept called
  beginClose := fun _ socket closeReason _ kept => rules.closeRules.beginClose kept socket closeReason
  invoke := by
    intro w entry invokes kept
    refine rules.note w entry ?_ kept
    cases entry with
    | took _ _ => cases invokes
    | removed _ _ => cases invokes
    | _ => trivial

/-- A property of worlds that every allowed step keeps. -/
structure StepRules (allowed : World → WorldOp → Prop) (holds : World → Prop) : Prop
    extends EventRules holds where
  poll : ∀ w id batch waitClock eventClock schedulerClock p,
    allowed w (.poll id batch waitClock eventClock schedulerClock) → holds w →
      (w.pollers id).poll batch waitClock eventClock schedulerClock = .ok p →
        holds (w.setPoller id p)
  next : ∀ w id position, holds w →
    holds (w.setPoller id ((w.pollers id).getNextEvent position).2)
  took : ∀ w id event, holds w → holds (w.note (.took id event))

namespace StepRules

variable {allowed : World → WorldOp → Prop} {holds : World → Prop}
  (rules : StepRules allowed holds)

include rules

/-- A step keeps what its rules keep. -/
theorem exec {w : World} (op : WorldOp) (permitted : allowed w op) (kept : holds w) :
    holds (w.exec op).1 := by
  cases op with
  | poll id batch waitClock eventClock schedulerClock =>
      rw [World.exec]
      cases polled : (w.pollers id).poll batch waitClock eventClock schedulerClock with
      | error failed => exact kept
      | ok p => exact rules.poll _ _ _ _ _ _ p permitted kept polled
  | event id position script =>
      have taken := rules.next w id position kept
      simp only [World.exec, World.turn]
      split
      · exact taken
      · split
        · exact taken
        · exact rules.dispatch (rules.took _ id _ taken) _ _ script
  | other script => exact rules.toEventRules.run kept script

/-- **A run keeps what the rules of its steps keep.** -/
theorem run {start w : World} {ops : List WorldOp} (initial : holds start)
    (reached : Run World.step allowed start ops w) : holds w := by
  apply reached.invariant holds initial
  intro before op after held permitted stepped
  rw [← World.step_eq_ok stepped]
  exact rules.exec op permitted held

omit rules in
/-- Two properties together. -/
theorem and {other : World → Prop} (first : StepRules allowed holds)
    (second : StepRules allowed other) : StepRules allowed fun w => holds w ∧ other w where
  call := fun w made after kept called =>
    ⟨first.call w made after kept.1 called, second.call w made after kept.2 called⟩
  beginClose := fun w socket closeReason open_ kept =>
    ⟨first.beginClose w socket closeReason open_ kept.1,
      second.beginClose w socket closeReason open_ kept.2⟩
  invoke := fun w entry invokes kept =>
    ⟨first.invoke w entry invokes kept.1, second.invoke w entry invokes kept.2⟩
  poll := fun w id batch waitClock eventClock schedulerClock p permitted kept polled =>
    ⟨first.poll w id batch waitClock eventClock schedulerClock p permitted kept.1 polled,
      second.poll w id batch waitClock eventClock schedulerClock p permitted kept.2 polled⟩
  next := fun w id position kept =>
    ⟨first.next w id position kept.1, second.next w id position kept.2⟩
  took := fun w id event kept => ⟨first.took w id event kept.1, second.took w id event kept.2⟩

end StepRules

/-! ## The pollers of a world -/

/-- A poller gets from one state to another by its own calls. -/
def Poller.Reaches (p after : Poller) : Prop :=
  ∃ ops, Run Poller.step (fun _ _ => True) p ops after

namespace Poller.Reaches

variable {p next after : Poller}

theorem refl (p : Poller) : p.Reaches p := ⟨[], .nil⟩

theorem trans (first : p.Reaches next) (second : next.Reaches after) : p.Reaches after := by
  obtain ⟨ops, run⟩ := first
  obtain ⟨more, rest⟩ := second
  exact ⟨ops ++ more, run.append rest⟩

theorem of_step (op : PollerOp) (stepped : p.step op = .ok after) : p.Reaches after :=
  ⟨[op], Run.single trivial stepped⟩

end Poller.Reaches

namespace World

/-- Each poller of one world reaches its state in another. -/
def PollersReach (first last : World) : Prop :=
  ∀ id, (first.pollers id).Reaches (last.pollers id)

/-- Replacing one poller by a state it reaches. -/
theorem PollersReach.update {first w : World} (reach : PollersReach first w) {id : PollerId}
    {p : Poller} (reached : (w.pollers id).Reaches p) {after : World}
    (pollers : after.pollers = Function.update w.pollers id p) : PollersReach first after := by
  intro other
  rw [pollers]
  by_cases same : other = id
  · rw [same, Function.update_self]
    exact (reach id).trans reached
  · rw [Function.update_of_ne same]
    exact reach other

theorem primitives_pollersReach (first : World) : Primitives (PollersReach first) where
  removeSocket := fun w id socket reach =>
    reach.update (.of_step (.remove (some socket)) rfl) (w.removeSocket_pollers id socket)
  updateSocket := fun w id socket _ _ _ _ p returned reach =>
    reach.update (.of_step (.update (some socket) _ _ _ _) returned) (by simp)
  signal := fun w id sent reach => reach.update (.of_step (.signal sent) rfl) rfl
  setAttached := fun _ _ _ reach => reach
  setState := fun _ _ _ reach => reach
  note := fun _ _ _ reach => reach

theorem stepRules_pollersReach (first : World) (allowed : World → WorldOp → Prop) :
    StepRules allowed (PollersReach first) where
  toEventRules := (primitives_pollersReach first).eventRules
  poll := fun _ _ batch waitClock eventClock schedulerClock _ _ reach polled =>
    reach.update (.of_step (.poll batch waitClock eventClock schedulerClock) polled) rfl
  next := fun _ _ position reach => reach.update (.of_step (.next position) rfl) rfl
  took := fun _ _ _ reach => reach

/-- **The pollers of a world run as pollers**: a step of a world takes each poller through calls of
its own. -/
theorem exec_pollersReach (w : World) (op : WorldOp) : PollersReach w (w.exec op).1 :=
  (stepRules_pollersReach w fun _ _ => True).exec op trivial fun _ => .refl _

/-- In every world that a run reaches, each poller has run from its creation by its own calls. -/
theorem pollers_run {allowed : World → WorldOp → Prop} {eventFds : PollerId → FD}
    {states : SocketPtr → SocketState} {ops : List WorldOp} {w : World}
    (run : Run step allowed (start eventFds states) ops w) (id : PollerId) :
    (Poller.create (eventFds id)).Reaches (w.pollers id) := by
  have reach : PollersReach (start eventFds states) w :=
    (stepRules_pollersReach (start eventFds states) allowed).run (fun _ => .refl _) run
  exact reach id

end World

end Jasl
