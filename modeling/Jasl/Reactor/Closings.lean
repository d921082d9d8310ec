import Jasl.Poller.TimersAgree
import Jasl.Reactor.Attachment

/-!
# Closing detaches, and happens once

`Socket::close` invokes `on_close` behind a guard, the state of the socket, and
after `remove_from_poller`. It is entered again from callbacks and from the
handler of the reactor, so a step can invoke `on_close` of several sockets, one in
another. `closings` are the worlds in which it does; the log has the same
invocations in the same order (`closings_log`).

The guard lets one invocation through for each socket (`ClosedOnce`). In its world
the socket is in no map and has no pending event, and no timer is left under its
descriptor (`Detached`).
-/

set_option autoImplicit false

namespace Jasl

open Library

/-! ## The worlds in which on_close is invoked -/

/-- The invocations of `on_close` in a call of `close`, each with its world. -/
def World.closeClosings (w : World) (socket : SocketPtr) (closeReason : Word)
    (onClose : World → List (SocketPtr × World)) : List (SocketPtr × World) :=
  if (w.sockets socket).state = .invalid then []
  else (socket, w.beginClose socket closeReason) :: onClose (w.beginClose socket closeReason)

/-- The invocations of `on_close` in user code. -/
def Callback.closings : Callback → World → List (SocketPtr × World)
  | .done, _ => []
  | .throw, _ => []
  | .call made next, w =>
      match w.call made with
      | .error _ => []
      | .ok w => next.closings w
  | .updatePollMask socket mask timeout readClock writeClock next rescue, w =>
      match (w.sockets socket).poller with
      | none => rescue.closings w
      | some poller =>
          match w.updateSocket poller (some socket) mask timeout readClock writeClock with
          | .error _ => []
          | .ok w => next.closings w
  | .close socket closeReason onClose next rescue, w =>
      w.closeClosings socket closeReason onClose.closings ++
        (w.close socket closeReason onClose.run).noted next.closings rescue.closings

namespace World

/-- The invocations of `on_close` in `Socket::accept`. -/
def acceptClosings (w : World) (socket : SocketPtr) : List Callback → List (SocketPtr × World)
  | [] => []
  | onAccept :: rest =>
      onAccept.closings (w.note (.onAccept socket)) ++
        (onAccept.run (w.note (.onAccept socket))).noted (fun w => w.acceptClosings socket rest)
          fun _ => []

def readClosings (w : World) (event : PollerEvent) (socket : SocketPtr) (script : EventScript) :
    List (SocketPtr × World) :=
  if event.action.has PollerEvent.read then
    match socket.kind with
    | .client => script.onRead.closings (w.note (.onRead socket))
    | .server => w.acceptClosings socket script.onAccepts
  else []

def writeClosings (w : World) (event : PollerEvent) (socket : SocketPtr) (script : EventScript) :
    List (SocketPtr × World) :=
  if event.action.has PollerEvent.write then
    match socket.kind with
    | .client => script.onWrite.closings (w.note (.onWrite socket))
    | .server => []
  else []

/-- The invocations of `on_close` that the CLOSE bit leads to. -/
def closeBitClosings (w : World) (event : PollerEvent) (socket : SocketPtr)
    (script : EventScript) : List (SocketPtr × World) :=
  if event.action.has PollerEvent.close then
    w.closeClosings socket event.closeReason script.onClose.closings
  else []

/-- The invocations of `on_close` in an event, its handler included. -/
def dispatchClosings (w : World) (event : PollerEvent) (socket : SocketPtr)
    (script : EventScript) : List (SocketPtr × World) :=
  w.readClosings event socket script ++
    (w.readEvent event socket script).noted (fun w => w.writeClosings event socket script)
      (fun _ => []) ++
    ((w.readEvent event socket script).andThen fun w => w.writeEvent event socket script).noted
      (fun w => w.closeBitClosings event socket script) (fun _ => []) ++
    (w.tryEvent event socket script).noted (fun _ => [])
      fun w => w.closeClosings socket 0 script.onHandlerClose.closings

/-- The invocations of `on_close` in a step, each with its world. -/
def closings (w : World) : WorldOp → List (SocketPtr × World)
  | .poll .. => []
  | .event id position script =>
      let (event, p) := (w.pollers id).getNextEvent position
      match event.socket with
      | none => []
      | some socket =>
          if event.action = 0 then []
          else ((w.setPoller id p).note (.took id event)).dispatchClosings event socket script
  | .other script => script.closings w

end World

/-! ## What holds in these worlds -/

section Rules

variable {holds : World → Prop} {good : SocketPtr × World → Prop}

theorem World.closeClosings_forall {w : World} (kept : holds w)
    (begins : ∀ w socket closeReason, (w.sockets socket).state ≠ .invalid → holds w →
      good (socket, w.beginClose socket closeReason))
    (rules : EventRules holds) (socket : SocketPtr) (closeReason : Word)
    {onClose : World → List (SocketPtr × World)}
    (callback : ∀ w, holds w → ∀ closing ∈ onClose w, good closing) :
    ∀ closing ∈ w.closeClosings socket closeReason onClose, good closing := by
  rw [World.closeClosings]
  split
  · exact fun _ member => absurd member List.not_mem_nil
  · rename_i open_
    intro closing member
    rcases List.mem_cons.mp member with rfl | nested
    · exact begins w socket closeReason open_ kept
    · exact callback _ (rules.beginClose w socket closeReason open_ kept) closing nested

namespace EventRules

variable (rules : EventRules holds)
  (begins : ∀ w socket closeReason, (w.sockets socket).state ≠ .invalid → holds w →
    good (socket, w.beginClose socket closeReason))

include rules begins

/-- What holds where `on_close` is invoked, in user code. -/
theorem callback_closings (callback : Callback) :
    ∀ w, holds w → ∀ closing ∈ callback.closings w, good closing := by
  induction callback with
  | done => exact fun _ _ _ member => absurd member List.not_mem_nil
  | throw => exact fun _ _ _ member => absurd member List.not_mem_nil
  | call made next ih =>
      intro w kept
      rw [Callback.closings]
      cases called : w.call made with
      | error _ => exact fun _ member => absurd member List.not_mem_nil
      | ok after => exact ih after (rules.call w made after kept called)
  | updatePollMask socket mask timeout readClock writeClock next rescue ihNext ihRescue =>
      intro w kept
      rw [Callback.closings]
      cases attached : (w.sockets socket).poller with
      | none => exact ihRescue w kept
      | some poller =>
          cases called : w.updateSocket poller (some socket) mask timeout readClock writeClock with
          | error _ =>
              simp only [called]
              exact fun _ member => absurd member List.not_mem_nil
          | ok after =>
              simp only [called]
              exact ihNext after (rules.call w
                (.updateSocket poller (some socket) mask timeout readClock writeClock) after kept
                called)
  | close socket closeReason onClose next rescue ihClose ihNext ihRescue =>
      intro w kept
      rw [Callback.closings]
      refine List.forall_mem_append.mpr ⟨?_, ?_⟩
      · exact World.closeClosings_forall kept begins rules socket closeReason ihClose
      · exact Outcome.noted_forall (rules.close kept socket closeReason onClose) ihNext ihRescue

theorem accept_closings (socket : SocketPtr) (onAccepts : List Callback) :
    ∀ w, holds w → ∀ closing ∈ w.acceptClosings socket onAccepts, good closing := by
  induction onAccepts with
  | nil => exact fun _ _ _ member => absurd member List.not_mem_nil
  | cons onAccept rest ih =>
      intro w kept
      have invoked := rules.invoke w (.onAccept socket) rfl kept
      rw [World.acceptClosings]
      refine List.forall_mem_append.mpr ⟨?_, ?_⟩
      · exact rules.callback_closings begins onAccept _ invoked
      · exact Outcome.noted_forall (rules.run invoked onAccept) ih
          fun _ _ _ member => absurd member List.not_mem_nil

theorem close_closings (socket : SocketPtr) (closeReason : Word) (onClose : Callback) :
    ∀ w, holds w → ∀ closing ∈ w.closeClosings socket closeReason onClose.closings,
      good closing :=
  fun _ kept => World.closeClosings_forall kept begins rules socket closeReason
    (rules.callback_closings begins onClose)

/-- What holds where `on_close` is invoked, in an event. -/
theorem dispatch_closings (event : PollerEvent) (socket : SocketPtr) (script : EventScript)
    {w : World} (kept : holds w) :
    ∀ closing ∈ w.dispatchClosings event socket script, good closing := by
  have nothing : ∀ state : World, holds state →
      ∀ closing ∈ ([] : List (SocketPtr × World)), good closing :=
    fun _ _ _ member => absurd member List.not_mem_nil
  have read : ∀ closing ∈ w.readClosings event socket script, good closing := by
    rw [World.readClosings]
    split
    · cases socket.kind with
      | client =>
          exact rules.callback_closings begins script.onRead _
            (rules.invoke w (.onRead socket) rfl kept)
      | server => exact rules.accept_closings begins socket script.onAccepts w kept
    · exact nothing w kept
  have write : ∀ w, holds w →
      ∀ closing ∈ World.writeClosings w event socket script, good closing := by
    intro w kept
    rw [World.writeClosings]
    split
    · cases socket.kind with
      | client =>
          exact rules.callback_closings begins script.onWrite _
            (rules.invoke w (.onWrite socket) rfl kept)
      | server => exact nothing w kept
    · exact nothing w kept
  have closeBit : ∀ w, holds w →
      ∀ closing ∈ World.closeBitClosings w event socket script, good closing := by
    intro w kept
    rw [World.closeBitClosings]
    split
    · exact rules.close_closings begins socket event.closeReason script.onClose w kept
    · exact nothing w kept
  have wrote : holds
      ((w.readEvent event socket script).andThen fun w => w.writeEvent event socket script).1 :=
    Outcome.andThen_keeps (rules.readEvent kept event socket script)
      fun _ _ held => rules.writeEvent held event socket script
  rw [World.dispatchClosings]
  refine List.forall_mem_append.mpr ⟨List.forall_mem_append.mpr
    ⟨List.forall_mem_append.mpr ⟨read, ?_⟩, ?_⟩, ?_⟩
  · exact Outcome.noted_forall (rules.readEvent kept event socket script) write nothing
  · exact Outcome.noted_forall wrote closeBit nothing
  · exact Outcome.noted_forall (rules.tryEvent kept event socket script) nothing
      (rules.close_closings begins socket 0 script.onHandlerClose)

end EventRules

/-- **What holds where `on_close` is invoked**, in a step: what holds at the start of each close, in
the worlds that the rules of the step keep. -/
theorem StepRules.closings {allowed : World → WorldOp → Prop} (rules : StepRules allowed holds)
    (good : SocketPtr × World → Prop)
    (begins : ∀ w socket closeReason, (w.sockets socket).state ≠ .invalid → holds w →
      good (socket, w.beginClose socket closeReason))
    {w : World} (kept : holds w) (op : WorldOp) : ∀ closing ∈ w.closings op, good closing := by
  cases op with
  | poll id batch waitClock eventClock schedulerClock =>
      exact fun _ member => absurd member List.not_mem_nil
  | event id position script =>
      have taken := rules.next w id position kept
      simp only [World.closings]
      split
      · exact fun _ member => absurd member List.not_mem_nil
      · split
        · exact fun _ member => absurd member List.not_mem_nil
        · exact rules.dispatch_closings begins _ _ script (rules.took _ id _ taken)
  | other script => exact rules.callback_closings begins script w kept

end Rules

/-! ## The invocations in the log -/

/-- The socket whose `on_close` an entry is. -/
def Entry.closes : Entry → Option SocketPtr
  | .onClose socket _ => some socket
  | _ => none

/-- The sockets whose `on_close` was invoked, the last one first. -/
def closedSockets (log : List Entry) : List SocketPtr := log.filterMap Entry.closes

namespace World

theorem removeSocket_closedSockets (w : World) (id : PollerId) (socket : SocketPtr) :
    closedSockets (w.removeSocket id (some socket)).log = closedSockets w.log := by
  have noted : closedSockets (w.noteClash id socket).log = closedSockets w.log := by
    rw [noteClash]
    split <;> rfl
  simp only [removeSocket]
  split
  · exact noted
  · exact noted

/-- Only `close` invokes `on_close`. -/
theorem callRules_closedSockets (closed : List SocketPtr) :
    CallRules fun w => closedSockets w.log = closed where
  removeSocket := fun w id socket same => (w.removeSocket_closedSockets id socket).trans same
  updateSocket := by
    intro w id socket _ _ _ _ p _ same
    rw [setPoller_log, noteClash]
    split <;> exact same
  signal := fun _ _ _ same => same
  setAttached := fun _ _ _ same => same
  registered := fun _ _ _ same => same

theorem call_closedSockets {w after : World} {made : Call} (called : w.call made = .ok after) :
    closedSockets after.log = closedSockets w.log :=
  (callRules_closedSockets _).call rfl called

theorem beginClose_closedSockets (w : World) (socket : SocketPtr) (closeReason : Word) :
    closedSockets (w.beginClose socket closeReason).log = socket :: closedSockets w.log :=
  congrArg (socket :: ·)
    ((callRules_closedSockets (closedSockets w.log)).removeFromPoller
      (w := w.setState socket .invalid) rfl socket)

theorem note_closedSockets {w : World} {entry : Entry} (invokes : entry.invokes.isSome) :
    closedSockets (w.note entry).log = closedSockets w.log := by
  cases entry with
  | onClose _ _ => cases invokes
  | _ => rfl

/-- Only `close` changes the state of a socket. -/
theorem callRules_state (socket : SocketPtr) (state : SocketState) :
    CallRules fun w => (w.sockets socket).state = state where
  removeSocket := by
    intro w id other same
    rw [removeSocket_sockets]
    exact same
  updateSocket := by
    intro w id other _ _ _ _ p _ same
    rw [setPoller_sockets, noteClash_sockets]
    exact same
  signal := fun _ _ _ same => same
  setAttached := by
    intro w other poller same
    rw [setAttached_sockets, Function.update_apply]
    split
    · rename_i equal
      rw [← equal]
      exact same
    · exact same
  registered := fun _ _ _ same => same

theorem call_state {w after : World} {made : Call} (called : w.call made = .ok after)
    (socket : SocketPtr) : (after.sockets socket).state = (w.sockets socket).state :=
  (callRules_state socket _).call rfl called

theorem beginClose_state (w : World) (socket : SocketPtr) (closeReason : Word)
    (other : SocketPtr) :
    ((w.beginClose socket closeReason).sockets other).state =
      if other = socket then .invalid else (w.sockets other).state := by
  refine (callRules_state other _).removeFromPoller (w := w.setState socket .invalid) ?_ socket
  rw [setState_sockets, Function.update_apply]
  split <;> rfl

/-- The log got the invocations that were collected. -/
def Collected (w : World) (collected : List (SocketPtr × World))
    (outcome : Outcome World Assertion) : Prop :=
  closedSockets outcome.1.log = (collected.map Prod.fst).reverse ++ closedSockets w.log

namespace Collected

variable {w : World} {collected : List (SocketPtr × World)} {first : Outcome World Assertion}
  {next handler : World → Outcome World Assertion}
  {onReturn onThrow : World → List (SocketPtr × World)}

theorem nothing (exit : Exit Assertion) : Collected w [] (w, exit) := rfl

theorem resume (head : Collected w collected first)
    (returned : ∀ w, Collected w (onReturn w) (next w))
    (threw : ∀ w, Collected w (onThrow w) (handler w)) :
    Collected w (collected ++ first.noted onReturn onThrow) (first.resume next handler) := by
  obtain ⟨state, exit⟩ := first
  rw [Collected, List.map_append, List.reverse_append, List.append_assoc]
  cases exit with
  | returned => exact (returned state).trans (congrArg _ head)
  | threw => exact (threw state).trans (congrArg _ head)
  | aborted failed => exact head

theorem andThen (head : Collected w collected first)
    (returned : ∀ w, Collected w (onReturn w) (next w)) :
    Collected w (collected ++ first.noted onReturn fun _ => []) (first.andThen next) := by
  have both := head.resume returned fun _ => nothing .threw
  obtain ⟨state, exit⟩ := first
  cases exit <;> exact both

theorem rescue (head : Collected w collected first)
    (threw : ∀ w, Collected w (onThrow w) (handler w)) :
    Collected w (collected ++ first.noted (fun _ => []) onThrow) (first.rescue handler) := by
  have both := head.resume (fun _ => nothing .returned) threw
  obtain ⟨state, exit⟩ := first
  cases exit <;> exact both

/-- An entry that is noted before is none of `on_close`. -/
theorem of_note (entry : Entry) (closes : entry.closes = none)
    (rest : Collected (w.note entry) collected first) : Collected w collected first := by
  rw [Collected, note_log, closedSockets, closedSockets, List.filterMap_cons_none closes] at rest
  exact rest

theorem close (socket : SocketPtr) (closeReason : Word) {onClose : Callback}
    (callback : ∀ w, Collected w (onClose.closings w) (onClose.run w)) (w : World) :
    Collected w (w.closeClosings socket closeReason onClose.closings)
      (w.close socket closeReason onClose.run) := by
  rw [World.closeClosings, World.close]
  split
  · exact nothing _
  · have nested := callback (w.beginClose socket closeReason)
    rw [Collected, beginClose_closedSockets] at nested
    rw [Collected, nested, List.map_cons, List.reverse_cons, List.append_assoc]
    rfl

theorem run (callback : Callback) :
    ∀ w, Collected w (callback.closings w) (callback.run w) := by
  induction callback with
  | done => exact fun _ => nothing _
  | throw => exact fun _ => nothing _
  | call made next ih =>
      intro w
      rw [Callback.closings, Callback.run]
      cases called : w.call made with
      | error failed => exact nothing _
      | ok after =>
          have rest := ih after
          rw [Collected, call_closedSockets called] at rest
          exact rest
  | updatePollMask socket mask timeout readClock writeClock next rescue ihNext ihRescue =>
      intro w
      rw [Callback.closings, Callback.run]
      cases attached : (w.sockets socket).poller with
      | none => exact ihRescue w
      | some poller =>
          cases called : w.updateSocket poller (some socket) mask timeout readClock writeClock with
          | error failed =>
              simp only [called]
              exact nothing _
          | ok after =>
              have updated : w.call (.updateSocket poller (some socket) mask timeout readClock
                writeClock) = .ok after := called
              have rest := ihNext after
              rw [Collected, call_closedSockets updated] at rest
              simp only [called]
              exact rest
  | close socket closeReason onClose next rescue ihClose ihNext ihRescue =>
      intro w
      rw [Callback.closings, Callback.run]
      exact (close socket closeReason ihClose w).resume ihNext ihRescue

theorem accept (socket : SocketPtr) (onAccepts : List Callback) :
    ∀ w, Collected w (w.acceptClosings socket onAccepts) (w.accept socket onAccepts) := by
  induction onAccepts with
  | nil => exact fun _ => nothing _
  | cons onAccept rest ih =>
      intro w
      rw [World.acceptClosings, World.accept]
      exact (of_note (.onAccept socket) rfl (run onAccept _)).andThen ih

theorem dispatch (event : PollerEvent) (socket : SocketPtr) (script : EventScript) (w : World) :
    Collected w (w.dispatchClosings event socket script) (w.dispatch event socket script) := by
  have read : Collected w (w.readClosings event socket script)
      (w.readEvent event socket script) := by
    rw [readClosings, readEvent, World.read]
    split
    · cases socket.kind with
      | client => exact of_note (.onRead socket) rfl (run script.onRead _)
      | server => exact accept socket script.onAccepts w
    · exact nothing _
  have write : ∀ w, Collected w (World.writeClosings w event socket script)
      (w.writeEvent event socket script) := by
    intro w
    rw [writeClosings, writeEvent, World.write]
    split
    · cases socket.kind with
      | client => exact of_note (.onWrite socket) rfl (run script.onWrite _)
      | server => exact nothing _
    · exact nothing _
  have closeBit : ∀ w, Collected w (World.closeBitClosings w event socket script)
      (w.closeEvent event socket script) := by
    intro w
    rw [closeBitClosings, closeEvent]
    split
    · exact close socket event.closeReason (run script.onClose) w
    · exact nothing _
  exact ((read.andThen write).andThen closeBit).rescue
    (close socket 0 (run script.onHandlerClose))

end Collected

/-- **The log has the invocations of `on_close`** that a step makes, in their order. -/
theorem closings_log (w : World) (op : WorldOp) :
    closedSockets (w.exec op).1.log =
      ((w.closings op).map Prod.fst).reverse ++ closedSockets w.log := by
  cases op with
  | poll id batch waitClock eventClock schedulerClock =>
      rw [exec]
      split <;> rfl
  | event id position script =>
      simp only [exec, closings, turn]
      cases ((w.pollers id).getNextEvent position).1.socket with
      | none => rfl
      | some socket =>
          by_cases zero : ((w.pollers id).getNextEvent position).1.action = 0
          · simp only [if_pos zero]
            rfl
          · simp only [if_neg zero]
            exact Collected.of_note (.took id _) rfl (.dispatch _ socket script _)
  | other script => exact Collected.run script w

/-! ## Once -/

/-- A socket whose `on_close` was invoked is closed, and the invocations are of different
sockets. -/
structure ClosedOnce (w : World) : Prop where
  distinct : (closedSockets w.log).Nodup
  invalid : ∀ socket ∈ closedSockets w.log, (w.sockets socket).state = .invalid

namespace ClosedOnce

variable {w after : World}

theorem congr (once : w.ClosedOnce) (log : closedSockets after.log = closedSockets w.log)
    (states : ∀ socket, (after.sockets socket).state = (w.sockets socket).state) :
    after.ClosedOnce where
  distinct := log.symm ▸ once.distinct
  invalid := by
    intro socket closed
    rw [states socket]
    exact once.invalid socket (log ▸ closed)

/-- A close that passes the guard is the first of its socket. -/
theorem beginClose (once : w.ClosedOnce) {socket : SocketPtr} {closeReason : Word}
    (open_ : (w.sockets socket).state ≠ .invalid) :
    (w.beginClose socket closeReason).ClosedOnce := by
  refine ⟨?_, ?_⟩
  · rw [beginClose_closedSockets]
    exact List.nodup_cons.mpr ⟨fun closed => open_ (once.invalid socket closed), once.distinct⟩
  · intro other closed
    rw [beginClose_closedSockets] at closed
    rw [beginClose_state]
    split
    · rfl
    · rename_i different
      exact once.invalid other ((List.mem_cons.mp closed).resolve_left different)

theorem stepRules (allowed : World → WorldOp → Prop) : StepRules allowed ClosedOnce where
  call := fun _ _ _ once called => once.congr (call_closedSockets called) (call_state called)
  beginClose := fun _ _ _ open_ once => once.beginClose open_
  invoke := fun _ _ invokes once => once.congr (note_closedSockets invokes) fun _ => rfl
  poll := fun _ _ _ _ _ _ _ _ once _ => once.congr rfl fun _ => rfl
  next := fun _ _ _ once => once.congr rfl fun _ => rfl
  took := fun _ _ _ once => once.congr rfl fun _ => rfl

end ClosedOnce

/-! ## Detached -/

/-- A socket that is in no map, has no pending event, and has no timer under its descriptor with any
poller that has no other socket there. -/
structure Detached (w : World) (socket : SocketPtr) : Prop where
  unregistered : ∀ id fd, (w.pollers id).sockets fd ≠ some socket
  silent : ∀ id, ∀ event ∈ (w.pollers id).outEvents, event.socket ≠ some socket
  untimed : ∀ id, (∀ stranger, (w.pollers id).sockets socket.fd = some stranger →
    stranger = socket) → (w.pollers id).scheduler.deadline socket.fd = none

/-- The timers of every poller are those of its registered sockets. -/
def Timed (w : World) : Prop := ∀ id, TimersAgree (w.pollers id)

/-- A poll of the step does not process a stop. -/
def Quiet (w : World) : WorldOp → Prop
  | .poll id batch waitClock eventClock schedulerClock =>
      ¬ (w.pollers id).ReadsStop (.poll batch waitClock eventClock schedulerClock)
  | _ => True

instance (w : World) : (op : WorldOp) → Decidable (w.Quiet op)
  | .poll id batch waitClock eventClock schedulerClock =>
      inferInstanceAs (Decidable (¬ (w.pollers id).ReadsStop
        (.poll batch waitClock eventClock schedulerClock)))
  | .event .. | .other _ => inferInstanceAs (Decidable True)

theorem Timed.setPoller {w : World} (timed : w.Timed) {id : PollerId} {p : Poller}
    (agree : TimersAgree p) : (w.setPoller id p).Timed := by
  intro other
  rw [setPoller_pollers]
  by_cases same : other = id
  · rw [same, Function.update_self]
    exact agree
  · rw [Function.update_of_ne same]
    exact timed other

theorem stepRules_timed : StepRules Quiet Timed where
  toEventRules := Primitives.eventRules
    { removeSocket := by
        intro w id socket timed
        have removed : (w.setPoller id ((w.pollers id).removeSocket (some socket))).Timed :=
          timed.setPoller ((timed id).removeSocket socket)
        intro other
        rw [removeSocket_pollers]
        exact removed other
      updateSocket := by
        intro w id socket _ _ _ _ p returned timed
        have noted : (w.noteClash id socket).Timed := by
          intro other
          rw [noteClash_pollers]
          exact timed other
        exact noted.setPoller ((timed id).updateSocket returned)
      signal := fun w id sent timed => timed.setPoller ((timed id).congr rfl rfl)
      setAttached := fun _ _ _ timed => timed
      setState := fun _ _ _ timed => timed
      note := fun _ _ _ timed => timed }
  poll := by
    intro w id batch waitClock eventClock schedulerClock p quiet timed polled
    have stepped : (w.pollers id).step (.poll batch waitClock eventClock schedulerClock) = .ok p :=
      polled
    exact timed.setPoller ((timed id).step quiet stepped)
  next := fun w id position timed => timed.setPoller ((timed id).getNextEvent position)
  took := fun _ _ _ timed => timed

/-- Where `on_close` of a socket is invoked, the socket is detached. -/
theorem detached_beginClose {w : World} {socket : SocketPtr} {closeReason : Word}
    (fitting : Fitting Strict (w.beginClose socket closeReason))
    (timed : (w.beginClose socket closeReason).Timed) :
    (w.beginClose socket closeReason).Detached socket := by
  have unregistered : ∀ id, ¬ (w.beginClose socket closeReason).Registered id socket := by
    intro id registered
    have open_ := (fitting.closed id socket registered).resolve_left not_false
    rw [World.beginClose, note_log, closedSince, decide_eq_true rfl, Bool.true_or] at open_
    cases open_
  refine ⟨?_, ?_, ?_⟩
  · intro id fd stored
    obtain ⟨context, found, rfl⟩ := Poller.sockets_eq_some.mp stored
    obtain rfl := (fitting.listed id).keys _ _ found
    exact unregistered id stored
  · intro id event member belongs
    exact unregistered id ((fitting.listed id).pending event member socket belongs)
  · intro id sole
    apply (timed id).deadline_of_absent
    rw [← Poller.sockets_eq_none]
    cases stored : ((w.beginClose socket closeReason).pollers id).sockets socket.fd with
    | none => rfl
    | some stranger =>
        obtain rfl := sole stranger stored
        exact absurd stored (unregistered id)

/-- **`on_close` runs once, and on a detached socket.** In every run in which no stop is processed,
and whatever the callbacks do and throw: `on_close` is invoked once for a socket at most; and where
it is invoked, the socket is detached, unless a call was made on the descriptor of another live
socket before. -/
theorem on_close_runs_once_and_detached {eventFds : PollerId → FD}
    {states : SocketPtr → SocketState} {ops : List WorldOp} {w : World} {op : WorldOp}
    (reached : Run step Quiet (start eventFds states) ops w) (quiet : w.Quiet op) :
    (closedSockets (w.exec op).1.log).Nodup ∧
      ∀ closing ∈ w.closings op, ¬ closing.2.Marked → closing.2.Detached closing.1 := by
  have once : (w.exec op).1.ClosedOnce := by
    have rules := ClosedOnce.stepRules Quiet
    have initial : (start eventFds states).ClosedOnce :=
      ⟨List.nodup_nil, fun _ closed => absurd closed List.not_mem_nil⟩
    exact rules.exec op quiet (rules.run initial reached)
  refine ⟨once.distinct, ?_⟩
  have settled := stepRules_settled Quiet
  have both : StepRules Quiet fun w => w.Settled ∧ w.Timed := settled.and stepRules_timed
  refine both.closings (fun closing => ¬ closing.2.Marked → closing.2.Detached closing.1) ?_
    (both.run ⟨.start eventFds states, fun id => .create (eventFds id)⟩ reached) op
  intro w socket closeReason open_ kept unmarked
  have begun := both.beginClose w socket closeReason open_ kept
  exact detached_beginClose (begun.1.resolve_left unmarked) begun.2

/-- Two sockets are registered, and one of them is reported. -/
def registeredOps : List WorldOp :=
  [.other (.call (.updateSocket 0 (some ⟨0, 7, .client⟩) epollIn 1000 0 0)
      (.call (.updateSocket 0 (some ⟨1, 8, .client⟩) epollIn 1000 0 0) .done)),
    .poll 0 [⟨7, epollIn ||| epollHup⟩] 1 2 2]

def registeredWorld : World :=
  (checkedRun step Quiet (start (fun _ => 3) fun _ => .ready) registeredOps).get
    (by decide +kernel)

/-- Its `on_read` closes the other socket, whose `on_close` closes the first one and both once more,
and everything throws. -/
def nestedCloses : WorldOp :=
  .event 0 0
    { onRead :=
        .close ⟨1, 8, .client⟩ 0
          (.close ⟨0, 7, .client⟩ 0 (.close ⟨1, 8, .client⟩ 0 .done .throw .done) .done
            (.close ⟨0, 7, .client⟩ 0 .done .throw .done))
          .done .throw
      onClose := .throw
      onHandlerClose := .throw }

example : closedSockets (registeredWorld.exec nestedCloses).1.log =
    [⟨0, 7, .client⟩, ⟨1, 8, .client⟩] := by
  decide +kernel

theorem on_close_runs_once_and_detached_nested :
    (closedSockets (registeredWorld.exec nestedCloses).1.log).Nodup ∧
      ∀ closing ∈ registeredWorld.closings nestedCloses, ¬ closing.2.Marked →
        closing.2.Detached closing.1 :=
  on_close_runs_once_and_detached (Run.of_isSome _) trivial

end World

end Jasl
