import Jasl.Reactor.Closings

/-!
# A CLOSE event detaches its socket

The reactor leaves it to `Socket::close` to take a socket out of the map, and
`close` does nothing for a socket that is closed already. `update_socket` asks the
map alone: it registers a closed socket again, and then no CLOSE event takes it out
(`closed_socket_stays_registered`).

As long as `update_socket` registers no socket after its `on_close`
(`RegistersOpen`), a closed socket is in no map, and the socket of a CLOSE event is
closed after the event (`close_event_detaches`).
-/

set_option autoImplicit false

namespace Jasl

open Library

/-- No socket is registered after its `on_close`, in a log with the newest entry first. -/
def RegistersOpen : List Entry → Prop
  | [] => True
  | .registered _ socket :: earlier => socket ∉ closedSockets earlier ∧ RegistersOpen earlier
  | _ :: earlier => RegistersOpen earlier

instance decidableRegistersOpen : (log : List Entry) → Decidable (RegistersOpen log)
  | [] => inferInstanceAs (Decidable True)
  | .registered _ socket :: earlier =>
      let _ := decidableRegistersOpen earlier
      inferInstanceAs (Decidable (socket ∉ closedSockets earlier ∧ RegistersOpen earlier))
  | .took _ _ :: earlier | .onRead _ :: earlier | .onWrite _ :: earlier
  | .onAccept _ :: earlier | .onClose _ _ :: earlier | .removed _ _ :: earlier
  | .clash _ _ :: earlier => decidableRegistersOpen earlier

/-- A socket that was closed stays closed where none is registered after its `on_close`. -/
theorem RegistersOpen.closedSince {log : List Entry} :
    RegistersOpen log → ∀ socket ∈ closedSockets log, closedSince socket log = true := by
  induction log with
  | nil => exact fun _ _ closed => absurd closed List.not_mem_nil
  | cons entry earlier ih =>
      intro opened socket closed
      cases entry with
      | onClose closing closeReason =>
          rw [Jasl.closedSince]
          rcases List.mem_cons.mp closed with rfl | before
          · rw [decide_eq_true rfl, Bool.true_or]
          · rw [ih opened socket before, Bool.or_true]
      | registered poller registered =>
          have different : registered ≠ socket := by
            rintro rfl
            exact opened.1 closed
          rw [Jasl.closedSince, decide_eq_true different, Bool.true_and]
          exact ih opened.2 socket closed
      | _ => exact ih opened socket closed

namespace World

/-! ## Closed sockets -/

/-- Every closed socket was closed by `close`. -/
def InvalidClosed (w : World) : Prop :=
  ∀ socket, (w.sockets socket).state = .invalid → socket ∈ closedSockets w.log

namespace InvalidClosed

variable {w after : World}

theorem start (eventFds : PollerId → FD) {states : SocketPtr → SocketState}
    (opened : ∀ socket, states socket ≠ .invalid) : (World.start eventFds states).InvalidClosed :=
  fun socket invalid => absurd invalid (opened socket)

theorem congr (closed : w.InvalidClosed) (log : closedSockets after.log = closedSockets w.log)
    (states : ∀ socket, (after.sockets socket).state = (w.sockets socket).state) :
    after.InvalidClosed := by
  intro socket invalid
  rw [log]
  rw [states socket] at invalid
  exact closed socket invalid

theorem beginClose (closed : w.InvalidClosed) (socket : SocketPtr) (closeReason : Word) :
    (w.beginClose socket closeReason).InvalidClosed := by
  intro other invalid
  rw [beginClose_closedSockets]
  rw [beginClose_state] at invalid
  by_cases same : other = socket
  · rw [same]
    exact List.mem_cons_self
  · rw [if_neg same] at invalid
    exact List.mem_cons_of_mem _ (closed other invalid)

theorem stepRules (allowed : World → WorldOp → Prop) : StepRules allowed InvalidClosed where
  call := fun _ _ _ closed called => closed.congr (call_closedSockets called) (call_state called)
  beginClose := fun _ socket closeReason _ closed => closed.beginClose socket closeReason
  invoke := fun _ _ invokes closed => closed.congr (note_closedSockets invokes) fun _ => rfl
  poll := fun _ _ _ _ _ _ _ _ closed _ => closed.congr rfl fun _ => rfl
  next := fun _ _ _ closed => closed.congr rfl fun _ => rfl
  took := fun _ _ _ closed => closed.congr rfl fun _ => rfl

end InvalidClosed

/-- A closed socket stays closed. -/
theorem stepRules_invalid (allowed : World → WorldOp → Prop) (socket : SocketPtr) :
    StepRules allowed fun w => (w.sockets socket).state = .invalid where
  call := fun _ _ _ invalid called => (call_state called socket).trans invalid
  beginClose := by
    intro w closing closeReason _ invalid
    rw [beginClose_state, invalid, ite_self]
  invoke := fun _ _ _ invalid => invalid
  poll := fun _ _ _ _ _ _ _ _ invalid _ => invalid
  next := fun _ _ _ invalid => invalid
  took := fun _ _ _ invalid => invalid

/-- A closed socket is in no map, where none is registered after its `on_close`. -/
theorem Fitting.unregistered {w : World} (fitting : Fitting Strict w) (closed : w.InvalidClosed)
    (registersOpen : RegistersOpen w.log) {socket : SocketPtr}
    (invalid : (w.sockets socket).state = .invalid) (id : PollerId) (fd : FD) :
    (w.pollers id).sockets fd ≠ some socket := by
  intro stored
  obtain ⟨context, found, rfl⟩ := Poller.sockets_eq_some.mp stored
  obtain rfl := (fitting.listed id).keys _ _ found
  have open_ := (fitting.closed id context.socket stored).resolve_left not_false
  rw [registersOpen.closedSince context.socket (closed _ invalid)] at open_
  cases open_

/-! ## CLOSE events -/

/-- After `close` the socket is closed. -/
theorem close_invalid (w : World) (socket : SocketPtr) (closeReason : Word) (onClose : Callback) :
    ((w.close socket closeReason onClose.run).1.sockets socket).state = .invalid := by
  rw [World.close]
  split
  · assumption
  · have rules := (stepRules_invalid (fun _ _ => True) socket).toEventRules
    apply rules.run
    rw [beginClose_state, if_pos rfl]

/-- The handler or the CLOSE bit closes the socket of a CLOSE event that no assertion stops. -/
theorem dispatch_invalid {w : World} {event : PollerEvent} {socket : SocketPtr}
    {script : EventScript} (close : event.action.has PollerEvent.close = true)
    (finished : ∀ failed, (w.dispatch event socket script).2 ≠ .aborted failed) :
    ((w.dispatch event socket script).1.sockets socket).state = .invalid := by
  have closes : ∀ before : World,
      ((before.closeEvent event socket script).1.sockets socket).state = .invalid := by
    intro before
    rw [closeEvent, if_pos close]
    exact close_invalid before socket event.closeReason script.onClose
  have handles : ∀ before : World,
      ((before.close socket 0 script.onHandlerClose.run).1.sockets socket).state = .invalid :=
    fun before => close_invalid before socket 0 script.onHandlerClose
  rw [dispatch, tryEvent] at finished ⊢
  generalize (w.readEvent event socket script).andThen
    (fun w => w.writeEvent event socket script) = wrote at finished ⊢
  obtain ⟨before, exit⟩ := wrote
  cases exit with
  | returned =>
      have invalid := closes before
      change (((before.closeEvent event socket script).rescue _).1.sockets socket).state = .invalid
      generalize before.closeEvent event socket script = closed at invalid
      obtain ⟨after, exit⟩ := closed
      cases exit with
      | returned => exact invalid
      | threw => exact handles after
      | aborted _ => exact invalid
  | threw => exact handles before
  | aborted failed => exact absurd rfl (finished failed)

/-- What a CLOSE event is to leave behind: its socket in no map. -/
def DetachesClosed (w : World) (op : WorldOp) : Prop :=
  ∀ id position script event socket, op = .event id position script →
    (w.pollers id).outEvents.pick position = some event → event.socket = some socket →
      event.action.has PollerEvent.close = true → (∀ failed, (w.exec op).2 ≠ .aborted failed) →
        ∀ other fd, ((w.exec op).1.pollers other).sockets fd ≠ some socket

/-- No closed socket is in a map. -/
def ClosedUnregistered (w : World) : Prop :=
  ∀ socket, (w.sockets socket).state = .invalid →
    ∀ id fd, (w.pollers id).sockets fd ≠ some socket

/-- **A CLOSE event detaches its socket**, and no closed socket is in a map, in every run in which
no socket is registered after its `on_close` and no call is made on the descriptor of another live
socket. -/
theorem close_event_detaches {eventFds : PollerId → FD} {states : SocketPtr → SocketState}
    {ops : List WorldOp} {w : World} {op : WorldOp}
    (opened : ∀ socket, states socket ≠ .invalid)
    (reached : Run step (fun _ _ => True) (start eventFds states) ops w)
    (unmarked : ¬ (w.exec op).1.Marked) (registersOpen : RegistersOpen (w.exec op).1.log) :
    w.DetachesClosed op ∧ (w.exec op).1.ClosedUnregistered := by
  have both := (stepRules_settled fun _ _ => True).and (InvalidClosed.stepRules _)
  have kept := both.exec op trivial
    (both.run ⟨.start eventFds states, .start eventFds opened⟩ reached)
  have unregistered : (w.exec op).1.ClosedUnregistered := fun socket =>
    (kept.1.resolve_left unmarked).unregistered kept.2 registersOpen
  refine ⟨?_, unregistered⟩
  rintro id position script event socket rfl picked belongs close finished other fd
  apply unregistered socket
  obtain ⟨target, action, closeReason⟩ := event
  obtain rfl : target = some socket := belongs
  have acts : action ≠ 0 := by
    rintro rfl
    cases (BitVec.zero_has PollerEvent.close).symm.trans close
  simp only [exec, turn, Poller.getNextEvent, picked, if_neg acts] at finished ⊢
  exact dispatch_invalid close finished

/-- A socket is registered and its peer hangs up. -/
def hangUpOps : List WorldOp :=
  [.other (.call (.updateSocket 0 (some ⟨0, 7, .client⟩) epollIn 1000 0 0) .done),
    .poll 0 [⟨7, epollHup⟩] 1 2 2]

def hangUpWorld : World :=
  (checkedRun step (fun _ _ => True) (start (fun _ => 3) fun _ => .ready) hangUpOps).get
    (by decide +kernel)

/-- The first pending event, with callbacks that do nothing. -/
def idleEvent : WorldOp := .event 0 0 {}

theorem close_event_detaches_hung_up :
    hangUpWorld.DetachesClosed idleEvent ∧ (hangUpWorld.exec idleEvent).1.ClosedUnregistered :=
  close_event_detaches (fun _ => by decide) (Run.of_isSome _) (by decide +kernel)
    (by decide +kernel)

/-- The socket is closed and registered again before its peer hangs up. -/
def closedBeforeOps : List WorldOp :=
  [.other (.call (.updateSocket 0 (some ⟨0, 7, .client⟩) epollIn 1000 0 0)
      (.close ⟨0, 7, .client⟩ 0 .done
        (.call (.updateSocket 0 (some ⟨0, 7, .client⟩) epollIn 1000 0 0) .done) .done)),
    .poll 0 [⟨7, epollHup⟩] 1 2 2]

def closedBeforeWorld : World :=
  (checkedRun step (fun _ _ => True) (start (fun _ => 3) fun _ => .ready) closedBeforeOps).get
    (by decide +kernel)

/-- The CLOSE event of a closed socket leaves it registered. -/
theorem closed_socket_stays_registered :
    ¬ ∀ (eventFds : PollerId → FD) (states : SocketPtr → SocketState) (ops : List WorldOp)
      (w : World) (id : PollerId) (position : ℕ) (script : EventScript),
      (∀ socket, states socket ≠ .invalid) →
      Run step (fun _ _ => True) (start eventFds states) ops w →
      ¬ (w.exec (.event id position script)).1.Marked →
      script.onClose = .done → script.onHandlerClose = .done →
      w.DetachesClosed (.event id position script) ∧
        (w.exec (.event id position script)).1.ClosedUnregistered := by
  intro claim
  have detaches := (claim (fun _ => 3) (fun _ => .ready) closedBeforeOps closedBeforeWorld 0 0 {}
    (fun _ => by decide) (Run.of_isSome _) (by decide +kernel) rfl rfl).1
  have picked : (closedBeforeWorld.pollers 0).outEvents.pick 0 =
      some ⟨some ⟨0, 7, .client⟩, PollerEvent.close, PollerEvent.peerShutdown⟩ := by
    decide +kernel
  have returned : (closedBeforeWorld.exec (.event 0 0 {})).2 = .returned := by decide +kernel
  have finished : ∀ failed, (closedBeforeWorld.exec (.event 0 0 {})).2 ≠ .aborted failed := by
    rw [returned]
    exact nofun
  have detached := detaches 0 0 {} _ ⟨0, 7, .client⟩ rfl picked rfl (by decide) finished 0 7
  exact detached (by decide +kernel)

end World

end Jasl
