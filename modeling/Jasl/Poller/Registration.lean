import Jasl.Poller.PollerSteps

/-!
# Registered sockets

What holds of the sockets in `m_active_sockets` whatever the kernel and the
clock answer. Every context is stored under the descriptor of its socket
(`Keyed`), a processed stop included; polling changes no registration (`sockets`)
unless it processes a stop; and until then the kernel watches no other descriptors
(`Watched`). Beside it stand the assumptions on the callers and
the environment that several results share: a descriptor belongs to one live
socket at a time (`OwnDescriptor`), the kernel reports what it was asked to watch
(`ReportsWatched`), and the readings a call takes of the clock (`readings`).
-/

set_option autoImplicit false

namespace Jasl

open Library

namespace Poller

/-! ## The frame of the timers -/

/-- A turn of the loop of `process_scheduler` changes the timers and the pending events only. -/
theorem schedulerTurn_frame {p after : Poller} {now : Word} {payload : EventPayload}
    (turn : p.schedulerTurn now = some (payload, after)) :
    after = { p with scheduler := after.scheduler, outEvents := after.outEvents } := by
  obtain ⟨_, scheduler, -, -, -, outcome⟩ := schedulerTurn_eq_some turn
  cases outcome <;> rfl

theorem schedulerTurn_activeSockets {p after : Poller} {now : Word} {payload : EventPayload}
    (turn : p.schedulerTurn now = some (payload, after)) :
    after.activeSockets = p.activeSockets := by
  rw [schedulerTurn_frame turn]

/-- A turn of the loop of `process_scheduler` drops timers and adds none. -/
theorem schedulerTurn_deadline {p after : Poller} {now : Word} {payload : EventPayload}
    (turn : p.schedulerTurn now = some (payload, after)) {fd : FD} {time : Word}
    (scheduled : after.scheduler.deadline fd = some time) :
    p.scheduler.deadline fd = some time := by
  obtain ⟨_, scheduler, -, timers, -, outcome⟩ := schedulerTurn_eq_some turn
  cases outcome with
  | joins _ _ _ _ _ =>
      rw [Scheduler.deadline_deleteEvent] at scheduled
      have popped := TimerMap.of_removed scheduled
      rw [timers] at popped
      exact TimerMap.of_removed popped
  | _ =>
      change scheduler.deadline fd = some time at scheduled
      rw [timers] at scheduled
      exact TimerMap.of_removed scheduled

theorem processScheduler_frame (p : Poller) (now : Word) :
    p.processScheduler now =
      { p with
        scheduler := (p.processScheduler now).scheduler
        outEvents := (p.processScheduler now).outEvents } := by
  refine processScheduler_invariant
    (fun q => q = { p with scheduler := q.scheduler, outEvents := q.outEvents }) ?_ rfl
  intro before payload after same turn
  have frame := schedulerTurn_frame turn
  rw [same] at frame
  exact frame

@[simp] theorem processScheduler_activeSockets (p : Poller) (now : Word) :
    (p.processScheduler now).activeSockets = p.activeSockets := by
  rw [processScheduler_frame]

@[simp] theorem processScheduler_epollFd (p : Poller) (now : Word) :
    (p.processScheduler now).epollFd = p.epollFd := by
  rw [processScheduler_frame]

@[simp] theorem processScheduler_eventFd (p : Poller) (now : Word) :
    (p.processScheduler now).eventFd = p.eventFd := by
  rw [processScheduler_frame]

@[simp] theorem getNextEvent_activeSockets (p : Poller) (position : ℕ) :
    (p.getNextEvent position).2.activeSockets = p.activeSockets := by
  rw [getNextEvent]
  split <;> rfl

end Poller

/-! ## Contexts under their descriptors -/

/-- Every context is stored under the descriptor of its socket. -/
structure Keyed (p : Poller) : Prop where
  keys : ∀ fd context, p.activeSockets fd = some context → context.socket.fd = fd

namespace Keyed

variable {p after : Poller}

theorem create (eventFd : FD) : Keyed (Poller.create eventFd) := ⟨nofun⟩

theorem congr (keyed : Keyed p) (sockets : after.activeSockets = p.activeSockets) :
    Keyed after := by
  refine ⟨?_⟩
  rw [sockets]
  exact keyed.keys

theorem store (keyed : Keyed p) {fd : FD} {context : SocketContext}
    (key : context.socket.fd = fd)
    (sockets : after.activeSockets = Function.update p.activeSockets fd (some context)) :
    Keyed after := by
  refine ⟨?_⟩
  intro other stored found
  rw [sockets] at found
  by_cases same : other = fd
  · subst same
    rw [Function.update_self, Option.some.injEq] at found
    rw [← found]
    exact key
  · rw [Function.update_of_ne same] at found
    exact keyed.keys other stored found

theorem drop (keyed : Keyed p) {fd : FD}
    (sockets : after.activeSockets = Function.update p.activeSockets fd none) : Keyed after := by
  refine ⟨?_⟩
  intro other stored found
  rw [sockets] at found
  by_cases same : other = fd
  · subst same
    rw [Function.update_self] at found
    cases found
  · rw [Function.update_of_ne same] at found
    exact keyed.keys other stored found

/-- The context `update_socket` works on is the one of the descriptor of its socket. -/
theorem contextFor_fd (keyed : Keyed p) (socket : SocketPtr) :
    (p.contextFor socket).socket.fd = socket.fd := by
  cases found : p.activeSockets socket.fd with
  | none => rw [Poller.contextFor_of_none found]
  | some context =>
      rw [Poller.contextFor_of_some found]
      exact keyed.keys _ _ found

theorem updateSocket (keyed : Keyed p) {socket : SocketPtr}
    {eventMask timeoutStep readClock writeClock : Word}
    (returned : p.updateSocket (some socket) eventMask timeoutStep readClock writeClock =
      .ok after) : Keyed after := by
  have effect := Poller.updateSocket_eq_ok returned
  refine keyed.store ?_ effect.activeSockets
  rw [Poller.updatedContext_socket]
  exact keyed.contextFor_fd socket

theorem removeSocket (keyed : Keyed p) (socket : SocketPtr) :
    Keyed (p.removeSocket (some socket)) :=
  keyed.drop (p.removeSocket_activeSockets socket)

theorem processReport (keyed : Keyed p) {report : EpollEvent} {currentTime : Word}
    (returned : p.processReport report currentTime = .ok after) : Keyed after := by
  obtain ⟨context, effect⟩ := Poller.processReport_eq_ok returned
  refine keyed.store ?_ effect.activeSockets
  rw [SocketContext.refresh_socket]
  exact keyed.keys _ _ effect.found

theorem processEpollEvents (keyed : Keyed p) {batch : List EpollEvent} {currentTime : Word}
    (returned : p.processEpollEvents batch currentTime = .ok after) : Keyed after :=
  Poller.processEpollEvents_invariant Keyed (fun _ _ _ _ held processed => held.processReport processed)
    (fun _ _ held => held.congr rfl) (fun _ _ _ _ => ⟨nofun⟩) (fun _ _ held => held.congr rfl)
    keyed returned

/-- **Every call keeps the contexts under their descriptors.** -/
theorem step (keyed : Keyed p) {op : PollerOp} (returned : p.step op = .ok after) :
    Keyed after := by
  cases Poller.step_outcome returned with
  | updateNull | removeNull | nextEmpty => exact keyed
  | update => exact keyed.updateSocket returned
  | remove socket => exact keyed.removeSocket socket
  | poll succeeded =>
      exact (keyed.processEpollEvents succeeded).congr (Poller.processScheduler_activeSockets _ _)
  | next | signal => exact keyed.congr rfl

end Keyed

/-! ## Which sockets are registered -/

namespace Poller

/-- The registered sockets by their descriptors. -/
def sockets (p : Poller) (fd : FD) : Option SocketPtr :=
  (p.activeSockets fd).map SocketContext.socket

theorem sockets_eq_some {p : Poller} {fd : FD} {socket : SocketPtr} :
    p.sockets fd = some socket ↔
      ∃ context, p.activeSockets fd = some context ∧ context.socket = socket := by
  rw [sockets, Option.map_eq_some_iff]

theorem sockets_eq_none {p : Poller} {fd : FD} :
    p.sockets fd = none ↔ p.activeSockets fd = none := by
  rw [sockets, Option.map_eq_none_iff]

theorem sockets_congr {p after : Poller} (same : after.activeSockets = p.activeSockets) :
    after.sockets = p.sockets := by
  funext fd
  rw [sockets, sockets, same]

/-- Storing a context registers its socket. -/
theorem sockets_store {p after : Poller} {fd : FD} {context : Option SocketContext}
    (stored : after.activeSockets = Function.update p.activeSockets fd context) :
    after.sockets = Function.update p.sockets fd (context.map SocketContext.socket) := by
  funext other
  rw [sockets, stored]
  by_cases same : other = fd
  · rw [same, Function.update_self, Function.update_self]
  · rw [Function.update_of_ne same, Function.update_of_ne same, sockets]

theorem sockets_updateSocket {p after : Poller} {socket : SocketPtr}
    {eventMask timeoutStep readClock writeClock : Word}
    (returned : p.updateSocket (some socket) eventMask timeoutStep readClock writeClock =
      .ok after) :
    after.sockets = Function.update p.sockets socket.fd (some (p.contextFor socket).socket) := by
  have stored := sockets_store (updateSocket_eq_ok returned).activeSockets
  rwa [Option.map_some, updatedContext_socket] at stored

theorem sockets_removeSocket (p : Poller) (socket : SocketPtr) :
    (p.removeSocket (some socket)).sockets = Function.update p.sockets socket.fd none :=
  sockets_store (p.removeSocket_activeSockets socket)

/-- A report keeps the registrations. -/
theorem sockets_processReport {p after : Poller} {report : EpollEvent} {currentTime : Word}
    (returned : p.processReport report currentTime = .ok after) : after.sockets = p.sockets := by
  obtain ⟨context, effect⟩ := processReport_eq_ok returned
  have registered : p.sockets report.data = some context.socket :=
    sockets_eq_some.mpr ⟨context, effect.found, rfl⟩
  have stored := sockets_store effect.activeSockets
  rwa [Option.map_some, SocketContext.refresh_socket, ← registered,
    Function.update_eq_self] at stored

/-- `process_epoll_events` keeps the registrations, or processes a stop and forgets them. -/
theorem sockets_processEpollEvents {p after : Poller} {batch : List EpollEvent}
    {currentTime : Word} (returned : p.processEpollEvents batch currentTime = .ok after) :
    after.sockets = p.sockets ∨ after.sockets = fun _ => none :=
  processEpollEvents_invariant
    (fun q => q.sockets = p.sockets ∨ q.sockets = fun _ => none)
    (fun _ _ _ _ held processed => by
      rw [sockets_processReport processed]
      exact held)
    (fun _ _ held => held) (fun _ _ _ _ => .inr rfl) (fun _ _ held => held) (.inl rfl) returned

/-- Without a stop, `process_epoll_events` keeps the registrations. -/
theorem sockets_processEpollEvents_quiet {p after : Poller} {batch : List EpollEvent}
    {currentTime : Word} (quiet : ¬ p.StopReported batch)
    (returned : p.processEpollEvents batch currentTime = .ok after) : after.sockets = p.sockets :=
  processEpollEvents_quiet (fun q (_ : Unit) => q.sockets = p.sockets) (fun value _ => value) quiet
    (fun _ _ _ _ _ _ held processed => (sockets_processReport processed).trans held)
    (fun _ _ held => held) (fun _ _ _ held => held) () rfl returned

@[simp] theorem sockets_processScheduler (p : Poller) (now : Word) :
    (p.processScheduler now).sockets = p.sockets :=
  sockets_congr (p.processScheduler_activeSockets now)

/-- A poll keeps the registrations, or processes a stop and forgets them. -/
theorem sockets_poll {p after : Poller} {batch : List EpollEvent}
    {waitClock eventClock schedulerClock : Word}
    (returned : p.poll batch waitClock eventClock schedulerClock = .ok after) :
    after.sockets = p.sockets ∨ after.sockets = fun _ => none := by
  obtain ⟨processed, succeeded, rfl⟩ := poll_eq_ok returned
  rw [sockets_processScheduler]
  exact sockets_processEpollEvents succeeded

/-- A call that processes a stop forgets the registrations. -/
theorem sockets_of_stop {p after : Poller} {op : PollerOp} (stop : p.ReadsStop op)
    (returned : p.step op = .ok after) : after.sockets = fun _ => none := by
  cases op with
  | poll batch waitClock eventClock schedulerClock =>
      obtain ⟨processed, succeeded, rfl⟩ := poll_eq_ok returned
      funext fd
      rw [sockets_processScheduler, sockets_eq_none, (processEpollEvents_stop stop succeeded).1]
  | _ => exact absurd stop not_false

end Poller

/-! ## What the kernel watches -/

/-- The kernel watches no descriptor but the event descriptor and those of registered sockets. -/
structure Watched (p : Poller) : Prop extends Keyed p where
  registered : ∀ fd, fd ≠ p.eventFd → p.sockets fd = none → p.epollFd fd = none

namespace Watched

variable {p after : Poller}

theorem create (eventFd : FD) : Watched (Poller.create eventFd) where
  toKeyed := Keyed.create eventFd
  registered := by
    intro fd other _
    change epollCtlAdd (fun _ => none) eventFd (epollIn ||| epollHup ||| epollRdHup) fd = none
    rw [epollCtlAdd_apply]
    exact if_neg other

theorem congr (watched : Watched p) (keyed : Keyed after) (sockets : after.sockets = p.sockets)
    (interest : after.epollFd = p.epollFd) (eventFd : after.eventFd = p.eventFd) :
    Watched after where
  toKeyed := keyed
  registered := by
    rw [sockets, interest, eventFd]
    exact watched.registered

theorem updateSocket (watched : Watched p) {socket : SocketPtr}
    {eventMask timeoutStep readClock writeClock : Word}
    (returned : p.updateSocket (some socket) eventMask timeoutStep readClock writeClock =
      .ok after) : Watched after := by
  have effect := Poller.updateSocket_eq_ok returned
  refine ⟨watched.toKeyed.updateSocket returned, ?_⟩
  intro fd other absent
  rw [effect.eventFd] at other
  rw [Poller.sockets_updateSocket returned] at absent
  by_cases same : fd = socket.fd
  · rw [same, Function.update_self] at absent
    cases absent
  · rw [Function.update_of_ne same] at absent
    rw [effect.epollFd]
    split
    · rw [epollCtlAdd_apply, if_neg same]
      exact watched.registered fd other absent
    · rw [epollCtlMod_apply, if_neg same]
      exact watched.registered fd other absent

theorem removeSocket (watched : Watched p) (socket : SocketPtr) :
    Watched (p.removeSocket (some socket)) := by
  refine ⟨watched.toKeyed.removeSocket socket, ?_⟩
  intro fd other absent
  rw [Poller.removeSocket_eventFd] at other
  rw [Poller.sockets_removeSocket] at absent
  rw [Poller.removeSocket_epollFd, epollCtlDel]
  by_cases same : fd = socket.fd
  · rw [same, Function.update_self]
  · rw [Function.update_of_ne same] at absent ⊢
    exact watched.registered fd other absent

theorem processReport (watched : Watched p) {report : EpollEvent} {currentTime : Word}
    (returned : p.processReport report currentTime = .ok after) : Watched after := by
  obtain ⟨context, effect⟩ := Poller.processReport_eq_ok returned
  exact watched.congr (watched.toKeyed.processReport returned)
    (Poller.sockets_processReport returned) effect.epollFd effect.eventFd

end Watched

/-! ## Callers and environment -/

namespace Poller

/-- A descriptor is that of one live socket at a time, and the registered sockets are kept alive:
a call on a descriptor that is registered is made with the registered socket. -/
def OwnDescriptor (p : Poller) : PollerOp → Prop
  | .update (some socket) _ _ _ _ | .remove (some socket) =>
      ∀ registered ∈ p.sockets socket.fd, registered = socket
  | _ => True

instance (p : Poller) : (op : PollerOp) → Decidable (p.OwnDescriptor op)
  | .update (some socket) _ _ _ _ | .remove (some socket) =>
      inferInstanceAs (Decidable (∀ registered ∈ p.sockets socket.fd, registered = socket))
  | .update none .. | .remove none | .poll .. | .next _ | .signal _ =>
      inferInstanceAs (Decidable True)

/-- The context `update_socket` works on belongs to the socket of the call. -/
theorem contextFor_socket {p : Poller} {socket : SocketPtr}
    (own : ∀ registered ∈ p.sockets socket.fd, registered = socket) :
    (p.contextFor socket).socket = socket := by
  cases found : p.activeSockets socket.fd with
  | none => rw [contextFor_of_none found]
  | some context =>
      rw [contextFor_of_some found]
      exact own _ (sockets_eq_some.mpr ⟨context, found, rfl⟩)

/-- Registered after an update is the socket of the call, and what was registered before. -/
theorem registered_updateSocket {p after : Poller} {socket stranger : SocketPtr}
    {eventMask timeoutStep readClock writeClock : Word}
    (own : ∀ registered ∈ p.sockets socket.fd, registered = socket)
    (returned : p.updateSocket (some socket) eventMask timeoutStep readClock writeClock =
      .ok after) (registered : after.sockets stranger.fd = some stranger) :
    stranger = socket ∨ p.sockets stranger.fd = some stranger := by
  rw [sockets_updateSocket returned, contextFor_socket own] at registered
  by_cases same : stranger.fd = socket.fd
  · rw [same, Function.update_self] at registered
    exact .inl (Option.some.inj registered).symm
  · rw [Function.update_of_ne same] at registered
    exact .inr registered

/-- A socket that an update does not register is registered. -/
theorem registered_of_present {p : Poller} {socket : SocketPtr}
    (own : ∀ registered ∈ p.sockets socket.fd, registered = socket)
    (present : ¬ p.registers socket = true) : p.sockets socket.fd = some socket := by
  cases found : p.sockets socket.fd with
  | none =>
      rw [registers, sockets_eq_none.mp found] at present
      exact absurd rfl present
  | some holder => rw [own holder found]

/-- The reports that reach the sockets in a call. -/
def deliveredReports (p : Poller) : PollerOp → List EpollEvent
  | .poll batch waitClock _ _ => delivered p.eventFd p.eventCount (p.getEpollEvents waitClock batch)
  | _ => []

/-- The kernel reports what it was asked to watch, an error or a hangup. -/
def watches (interest : InterestSet) (report : EpollEvent) : Bool :=
  (interest report.data).any fun mask =>
    report.events &&& ~~~(mask ||| epollErr ||| epollHup) == 0#32

/-- The poller whose timers a poll processes: the reports are done. -/
def afterReports (p : Poller) (batch : List EpollEvent) (waitClock eventClock : Word) : Poller :=
  match p.processEpollEvents (p.getEpollEvents waitClock batch) eventClock with
  | .error _ => p
  | .ok processed => processed

theorem afterReports_of_ok {p processed : Poller} {batch : List EpollEvent}
    {waitClock eventClock : Word}
    (succeeded : p.processEpollEvents (p.getEpollEvents waitClock batch) eventClock =
      .ok processed) : p.afterReports batch waitClock eventClock = processed := by
  rw [afterReports, succeeded]

/-- Every timer that is due has a property. -/
def EveryDue (p : Poller) (now : Word) (holds : FD → Bool) : Prop :=
  ∀ event ∈ p.scheduler.events.nodes, event.key ≤ now → holds event.value = true

instance (p : Poller) (now : Word) (holds : FD → Bool) : Decidable (p.EveryDue now holds) :=
  inferInstanceAs (Decidable (∀ event ∈ p.scheduler.events.nodes, event.key ≤ now →
    holds event.value = true))

theorem EveryDue.at_timer {p : Poller} {now time : Word} {holds : FD → Bool} {fd : FD}
    (every : p.EveryDue now holds) (scheduled : p.scheduler.deadline fd = some time)
    (reached : time ≤ now) : holds fd = true := by
  obtain ⟨event, member, rfl, rfl⟩ := p.scheduler.linked.deadline_eq_some.mp scheduled
  exact every event member reached

/-- Every report that reaches a socket is one the kernel watches for. -/
def ReportsWatched (p : Poller) (op : PollerOp) : Prop :=
  ∀ report ∈ p.deliveredReports op, watches p.epollFd report

instance (p : Poller) (op : PollerOp) : Decidable (p.ReportsWatched op) :=
  inferInstanceAs (Decidable (∀ report ∈ p.deliveredReports op, watches p.epollFd report))

end Poller

/-- The readings of the clock in a call, in their order. -/
def PollerOp.readings : PollerOp → List Word
  | .update _ _ _ readClock writeClock => [readClock, writeClock]
  | .poll _ waitClock eventClock schedulerClock => [waitClock, eventClock, schedulerClock]
  | .remove _ | .next _ | .signal _ => []

/-- A mask passed to `update_socket` names directions, and nothing else. -/
def PollerOp.NamesDirections : PollerOp → Prop
  | .update _ eventMask _ _ _ => eventMask ≠ 0 ∧ eventMask &&& ~~~(epollIn ||| epollOut) = 0
  | _ => True

instance : (op : PollerOp) → Decidable op.NamesDirections
  | .update _ eventMask _ _ _ =>
      inferInstanceAs (Decidable (eventMask ≠ 0 ∧ eventMask &&& ~~~(epollIn ||| epollOut) = 0))
  | .remove _ | .poll .. | .next _ | .signal _ => inferInstanceAs (Decidable True)

end Jasl
