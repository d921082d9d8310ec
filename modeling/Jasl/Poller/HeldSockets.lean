import Jasl.Poller.KernelAgreement
import Jasl.Poller.RemovedSockets

/-!
# The sockets a poller holds

A poller has pointers to sockets in its map and in its pending events, and the kernel
watches descriptors for it. `Poller.Within` says that all of these are sockets of a list
and descriptors of sockets of that list; calls on sockets of the list keep it
(`Within.step`), when no two sockets of the list have one descriptor.

Where no two have, a call on one of them is a call on its own descriptor. So a poller
goes on by calls of which the runs of pollers assume that (`Proper`), and by releases of
descriptors that it holds no socket of.
-/

set_option autoImplicit false

namespace Jasl

open Library

/-! ## The pointers of a poller -/

/-- The socket of an `update_socket` or a `remove_socket`. -/
def PollerOp.target : PollerOp → Option SocketPtr
  | .update socket _ _ _ _ | .remove socket => socket
  | _ => none

namespace Poller

/-- The poller has a pointer to a socket, in its map or in a pending event. -/
def holds (p : Poller) (socket : SocketPtr) : Bool :=
  p.sockets socket.fd = some socket || (p.outEvents.find (some socket)).isSome

/-- The poller holds and watches nothing but sockets of a list. -/
structure Within (live : List SocketPtr) (p : Poller) : Prop extends Listed p where
  registered : ∀ fd socket, p.sockets fd = some socket → socket ∈ live
  watched : ∀ fd, p.epollFd fd ≠ none → fd = p.eventFd ∨ fd ∈ live.map SocketPtr.fd

/-- What a call is made on and what is released in it fit the descriptors that are open. -/
def Proper (p : Poller) (call : ReleasingCall) : Prop :=
  p.OpenDescriptors call ∧ p.OwnDescriptor call.op

/-- A poller gets from one state to another by calls of its own that fit. -/
def Proceeds (p after : Poller) : Prop := ∃ calls, Run releasingStep Proper p calls after

namespace Proceeds

variable {p next after : Poller}

theorem refl (p : Poller) : p.Proceeds p := ⟨[], .nil⟩

theorem trans (first : p.Proceeds next) (second : next.Proceeds after) : p.Proceeds after := by
  obtain ⟨calls, run⟩ := first
  obtain ⟨more, rest⟩ := second
  exact ⟨calls ++ more, run.append rest⟩

/-- A call in which nothing is released. -/
theorem of_step {op : PollerOp} (other : p.OtherDescriptor op) (own : p.OwnDescriptor op)
    (stepped : p.step op = .ok after) : p.Proceeds after := by
  refine ⟨[⟨op, []⟩], Run.single ⟨⟨other, List.not_mem_nil, ?_⟩, own⟩ ?_⟩
  · exact fun _ _ _ closed => absurd closed List.not_mem_nil
  · exact releasingStep_eq_ok.mpr ⟨after, stepped, after.release_nil.symm⟩

/-- Descriptors are closed behind a call. -/
theorem of_release {closed : List FD} (foreign : p.eventFd ∉ closed) (absent : p.HoldsNone closed) :
    p.Proceeds (p.release closed) := by
  refine ⟨[⟨.update none 0 0 0 0, closed⟩], Run.single ⟨⟨trivial, foreign, ?_⟩, trivial⟩ ?_⟩
  · intro after member
    obtain rfl := Option.some.inj member
    exact absent
  · exact releasingStep_eq_ok.mpr ⟨p, rfl, rfl⟩

end Proceeds

namespace Within

variable {live : List SocketPtr} {p after : Poller}

theorem create (eventFd : FD) (live : List SocketPtr) : (Poller.create eventFd).Within live where
  toListed := .create eventFd
  registered := nofun
  watched := by
    intro fd
    change epollCtlAdd (fun _ => none) eventFd (epollIn ||| epollHup ||| epollRdHup) fd ≠ none → _
    rw [epollCtlAdd_apply]
    split
    · rename_i same
      exact fun _ => .inl same
    · exact fun nothing => absurd rfl nothing

theorem congr (within : p.Within live) (listed : after.Listed) (sockets : after.sockets = p.sockets)
    (interest : after.epollFd = p.epollFd) (eventFd : after.eventFd = p.eventFd) :
    after.Within live where
  toListed := listed
  registered := by
    rw [sockets]
    exact within.registered
  watched := by
    rw [interest, eventFd]
    exact within.watched

/-- A registered socket stands under its own descriptor. -/
theorem fd_eq (within : p.Within live) {fd : FD} {socket : SocketPtr}
    (stored : p.sockets fd = some socket) : socket.fd = fd := by
  obtain ⟨context, found, rfl⟩ := sockets_eq_some.mp stored
  exact within.keys fd context found

theorem mono (within : p.Within live) {more : List SocketPtr}
    (subset : ∀ socket ∈ live, socket ∈ more) : p.Within more where
  toListed := within.toListed
  registered := fun fd socket stored => subset socket (within.registered fd socket stored)
  watched := fun fd watched => (within.watched fd watched).imp_right fun member => by
    obtain ⟨socket, there, same⟩ := List.mem_map.mp member
    exact List.mem_map.mpr ⟨socket, subset socket there, same⟩

theorem mem_of_holds (within : p.Within live) {socket : SocketPtr}
    (holds : p.holds socket = true) : socket ∈ live := by
  rw [Poller.holds, Bool.or_eq_true, decide_eq_true_eq] at holds
  rcases holds with stored | pending
  · exact within.registered _ _ stored
  · obtain ⟨event, found⟩ := Option.isSome_iff_exists.mp pending
    obtain ⟨member, belongs⟩ := KeyedSet.find_eq_some.mp found
    exact within.registered _ _ (within.pending event member socket belongs)

/-- With one socket for each descriptor, a call on a socket that is there is a call on its own
descriptor. -/
theorem own (within : p.Within live) (distinct : (live.map SocketPtr.fd).Nodup) (op : PollerOp)
    (there : ∀ socket, op.target = some socket → socket ∈ live) : p.OwnDescriptor op := by
  have same : ∀ socket ∈ live, ∀ registered ∈ p.sockets socket.fd, registered = socket := by
    intro socket member registered stored
    exact List.inj_on_of_nodup_map distinct (within.registered _ _ stored) member
      (within.fd_eq stored)
  cases op with
  | update socket _ _ _ _ =>
      cases socket with
      | none => trivial
      | some socket => exact same socket (there socket rfl)
  | remove socket =>
      cases socket with
      | none => trivial
      | some socket => exact same socket (there socket rfl)
  | _ => trivial

theorem updateSocket (within : p.Within live) {socket : SocketPtr} (there : socket ∈ live)
    {eventMask timeoutStep readClock writeClock : Word}
    (own : ∀ registered ∈ p.sockets socket.fd, registered = socket)
    (returned : p.updateSocket (some socket) eventMask timeoutStep readClock writeClock =
      .ok after) : after.Within live where
  toListed := within.toListed.updateSocket own returned
  registered := by
    rw [sockets_updateSocket returned, contextFor_socket own]
    intro fd registered stored
    by_cases same : fd = socket.fd
    · rw [same, Function.update_self] at stored
      exact Option.some.inj stored ▸ there
    · rw [Function.update_of_ne same] at stored
      exact within.registered fd registered stored
  watched := by
    have effect := updateSocket_eq_ok returned
    rw [effect.eventFd, effect.epollFd]
    intro fd watched
    by_cases same : fd = socket.fd
    · exact .inr (same ▸ List.mem_map_of_mem there)
    · refine within.watched fd ?_
      split at watched
      · rwa [epollCtlAdd_apply, if_neg same] at watched
      · rwa [epollCtlMod_apply, if_neg same] at watched

theorem removeSocket (within : p.Within live) {socket : SocketPtr}
    (own : ∀ registered ∈ p.sockets socket.fd, registered = socket) :
    (p.removeSocket (some socket)).Within live where
  toListed := within.toListed.removeSocket own
  registered := by
    rw [sockets_removeSocket]
    intro fd registered stored
    by_cases same : fd = socket.fd
    · rw [same, Function.update_self] at stored
      cases stored
    · rw [Function.update_of_ne same] at stored
      exact within.registered fd registered stored
  watched := by
    rw [removeSocket_eventFd, removeSocket_epollFd]
    intro fd watched
    by_cases same : fd = socket.fd
    · rw [same, epollCtlDel, Function.update_self] at watched
      exact absurd rfl watched
    · rw [epollCtlDel, Function.update_of_ne same] at watched
      exact within.watched fd watched

theorem poll (within : p.Within live) {batch : List EpollEvent}
    {waitClock eventClock schedulerClock : Word}
    (returned : p.poll batch waitClock eventClock schedulerClock = .ok after) :
    after.Within live where
  toListed := within.toListed.poll returned
  registered := by
    rcases sockets_poll returned with kept | cleared
    · rw [kept]
      exact within.registered
    · rw [cleared]
      exact nofun
  watched := by
    obtain ⟨interest, eventFd⟩ := poll_epollFd returned
    rw [interest, eventFd]
    exact within.watched

/-- **Every call on sockets that are there keeps a poller within them.** -/
theorem step (within : p.Within live) (distinct : (live.map SocketPtr.fd).Nodup) {op : PollerOp}
    (there : ∀ socket, op.target = some socket → socket ∈ live) (returned : p.step op = .ok after) :
    after.Within live := by
  have own := within.own distinct op there
  cases step_outcome returned with
  | updateNull | removeNull | nextEmpty => exact within
  | update => exact within.updateSocket (there _ rfl) own returned
  | remove => exact within.removeSocket own
  | poll => exact within.poll returned
  | next =>
      refine within.congr ?_ rfl rfl rfl
      rw [← Except.ok.inj returned]
      exact within.toListed.getNextEvent _
  | signal sent => exact within.congr (within.toListed.signal sent) rfl rfl rfl

end Within

theorem step_eventFd {p after : Poller} {op : PollerOp} (returned : p.step op = .ok after) :
    after.eventFd = p.eventFd := by
  cases step_outcome returned with
  | updateNull | removeNull | nextEmpty | next | signal => rfl
  | update => exact (updateSocket_eq_ok returned).eventFd
  | remove socket => exact p.removeSocket_eventFd socket
  | poll => exact (poll_epollFd returned).2

end Poller

end Jasl
