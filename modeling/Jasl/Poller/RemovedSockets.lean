import Jasl.Poller.Pending

/-!
# No event for a removed socket

Pending events belong to registered sockets (`Poller.Listed`), over whole runs and
with stops read at any place of a batch. So once a socket is out of the map,
because `remove_socket` took it out or a stop was processed, `get_next_event`
gives no event of it until `update_socket` registers it again.
-/

set_option autoImplicit false

namespace Jasl

open Library

/-- The call is an `update_socket` of a socket. -/
def PollerOp.Updates (socket : SocketPtr) : PollerOp → Prop
  | .update target _ _ _ _ => target = some socket
  | _ => False

instance (socket : SocketPtr) : (op : PollerOp) → Decidable (op.Updates socket)
  | .update target _ _ _ _ => inferInstanceAs (Decidable (target = some socket))
  | .remove _ | .poll .. | .next _ | .signal _ => inferInstanceAs (Decidable False)

namespace Poller

/-- The call takes a socket out of the map. -/
def TakesOut (socket : SocketPtr) (p : Poller) (op : PollerOp) : Prop :=
  op = .remove (some socket) ∨ p.ReadsStop op

/-- Every call keeps the pending events with their registrations. -/
theorem Listed.step {p after : Poller} (listed : p.Listed) {op : PollerOp}
    (own : p.OwnDescriptor op) (returned : p.step op = .ok after) : after.Listed := by
  cases step_outcome returned with
  | updateNull | removeNull | nextEmpty => exact listed
  | update => exact listed.updateSocket own returned
  | remove => exact listed.removeSocket own
  | poll => exact listed.poll returned
  | next =>
      rw [← Except.ok.inj returned]
      exact listed.getNextEvent _
  | signal sent => exact listed.signal sent

theorem Listed.run {eventFd : FD} {ops : List PollerOp} {p : Poller}
    (reached : Run Poller.step Poller.OwnDescriptor (.create eventFd) ops p) : p.Listed := by
  apply reached.invariant Listed (.create eventFd)
  intro before op after held own stepped
  exact held.step own stepped

/-- A socket that is out of the map has no event to be given. -/
theorem Listed.getNextEvent_socket {p : Poller} (listed : p.Listed) {socket : SocketPtr}
    (out : p.sockets socket.fd ≠ some socket) (position : ℕ) :
    (p.getNextEvent position).1.socket ≠ some socket := by
  rw [Poller.getNextEvent]
  split
  · simp
  · rename_i event picked
    intro belongs
    exact out (listed.pending event (KeyedSet.pick_mem picked) socket belongs)

variable {p after : Poller} {socket : SocketPtr} {op : PollerOp}

/-- A call that takes a socket out of the map leaves it out. -/
theorem out_of_takesOut (takes : p.TakesOut socket op) (returned : p.step op = .ok after) :
    after.sockets socket.fd ≠ some socket := by
  rcases takes with rfl | stop
  · obtain rfl := Except.ok.inj returned
    rw [sockets_removeSocket, Function.update_self]
    exact nofun
  · rw [sockets_of_stop stop returned]
    exact nofun

/-- **A socket that is out of the map stays out** until `update_socket` is called for it. -/
theorem out_step (own : p.OwnDescriptor op) (other : ¬ op.Updates socket)
    (returned : p.step op = .ok after) (out : p.sockets socket.fd ≠ some socket) :
    after.sockets socket.fd ≠ some socket := by
  cases step_outcome returned with
  | updateNull | removeNull | nextEmpty | next | signal => exact out
  | update =>
      intro registered
      rcases registered_updateSocket own returned registered with rfl | before
      · exact other rfl
      · exact out before
  | remove target =>
      rw [sockets_removeSocket]
      by_cases same : socket.fd = target.fd
      · rw [same, Function.update_self]
        exact nofun
      · rw [Function.update_of_ne same]
        exact out
  | poll =>
      rcases sockets_poll returned with same | forgotten
      · rw [same]
        exact out
      · rw [forgotten]
        exact nofun

end Poller

/-- **No event for a removed socket**: in every state a poller reaches, the socket of each pending
event is the one stored under its descriptor; and after a call that takes a socket out of the map,
`get_next_event` gives no event of it before the next `update_socket` of it. -/
theorem no_event_for_removed_socket {eventFd : FD} {ops : List PollerOp} {p : Poller}
    (reached : Run Poller.step Poller.OwnDescriptor (Poller.create eventFd) ops p) :
    (∀ event ∈ p.outEvents, ∃ socket, event.socket = some socket ∧
      p.sockets socket.fd = some socket) ∧
    ∀ (socket : SocketPtr) (op : PollerOp) (removed later : Poller) (more : List PollerOp),
      p.TakesOut socket op → p.OwnDescriptor op → p.step op = .ok removed →
      Run Poller.step (fun q op => q.OwnDescriptor op ∧ ¬ op.Updates socket) removed more later →
        ∀ position, (later.getNextEvent position).1.socket ≠ some socket := by
  have listed := Poller.Listed.run reached
  constructor
  · intro event member
    have actionable : p.Actionable := by
      apply reached.invariant Poller.Actionable (.create eventFd)
      intro before op after held _ stepped
      exact held.step stepped
    obtain ⟨socket, belongs⟩ := Option.isSome_iff_exists.mp (actionable event member).2
    exact ⟨socket, belongs, listed.pending event member socket belongs⟩
  · intro socket op removed later more takes own stepped run position
    have kept : later.Listed ∧ later.sockets socket.fd ≠ some socket := by
      apply run.invariant (fun q => q.Listed ∧ q.sockets socket.fd ≠ some socket)
        ⟨listed.step own stepped, Poller.out_of_takesOut takes stepped⟩
      intro before op after ⟨held, out⟩ ⟨own, other⟩ stepped
      exact ⟨held.step own stepped, Poller.out_step own other stepped out⟩
    exact kept.1.getNextEvent_socket kept.2 position

/-- Two sockets are reported, and one of them is removed before its event is taken. -/
def reportedOps : List PollerOp :=
  [.update (some ⟨0, 7, .client⟩) epollIn 1000 0 0, .update (some ⟨1, 8, .client⟩) epollIn 1000 0 0,
    .poll [⟨7, epollIn⟩, ⟨8, epollIn⟩] 1 2 2]

def beforeRemoval : Poller :=
  (checkedRun Poller.step Poller.OwnDescriptor (Poller.create 3) reportedOps).get
    (by decide +kernel)

def afterRemoval : Poller := beforeRemoval.removeSocket (some ⟨0, 7, .client⟩)

def longAfterRemoval : Poller :=
  (checkedRun Poller.step
    (fun q op => q.OwnDescriptor op ∧ ¬ op.Updates ⟨0, 7, .client⟩) afterRemoval
    [.poll [⟨8, epollIn ||| epollHup⟩] 3 4 4]).get (by decide +kernel)

theorem no_event_for_removed_socket_later :
    (longAfterRemoval.getNextEvent 0).1.socket = some ⟨1, 8, .client⟩ ∧
      (longAfterRemoval.getNextEvent 0).1.socket ≠ some ⟨0, 7, .client⟩ :=
  ⟨by decide +kernel,
    (no_event_for_removed_socket (Run.of_isSome _)).2 ⟨0, 7, .client⟩
      (.remove (some ⟨0, 7, .client⟩)) afterRemoval longAfterRemoval _ (.inl rfl)
      (by decide +kernel) rfl (Run.of_isSome _) 0⟩

end Jasl
