import Jasl.Poller.Pending
import Jasl.Reactor.WorldSteps

/-!
# A socket belongs to one poller

`update_socket` puts a socket into the map of a poller and then has the socket
leave the poller it was with before; `remove_from_poller` takes a socket out of the
map of the poller it names. Between the calls a registered socket names its poller
(`Fitting`), so it is in one map at most, and in none after it left its poller.

A call on a descriptor that another live socket has would take away the
registration of one socket and the event of the other. The log marks such calls
(`Marked`), and after one nothing is claimed.
-/

set_option autoImplicit false

namespace Jasl

open Library

/-! ## Entries of the log -/

/-- Whether `on_close` of a socket was invoked and the socket not registered since, in a log with
the newest entry first. -/
def closedSince (socket : SocketPtr) : List Entry → Bool
  | [] => false
  | .onClose closed _ :: earlier => closed = socket || closedSince socket earlier
  | .registered _ registered :: earlier => registered ≠ socket && closedSince socket earlier
  | _ :: earlier => closedSince socket earlier

/-- A call on a descriptor of another socket. -/
def Entry.isClash : Entry → Bool
  | .clash _ _ => true
  | _ => false

/-- An entry that closes and registers nothing. -/
def Entry.Steady : Entry → Prop
  | .onClose _ _ | .registered _ _ => False
  | _ => True

theorem closedSince_cons {entry : Entry} (steady : entry.Steady) (socket : SocketPtr)
    (log : List Entry) : closedSince socket (entry :: log) = closedSince socket log := by
  cases entry with
  | onClose _ _ => exact steady.elim
  | registered _ _ => exact steady.elim
  | _ => rfl

namespace World

/-! ## Marks -/

/-- The log has a call on a descriptor of another socket. -/
def Marked (w : World) : Prop := ∃ entry ∈ w.log, entry.isClash = true

instance (w : World) : Decidable w.Marked :=
  inferInstanceAs (Decidable (∃ entry ∈ w.log, entry.isClash = true))

theorem Marked.note {w : World} (marked : w.Marked) (entry : Entry) : (w.note entry).Marked := by
  obtain ⟨clash, member, isClash⟩ := marked
  exact ⟨clash, List.mem_cons_of_mem _ member, isClash⟩

theorem Marked.noteClash {w : World} (marked : w.Marked) (id : PollerId) (socket : SocketPtr) :
    (w.noteClash id socket).Marked := by
  rw [World.noteClash]
  split
  · exact marked.note _
  · exact marked

theorem Marked.removeSocket {w : World} {id : PollerId} {socket : SocketPtr}
    (marked : (w.noteClash id socket).Marked) : (w.removeSocket id (some socket)).Marked := by
  simp only [World.removeSocket]
  split
  · exact marked
  · exact Marked.note (w := (w.noteClash id socket).setPoller id _) marked _

theorem primitives_marked : Primitives Marked where
  removeSocket := by
    intro w id socket marked
    exact (marked.noteClash id socket).removeSocket
  updateSocket := fun _ _ _ _ _ _ _ _ _ marked => marked.noteClash _ _
  signal := fun _ _ _ marked => marked
  setAttached := fun _ _ _ marked => marked
  setState := fun _ _ _ marked => marked
  note := fun _ _ _ marked => marked.note _

/-- A call on a descriptor that another socket has is marked. -/
theorem marked_noteClash {w : World} {id : PollerId} {socket : SocketPtr}
    (clash : w.clashes id socket = true) : (w.noteClash id socket).Marked := by
  rw [noteClash, if_pos clash]
  exact ⟨.clash id socket, List.mem_cons_self, rfl⟩

theorem noteClash_of_own {w : World} {id : PollerId} {socket : SocketPtr}
    (own : w.clashes id socket = false) : w.noteClash id socket = w := by
  rw [noteClash, own, if_neg Bool.false_ne_true]

theorem clashes_eq_false {w : World} {id : PollerId} {socket : SocketPtr} :
    w.clashes id socket = false ↔
      ∀ registered ∈ (w.pollers id).sockets socket.fd, registered = socket := by
  rw [clashes]
  cases (w.pollers id).sockets socket.fd with
  | none => simp
  | some registered => simp

/-! ## Both sides of a registration -/

/-- A socket is registered with a poller. -/
def Registered (w : World) (id : PollerId) (socket : SocketPtr) : Prop :=
  (w.pollers id).sockets socket.fd = some socket

/-- A registered socket names its poller, and is not closed; `loose` are the pairs that may be on
the way there. -/
structure Fitting (loose : PollerId → SocketPtr → Prop) (w : World) : Prop where
  listed : ∀ id, (w.pollers id).Listed
  attached : ∀ id socket, w.Registered id socket →
    loose id socket ∨ (w.sockets socket).poller = some id
  closed : ∀ id socket, w.Registered id socket →
    loose id socket ∨ closedSince socket w.log = false

/-- No pair is loose. -/
def Strict : PollerId → SocketPtr → Prop := fun _ _ => False

/-- A socket is on the way to a poller. -/
def Joining (id : PollerId) (socket : SocketPtr) : PollerId → SocketPtr → Prop :=
  fun other stranger => other = id ∧ stranger = socket

namespace Fitting

variable {loose : PollerId → SocketPtr → Prop} {w after : World} {id : PollerId}
  {socket : SocketPtr}

/-- An entry that leaves open what is open. -/
theorem note (fitting : Fitting loose w) {entry : Entry} (steady : entry.Steady) :
    Fitting loose (w.note entry) where
  listed := fitting.listed
  attached := fitting.attached
  closed := by
    intro id socket registered
    rw [note_log, closedSince_cons steady]
    exact fitting.closed id socket registered

/-- A change of one poller that registers nothing but loose pairs. -/
theorem setPoller (fitting : Fitting loose w) {p : Poller} (listed : p.Listed)
    (fewer : ∀ socket, p.sockets socket.fd = some socket →
      loose id socket ∨ w.Registered id socket) :
    Fitting loose (w.setPoller id p) := by
  have registers : ∀ other socket, (w.setPoller id p).Registered other socket →
      loose other socket ∨ w.Registered other socket := by
    intro other socket registered
    rw [Registered, setPoller_pollers] at registered
    by_cases same : other = id
    · subst same
      rw [Function.update_self] at registered
      exact fewer socket registered
    · rw [Function.update_of_ne same] at registered
      exact .inr registered
  refine ⟨?_, ?_, ?_⟩
  · intro other
    rw [setPoller_pollers]
    by_cases same : other = id
    · rw [same, Function.update_self]
      exact listed
    · rw [Function.update_of_ne same]
      exact fitting.listed other
  · intro other socket registered
    rcases registers other socket registered with isLoose | before
    · exact .inl isLoose
    · exact fitting.attached other socket before
  · intro other socket registered
    rcases registers other socket registered with isLoose | before
    · exact .inl isLoose
    · exact fitting.closed other socket before

theorem setState (fitting : Fitting loose w) (state : SocketState) :
    Fitting loose (w.setState socket state) := by
  refine ⟨fitting.listed, ?_, fitting.closed⟩
  intro id other registered
  have attached := fitting.attached id other registered
  by_cases same : other = socket
  · subst same
    rwa [setState_sockets, Function.update_self]
  · rwa [setState_sockets, Function.update_of_ne same]

theorem setAttached (fitting : Fitting loose w) {poller : Option PollerId}
    (known : ∀ id, w.Registered id socket → loose id socket ∨ poller = some id) :
    Fitting loose (w.setAttached socket poller) := by
  refine ⟨fitting.listed, ?_, fitting.closed⟩
  intro id other registered
  by_cases same : other = socket
  · subst same
    rw [setAttached_sockets, Function.update_self]
    exact known id registered
  · rw [setAttached_sockets, Function.update_of_ne same]
    exact fitting.attached id other registered

/-- `remove_socket` takes the registration of the socket away. -/
theorem removeSocket (fitting : Fitting loose w) (own : w.clashes id socket = false) :
    Fitting loose (w.removeSocket id (some socket)) ∧
      ¬ (w.removeSocket id (some socket)).Registered id socket := by
  have removed : Fitting loose
      (w.setPoller id ((w.pollers id).removeSocket (some socket))) := by
    apply fitting.setPoller ((fitting.listed id).removeSocket (clashes_eq_false.mp own))
    intro other registered
    rw [Poller.sockets_removeSocket] at registered
    by_cases same : other.fd = socket.fd
    · rw [same, Function.update_self] at registered
      cases registered
    · rw [Function.update_of_ne same] at registered
      exact .inr registered
  constructor
  · simp only [World.removeSocket, noteClash_of_own own]
    split
    · exact removed
    · exact removed.note trivial
  · rw [Registered, removeSocket_pollers, Function.update_self, Poller.sockets_removeSocket,
      Function.update_self]
    simp

/-- `remove_from_poller` leaves no registration of the socket. -/
theorem removeFromPoller (fitting : Fitting loose w) (socket : SocketPtr) :
    (w.removeFromPoller socket).Marked ∨
      Fitting loose (w.removeFromPoller socket) ∧
        ∀ id, (w.removeFromPoller socket).Registered id socket → loose id socket := by
  rw [World.removeFromPoller]
  cases attached : (w.sockets socket).poller with
  | none =>
      refine .inr ⟨fitting, ?_⟩
      intro id registered
      refine (fitting.attached id socket registered).resolve_right ?_
      rw [attached]
      simp
  | some id =>
      cases own : w.clashes id socket with
      | true =>
          have marked := (marked_noteClash own).removeSocket
          exact .inl marked
      | false =>
          obtain ⟨removed, gone⟩ := fitting.removeSocket own
          have only : ∀ other, (w.removeSocket id (some socket)).Registered other socket →
              loose other socket := by
            intro other registered
            rcases removed.attached other socket registered with isLoose | named
            · exact isLoose
            · rw [removeSocket_sockets, attached] at named
              obtain rfl := Option.some.inj named
              exact absurd registered gone
          exact .inr ⟨removed.setAttached fun other registered => .inl (only other registered), only⟩

/-- `attach_to_poller` makes a socket name the poller. -/
theorem attachToPoller (fitting : Fitting loose w) (socket : SocketPtr) (id : PollerId) :
    (w.attachToPoller socket id).Marked ∨
      Fitting loose (w.attachToPoller socket id) ∧
        ((w.attachToPoller socket id).sockets socket).poller = some id := by
  rw [World.attachToPoller]
  split
  · rename_i attached
    exact .inr ⟨fitting, attached⟩
  · rcases fitting.removeFromPoller socket with marked | ⟨removed, gone⟩
    · exact .inl marked
    · refine .inr ⟨removed.setAttached ?_, ?_⟩
      · exact fun other registered => .inl (gone other registered)
      · rw [setAttached_sockets, Function.update_self]

theorem weaken (fitting : Fitting Strict w) : Fitting loose w where
  listed := fitting.listed
  attached := fun id socket registered =>
    .inr ((fitting.attached id socket registered).resolve_left not_false)
  closed := fun id socket registered =>
    .inr ((fitting.closed id socket registered).resolve_left not_false)

/-- Once a socket that is on the way to a poller names it, the entry of its registration ends the
way. -/
theorem registered (fitting : Fitting (Joining id socket) w)
    (named : (w.sockets socket).poller = some id) :
    Fitting Strict (w.note (.registered id socket)) := by
  refine ⟨fitting.listed, ?_, ?_⟩
  · intro other stranger registered
    rcases fitting.attached other stranger registered with ⟨rfl, rfl⟩ | attached
    · exact .inr named
    · exact .inr attached
  · intro other stranger registered
    refine .inr ?_
    rw [note_log, closedSince]
    by_cases same : socket = stranger
    · rw [decide_eq_false (not_not.mpr same), Bool.false_and]
    · rcases fitting.closed other stranger registered with ⟨-, rfl⟩ | closed
      · exact absurd rfl same
      · rw [closed, Bool.and_false]

theorem updateSocket (fitting : Fitting Strict w) {target : Option SocketPtr}
    {eventMask timeoutStep readClock writeClock : Word}
    (returned : w.updateSocket id target eventMask timeoutStep readClock writeClock = .ok after) :
    after.Marked ∨ Fitting Strict after := by
  rw [World.updateSocket] at returned
  split at returned
  · cases returned
  · rename_i p succeeded
    cases target with
    | none =>
        obtain rfl := Except.ok.inj returned
        exact .inr fitting
    | some socket =>
        obtain rfl := Except.ok.inj returned
        cases clash : w.clashes id socket with
        | true =>
            have marked : ((w.noteClash id socket).setPoller id p).Marked := marked_noteClash clash
            refine .inl ?_
            split
            · exact (primitives_marked.closeRules.attachToPoller marked socket id).note _
            · exact marked
        | false =>
            have own := clashes_eq_false.mp clash
            have listed := (fitting.listed id).updateSocket own succeeded
            rw [noteClash_of_own clash]
            split
            · -- The socket is in the map before it names the poller.
              have joining : Fitting (Joining id socket) (w.setPoller id p) := by
                apply fitting.weaken.setPoller listed
                intro stranger registered
                exact (Poller.registered_updateSocket own succeeded registered).imp_left
                  fun same => ⟨rfl, same⟩
              rcases joining.attachToPoller socket id with marked | ⟨attached, named⟩
              · exact .inl (marked.note _)
              · exact .inr (attached.registered named)
            · rename_i present
              refine .inr (fitting.setPoller listed ?_)
              intro stranger registered
              rcases Poller.registered_updateSocket own succeeded registered with rfl | before
              · exact .inr (Poller.registered_of_present own present)
              · exact .inr before

theorem beginClose (fitting : Fitting Strict w) (socket : SocketPtr) (closeReason : Word) :
    (w.beginClose socket closeReason).Marked ∨
      Fitting Strict (w.beginClose socket closeReason) := by
  rcases (fitting.setState .invalid).removeFromPoller socket with marked | ⟨removed, gone⟩
  · exact .inl (marked.note _)
  · refine .inr ⟨removed.listed, removed.attached, ?_⟩
    intro id other registered
    have different : socket ≠ other := by
      rintro rfl
      exact gone id registered
    refine .inr ?_
    rw [World.beginClose, note_log, closedSince, decide_eq_false different, Bool.false_or]
    exact (removed.closed id other registered).resolve_left not_false

/-- A poll registers nothing. -/
theorem poll (fitting : Fitting Strict w) {batch : List EpollEvent}
    {waitClock eventClock schedulerClock : Word} {p : Poller}
    (polled : (w.pollers id).poll batch waitClock eventClock schedulerClock = .ok p) :
    Fitting Strict (w.setPoller id p) := by
  apply fitting.setPoller ((fitting.listed id).poll polled)
  intro socket registered
  rcases Poller.sockets_poll polled with same | forgotten
  · rw [same] at registered
    exact .inr registered
  · rw [forgotten] at registered
    cases registered

theorem next (fitting : Fitting Strict w) (id : PollerId) (position : ℕ) :
    Fitting Strict (w.setPoller id ((w.pollers id).getNextEvent position).2) := by
  apply fitting.setPoller ((fitting.listed id).getNextEvent position)
  intro socket registered
  rw [Poller.sockets_congr (Poller.getNextEvent_activeSockets _ position)] at registered
  exact .inr registered

/-- A registered socket names its poller. -/
theorem names (fitting : Fitting Strict w) {fd : FD}
    (stored : (w.pollers id).sockets fd = some socket) : (w.sockets socket).poller = some id := by
  obtain ⟨context, found, rfl⟩ := Poller.sockets_eq_some.mp stored
  obtain rfl := (fitting.listed id).keys _ _ found
  exact (fitting.attached id context.socket stored).resolve_left not_false

end Fitting

/-! ## Runs -/

/-- Both sides of every registration fit, or a mark says why they may not. -/
def Settled (w : World) : Prop := w.Marked ∨ Fitting Strict w

namespace Settled

variable {w after : World}

theorem start (eventFds : PollerId → FD) (states : SocketPtr → SocketState) :
    (World.start eventFds states).Settled := by
  refine .inr ⟨fun id => .create (eventFds id), ?_, ?_⟩
  · exact fun _ _ => nofun
  · exact fun _ _ _ => .inr rfl

theorem call (settled : w.Settled) {made : Call} (called : w.call made = .ok after) :
    after.Settled := by
  rcases settled with marked | fitting
  · exact .inl (primitives_marked.closeRules.call marked called)
  cases made with
  | updateSocket poller socket eventMask timeoutStep readClock writeClock =>
      exact fitting.updateSocket called
  | removeSocket poller socket =>
      obtain rfl := Except.ok.inj called
      cases socket with
      | none => exact .inr fitting
      | some socket =>
          cases clash : w.clashes poller socket with
          | true => exact .inl (marked_noteClash clash).removeSocket
          | false => exact .inr (fitting.removeSocket clash).1
  | removeFromPoller socket =>
      obtain rfl := Except.ok.inj called
      exact (fitting.removeFromPoller socket).imp_right And.left
  | attachToPoller socket poller =>
      obtain rfl := Except.ok.inj called
      exact (fitting.attachToPoller socket poller).imp_right And.left
  | signal poller sent =>
      obtain rfl := Except.ok.inj called
      exact .inr (fitting.setPoller ((fitting.listed poller).signal sent) fun _ => .inr)

theorem beginClose (settled : w.Settled) (socket : SocketPtr) (closeReason : Word) :
    (w.beginClose socket closeReason).Settled := by
  rcases settled with marked | fitting
  · exact .inl (primitives_marked.closeRules.beginClose marked socket closeReason)
  · exact fitting.beginClose socket closeReason

end Settled

theorem stepRules_settled (allowed : World → WorldOp → Prop) : StepRules allowed Settled where
  call := fun _ _ _ settled called => settled.call called
  beginClose := fun _ socket closeReason _ settled => settled.beginClose socket closeReason
  invoke := by
    intro w entry invokes settled
    refine settled.imp (fun marked => marked.note entry) fun fitting => fitting.note ?_
    cases entry with
    | onClose _ _ => cases invokes
    | registered _ _ => cases invokes
    | _ => trivial
  poll := fun _ _ _ _ _ _ _ _ settled polled =>
    settled.imp (fun marked => marked) fun fitting => fitting.poll polled
  next := fun _ id position settled =>
    settled.imp (fun marked => marked) fun fitting => fitting.next id position
  took := fun _ _ _ settled =>
    settled.imp (fun marked => marked.note _) fun fitting => fitting.note trivial

/-- Without a mark, both sides of every registration fit in the worlds that runs reach. -/
theorem fitting_run {allowed : World → WorldOp → Prop} {eventFds : PollerId → FD}
    {states : SocketPtr → SocketState} {ops : List WorldOp} {w : World}
    (reached : Run step allowed (start eventFds states) ops w) (unmarked : ¬ w.Marked) :
    Fitting Strict w :=
  ((stepRules_settled allowed).run (.start eventFds states) reached).resolve_left unmarked

/-- **A socket belongs to one poller at most.** In every run, stops included, in which no call is
made on the descriptor of another live socket: a socket in the map of a poller names that poller, so
it is in one map only, and once it has left its poller it is in none. -/
theorem socket_belongs_to_one_poller {eventFds : PollerId → FD}
    {states : SocketPtr → SocketState} {ops : List WorldOp} {w : World}
    (reached : Run step (fun _ _ => True) (start eventFds states) ops w)
    (unmarked : ¬ w.Marked) :
    (∀ id fd socket, (w.pollers id).sockets fd = some socket →
      (w.sockets socket).poller = some id) ∧
    (∀ socket id other fd otherFd, (w.pollers id).sockets fd = some socket →
      (w.pollers other).sockets otherFd = some socket → id = other) ∧
    ∀ socket, ¬ (w.removeFromPoller socket).Marked →
      ∀ id fd, ((w.removeFromPoller socket).pollers id).sockets fd ≠ some socket := by
  have fitting := fitting_run reached unmarked
  refine ⟨fun id fd socket => fitting.names, ?_, ?_⟩
  · intro socket id other fd otherFd stored otherStored
    have named := fitting.names stored
    rw [fitting.names otherStored] at named
    exact (Option.some.inj named).symm
  · intro socket unmarked id fd stored
    obtain ⟨removed, gone⟩ := (fitting.removeFromPoller socket).resolve_left unmarked
    obtain ⟨context, found, rfl⟩ := Poller.sockets_eq_some.mp stored
    obtain rfl := (removed.listed id).keys _ _ found
    exact gone id stored

/-- A socket moves between two pollers, one of them reads a stop, and the socket moves again. -/
def movingOps : List WorldOp :=
  [.other (.call (.updateSocket 0 (some ⟨0, 7, .client⟩) epollIn 1000 0 0)
      (.call (.updateSocket 1 (some ⟨0, 7, .client⟩) epollIn 1000 0 0)
        (.call (.updateSocket 1 (some ⟨1, 8, .client⟩) epollIn 1000 0 0)
          (.call (.signal 1 .stop) .done)))),
    .poll 1 [⟨3, epollIn⟩] 0 0 0,
    .other (.call (.updateSocket 0 (some ⟨0, 7, .client⟩) epollIn 1000 0 0) .done)]

def movedWorld : World :=
  (checkedRun step (fun _ _ => True) (start (fun _ => 3) fun _ => .ready) movingOps).get
    (by decide +kernel)

theorem socket_belongs_to_one_poller_moved :
    (movedWorld.sockets ⟨0, 7, .client⟩).poller = some 0 :=
  (socket_belongs_to_one_poller (Run.of_isSome _) (by decide +kernel)).1 0 7 ⟨0, 7, .client⟩
    (by decide +kernel)

end World

end Jasl
