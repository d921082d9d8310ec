import Jasl.Library.Reclaim
import Jasl.Poller.HeldSockets
import Jasl.Reactor.Attachment
import Jasl.Reactor.Stopping

/-!
# Who holds a socket, and when its descriptor is closed

A socket is made with one pointer to it and owns its descriptor, which its destructor
closes. The pollers hold pointers in their maps and in their pending events, a reactor
holds the one of the event it is at, and the rest of the program has its own. A stop
clears a map, and a call takes a pointer out of one, so the last pointer may go in any
call. Nothing tells the poller when it does: that no map names a socket that is gone,
and no kernel watches its descriptor, rests on who holds what.

`SharedSockets` is a world with the sockets there are and the pointers to them. Its
steps are single calls, so callbacks, reactors and other threads interleave in it as
they like; after each step the sockets without a pointer go. A descriptor of a new
socket is not one that is open, which the kernel guarantees.

What the runs of single pollers assume about descriptors holds of the pollers in it
(`pollers_proceed`), and no call finds another socket under its descriptor.
-/

set_option autoImplicit false

namespace Jasl

open Library

/-! ## Sockets with their pointers -/

/-- The socket a call is made on. -/
def Call.socket : Call → Option SocketPtr
  | .updateSocket _ socket _ _ _ _ | .removeSocket _ socket => socket
  | .removeFromPoller socket | .attachToPoller socket _ => some socket
  | .signal _ _ => none

/-- The poller a call names. -/
def Call.poller : Call → Option PollerId
  | .updateSocket poller _ _ _ _ _ | .removeSocket poller _ | .attachToPoller _ poller
  | .signal poller _ => some poller
  | .removeFromPoller _ => none

/-- A world with the sockets there are, the pointers the program has to them, and the socket of the
event that each reactor is at. -/
structure SharedSockets where
  world : World
  objects : Objects SocketPtr FD
  handles : SocketPtr → ℕ
  taken : PollerId → Option SocketPtr

/-- What happens to the sockets. The callbacks of an event are steps of their own, between the one
that takes the event and the one that ends its turn of the loop. -/
inductive SharingOp where
  /-- A constructor returns a new socket. -/
  | create (socket : SocketPtr) (state : SocketState)
  /-- The program copies a pointer to a socket that is there. -/
  | copy (socket : SocketPtr)
  /-- The program drops a pointer. -/
  | drop (socket : SocketPtr)
  | call (made : Call)
  /-- `Socket::close`, up to the callback. -/
  | close (socket : SocketPtr) (closeReason : Word)
  | poll (poller : PollerId) (batch : List EpollEvent) (waitClock eventClock schedulerClock : Word)
  /-- `get_next_event` in the inner loop of `Reactor::run`. -/
  | take (poller : PollerId) (position : ℕ)
  /-- The turn of the inner loop ends, and with it `event`. -/
  | finish (poller : PollerId)
deriving Repr

namespace SharedSockets

/-- Before any socket is made. -/
def start (eventFds : PollerId → FD) : SharedSockets where
  world := .start eventFds fun _ => .invalid
  objects := .empty
  handles := fun _ => 0
  taken := fun _ => none

section Steps

variable (ids : List PollerId) (c : SharedSockets)

/-- A pointer to the socket is left. -/
def held (socket : SocketPtr) : Bool :=
  c.handles socket ≠ 0 ||
    ids.any fun id => (c.world.pollers id).holds socket || c.taken id = some socket

/-- The sockets without a pointer go: their descriptors are closed, and the kernel forgets them. -/
def reap : SharedSockets :=
  { c with
    world := { c.world with pollers := fun id =>
      (c.world.pollers id).release (c.objects.dead SocketPtr.fd (c.held ids)) }
    objects := c.objects.reap SocketPtr.fd (c.held ids) }

/-- A new socket has its own address and its own descriptor. -/
def Fresh (socket : SocketPtr) : Prop :=
  socket.fd ∉ c.objects.live.map SocketPtr.fd ∧
    socket.address ∉ c.objects.live.map SocketPtr.address ∧
    ∀ id ∈ ids, socket.fd ≠ (c.world.pollers id).eventFd

instance (socket : SocketPtr) : Decidable (c.Fresh ids socket) :=
  inferInstanceAs (Decidable (_ ∧ _ ∧ _))

/-- A call names a poller and a socket that are there. -/
def Names (made : Call) : Prop :=
  (∀ id ∈ made.poller, id ∈ ids) ∧ ∀ socket ∈ made.socket, socket ∈ c.objects.live

instance (made : Call) : Decidable (c.Names ids made) := inferInstanceAs (Decidable (_ ∧ _))

/-- The event that `get_next_event` gives, and its socket. -/
def takeEvent (id : PollerId) (position : ℕ) : SharedSockets :=
  let next := (c.world.pollers id).getNextEvent position
  let w := c.world.setPoller id next.2
  { c with
    world := if next.1.action = 0 then w else w.note (.took id next.1)
    taken := Function.update c.taken id next.1.socket }

/-- What a step does, up to the end of the pointers it drops. -/
def change : SharingOp → Except Halt SharedSockets
  | .create socket state =>
      if c.Fresh ids socket then .ok
        { c with
          world := (c.world.setAttached socket none).setState socket state
          objects := c.objects.add SocketPtr.fd socket
          handles := Function.update c.handles socket 1 }
      else .error .outOfTurn
  | .copy socket =>
      if socket ∈ c.objects.live then .ok
        { c with handles := Function.update c.handles socket (c.handles socket + 1) }
      else .error .outOfTurn
  | .drop socket =>
      if c.handles socket ≠ 0 then .ok
        { c with handles := Function.update c.handles socket (c.handles socket - 1) }
      else .error .outOfTurn
  | .call made =>
      if c.Names ids made then
        match c.world.call made with
        | .error failed => .error (.aborted failed)
        | .ok world => .ok { c with world }
      else .error .outOfTurn
  | .close socket closeReason =>
      if socket ∈ c.objects.live then .ok
        { c with world := (c.world.close socket closeReason fun w => (w, .returned)).1 }
      else .error .outOfTurn
  | .poll id batch waitClock eventClock schedulerClock =>
      if id ∈ ids then
        match (c.world.pollers id).poll batch waitClock eventClock schedulerClock with
        | .error failed => .error (.aborted failed)
        | .ok p => .ok { c with world := c.world.setPoller id p }
      else .error .outOfTurn
  | .take id position =>
      if id ∈ ids ∧ c.taken id = none then .ok (c.takeEvent id position) else .error .outOfTurn
  | .finish id => .ok { c with taken := Function.update c.taken id none }

def step (op : SharingOp) : Except Halt SharedSockets := (c.change ids op).map (reap ids)

end Steps

/-- What a step does when it is its turn and no assertion fails. -/
inductive Changed (ids : List PollerId) (c : SharedSockets) : SharingOp → SharedSockets → Prop where
  | create {socket : SocketPtr} {state : SocketState} (fresh : c.Fresh ids socket) :
      Changed ids c (.create socket state)
        { c with
          world := (c.world.setAttached socket none).setState socket state
          objects := c.objects.add SocketPtr.fd socket
          handles := Function.update c.handles socket 1 }
  | copy {socket : SocketPtr} (there : socket ∈ c.objects.live) :
      Changed ids c (.copy socket)
        { c with handles := Function.update c.handles socket (c.handles socket + 1) }
  | drop {socket : SocketPtr} (own : c.handles socket ≠ 0) :
      Changed ids c (.drop socket)
        { c with handles := Function.update c.handles socket (c.handles socket - 1) }
  | call {made : Call} {world : World} (names : c.Names ids made)
      (called : c.world.call made = .ok world) : Changed ids c (.call made) { c with world }
  | close {socket : SocketPtr} {closeReason : Word} (there : socket ∈ c.objects.live) :
      Changed ids c (.close socket closeReason)
        { c with world := (c.world.close socket closeReason fun w => (w, .returned)).1 }
  | poll {id : PollerId} {batch : List EpollEvent} {waitClock eventClock schedulerClock : Word}
      {p : Poller} (member : id ∈ ids)
      (polled : (c.world.pollers id).poll batch waitClock eventClock schedulerClock = .ok p) :
      Changed ids c (.poll id batch waitClock eventClock schedulerClock)
        { c with world := c.world.setPoller id p }
  | take {id : PollerId} {position : ℕ} (member : id ∈ ids) (free : c.taken id = none) :
      Changed ids c (.take id position) (c.takeEvent id position)
  | finish {id : PollerId} :
      Changed ids c (.finish id) { c with taken := Function.update c.taken id none }

/-- **What a step does**: a change, and then the sockets without a pointer go. -/
theorem step_eq_ok {ids : List PollerId} {c after : SharedSockets} {op : SharingOp}
    (stepped : c.step ids op = .ok after) : ∃ changed, Changed ids c op changed ∧
      after = changed.reap ids := by
  rw [step] at stepped
  cases done : c.change ids op with
  | error halt =>
      rw [done] at stepped
      cases stepped
  | ok changed =>
      rw [done] at stepped
      refine ⟨changed, ?_, (Except.ok.inj stepped).symm⟩
      cases op with
      | create socket state =>
          rw [change] at done
          split at done
          · rename_i fresh
            exact Except.ok.inj done ▸ .create fresh
          · cases done
      | copy socket =>
          rw [change] at done
          split at done
          · rename_i there
            exact Except.ok.inj done ▸ .copy there
          · cases done
      | drop socket =>
          rw [change] at done
          split at done
          · rename_i own
            exact Except.ok.inj done ▸ .drop own
          · cases done
      | call made =>
          rw [change] at done
          split at done
          · rename_i names
            cases called : c.world.call made with
            | error failed =>
                rw [called] at done
                cases done
            | ok world =>
                rw [called] at done
                exact Except.ok.inj done ▸ .call names called
          · cases done
      | close socket closeReason =>
          rw [change] at done
          split at done
          · rename_i there
            exact Except.ok.inj done ▸ .close there
          · cases done
      | poll id batch waitClock eventClock schedulerClock =>
          rw [change] at done
          split at done
          · rename_i member
            cases polled : (c.world.pollers id).poll batch waitClock eventClock schedulerClock with
            | error failed =>
                rw [polled] at done
                cases done
            | ok p =>
                rw [polled] at done
                exact Except.ok.inj done ▸ .poll member polled
          · cases done
      | take id position =>
          rw [change] at done
          split at done
          · rename_i free
            exact Except.ok.inj done ▸ .take free.1 free.2
          · cases done
      | finish id => exact Except.ok.inj done ▸ .finish

end SharedSockets

/-! ## The pollers of a world and the sockets there are -/

/-- The pollers hold and watch sockets that are there, and have come to their states by calls that
fit the descriptors. -/
structure Linked (eventFds : PollerId → FD) (ids : List PollerId) (live : List SocketPtr)
    (w : World) : Prop where
  within : ∀ id ∈ ids, (w.pollers id).Within live
  proceeds : ∀ id ∈ ids, (Poller.create (eventFds id)).Proceeds (w.pollers id)
  apart : ∀ id ∈ ids, ∀ socket ∈ live, socket.fd ≠ (w.pollers id).eventFd
  attached : ∀ socket, ∀ id ∈ (w.sockets socket).poller, id ∈ ids
  unmarked : ¬ w.Marked

namespace Linked

variable {eventFds : PollerId → FD} {ids : List PollerId} {live : List SocketPtr} {w : World}

theorem start : Linked eventFds ids [] (.start eventFds fun _ => .invalid) where
  within := fun id _ => .create (eventFds id) []
  proceeds := fun id _ => .refl _
  apart := fun _ _ _ => nofun
  attached := nofun
  unmarked := by
    rintro ⟨entry, member, -⟩
    exact absurd member List.not_mem_nil

theorem note (linked : Linked eventFds ids live w) {entry : Entry} (quiet : entry.isClash = false) :
    Linked eventFds ids live (w.note entry) := by
  refine { linked with unmarked := ?_ }
  rintro ⟨marked, member, clash⟩
  rcases List.mem_cons.mp member with rfl | earlier
  · rw [quiet] at clash
    cases clash
  · exact linked.unmarked ⟨marked, earlier, clash⟩

theorem setAttached (linked : Linked eventFds ids live w) (socket : SocketPtr)
    {poller : Option PollerId} (members : ∀ id ∈ poller, id ∈ ids) :
    Linked eventFds ids live (w.setAttached socket poller) := by
  refine { linked with attached := ?_ }
  intro other id named
  rw [World.setAttached_sockets] at named
  by_cases same : other = socket
  · rw [same, Function.update_self] at named
    exact members id named
  · rw [Function.update_of_ne same] at named
    exact linked.attached other id named

theorem detach (linked : Linked eventFds ids live w) (socket : SocketPtr) :
    Linked eventFds ids live (w.setAttached socket none) := by
  apply linked.setAttached socket
  intro id named
  cases named

theorem setState (linked : Linked eventFds ids live w) (socket : SocketPtr) (state : SocketState) :
    Linked eventFds ids live (w.setState socket state) := by
  refine { linked with attached := ?_ }
  intro other id named
  rw [World.setState_sockets] at named
  by_cases same : other = socket
  · rw [same, Function.update_self] at named
    exact linked.attached socket id named
  · rw [Function.update_of_ne same] at named
    exact linked.attached other id named

/-- A new socket, with a descriptor that no poller has. -/
theorem cons (linked : Linked eventFds ids live w) {socket : SocketPtr}
    (foreign : ∀ id ∈ ids, socket.fd ≠ (w.pollers id).eventFd) :
    Linked eventFds ids (socket :: live) w := by
  refine { linked with within := ?_, apart := ?_ }
  · exact fun id member => (linked.within id member).mono fun _ => List.mem_cons_of_mem _
  · intro id member other there
    rcases List.mem_cons.mp there with rfl | there
    · exact foreign id member
    · exact linked.apart id member other there

variable (distinct : (live.map SocketPtr.fd).Nodup)

include distinct

/-- A call on a poller, on a socket that is there. -/
theorem setPoller (linked : Linked eventFds ids live w) {id : PollerId} (member : id ∈ ids)
    (op : PollerOp) {p : Poller} (there : ∀ socket, op.target = some socket → socket ∈ live)
    (stepped : (w.pollers id).step op = .ok p) : Linked eventFds ids live (w.setPoller id p) := by
  have within := linked.within id member
  have other : (w.pollers id).OtherDescriptor op := by
    cases op with
    | update socket _ _ _ _ =>
        cases socket with
        | none => trivial
        | some socket => exact linked.apart id member socket (there socket rfl)
    | remove socket =>
        cases socket with
        | none => trivial
        | some socket => exact linked.apart id member socket (there socket rfl)
    | _ => trivial
  have each : ∀ holds : PollerId → Poller → Prop, (∀ id ∈ ids, holds id (w.pollers id)) →
      holds id p → ∀ other ∈ ids, holds other ((w.setPoller id p).pollers other) := by
    intro holds before changed other there
    rw [World.setPoller_pollers]
    by_cases same : other = id
    · rw [same, Function.update_self]
      exact changed
    · rw [Function.update_of_ne same]
      exact before other there
  exact
    { within := each (fun _ p => p.Within live) linked.within (within.step distinct there stepped)
      proceeds := each (fun id p => (Poller.create (eventFds id)).Proceeds p) linked.proceeds
        ((linked.proceeds id member).trans (.of_step other (within.own distinct op there) stepped))
      apart := by
        refine each (fun _ p => ∀ socket ∈ live, socket.fd ≠ p.eventFd) linked.apart ?_
        rw [Poller.step_eventFd stepped]
        exact linked.apart id member
      attached := linked.attached
      unmarked := linked.unmarked }

/-- No other socket stands under the descriptor of a socket that is there. -/
theorem noteClash_eq (linked : Linked eventFds ids live w) {id : PollerId} (member : id ∈ ids)
    {socket : SocketPtr} (there : socket ∈ live) : w.noteClash id socket = w := by
  apply World.noteClash_of_own
  rw [World.clashes_eq_false]
  refine (linked.within id member).own distinct (.remove (some socket)) ?_
  intro target same
  exact Option.some.inj same ▸ there

theorem removeSocket (linked : Linked eventFds ids live w) {id : PollerId} (member : id ∈ ids)
    {socket : SocketPtr} (there : socket ∈ live) :
    Linked eventFds ids live (w.removeSocket id (some socket)) := by
  have removed : Linked eventFds ids live
      (w.setPoller id ((w.pollers id).removeSocket (some socket))) :=
    linked.setPoller distinct member (.remove (some socket))
      (fun target same => Option.some.inj same ▸ there) rfl
  simp only [World.removeSocket, linked.noteClash_eq distinct member there]
  split
  · exact removed
  · exact removed.note rfl

theorem removeFromPoller (linked : Linked eventFds ids live w) {socket : SocketPtr}
    (there : socket ∈ live) : Linked eventFds ids live (w.removeFromPoller socket) := by
  rw [World.removeFromPoller]
  split
  · exact linked
  · rename_i id named
    have member := linked.attached socket id named
    exact (linked.removeSocket distinct member there).detach socket

theorem attachToPoller (linked : Linked eventFds ids live w) {socket : SocketPtr}
    (there : socket ∈ live) {id : PollerId} (member : id ∈ ids) :
    Linked eventFds ids live (w.attachToPoller socket id) := by
  rw [World.attachToPoller]
  split
  · exact linked
  · refine (linked.removeFromPoller distinct there).setAttached socket ?_
    intro named same
    exact Option.some.inj same ▸ member

theorem updateSocket (linked : Linked eventFds ids live w) {id : PollerId} (member : id ∈ ids)
    {socket : Option SocketPtr} (there : ∀ target ∈ socket, target ∈ live)
    {eventMask timeoutStep readClock writeClock : Word} {after : World}
    (returned : w.updateSocket id socket eventMask timeoutStep readClock writeClock = .ok after) :
    Linked eventFds ids live after := by
  rw [World.updateSocket] at returned
  split at returned
  · cases returned
  · rename_i p succeeded
    cases socket with
    | none =>
        obtain rfl := Except.ok.inj returned
        exact linked
    | some socket =>
        obtain rfl := Except.ok.inj returned
        have own := there socket rfl
        have updated : Linked eventFds ids live (w.setPoller id p) :=
          linked.setPoller distinct member
            (.update (some socket) eventMask timeoutStep readClock writeClock)
            (fun target same => Option.some.inj same ▸ own) succeeded
        rw [linked.noteClash_eq distinct member own]
        split
        · exact (updated.attachToPoller distinct own member).note rfl
        · exact updated

/-- **Every call on what is there keeps the pollers with what is there.** -/
theorem call (linked : Linked eventFds ids live w) {made : Call} {after : World}
    (members : ∀ id ∈ made.poller, id ∈ ids) (there : ∀ socket ∈ made.socket, socket ∈ live)
    (called : w.call made = .ok after) : Linked eventFds ids live after := by
  cases made with
  | updateSocket poller socket eventMask timeoutStep readClock writeClock =>
      exact linked.updateSocket distinct (members poller rfl) there called
  | removeSocket poller socket =>
      obtain rfl := Except.ok.inj called
      cases socket with
      | none => exact linked
      | some socket => exact linked.removeSocket distinct (members poller rfl) (there socket rfl)
  | removeFromPoller socket =>
      obtain rfl := Except.ok.inj called
      exact linked.removeFromPoller distinct (there socket rfl)
  | attachToPoller socket poller =>
      obtain rfl := Except.ok.inj called
      exact linked.attachToPoller distinct (there socket rfl) (members poller rfl)
  | signal poller sent =>
      obtain rfl := Except.ok.inj called
      exact linked.setPoller distinct (members poller rfl) (.signal sent) nofun rfl

theorem close (linked : Linked eventFds ids live w) {socket : SocketPtr} (there : socket ∈ live)
    (closeReason : Word) :
    Linked eventFds ids live (w.close socket closeReason fun w => (w, .returned)).1 := by
  apply World.close_keeps linked
  · intro _
    exact ((linked.setState socket .invalid).removeFromPoller distinct there).note rfl
  · exact fun _ held => held

end Linked

/-! ## Everything that is held is there -/

namespace SharedSockets

/-- The descriptors of the sockets are accounted for, and every pointer is one to a socket that is
there. -/
structure Accounted (eventFds : PollerId → FD) (ids : List PollerId) (c : SharedSockets) :
    Prop where
  objects : c.objects.Sound SocketPtr.fd
  linked : Linked eventFds ids c.objects.live c.world
  handled : ∀ socket, c.handles socket ≠ 0 → socket ∈ c.objects.live
  taken : ∀ id, ∀ socket ∈ c.taken id, id ∈ ids ∧ socket ∈ c.objects.live

namespace Accounted

variable {eventFds : PollerId → FD} {ids : List PollerId} {c after : SharedSockets}
  {op : SharingOp}

theorem start : Accounted eventFds ids (.start eventFds) where
  objects := .empty
  linked := .start
  handled := fun _ some => absurd rfl some
  taken := fun _ => nofun

/-- A pointer that is left is one to a socket that is there. -/
theorem mem_of_held (accounted : c.Accounted eventFds ids) {socket : SocketPtr}
    (held : c.held ids socket = true) : socket ∈ c.objects.live := by
  rw [SharedSockets.held, Bool.or_eq_true, decide_eq_true_eq, List.any_eq_true] at held
  rcases held with own | ⟨id, member, pointed⟩
  · exact accounted.handled socket own
  · rw [Bool.or_eq_true, decide_eq_true_eq] at pointed
    rcases pointed with holds | taken
    · exact (accounted.linked.within id member).mem_of_holds holds
    · exact (accounted.taken id socket taken).2

theorem handles_update (accounted : c.Accounted eventFds ids) {socket : SocketPtr}
    (there : socket ∈ c.objects.live) (count : ℕ) :
    ∀ other, Function.update c.handles socket count other ≠ 0 → other ∈ c.objects.live := by
  intro other some
  by_cases same : other = socket
  · exact same ▸ there
  · rw [Function.update_of_ne same] at some
    exact accounted.handled other some

/-- The socket of the event a reactor takes is there. -/
theorem takeEvent (accounted : c.Accounted eventFds ids) {id : PollerId} (member : id ∈ ids)
    (position : ℕ) : (c.takeEvent id position).Accounted eventFds ids := by
  have linked : Linked eventFds ids c.objects.live
      (c.world.setPoller id ((c.world.pollers id).getNextEvent position).2) :=
    accounted.linked.setPoller accounted.objects.distinct member (.next position) nofun rfl
  refine { accounted with linked := ?_, taken := ?_ }
  · simp only [SharedSockets.takeEvent]
    split
    · exact linked
    · exact linked.note rfl
  · intro other socket pointed
    change Function.update c.taken id _ other = some socket at pointed
    by_cases same : other = id
    · rw [same, Function.update_self] at pointed
      have within := accounted.linked.within id member
      cases picked : (c.world.pollers id).outEvents.pick position with
      | none =>
          simp only [Poller.getNextEvent, picked] at pointed
          cases pointed
      | some event =>
          simp only [Poller.getNextEvent, picked] at pointed
          exact ⟨same ▸ member, within.registered _ _
            (within.pending event (KeyedSet.pick_mem picked) socket pointed)⟩
    · rw [Function.update_of_ne same] at pointed
      exact accounted.taken other socket pointed

/-- Every change keeps the accounts. -/
theorem change (accounted : c.Accounted eventFds ids) (changed : Changed ids c op after) :
    after.Accounted eventFds ids := by
  have distinct := accounted.objects.distinct
  cases changed with
  | @create socket state fresh =>
      obtain ⟨other, -, foreign⟩ := fresh
      exact
        { objects := accounted.objects.add other
          linked := ((accounted.linked.detach socket).setState socket state).cons foreign
          handled := by
            intro pointed some
            by_cases same : pointed = socket
            · exact same ▸ List.mem_cons_self
            · change Function.update c.handles socket 1 pointed ≠ 0 at some
              rw [Function.update_of_ne same] at some
              exact List.mem_cons_of_mem _ (accounted.handled pointed some)
          taken := fun id pointed taken =>
            (accounted.taken id pointed taken).imp_right (List.mem_cons_of_mem _) }
  | copy there => exact { accounted with handled := accounted.handles_update there _ }
  | @drop socket own =>
      exact { accounted with
        handled := accounted.handles_update (accounted.handled socket own) _ }
  | call names called =>
      exact { accounted with linked := accounted.linked.call distinct names.1 names.2 called }
  | close there => exact { accounted with linked := accounted.linked.close distinct there _ }
  | poll member polled =>
      exact { accounted with
        linked := accounted.linked.setPoller distinct member (.poll _ _ _ _) nofun polled }
  | take member free => exact accounted.takeEvent member _
  | @finish id =>
      refine { accounted with taken := ?_ }
      intro other socket pointed
      change Function.update c.taken id none other = some socket at pointed
      by_cases same : other = id
      · rw [same, Function.update_self] at pointed
        cases pointed
      · rw [Function.update_of_ne same] at pointed
        exact accounted.taken other socket pointed

theorem held_of_holds {id : PollerId} (member : id ∈ ids) {socket : SocketPtr}
    (pointed : (c.world.pollers id).holds socket = true) : c.held ids socket = true := by
  rw [SharedSockets.held, Bool.or_eq_true, List.any_eq_true]
  exact .inr ⟨id, member, by rw [pointed, Bool.true_or]⟩

theorem held_of_sockets (accounted : c.Accounted eventFds ids) {id : PollerId} (member : id ∈ ids)
    {fd : FD} {socket : SocketPtr} (stored : (c.world.pollers id).sockets fd = some socket) :
    c.held ids socket = true := by
  apply held_of_holds member
  rw [Poller.holds, (accounted.linked.within id member).fd_eq stored, stored, decide_eq_true rfl,
    Bool.true_or]

/-- The kernel forgets the descriptors of the sockets that go, which no poller holds. -/
theorem reapLinked (accounted : c.Accounted eventFds ids) :
    Linked eventFds ids (c.reap ids).objects.live (c.reap ids).world := by
  have objects := accounted.objects
  have linked := accounted.linked
  exact
    { within := by
        intro id member
        have within := linked.within id member
        refine ⟨⟨⟨within.keys⟩, within.pending⟩, ?_, ?_⟩
        · intro fd socket stored
          exact (c.objects.mem_reap _ _).mpr ⟨within.registered fd socket stored,
            accounted.held_of_sockets member stored⟩
        · intro fd watched
          by_cases closed : fd ∈ c.objects.dead SocketPtr.fd (c.held ids)
          · exact absurd (if_pos closed) watched
          · refine (within.watched fd ?_).imp_right ?_
            · exact fun nothing => watched ((if_neg closed).trans nothing)
            · intro there
              exact c.objects.mem_of_not_dead _ _ there closed
      proceeds := by
        intro id member
        refine (linked.proceeds id member).trans (.of_release ?_ ?_)
        · intro dead
          obtain ⟨socket, there, -, same⟩ := (c.objects.mem_dead _ _).mp dead
          exact linked.apart id member socket there same
        · intro fd dead
          cases stored : (c.world.pollers id).sockets fd with
          | none => rfl
          | some socket =>
              have there := (linked.within id member).registered fd socket stored
              have same := (linked.within id member).fd_eq stored
              rw [← same] at dead
              exact absurd dead
                (objects.not_dead there (accounted.held_of_sockets member stored))
      apart := fun id member socket there =>
        linked.apart id member socket ((c.objects.mem_reap _ _).mp there).1
      attached := linked.attached
      unmarked := linked.unmarked }

/-- **When the sockets without a pointer go, the accounts stay.** -/
theorem reap (accounted : c.Accounted eventFds ids) : (c.reap ids).Accounted eventFds ids where
  objects := accounted.objects.reap (c.held ids)
  linked := accounted.reapLinked
  handled := by
    intro socket some
    refine (c.objects.mem_reap _ _).mpr ⟨accounted.handled socket some, ?_⟩
    rw [SharedSockets.held, Bool.or_eq_true, decide_eq_true_eq]
    exact .inl some
  taken := by
    intro id socket pointed
    obtain ⟨member, there⟩ := accounted.taken id socket pointed
    refine ⟨member, (c.objects.mem_reap _ _).mpr ⟨there, ?_⟩⟩
    have held : c.taken id = some socket := pointed
    rw [SharedSockets.held, Bool.or_eq_true, List.any_eq_true]
    exact .inr ⟨id, member, by rw [decide_eq_true held, Bool.or_true]⟩

theorem run {ops : List SharingOp}
    (reached : Run (step ids) (fun _ _ => True) (.start eventFds) ops c) :
    c.Accounted eventFds ids := by
  apply reached.invariant (Accounted eventFds ids) .start
  intro before op after held _ stepped
  obtain ⟨changed, made, rfl⟩ := step_eq_ok stepped
  exact (held.change made).reap

end Accounted

/-- A socket without a pointer is gone. -/
theorem held_of_mem {eventFds : PollerId → FD} {ids : List PollerId} {ops : List SharingOp}
    {c : SharedSockets} (reached : Run (step ids) (fun _ _ => True) (start eventFds) ops c) :
    ∀ socket ∈ c.objects.live, c.held ids socket = true := by
  apply reached.invariant (fun c => ∀ socket ∈ c.objects.live, c.held ids socket = true) nofun
  intro before op after _ _ stepped socket there
  obtain ⟨changed, -, rfl⟩ := step_eq_ok stepped
  -- A release of descriptors takes no pointer away.
  exact ((changed.objects.mem_reap _ _).mp there).2

end SharedSockets

/-- **What is assumed of the runs of a poller is true of the pollers of a program**: each has come
to its state by its own calls, each on the descriptor of its own socket, and no descriptor was
closed under it while its socket was in the map. -/
theorem pollers_proceed {eventFds : PollerId → FD} {ids : List PollerId} {ops : List SharingOp}
    {c : SharedSockets}
    (reached : Run (SharedSockets.step ids) (fun _ _ => True) (.start eventFds) ops c)
    {id : PollerId} (member : id ∈ ids) :
    ∃ calls, Run Poller.releasingStep
      (fun p call => p.OpenDescriptors call ∧ p.OwnDescriptor call.op)
      (Poller.create (eventFds id)) calls (c.world.pollers id) :=
  (SharedSockets.Accounted.run reached).linked.proceeds id member

/-- A client is registered and its handle dropped, and it is reported and taken. A stop clears the
map, the turn ends, and a new socket gets the descriptor. -/
def sharingOps : List SharingOp :=
  [.create ⟨0, 7, .client⟩ .ready,
    .call (.updateSocket 0 (some ⟨0, 7, .client⟩) epollIn 1000 0 0), .drop ⟨0, 7, .client⟩,
    .poll 0 [⟨7, epollIn⟩] 1 2 2, .take 0 0, .call (.signal 0 .stop), .poll 0 [⟨3, epollIn⟩] 3 4 4,
    .finish 0, .create ⟨0, 7, .server⟩ .created]

def sharedServer : SharedSockets :=
  (checkedRun (SharedSockets.step [0]) (fun _ _ => True) (.start fun _ => 3) sharingOps).get
    (by decide +kernel)

theorem pollers_proceed_shared :
    ∃ calls, Run Poller.releasingStep
      (fun p call => p.OpenDescriptors call ∧ p.OwnDescriptor call.op)
      (Poller.create 3) calls (sharedServer.world.pollers 0) :=
  @pollers_proceed (fun _ => 3) [0] sharingOps sharedServer (Run.of_isSome _) 0
    (List.mem_singleton.mpr rfl)

end Jasl
