import Jasl.Reactor.WorldSteps
import Jasl.Library.LockGraph

/-!
# Threads that move sockets

Threads call `update_socket` and `remove_socket` on shared pollers. Each poller has a
spinlock that is not recursive, and both calls hold it until they return. Within
`update_socket` a socket that is attached to another poller is removed from that one:
`attach_to_poller` calls `remove_socket` of the previous poller, which takes the lock
of the previous poller while the lock of the new one is held.

`Threads` are the pollers and sockets with the locks and with the place at which each
thread stands in its call; a step is one step of one thread, and a step at a lock that
is taken spins. A call that no other thread disturbs does what `World` says
(`updateSocket_alone`, `removeSocket_alone`).

No order is kept between the two locks, and two opposite moves may wait for each
other (`opposite_moves_deadlock`). There is no deadlock as long as no move begins to
wait for its previous poller while waiting moves lead from there to its new one
(`moves_do_not_deadlock`), for example because every move goes the same way in some
order of the pollers (`Threads.apart_of_ordered`).
-/

set_option autoImplicit false

namespace Jasl

open Library

/-! ## Calls and their locks -/

abbrev ThreadId := ℕ

/-- Where a thread stands in its call. -/
inductive CallState where
  | idle
  /-- In `update_socket`, before the lock. -/
  | updating (poller : PollerId) (socket : SocketPtr)
      (eventMask timeoutStep readClock writeClock : Word)
  | updateLocked (poller : PollerId) (socket : SocketPtr)
      (eventMask timeoutStep readClock writeClock : Word)
  /-- In `attach_to_poller`, before `m_poller` is compared with the new poller. -/
  | attaching (poller : PollerId) (socket : SocketPtr)
  /-- In `remove_from_poller`, before `m_poller` is read. -/
  | detaching (poller : PollerId) (socket : SocketPtr)
  /-- In `remove_socket` of the previous poller, before the lock. -/
  | removingFrom (poller : PollerId) (socket : SocketPtr) (previous : PollerId)
  | removeFromLocked (poller : PollerId) (socket : SocketPtr) (previous : PollerId)
  /-- `remove_socket` of the previous poller returns. -/
  | removedFrom (poller : PollerId) (socket : SocketPtr) (previous : PollerId)
  /-- In `remove_from_poller`, before `m_poller.reset()`. -/
  | detached (poller : PollerId) (socket : SocketPtr)
  /-- In `attach_to_poller`, before `m_poller = poller`. -/
  | attached (poller : PollerId) (socket : SocketPtr)
  /-- In `remove_socket`, before the lock. -/
  | removing (poller : PollerId) (socket : SocketPtr)
  | removeLocked (poller : PollerId) (socket : SocketPtr)
  /-- The call returns. -/
  | leaving (poller : PollerId)
deriving DecidableEq, Repr

namespace CallState

/-- The pollers whose locks a call holds. -/
def held : CallState → List PollerId
  | .idle | .updating .. | .removing .. => []
  | .updateLocked poller .. | .attaching poller _ | .detaching poller _
  | .removingFrom poller _ _ | .detached poller _ | .attached poller _
  | .removeLocked poller _ | .leaving poller => [poller]
  | .removeFromLocked poller _ previous | .removedFrom poller _ previous => [poller, previous]

/-- The poller whose lock a call waits for. -/
def wanted : CallState → Option PollerId
  | .updating poller .. | .removing poller _ => some poller
  | .removingFrom _ _ previous => some previous
  | _ => none

end CallState

/-- The pollers and sockets, `m_lock` of each poller, and the calls of the threads. -/
structure Threads where
  world : World
  locked : PollerId → Bool
  calls : ThreadId → CallState

/-- A step of a thread: it makes a call, or goes on in the one it is in. -/
inductive ThreadOp where
  | update (thread : ThreadId) (poller : PollerId) (socket : Option SocketPtr)
      (eventMask timeoutStep readClock writeClock : Word)
  | remove (thread : ThreadId) (poller : PollerId) (socket : Option SocketPtr)
  | goOn (thread : ThreadId)
deriving Repr

/-- The thread that takes the step. -/
def ThreadOp.thread : ThreadOp → ThreadId
  | .update thread .. | .remove thread .. | .goOn thread => thread

namespace Threads

/-- Nothing is registered, locked or called. -/
def start (eventFds : PollerId → FD) (states : SocketPtr → SocketState) : Threads where
  world := .start eventFds states
  locked := fun _ => false
  calls := fun _ => .idle

/-- A thread changes the pollers and sockets, and comes to another place of its call. -/
def move (s : Threads) (thread : ThreadId) (world : World) (next : CallState) : Threads :=
  { s with world, calls := Function.update s.calls thread next }

/-- `Spinlock::lock`, one turn of its loop. -/
def lock (s : Threads) (thread : ThreadId) (poller : PollerId) (next : CallState) : Threads :=
  if s.locked poller then s
  else { s with
    locked := Function.update s.locked poller true
    calls := Function.update s.calls thread next }

/-- `Spinlock::unlock`. -/
def unlock (s : Threads) (thread : ThreadId) (poller : PollerId) (next : CallState) : Threads :=
  { s with
    locked := Function.update s.locked poller false
    calls := Function.update s.calls thread next }

/-- A thread makes a call; a thread that is in one does not, and a null pointer is answered at
once. -/
def enter (s : Threads) (thread : ThreadId) (socket : Option SocketPtr)
    (next : SocketPtr → CallState) : Threads :=
  match socket with
  | none => s
  | some socket =>
      if s.calls thread = .idle then s.move thread s.world (next socket) else s

/-- A thread goes on in its call. -/
def goOn (s : Threads) (thread : ThreadId) : Except Assertion Threads :=
  match s.calls thread with
  | .idle => .ok s
  | .updating poller socket eventMask timeoutStep readClock writeClock =>
      .ok (s.lock thread poller
        (.updateLocked poller socket eventMask timeoutStep readClock writeClock))
  | .updateLocked poller socket eventMask timeoutStep readClock writeClock =>
      -- `signal(UPDATE)` is sent here and not after the attachment; no lock guards the counter
      match (s.world.pollers poller).updateSocket (some socket) eventMask timeoutStep readClock
        writeClock with
      | .error failed => .error failed
      | .ok p =>
          .ok (s.move thread ((s.world.noteClash poller socket).setPoller poller p)
            (if (s.world.pollers poller).registers socket then .attaching poller socket
            else .leaving poller))
  | .attaching poller socket =>
      .ok (if (s.world.sockets socket).poller = some poller then
        s.move thread (s.world.note (.registered poller socket)) (.leaving poller)
      else s.move thread s.world (.detaching poller socket))
  | .detaching poller socket =>
      .ok (s.move thread s.world
        (match (s.world.sockets socket).poller with
        | none => .attached poller socket
        | some previous => .removingFrom poller socket previous))
  | .removingFrom poller socket previous =>
      .ok (s.lock thread previous (.removeFromLocked poller socket previous))
  | .removeFromLocked poller socket previous =>
      .ok (s.move thread (s.world.removeSocket previous (some socket))
        (.removedFrom poller socket previous))
  | .removedFrom poller socket previous =>
      .ok (s.unlock thread previous (.detached poller socket))
  | .detached poller socket =>
      .ok (s.move thread (s.world.setAttached socket none) (.attached poller socket))
  | .attached poller socket =>
      .ok (s.move thread
        ((s.world.setAttached socket (some poller)).note (.registered poller socket))
        (.leaving poller))
  | .removing poller socket => .ok (s.lock thread poller (.removeLocked poller socket))
  | .removeLocked poller socket =>
      .ok (s.move thread (s.world.removeSocket poller (some socket)) (.leaving poller))
  | .leaving poller => .ok (s.unlock thread poller .idle)

/-- One step of one thread. -/
def step (s : Threads) : ThreadOp → Except Assertion Threads
  | .update thread poller socket eventMask timeoutStep readClock writeClock =>
      .ok (s.enter thread socket fun socket =>
        .updating poller socket eventMask timeoutStep readClock writeClock)
  | .remove thread poller socket =>
      .ok (s.enter thread socket fun socket => .removing poller socket)
  | .goOn thread => s.goOn thread

/-- Which thread holds which lock, and waits for which. -/
def locks (s : Threads) : Locks ThreadId PollerId where
  holds thread poller := poller ∈ (s.calls thread).held
  waits thread := (s.calls thread).wanted

instance (s : Threads) (thread : ThreadId) (poller : PollerId) :
    Decidable (s.locks.holds thread poller) :=
  inferInstanceAs (Decidable (poller ∈ (s.calls thread).held))

/-! ## Calls without other threads -/

/-- From `attach_to_poller` to the end of the call. -/
theorem attachToPoller_alone {s : Threads} {thread : ThreadId} {poller : PollerId}
    {socket : SocketPtr} (stands : s.calls thread = .attaching poller socket)
    (freeBefore : ∀ previous ∈ (s.world.sockets socket).poller, previous ≠ poller →
      s.locked previous = false) :
    perform step s (List.replicate 8 (.goOn thread)) =
      .ok { world := (s.world.attachToPoller socket poller).note (.registered poller socket)
            locked := Function.update s.locked poller false
            calls := Function.update s.calls thread .idle } := by
  cases attached : (s.world.sockets socket).poller with
  | none =>
      simp [perform, step, goOn, move, unlock, List.replicate, World.attachToPoller,
        World.removeFromPoller, stands, attached]
  | some previous =>
      by_cases same : previous = poller
      · simp [perform, step, goOn, move, unlock, List.replicate, World.attachToPoller, stands,
          attached, same]
      · have free := freeBefore previous attached same
        have restored : Function.update s.locked previous false = s.locked := by
          rw [← free, Function.update_eq_self]
        simp [perform, step, goOn, move, lock, unlock, List.replicate, World.attachToPoller,
          World.removeFromPoller, stands, attached, same, free, restored]

/-- **`update_socket` alone**: a call that no other thread disturbs. -/
theorem updateSocket_alone {s : Threads} {thread : ThreadId} {poller : PollerId}
    {socket : SocketPtr} {eventMask timeoutStep readClock writeClock : Word}
    (idle : s.calls thread = .idle) (free : s.locked poller = false)
    (freeBefore : ∀ previous ∈ (s.world.sockets socket).poller, s.locked previous = false) :
    perform step s
        (.update thread poller (some socket) eventMask timeoutStep readClock writeClock ::
          List.replicate 10 (.goOn thread)) =
      (s.world.updateSocket poller (some socket) eventMask timeoutStep readClock writeClock).map
        fun world => { s with world } := by
  change perform step s (_ :: .goOn thread :: .goOn thread :: List.replicate 8 (.goOn thread)) = _
  cases updated : (s.world.pollers poller).updateSocket (some socket) eventMask timeoutStep
      readClock writeClock with
  | error failed =>
      simp [perform, step, enter, goOn, move, lock, World.updateSocket, Except.map, idle, free,
        updated]
  | ok p =>
      by_cases registers : (s.world.pollers poller).registers socket = true
      · simp only [perform, step, enter, goOn, move, lock, idle, free, updated, registers,
          if_true, Function.update_self, Bool.false_eq_true, if_false, Function.update_idem]
        rw [attachToPoller_alone (Function.update_self ..)]
        · simp [World.updateSocket, Except.map, updated, registers, idle, free]
        · intro previous attached other
          rw [World.setPoller_sockets, World.noteClash_sockets] at attached
          exact (Function.update_of_ne other ..).trans (freeBefore previous attached)
      · simp [perform, step, enter, goOn, move, lock, unlock, List.replicate, World.updateSocket,
          Except.map, idle, free, updated, registers]

/-- **`remove_socket` alone.** -/
theorem removeSocket_alone {s : Threads} {thread : ThreadId} {poller : PollerId}
    {socket : SocketPtr} (idle : s.calls thread = .idle) (free : s.locked poller = false) :
    perform step s (.remove thread poller (some socket) :: List.replicate 3 (.goOn thread)) =
      .ok { s with world := s.world.removeSocket poller (some socket) } := by
  simp [perform, step, enter, goOn, move, lock, unlock, List.replicate, idle, free]

/-! ## What a step does to the locks -/

/-- The new and the previous poller of the move that a step takes to wait for the lock of the
previous one. -/
def waitsNext (s : Threads) : ThreadOp → Option (PollerId × PollerId)
  | .goOn thread =>
      match s.calls thread with
      | .detaching poller socket =>
          (s.world.sockets socket).poller.map fun previous => (poller, previous)
      | _ => none
  | _ => none

theorem waitsNext_eq_some {s : Threads} {op : ThreadOp} {poller previous : PollerId} :
    s.waitsNext op = some (poller, previous) ↔
      ∃ thread socket, op = .goOn thread ∧ s.calls thread = .detaching poller socket ∧
        (s.world.sockets socket).poller = some previous := by
  constructor
  · intro waits
    cases op with
    | goOn thread =>
        rw [waitsNext] at waits
        split at waits
        · rename_i target socket detaches
          obtain ⟨old, attached, same⟩ := Option.map_eq_some_iff.mp waits
          obtain ⟨rfl, rfl⟩ := Prod.mk.inj same
          exact ⟨thread, socket, rfl, detaches, attached⟩
        · cases waits
    | _ => cases waits
  · rintro ⟨thread, socket, rfl, detaches, attached⟩
    simp only [waitsNext, detaches, attached, Option.map_some]

/-- The six ways a step of a thread ends. -/
inductive LockEffect (s : Threads) (op : ThreadOp) (after : Threads) : Prop where
  | spins (same : after = s)
  | works {next : CallState} (busy : (s.calls op.thread).wanted = none)
      (calls : after.calls = Function.update s.calls op.thread next)
      (locked : after.locked = s.locked)
      (held : next.held = (s.calls op.thread).held) (wanted : next.wanted = none)
  | enters {next : CallState} {poller : PollerId} (idle : s.calls op.thread = .idle)
      (calls : after.calls = Function.update s.calls op.thread next)
      (locked : after.locked = s.locked)
      (held : next.held = []) (wanted : next.wanted = some poller)
  | moves {next : CallState} {poller previous : PollerId}
      (waits : s.waitsNext op = some (poller, previous))
      (busy : (s.calls op.thread).wanted = none) (holds : (s.calls op.thread).held = [poller])
      (calls : after.calls = Function.update s.calls op.thread next)
      (locked : after.locked = s.locked)
      (held : next.held = [poller]) (wanted : next.wanted = some previous)
  | takes {next : CallState} {poller : PollerId}
      (waits : (s.calls op.thread).wanted = some poller) (free : s.locked poller = false)
      (calls : after.calls = Function.update s.calls op.thread next)
      (locked : after.locked = Function.update s.locked poller true)
      (held : next.held = (s.calls op.thread).held ++ [poller]) (wanted : next.wanted = none)
  | gives {next : CallState} {poller : PollerId} (busy : (s.calls op.thread).wanted = none)
      (calls : after.calls = Function.update s.calls op.thread next)
      (locked : after.locked = Function.update s.locked poller false)
      (held : (s.calls op.thread).held = next.held ++ [poller]) (wanted : next.wanted = none)

variable {s after : Threads} {op : ThreadOp} {thread : ThreadId}

theorem enter_effect {socket : Option SocketPtr} {next : SocketPtr → CallState}
    {poller : PollerId} (held : ∀ socket, (next socket).held = [])
    (wanted : ∀ socket, (next socket).wanted = some poller) :
    LockEffect s op (s.enter op.thread socket next) := by
  cases socket with
  | none => exact .spins rfl
  | some socket =>
      simp only [enter]
      split
      · rename_i idle
        exact .enters idle rfl rfl (held socket) (wanted socket)
      · exact .spins rfl

theorem move_effect {world : World} {current next : CallState}
    (stands : s.calls op.thread = current) (busy : current.wanted = none)
    (held : next.held = current.held) (wanted : next.wanted = none) :
    LockEffect s op (s.move op.thread world next) := by
  subst stands
  exact .works busy rfl rfl held wanted

theorem lock_effect {poller : PollerId} {current next : CallState}
    (stands : s.calls op.thread = current) (waits : current.wanted = some poller)
    (held : next.held = current.held ++ [poller]) (wanted : next.wanted = none) :
    LockEffect s op (s.lock op.thread poller next) := by
  subst stands
  rw [lock]
  split
  · exact .spins rfl
  · rename_i free
    exact .takes waits (Bool.not_eq_true _ ▸ free) rfl rfl held wanted

theorem unlock_effect {poller : PollerId} {current next : CallState}
    (stands : s.calls op.thread = current) (busy : current.wanted = none)
    (held : current.held = next.held ++ [poller]) (wanted : next.wanted = none) :
    LockEffect s op (s.unlock op.thread poller next) := by
  subst stands
  exact .gives busy rfl rfl held wanted

theorem goOn_effect (returned : s.goOn thread = .ok after) :
    LockEffect s (.goOn thread) after := by
  rw [goOn] at returned
  cases stands : s.calls thread with
  | updateLocked poller socket eventMask timeoutStep readClock writeClock =>
      simp only [stands] at returned
      split at returned
      · cases returned
      · obtain rfl := Except.ok.inj returned
        split
        · exact move_effect stands rfl rfl rfl
        · exact move_effect stands rfl rfl rfl
  | attaching poller socket =>
      simp only [stands, Except.ok.injEq] at returned
      subst returned
      split
      · exact move_effect stands rfl rfl rfl
      · exact move_effect stands rfl rfl rfl
  | detaching poller socket =>
      simp only [stands, Except.ok.injEq] at returned
      subst returned
      cases attached : (s.world.sockets socket).poller with
      | none => exact move_effect stands rfl rfl rfl
      | some previous =>
          exact .moves (waitsNext_eq_some.mpr ⟨thread, socket, rfl, stands, attached⟩)
            (congrArg CallState.wanted stands) (congrArg CallState.held stands) rfl rfl rfl rfl
  | idle =>
      simp only [stands, Except.ok.injEq] at returned
      exact .spins returned.symm
  | updating poller socket eventMask timeoutStep readClock writeClock =>
      simp only [stands, Except.ok.injEq] at returned
      exact returned ▸ lock_effect stands rfl rfl rfl
  | removingFrom poller socket previous =>
      simp only [stands, Except.ok.injEq] at returned
      exact returned ▸ lock_effect stands rfl rfl rfl
  | removing poller socket =>
      simp only [stands, Except.ok.injEq] at returned
      exact returned ▸ lock_effect stands rfl rfl rfl
  | removedFrom poller socket previous =>
      simp only [stands, Except.ok.injEq] at returned
      exact returned ▸ unlock_effect stands rfl rfl rfl
  | leaving poller =>
      simp only [stands, Except.ok.injEq] at returned
      exact returned ▸ unlock_effect stands rfl rfl rfl
  | removeFromLocked poller socket previous =>
      simp only [stands, Except.ok.injEq] at returned
      exact returned ▸ move_effect stands rfl rfl rfl
  | detached poller socket =>
      simp only [stands, Except.ok.injEq] at returned
      exact returned ▸ move_effect stands rfl rfl rfl
  | attached poller socket =>
      simp only [stands, Except.ok.injEq] at returned
      exact returned ▸ move_effect stands rfl rfl rfl
  | removeLocked poller socket =>
      simp only [stands, Except.ok.injEq] at returned
      exact returned ▸ move_effect stands rfl rfl rfl

/-- **Every step has one of the effects.** -/
theorem step_effect (returned : s.step op = .ok after) : LockEffect s op after := by
  cases op with
  | update thread poller socket eventMask timeoutStep readClock writeClock =>
      obtain rfl := Except.ok.inj returned
      exact enter_effect (fun _ => rfl) fun _ => rfl
  | remove thread poller socket =>
      obtain rfl := Except.ok.inj returned
      exact enter_effect (fun _ => rfl) fun _ => rfl
  | goOn thread => exact goOn_effect returned

/-! ## The locks after a step -/

/-- The locks are others when those of the thread are, and those of the other threads are not. -/
theorem locks_eq {next : CallState} {locks : Locks ThreadId PollerId}
    (calls : after.calls = Function.update s.calls thread next)
    (held : ∀ poller, locks.holds thread poller ↔ poller ∈ next.held)
    (wanted : locks.waits thread = next.wanted)
    (heldByOthers : ∀ other, other ≠ thread → ∀ poller,
      locks.holds other poller ↔ s.locks.holds other poller)
    (wantedByOthers : ∀ other, other ≠ thread → locks.waits other = s.locks.waits other) :
    after.locks = locks := by
  apply Locks.ext
  · funext other poller
    change (poller ∈ (after.calls other).held) = locks.holds other poller
    rw [calls, eq_iff_iff]
    by_cases own : other = thread
    · rw [own, Function.update_self, held]
    · rw [Function.update_of_ne own, heldByOthers other own]
      rfl
  · funext other
    change (after.calls other).wanted = locks.waits other
    rw [calls]
    by_cases own : other = thread
    · rw [own, Function.update_self, wanted]
    · rw [Function.update_of_ne own, wantedByOthers other own]
      rfl

theorem locks_of_works {next : CallState} (busy : (s.calls thread).wanted = none)
    (calls : after.calls = Function.update s.calls thread next)
    (held : next.held = (s.calls thread).held) (wanted : next.wanted = none) :
    after.locks = s.locks := by
  refine locks_eq calls ?_ (busy.trans wanted.symm) (fun _ _ _ => Iff.rfl) (fun _ _ => rfl)
  intro poller
  rw [held]
  rfl

theorem locks_of_asks {next : CallState} {poller : PollerId}
    (calls : after.calls = Function.update s.calls thread next)
    (held : next.held = (s.calls thread).held) (wanted : next.wanted = some poller) :
    after.locks = s.locks.ask thread poller := by
  refine locks_eq calls ?_ ?_ (fun _ _ _ => Iff.rfl) ?_
  · intro other
    rw [held]
    rfl
  · rw [Locks.ask_waits_self, wanted]
  · intro other different
    exact Locks.ask_waits_of_ne s.locks different poller

theorem locks_of_takes {next : CallState} {poller : PollerId}
    (calls : after.calls = Function.update s.calls thread next)
    (held : next.held = (s.calls thread).held ++ [poller]) (wanted : next.wanted = none) :
    after.locks = s.locks.take thread poller := by
  refine locks_eq calls ?_ ?_ ?_ ?_
  · intro other
    rw [held, List.mem_append, List.mem_singleton]
    exact or_congr Iff.rfl (and_iff_right rfl)
  · rw [Locks.take_waits_self, wanted]
  · intro other different held
    exact or_iff_left fun same => different same.1
  · intro other different
    exact Locks.take_waits_of_ne s.locks different poller

theorem locks_of_gives {next : CallState} {poller : PollerId}
    (nodup : (s.calls thread).held.Nodup) (busy : (s.calls thread).wanted = none)
    (calls : after.calls = Function.update s.calls thread next)
    (held : (s.calls thread).held = next.held ++ [poller]) (wanted : next.wanted = none) :
    after.locks = s.locks.give thread poller := by
  rw [held] at nodup
  refine locks_eq calls ?_ (busy.trans wanted.symm) ?_ (fun _ _ => rfl)
  · intro other
    change (other ∈ (s.calls thread).held ∧ ¬ (thread = thread ∧ other = poller)) ↔ _
    rw [held, List.mem_append, List.mem_singleton]
    constructor
    · rintro ⟨inNext | same, different⟩
      · exact inNext
      · exact absurd ⟨rfl, same⟩ different
    · intro inNext
      refine ⟨.inl inNext, ?_⟩
      rintro ⟨-, rfl⟩
      exact List.disjoint_of_nodup_append nodup inNext (List.mem_singleton_self _)
  · intro other different held
    exact and_iff_left fun same => different same.1

/-! ## Spinlocks exclude -/

/-- A lock is taken exactly while a call holds it, and no two calls hold it. -/
structure Locking (s : Threads) : Prop where
  nodup : ∀ thread, (s.calls thread).held.Nodup
  locked : ∀ poller, s.locked poller = true ↔ ∃ thread, s.locks.holds thread poller
  exclusive : s.locks.Exclusive

namespace Locking

theorem start (eventFds : PollerId → FD) (states : SocketPtr → SocketState) :
    (Threads.start eventFds states).Locking where
  nodup := fun _ => .nil
  locked := fun _ => iff_of_false Bool.false_ne_true fun ⟨_, held⟩ => List.not_mem_nil held
  exclusive := fun _ _ _ held => absurd held List.not_mem_nil

/-- A lock that is free is held by no call. -/
theorem free (locking : s.Locking) {poller : PollerId} (unlocked : s.locked poller = false) :
    ∀ other, ¬ s.locks.holds other poller := by
  intro other holds
  rw [(locking.locked poller).mpr ⟨other, holds⟩] at unlocked
  cases unlocked

/-- Every call holds different locks when the call that came to another place does. -/
theorem nodup_update (locking : s.Locking) {next : CallState}
    (calls : after.calls = Function.update s.calls thread next) (own : next.held.Nodup) :
    ∀ other, (after.calls other).held.Nodup := by
  intro other
  rw [calls]
  by_cases same : other = thread
  · rwa [same, Function.update_self]
  · rw [Function.update_of_ne same]
    exact locking.nodup other

/-- A step that takes and gives back no lock. -/
theorem keeps (locking : s.Locking) {next : CallState}
    (calls : after.calls = Function.update s.calls thread next)
    (held : next.held = (s.calls thread).held) (locked : after.locked = s.locked)
    (holds : after.locks.holds = s.locks.holds) : after.Locking where
  nodup := locking.nodup_update calls (held ▸ locking.nodup thread)
  locked := by
    rw [locked, holds]
    exact locking.locked
  exclusive := by
    rw [Locks.Exclusive, holds]
    exact locking.exclusive

theorem takes (locking : s.Locking) {next : CallState} {poller : PollerId}
    (unlocked : s.locked poller = false)
    (calls : after.calls = Function.update s.calls thread next)
    (locked : after.locked = Function.update s.locked poller true)
    (held : next.held = (s.calls thread).held ++ [poller]) (wanted : next.wanted = none) :
    after.Locking := by
  have locks := locks_of_takes calls held wanted
  have unheld := locking.free unlocked
  refine ⟨locking.nodup_update calls ?_, ?_, ?_⟩
  · rw [held]
    refine List.nodup_append.mpr ⟨locking.nodup thread, List.nodup_singleton poller, ?_⟩
    rintro lock inHeld _ own rfl
    exact unheld thread (List.mem_singleton.mp own ▸ inHeld)
  · intro lock
    rw [locked, locks, Locks.held_take, ← locking.locked]
    by_cases same : lock = poller
    · rw [same, Function.update_self]
      exact iff_of_true rfl (.inl rfl)
    · rw [Function.update_of_ne same]
      exact (or_iff_right same).symm
  · rw [locks]
    exact locking.exclusive.take unheld

theorem gives (locking : s.Locking) {next : CallState} {poller : PollerId}
    (busy : (s.calls thread).wanted = none)
    (calls : after.calls = Function.update s.calls thread next)
    (locked : after.locked = Function.update s.locked poller false)
    (held : (s.calls thread).held = next.held ++ [poller]) (wanted : next.wanted = none) :
    after.Locking := by
  have nodup := locking.nodup thread
  have locks := locks_of_gives nodup busy calls held wanted
  rw [held] at nodup
  have holds : s.locks.holds thread poller := by
    change poller ∈ (s.calls thread).held
    rw [held]
    exact List.mem_append_right _ (List.mem_singleton_self _)
  refine ⟨locking.nodup_update calls (List.nodup_append.mp nodup).1, ?_, ?_⟩
  · intro lock
    rw [locked, locks, locking.exclusive.held_give holds, ← locking.locked]
    by_cases same : lock = poller
    · rw [same, Function.update_self]
      exact iff_of_false Bool.false_ne_true fun given => given.1 rfl
    · rw [Function.update_of_ne same]
      exact (and_iff_right same).symm
  · rw [locks]
    exact locking.exclusive.give

/-- **Every step keeps the locks exclusive.** -/
theorem step (locking : s.Locking) (effect : LockEffect s op after) : after.Locking := by
  cases effect with
  | spins same => exact same ▸ locking
  | works busy calls locked held wanted =>
      have holds := congrArg Locks.holds (locks_of_works busy calls held wanted)
      exact locking.keeps calls held locked holds
  | enters idle calls locked held wanted =>
      have same := held.trans (congrArg CallState.held idle).symm
      refine locking.keeps calls same locked ?_
      rw [locks_of_asks calls same wanted]
      rfl
  | moves _ _ holds calls locked held wanted =>
      have same := held.trans holds.symm
      refine locking.keeps calls same locked ?_
      rw [locks_of_asks calls same wanted]
      rfl
  | takes _ free calls locked held wanted => exact locking.takes free calls locked held wanted
  | gives busy calls locked held wanted => exact locking.gives busy calls locked held wanted

/-- **In every run a lock is taken exactly while a call holds it, and by one call only.** -/
theorem run {eventFds : PollerId → FD} {states : SocketPtr → SocketState}
    {allowed : Threads → ThreadOp → Prop} {ops : List ThreadOp}
    (run : Run Threads.step allowed (.start eventFds states) ops s) : s.Locking := by
  apply run.invariant Locking (start eventFds states)
  intro before op after locking _ stepped
  exact locking.step (step_effect stepped)

end Locking

/-- What a step does to the locks. A thread begins to wait while it holds a lock only in a move,
between its new and its previous poller. -/
inductive LockStep (s : Threads) (op : ThreadOp) : Locks ThreadId PollerId → Prop where
  | same : LockStep s op s.locks
  | asks {lock : PollerId} (busy : s.locks.waits op.thread = none)
      (waits : ∀ held, s.locks.holds op.thread held → s.waitsNext op = some (held, lock)) :
      LockStep s op (s.locks.ask op.thread lock)
  | takes {lock : PollerId} : LockStep s op (s.locks.take op.thread lock)
  | gives {lock : PollerId} : LockStep s op (s.locks.give op.thread lock)

theorem Locking.lockStep (locking : s.Locking) (returned : s.step op = .ok after) :
    s.LockStep op after.locks := by
  cases step_effect returned with
  | spins same =>
      rw [same]
      exact .same
  | works busy calls locked held wanted =>
      rw [locks_of_works busy calls held wanted]
      exact .same
  | enters idle calls locked held wanted =>
      have none : (s.calls op.thread).held = [] := congrArg CallState.held idle
      rw [locks_of_asks calls (held.trans none.symm) wanted]
      refine .asks (congrArg CallState.wanted idle) ?_
      intro lock holds
      change lock ∈ (s.calls op.thread).held at holds
      rw [none] at holds
      cases holds
  | @moves _ poller previous waits busy holds calls locked held wanted =>
      rw [locks_of_asks calls (held.trans holds.symm) wanted]
      refine .asks busy ?_
      intro lock own
      change lock ∈ (s.calls op.thread).held at own
      rw [holds] at own
      rw [List.mem_singleton.mp own]
      exact waits
  | takes waits free calls locked held wanted =>
      rw [locks_of_takes calls held wanted]
      exact .takes
  | gives busy calls locked held wanted =>
      rw [locks_of_gives (locking.nodup op.thread) busy calls held wanted]
      exact .gives

/-! ## Moves that wait for each other -/

/-- A move begins to wait for the lock of its previous poller only if the moves that wait already
do not lead from there to its new poller. -/
def Apart (s : Threads) (op : ThreadOp) : Prop :=
  ∀ move ∈ s.waitsNext op, ¬ Relation.ReflTransGen s.locks.Leads move.2 move.1

/-- A step that is apart makes no deadlock. -/
theorem LockStep.free {locks : Locks ThreadId PollerId} (step : s.LockStep op locks)
    (free : ¬ s.locks.Deadlocked) (apart : s.Apart op) : ¬ locks.Deadlocked := by
  intro deadlocked
  cases step with
  | same => exact free deadlocked
  | @asks lock busy waits =>
      rw [Locks.deadlocked_ask busy] at deadlocked
      rcases deadlocked with before | ⟨held, holds, path⟩
      · exact free before
      · exact apart (held, lock) (waits held holds) path
  | takes => exact free deadlocked.of_take
  | gives => exact free deadlocked.of_give

/-- A step that is not apart makes one. -/
theorem deadlocked_of_not_apart (opposite : ¬ s.Apart op) (returned : s.step op = .ok after) :
    after.locks.Deadlocked := by
  rw [Apart] at opposite
  push Not at opposite
  obtain ⟨⟨poller, previous⟩, waits, path⟩ := opposite
  obtain ⟨thread, socket, rfl, detaches, attached⟩ := waitsNext_eq_some.mp waits
  simp only [step, goOn, detaches, attached, Except.ok.injEq] at returned
  have calls : after.calls =
      Function.update s.calls thread (.removingFrom poller socket previous) :=
    returned ▸ rfl
  have holds : (s.calls thread).held = [poller] := congrArg CallState.held detaches
  rw [locks_of_asks calls holds.symm rfl,
    Locks.deadlocked_ask (congrArg CallState.wanted detaches)]
  refine .inr ⟨poller, ?_, path⟩
  change poller ∈ (s.calls thread).held
  rw [holds]
  exact List.mem_singleton_self poller

/-! ## Moves in the order of the pollers -/

/-- Moves that begin to wait go from a poller of lower rank to one of higher rank. -/
def Ordered (rank : PollerId → ℕ) (s : Threads) (op : ThreadOp) : Prop :=
  ∀ move ∈ s.waitsNext op, rank move.2 < rank move.1

instance (rank : PollerId → ℕ) (s : Threads) (op : ThreadOp) : Decidable (s.Ordered rank op) :=
  inferInstanceAs (Decidable (∀ move ∈ s.waitsNext op, rank move.2 < rank move.1))

/-- Moves that wait lead from higher to lower ranks. -/
def Descends (rank : PollerId → ℕ) (s : Threads) : Prop :=
  ∀ held lock, s.locks.Leads held lock → rank lock < rank held

theorem LockStep.descends {rank : PollerId → ℕ} (step : s.LockStep op after.locks)
    (descends : s.Descends rank) (ordered : s.Ordered rank op) : after.Descends rank := by
  rw [Descends]
  generalize after.locks = locks at step
  intro held next leads
  cases step with
  | same => exact descends held next leads
  | @asks lock busy waits =>
      rcases leads.of_ask with before | ⟨holds, rfl⟩
      · exact descends held next before
      · exact ordered (held, next) (waits held holds)
  | takes => exact descends held next leads.of_take
  | gives => exact descends held next leads.of_give

/-- **A lock order suffices**: the moves of a run are apart when all of them go up in some rank of
the pollers. -/
theorem apart_of_ordered {rank : PollerId → ℕ} {eventFds : PollerId → FD}
    {states : SocketPtr → SocketState} {ops : List ThreadOp}
    (run : Run step (Ordered rank) (.start eventFds states) ops s) :
    Run step Apart (.start eventFds states) ops s := by
  apply run.mono_of_invariant fun s => s.Locking ∧ s.Descends rank
  · refine ⟨.start eventFds states, ?_⟩
    rintro held lock ⟨_, holds, -⟩
    exact absurd holds List.not_mem_nil
  · intro before op after ⟨locking, descends⟩ ordered stepped
    exact ⟨locking.step (step_effect stepped),
      (locking.lockStep stepped).descends descends ordered⟩
  · intro before op ⟨_, descends⟩ ordered move waits
    exact before.locks.not_leads_of_rank rank descends (ordered move waits)

end Threads

/-- **Moving sockets between pollers does not deadlock** in the runs whose moves are apart: no call
waits, over any number of other calls, on itself. A further step keeps that if and only if it is
apart from the moves that wait. -/
theorem moves_do_not_deadlock {eventFds : PollerId → FD} {states : SocketPtr → SocketState}
    {ops : List ThreadOp} {s : Threads}
    (run : Run Threads.step Threads.Apart (.start eventFds states) ops s) :
    (∀ thread, ¬ Relation.TransGen s.locks.WaitsOn thread thread) ∧
      ∀ op after, s.step op = .ok after →
        ((∀ thread, ¬ Relation.TransGen after.locks.WaitsOn thread thread) ↔ s.Apart op) := by
  have reached : s.Locking ∧ ¬ s.locks.Deadlocked := by
    apply run.invariant (fun s => s.Locking ∧ ¬ s.locks.Deadlocked)
    · refine ⟨.start eventFds states, ?_⟩
      rintro ⟨thread, cycle⟩
      obtain ⟨_, ⟨_, waits, -⟩, -⟩ := Relation.TransGen.head'_iff.mp cycle
      cases waits
    · intro before op after ⟨locking, free⟩ apart stepped
      exact ⟨locking.step (Threads.step_effect stepped),
        (locking.lockStep stepped).free free apart⟩
  obtain ⟨locking, free⟩ := reached
  refine ⟨not_exists.mp free, ?_⟩
  intro op after stepped
  constructor
  · intro freeAfter
    by_contra opposite
    obtain ⟨thread, cycle⟩ := Threads.deadlocked_of_not_apart opposite stepped
    exact freeAfter thread cycle
  · intro apart
    exact not_exists.mp ((locking.lockStep stepped).free free apart)

/-- The descriptors of the first two pollers. -/
def pairFds : PollerId → FD := fun id => if id = 0 then 3 else 4

/-- Two sockets. -/
def firstSocket : SocketPtr := ⟨0, 7, .client⟩
def secondSocket : SocketPtr := ⟨1, 8, .client⟩

/-- A thread registers a socket that is attached to no poller. -/
def registering (thread : ThreadId) (poller : PollerId) (socket : SocketPtr) : List ThreadOp :=
  .update thread poller (some socket) epollIn invalidTime 0 0 :: List.replicate 6 (.goOn thread)

/-- A thread takes a socket over from another poller, up to the lock of that poller. -/
def takingOver (thread : ThreadId) (poller : PollerId) (socket : SocketPtr) : List ThreadOp :=
  .update thread poller (some socket) epollIn invalidTime 0 0 :: List.replicate 4 (.goOn thread)

/-- A socket of the first poller is moved to the second, while the lock of the first is held by a
call that removes it there. -/
def movedUp : Threads :=
  (checkedRun Threads.step (Threads.Ordered id) (.start pairFds fun _ => .ready)
    (registering 0 0 firstSocket ++ [.remove 1 0 (some firstSocket), .goOn 1] ++
      takingOver 0 1 firstSocket)).get (by decide +kernel)

theorem moves_do_not_deadlock_up :
    movedUp.locks.WaitsOn 0 1 ∧ ∀ thread, ¬ Relation.TransGen movedUp.locks.WaitsOn thread thread :=
  ⟨⟨0, by decide +kernel, by decide +kernel⟩,
    (moves_do_not_deadlock (Threads.apart_of_ordered (Run.of_isSome _))).1⟩

/-- Two sockets of two pollers are moved to the other one each, by two threads. -/
def oppositeMoves : Threads :=
  (checkedRun Threads.step (fun _ _ => True) (.start pairFds fun _ => .ready)
    (registering 0 0 firstSocket ++ registering 0 1 secondSocket ++ takingOver 0 0 secondSocket ++
      takingOver 1 1 firstSocket)).get (by decide +kernel)

/-- Each holds the lock of its new poller and waits for the other. -/
theorem opposite_moves_deadlock :
    ¬ ∀ (eventFds : PollerId → FD) (states : SocketPtr → SocketState) (ops : List ThreadOp)
      (s : Threads), Run Threads.step (fun _ _ => True) (.start eventFds states) ops s →
        ∀ thread, ¬ Relation.TransGen s.locks.WaitsOn thread thread := by
  intro claim
  have first : oppositeMoves.locks.WaitsOn 0 1 := ⟨1, by decide +kernel, by decide +kernel⟩
  have second : oppositeMoves.locks.WaitsOn 1 0 := ⟨0, by decide +kernel, by decide +kernel⟩
  exact claim pairFds _ _ oppositeMoves (Run.of_isSome _) 0 (.tail (.single first) second)

end Jasl
