import Jasl.Reactor.Attachment

/-!
# Nothing is called on a closed socket

After the `on_close` of a socket no other callback of it is invoked, unless the
socket was registered again (`NothingAfterClose`). Behind that lies that `close`
removes the socket from the only poller that can have it, because `m_poller` names
that poller (`Fitting`), so a closed socket has no pending event. This module
proves it of everything user code does (`Orderly.run`).
-/

set_option autoImplicit false

namespace Jasl

open Library

/-! ## What is called after a close -/

/-- Where `on_read`, `on_write` or `on_accept` of a socket is invoked, the socket was not closed, or
it was registered since. -/
def NothingAfterClose (log : List Entry) : Prop :=
  ∀ later entry earlier, log = later ++ entry :: earlier →
    ∀ socket, entry.invokes = some socket → closedSince socket earlier = false

namespace NothingAfterClose

theorem nil : NothingAfterClose [] := by
  intro later entry earlier split
  cases later with
  | nil => cases split
  | cons _ _ => cases split

theorem cons {entry : Entry} {log : List Entry} (silent : NothingAfterClose log)
    (allowed : ∀ socket, entry.invokes = some socket → closedSince socket log = false) :
    NothingAfterClose (entry :: log) := by
  intro later other earlier split
  cases later with
  | nil =>
      obtain ⟨rfl, rfl⟩ := List.cons.inj split
      exact allowed
  | cons _ rest =>
      obtain ⟨-, rfl⟩ := List.cons.inj split
      exact silent rest other earlier rfl

/-- An entry that invokes nothing may always be noted. -/
theorem cons_other {entry : Entry} {log : List Entry} (silent : NothingAfterClose log)
    (other : entry.invokes = none) : NothingAfterClose (entry :: log) :=
  silent.cons (by simp [other])

end NothingAfterClose

namespace World

/-! ## Both sides of a registration -/

/-- A registered socket names its poller, and is not closed; `loose` are the pairs that may be on
the way there. -/
structure Coherent (loose : PollerId → SocketPtr → Prop) (w : World) : Prop where
  listed : ∀ id, (w.pollers id).Listed
  attached : ∀ id socket, w.Registered id socket →
    loose id socket ∨ (w.sockets socket).poller = some id
  closed : ∀ id socket, w.Registered id socket →
    loose id socket ∨ closedSince socket w.log = false
  silent : NothingAfterClose w.log

theorem Fitting.coherent {loose : PollerId → SocketPtr → Prop} {w : World}
    (fitting : Fitting loose w) (silent : NothingAfterClose w.log) : Coherent loose w where
  listed := fitting.listed
  attached := fitting.attached
  closed := fitting.closed
  silent := silent

theorem Coherent.fitting {loose : PollerId → SocketPtr → Prop} {w : World}
    (coherent : Coherent loose w) : Fitting loose w where
  listed := coherent.listed
  attached := coherent.attached
  closed := coherent.closed

/-! ## User code -/

/-- Calls and the start of a close invoke nothing but `on_close`. -/
theorem closeRules_silent : CloseRules fun w => NothingAfterClose w.log where
  removeSocket := by
    intro w id socket silent
    have noted : NothingAfterClose (w.noteClash id socket).log := by
      rw [noteClash]
      split
      · exact silent.cons_other rfl
      · exact silent
    simp only [World.removeSocket]
    split
    · exact noted
    · exact noted.cons_other rfl
  updateSocket := by
    intro w id socket _ _ _ _ p _ silent
    rw [setPoller_log, noteClash]
    split
    · exact silent.cons_other rfl
    · exact silent
  signal := fun _ _ _ silent => silent
  setAttached := fun _ _ _ silent => silent
  setState := fun _ _ silent => silent
  registered := fun _ _ _ silent => silent.cons_other rfl
  onClose := fun _ _ _ silent => silent.cons_other rfl

/-- Both sides of every registration fit, or a mark says why they may not. -/
def Orderly (w : World) : Prop := w.Marked ∨ Coherent Strict w

namespace Orderly

variable {w after : World} {socket : SocketPtr}

theorem of_settled (settled : w.Settled) (silent : NothingAfterClose w.log) : w.Orderly :=
  settled.imp_right fun fitting => fitting.coherent silent

theorem start (eventFds : PollerId → FD) (states : SocketPtr → SocketState) :
    (World.start eventFds states).Orderly :=
  of_settled (.start eventFds states) .nil

theorem note (orderly : w.Orderly) {entry : Entry} (steady : entry.Steady)
    (allowed : ∀ socket, entry.invokes = some socket → closedSince socket w.log = false) :
    (w.note entry).Orderly :=
  orderly.imp (fun marked => marked.note entry)
    fun coherent => (coherent.fitting.note steady).coherent (coherent.silent.cons allowed)

theorem call (orderly : w.Orderly) {made : Call} (called : w.call made = .ok after) :
    after.Orderly := by
  rcases orderly with marked | coherent
  · exact .inl (primitives_marked.closeRules.call marked called)
  · have settled : w.Settled := .inr coherent.fitting
    exact of_settled (settled.call called) (closeRules_silent.call coherent.silent called)

theorem beginClose (orderly : w.Orderly) (socket : SocketPtr) (closeReason : Word) :
    (w.beginClose socket closeReason).Orderly := by
  rcases orderly with marked | coherent
  · exact .inl (primitives_marked.closeRules.beginClose marked socket closeReason)
  · have settled : w.Settled := .inr coherent.fitting
    exact of_settled (settled.beginClose socket closeReason)
      (closeRules_silent.beginClose coherent.silent socket closeReason)

/-- **User code keeps both sides of every registration fitting.** -/
theorem run (orderly : w.Orderly) (callback : Callback) : (callback.run w).1.Orderly :=
  callback.run_keeps (fun _ _ _ held called => held.call called)
    (fun _ socket closeReason _ held => held.beginClose socket closeReason) w orderly

theorem close (orderly : w.Orderly) (socket : SocketPtr) (closeReason : Word)
    (onClose : Callback) : (w.close socket closeReason onClose.run).1.Orderly :=
  World.close_keeps orderly (fun _ => orderly.beginClose socket closeReason)
    fun _ held => held.run onClose

end Orderly

end World

end Jasl
