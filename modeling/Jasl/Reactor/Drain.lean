import Jasl.Poller.Pending
import Jasl.Reactor.WorldSteps

/-!
# The inner loop of the reactor

The inner loop of `Reactor::run` ends when `get_next_event` gives an event without
an action. No pending event is like that (`Poller.Actionable`), so the loop ends when
the set is empty, or when an exception or an assertion ends it (`Drains`).

While the user code of one event runs, no event is taken, and the pending events
change by the removal of sockets only (`Shrinks`). So a turn leaves fewer events
than it found, and the loop ends (`Drains.finishes`).
-/

set_option autoImplicit false

namespace Jasl

open Library

/-! ## Pending events of a run -/

theorem Poller.Actionable.reaches {p after : Poller} (actionable : p.Actionable)
    (reached : p.Reaches after) : after.Actionable := by
  obtain ⟨ops, run⟩ := reached
  exact run.invariant Poller.Actionable actionable fun _ _ _ held _ returned => held.step returned

/-! ## What a dispatch does to the pending events -/

namespace World

/-- Since the first world no event of the poller was taken, and the pending events are those of the
first world whose sockets were not removed since. -/
def Shrinks (id : PollerId) (first w : World) : Prop :=
  ∃ new, w.log = new ++ first.log ∧ (∀ event, .took id event ∉ new) ∧
    ∀ event, event ∈ (w.pollers id).outEvents ↔ event ∈ (first.pollers id).outEvents ∧
      ∀ socket, event.socket = some socket → .removed id socket ∉ new

namespace Shrinks

variable {id : PollerId} {first w after : World}

theorem refl (id : PollerId) (w : World) : Shrinks id w w := by
  refine ⟨[], rfl, fun _ => List.not_mem_nil, ?_⟩
  intro event
  constructor
  · intro member
    exact ⟨member, fun _ _ => List.not_mem_nil⟩
  · intro ⟨member, _⟩
    exact member

theorem extend (shrinks : Shrinks id first w) {added : List Entry}
    (log : after.log = added ++ w.log) (untaken : ∀ event, .took id event ∉ added)
    (events : ∀ event, event ∈ (after.pollers id).outEvents ↔ event ∈ (w.pollers id).outEvents ∧
      ∀ socket, event.socket = some socket → .removed id socket ∉ added) :
    Shrinks id first after := by
  obtain ⟨new, before, noTook, remaining⟩ := shrinks
  refine ⟨added ++ new, ?_, ?_, ?_⟩
  · rw [log, before, List.append_assoc]
  · intro event member
    rcases List.mem_append.mp member with inAdded | inNew
    · exact untaken event inAdded
    · exact noTook event inNew
  · intro event
    rw [events, remaining]
    constructor
    · intro ⟨⟨member, notNew⟩, notAdded⟩
      refine ⟨member, ?_⟩
      intro socket belongs removed
      rcases List.mem_append.mp removed with inAdded | inNew
      · exact notAdded socket belongs inAdded
      · exact notNew socket belongs inNew
    · intro ⟨member, kept⟩
      exact ⟨⟨member, fun socket belongs inNew =>
        kept socket belongs (List.mem_append_right _ inNew)⟩,
        fun socket belongs inAdded => kept socket belongs (List.mem_append_left _ inAdded)⟩

theorem note (shrinks : Shrinks id first w) {entry : Entry} (idle : entry.Idle) :
    Shrinks id first (w.note entry) := by
  apply shrinks.extend (List.singleton_append ..).symm
  · intro event member
    rw [← List.mem_singleton.mp member] at idle
    exact idle
  · intro event
    constructor
    · intro member
      refine ⟨member, ?_⟩
      intro socket _ removed
      rw [← List.mem_singleton.mp removed] at idle
      exact idle
    · intro ⟨member, _⟩
      exact member

theorem noteClash (shrinks : Shrinks id first w) (other : PollerId) (socket : SocketPtr) :
    Shrinks id first (w.noteClash other socket) := by
  rw [World.noteClash]
  split
  · exact shrinks.note trivial
  · exact shrinks

/-- Replacing a poller by one with the same pending events. -/
theorem setPoller (shrinks : Shrinks id first w) {other : PollerId} {p : Poller}
    (same : p.outEvents = (w.pollers other).outEvents) :
    Shrinks id first (w.setPoller other p) := by
  have events : ((w.setPoller other p).pollers id).outEvents = (w.pollers id).outEvents := by
    rw [setPoller_pollers]
    by_cases equal : id = other
    · rw [equal, Function.update_self, same]
    · rw [Function.update_of_ne equal]
  obtain ⟨new, log, untaken, remaining⟩ := shrinks
  refine ⟨new, log, untaken, ?_⟩
  rw [events]
  exact remaining

/-- A removal takes the event of its socket away. -/
theorem removed (shrinks : Shrinks id first w) {other : PollerId} {p : Poller}
    {socket : SocketPtr}
    (erased : p.outEvents = (w.pollers other).outEvents.erase (some socket)) :
    Shrinks id first ((w.setPoller other p).note (.removed other socket)) := by
  apply shrinks.extend (List.singleton_append ..).symm
  · intro event member
    cases List.mem_singleton.mp member
  · intro event
    rw [note_pollers, setPoller_pollers]
    by_cases equal : id = other
    · subst equal
      rw [Function.update_self, erased, KeyedSet.mem_erase]
      refine and_congr_right fun _ => ?_
      constructor
      · intro different stranger belongs member
        obtain rfl := (Entry.removed.inj (List.mem_singleton.mp member)).2
        exact different belongs
      · intro kept belongs
        exact kept socket belongs List.mem_cons_self
    · rw [Function.update_of_ne equal]
      constructor
      · intro member
        refine ⟨member, ?_⟩
        intro stranger _ removed
        exact equal (Entry.removed.inj (List.mem_singleton.mp removed)).1
      · intro ⟨member, _⟩
        exact member

end Shrinks

theorem primitives_shrinks (id : PollerId) (first : World) : Primitives (Shrinks id first) where
  removeSocket := by
    intro w other socket shrinks
    have noted := shrinks.noteClash other socket
    simp only [removeSocket]
    cases absent : (w.pollers other).registers socket with
    | true =>
        simp only [if_true]
        apply noted.setPoller
        rw [Poller.removeSocket_outEvents, absent, if_pos rfl, noteClash_pollers]
    | false =>
        simp only [Bool.false_eq_true, if_false]
        apply noted.removed
        rw [Poller.removeSocket_outEvents, absent, if_neg Bool.false_ne_true, noteClash_pollers]
  updateSocket := by
    intro w other socket _ _ _ _ p returned shrinks
    refine (shrinks.noteClash other socket).setPoller ?_
    rw [(Poller.updateSocket_eq_ok returned).outEvents, noteClash_pollers]
  signal := fun _ _ _ shrinks => shrinks.setPoller rfl
  setAttached := fun _ _ _ shrinks => shrinks
  setState := fun _ _ _ shrinks => shrinks
  note := fun _ _ idle shrinks => shrinks.note idle

/-! ## One turn -/

/-- The world in which the callbacks of an event run: the event was taken. -/
def afterTake (w : World) (id : PollerId) (event : PollerEvent) : World :=
  (w.setPoller id { w.pollers id with
    outEvents := (w.pollers id).outEvents.erase event.socket }).note (.took id event)

/-- The loop takes an event, which has an action, for a socket. -/
structure Takes (id : PollerId) (users : Users) (w : World) (event : PollerEvent)
    (socket : SocketPtr) : Prop where
  picked : (w.pollers id).outEvents.pick (users.position w) = some event
  belongs : event.socket = some socket
  action : event.action ≠ 0

/-- What the user code of an event does, at the choice of the users. -/
def handled (w : World) (id : PollerId) (users : Users) (event : PollerEvent)
    (socket : SocketPtr) : Outcome World Assertion :=
  (w.afterTake id event).dispatch event socket (users.script w event)

section Turn

variable {id : PollerId} {users : Users} {w : World} {event : PollerEvent} {socket : SocketPtr}

theorem setPoller_self (w : World) (id : PollerId) : w.setPoller id (w.pollers id) = w := by
  rw [setPoller, Function.update_eq_self]

theorem turn_of_empty (nothing : (w.pollers id).outEvents.elements = []) :
    w.turn id (users.position w) (users.script w) = (w, none) := by
  simp only [turn, Poller.getNextEvent, KeyedSet.pick_eq_none.mpr nothing, setPoller_self]

theorem Takes.turn (takes : Takes id users w event socket) :
    w.turn id (users.position w) (users.script w) =
      ((w.handled id users event socket).1, some (w.handled id users event socket).2) := by
  simp only [World.turn, Poller.getNextEvent, takes.picked, takes.belongs, if_neg takes.action,
    handled, afterTake]

theorem Takes.mem (takes : Takes id users w event socket) :
    event ∈ (w.pollers id).outEvents :=
  KeyedSet.pick_mem takes.picked

/-- Where every pending event has an action and a socket, the loop takes one unless none is left. -/
theorem empty_or_takes (actionable : (w.pollers id).Actionable) (users : Users) :
    (w.pollers id).outEvents.elements = [] ∨
      ∃ event socket, Takes id users w event socket := by
  cases picked : (w.pollers id).outEvents.pick (users.position w) with
  | none => exact .inl (KeyedSet.pick_eq_none.mp picked)
  | some event =>
      obtain ⟨action, belongs⟩ := actionable event (KeyedSet.pick_mem picked)
      obtain ⟨socket, belongs⟩ := Option.isSome_iff_exists.mp belongs
      exact .inr ⟨event, socket, picked, belongs, action⟩

theorem handled_shrinks (id : PollerId) (users : Users) (w : World) (event : PollerEvent)
    (socket : SocketPtr) :
    Shrinks id (w.afterTake id event) (w.handled id users event socket).1 :=
  (primitives_shrinks id (w.afterTake id event)).eventRules.dispatch (.refl id _) event socket
    (users.script w event)

theorem mem_afterTake {other : PollerEvent} :
    other ∈ ((w.afterTake id event).pollers id).outEvents ↔
      other ∈ (w.pollers id).outEvents ∧ other.socket ≠ event.socket := by
  rw [afterTake, note_pollers, setPoller_pollers, Function.update_self]
  exact KeyedSet.mem_erase

/-- A turn leaves fewer events. -/
theorem Takes.fewer (takes : Takes id users w event socket) :
    ((w.handled id users event socket).1.pollers id).outEvents.elements.length <
      (w.pollers id).outEvents.elements.length := by
  obtain ⟨_, -, -, remaining⟩ := handled_shrinks id users w event socket
  refine lt_of_le_of_lt (KeyedSet.length_le_of_subset ?_) (KeyedSet.length_erase_lt takes.mem)
  intro other member
  exact KeyedSet.mem_erase.mpr (mem_afterTake.mp ((remaining other).mp member).1)

theorem handled_actionable {next : World} {exit : Exit Assertion}
    (actionable : (w.pollers id).Actionable)
    (handled : w.handled id users event socket = (next, exit)) :
    (next.pollers id).Actionable := by
  obtain ⟨_, -, -, remaining⟩ := handled_shrinks id users w event socket
  rw [handled] at remaining
  apply actionable.mono
  intro other member
  exact (mem_afterTake.mp ((remaining other).mp member).1).1

end Turn

/-! ## The loop, turn by turn -/

/-- How the inner loop goes. -/
inductive Drains (id : PollerId) (users : Users) : ℕ → World → World × DrainExit → Prop where
  | unfinished (w : World) : Drains id users 0 w (w, .unfinished)
  | drained {w : World} (turns : ℕ) (nothing : (w.pollers id).outEvents.elements = []) :
      Drains id users (turns + 1) w (w, .drained)
  | goesOn {w next : World} {event : PollerEvent} {socket : SocketPtr} {turns : ℕ}
      {result : World × DrainExit} (takes : Takes id users w event socket)
      (handled : w.handled id users event socket = (next, .returned))
      (rest : Drains id users turns next result) : Drains id users (turns + 1) w result
  | escaped {w after : World} {event : PollerEvent} {socket : SocketPtr} (turns : ℕ)
      (takes : Takes id users w event socket)
      (handled : w.handled id users event socket = (after, .threw)) :
      Drains id users (turns + 1) w (after, .escaped)
  | aborted {w after : World} {event : PollerEvent} {socket : SocketPtr} (turns : ℕ)
      {failed : Assertion} (takes : Takes id users w event socket)
      (handled : w.handled id users event socket = (after, .aborted failed)) :
      Drains id users (turns + 1) w (after, .aborted failed)

theorem drain_drains (id : PollerId) (users : Users) :
    ∀ (turns : ℕ) {w : World}, (w.pollers id).Actionable →
      Drains id users turns w (w.drain id users turns) := by
  intro turns
  induction turns with
  | zero => exact fun _ => .unfinished _
  | succ turns ih =>
      intro w actionable
      rcases empty_or_takes actionable users with nothing | ⟨event, socket, takes⟩
      · rw [drain, turn_of_empty nothing]
        exact .drained turns nothing
      · rw [drain, takes.turn]
        cases handled : w.handled id users event socket with
        | mk next exit =>
            cases exit with
            | returned => exact .goesOn takes handled (ih (handled_actionable actionable handled))
            | threw => exact .escaped turns takes handled
            | aborted failed => exact .aborted turns takes handled

/-- With a turn for every event and one more, the loop does not run out of turns. -/
theorem Drains.finishes {id : PollerId} {users : Users} {turns : ℕ} {w : World}
    {result : World × DrainExit} (drains : Drains id users turns w result)
    (enough : (w.pollers id).outEvents.elements.length < turns) : result.2 ≠ .unfinished := by
  induction drains with
  | unfinished w => exact absurd enough (Nat.not_lt_zero _)
  | drained _ _ => exact nofun
  | goesOn takes handled _ ih =>
      have fewer := takes.fewer
      simp only [handled] at fewer
      exact ih (by omega)
  | escaped _ _ _ => exact nofun
  | aborted _ _ _ => exact nofun

theorem Drains.actionable {id : PollerId} {users : Users} {turns : ℕ} {w : World}
    {result : World × DrainExit} (drains : Drains id users turns w result)
    (actionable : (w.pollers id).Actionable) : (result.1.pollers id).Actionable := by
  induction drains with
  | unfinished w => exact actionable
  | drained _ _ => exact actionable
  | goesOn _ handled _ ih => exact ih (handled_actionable actionable handled)
  | escaped _ _ handled => exact handled_actionable actionable handled
  | aborted _ _ handled => exact handled_actionable actionable handled

theorem drainAll_drains {id : PollerId} (users : Users) {w : World}
    (actionable : (w.pollers id).Actionable) :
    Drains id users ((w.pollers id).outEvents.elements.length + 1) w (w.drainAll id users) :=
  drain_drains id users _ actionable

theorem drainAll_finishes {id : PollerId} (users : Users) {w : World}
    (actionable : (w.pollers id).Actionable) : (w.drainAll id users).2 ≠ .unfinished :=
  (drainAll_drains users actionable).finishes (Nat.lt_succ_self _)

/-! ## The outer loop -/

/-- The worlds in which the iterations of `Reactor::run` start their inner loop. -/
inductive Polled (id : PollerId) (users : Users) : World → List Iteration → World → Prop where
  | here {w polled : World} {iteration : Iteration} (rest : List Iteration)
      (poll : w.iterationPoll id iteration = .ok polled) :
      Polled id users w (iteration :: rest) polled
  | later {w polled next last : World} {iteration : Iteration} {rest : List Iteration}
      (poll : w.iterationPoll id iteration = .ok polled)
      (drained : polled.drainAll id users = (next, .drained))
      (goesOn : Polled id users next rest last) : Polled id users w (iteration :: rest) last

section Run

variable {id : PollerId} {users : Users} {w : World}

/-- **The exception that leaves `Reactor::run` leaves one of its inner loops.** -/
theorem run_escaped {iterations : List Iteration} :
    (w.run id users iterations).2 = .escaped ↔
      ∃ polled, Polled id users w iterations polled ∧
        (polled.drainAll id users).2 = .escaped := by
  induction iterations generalizing w with
  | nil =>
      constructor
      · exact nofun
      · exact nofun
  | cons iteration rest ih =>
      rw [run]
      cases poll : w.iterationPoll id iteration with
      | error failed =>
          constructor
          · exact nofun
          · rintro ⟨_, reached, -⟩
            cases reached with
            | here _ other => cases poll.symm.trans other
            | later other _ _ => cases poll.symm.trans other
      | ok polled =>
          cases loop : polled.drainAll id users with
          | mk next exit =>
              constructor
              · intro escaped
                cases exit with
                | drained =>
                    simp only [loop] at escaped
                    obtain ⟨last, reached, throws⟩ := ih.mp escaped
                    exact ⟨last, .later poll loop reached, throws⟩
                | escaped => exact ⟨polled, .here rest poll, by rw [loop]⟩
                | aborted _ =>
                    simp only [loop] at escaped
                    cases escaped
                | unfinished =>
                    simp only [loop] at escaped
                    cases escaped
              · rintro ⟨last, reached, throws⟩
                cases reached with
                | here _ other =>
                    obtain rfl := Except.ok.inj (poll.symm.trans other)
                    rw [loop] at throws
                    obtain rfl : exit = .escaped := throws
                    simp only [loop]
                | later other drained goesOn =>
                    obtain rfl := Except.ok.inj (poll.symm.trans other)
                    obtain ⟨rfl, rfl⟩ := Prod.mk.inj (loop.symm.trans drained)
                    simp only [loop]
                    exact ih.mpr ⟨last, goesOn, throws⟩

theorem iterationPoll_actionable (actionable : (w.pollers id).Actionable) {iteration : Iteration}
    {polled : World} (poll : w.iterationPoll id iteration = .ok polled) :
    (polled.pollers id).Actionable := by
  have meanwhile : PollersReach w (iteration.meanwhile.run w).1 :=
    (primitives_pollersReach w).eventRules.run (fun id => .refl _) iteration.meanwhile
  rw [iterationPoll] at poll
  split at poll
  · cases poll
  · rename_i before exit _ ran
    rw [ran] at meanwhile
    split at poll
    · cases poll
    · rename_i p succeeded
      obtain rfl := Except.ok.inj poll
      rw [setPoller_pollers, Function.update_self]
      have stepped : (before.pollers id).step (.poll iteration.batch iteration.waitClock
          iteration.eventClock iteration.schedulerClock) = .ok p := succeeded
      exact (actionable.reaches (meanwhile id)).step stepped

theorem Polled.actionable {iterations : List Iteration} {polled : World}
    (reached : Polled id users w iterations polled) (actionable : (w.pollers id).Actionable) :
    (polled.pollers id).Actionable := by
  induction reached with
  | here _ poll => exact iterationPoll_actionable actionable poll
  | later poll drained _ ih =>
      have ready := iterationPoll_actionable actionable poll
      have kept := (drainAll_drains users ready).actionable ready
      rw [drained] at kept
      exact ih kept

end Run

/-- In every world that a run reaches, the pending events have an action and a socket. -/
theorem actionable_run {allowed : World → WorldOp → Prop} {eventFds : PollerId → FD}
    {states : SocketPtr → SocketState} {ops : List WorldOp} {w : World}
    (run : Run step allowed (start eventFds states) ops w) (id : PollerId) :
    (w.pollers id).Actionable :=
  (Poller.Actionable.create (eventFds id)).reaches (pollers_run run id)

end World

end Jasl
