import Jasl.Poller.Scheduler

/-!
# The scheduler is a map from payloads to deadlines

The deadlines of linked containers form a `TimerMap`, and every operation of the
scheduler is a step of that map (`Linked.perform_step`). Along any sequence of
operations from an empty scheduler the containers stay linked, no erase is
applied to a dead or past-the-end iterator, and what is returned is what the map
returns (`scheduler_refines_timerMap`).

`Scheduler` is the bundle of containers with their link. Its operations are
total, and their effect on the deadlines is stated once here, for the poller.
-/

set_option autoImplicit false

namespace Jasl

open Library

namespace Containers

/-! ## The deadlines -/

/-- The deadline a payload is scheduled for. -/
def deadline (s : Containers) : TimerMap EventPayload Word := fun payload =>
  (s.events.nodes.find? fun event => event.value = payload).map Node.key

variable {s : Containers}

theorem deadline_empty : empty.deadline = TimerMap.empty := rfl

theorem Linked.deadline_eq_some (linked : Linked s) {payload : EventPayload} {time : Word} :
    s.deadline payload = some time ↔
      ∃ event ∈ s.events.nodes, event.value = payload ∧ event.key = time := by
  rw [deadline, Option.map_eq_some_iff]
  constructor
  · rintro ⟨event, found, rfl⟩
    exact ⟨event, List.mem_of_find?_eq_some found, by simpa using List.find?_some found, rfl⟩
  · rintro ⟨event, member, rfl, rfl⟩
    refine ⟨event, ?_, rfl⟩
    cases found : s.events.nodes.find? fun other => other.value = event.value with
    | none =>
        rw [List.find?_eq_none] at found
        exact absurd (decide_eq_true rfl) (found event member)
    | some other =>
        have same : other.value = event.value := by simpa using List.find?_some found
        rw [linked.eq_of_value (List.mem_of_find?_eq_some found) member same]

/-- The element of a payload gives its deadline. -/
theorem Linked.deadline_value (linked : Linked s) {event : Node Word EventPayload}
    (member : event ∈ s.events.nodes) : s.deadline event.value = some event.key :=
  linked.deadline_eq_some.mpr ⟨event, member, rfl, rfl⟩

/-- A payload has no deadline exactly when it has no entry. -/
theorem Linked.deadline_eq_none_of_timeouts (linked : Linked s) {payload : EventPayload}
    (absent : s.timeouts payload = none) : s.deadline payload = none := by
  rw [Option.eq_none_iff_forall_ne_some]
  intro time scheduled
  obtain ⟨event, member, holds, -⟩ := linked.deadline_eq_some.mp scheduled
  exact linked.not_mem_of_timeouts_none absent event member holds

theorem Linked.deadline_without (linked : Linked s) {event : Node Word EventPayload}
    (member : event ∈ s.events.nodes) :
    (Containers.mk (s.events.without event.iterator)
      (Function.update s.timeouts event.value none)).deadline =
        Function.update s.deadline event.value none := by
  funext payload
  apply Option.ext
  intro time
  rw [(linked.without member).deadline_eq_some]
  by_cases same : payload = event.value
  · rw [same, Function.update_self]
    constructor
    · rintro ⟨node, kept, equal, -⟩
      obtain ⟨inEvents, other⟩ := OrderedMultimap.mem_without.mp kept
      exact absurd (congrArg Node.iterator (linked.eq_of_value inEvents member equal)) other
    · exact nofun
  · rw [Function.update_of_ne same, linked.deadline_eq_some]
    constructor
    · rintro ⟨node, kept, holds, at_⟩
      exact ⟨node, (OrderedMultimap.mem_without.mp kept).1, holds, at_⟩
    · rintro ⟨node, inEvents, rfl, at_⟩
      refine ⟨node, OrderedMultimap.mem_without.mpr ⟨inEvents, fun equal => same ?_⟩, rfl, at_⟩
      rw [OrderedMultimap.eq_of_iterator inEvents member equal]

theorem Linked.deadline_insert (linked : Linked s) {time : Word} {payload : EventPayload}
    (valid : time ≠ invalidTime) (absent : s.timeouts payload = none) :
    (Containers.mk (s.events.insert time payload)
      (Function.update s.timeouts payload (some (some s.events.fresh)))).deadline =
        Function.update s.deadline payload (some time) := by
  have free := linked.not_mem_of_timeouts_none absent
  funext other
  apply Option.ext
  intro due
  rw [(linked.insert valid absent).deadline_eq_some]
  by_cases same : other = payload
  · rw [same, Function.update_self]
    constructor
    · rintro ⟨node, member, holds, rfl⟩
      rcases OrderedMultimap.mem_insert.mp member with rfl | inEvents
      · rfl
      · exact absurd holds (free node inEvents)
    · rintro ⟨⟩
      exact ⟨_, OrderedMultimap.mem_insert.mpr (.inl rfl), rfl, rfl⟩
  · rw [Function.update_of_ne same, linked.deadline_eq_some]
    constructor
    · rintro ⟨node, member, holds, at_⟩
      rcases OrderedMultimap.mem_insert.mp member with rfl | inEvents
      · exact absurd holds.symm same
      · exact ⟨node, inEvents, holds, at_⟩
    · rintro ⟨node, inEvents, holds⟩
      exact ⟨node, OrderedMultimap.mem_insert.mpr (.inr inEvents), holds⟩

/-! ## Each operation on the deadlines -/

theorem Linked.deadline_deleteEvent (linked : Linked s) {payload : EventPayload}
    {after : Containers} (deleted : s.deleteEvent payload = some after) :
    after.deadline = Function.update s.deadline payload none := by
  rcases linked.deleteEvent_cases payload with ⟨absent, same⟩ | ⟨event, member, rfl, same⟩
  · obtain rfl := Option.some.inj (same.symm.trans deleted)
    rw [← linked.deadline_eq_none_of_timeouts absent, Function.update_eq_self]
  · obtain rfl := Option.some.inj (same.symm.trans deleted)
    exact linked.deadline_without member

theorem Linked.deadline_addEvent (linked : Linked s) {newTimeout : Word} {payload : EventPayload}
    (valid : newTimeout ≠ invalidTime) {after : Containers}
    (added : s.addEvent newTimeout payload = some after) :
    after.deadline = Function.update s.deadline payload (some newTimeout) := by
  obtain ⟨cleared, deleted, linkedCleared, absent, same⟩ := linked.addEvent_eq payload valid
  obtain rfl := Option.some.inj (same.symm.trans added)
  rw [linkedCleared.deadline_insert valid absent, linked.deadline_deleteEvent deleted,
    Function.update_idem]

/-- The first element is due before every other payload once its deadline has come. -/
theorem Linked.due_begin (linked : Linked s) {event : Node Word EventPayload} {now : Word}
    (first : s.events.begin = some event) (reached : event.key ≤ now) :
    s.deadline.Due now event.value event.key where
  entry := linked.deadline_value (OrderedMultimap.begin_mem first)
  reached := reached
  least := by
    intro other later scheduled
    obtain ⟨node, member, -, rfl⟩ := linked.deadline_eq_some.mp scheduled
    exact OrderedMultimap.begin_le first member

/-- While the first element waits, every payload does. -/
theorem Linked.waiting_of_begin (linked : Linked s) {now : Word}
    (waiting : ∀ event, s.events.begin = some event → now < event.key) :
    ∀ payload time, s.deadline payload = some time → now < time := by
  intro payload time scheduled
  obtain ⟨node, member, -, rfl⟩ := linked.deadline_eq_some.mp scheduled
  exact OrderedMultimap.lt_key_of_begin waiting node member

/-! ## Sequences of operations -/

/-- One operation with what it returns; `none` when it erases through an iterator that is dead or
past the end. -/
def perform (s : Containers) : TimerOp EventPayload Word → Option (Option EventPayload × Containers)
  | .add deadline payload => (s.addEvent deadline payload).map fun after => (none, after)
  | .next now =>
      (s.getNextEvent now).map fun taken =>
        match taken with
        | none => (none, s)
        | some (payload, after) => (some payload, after)
  | .delete payload => (s.deleteEvent payload).map fun after => (none, after)

/-- A sequence of operations with what each of them returns. -/
def performAll (s : Containers) :
    List (TimerOp EventPayload Word) → Option (List (Option EventPayload) × Containers)
  | [] => some ([], s)
  | op :: ops =>
      match s.perform op with
      | none => none
      | some (result, next) =>
          (next.performAll ops).map fun (results, last) => (result :: results, last)

/-- Every operation on linked containers succeeds, keeps the link, and is a step of the map of
their deadlines. -/
theorem Linked.perform_step (linked : Linked s) (op : TimerOp EventPayload Word) :
    ∃ result after, s.perform op = some (result, after) ∧ Linked after ∧
      TimerMap.Step invalidTime s.deadline op result after.deadline := by
  cases op with
  | add time payload =>
      obtain ⟨after, added, linkedAfter⟩ := linked.addEvent time payload
      refine ⟨none, after, by simp [perform, added], linkedAfter, ?_⟩
      by_cases valid : time = invalidTime
      · have same : s = after := by simpa [Containers.addEvent, valid] using added
        rw [valid, same]
        exact .addNever
      · rw [linked.deadline_addEvent valid added]
        exact .add valid
  | delete payload =>
      obtain ⟨after, deleted, linkedAfter⟩ := linked.deleteEvent payload
      refine ⟨none, after, by simp [perform, deleted], linkedAfter, ?_⟩
      rw [linked.deadline_deleteEvent deleted]
      exact .delete
  | next now =>
      rcases getNextEvent_cases s now with ⟨returned, waiting⟩ | ⟨event, first, reached, taken⟩
      · exact ⟨none, s, by simp [perform, returned], linked, .none (linked.waiting_of_begin waiting)⟩
      · have member := OrderedMultimap.begin_mem first
        refine ⟨some event.value, _, by simp [perform, taken], linked.without member, ?_⟩
        rw [linked.deadline_without member]
        exact .next (linked.due_begin first reached)

/-- The operations from linked containers refine the map of their deadlines. -/
theorem Linked.performAll_steps (ops : List (TimerOp EventPayload Word)) :
    ∀ {s : Containers}, Linked s → ∃ results after, s.performAll ops = some (results, after) ∧
      Linked after ∧ TimerMap.Steps invalidTime s.deadline ops results after.deadline := by
  induction ops with
  | nil =>
      intro s linked
      exact ⟨[], s, rfl, linked, .nil⟩
  | cons op ops ih =>
      intro s linked
      obtain ⟨result, next, performed, linkedNext, step⟩ := linked.perform_step op
      obtain ⟨results, after, rest, linkedAfter, steps⟩ := ih linkedNext
      exact ⟨result :: results, after, by simp [performAll, performed, rest], linkedAfter,
        .cons step steps⟩

end Containers

/-- **The scheduler refines a finite map from payloads to deadlines.** From an empty scheduler
every sequence of operations runs without erasing through a dead or past-the-end iterator, ends
with the two containers in bijection, and returns what the map of the deadlines returns. -/
theorem scheduler_refines_timerMap (ops : List (TimerOp EventPayload Word)) :
    ∃ results after, Containers.empty.performAll ops = some (results, after) ∧
      after.Linked ∧
      TimerMap.Steps invalidTime TimerMap.empty ops results after.deadline := by
  have run := Containers.Linked.performAll_steps ops Containers.Linked.empty
  rwa [Containers.deadline_empty] at run

/-! ## The bundled scheduler -/

/-- A scheduler in use: its containers with the bijection between them. -/
structure Scheduler extends Containers where
  linked : toContainers.Linked

namespace Scheduler

def empty : Scheduler := ⟨.empty, .empty⟩

/-- `Scheduler::add_event`, which on a scheduler in use never fails. -/
def addEvent (s : Scheduler) (newTimeout : Word) (payload : EventPayload) : Scheduler :=
  match added : s.toContainers.addEvent newTimeout payload with
  | some after => ⟨after, by
      obtain ⟨_, same, linked⟩ := s.linked.addEvent newTimeout payload
      rwa [← Option.some.inj (same.symm.trans added)]⟩
  | none => s

/-- `Scheduler::delete_event`. -/
def deleteEvent (s : Scheduler) (payload : EventPayload) : Scheduler :=
  match deleted : s.toContainers.deleteEvent payload with
  | some after => ⟨after, by
      obtain ⟨_, same, linked⟩ := s.linked.deleteEvent payload
      rwa [← Option.some.inj (same.symm.trans deleted)]⟩
  | none => s

/-- `Scheduler::get_next_event`: `none` when it returns `false`, otherwise the payload it stores
and the scheduler after. -/
def getNextEvent (s : Scheduler) (currentTime : Word) : Option (EventPayload × Scheduler) :=
  match taken : s.toContainers.getNextEvent currentTime with
  | some (some (payload, after)) => some (payload, ⟨after, by
      rcases s.linked.getNextEvent currentTime with waiting | ⟨_, _, same, linked⟩
      · cases waiting.symm.trans taken
      · cases same.symm.trans taken
        exact linked⟩)
  | _ => none

/-- `Scheduler::ms_to_next_event`, as the 64 bits of the `int64_t` it returns. -/
def msToNextEvent (s : Scheduler) (currentTime : Word) : Word :=
  match s.events.begin with
  | none => -1
  | some first => if first.key ≤ currentTime then 0 else first.key - currentTime

/-- How many timers there are. -/
def size (s : Scheduler) : ℕ := s.events.nodes.length

variable {s : Scheduler}

@[simp] theorem deadline_empty (payload : EventPayload) : empty.deadline payload = none := rfl

theorem addEvent_toContainers (s : Scheduler) (newTimeout : Word) (payload : EventPayload) :
    s.toContainers.addEvent newTimeout payload = some (s.addEvent newTimeout payload).toContainers := by
  obtain ⟨after, added, -⟩ := s.linked.addEvent newTimeout payload
  rw [addEvent]
  split
  · rename_i same
    exact same
  · rename_i failed
    cases added.symm.trans failed

theorem deleteEvent_toContainers (s : Scheduler) (payload : EventPayload) :
    s.toContainers.deleteEvent payload = some (s.deleteEvent payload).toContainers := by
  obtain ⟨after, deleted, -⟩ := s.linked.deleteEvent payload
  rw [deleteEvent]
  split
  · rename_i same
    exact same
  · rename_i failed
    cases deleted.symm.trans failed

/-- `add_event` sets the deadline of the payload, unless the deadline never comes. -/
theorem deadline_addEvent (s : Scheduler) {newTimeout : Word} (valid : newTimeout ≠ invalidTime)
    (payload : EventPayload) :
    (s.addEvent newTimeout payload).deadline =
      Function.update s.deadline payload (some newTimeout) :=
  s.linked.deadline_addEvent valid (s.addEvent_toContainers newTimeout payload)

/-- `delete_event` removes the deadline of the payload. -/
theorem deadline_deleteEvent (s : Scheduler) (payload : EventPayload) :
    (s.deleteEvent payload).deadline = Function.update s.deadline payload none :=
  s.linked.deadline_deleteEvent (s.deleteEvent_toContainers payload)

theorem size_deleteEvent_le (s : Scheduler) (payload : EventPayload) :
    (s.deleteEvent payload).size ≤ s.size := by
  have deleted := s.deleteEvent_toContainers payload
  rcases s.linked.deleteEvent_cases payload with ⟨-, same⟩ | ⟨event, -, -, removed⟩
  · rw [size, ← Option.some.inj (same.symm.trans deleted), size]
  · rw [size, ← Option.some.inj (removed.symm.trans deleted), size]
    exact s.events.length_without_le event.iterator

/-- `get_next_event` takes a payload of least deadline that has come, and only that entry. -/
theorem getNextEvent_eq_some {currentTime : Word} {payload : EventPayload} {after : Scheduler}
    (taken : s.getNextEvent currentTime = some (payload, after)) :
    ∃ time, s.deadline.Due currentTime payload time ∧
      after.deadline = Function.update s.deadline payload none ∧ after.size + 1 = s.size := by
  rw [getNextEvent] at taken
  split at taken
  · rename_i found
    cases taken
    rcases Containers.Linked.getNextEvent_cases s.toContainers currentTime with
      ⟨waiting, -⟩ | ⟨event, first, reached, same⟩
    · cases waiting.symm.trans found
    · cases same.symm.trans found
      exact ⟨event.key, s.linked.due_begin first reached,
        s.linked.deadline_without (OrderedMultimap.begin_mem first),
        OrderedMultimap.length_without_begin first⟩
  · cases taken

/-- `get_next_event` returns `false` exactly when every timer waits. -/
theorem getNextEvent_eq_none {currentTime : Word} :
    s.getNextEvent currentTime = none ↔
      ∀ payload time, s.deadline payload = some time → currentTime < time := by
  constructor
  · intro returned
    rcases Containers.Linked.getNextEvent_cases s.toContainers currentTime with
      ⟨-, waiting⟩ | ⟨event, first, reached, same⟩
    · exact s.linked.waiting_of_begin waiting
    · rw [getNextEvent] at returned
      split at returned
      · cases returned
      · rename_i other
        exact absurd same (other _ _)
  · intro waiting
    cases taken : s.getNextEvent currentTime with
    | none => rfl
    | some pair =>
        obtain ⟨time, due, -⟩ := getNextEvent_eq_some taken
        exact absurd due.reached (not_le.mpr (waiting _ _ due.entry))

/-- A wait that is not over ends before every deadline. -/
theorem msToNextEvent_le {currentTime time : Word} {payload : EventPayload}
    (scheduled : s.deadline payload = some time) (waits : s.msToNextEvent currentTime ≠ 0) :
    currentTime.toNat + (s.msToNextEvent currentTime).toNat ≤ time.toNat := by
  obtain ⟨node, member, -, rfl⟩ := s.linked.deadline_eq_some.mp scheduled
  rw [msToNextEvent] at waits ⊢
  cases first : s.events.begin with
  | none =>
      rw [OrderedMultimap.begin_eq_none.mp first] at member
      cases member
  | some event =>
      simp only [first] at waits ⊢
      by_cases reached : event.key ≤ currentTime
      · rw [if_pos reached] at waits
        exact absurd rfl waits
      · have least : event.key.toNat ≤ node.key.toNat :=
          BitVec.toNat_le_toNat.mpr (OrderedMultimap.begin_le first member)
        have later : currentTime.toNat < event.key.toNat :=
          BitVec.toNat_lt_toNat.mpr (not_le.mp reached)
        have bound := event.key.isLt
        rw [if_neg reached, BitVec.toNat_sub]
        omega

end Scheduler

end Jasl
