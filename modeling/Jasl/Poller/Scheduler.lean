import Jasl.Library.Words
import Jasl.Library.OrderedMultimap
import Jasl.Library.TimerMap

/-!
# The scheduler of timeouts

`Scheduler` keeps its timers in two containers: the multimap `m_events` from
deadlines to payloads, and the hash map `m_timeouts` from payloads to iterators
into the first. Every operation changes both, in several statements, and
erases through a stored iterator.

`Containers` is the pair as the operations leave it, statement by statement; an
operation returns `none` when it would erase through a dead or past-the-end
iterator. `Linked` says that the two containers are in bijection. Every
operation succeeds on linked containers and leaves them linked, so `Scheduler`
bundles linked containers and its operations are total. What they do to the
deadlines is all that the poller needs of them (`deadline_addEvent`,
`deadline_deleteEvent`, `getNextEvent_eq_none`, `getNextEvent_eq_some`).
-/

set_option autoImplicit false

namespace Jasl

open Library

/-- `uint64_t(-1)`, which is also `SocketContext::INVALID_TIME`. -/
def invalidTime : Word := BitVec.allOnes 64

/-- The 64 bits of the union `EventPayload`; the poller stores a descriptor in them. -/
abbrev EventPayload := Word

abbrev Events := OrderedMultimap Word EventPayload

/-- The map from payloads to iterators of `Events`, where `some none` is `m_events.end()`. -/
abbrev Timeouts := EventPayload → Option (Option ℕ)

/-- The members of a `Scheduler`. -/
structure Containers where
  events : Events
  timeouts : Timeouts

namespace Containers

/-- `Scheduler::Scheduler`. -/
def empty : Containers := ⟨.empty, fun _ => none⟩

/-! ## The operations -/

/-- `Scheduler::add_event`. -/
def addEvent (s : Containers) (newTimeout : Word) (payload : EventPayload) : Option Containers :=
  if newTimeout = invalidTime then some s
  else
    let cleared : Option (Events × Timeouts) :=
      match s.timeouts payload with
      | some timeout => (s.events.erase timeout).map fun events => (events, s.timeouts)
      | none => some (s.events, Function.update s.timeouts payload (some none))
    cleared.map fun (events, timeouts) =>
      -- `events.fresh` is the iterator the insertion returns
      ⟨events.insert newTimeout payload, Function.update timeouts payload (some (some events.fresh))⟩

/-- `Scheduler::get_next_event`: the payload it stores through its reference when it returns
`true`, with the containers after. -/
def getNextEvent (s : Containers) (currentTime : Word) :
    Option (Option (EventPayload × Containers)) :=
  match s.events.begin with
  | none => some none
  | some event =>
      if currentTime < event.key then some none
      else
        (s.events.erase (some event.iterator)).map fun events =>
          some (event.value, ⟨events, Function.update s.timeouts event.value none⟩)

/-- `Scheduler::delete_event`. -/
def deleteEvent (s : Containers) (payload : EventPayload) : Option Containers :=
  match s.timeouts payload with
  | none => some s
  | some timeout =>
      (s.events.erase timeout).map fun events =>
        ⟨events, Function.update s.timeouts payload none⟩

/-! ## The bijection -/

/-- The containers refer to each other: every entry of the hash map holds the iterator of a live
element with its payload, every element is referred to by exactly one entry, no payload occurs
twice, and no deadline is `uint64_t(-1)`. -/
structure Linked (s : Containers) : Prop where
  entry_live : ∀ payload timeout, s.timeouts payload = some timeout →
    ∃ event ∈ s.events.nodes, timeout = some event.iterator ∧ event.value = payload
  event_referred : ∀ event ∈ s.events.nodes,
    ∃! payload, s.timeouts payload = some (some event.iterator)
  payloads_nodup : (s.events.nodes.map Node.value).Nodup
  deadline_valid : ∀ event ∈ s.events.nodes, event.key ≠ invalidTime

theorem Linked.empty : Linked empty where
  entry_live := nofun
  event_referred := nofun
  payloads_nodup := .nil
  deadline_valid := nofun

variable {s : Containers}

/-- The entry that refers to an element is the one of its payload. -/
theorem Linked.timeouts_value (linked : Linked s) {event : Node Word EventPayload}
    (member : event ∈ s.events.nodes) : s.timeouts event.value = some (some event.iterator) := by
  obtain ⟨payload, refers, -⟩ := linked.event_referred event member
  obtain ⟨other, inEvents, same, holds⟩ := linked.entry_live payload _ refers
  have equal : event = other :=
    OrderedMultimap.eq_of_iterator member inEvents (Option.some.inj same)
  rw [equal, holds, ← equal]
  exact refers

/-- Two elements with one payload are one element. -/
theorem Linked.eq_of_value (linked : Linked s) {first second : Node Word EventPayload}
    (inFirst : first ∈ s.events.nodes) (inSecond : second ∈ s.events.nodes)
    (same : first.value = second.value) : first = second :=
  List.inj_on_of_nodup_map linked.payloads_nodup inFirst inSecond same

/-- A payload without an entry is carried by no element. -/
theorem Linked.not_mem_of_timeouts_none (linked : Linked s) {payload : EventPayload}
    (absent : s.timeouts payload = none) : ∀ event ∈ s.events.nodes, event.value ≠ payload := by
  intro event member same
  have refers := linked.timeouts_value member
  rw [same, absent] at refers
  cases refers

/-- Containers are linked once each element is found under its own payload. -/
theorem Linked.of_lookup
    (entry_live : ∀ payload timeout, s.timeouts payload = some timeout →
      ∃ event ∈ s.events.nodes, timeout = some event.iterator ∧ event.value = payload)
    (lookup : ∀ event ∈ s.events.nodes, s.timeouts event.value = some (some event.iterator))
    (payloads_nodup : (s.events.nodes.map Node.value).Nodup)
    (deadline_valid : ∀ event ∈ s.events.nodes, event.key ≠ invalidTime) : Linked s where
  entry_live := entry_live
  event_referred := by
    intro event member
    refine ⟨event.value, lookup event member, fun payload refers => ?_⟩
    obtain ⟨other, inEvents, same, holds⟩ := entry_live payload _ refers
    rw [OrderedMultimap.eq_of_iterator member inEvents (Option.some.inj same), holds]
  payloads_nodup := payloads_nodup
  deadline_valid := deadline_valid

/-- Erasing an element together with its entry keeps the link. -/
theorem Linked.without (linked : Linked s) {event : Node Word EventPayload}
    (member : event ∈ s.events.nodes) :
    Linked ⟨s.events.without event.iterator, Function.update s.timeouts event.value none⟩ := by
  refine .of_lookup ?_ ?_ ?_ ?_
  · intro payload timeout refers
    have other : payload ≠ event.value := by
      rintro rfl
      simp at refers
    simp only [Function.update_of_ne other] at refers
    obtain ⟨node, inEvents, same, holds⟩ := linked.entry_live payload timeout refers
    refine ⟨node, OrderedMultimap.mem_without.mpr ⟨inEvents, fun equal => other ?_⟩, same, holds⟩
    rw [← holds, OrderedMultimap.eq_of_iterator inEvents member equal]
  · intro node kept
    obtain ⟨inEvents, other⟩ := OrderedMultimap.mem_without.mp kept
    have differs : node.value ≠ event.value := fun same =>
      other (congrArg Node.iterator (linked.eq_of_value inEvents member same))
    simp only [Function.update_of_ne differs]
    exact linked.timeouts_value inEvents
  · exact linked.payloads_nodup.sublist (OrderedMultimap.values_without_sublist _ _)
  · exact fun node kept => linked.deadline_valid node (OrderedMultimap.mem_without.mp kept).1

/-- Inserting an element together with its entry keeps the link, for a payload that no element
carries. The entry is overwritten, so the past-the-end iterator that `add_event` puts there half
way is never seen. -/
theorem Linked.insert (linked : Linked s) {deadline : Word} {payload : EventPayload}
    (valid : deadline ≠ invalidTime) (absent : s.timeouts payload = none) :
    Linked ⟨s.events.insert deadline payload,
      Function.update s.timeouts payload (some (some s.events.fresh))⟩ := by
  have free := linked.not_mem_of_timeouts_none absent
  refine .of_lookup ?_ ?_ ?_ ?_
  · intro other timeout refers
    by_cases same : other = payload
    · rw [same] at refers ⊢
      simp only [Function.update_self, Option.some.injEq] at refers
      exact ⟨⟨s.events.fresh, deadline, payload⟩, OrderedMultimap.mem_insert.mpr (.inl rfl),
        refers.symm, rfl⟩
    · simp only [Function.update_of_ne same] at refers
      obtain ⟨node, inEvents, holds⟩ := linked.entry_live other timeout refers
      exact ⟨node, OrderedMultimap.mem_insert.mpr (.inr inEvents), holds⟩
  · intro node member
    rcases OrderedMultimap.mem_insert.mp member with rfl | inEvents
    · simp
    · simp only [Function.update_of_ne (free node inEvents)]
      exact linked.timeouts_value inEvents
  · have perm := OrderedMultimap.values_insert s.events deadline payload
    rw [perm.nodup_iff, List.nodup_cons]
    refine ⟨fun member => ?_, linked.payloads_nodup⟩
    obtain ⟨node, inEvents, same⟩ := List.mem_map.mp member
    exact free node inEvents same
  · intro node member
    rcases OrderedMultimap.mem_insert.mp member with rfl | inEvents
    · exact valid
    · exact linked.deadline_valid node inEvents

/-! ## What each operation does to linked containers -/

/-- `delete_event` erases the element of the payload, if there is one. -/
theorem Linked.deleteEvent_cases (linked : Linked s) (payload : EventPayload) :
    (s.timeouts payload = none ∧ s.deleteEvent payload = some s) ∨
      ∃ event ∈ s.events.nodes, event.value = payload ∧
        s.deleteEvent payload = some ⟨s.events.without event.iterator,
          Function.update s.timeouts event.value none⟩ := by
  cases refers : s.timeouts payload with
  | none =>
      refine .inl ⟨rfl, ?_⟩
      rw [deleteEvent, refers]
  | some timeout =>
      obtain ⟨event, member, same, holds⟩ := linked.entry_live payload timeout refers
      refine .inr ⟨event, member, holds, ?_⟩
      simp only [deleteEvent, refers, same, OrderedMultimap.erase_of_mem member, Option.map_some,
        holds]

/-- `add_event` of a deadline that comes is a deletion followed by an insertion. -/
theorem Linked.addEvent_eq (linked : Linked s) {newTimeout : Word} (payload : EventPayload)
    (valid : newTimeout ≠ invalidTime) :
    ∃ cleared, s.deleteEvent payload = some cleared ∧ Linked cleared ∧
      cleared.timeouts payload = none ∧
      s.addEvent newTimeout payload = some ⟨cleared.events.insert newTimeout payload,
        Function.update cleared.timeouts payload (some (some cleared.events.fresh))⟩ := by
  rcases linked.deleteEvent_cases payload with ⟨absent, deleted⟩ | ⟨event, member, rfl, deleted⟩
  · refine ⟨s, deleted, linked, absent, ?_⟩
    simp only [addEvent, if_neg valid, absent, Option.map_some, Function.update_idem]
  · refine ⟨_, deleted, linked.without member, by simp, ?_⟩
    simp only [addEvent, if_neg valid, linked.timeouts_value member,
      OrderedMultimap.erase_of_mem member, Option.map_some, Function.update_idem]

/-- `get_next_event` returns `false`, or takes the first element. -/
theorem Linked.getNextEvent_cases (s : Containers) (currentTime : Word) :
    (s.getNextEvent currentTime = some none ∧
        ∀ event, s.events.begin = some event → currentTime < event.key) ∨
      ∃ event, s.events.begin = some event ∧ event.key ≤ currentTime ∧
        s.getNextEvent currentTime = some (some (event.value,
          ⟨s.events.without event.iterator, Function.update s.timeouts event.value none⟩)) := by
  cases first : s.events.begin with
  | none =>
      refine .inl ⟨?_, nofun⟩
      simp only [getNextEvent, first]
  | some event =>
      by_cases later : currentTime < event.key
      · refine .inl ⟨?_, ?_⟩
        · simp only [getNextEvent, first, if_pos later]
        · rintro _ ⟨⟩
          exact later
      · refine .inr ⟨event, rfl, not_lt.mp later, ?_⟩
        simp only [getNextEvent, first, if_neg later,
          OrderedMultimap.erase_of_mem (OrderedMultimap.begin_mem first), Option.map_some]

/-- **No operation erases through a dead or past-the-end iterator, and each keeps the link.** -/
theorem Linked.addEvent (linked : Linked s) (newTimeout : Word) (payload : EventPayload) :
    ∃ after, s.addEvent newTimeout payload = some after ∧ Linked after := by
  by_cases valid : newTimeout = invalidTime
  · exact ⟨s, by simp only [Containers.addEvent, if_pos valid], linked⟩
  · obtain ⟨cleared, -, linkedCleared, absent, added⟩ := linked.addEvent_eq payload valid
    exact ⟨_, added, linkedCleared.insert valid absent⟩

theorem Linked.deleteEvent (linked : Linked s) (payload : EventPayload) :
    ∃ after, s.deleteEvent payload = some after ∧ Linked after := by
  rcases linked.deleteEvent_cases payload with ⟨-, deleted⟩ | ⟨event, member, -, deleted⟩
  · exact ⟨s, deleted, linked⟩
  · exact ⟨_, deleted, linked.without member⟩

theorem Linked.getNextEvent (linked : Linked s) (currentTime : Word) :
    s.getNextEvent currentTime = some none ∨
      ∃ payload after, s.getNextEvent currentTime = some (some (payload, after)) ∧
        Linked after := by
  rcases Linked.getNextEvent_cases s currentTime with ⟨waiting, -⟩ | ⟨event, first, -, taken⟩
  · exact .inl waiting
  · exact .inr ⟨_, _, taken, linked.without (OrderedMultimap.begin_mem first)⟩

end Containers

end Jasl
