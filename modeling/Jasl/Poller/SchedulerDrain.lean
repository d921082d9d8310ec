import Jasl.Poller.SchedulerRefinement

/-!
# Draining the scheduler

`process_scheduler` calls `get_next_event` with one reading of the clock until it
returns `false`. What it is given in turn are the payloads that are due, in the
order of their deadlines. The map of the deadlines leaves open which of several
equal ones comes first. The multimap inserts behind the elements that have the same
key, and `add_event` erases before it inserts, so it is the one whose last
`add_event` with a deadline that comes is the oldest (`InAddOrder`). The drain ends, and
leaves the payloads that are not due (`drain_yields_expired_in_order`).
-/

set_option autoImplicit false

namespace Jasl

open Library

namespace Containers

/-- The payloads that `get_next_event` yields until it returns `false`, with the containers after;
`none` when that takes more than so many calls, or when one of them erases through a dead
iterator. -/
def drain (currentTime : Word) : ℕ → Containers → Option (List EventPayload × Containers)
  | 0, _ => none
  | calls + 1, s =>
      match s.getNextEvent currentTime with
      | none => none
      | some none => some ([], s)
      | some (some (payload, next)) =>
          (drain currentTime calls next).map fun (rest, last) => (payload :: rest, last)

variable {s : Containers}

/-- One call for every timer and one more drain the scheduler: they yield the elements that are due,
as they stand, and leave the others. -/
theorem Linked.drain_eq (now : Word) (timers : ℕ) :
    ∀ {s : Containers}, Linked s → s.events.nodes.length = timers →
      ∃ after, (∀ calls, timers < calls → s.drain now calls = some
          ((s.events.nodes.filter fun node => node.key ≤ now).map Node.value, after)) ∧
        after.events.nodes = s.events.nodes.filter (fun node => now < node.key) ∧
        Linked after := by
  induction timers using Nat.strong_induction_on with
  | _ timers ih =>
      intro s linked counted
      rcases getNextEvent_cases s now with ⟨returned, waiting⟩ | ⟨event, first, reached, taken⟩
      · have later := OrderedMultimap.lt_key_of_begin waiting
        have due : (s.events.nodes.filter fun node => node.key ≤ now) = [] :=
          List.filter_eq_nil_iff.mpr fun node member => by simpa using later node member
        have left : (s.events.nodes.filter fun node => now < node.key) = s.events.nodes :=
          List.filter_eq_self.mpr fun node member => by simpa using later node member
        refine ⟨s, ?_, left.symm, linked⟩
        intro calls enough
        obtain ⟨calls, rfl⟩ := Nat.exists_eq_add_one_of_ne_zero (Nat.ne_zero_of_lt enough)
        rw [Containers.drain, returned, due, List.map_nil]
      · have rest := OrderedMultimap.without_begin first
        have shorter := OrderedMultimap.length_without_begin first
        have member := OrderedMultimap.begin_mem first
        obtain ⟨after, drained, left, linkedAfter⟩ :=
          ih (s.events.without event.iterator).nodes.length (by omega) (linked.without member) rfl
        refine ⟨after, ?_, ?_, linkedAfter⟩
        · intro calls enough
          obtain ⟨calls, rfl⟩ := Nat.exists_eq_add_one_of_ne_zero (Nat.ne_zero_of_lt enough)
          simp only [Containers.drain, taken, drained calls (by omega), Option.map_some]
          rw [rest, List.filter_cons_of_pos (by simpa using reached), List.map_cons]
        · rw [left, rest, List.filter_cons_of_neg (by simpa using reached)]

/-! ## The order of equal deadlines -/

/-- The elements stand in the order of their deadlines, and those with one deadline in the order in
which they were added last. -/
structure InAddOrder (s : Containers) (ops : List (TimerOp EventPayload Word)) : Prop where
  order : s.events.nodes.Pairwise fun first second =>
    first.key < second.key ∨
      (first.key = second.key ∧ AddedBefore invalidTime ops first.value second.value)
  added : ∀ node ∈ s.events.nodes, ∃ op ∈ ops, op.Adds invalidTime node.value

namespace InAddOrder

variable {ops : List (TimerOp EventPayload Word)}

theorem empty : Containers.empty.InAddOrder [] where
  order := .nil
  added := nofun

/-- An operation that only removes elements, or adds payloads that have none, keeps the order. -/
theorem shrink (ordered : s.InAddOrder ops) {after : Containers}
    (fewer : after.events.nodes.Sublist s.events.nodes) {op : TimerOp EventPayload Word}
    (others : ∀ node ∈ after.events.nodes, ¬ op.Adds invalidTime node.value) :
    after.InAddOrder (ops ++ [op]) where
  order := by
    refine (ordered.order.sublist fewer).imp_of_mem ?_
    rintro first second inFirst inSecond (earlier | ⟨same, before⟩)
    · exact .inl earlier
    · exact .inr ⟨same, before.snoc (others first inFirst) (others second inSecond)⟩
  added := by
    intro node member
    obtain ⟨added, inOps, adds⟩ := ordered.added node (fewer.subset member)
    exact ⟨added, List.mem_append_left _ inOps, adds⟩

theorem addEvent (ordered : s.InAddOrder ops) (linked : Linked s) {time : Word}
    (valid : time ≠ invalidTime) {payload : EventPayload} {after : Containers}
    (added : s.addEvent time payload = some after) :
    after.InAddOrder (ops ++ [.add time payload]) := by
  obtain ⟨cleared, deleted, linkedCleared, absent, same⟩ := linked.addEvent_eq payload valid
  obtain rfl := Option.some.inj (same.symm.trans added)
  have free := linkedCleared.not_mem_of_timeouts_none absent
  have fewer : cleared.events.nodes.Sublist s.events.nodes := by
    rcases linked.deleteEvent_cases payload with ⟨-, kept⟩ | ⟨event, -, -, removed⟩
    · rw [Option.some.inj (deleted.symm.trans kept)]
    · rw [Option.some.inj (deleted.symm.trans removed)]
      exact s.events.nodes_without_sublist _
  have adds : (TimerOp.add time payload).Adds invalidTime payload := ⟨valid, rfl⟩
  have kept : cleared.InAddOrder (ops ++ [.add time payload]) :=
    ordered.shrink fewer fun node member adds => free node member adds.2.symm
  constructor
  · refine OrderedMultimap.pairwise_insert kept.order ?_ fun _ _ later => .inl later
    intro node member small
    rcases small.lt_or_eq with earlier | equal
    · exact .inl earlier
    · obtain ⟨op, inOps, adds'⟩ := ordered.added node (fewer.subset member)
      exact .inr ⟨equal, .of_added inOps adds' adds⟩
  · intro node member
    rcases OrderedMultimap.mem_insert.mp member with rfl | inCleared
    · exact ⟨_, List.mem_append_right _ List.mem_cons_self, adds⟩
    · exact kept.added node inCleared

theorem perform (ordered : s.InAddOrder ops) (linked : Linked s)
    {op : TimerOp EventPayload Word} {result : Option EventPayload} {after : Containers}
    (performed : s.perform op = some (result, after)) : after.InAddOrder (ops ++ [op]) := by
  cases op with
  | add time payload =>
      obtain ⟨_, added, same⟩ := Option.map_eq_some_iff.mp performed
      obtain ⟨-, rfl⟩ := Prod.mk.inj same
      by_cases valid : time = invalidTime
      · rw [Containers.addEvent, if_pos valid] at added
        obtain rfl := Option.some.inj added
        exact ordered.shrink (List.Sublist.refl _) fun _ _ adds => adds.1 valid
      · exact ordered.addEvent linked valid added
  | delete payload =>
      obtain ⟨_, deleted, same⟩ := Option.map_eq_some_iff.mp performed
      obtain ⟨-, rfl⟩ := Prod.mk.inj same
      refine ordered.shrink ?_ fun _ _ => id
      rcases linked.deleteEvent_cases payload with ⟨-, kept⟩ | ⟨event, -, -, removed⟩
      · rw [Option.some.inj (deleted.symm.trans kept)]
      · rw [Option.some.inj (deleted.symm.trans removed)]
        exact s.events.nodes_without_sublist _
  | next now =>
      refine ordered.shrink ?_ fun _ _ => id
      rcases Linked.getNextEvent_cases s now with ⟨returned, -⟩ | ⟨event, -, -, taken⟩
      · simp only [Containers.perform, returned, Option.map_some, Option.some.injEq,
          Prod.mk.injEq] at performed
        rw [← performed.2]
      · simp only [Containers.perform, taken, Option.map_some, Option.some.injEq,
          Prod.mk.injEq] at performed
        rw [← performed.2]
        exact s.events.nodes_without_sublist _

theorem performAll (more : List (TimerOp EventPayload Word)) :
    ∀ {s after : Containers} {ops : List (TimerOp EventPayload Word)}
      {results : List (Option EventPayload)}, s.InAddOrder ops → Linked s →
        s.performAll more = some (results, after) →
          after.InAddOrder (ops ++ more) ∧ Linked after := by
  induction more with
  | nil =>
      intro s after ops results ordered linked performed
      obtain ⟨-, rfl⟩ := Prod.mk.inj (Option.some.inj performed)
      rw [List.append_nil]
      exact ⟨ordered, linked⟩
  | cons op more ih =>
      intro s after ops results ordered linked performed
      obtain ⟨result, next, stepped, linkedNext, -⟩ := linked.perform_step op
      simp only [Containers.performAll, stepped, Option.map_eq_some_iff, Prod.exists,
        Prod.mk.injEq] at performed
      obtain ⟨rest, last, performed, -, rfl⟩ := performed
      have reached := ih (ordered.perform linked stepped) linkedNext performed
      rwa [List.append_assoc, List.singleton_append] at reached

end InAddOrder

end Containers

/-- **Draining the scheduler yields the expired timers in order.** After any sequence of operations
on an empty scheduler, calling `get_next_event` with one reading until it returns `false` takes at
most one call more than there are timers. It yields every payload whose deadline has come, once, by
their deadlines and for equal ones by their last `add_event`, and leaves the others with theirs. -/
theorem drain_yields_expired_in_order {ops : List (TimerOp EventPayload Word)}
    {results : List (Option EventPayload)} {s : Containers}
    (reached : Containers.empty.performAll ops = some (results, s)) (now : Word) :
    ∃ yielded after, (∀ calls, s.events.nodes.length < calls →
        s.drain now calls = some (yielded, after)) ∧
      yielded.Nodup ∧
      (∀ payload, payload ∈ yielded ↔ ∃ time, s.deadline payload = some time ∧ time ≤ now) ∧
      (yielded.Pairwise fun first second => ∃ time later, s.deadline first = some time ∧
        s.deadline second = some later ∧
          (time < later ∨ (time = later ∧ AddedBefore invalidTime ops first second))) ∧
      ∀ payload time, after.deadline payload = some time ↔
        s.deadline payload = some time ∧ now < time := by
  obtain ⟨ordered, linked⟩ := Containers.InAddOrder.empty.performAll ops .empty reached
  rw [List.nil_append] at ordered
  obtain ⟨after, drained, left, linkedAfter⟩ := linked.drain_eq now _ rfl
  refine ⟨_, after, drained, ?_, ?_, ?_, ?_⟩
  · exact linked.payloads_nodup.sublist (List.filter_sublist.map Node.value)
  · intro payload
    simp only [List.mem_map, List.mem_filter, decide_eq_true_eq, linked.deadline_eq_some]
    constructor
    · rintro ⟨node, ⟨member, due⟩, rfl⟩
      exact ⟨node.key, ⟨node, member, rfl, rfl⟩, due⟩
    · rintro ⟨time, ⟨node, member, rfl, rfl⟩, due⟩
      exact ⟨node, ⟨member, due⟩, rfl⟩
  · refine List.pairwise_map.mpr ((ordered.order.filter _).imp_of_mem ?_)
    intro first second inFirst inSecond order
    exact ⟨first.key, second.key, linked.deadline_value (List.mem_of_mem_filter inFirst),
      linked.deadline_value (List.mem_of_mem_filter inSecond), order⟩
  · intro payload time
    rw [linkedAfter.deadline_eq_some, linked.deadline_eq_some, left]
    simp only [List.mem_filter, decide_eq_true_eq]
    constructor
    · rintro ⟨node, ⟨member, later⟩, rfl, rfl⟩
      exact ⟨⟨node, member, rfl, rfl⟩, later⟩
    · rintro ⟨⟨node, member, rfl, rfl⟩, later⟩
      exact ⟨node, ⟨member, later⟩, rfl, rfl⟩

/-- The payload 1 is added again with the deadline it has, and 3 is not due at 5. -/
def readdedOps : List (TimerOp EventPayload Word) := [.add 5 1, .add 5 2, .add 5 1, .add 9 3]

def readdedTimers : List (Option EventPayload) × Containers :=
  (Containers.empty.performAll readdedOps).get (by decide +kernel)

theorem drain_yields_expired_in_order_readded :
    ∃ yielded after, (∀ calls, 3 < calls → readdedTimers.2.drain 5 calls = some (yielded, after)) ∧
      1 ∈ yielded ∧ 3 ∉ yielded := by
  have reached : Containers.empty.performAll readdedOps =
      some (readdedTimers.1, readdedTimers.2) := Option.eq_some_of_isSome (by decide +kernel)
  obtain ⟨yielded, after, drained, -, due, -⟩ := drain_yields_expired_in_order reached 5
  refine ⟨yielded, after, drained, (due 1).mpr ⟨5, by decide +kernel, le_refl _⟩, ?_⟩
  rw [due 3]
  rintro ⟨time, scheduled, small⟩
  have own : readdedTimers.2.deadline 3 = some 9 := by decide +kernel
  obtain rfl := Option.some.inj (own.symm.trans scheduled)
  exact absurd small (by decide)

example : (readdedTimers.2.drain 5 4).map Prod.fst = some [2, 1] := by decide +kernel

end Jasl
