import Mathlib.Order.Lattice
import Mathlib.Logic.Function.Basic
import Mathlib.Data.Nat.Notation
import Mathlib.Tactic.Common

/-!
# The map a timer queue stands for

What a timer queue is for can be said without its containers: it is a finite map
from payloads to deadlines. Adding sets the deadline of a payload, deleting
removes it, and asking for the next event at a time removes and returns a payload
of least deadline exactly when that deadline has come. One value of the time type
stands for *never*; adding an event that never comes does nothing.

`Step` is one operation with what it returns and `Steps` is a sequence of them.
Which of several payloads with the least deadline is returned is left open; `AddedBefore`
is the order in which payloads were added last, for queues that return them in it.
-/

set_option autoImplicit false

namespace Jasl.Library

universe u v

/-- The deadlines a timer queue holds. -/
abbrev TimerMap (P : Type u) (T : Type v) := P → Option T

/-- The operations of a timer queue. -/
inductive TimerOp (P : Type u) (T : Type v) where
  | add (deadline : T) (payload : P)
  | next (now : T)
  | delete (payload : P)
deriving DecidableEq, Repr

/-- An operation that gives a payload a deadline that comes. -/
def TimerOp.Adds {P : Type u} {T : Type v} (never : T) (payload : P) : TimerOp P T → Prop
  | .add deadline added => deadline ≠ never ∧ added = payload
  | .next _ | .delete _ => False

/-- In a sequence of operations the last one that adds the second payload comes after the last one
that adds the first. -/
def AddedBefore {P : Type u} {T : Type v} (never : T) (ops : List (TimerOp P T))
    (first second : P) : Prop :=
  ∃ before op after, ops = before ++ op :: after ∧ op.Adds never second ∧
    (∃ earlier ∈ before, earlier.Adds never first) ∧
      ∀ later ∈ after, ¬ later.Adds never first ∧ ¬ later.Adds never second

namespace AddedBefore

variable {P : Type u} {T : Type v} {never : T} {ops : List (TimerOp P T)} {first second : P}

/-- An operation that adds neither payload keeps their order. -/
theorem snoc (order : AddedBefore never ops first second) {op : TimerOp P T}
    (notFirst : ¬ op.Adds never first) (notSecond : ¬ op.Adds never second) :
    AddedBefore never (ops ++ [op]) first second := by
  obtain ⟨before, added, after, rfl, adds, earlier, none⟩ := order
  refine ⟨before, added, after ++ [op], by simp, adds, earlier, ?_⟩
  intro later member
  rcases List.mem_append.mp member with inAfter | last
  · exact none later inAfter
  · obtain rfl := List.mem_singleton.mp last
    exact ⟨notFirst, notSecond⟩

/-- A payload that is added comes after every payload that was added. -/
theorem of_added {earlier op : TimerOp P T} (member : earlier ∈ ops)
    (adds : earlier.Adds never first) (adds' : op.Adds never second) :
    AddedBefore never (ops ++ [op]) first second :=
  ⟨ops, op, [], rfl, adds', ⟨earlier, member, adds⟩, nofun⟩

end AddedBefore

namespace TimerMap

variable {P : Type u} {T : Type v} [DecidableEq P]

/-- The map with no timer. -/
def empty : TimerMap P T := fun _ => none

/-- What is left after a removal was there before. -/
theorem of_removed {m : TimerMap P T} {removed payload : P} {deadline : T}
    (kept : Function.update m removed none payload = some deadline) :
    m payload = some deadline := by
  by_cases same : payload = removed
  · rw [same, Function.update_self] at kept
    cases kept
  · rwa [Function.update_of_ne same] at kept

/-- What was not there is not there after a removal. -/
theorem removed_eq_none {m : TimerMap P T} {payload : P} (absent : m payload = none)
    (removed : P) : Function.update m removed none payload = none := by
  by_contra kept
  obtain ⟨deadline, some⟩ := Option.ne_none_iff_exists'.mp kept
  cases absent.symm.trans (of_removed some)

variable [LinearOrder T]

/-- A payload is due at a time, before every other one, when its deadline has come and no
deadline is earlier. -/
structure Due (m : TimerMap P T) (now : T) (payload : P) (deadline : T) : Prop where
  entry : m payload = some deadline
  reached : deadline ≤ now
  least : ∀ other later, m other = some later → deadline ≤ later

/-- The earliest deadline of all. -/
structure Earliest (m : TimerMap P T) (deadline : T) : Prop where
  entry : ∃ payload, m payload = some deadline
  least : ∀ other later, m other = some later → deadline ≤ later

omit [DecidableEq P] in
theorem Earliest.unique {m : TimerMap P T} {first second : T} (inFirst : m.Earliest first)
    (inSecond : m.Earliest second) : first = second := by
  obtain ⟨payload, scheduled⟩ := inFirst.entry
  obtain ⟨other, scheduled'⟩ := inSecond.entry
  exact le_antisymm (inFirst.least _ _ scheduled') (inSecond.least _ _ scheduled)

omit [DecidableEq P] in
theorem Earliest.ne_empty {m : TimerMap P T} {deadline : T} (earliest : m.Earliest deadline) :
    m ≠ empty := by
  rintro rfl
  obtain ⟨payload, scheduled⟩ := earliest.entry
  cases scheduled

/-- One operation: the map before, what is returned, and the map after. -/
inductive Step (never : T) (m : TimerMap P T) :
    TimerOp P T → Option P → TimerMap P T → Prop where
  | add {deadline : T} {payload : P} (comes : deadline ≠ never) :
      Step never m (.add deadline payload) none (Function.update m payload (some deadline))
  | addNever {payload : P} : Step never m (.add never payload) none m
  | delete {payload : P} : Step never m (.delete payload) none (Function.update m payload none)
  | none {now : T} (waiting : ∀ payload deadline, m payload = some deadline → now < deadline) :
      Step never m (.next now) none m
  | next {now deadline : T} {payload : P} (due : m.Due now payload deadline) :
      Step never m (.next now) (some payload) (Function.update m payload none)

/-- A sequence of operations with what each of them returns. -/
inductive Steps (never : T) : TimerMap P T → List (TimerOp P T) → List (Option P) →
    TimerMap P T → Prop where
  | nil {m : TimerMap P T} : Steps never m [] [] m
  | cons {m next last : TimerMap P T} {op : TimerOp P T} {result : Option P}
      {ops : List (TimerOp P T)} {results : List (Option P)} :
      Step never m op result next → Steps never next ops results last →
        Steps never m (op :: ops) (result :: results) last

end TimerMap

end Jasl.Library
