import Mathlib.Logic.Relation
import Mathlib.Logic.Function.Basic
import Mathlib.Order.Basic
import Mathlib.Tactic.Common

/-!
# Locks that tasks hold and wait for

A task holds any number of locks and waits for at most one. It waits on the tasks
that hold that lock (`Locks.WaitsOn`), and a deadlock is a cycle of tasks each of
which waits on the next (`Locks.Deadlocked`).

Taking a lock and giving it back close no cycle, whatever the task holds besides
(`Deadlocked.of_take`, `Deadlocked.of_give`): the task that takes it waits for
nothing then. A task that begins to wait closes a cycle exactly when the locks lead
back to it, from the lock it waits for to one that it holds (`deadlocked_ask`). In
particular, a task that holds nothing closes none, and no task does as long as locks
are waited for in the order of some rank (`not_leads_of_rank`).
-/

set_option autoImplicit false

namespace Jasl.Library

open Relation

universe u v w

/-! ## Cycles of a relation -/

section Cycles

variable {τ : Type u} {before after : τ → τ → Prop} {task : τ}

/-- Edges that end at a task without edges close no cycle. -/
theorem cycle_of_sink (sink : ∀ other, ¬ after task other)
    (kept : ∀ first second, second ≠ task → after first second → before first second) {first : τ}
    (cycle : TransGen after first first) : TransGen before first first := by
  have edges : ∀ {second : τ}, TransGen after first second → second ≠ task →
      TransGen before first second := by
    intro second path
    induction path with
    | single edge => exact fun other => .single (kept _ _ other edge)
    | @tail middle second _ edge ih =>
        intro other
        have inner : middle ≠ task := fun same => sink second (same ▸ edge)
        exact (ih inner).tail (kept _ _ other edge)
  refine edges cycle ?_
  rintro rfl
  obtain ⟨other, edge, -⟩ := TransGen.head'_iff.mp cycle
  exact sink other edge

/-- A path to a task uses no edge that starts at the task. -/
theorem path_of_path (kept : ∀ first second, first ≠ task → after first second →
    before first second) {first : τ} (path : ReflTransGen after first task) :
    ReflTransGen before first task := by
  induction path using ReflTransGen.head_induction_on with
  | refl => exact .refl
  | @head first middle edge _ ih =>
      by_cases same : first = task
      · rw [same]
      · exact ih.head (kept _ _ same edge)

/-- Edges that start at a task close a cycle only through the task. -/
theorem cycle_of_source (kept : ∀ first second, first ≠ task → after first second →
    before first second) {first : τ} (cycle : TransGen after first first) :
    TransGen before first first ∨ ∃ other, after task other ∧ ReflTransGen before other task := by
  have edges : ∀ {second : τ}, TransGen after first second →
      TransGen before first second ∨
        (ReflTransGen after first task ∧
          ∃ other, after task other ∧ ReflTransGen after other second) := by
    intro second path
    induction path with
    | @single second edge =>
        by_cases same : first = task
        · subst same
          exact .inr ⟨.refl, second, edge, .refl⟩
        · exact .inl (.single (kept _ _ same edge))
    | @tail middle second path edge ih =>
        rcases ih with path' | ⟨toTask, other, edge', further⟩
        · by_cases same : middle = task
          · subst same
            exact .inr ⟨path.to_reflTransGen, second, edge, .refl⟩
          · exact .inl (path'.tail (kept _ _ same edge))
        · exact .inr ⟨toTask, other, edge', further.tail edge⟩
  rcases edges cycle with cycle' | ⟨toTask, other, edge, further⟩
  · exact .inl cycle'
  · exact .inr ⟨other, edge, path_of_path kept (further.trans toTask)⟩

end Cycles

/-! ## Locks -/

/-- Which task holds which locks, and the lock each task waits for. -/
@[ext] structure Locks (τ : Type u) (ℓ : Type v) where
  holds : τ → ℓ → Prop
  waits : τ → Option ℓ

namespace Locks

variable {τ : Type u} {ℓ : Type v}

/-- A task waits for a lock that another holds. -/
def WaitsOn (s : Locks τ ℓ) (task holder : τ) : Prop :=
  ∃ lock, s.waits task = some lock ∧ s.holds holder lock

/-- There is a cycle of tasks each of which waits on the next. -/
def Deadlocked (s : Locks τ ℓ) : Prop := ∃ task, TransGen s.WaitsOn task task

/-- Some task holds one lock and waits for another. -/
def Leads (s : Locks τ ℓ) (held lock : ℓ) : Prop :=
  ∃ task, s.holds task held ∧ s.waits task = some lock

/-- No lock is held by two tasks. -/
def Exclusive (s : Locks τ ℓ) : Prop :=
  ∀ lock first second, s.holds first lock → s.holds second lock → first = second

/-! ## Paths of tasks and paths of locks -/

/-- The locks lead from one to another exactly when the tasks do that hold them. -/
theorem leads_iff (s : Locks τ ℓ) {task : τ} {lock : ℓ} :
    (∃ held, s.holds task held ∧ ReflTransGen s.Leads lock held) ↔
      ∃ holder, s.holds holder lock ∧ ReflTransGen s.WaitsOn holder task := by
  constructor
  · rintro ⟨held, holds, path⟩
    induction path using ReflTransGen.head_induction_on with
    | refl => exact ⟨task, holds, .refl⟩
    | head leads _ ih =>
        obtain ⟨holder, holdsNext, further⟩ := ih
        obtain ⟨first, holdsFirst, waits⟩ := leads
        exact ⟨first, holdsFirst, further.head ⟨_, waits, holdsNext⟩⟩
  · rintro ⟨holder, holds, path⟩
    induction path using ReflTransGen.head_induction_on generalizing lock with
    | refl => exact ⟨lock, holds, .refl⟩
    | head edge _ ih =>
        obtain ⟨next, waits, holdsNext⟩ := edge
        obtain ⟨held, holdsLast, further⟩ := ih holdsNext
        exact ⟨held, holdsLast, further.head ⟨_, holds, waits⟩⟩

/-- Where locks are waited for in the order of a rank, they lead to no higher one. -/
theorem not_leads_of_rank {ρ : Type w} [Preorder ρ] {s : Locks τ ℓ} (rank : ℓ → ρ)
    (descends : ∀ held lock, s.Leads held lock → rank lock < rank held) {first last : ℓ}
    (higher : rank first < rank last) : ¬ ReflTransGen s.Leads first last := by
  intro path
  have lower : rank last ≤ rank first := by
    clear higher
    induction path with
    | refl => exact le_refl _
    | tail _ leads ih => exact (descends _ _ leads).le.trans ih
  exact absurd higher (not_lt_of_ge lower)

/-! ## What a task does -/

section

variable {s : Locks τ ℓ} {task : τ} {lock : ℓ}

/-- The task gives a lock back. -/
def give (s : Locks τ ℓ) (task : τ) (lock : ℓ) : Locks τ ℓ :=
  { s with holds := fun other held => s.holds other held ∧ ¬ (other = task ∧ held = lock) }

/-- Giving a lock back closes no cycle. -/
theorem Deadlocked.of_give (deadlocked : (s.give task lock).Deadlocked) : s.Deadlocked := by
  obtain ⟨first, cycle⟩ := deadlocked
  refine ⟨first, TransGen.mono ?_ _ _ cycle⟩
  rintro _ _ ⟨waited, waits, holds⟩
  exact ⟨waited, waits, holds.1⟩

theorem Exclusive.give (exclusive : s.Exclusive) : (s.give task lock).Exclusive :=
  fun held first second inFirst inSecond => exclusive held first second inFirst.1 inSecond.1

theorem Leads.of_give {held next : ℓ} (leads : (s.give task lock).Leads held next) :
    s.Leads held next := by
  obtain ⟨other, holds, waits⟩ := leads
  exact ⟨other, holds.1, waits⟩

/-- The locks that are held after the only task that holds a lock gave it back. -/
theorem Exclusive.held_give (exclusive : s.Exclusive) (holds : s.holds task lock) {held : ℓ} :
    (∃ other, (s.give task lock).holds other held) ↔
      held ≠ lock ∧ ∃ other, s.holds other held := by
  constructor
  · rintro ⟨other, holdsOther, kept⟩
    refine ⟨?_, other, holdsOther⟩
    rintro rfl
    exact kept ⟨exclusive held other task holdsOther holds, rfl⟩
  · rintro ⟨different, other, holdsOther⟩
    exact ⟨other, holdsOther, fun given => different given.2⟩

variable [DecidableEq τ]

/-- The task begins to wait for a lock. -/
def ask (s : Locks τ ℓ) (task : τ) (lock : ℓ) : Locks τ ℓ :=
  { s with waits := Function.update s.waits task (some lock) }

theorem ask_waits_self (s : Locks τ ℓ) (task : τ) (lock : ℓ) :
    (s.ask task lock).waits task = some lock := Function.update_self ..

theorem ask_waits_of_ne (s : Locks τ ℓ) {task other : τ} (different : other ≠ task) (lock : ℓ) :
    (s.ask task lock).waits other = s.waits other := Function.update_of_ne different ..

/-- The task takes a lock, and waits no longer. -/
def take (s : Locks τ ℓ) (task : τ) (lock : ℓ) : Locks τ ℓ where
  holds other held := s.holds other held ∨ (other = task ∧ held = lock)
  waits := Function.update s.waits task none

theorem take_waits_self (s : Locks τ ℓ) (task : τ) (lock : ℓ) :
    (s.take task lock).waits task = none := Function.update_self ..

theorem take_waits_of_ne (s : Locks τ ℓ) {task other : τ} (different : other ≠ task) (lock : ℓ) :
    (s.take task lock).waits other = s.waits other := Function.update_of_ne different ..

theorem Leads.of_ask {held next : ℓ} (leads : (s.ask task lock).Leads held next) :
    s.Leads held next ∨ (s.holds task held ∧ next = lock) := by
  obtain ⟨other, holds, waits⟩ := leads
  by_cases own : other = task
  · rw [own, ask_waits_self, Option.some.injEq] at waits
    exact .inr ⟨own ▸ holds, waits.symm⟩
  · rw [ask_waits_of_ne s own] at waits
    exact .inl ⟨other, holds, waits⟩

theorem Leads.of_take {held next : ℓ} (leads : (s.take task lock).Leads held next) :
    s.Leads held next := by
  obtain ⟨other, holds, waits⟩ := leads
  by_cases own : other = task
  · rw [own, take_waits_self] at waits
    cases waits
  · rw [take_waits_of_ne s own] at waits
    exact ⟨other, holds.resolve_right fun taken => own taken.1, waits⟩

/-- **Where beginning to wait closes a cycle**: when the locks lead back from the one waited for to
one that the task holds. -/
theorem deadlocked_ask (busy : s.waits task = none) :
    (s.ask task lock).Deadlocked ↔
      s.Deadlocked ∨ ∃ held, s.holds task held ∧ ReflTransGen s.Leads lock held := by
  rw [leads_iff]
  constructor
  · have kept : ∀ first second, first ≠ task → (s.ask task lock).WaitsOn first second →
        s.WaitsOn first second := by
      rintro first second other ⟨waited, waits, holds⟩
      rw [ask_waits_of_ne s other] at waits
      exact ⟨waited, waits, holds⟩
    rintro ⟨first, cycle⟩
    rcases cycle_of_source kept cycle with cycle' | ⟨holder, ⟨waited, waits, holds⟩, path⟩
    · exact .inl ⟨first, cycle'⟩
    · rw [ask_waits_self, Option.some.injEq] at waits
      exact .inr ⟨holder, waits ▸ holds, path⟩
  · have kept : ∀ first second, s.WaitsOn first second →
        (s.ask task lock).WaitsOn first second := by
      rintro first second ⟨waited, waits, holds⟩
      have other : first ≠ task := by
        rintro rfl
        cases busy.symm.trans waits
      exact ⟨waited, (ask_waits_of_ne s other lock).trans waits, holds⟩
    rintro (⟨first, cycle⟩ | ⟨holder, holds, path⟩)
    · exact ⟨first, TransGen.mono kept _ _ cycle⟩
    · have asked : (s.ask task lock).WaitsOn task holder :=
        ⟨lock, ask_waits_self s task lock, holds⟩
      exact ⟨task, TransGen.head' asked (ReflTransGen.mono kept _ _ path)⟩

/-- Taking a lock closes no cycle. -/
theorem Deadlocked.of_take (deadlocked : (s.take task lock).Deadlocked) : s.Deadlocked := by
  obtain ⟨first, cycle⟩ := deadlocked
  have sink : ∀ other, ¬ (s.take task lock).WaitsOn task other := by
    rintro other ⟨waited, waits, -⟩
    rw [take_waits_self] at waits
    cases waits
  refine ⟨first, cycle_of_sink sink ?_ cycle⟩
  rintro first second other edge
  have idle : first ≠ task := by
    rintro rfl
    exact sink second edge
  obtain ⟨waited, waits, holds | ⟨same, -⟩⟩ := edge
  · rw [take_waits_of_ne s idle] at waits
    exact ⟨waited, waits, holds⟩
  · exact absurd same other

/-- The locks that are held after a task took one. -/
theorem held_take {held : ℓ} :
    (∃ other, (s.take task lock).holds other held) ↔
      held = lock ∨ ∃ other, s.holds other held := by
  constructor
  · rintro ⟨other, holds | ⟨-, same⟩⟩
    · exact .inr ⟨other, holds⟩
    · exact .inl same
  · rintro (same | ⟨other, holds⟩)
    · exact ⟨task, .inr ⟨rfl, same⟩⟩
    · exact ⟨other, .inl holds⟩

/-- Taking a lock that nobody holds keeps the locks exclusive. -/
theorem Exclusive.take (exclusive : s.Exclusive) (free : ∀ other, ¬ s.holds other lock) :
    (s.take task lock).Exclusive := by
  rintro held first second (inFirst | ⟨rfl, rfl⟩) (inSecond | ⟨rfl, same⟩)
  · exact exclusive held first second inFirst inSecond
  · exact absurd (same ▸ inFirst) (free first)
  · exact absurd inSecond (free second)
  · rfl

end

end Locks

end Jasl.Library
