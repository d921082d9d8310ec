import Jasl.Library.Runs
import Mathlib.Order.WellFounded

/-!
# Executions without end

An execution gives a machine a state and a label for every time. It is what a
liveness property is about: something happens at some time, when what the
environment promises happens again and again (`Recurs`).

The rule is a rank in a well-founded order that no step raises. When it falls
again and again until a goal is reached, the goal is reached
(`eventually_of_rank`). In a run, a number that some labels lower and none raises
bounds how many of these there are (`Run.countP_le`). A run that can idle where it ends
is the beginning of an execution (`Run.forever`).

A machine that comes to an end has executions when it may also rest (`resting`). The rule
then asks for labels of one kind, which lower the rank and are taken again and again
(`Execution.eventually_of_kind`).
-/

set_option autoImplicit false

namespace Jasl.Library

universe u v e r

variable {σ : Type u} {α : Type v} {ε : Type e}

/-- A state and a label for every time, each state the step of the one before. -/
structure Execution (step : σ → α → Except ε σ) where
  state : ℕ → σ
  label : ℕ → α
  stepped : ∀ time, step (state time) (label time) = .ok (state (time + 1))

/-- It happens again and again from a time on. -/
def Recurs (start : ℕ) (happens : ℕ → Prop) : Prop :=
  ∀ time, start ≤ time → ∃ later, time ≤ later ∧ happens later

namespace Execution

variable {step : σ → α → Except ε σ} (e : Execution step)

/-- What every step keeps from a time on holds from then on. -/
theorem keeps {holds : σ → Prop} {start : ℕ} (initial : holds (e.state start))
    (preserved : ∀ before label after, holds before → step before label = .ok after → holds after) :
    ∀ time, start ≤ time → holds (e.state time) := by
  intro time later
  induction time, later using Nat.le_induction with
  | base => exact initial
  | succ time _ ih => exact preserved _ _ _ ih (e.stepped time)

/-- The beginning of an execution is a run. -/
theorem run {allowed : σ → α → Prop} {time : ℕ}
    (permitted : ∀ before < time, allowed (e.state before) (e.label before)) :
    Run step allowed (e.state 0) ((List.range time).map e.label) (e.state time) := by
  induction time with
  | zero => exact .nil
  | succ time ih =>
      rw [List.range_succ, List.map_append]
      have before := ih fun earlier less => permitted earlier (Nat.lt_succ_of_lt less)
      exact before.snoc (permitted time (Nat.lt_succ_self time)) (e.stepped time)

/-- The labels of a run take an execution where the run ends. -/
theorem state_of_run {allowed : σ → α → Prop} {start final : σ} {labels : List α}
    (run : Run step allowed start labels final) (begins : e.state 0 = start)
    (same : ∀ time < labels.length, labels[time]? = some (e.label time)) :
    e.state labels.length = final := by
  induction run with
  | nil => exact begins
  | @snoc labels before after label _ _ stepped ih =>
      have reached : e.state labels.length = before := by
        apply ih
        intro time inRun
        rw [← same time (by simp only [List.length_append]; omega),
          List.getElem?_append_left inRun]
      have last := same labels.length (by simp)
      rw [List.getElem?_concat_length, Option.some.injEq] at last
      have taken := e.stepped labels.length
      rw [reached, ← last, stepped, Except.ok.injEq] at taken
      rw [List.length_append, List.length_singleton]
      exact taken.symm

/-- **A rank that falls again and again until a goal is reached, and never rises, reaches it.** -/
theorem eventually_of_rank {τ : Type r} [Preorder τ] [WellFoundedLT τ] (rank : σ → τ)
    (goal : σ → Prop) {start : ℕ}
    (kept : ∀ time, start ≤ time → ¬ goal (e.state time) →
      rank (e.state (time + 1)) ≤ rank (e.state time))
    (falls : Recurs start fun time =>
      goal (e.state time) ∨ rank (e.state (time + 1)) < rank (e.state time)) :
    ∃ time, start ≤ time ∧ goal (e.state time) := by
  by_contra never
  push Not at never
  have antitone : ∀ {time later : ℕ}, start ≤ time → time ≤ later →
      rank (e.state later) ≤ rank (e.state time) := by
    intro time later started order
    induction later, order using Nat.le_induction with
    | base => exact le_rfl
    | succ later order ih =>
        have started := started.trans order
        exact (kept later started (never later started)).trans ih
  -- no time has a rank: of two with a rank, the later one has a smaller one
  have none : ∀ value : τ, ∀ time, start ≤ time → rank (e.state time) = value → False := by
    intro value
    induction value using WellFoundedLT.induction with
    | ind value ih =>
        intro time started equal
        obtain ⟨later, order, goal | falls⟩ := falls time started
        · exact never later (started.trans order) goal
        · have smaller := falls.trans_le (antitone started order)
          rw [equal] at smaller
          exact ih _ smaller (later + 1) (by omega) rfl
  exact none _ start le_rfl rfl

end Execution

/-- A number that no step raises, and that the labels of a kind lower, bounds how many of them
there are. -/
theorem Run.countP_le {step : σ → α → Except ε σ} {allowed : σ → α → Prop} {start final : σ}
    {labels : List α} (holds : σ → Prop) (measure : σ → ℕ) (counted : α → Bool)
    (initial : holds start)
    (preserved : ∀ before label after, holds before → allowed before label →
      step before label = .ok after → holds after)
    (falls : ∀ before label after, holds before → allowed before label →
      step before label = .ok after →
      measure after + (if counted label then 1 else 0) ≤ measure before)
    (run : Run step allowed start labels final) :
    labels.countP counted + measure final ≤ measure start := by
  induction run with
  | nil => simp
  | @snoc labels before after label reached permitted stepped ih =>
      have kept := reached.invariant holds initial preserved
      have fallen := falls before label after kept permitted stepped
      rw [List.countP_append, List.countP_singleton]
      omega

/-- The states a run goes through, and then the one it ends in. -/
theorem Run.states {step : σ → α → Except ε σ} {allowed : σ → α → Prop} {start final : σ}
    {labels : List α} (run : Run step allowed start labels final) :
    ∃ state : ℕ → σ, state 0 = start ∧ (∀ time, labels.length ≤ time → state time = final) ∧
      ∀ time, (inRun : time < labels.length) → allowed (state time) (labels.get ⟨time, inRun⟩) ∧
        step (state time) (labels.get ⟨time, inRun⟩) = .ok (state (time + 1)) := by
  induction run with
  | nil =>
      refine ⟨fun _ => start, rfl, fun _ _ => rfl, ?_⟩
      intro time inRun
      cases inRun
  | @snoc labels before after label _ permitted moved ih =>
      obtain ⟨state, first, last, stepped⟩ := ih
      refine ⟨fun time => if time ≤ labels.length then state time else after, ?_, ?_, ?_⟩
      · simp only [Nat.zero_le, if_true]
        exact first
      · intro time passed
        rw [List.length_append, List.length_singleton] at passed
        exact if_neg (by omega)
      · intro time inRun
        rw [List.length_append, List.length_singleton] at inRun
        by_cases earlier : time < labels.length
        · have next : time + 1 ≤ labels.length := earlier
          simp only [earlier.le, next, if_true, List.get_eq_getElem,
            List.getElem_append_left earlier]
          exact stepped time earlier
        · obtain rfl : time = labels.length := by omega
          have next : ¬ labels.length + 1 ≤ labels.length := by omega
          simp only [le_rfl, next, if_true, if_false, last _ le_rfl, List.get_eq_getElem,
            List.getElem_concat_length]
          exact ⟨permitted, moved⟩

/-- A run followed by a label that changes nothing, for ever. -/
theorem Run.forever {step : σ → α → Except ε σ} {allowed : σ → α → Prop} {start final : σ}
    {labels : List α} (run : Run step allowed start labels final) {idle : α}
    (stays : step final idle = .ok final) :
    ∃ e : Execution step, e.state 0 = start ∧
      (∀ time < labels.length, labels[time]? = some (e.label time)) ∧
      (∀ time < labels.length, allowed (e.state time) (e.label time)) ∧
      ∀ time, labels.length ≤ time → e.state time = final ∧ e.label time = idle := by
  obtain ⟨state, first, last, stepped⟩ := run.states
  refine ⟨⟨state, fun time => labels[time]?.getD idle, ?_⟩, first, ?_, ?_, ?_⟩
  · intro time
    by_cases inRun : time < labels.length
    · rw [List.getElem?_eq_getElem inRun, Option.getD_some]
      exact (stepped time inRun).2
    · have passed : labels.length ≤ time := Nat.not_lt.mp inRun
      rw [List.getElem?_eq_none passed, Option.getD_none, last time passed, last _ (by omega)]
      exact stays
  · intro time inRun
    simp only [List.getElem?_eq_getElem inRun, Option.getD_some]
  · intro time inRun
    simp only [List.getElem?_eq_getElem inRun, Option.getD_some]
    exact (stepped time inRun).1
  · intro time passed
    refine ⟨last time passed, ?_⟩
    simp only [List.getElem?_eq_none passed, Option.getD_none]

/-! ## Machines that may rest -/

section Resting

/-- A step, or none. -/
def resting (step : σ → α → Except ε σ) (state : σ) : Option α → Except ε σ
  | none => .ok state
  | some label => step state label

variable {step : σ → α → Except ε σ}

/-- A run of a machine is one of the machine that may rest. -/
theorem Run.mayRest {allowed : σ → α → Prop} {start final : σ} {labels : List α}
    (run : Run step allowed start labels final) :
    Run (resting step) (fun state label => ∀ taken ∈ label, allowed state taken) start
      (labels.map some) final := by
  induction run with
  | nil => exact .nil
  | snoc _ permitted stepped ih =>
      rw [List.map_append]
      refine ih.snoc ?_ stepped
      intro taken same
      obtain rfl := Option.some.inj (Option.mem_def.mp same)
      exact permitted

/-- A run, and then rest. -/
theorem Run.lasting {allowed : σ → α → Prop} {start final : σ} {labels : List α}
    (run : Run step allowed start labels final) :
    ∃ e : Execution (resting step), e.state 0 = start ∧
      (∀ time < labels.length, labels[time]? = e.label time) ∧
      (∀ time, ∀ label ∈ e.label time, allowed (e.state time) label) ∧
      ∀ time, labels.length ≤ time → e.state time = final ∧ e.label time = none := by
  have stays : resting step final none = .ok final := rfl
  obtain ⟨e, begins, same, permitted, rests⟩ := run.mayRest.forever stays
  rw [List.length_map] at same permitted rests
  refine ⟨e, begins, ?_, ?_, rests⟩
  · intro time inRun
    have taken := same time inRun
    rw [List.getElem?_map, List.getElem?_eq_getElem inRun, Option.map_some,
      Option.some.injEq] at taken
    rw [List.getElem?_eq_getElem inRun]
    exact taken
  · intro time label taken
    by_cases inRun : time < labels.length
    · exact permitted time inRun label taken
    · have none_ := (rests time (Nat.not_lt.mp inRun)).2
      rw [none_] at taken
      cases taken

namespace Execution

variable (e : Execution (resting step))

/-- The machine takes a label of a kind. -/
def Takes (time : ℕ) (own : α → Bool) : Prop := ∃ label, e.label time = some label ∧ own label = true

variable {e} in
/-- The labels of a run take an execution where the run ends. -/
theorem state_of_labels {allowed : σ → α → Prop} {start final : σ} {labels : List α}
    (run : Run step allowed start labels final) (begins : e.state 0 = start)
    (same : ∀ time < labels.length, labels[time]? = e.label time) :
    e.state labels.length = final := by
  have reached := e.state_of_run run.mayRest begins
  rw [List.length_map] at reached
  apply reached
  intro time inRun
  rw [List.getElem?_map, ← same time inRun, List.getElem?_eq_getElem inRun, Option.map_some]

variable {e} in
/-- A label that is taken is a step. -/
theorem took {time : ℕ} {label : α} (taken : label ∈ e.label time) :
    step (e.state time) label = .ok (e.state (time + 1)) := by
  have stepped := e.stepped time
  rw [Option.mem_def.mp taken] at stepped
  exact stepped

variable {e} in
/-- A machine that rests stays where it is. -/
theorem rested {time : ℕ} (rests : e.label time = none) :
    e.state (time + 1) = e.state time := by
  have stepped := e.stepped time
  rw [rests] at stepped
  exact (Except.ok.inj stepped).symm

/-- What every allowed step keeps from a time on holds from then on. -/
theorem keeps_allowed (allowed : σ → α → Prop) (holds : σ → Prop) {start : ℕ}
    (permitted : ∀ time, ∀ label ∈ e.label time, allowed (e.state time) label)
    (initial : holds (e.state start))
    (preserved : ∀ before label after, holds before → allowed before label →
      step before label = .ok after → holds after) :
    ∀ time, start ≤ time → holds (e.state time) := by
  intro time later
  induction time, later using Nat.le_induction with
  | base => exact initial
  | succ time _ ih =>
      cases taken : e.label time with
      | none =>
          rw [rested taken]
          exact ih
      | some label => exact preserved _ _ _ ih (permitted time label taken) (took taken)

/-- **A goal is reached when labels of a kind lower a rank, are taken again and again, and no other
raises it.** -/
theorem eventually_of_kind {τ : Type r} [Preorder τ] [WellFoundedLT τ] (rank : σ → τ)
    (goal : σ → Prop) (own : α → Bool) {start : ℕ}
    (lowers : ∀ time, start ≤ time → ¬ goal (e.state time) → ∀ label ∈ e.label time,
      own label = true → rank (e.state (time + 1)) < rank (e.state time))
    (others : ∀ time, start ≤ time → ¬ goal (e.state time) → ∀ label ∈ e.label time,
      own label = false → rank (e.state (time + 1)) ≤ rank (e.state time))
    (scheduled : Recurs start fun time => e.Takes time own ∨ goal (e.state time)) :
    ∃ time, start ≤ time ∧ goal (e.state time) := by
  apply e.eventually_of_rank rank goal
  · intro time later unreached
    cases taken : e.label time with
    | none => rw [rested taken]
    | some label =>
        cases kind : own label with
        | true => exact (lowers time later unreached label taken kind).le
        | false => exact others time later unreached label taken kind
  · intro time order
    obtain ⟨later, onward, happens⟩ := scheduled time order
    refine ⟨later, onward, ?_⟩
    by_cases reached : goal (e.state later)
    · exact .inl reached
    · obtain ⟨label, taken, kind⟩ := happens.resolve_right reached
      exact .inr (lowers later (order.trans onward) reached label taken kind)

end Execution

end Resting

/-- What comes to stay, for each number below a bound, has come for all of them at some time. -/
theorem exists_forall_lt {holds : ℕ → ℕ → Prop} {start bound : ℕ}
    (stays : ∀ number time later, time ≤ later → holds number time → holds number later)
    (comes : ∀ number < bound, ∃ time, start ≤ time ∧ holds number time) :
    ∃ time, start ≤ time ∧ ∀ number < bound, holds number time := by
  induction bound with
  | zero => exact ⟨start, le_rfl, fun number below => absurd below (Nat.not_lt_zero number)⟩
  | succ bound ih =>
      obtain ⟨first, order, before⟩ := ih fun number below => comes number (Nat.lt_succ_of_lt below)
      obtain ⟨second, _, last⟩ := comes bound (Nat.lt_succ_self bound)
      refine ⟨max first second, order.trans (le_max_left _ _), ?_⟩
      intro number below
      rcases Nat.lt_succ_iff_lt_or_eq.mp below with earlier | rfl
      · exact stays number first _ (le_max_left _ _) (before number earlier)
      · exact stays number second _ (le_max_right _ _) last

end Jasl.Library
