import Mathlib.Tactic.Common

/-!
# Runs of a labelled machine

A machine takes a state and a label to a new state, or fails with an error. A
run (`Run`) is a sequence of labels each of which was allowed where it was
taken and none of which failed. What is allowed may depend on the state and on
the label, so one machine has many notions of run: the assumptions made on its
environment, or the condition under which a result holds, are the `allowed`
relation.

The rules are the induction along a run (`Run.invariant`), the weakening of
what is allowed (`Run.mono`, `Run.mono_of_invariant`) and the executable check of a
concrete run (`Run.of_checkedRun`). A sequence of labels is taken up to the first that
fails (`perform`), which fails after a run (`perform_eq_error`). A machine can be
watched: `observed` carries a value along that is noted at every step and has no
influence on it, for statements about what happened earlier in a run.
-/

set_option autoImplicit false

namespace Jasl.Library

universe u v w e

variable {σ : Type u} {α : Type v} {ε : Type e}

/-- A run from `start`: every label is allowed in the state it is taken in, and
no step fails. -/
inductive Run (step : σ → α → Except ε σ) (allowed : σ → α → Prop) (start : σ) :
    List α → σ → Prop where
  | nil : Run step allowed start [] start
  | snoc {labels : List α} {before after : σ} {label : α} :
      Run step allowed start labels before → allowed before label →
        step before label = .ok after → Run step allowed start (labels ++ [label]) after

section Rules

variable {step : σ → α → Except ε σ} {allowed : σ → α → Prop} {start final : σ} {labels : List α}

/-- **What every allowed step keeps, a run keeps.** -/
theorem Run.invariant (holds : σ → Prop) (initial : holds start)
    (preserved : ∀ before label after, holds before → allowed before label →
      step before label = .ok after → holds after)
    (run : Run step allowed start labels final) : holds final := by
  induction run with
  | nil => exact initial
  | snoc _ permitted stepped ih => exact preserved _ _ _ ih permitted stepped

/-- Allowing more keeps the runs there were. -/
theorem Run.mono {larger : σ → α → Prop}
    (weaker : ∀ state label, allowed state label → larger state label)
    (run : Run step allowed start labels final) : Run step larger start labels final := by
  induction run with
  | nil => exact .nil
  | snoc _ permitted stepped ih => exact .snoc ih (weaker _ _ permitted) stepped

/-- Allowing something else keeps a run, when an invariant of the run shows that it is allowed. -/
theorem Run.mono_of_invariant {other : σ → α → Prop} (holds : σ → Prop) (initial : holds start)
    (preserved : ∀ before label after, holds before → allowed before label →
      step before label = .ok after → holds after)
    (permits : ∀ state label, holds state → allowed state label → other state label)
    (run : Run step allowed start labels final) : Run step other start labels final := by
  induction run with
  | nil => exact .nil
  | snoc reached permitted stepped ih =>
      exact .snoc ih (permits _ _ (reached.invariant holds initial preserved) permitted) stepped

/-- A run followed by a run is a run. -/
theorem Run.append {middle : σ} {more : List α} (first : Run step allowed start labels middle)
    (second : Run step allowed middle more final) :
    Run step allowed start (labels ++ more) final := by
  induction second with
  | nil =>
      rw [List.append_nil]
      exact first
  | snoc _ permitted stepped ih =>
      rw [← List.append_assoc]
      exact .snoc ih permitted stepped

theorem Run.single {before after : σ} {label : α} (permitted : allowed before label)
    (stepped : step before label = .ok after) : Run step allowed before [label] after :=
  .snoc .nil permitted stepped

end Rules

/-! ## Observers -/

section Observers

variable {τ : Type w} {step : σ → α → Except ε σ} {note : σ → α → σ → τ → τ}

/-- The machine with an observer: `note` gets the state before, the label, the state after and
what was observed until then. -/
def observed (step : σ → α → Except ε σ) (note : σ → α → σ → τ → τ) (watched : σ × τ) (label : α) :
    Except ε (σ × τ) :=
  match step watched.1 label with
  | .error failed => .error failed
  | .ok after => .ok (after, note watched.1 label after watched.2)

theorem observed_eq_ok {before after : σ × τ} {label : α} :
    observed step note before label = .ok after ↔
      step before.1 label = .ok after.1 ∧ after.2 = note before.1 label after.1 before.2 := by
  rw [observed]
  cases stepped : step before.1 label with
  | error failed => simp
  | ok next =>
      simp only [Except.ok.injEq, Prod.ext_iff]
      constructor
      · rintro ⟨rfl, same⟩
        exact ⟨rfl, same.symm⟩
      · rintro ⟨rfl, same⟩
        exact ⟨rfl, same.symm⟩

end Observers

/-! ## Sequences that may fail -/

section Perform

variable {step : σ → α → Except ε σ}

/-- Takes one label after another, up to the first that fails. -/
def perform (step : σ → α → Except ε σ) : σ → List α → Except ε σ
  | state, [] => .ok state
  | state, label :: rest =>
      match step state label with
      | .error failed => .error failed
      | .ok next => perform step next rest

/-- After a run the labels that are left are taken from where it ended. -/
theorem Run.perform_append {allowed : σ → α → Prop} {start middle : σ} {labels : List α}
    (run : Run step allowed start labels middle) :
    ∀ rest, perform step start (labels ++ rest) = perform step middle rest := by
  induction run with
  | nil => exact fun _ => rfl
  | snoc _ _ stepped ih =>
      intro rest
      rw [List.append_assoc, ih, List.singleton_append, perform, stepped]

/-- **Where a sequence fails**: at a label that fails after a run. -/
theorem perform_eq_error {failed : ε} {labels : List α} :
    ∀ {start : σ}, perform step start labels = .error failed ↔
      ∃ before label after middle, labels = before ++ label :: after ∧
        Run step (fun _ _ => True) start before middle ∧ step middle label = .error failed := by
  induction labels with
  | nil =>
      intro start
      constructor
      · exact nofun
      · rintro ⟨before, label, after, middle, split, -⟩
        cases before <;> cases split
  | cons label rest ih =>
      intro start
      constructor
      · intro fails
        rw [perform] at fails
        cases stepped : step start label with
        | error other =>
            rw [stepped] at fails
            obtain rfl := Except.error.inj fails
            exact ⟨[], label, rest, start, rfl, .nil, stepped⟩
        | ok next =>
            rw [stepped] at fails
            obtain ⟨before, last, after, middle, rfl, run, failing⟩ := ih.mp fails
            exact ⟨label :: before, last, after, middle, rfl,
              (Run.single trivial stepped).append run, failing⟩
      · rintro ⟨before, last, after, middle, split, run, failing⟩
        rw [split, run.perform_append, perform, failing]

end Perform

/-! ## Checking a concrete run -/

/-- The run of a list of labels, when every one of them is allowed and succeeds. -/
def checkedRun (step : σ → α → Except ε σ) (allowed : σ → α → Prop)
    [∀ state label, Decidable (allowed state label)] : σ → List α → Option σ
  | state, [] => some state
  | state, label :: rest =>
      if allowed state label then
        match step state label with
        | .ok next => checkedRun step allowed next rest
        | .error _ => none
      else none

/-- A list of labels that passes the check is a run. -/
theorem Run.of_checkedRun {step : σ → α → Except ε σ} {allowed : σ → α → Prop}
    [∀ state label, Decidable (allowed state label)] :
    ∀ {labels : List α} {start final : σ},
      checkedRun step allowed start labels = some final → Run step allowed start labels final
  | [], start, final, checked => by
      have same : start = final := by simpa [checkedRun] using checked
      rw [same]
      exact .nil
  | label :: rest, start, final, checked => by
      rw [checkedRun] at checked
      by_cases permitted : allowed start label
      · rw [if_pos permitted] at checked
        cases stepped : step start label with
        | error _ => simp [stepped] at checked
        | ok next =>
            rw [stepped] at checked
            exact Run.append (Run.single permitted stepped) (Run.of_checkedRun checked)
      · simp [if_neg permitted] at checked

/-- The run of a list of labels that passes the check, to the state the check ends in. -/
theorem Run.of_isSome {step : σ → α → Except ε σ} {allowed : σ → α → Prop}
    [∀ state label, Decidable (allowed state label)] {labels : List α} {start : σ}
    (checked : (checkedRun step allowed start labels).isSome) :
    Run step allowed start labels ((checkedRun step allowed start labels).get checked) :=
  Run.of_checkedRun (Option.some_get checked).symm

/-- What a computation that succeeds returns. -/
theorem eq_ok_of_isSome {result : Except ε σ} (succeeds : result.toOption.isSome) :
    result = .ok (result.toOption.get succeeds) := by
  cases result with
  | error failed => cases succeeds
  | ok value => rfl

end Jasl.Library
