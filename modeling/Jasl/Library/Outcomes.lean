import Mathlib.Tactic.Common

/-!
# Outcomes of code that may throw

A piece of code that changes a state ends in one of three ways: it returns, it
throws an exception that a handler may catch, or it is aborted, which nothing
catches. The state is there in all three. `andThen` runs a second piece after one
that returned, and `rescue` runs a handler after one that threw.

What both pieces keep, the combination keeps (`andThen_keeps`, `rescue_keeps`). What
is observed on the way is `noted` after each piece by the way it ends. An exception
leaves a handled piece exactly when the handler throws one itself (`rescue_eq_threw`).
-/

set_option autoImplicit false

namespace Jasl.Library

universe u e

/-- How code ends. -/
inductive Exit (ε : Type e) where
  | returned
  | threw
  | aborted (failed : ε)
deriving DecidableEq, Repr

/-- The state code leaves, and how it ends. -/
abbrev Outcome (σ : Type u) (ε : Type e) := σ × Exit ε

namespace Outcome

variable {σ : Type u} {ε : Type e}

/-- The second piece runs when the first returns. -/
def andThen (first : Outcome σ ε) (next : σ → Outcome σ ε) : Outcome σ ε :=
  match first with
  | (state, .returned) => next state
  | other => other

/-- The handler runs when the first piece throws. -/
def rescue (first : Outcome σ ε) (handler : σ → Outcome σ ε) : Outcome σ ε :=
  match first with
  | (state, .threw) => handler state
  | other => other

/-- Both ways of going on after code that may throw. -/
def resume (first : Outcome σ ε) (next handler : σ → Outcome σ ε) : Outcome σ ε :=
  match first with
  | (state, .returned) => next state
  | (state, .threw) => handler state
  | other => other

variable {first : Outcome σ ε} {next handler : σ → Outcome σ ε} {holds : σ → Prop}

theorem andThen_keeps (kept : holds first.1)
    (after : ∀ state, first = (state, .returned) → holds state → holds (next state).1) :
    holds (andThen first next).1 := by
  obtain ⟨state, exit⟩ := first
  cases exit with
  | returned => exact after state rfl kept
  | threw => exact kept
  | aborted _ => exact kept

theorem rescue_keeps (kept : holds first.1)
    (after : ∀ state, first = (state, .threw) → holds state → holds (handler state).1) :
    holds (rescue first handler).1 := by
  obtain ⟨state, exit⟩ := first
  cases exit with
  | returned => exact kept
  | threw => exact after state rfl kept
  | aborted _ => exact kept

theorem resume_keeps (kept : holds first.1) (after : ∀ state, holds state → holds (next state).1)
    (thrown : ∀ state, holds state → holds (handler state).1) :
    holds (resume first next handler).1 := by
  obtain ⟨state, exit⟩ := first
  cases exit with
  | returned => exact after state kept
  | threw => exact thrown state kept
  | aborted _ => exact kept

/-- What is noted after code that may throw, by the way it ends; after an abort nothing is. -/
def noted {τ : Type*} (first : Outcome σ ε) (next handler : σ → List τ) : List τ :=
  match first with
  | (state, .returned) => next state
  | (state, .threw) => handler state
  | (_, .aborted _) => []

/-- What every continuation notes in a state that the first piece keeps, is noted. -/
theorem noted_forall {τ : Type*} {next handler : σ → List τ} {good : τ → Prop}
    (kept : holds first.1) (after : ∀ state, holds state → ∀ value ∈ next state, good value)
    (thrown : ∀ state, holds state → ∀ value ∈ handler state, good value) :
    ∀ value ∈ noted first next handler, good value := by
  obtain ⟨state, exit⟩ := first
  cases exit with
  | returned => exact after state kept
  | threw => exact thrown state kept
  | aborted _ => exact fun _ member => absurd member List.not_mem_nil

/-- An exception leaves a handled piece exactly when the handler throws one. -/
theorem rescue_eq_threw :
    (rescue first handler).2 = .threw ↔ ∃ state, first = (state, .threw) ∧
      (handler state).2 = .threw := by
  obtain ⟨state, exit⟩ := first
  cases exit with
  | returned =>
      constructor
      · intro threw
        cases threw
      · intro ⟨_, equal, _⟩
        cases equal
  | threw =>
      constructor
      · intro threw
        exact ⟨state, rfl, threw⟩
      · intro ⟨_, equal, threw⟩
        cases equal
        exact threw
  | aborted _ =>
      constructor
      · intro threw
        cases threw
      · intro ⟨_, equal, _⟩
        cases equal

end Outcome

end Jasl.Library
