import Jasl.Library.Runs

/-!
# Machines in lockstep

Two computations that may fail are alike if they fail with the same error or succeed with
related results. Sequences of such computations are alike (`Alike.bind`), and if each step
of a machine is like the step of another, its runs are runs of the other, between related
states (`Run.lockstep`).
-/

set_option autoImplicit false

namespace Jasl.Library

universe u v w e

variable {σ τ : Type u} {α : Type v} {β : Type w} {ε : Type e}

/-- A sequence that succeeds has a first part that does. -/
theorem exists_of_bind {first : Except ε σ} {next : σ → Except ε τ} {result : τ}
    (succeeds : first >>= next = .ok result) :
    ∃ middle, first = .ok middle ∧ next middle = .ok result := by
  cases first with
  | error failed => cases succeeds
  | ok middle => exact ⟨middle, rfl, succeeds⟩

/-- Both fail alike, or both succeed with related results. -/
inductive Alike (rel : σ → τ → Prop) : Except ε σ → Except ε τ → Prop where
  | ok {left : σ} {right : τ} (related : rel left right) : Alike rel (.ok left) (.ok right)
  | error (failed : ε) : Alike rel (.error failed) (.error failed)

namespace Alike

variable {rel : σ → τ → Prop}

theorem exists_right {left : σ} {second : Except ε τ} (alike : Alike rel (.ok left) second) :
    ∃ right, second = .ok right ∧ rel left right := by
  cases alike with
  | ok related => exact ⟨_, rfl, related⟩

theorem exists_left {first : Except ε σ} {right : τ} (alike : Alike rel first (.ok right)) :
    ∃ left, first = .ok left ∧ rel left right := by
  cases alike with
  | ok related => exact ⟨_, rfl, related⟩

/-- Alike computations go on alike. -/
theorem bind {σ' τ' : Type u} {rel' : σ' → τ' → Prop} {first : Except ε σ}
    {second : Except ε τ} {f : σ → Except ε σ'} {g : τ → Except ε τ'}
    (alike : Alike rel first second)
    (next : ∀ left right, rel left right → Alike rel' (f left) (g right)) :
    Alike rel' (first >>= f) (second >>= g) := by
  cases alike with
  | ok related => exact next _ _ related
  | error failed => exact .error failed

/-- After the same computation two others go on alike. -/
theorem bind_same {ρ : Type u} {first : Except ε ρ} {f : ρ → Except ε σ} {g : ρ → Except ε τ}
    (next : ∀ result, Alike rel (f result) (g result)) :
    Alike rel (first >>= f) (first >>= g) := by
  cases first with
  | ok result => exact next result
  | error failed => exact .error failed

end Alike

/-- **The runs of a machine whose steps are like those of another.** -/
theorem Run.lockstep {step : σ → α → Except ε σ} {allowed : σ → α → Prop}
    {other : τ → β → Except ε τ} {rel : σ → τ → Prop} {label : α → β}
    (alike : ∀ left right a, rel left right → allowed left a →
      Alike rel (step left a) (other right (label a)))
    {left final : σ} {right : τ} {labels : List α} (related : rel left right)
    (run : Run step allowed left labels final) :
    ∃ end_, Run other (fun _ _ => True) right (labels.map label) end_ ∧ rel final end_ := by
  induction run with
  | nil => exact ⟨right, .nil, related⟩
  | snoc _ permitted stepped ih =>
      obtain ⟨middle, before, held⟩ := ih
      have next := alike _ _ _ held permitted
      rw [stepped] at next
      obtain ⟨end_, reached, holds⟩ := next.exists_right
      rw [List.map_append]
      exact ⟨end_, .snoc before trivial reached, holds⟩

end Jasl.Library
