import Mathlib.Tactic.Common

/-!
# Effects of code that may throw

Code over a state that may throw (`EStateM`). An effect says what may have happened to
the state between two times, so it holds when nothing has, and two effects one after
the other are one (`Effect`). Code is within an effect when its run is, whether it
returns or throws (`Effect.Bounds`), and what is put together from code within the
effect is within it.

An exception that leaves a constructor destroys what was made before: the cleanup
runs, and the exception goes on (`unwinding`).
-/

set_option autoImplicit false

namespace Jasl.Library

universe u

/-- What may have happened to a state between two times. -/
structure Effect (σ : Type u) where
  holds : σ → σ → Prop
  refl : ∀ state, holds state state
  trans : ∀ {first second third}, holds first second → holds second third → holds first third

variable {ε σ α β : Type u}

/-- The state that a run leaves. -/
def leaves : EStateM.Result ε σ α → σ
  | .ok _ state => state
  | .error _ state => state

/-- Runs code, and the cleanup when it throws. -/
def unwinding (body : EStateM ε σ α) (cleanup : σ → σ) : EStateM ε σ α := fun state =>
  match body state with
  | .ok value after => .ok value after
  | .error thrown after => .error thrown (cleanup after)

theorem unwinding_ok {body : EStateM ε σ α} {state after : σ} {value : α}
    (returns : body.run state = .ok value after) (cleanup : σ → σ) :
    (unwinding body cleanup).run state = .ok value after := by
  change body state = _ at returns
  change unwinding body cleanup state = _
  rw [unwinding, returns]

theorem unwinding_error {body : EStateM ε σ α} {state after : σ} {thrown : ε}
    (throws : body.run state = .error thrown after) (cleanup : σ → σ) :
    (unwinding body cleanup).run state = .error thrown (cleanup after) := by
  change body state = _ at throws
  change unwinding body cleanup state = _
  rw [unwinding, throws]

namespace Effect

/-- Code does no more than the effect, whether it returns or throws. -/
def Bounds (effect : Effect σ) (code : EStateM ε σ α) : Prop :=
  ∀ state, effect.holds state (leaves (code.run state))

namespace Bounds

variable {effect : Effect σ}

theorem of_pure (value : α) : effect.Bounds (pure value : EStateM ε σ α) := effect.refl

theorem of_get : effect.Bounds (get : EStateM ε σ σ) := effect.refl

theorem of_throw (thrown : ε) : effect.Bounds (throw thrown : EStateM ε σ α) :=
  effect.refl

theorem of_modify {change : σ → σ} (changes : ∀ state, effect.holds state (change state)) :
    effect.Bounds (modify change : EStateM ε σ PUnit) := changes

/-- **One effect after the other is the effect.** -/
theorem bind {code : EStateM ε σ α} {rest : α → EStateM ε σ β} (first : effect.Bounds code)
    (second : ∀ value, effect.Bounds (rest value)) : effect.Bounds (code >>= rest) := by
  intro state
  have before := first state
  rw [EStateM.run_bind]
  cases ran : code.run state with
  | ok value after =>
      rw [ran] at before
      exact effect.trans before (second value after)
  | error thrown after =>
      rw [ran] at before
      exact before

theorem tryCatch {body : EStateM ε σ α} {handle : ε → EStateM ε σ α} (first : effect.Bounds body)
    (second : ∀ thrown, effect.Bounds (handle thrown)) :
    effect.Bounds (tryCatch body handle) := by
  intro state
  have before := first state
  change effect.holds state (leaves (EStateM.tryCatch body handle state))
  rw [EStateM.tryCatch]
  change effect.holds state (leaves (body state)) at before
  cases ran : body state with
  | ok value after =>
      rw [ran] at before
      exact before
  | error thrown after =>
      rw [ran] at before
      exact effect.trans before (second thrown after)

theorem ite {p : Prop} [Decidable p] {code other : EStateM ε σ α}
    (positive : p → effect.Bounds code) (negative : ¬ p → effect.Bounds other) :
    effect.Bounds (if p then code else other) := by
  split
  · rename_i holds
    exact positive holds
  · rename_i fails
    exact negative fails

end Bounds

end Effect

end Jasl.Library
