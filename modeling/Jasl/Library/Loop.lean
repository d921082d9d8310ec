import Mathlib.Tactic.Common

/-!
# Loops that need not end

The body of a loop goes on with a new state or ends with a result. `iterate` runs it a
bounded number of times; a loop `Ends` when some bound is large enough, and then with
one result (`Ends.unique`).

What the states of a loop that ends and its result have in common is shown from the last
round back to the first (`Ends.induction`), and what holds in every round from the first
one on (`Visits`). A loop that comes to states it never leaves does not end
(`not_ends_of_trap`).

A loop over the indices of an array that assigns each place ends with the array of what it
assigns (`foldlM_set`).
-/

set_option autoImplicit false

namespace Jasl.Library

universe u v

variable {σ : Type u} {ρ : Type v}

/-- At most `fuel` rounds of a loop. -/
def iterate (body : σ → σ ⊕ ρ) : ℕ → σ → Option ρ
  | 0, _ => none
  | fuel + 1, state =>
      match body state with
      | .inl next => iterate body fuel next
      | .inr result => some result

/-- The loop ends with this result. -/
def Ends (body : σ → σ ⊕ ρ) (state : σ) (result : ρ) : Prop :=
  ∃ fuel, iterate body fuel state = some result

/-- The states in which a round of the loop begins. -/
inductive Visits (body : σ → σ ⊕ ρ) (start : σ) : σ → Prop where
  | start : Visits body start start
  | round {state next : σ} (visited : Visits body start state) (again : body state = .inl next) :
      Visits body start next

section Rules

variable {body : σ → σ ⊕ ρ} {state next : σ} {result other : ρ}

theorem ends_of_inl (again : body state = .inl next) :
    Ends body state result ↔ Ends body next result := by
  constructor
  · rintro ⟨fuel, ended⟩
    cases fuel with
    | zero => cases ended
    | succ fuel =>
        rw [iterate, again] at ended
        exact ⟨fuel, ended⟩
  · rintro ⟨fuel, ended⟩
    refine ⟨fuel + 1, ?_⟩
    rw [iterate, again]
    exact ended

theorem ends_of_inr (done : body state = .inr result) :
    Ends body state other ↔ result = other := by
  constructor
  · rintro ⟨fuel, ended⟩
    cases fuel with
    | zero => cases ended
    | succ fuel =>
        rw [iterate, done] at ended
        exact Option.some.inj ended
  · rintro rfl
    refine ⟨1, ?_⟩
    rw [iterate, done]

/-- A loop that goes through the images of the states of another one. -/
theorem iterate_map {τ : Type*} {π : Type*} {other : τ → τ ⊕ π} {f : σ → τ} {g : ρ → π}
    (same : ∀ state, other (f state) = (body state).map f g) (fuel : ℕ) (state : σ) :
    iterate other fuel (f state) = (iterate body fuel state).map g := by
  induction fuel generalizing state with
  | zero => rfl
  | succ fuel ih =>
      rw [iterate, iterate, same]
      cases body state with
      | inl next => exact ih next
      | inr result => rfl

/-- **From the last round back to the first.** -/
theorem Ends.induction {motive : σ → Prop} (ended : Ends body state result)
    (last : ∀ state, body state = .inr result → motive state)
    (round : ∀ state next, body state = .inl next → Ends body next result → motive next →
      motive state) : motive state := by
  obtain ⟨fuel, ended⟩ := ended
  induction fuel generalizing state with
  | zero => cases ended
  | succ fuel ih =>
      rw [iterate] at ended
      cases turn : body state with
      | inl next =>
          rw [turn] at ended
          exact round state next turn ⟨fuel, ended⟩ (ih ended)
      | inr found =>
          rw [turn] at ended
          cases ended
          exact last state turn

theorem Ends.unique (ended : Ends body state result) (again : Ends body state other) :
    result = other := by
  refine ended.induction (motive := fun state => Ends body state other → result = other)
    ?_ ?_ again
  · intro state done again
    exact (ends_of_inr done).mp again
  · intro state next turn _ ih again
    exact ih ((ends_of_inl turn).mp again)

/-- A loop that ends does so in the last round. -/
theorem Ends.exists_last {start : σ} (ended : Ends body state result)
    (visited : Visits body start state) :
    ∃ last, Visits body start last ∧ body last = .inr result := by
  refine ended.induction (motive := fun state => Visits body start state →
    ∃ last, Visits body start last ∧ body last = .inr result) ?_ ?_ visited
  · intro state done visited
    exact ⟨state, visited, done⟩
  · intro state next again _ ih visited
    exact ih (visited.round again)

/-- A loop does not end from states it never leaves. -/
theorem not_ends_of_trap (holds : σ → Prop)
    (round : ∀ state, holds state → ∃ next, body state = .inl next ∧ holds next)
    (initial : holds state) : ¬Ends body state result := by
  intro ended
  refine ended.induction (motive := fun state => holds state → False) ?_ ?_ initial
  · intro state done kept
    obtain ⟨next, again, _⟩ := round state kept
    rw [done] at again
    cases again
  · intro state next turn _ ih kept
    obtain ⟨other, again, keeps⟩ := round state kept
    rw [turn] at again
    cases again
    exact ih keeps

end Rules

/-! ## Filling an array -/

section Filling

variable {ε : Type u} {α β : Type v} {item : ℕ → Except ε β} {value : ℕ → β} {entry : β → α}
  {n : ℕ} {output : List α}

/-- The first rounds fill the first places. -/
theorem foldlM_set_first (items : ∀ i < n, item i = .ok (value i)) (sized : output.length = n)
    {rounds : ℕ} (within : rounds ≤ n) :
    (List.range rounds).foldlM (fun output i => do return output.set i (entry (← item i))) output =
      .ok (((List.range rounds).map fun i => entry (value i)) ++ output.drop rounds) := by
  induction rounds with
  | zero => rfl
  | succ rounds ih =>
      have inside : rounds < output.length := by omega
      have place : ((List.range rounds).map fun i => entry (value i)).length = rounds := by simp
      rw [List.range_succ, List.foldlM_append, ih (by omega), List.map_append]
      simp only [bind, Except.bind, List.foldlM_cons, List.foldlM_nil, pure, Except.pure,
        items rounds (Nat.lt_of_lt_of_le rounds.lt_add_one within)]
      rw [List.set_append_right _ _ (Nat.le_of_eq place), place, Nat.sub_self,
        List.drop_eq_getElem_cons inside, List.set_cons_zero, List.append_assoc]
      rfl

/-- A loop over the indices of an array fills it. -/
theorem foldlM_set (items : ∀ i < n, item i = .ok (value i)) (sized : output.length = n) :
    (List.range n).foldlM (fun output i => do return output.set i (entry (← item i))) output =
      .ok ((List.range n).map fun i => entry (value i)) := by
  rw [foldlM_set_first items sized (Nat.le_refl n), ← sized, List.drop_length, List.append_nil]

end Filling

end Jasl.Library
