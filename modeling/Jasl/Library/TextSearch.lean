import Mathlib.Tactic.Common

/-!
# Searches in a sequence

The first element that passes a test from an index on (`firstFrom`), the last one up to
an index (`lastUpTo`), and the first place where a block stands (`firstBlock`).

A stretch is `Clear` of the elements that pass a test when none of its indices is a
`Hit`. A search finds a hit with a clear stretch between it and where the search
starts, and this determines what is found (`firstFrom_eq_some`, `lastUpTo_eq_some`).
-/

set_option autoImplicit false

namespace Jasl.Library

universe u

variable {α : Type u}

/-! ## Hits and clear stretches -/

/-- The element at an index passes a test. -/
def Hit (test : α → Bool) (s : List α) (i : ℕ) : Prop := ∃ a, s[i]? = some a ∧ test a = true

/-- No element from `low` on and before `high` passes the test. -/
def Clear (test : α → Bool) (s : List α) (low high : ℕ) : Prop :=
  ∀ i, low ≤ i → i < high → ¬Hit test s i

section Stretches

variable {test : α → Bool} {s : List α} {i low middle high : ℕ}

theorem Hit.lt_length (hit : Hit test s i) : i < s.length := by
  obtain ⟨a, here, _⟩ := hit
  exact (List.getElem?_eq_some_iff.mp here).1

theorem hit_iff_of_getElem? {a : α} (here : s[i]? = some a) : Hit test s i ↔ test a = true := by
  constructor
  · rintro ⟨other, there, passes⟩
    rw [here] at there
    cases there
    exact passes
  · intro passes
    exact ⟨a, here, passes⟩

theorem hit_beq_iff [DecidableEq α] {a : α} : Hit (· == a) s i ↔ s[i]? = some a := by
  constructor
  · rintro ⟨other, here, same⟩
    rw [here, eq_of_beq same]
  · intro here
    exact ⟨a, here, beq_self_eq_true a⟩

instance (test : α → Bool) (s : List α) (i : ℕ) : Decidable (Hit test s i) :=
  match here : s[i]? with
  | none => isFalse (by
      rintro ⟨_, there, _⟩
      rw [here] at there
      cases there)
  | some _ => decidable_of_iff _ (hit_iff_of_getElem? here).symm

theorem Clear.mono (clear : Clear test s low high) {low' high' : ℕ} (low_le : low ≤ low')
    (le_high : high' ≤ high) : Clear test s low' high' :=
  fun i above below => clear i (Nat.le_trans low_le above) (Nat.lt_of_lt_of_le below le_high)

theorem Clear.append (clear : Clear test s low middle) (more : Clear test s middle high) :
    Clear test s low high := by
  intro i above below
  rcases Nat.lt_or_ge i middle with first | second
  · exact clear i above first
  · exact more i second below

theorem clear_of_le (empty : high ≤ low) : Clear test s low high := by
  intro i above below
  omega

theorem Clear.snoc (clear : Clear test s low high) (miss : ¬Hit test s high) :
    Clear test s low (high + 1) := by
  intro i above below
  rcases Nat.lt_succ_iff_lt_or_eq.mp below with before | rfl
  · exact clear i above before
  · exact miss

/-- What a weaker test does not find, a stronger one does not find either. -/
theorem Clear.of_imp {other : α → Bool} (clear : Clear test s low high)
    (stronger : ∀ a, other a = true → test a = true) : Clear other s low high := by
  rintro i above below ⟨a, here, passes⟩
  exact clear i above below ⟨a, here, stronger a passes⟩

/-- A stretch that a piece fills is clear when the piece is. -/
theorem clear_piece (before after : List α) {piece : List α} (free : ∀ a ∈ piece, test a = false) :
    Clear test (before ++ (piece ++ after)) before.length (before.length + piece.length) := by
  rintro i above below ⟨a, here, passes⟩
  rw [List.getElem?_append_right above, List.getElem?_append_left (by omega)] at here
  rw [free a (List.mem_of_getElem? here)] at passes
  cases passes

end Stretches

/-! ## Searches -/

/-- The first index from `start` on of an element that passes the test. -/
def firstFrom (test : α → Bool) (s : List α) (start : ℕ) : Option ℕ :=
  ((s.drop start).findIdx? test).map (start + ·)

/-- The last index of an element that passes the test. -/
def lastHit (test : α → Bool) : List α → Option ℕ
  | [] => none
  | a :: s =>
      match lastHit test s with
      | some i => some (i + 1)
      | none => if test a then some 0 else none

/-- The last index up to `last` of an element that passes the test. -/
def lastUpTo (test : α → Bool) (s : List α) (last : ℕ) : Option ℕ :=
  lastHit test (s.take (last + 1))

/-- The first index where a block stands. -/
def firstBlock [DecidableEq α] (block : List α) : List α → Option ℕ
  | [] => if block = [] then some 0 else none
  | a :: s => if block <+: a :: s then some 0 else (firstBlock block s).map (· + 1)

section Found

variable {test : α → Bool} {s : List α} {start last i : ℕ}

theorem firstFrom_eq_some :
    firstFrom test s start = some i ↔ start ≤ i ∧ Hit test s i ∧ Clear test s start i := by
  rw [firstFrom, Option.map_eq_some_iff]
  constructor
  · rintro ⟨offset, found, rfl⟩
    obtain ⟨inside, passes, before⟩ := List.findIdx?_eq_some_iff_getElem.mp found
    rw [List.length_drop] at inside
    rw [List.getElem_drop] at passes
    refine ⟨by omega, ⟨_, List.getElem?_eq_getElem (by omega), passes⟩, ?_⟩
    rintro j above below ⟨a, here, hit⟩
    obtain ⟨distance, rfl⟩ := Nat.exists_eq_add_of_le above
    apply before distance (by omega)
    rw [List.getElem_drop]
    obtain ⟨bound, rfl⟩ := List.getElem?_eq_some_iff.mp here
    exact hit
  · rintro ⟨above, ⟨a, here, passes⟩, clear⟩
    obtain ⟨offset, rfl⟩ := Nat.exists_eq_add_of_le above
    obtain ⟨bound, rfl⟩ := List.getElem?_eq_some_iff.mp here
    refine ⟨offset, List.findIdx?_eq_some_iff_getElem.mpr ⟨?_, ?_, ?_⟩, rfl⟩
    · rw [List.length_drop]
      omega
    · rw [List.getElem_drop]
      exact passes
    · intro j earlier hit
      rw [List.getElem_drop] at hit
      exact clear (start + j) (by omega) (by omega) ⟨_, List.getElem?_eq_getElem (by omega), hit⟩

/-- The first hit from an index on stays the first from a later one before it. -/
theorem firstFrom_later {later : ℕ} (found : firstFrom test s start = some i)
    (le : start ≤ later) (le_i : later ≤ i) : firstFrom test s later = some i := by
  obtain ⟨_, hit, clear⟩ := firstFrom_eq_some.mp found
  exact firstFrom_eq_some.mpr ⟨le_i, hit, clear.mono le (Nat.le_refl i)⟩

theorem firstFrom_eq_none : firstFrom test s start = none ↔ ∀ i, start ≤ i → ¬Hit test s i := by
  rw [firstFrom, Option.map_eq_none_iff, List.findIdx?_eq_none_iff]
  constructor
  · rintro miss i above ⟨a, here, passes⟩
    obtain ⟨offset, rfl⟩ := Nat.exists_eq_add_of_le above
    rw [← List.getElem?_drop] at here
    rw [miss a (List.mem_of_getElem? here)] at passes
    cases passes
  · intro miss a member
    obtain ⟨offset, here⟩ := List.getElem?_of_mem member
    rw [List.getElem?_drop] at here
    cases passes : test a with
    | false => rfl
    | true => exact absurd ⟨a, here, passes⟩ (miss (start + offset) (Nat.le_add_right _ _))

/-- A search that has a hit ahead finds one. -/
theorem exists_firstFrom (above : start ≤ i) (hit : Hit test s i) :
    ∃ first, firstFrom test s start = some first ∧ first ≤ i := by
  cases found : firstFrom test s start with
  | none => exact absurd hit (firstFrom_eq_none.mp found i above)
  | some first =>
      refine ⟨first, rfl, ?_⟩
      by_contra later
      exact (firstFrom_eq_some.mp found).2.2 i above (by omega) hit

theorem hit_cons_zero {a : α} : Hit test (a :: s) 0 ↔ test a = true := hit_iff_of_getElem? rfl

theorem hit_cons_succ {a : α} : Hit test (a :: s) (i + 1) ↔ Hit test s i := Iff.rfl

theorem lastHit_eq_none : lastHit test s = none ↔ ∀ i, ¬Hit test s i := by
  induction s with
  | nil => simp [lastHit, Hit]
  | cons a s ih =>
      rw [lastHit]
      cases rest : lastHit test s with
      | some found =>
          constructor
          · intro missing
            cases missing
          · intro miss
            rw [ih.mpr fun i => miss (i + 1)] at rest
            cases rest
      | none =>
          have behind := ih.mp rest
          constructor
          · intro missing i
            cases i with
            | zero =>
                intro hit
                rw [if_pos (hit_cons_zero.mp hit)] at missing
                cases missing
            | succ i => exact behind i
          · intro miss
            exact if_neg (mt hit_cons_zero.mpr (miss 0))

theorem lastHit_eq_some :
    lastHit test s = some i ↔ Hit test s i ∧ ∀ j, i < j → ¬Hit test s j := by
  induction s generalizing i with
  | nil => simp [lastHit, Hit]
  | cons a s ih =>
      rw [lastHit]
      cases rest : lastHit test s with
      | some found =>
          obtain ⟨hit, behind⟩ := ih.mp rest
          constructor
          · intro same
            obtain rfl : found + 1 = i := Option.some.inj same
            refine ⟨hit_cons_succ.mpr hit, fun j later => ?_⟩
            obtain ⟨j, rfl⟩ := Nat.exists_eq_succ_of_ne_zero (by omega : j ≠ 0)
            exact behind j (by omega)
          · rintro ⟨hitI, behindI⟩
            have not_before : ¬i < found + 1 := fun before => behindI (found + 1) before hit
            obtain ⟨j, rfl⟩ := Nat.exists_eq_succ_of_ne_zero (by omega : i ≠ 0)
            have not_behind : ¬found < j := fun later => behind j later hitI
            obtain rfl : found = j := by omega
            rfl
      | none =>
          have behind := lastHit_eq_none.mp rest
          change (if test a = true then some 0 else none) = some i ↔ _
          cases i with
          | zero =>
              constructor
              · intro same
                by_cases passes : test a = true
                · refine ⟨hit_cons_zero.mpr passes, fun j later => ?_⟩
                  obtain ⟨j, rfl⟩ := Nat.exists_eq_succ_of_ne_zero (by omega : j ≠ 0)
                  exact behind j
                · rw [if_neg passes] at same
                  cases same
              · rintro ⟨hit, _⟩
                exact if_pos (hit_cons_zero.mp hit)
          | succ j =>
              constructor
              · intro same
                split at same <;> cases same
              · rintro ⟨hit, _⟩
                exact absurd hit (behind j)

theorem hit_take : Hit test (s.take (last + 1)) i ↔ i ≤ last ∧ Hit test s i := by
  simp only [Hit, List.getElem?_take]
  by_cases inside : i < last + 1
  · simp [inside, Nat.le_of_lt_succ inside]
  · simp [inside, show ¬i ≤ last by omega]

theorem lastUpTo_eq_some :
    lastUpTo test s last = some i ↔ i ≤ last ∧ Hit test s i ∧ Clear test s (i + 1) (last + 1) := by
  rw [lastUpTo, lastHit_eq_some, hit_take]
  constructor
  · rintro ⟨⟨below, hit⟩, behind⟩
    exact ⟨below, hit, fun j above inside there =>
      behind j above (hit_take.mpr ⟨Nat.le_of_lt_succ inside, there⟩)⟩
  · rintro ⟨below, hit, clear⟩
    refine ⟨⟨below, hit⟩, fun j above there => ?_⟩
    obtain ⟨inside, hitJ⟩ := hit_take.mp there
    exact clear j above (Nat.lt_succ_of_le inside) hitJ

theorem lastUpTo_eq_none : lastUpTo test s last = none ↔ Clear test s 0 (last + 1) := by
  rw [lastUpTo, lastHit_eq_none]
  constructor
  · intro miss i _ inside hit
    exact miss i (hit_take.mpr ⟨Nat.le_of_lt_succ inside, hit⟩)
  · intro clear i hit
    obtain ⟨inside, there⟩ := hit_take.mp hit
    exact clear i (Nat.zero_le i) (Nat.lt_succ_of_le inside) there

theorem firstBlock_eq_some [DecidableEq α] {block : List α} (nonempty : block ≠ [])
    (here : block <+: s.drop i) (before : ∀ j, j < i → ¬block <+: s.drop j) :
    firstBlock block s = some i := by
  induction s generalizing i with
  | nil =>
      rw [List.drop_nil, List.prefix_nil] at here
      exact absurd here nonempty
  | cons a s ih =>
      cases i with
      | zero => exact if_pos here
      | succ i =>
          have later := ih here fun j below => before (j + 1) (Nat.succ_lt_succ below)
          have not_here : ¬block <+: a :: s := before 0 (Nat.succ_pos i)
          rw [firstBlock, if_neg not_here, later]
          rfl

theorem exists_firstBlock [DecidableEq α] {block : List α} (here : block <+: s.drop i) :
    ∃ first, firstBlock block s = some first ∧ first ≤ i := by
  induction s generalizing i with
  | nil =>
      rw [List.drop_nil, List.prefix_nil] at here
      exact ⟨0, if_pos here, Nat.zero_le i⟩
  | cons a s ih =>
      by_cases atStart : block <+: a :: s
      · exact ⟨0, if_pos atStart, Nat.zero_le i⟩
      · cases i with
        | zero => exact absurd here atStart
        | succ i =>
            obtain ⟨first, found, first_le⟩ := ih here
            refine ⟨first + 1, ?_, Nat.succ_le_succ first_le⟩
            rw [firstBlock, if_neg atStart, found]
            rfl

end Found

end Jasl.Library
