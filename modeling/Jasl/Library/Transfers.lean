import Mathlib.Algebra.GroupWithZero.Nat
import Mathlib.Tactic.Common

/-!
# Transfers in pieces

A transfer of `total` units is made by calls that ask for all that is left and move as much
of it as they like. It goes on after a piece that does not complete it and after a failure
that is retried, and ends when it is filled, when nothing is moved, or with another
failure (`Ending`). A script holds the replies to the calls, and a transfer whose script
ends before is still open.

Each call asks for what the ones before it have left (`transfer_calls`). The replies tell
how the transfer ends (`ending_eq_nothing`, `ending_eq_failed`, `ending_eq_none`), it is
complete if and only if it is filled (`moved_eq_total`), and retried failures leave no
trace (`transfer_filter`).
-/

set_option autoImplicit false

namespace Jasl.Library

universe u

/-- The reply to a call: a piece is moved, or the call fails. -/
inductive Reply (π : Type u) where
  | moved (piece : π)
  | failed (errno : ℕ)
deriving DecidableEq, Repr

/-- A call that asks for `count` units from `offset` on, with the reply to it. -/
structure Request (π : Type u) where
  offset : ℕ
  count : ℕ
  reply : Reply π
deriving DecidableEq, Repr

/-- How a transfer ends. -/
inductive Ending where
  | filled
  | nothing
  | failed (errno : ℕ)
deriving DecidableEq, Repr

/-- The calls of a transfer, and how it ends, if it does. -/
structure Transfer (π : Type u) where
  calls : List (Request π)
  ending : Option Ending

variable {π : Type u}

/-- The piece that a reply moves. -/
def Reply.piece : Reply π → Option π
  | .moved piece => some piece
  | .failed _ => none

/-- The pieces that calls move, in order. -/
def pieces (calls : List (Request π)) : List π := calls.filterMap fun call => call.reply.piece

section Transfer

variable (size : π → ℕ) (retried : ℕ → Bool)

/-- How many units a reply moves. -/
def Reply.units : Reply π → ℕ
  | .moved piece => size piece
  | .failed _ => 0

/-- How many units calls move. -/
def movedBy (calls : List (Request π)) : ℕ := (calls.map fun call => call.reply.units size).sum

/-- A call comes first. -/
def Transfer.after (call : Request π) (rest : Transfer π) : Transfer π :=
  ⟨call :: rest.calls, rest.ending⟩

/-- The transfer from an offset on. -/
def transfer (total : ℕ) : ℕ → List (Reply π) → Transfer π
  | _, [] => ⟨[], none⟩
  | offset, .failed errno :: script =>
      if retried errno then
        (transfer total offset script).after ⟨offset, total - offset, .failed errno⟩
      else ⟨[⟨offset, total - offset, .failed errno⟩], some (.failed errno)⟩
  | offset, .moved piece :: script =>
      if size piece = 0 then ⟨[⟨offset, total - offset, .moved piece⟩], some .nothing⟩
      else if offset + size piece < total then
        (transfer total (offset + size piece) script).after
          ⟨offset, total - offset, .moved piece⟩
      else ⟨[⟨offset, total - offset, .moved piece⟩], some .filled⟩

/-- A reply after which the transfer goes on, if it is not filled. -/
def Reply.continues : Reply π → Bool
  | .moved piece => size piece ≠ 0
  | .failed errno => retried errno

/-- A reply that moves no more than is asked for. -/
def Request.Fits (call : Request π) : Prop := call.reply.units size ≤ call.count

instance (call : Request π) : Decidable (call.Fits size) := inferInstanceAs (Decidable (_ ≤ _))

/-- Each call asks for what the ones before it have left, from an offset on. -/
def AsksForRest (total : ℕ) : ℕ → List (Request π) → Prop
  | _, [] => True
  | offset, call :: rest =>
      call.offset = offset ∧ call.count = total - offset ∧ offset < total ∧
        AsksForRest total (offset + call.reply.units size) rest

end Transfer

section Rules

variable {size : π → ℕ} {retried : ℕ → Bool} {total offset : ℕ} {script : List (Reply π)}

@[simp] theorem movedBy_nil : movedBy size ([] : List (Request π)) = 0 := rfl

@[simp] theorem movedBy_cons (call : Request π) (calls : List (Request π)) :
    movedBy size (call :: calls) = call.reply.units size + movedBy size calls := rfl

@[simp] theorem units_moved (piece : π) : (Reply.moved piece).units size = size piece := rfl

@[simp] theorem units_failed (errno : ℕ) : (Reply.failed errno : Reply π).units size = 0 := rfl

/-- What is moved are the pieces. -/
theorem movedBy_eq_pieces (size : π → ℕ) (calls : List (Request π)) :
    movedBy size calls = ((pieces calls).map size).sum := by
  induction calls with
  | nil => rfl
  | cons call calls ih =>
      obtain ⟨offset, count, piece | errno⟩ := call
      · exact congrArg (size piece + ·) ih
      · exact (Nat.zero_add _).trans ih

/-- **Each call asks for what is left.** -/
theorem transfer_calls (open_ : offset < total) :
    AsksForRest size total offset (transfer size retried total offset script).calls := by
  fun_induction transfer size retried total offset script with
  | case1 => trivial
  | case2 offset errno script retry ih => exact ⟨rfl, rfl, open_, ih open_⟩
  | case3 => exact ⟨rfl, rfl, open_, trivial⟩
  | case4 => exact ⟨rfl, rfl, open_, trivial⟩
  | case5 offset piece script some_ less ih => exact ⟨rfl, rfl, open_, ih less⟩
  | case6 => exact ⟨rfl, rfl, open_, trivial⟩

/-- So a call in the middle does, and something is left. -/
theorem AsksForRest.middle {before rest : List (Request π)} {call : Request π}
    (asks : AsksForRest size total offset (before ++ call :: rest)) :
    call.offset = offset + movedBy size before ∧ call.count = total - call.offset ∧
      0 < call.count := by
  induction before generalizing offset with
  | nil =>
      obtain ⟨begins, count, open_, _⟩ := asks
      refine ⟨begins, by rw [count, begins], by omega⟩
  | cons first before ih =>
      obtain ⟨_, _, _, others⟩ := asks
      obtain ⟨begins, count, positive⟩ := ih others
      refine ⟨?_, count, positive⟩
      rw [begins, Nat.add_assoc, movedBy_cons]

theorem eq_nil_of_singleton {only call : Request π} {before rest : List (Request π)}
    (same : [only] = before ++ call :: rest) : rest = [] := by
  cases before with
  | nil => exact (List.cons.inj same).2.symm
  | cons first before => simp at same

/-- A reply that is followed by another call lets the transfer go on. -/
theorem continues_of_more {before rest : List (Request π)} {call : Request π}
    (made : (transfer size retried total offset script).calls = before ++ call :: rest)
    (more : rest ≠ []) : call.reply.continues size retried = true := by
  fun_induction transfer size retried total offset script generalizing before with
  | case1 => simp at made
  | case2 offset errno script retry ih =>
      cases before with
      | nil =>
          obtain ⟨rfl, -⟩ := List.cons.inj made
          exact retry
      | cons first before => exact ih (List.cons.inj made).2
  | case3 => exact absurd (eq_nil_of_singleton made) more
  | case4 => exact absurd (eq_nil_of_singleton made) more
  | case5 offset piece script some_ less ih =>
      cases before with
      | nil =>
          obtain ⟨rfl, -⟩ := List.cons.inj made
          exact decide_eq_true some_
      | cons first before => exact ih (List.cons.inj made).2
  | case6 => exact absurd (eq_nil_of_singleton made) more

/-- The calls take the replies of the script in order, all of them while the transfer is open. -/
theorem replies_in_order :
    (transfer size retried total offset script).calls.map Request.reply <+: script ∧
      ((transfer size retried total offset script).ending = none →
        (transfer size retried total offset script).calls.map Request.reply = script) := by
  fun_induction transfer size retried total offset script with
  | case1 => exact ⟨List.nil_prefix, fun _ => rfl⟩
  | case2 offset errno script retry ih =>
      refine ⟨(List.prefix_cons_inj _).mpr ih.1, fun still => ?_⟩
      exact congrArg (Reply.failed errno :: ·) (ih.2 still)
  | case3 offset errno script fatal =>
      exact ⟨(List.prefix_cons_inj _).mpr List.nil_prefix, fun still => by cases still⟩
  | case4 offset piece script none =>
      exact ⟨(List.prefix_cons_inj _).mpr List.nil_prefix, fun still => by cases still⟩
  | case5 offset piece script some_ less ih =>
      refine ⟨(List.prefix_cons_inj _).mpr ih.1, fun still => ?_⟩
      exact congrArg (Reply.moved piece :: ·) (ih.2 still)
  | case6 offset piece script some_ filled =>
      exact ⟨(List.prefix_cons_inj _).mpr List.nil_prefix, fun still => by cases still⟩

theorem AsksForRest.left {before rest : List (Request π)}
    (asks : AsksForRest size total offset (before ++ rest)) :
    AsksForRest size total offset before := by
  induction before generalizing offset with
  | nil => trivial
  | cons first before ih =>
      obtain ⟨begins, count, open_, others⟩ := asks
      exact ⟨begins, count, open_, ih others⟩

/-- A transfer of what the calls ask for goes no further than its end. -/
theorem AsksForRest.moved_le {calls : List (Request π)} (asks : AsksForRest size total offset calls)
    (fits : ∀ call ∈ calls, call.Fits size) (within : offset ≤ total) :
    offset + movedBy size calls ≤ total := by
  induction calls generalizing offset with
  | nil => exact within
  | cons call calls ih =>
      obtain ⟨begins, count, _, rest⟩ := asks
      have moves : call.reply.units size ≤ call.count := fits call List.mem_cons_self
      have others := ih rest (fun call made => fits call (List.mem_cons_of_mem _ made)) (by omega)
      rw [movedBy_cons]
      omega

/-! ## The end -/

/-- A transfer ends where nothing is moved. -/
theorem ending_eq_nothing : (transfer size retried total offset script).ending = some .nothing ↔
    ∃ call ∈ (transfer size retried total offset script).calls,
      ∃ piece, call.reply = .moved piece ∧ size piece = 0 := by
  fun_induction transfer size retried total offset script with
  | case1 => simp
  | case2 offset errno script retry ih => simpa [Transfer.after] using ih
  | case3 => simp
  | case4 offset piece script none => simp [none]
  | case5 offset piece script some_ less ih => simpa [Transfer.after, some_] using ih
  | case6 offset piece script some_ filled => simp [some_]

/-- It ends with a failure that is not retried. -/
theorem ending_eq_failed {errno : ℕ} :
    (transfer size retried total offset script).ending = some (.failed errno) ↔
      ∃ call ∈ (transfer size retried total offset script).calls,
        call.reply = .failed errno ∧ retried errno = false := by
  fun_induction transfer size retried total offset script with
  | case1 => simp
  | case2 offset other script retry ih =>
      simp only [Transfer.after, List.mem_cons, exists_eq_or_imp, ih]
      refine (or_iff_right ?_).symm
      rintro ⟨same, fatal⟩
      cases same
      rw [retry] at fatal
      cases fatal
  | case3 offset other script fatal =>
      simp only [List.mem_singleton, exists_eq_left, Option.some.injEq, Ending.failed.injEq,
        Reply.failed.injEq]
      constructor
      · rintro rfl
        exact ⟨rfl, eq_false_of_ne_true fatal⟩
      · exact And.left
  | case4 offset piece script none => simp
  | case5 offset piece script some_ less ih => simpa [Transfer.after] using ih
  | case6 offset piece script some_ filled => simp

/-- A reply that ends a transfer before it is filled. -/
theorem exists_not_continues :
    (∃ call ∈ (transfer size retried total offset script).calls,
        call.reply.continues size retried = false) ↔
      ∃ ending, (transfer size retried total offset script).ending = some ending ∧
        ending ≠ .filled := by
  constructor
  · rintro ⟨call, made, stops⟩
    cases reply : call.reply with
    | moved piece =>
        rw [reply, Reply.continues, decide_eq_false_iff_not, not_not] at stops
        exact ⟨.nothing, ending_eq_nothing.mpr ⟨call, made, piece, reply, stops⟩, by simp⟩
    | failed errno =>
        rw [reply, Reply.continues] at stops
        exact ⟨.failed errno, ending_eq_failed.mpr ⟨call, made, reply, stops⟩, by simp⟩
  · rintro ⟨ending, ended, other⟩
    cases ending with
    | filled => exact absurd rfl other
    | nothing =>
        obtain ⟨call, made, piece, reply, none⟩ := ending_eq_nothing.mp ended
        refine ⟨call, made, ?_⟩
        rw [reply, Reply.continues, decide_eq_false_iff_not, not_not]
        exact none
    | failed errno =>
        obtain ⟨call, made, reply, fatal⟩ := ending_eq_failed.mp ended
        refine ⟨call, made, ?_⟩
        rw [reply, Reply.continues]
        exact fatal

/-- A transfer that ends is filled when no reply stops it. -/
theorem filled_iff {ending : Ending}
    (ended : (transfer size retried total offset script).ending = some ending) :
    ending = .filled ↔ ∀ call ∈ (transfer size retried total offset script).calls,
      call.reply.continues size retried = true := by
  constructor
  · rintro rfl call made
    by_contra stops
    obtain ⟨ending, other, notFilled⟩ :=
      exists_not_continues.mp ⟨call, made, eq_false_of_ne_true stops⟩
    rw [ended] at other
    exact notFilled (Option.some.inj other).symm
  · intro goesOn
    by_contra notFilled
    obtain ⟨call, made, stops⟩ := exists_not_continues.mpr ⟨ending, ended, notFilled⟩
    rw [goesOn call made] at stops
    cases stops

/-- It is open as long as every reply lets it go on and it is not filled. -/
theorem ending_eq_none (open_ : offset < total) :
    (transfer size retried total offset script).ending = none ↔
      (∀ reply ∈ script, reply.continues size retried = true) ∧
        offset + (script.map (Reply.units size)).sum < total := by
  fun_induction transfer size retried total offset script with
  | case1 => simp [open_]
  | case2 offset errno script retry ih =>
      simpa [Transfer.after, Reply.continues, retry, Reply.units] using ih open_
  | case3 offset errno script fatal => simp [Reply.continues, fatal]
  | case4 offset piece script none => simp [Reply.continues, none]
  | case5 offset piece script some_ less ih =>
      simpa [Transfer.after, Reply.continues, some_, Reply.units, Nat.add_assoc] using ih less
  | case6 offset piece script some_ filled =>
      refine iff_of_false (by simp) ?_
      rintro ⟨-, less⟩
      rw [List.map_cons, List.sum_cons, Reply.units] at less
      omega

/-- No more is moved than asked for, and all of it if and only if the transfer is filled. -/
theorem moved_eq_total (open_ : offset < total)
    (fits : ∀ call ∈ (transfer size retried total offset script).calls, call.Fits size) :
    offset + movedBy size (transfer size retried total offset script).calls ≤ total ∧
      ((transfer size retried total offset script).ending = some .filled ↔
        offset + movedBy size (transfer size retried total offset script).calls = total) := by
  fun_induction transfer size retried total offset script with
  | case1 => simp [Nat.le_of_lt open_, Nat.ne_of_lt open_]
  | case2 offset errno script retry ih =>
      simpa [Transfer.after] using ih open_ fun call made => fits call (List.mem_cons_of_mem _ made)
  | case3 => simp [Nat.le_of_lt open_, Nat.ne_of_lt open_]
  | case4 offset piece script none => simp [none, Nat.le_of_lt open_, Nat.ne_of_lt open_]
  | case5 offset piece script some_ less ih =>
      have rest := ih less fun call made => fits call (List.mem_cons_of_mem _ made)
      simpa [Transfer.after, Nat.add_assoc] using rest
  | case6 offset piece script some_ filled =>
      have within : size piece ≤ total - offset := fits _ (List.mem_singleton_self _)
      simp only [movedBy_cons, units_moved, movedBy_nil, Nat.add_zero, true_iff]
      omega

/-! ## Retried failures -/

/-- A failure that is retried. -/
def Reply.isRetried (retried : ℕ → Bool) : Reply π → Bool
  | .moved _ => false
  | .failed errno => retried errno

/-- Without the retried failures a transfer ends the same and moves the same pieces. -/
theorem transfer_filter (size : π → ℕ) (retried : ℕ → Bool) (total offset : ℕ)
    (script : List (Reply π)) :
    (transfer size retried total offset
          (script.filter fun reply => !reply.isRetried retried)).ending =
        (transfer size retried total offset script).ending ∧
      pieces (transfer size retried total offset
          (script.filter fun reply => !reply.isRetried retried)).calls =
        pieces (transfer size retried total offset script).calls := by
  fun_induction transfer size retried total offset script with
  | case1 => exact ⟨rfl, rfl⟩
  | case2 offset errno script retry ih =>
      rw [List.filter_cons_of_neg (by simp [Reply.isRetried, retry])]
      exact ih
  | case3 offset errno script fatal =>
      rw [List.filter_cons_of_pos (by simp [Reply.isRetried, fatal]), transfer, if_neg fatal]
      exact ⟨rfl, rfl⟩
  | case4 offset piece script none =>
      rw [List.filter_cons_of_pos rfl, transfer, if_pos none]
      exact ⟨rfl, rfl⟩
  | case5 offset piece script some_ less ih =>
      rw [List.filter_cons_of_pos rfl, transfer, if_neg some_, if_pos less]
      exact ⟨ih.1, congrArg (piece :: ·) ih.2⟩
  | case6 offset piece script some_ filled =>
      rw [List.filter_cons_of_pos rfl, transfer, if_neg some_, if_neg filled]
      exact ⟨rfl, rfl⟩

end Rules

end Jasl.Library
