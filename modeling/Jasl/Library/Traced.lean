import Mathlib.Tactic.Common

/-!
# Computations that report what they do

A computation reports events on its way, and ends with a value or a fault; what was
reported before a fault stays reported. Erasing the reports commutes with every way of
putting computations together (`result_bind` and the like), so that a reporting version
of a program is compared with the program step by step. Where every report of the pieces
is of some kind, every report of the whole is (`Only`), and only those of the pieces that
run count.
-/

set_option autoImplicit false

namespace Jasl.Library

universe u v w x

/-- What a computation reports, and how it ends. -/
structure Traced (ε : Type u) (φ : Type v) (α : Type w) where
  events : List ε
  result : Except φ α
deriving DecidableEq

namespace Traced

variable {ε : Type u} {φ : Type v} {α : Type w} {β : Type x}

/-- Nothing is reported. -/
def silent (result : Except φ α) : Traced ε φ α := ⟨[], result⟩

/-- An event before the others. -/
def report (event : ε) (rest : Traced ε φ α) : Traced ε φ α := ⟨event :: rest.events, rest.result⟩

def map (f : α → β) (first : Traced ε φ α) : Traced ε φ β := ⟨first.events, first.result.map f⟩

/-- The second computation runs on the value of the first, if there is one. -/
def bind (first : Traced ε φ α) (next : α → Traced ε φ β) : Traced ε φ β :=
  match first.result with
  | .error fault => ⟨first.events, .error fault⟩
  | .ok value => ⟨first.events ++ (next value).events, (next value).result⟩

section Erasure

variable (event : ε) (result : Except φ α) (first : Traced ε φ α)

@[simp] theorem result_silent : (silent result : Traced ε φ α).result = result := rfl

@[simp] theorem result_report : (report event first).result = first.result := rfl

@[simp] theorem result_map (f : α → β) : (first.map f).result = first.result.map f := rfl

@[simp] theorem result_bind (next : α → Traced ε φ β) :
    (first.bind next).result = first.result.bind fun value => (next value).result := by
  obtain ⟨events, result⟩ := first
  cases result with
  | error fault => rfl
  | ok value => rfl

end Erasure

/-- Everything that is reported is good. -/
def Only (good : ε → Prop) (first : Traced ε φ α) : Prop := ∀ event ∈ first.events, good event

section Rules

variable {good : ε → Prop} {event : ε} {first : Traced ε φ α} {next : α → Traced ε φ β}

theorem only_silent (result : Except φ α) : Only good (silent result : Traced ε φ α) := by
  intro event member
  cases member

theorem only_report (here : good event) (rest : Only good first) :
    Only good (report event first) := by
  intro other member
  rcases List.mem_cons.mp member with rfl | later
  · exact here
  · exact rest other later

theorem only_map (f : α → β) (only : Only good first) : Only good (first.map f) := only

theorem only_bind (only : Only good first)
    (after : ∀ value, first.result = .ok value → Only good (next value)) :
    Only good (first.bind next) := by
  obtain ⟨events, result⟩ := first
  cases result with
  | error fault => exact only
  | ok value =>
      intro event member
      rcases List.mem_append.mp member with before | later
      · exact only event before
      · exact after value rfl event later

/-- What the second computation reports is reported when it runs. -/
theorem mem_bind {value : α} (ended : first.result = .ok value)
    (member : event ∈ (next value).events) : event ∈ (first.bind next).events := by
  obtain ⟨events, result⟩ := first
  cases ended
  exact List.mem_append_right events member

end Rules

end Traced

end Jasl.Library
