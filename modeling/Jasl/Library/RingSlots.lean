import Mathlib.Data.Nat.ModEq
import Mathlib.Tactic.Common

/-!
# Slots of a ring

A ring of `size` slots holds a sequence of values by their positions: position `p`
stands in slot `p % size`, a word. Within a stretch of `size` positions no two
share a slot (`IsSlot.position_eq`), so as long as that is all a ring holds, its
slots tell the positions apart, however often they wrap.
-/

set_option autoImplicit false

namespace Jasl.Library

variable {w size : ℕ}

/-- A word is the slot of a position. -/
def IsSlot (size : ℕ) (slot : BitVec w) (position : ℕ) : Prop :=
  slot.toNat = position % size

namespace IsSlot

variable {slot other : BitVec w} {position later : ℕ}

/-- A position has one slot. -/
theorem unique (first : IsSlot size slot position) (second : IsSlot size other position) :
    slot = other :=
  BitVec.eq_of_toNat_eq (first.trans second.symm)

/-- Positions that share a slot, and are less than the size of the ring apart, are the same. -/
theorem position_eq (first : IsSlot size slot position) (second : IsSlot size slot later)
    (ordered : position ≤ later) (near : later < position + size) : position = later := by
  have same : position ≡ later [MOD size] := first.symm.trans second
  have divides : size ∣ later - position := (Nat.modEq_iff_dvd' ordered).mp same
  have none : later - position = 0 := Nat.eq_zero_of_dvd_of_lt divides (by omega)
  omega

/-- A slot is the slot of a position one turn later, too. -/
theorem add_size (isSlot : IsSlot size slot position) : IsSlot size slot (position + size) := by
  rw [IsSlot, Nat.add_mod_right]
  exact isSlot

/-- The next slot, for a size that is a word. -/
theorem next {bound : BitVec w} (sized : bound.toNat = size) (positive : 0 < size)
    (isSlot : IsSlot size slot position) :
    IsSlot size ((slot + 1#w) % bound) (position + 1) := by
  have below : slot.toNat < bound.toNat := by
    rw [sized, isSlot]
    exact Nat.mod_lt _ positive
  have fits : slot.toNat + 1 < 2 ^ w := by
    have := bound.isLt
    omega
  have one : (1#w).toNat = 1 := by
    rw [BitVec.toNat_ofNat]
    exact Nat.mod_eq_of_lt (by omega)
  rw [IsSlot, BitVec.toNat_umod, BitVec.toNat_add, one, Nat.mod_eq_of_lt fits, sized, isSlot,
    Nat.mod_add_mod]

end IsSlot

end Jasl.Library
