import Jasl.Common.BitHistory
import Jasl.Library.Lockstep

/-!
# Programs with bit sets

The calls a program makes on bit sets: it constructs, binds, copies and assigns them, and
writes their bits. Both the constructor that copies a set and the assignment call `bind`
with the size and the storage of the other set.

So a set that is bound is copied as it is, and any other is not copied at all
(`copyOf_eq`). A call changes one set, its target (`step_other`).
-/

set_option autoImplicit false

namespace Jasl

open Library

/-- `m_data.get()`. -/
def BitSet.data (bits : BitSet) : Option (List Byte) :=
  if bits.mData = [] then none else some bits.mData

/-- The call of `bind` in the copy constructor and in `operator=`. -/
def BitSet.copyOf (right : BitSet) : Except BitFailure BitSet :=
  BitSet.bind right.mSize right.data

/-- A call. A constructor makes its set in the place of one that is destroyed. -/
inductive BitCall (ι : Type) where
  | construct (bitset : ι)
  | bind (bitset : ι) (size : Word) (source : Option (List Byte))
  | copy (bitset right : ι)
  | assign (left right : ι)
  | write (change : BitWrite ι)
deriving DecidableEq, Repr

variable {ι : Type}

/-- The set that a write changes. -/
def BitWrite.target : BitWrite ι → ι
  | .assign bit _ => bit.mBitset
  | .copy left _ => left.mBitset
  | .flip bit => bit.mBitset
  | .setAll bitset _ => bitset

namespace BitCall

/-- The set that a call changes. -/
def target : BitCall ι → ι
  | .construct bitset => bitset
  | .bind bitset _ _ => bitset
  | .copy bitset _ => bitset
  | .assign left _ => left
  | .write change => change.target

/-- A set is copied to another. -/
def Distinct : BitCall ι → Prop
  | .copy bitset right => bitset ≠ right
  | .assign left right => left ≠ right
  | _ => True

instance [DecidableEq ι] : (call : BitCall ι) → Decidable call.Distinct
  | .construct _ => inferInstanceAs (Decidable True)
  | .bind _ _ _ => inferInstanceAs (Decidable True)
  | .copy bitset right => inferInstanceAs (Decidable (bitset ≠ right))
  | .assign left right => inferInstanceAs (Decidable (left ≠ right))
  | .write _ => inferInstanceAs (Decidable True)

end BitCall

variable [DecidableEq ι]

/-- One call. -/
def BitSets.step (sets : BitSets ι) : BitCall ι → Except BitFailure (BitSets ι)
  | .construct bitset => .ok (Function.update sets bitset {})
  | .bind bitset size source => do
      return Function.update sets bitset (← BitSet.bind size source)
  | .copy bitset right => do return Function.update sets bitset (← (sets right).copyOf)
  | .assign left right => do return Function.update sets left (← (sets right).copyOf)
  | .write change => change.run sets

/-! ## Copies -/

namespace BitSet

theorem mData_eq_nil {bits : BitSet} : bits.mData = [] ↔ bits.mSize = 0 := by
  rw [← List.length_eq_zero_iff, bits.stored]
  constructor
  · exact fun zero => BitVec.eq_of_toNat_eq zero
  · exact congrArg BitVec.toNat

theorem data_of_bound {bits : BitSet} (bound : bits.mSize ≠ 0) : bits.data = some bits.mData :=
  if_neg (mt mData_eq_nil.mp bound)

/-- A set that is bound is copied as it is. -/
theorem copyOf_eq {right : BitSet} (bound : right.mSize ≠ 0) : right.copyOf = .ok right := by
  rw [copyOf, data_of_bound bound]
  exact right.bind_stored bound

/-- A set that is not bound is not copied. -/
theorem copyOf_unbound {right : BitSet} (unbound : right.mSize = 0) :
    right.copyOf = .error (.runtimeError "BitSet::bind : invalid size") :=
  if_pos unbound

end BitSet

/-! ## What a call leaves as it is -/

/-- Only the target is another set behind this. -/
def ChangesOnly (target : ι) (sets : BitSets ι) (result : Except BitFailure (BitSets ι)) : Prop :=
  ∀ after, result = .ok after → ∀ other ≠ target, after other = sets other

namespace ChangesOnly

variable {target : ι} {sets : BitSets ι}

omit [DecidableEq ι] in
/-- What is read first changes nothing. -/
theorem bind {α : Type} {first : Except BitFailure α}
    {next : α → Except BitFailure (BitSets ι)}
    (changes : ∀ result, first = .ok result → ChangesOnly target sets (next result)) :
    ChangesOnly target sets (first >>= next) := by
  intro after succeeded
  obtain ⟨result, read, ended⟩ := exists_of_bind succeeded
  exact changes result read after ended

theorem update (result : Except BitFailure BitSet) :
    ChangesOnly target sets (do return Function.update sets target (← result)) := by
  refine bind fun bits _ after succeeded other different => ?_
  obtain rfl := Except.ok.inj succeeded
  exact Function.update_of_ne different _ _

theorem assign (bit : Bit ι) (value : Bool) :
    ChangesOnly bit.mBitset sets (bit.assign value sets) := by
  rw [Agrees.assign_eq_write]
  exact update _

omit [DecidableEq ι] in
/-- The proxy of a bit is of its set. -/
theorem bit_eq_ok {bit proxy : Bit ι} (made : sets.bit bit.mBitset bit.mIndex = .ok proxy) :
    proxy = bit := by
  rw [BitSets.bit] at made
  split at made
  · cases made
  · exact (Except.ok.inj made).symm

/-- What a flip leaves behind is what its assignment does. -/
theorem flip (bit : Bit ι) :
    ChangesOnly bit.mBitset sets (do return (← bit.flip sets).2) := by
  refine bind fun flipped ends after succeeded => ?_
  obtain rfl := Except.ok.inj succeeded
  obtain ⟨value, -, ends⟩ := exists_of_bind ends
  obtain ⟨changed, assigned, ends⟩ := exists_of_bind ends
  obtain ⟨read, -, ends⟩ := exists_of_bind ends
  obtain rfl := Except.ok.inj ends
  exact assign bit value changed assigned

theorem write (change : BitWrite ι) : ChangesOnly change.target sets (change.run sets) := by
  cases change with
  | assign bit value =>
      refine bind fun proxy made => ?_
      obtain rfl := bit_eq_ok made
      exact assign proxy value
  | copy left right =>
      refine bind fun source _ => bind fun proxy made => ?_
      obtain rfl := bit_eq_ok made
      exact bind fun value _ => assign proxy value
  | flip bit =>
      refine bind fun proxy made => ?_
      obtain rfl := bit_eq_ok made
      exact flip proxy
  | setAll bitset value => exact update _

end ChangesOnly

/-- A call changes its target only. -/
theorem BitSets.step_other {sets : BitSets ι} (call : BitCall ι) :
    ChangesOnly call.target sets (sets.step call) := by
  cases call with
  | construct bitset =>
      intro after succeeded other different
      obtain rfl := Except.ok.inj succeeded
      exact Function.update_of_ne different _ _
  | bind bitset size source => exact .update _
  | copy bitset right => exact .update _
  | assign left right => exact .update _
  | write change => exact .write change

/-- Calls that have another target leave a set as it is. -/
theorem BitSets.run_other {sets final : BitSets ι} {calls : List (BitCall ι)}
    (run : Run BitSets.step (fun _ _ => True) sets calls final) {bitset : ι}
    (others : ∀ call ∈ calls, bitset ≠ call.target) : final bitset = sets bitset := by
  induction run with
  | nil => rfl
  | @snoc calls before after call _ _ stepped ih =>
      rw [BitSets.step_other call after stepped bitset (others call (by simp))]
      exact ih fun other mem => others other (List.mem_append_left _ mem)

end Jasl
