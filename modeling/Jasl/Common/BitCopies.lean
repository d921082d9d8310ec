import Jasl.Common.BitMemory

/-!
# Copies of bit sets

A copy is made by `bind`, which takes no set of size zero. So a set that was never bound
cannot be copied, by the constructor or by the assignment, and any other is copied into an
array of its own: the copy reads the same, and what is called on one of both later is not
seen in the other (`copies_iff_bound`).
-/

set_option autoImplicit false

namespace Jasl

open Library

variable {ι : Type}

/-- Both have one size, and the same value at every index. -/
structure SameBits (first : BitMemory ι) (bitset : ι) (second : BitMemory ι) (other : ι) :
    Prop where
  size : first.size bitset = second.size other
  value : ∀ index, first.value bitset index = second.value other index

theorem Holds.sameBits {first second : BitMemory ι} {sets others : BitSets ι}
    (holds : Holds first sets) (holds' : Holds second others) {bitset other : ι}
    (same : sets bitset = others other) : SameBits first bitset second other where
  size := by rw [BitMemory.size, BitMemory.size, holds.count, holds'.count, same]
  value index := by rw [holds.value, holds'.value, same]

variable [DecidableEq ι]

/-- The sets of a program after some calls. -/
abbrev Reached (memory : BitMemory ι) (labels : List (BitCall ι × Address))
    (after : BitMemory ι) : Prop :=
  Run BitMemory.step BitMemory.Allowed memory labels after

/-- One set is a copy of another. -/
structure Copied (before after : BitMemory ι) (left right : ι) : Prop where
  /-- Both are equal, and the original is as it was. -/
  equal : SameBits after left after right
  original : SameBits after right before right
  /-- Later calls on the one are not seen in the other. -/
  ofLeft : ∀ labels final, Reached after labels final →
    (∀ label ∈ labels, label.1.target = left) → SameBits final right after right
  ofRight : ∀ labels final, Reached after labels final →
    (∀ label ∈ labels, label.1.target = right) → SameBits final left after left

/-- Constructing and assigning a copy succeed, and give a copy. -/
def Copies (memory : BitMemory ι) (fresh : Address) (left right : ι) : Prop :=
  ∀ call ∈ [BitCall.copy left right, BitCall.assign left right],
    ∃ after, memory.step (call, fresh) = .ok after ∧ Copied memory after left right

/-! ## Runs -/

namespace Holds

variable {memory : BitMemory ι} {sets : BitSets ι}

omit [DecidableEq ι] in
theorem init : Holds (BitMemory.init : BitMemory ι) fun _ => {} where
  unique := ⟨by simp [BitMemory.init], by simp [BitMemory.init]⟩
  data _ := rfl
  size _ := rfl
  count _ := rfl

/-- Calls on the sets in memory are calls on sets that hold their bytes. -/
theorem reached (holds : Holds memory sets) {labels : List (BitCall ι × Address)}
    {final : BitMemory ι} (run : Reached memory labels final) :
    ∃ after, Run BitSets.step (fun _ _ => True) sets (labels.map Prod.fst) after ∧
      Holds final after :=
  run.lockstep (fun _ _ _ held allowed => held.step allowed) holds

/-- Calls that are made on other sets are not seen. -/
theorem others (holds : Holds memory sets) {labels : List (BitCall ι × Address)}
    {final : BitMemory ι} (run : Reached memory labels final) {bitset : ι}
    (others : ∀ label ∈ labels, bitset ≠ label.1.target) :
    SameBits final bitset memory bitset := by
  obtain ⟨after, calls, held⟩ := holds.reached run
  exact held.sameBits holds (BitSets.run_other calls (List.forall_mem_map.mpr others))

/-- A set that is replaced by another is a copy of it. -/
theorem copied (holds : Holds memory sets) {after : BitMemory ι} {left right : ι}
    (different : left ≠ right)
    (held : Holds after (Function.update sets left (sets right))) :
    Copied memory after left right where
  equal := held.sameBits held (by
    rw [Function.update_self, Function.update_of_ne different.symm])
  original := held.sameBits holds (Function.update_of_ne different.symm _ _)
  ofLeft labels final run targets := held.others run fun label mem =>
    (targets label mem).symm ▸ different.symm
  ofRight labels final run targets := held.others run fun label mem =>
    (targets label mem).symm ▸ different

end Holds

/-! ## Copying -/

/-- Both ways to copy a set are calls of `bind` from it. -/
theorem Holds.copies {memory : BitMemory ι} {sets : BitSets ι} (holds : Holds memory sets)
    {fresh : Address} (free : memory.heap.cells fresh = none) {left right : ι}
    (different : left ≠ right) {call : BitCall ι}
    (copying : call ∈ [BitCall.copy left right, BitCall.assign left right]) :
    Alike Holds (memory.step (call, fresh))
      (do return Function.update sets left (← (sets right).copyOf)) := by
  simp only [List.mem_cons, List.not_mem_nil, or_false] at copying
  rcases copying with rfl | rfl
  · have allowed : memory.Allowed (.copy left right, fresh) := ⟨free, different⟩
    exact holds.step allowed
  · have allowed : memory.Allowed (.assign left right, fresh) := ⟨free, different⟩
    exact holds.step allowed

/-- **Exactly the sets that are bound are copied**, and the copies are equal and independent. -/
theorem copies_iff_bound {labels : List (BitCall ι × Address)} {memory : BitMemory ι}
    (run : Reached BitMemory.init labels memory) {fresh : Address}
    (free : memory.heap.cells fresh = none) {left right : ι} (different : left ≠ right) :
    Copies memory fresh left right ↔ memory.mSize right ≠ 0 := by
  obtain ⟨sets, -, holds⟩ := Holds.init.reached run
  rw [holds.size]
  constructor
  · intro copies unbound
    obtain ⟨after, copied, -⟩ := copies (.copy left right) List.mem_cons_self
    have alike := holds.copies free different List.mem_cons_self
    rw [copied, BitSet.copyOf_unbound unbound] at alike
    cases alike
  · intro bound call copying
    have alike := holds.copies free different copying
    rw [BitSet.copyOf_eq bound] at alike
    obtain ⟨after, copied, held⟩ := alike.exists_left
    exact ⟨after, copied, holds.copied different held⟩

/-- A set of one byte, and one of two bytes that it is copied to. -/
def boundCalls : List (BitCall Bool × Address) :=
  [(.bind false 1 (some [0xa5]), 0), (.bind true 2 none, 1)]

theorem boundCalls_run : (checkedRun BitMemory.step BitMemory.Allowed BitMemory.init
    boundCalls).isSome := by decide

theorem copies_iff_bound_two :
    Copies ((checkedRun BitMemory.step BitMemory.Allowed BitMemory.init boundCalls).get
      boundCalls_run) 2 true false :=
  (copies_iff_bound (Run.of_isSome boundCalls_run) (by decide) (by decide)).mpr (by decide)

/-- A set that was constructed by default and never bound is not copied. -/
theorem unbound_is_not_copied :
    BitMemory.step BitMemory.init (.copy true false, 0) =
        .error (.runtimeError "BitSet::bind : invalid size") ∧
      ¬ ∀ (labels : List (BitCall Bool × Address)) (memory : BitMemory Bool) (fresh : Address)
          (left right : Bool), Reached BitMemory.init labels memory →
        memory.heap.cells fresh = none → left ≠ right → Copies memory fresh left right := by
  refine ⟨rfl, fun all => ?_⟩
  obtain ⟨after, copied, -⟩ := all [] BitMemory.init 0 true false .nil rfl (by decide)
    (.copy true false) List.mem_cons_self
  cases copied

end Jasl
