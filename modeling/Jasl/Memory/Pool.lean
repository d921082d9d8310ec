import Jasl.Memory.BitStaff
import Jasl.Memory.Chunker

/-!
# Objects in chunks

`Pool`: a chunker with chunks for the objects of one type, and `get_shared`, which makes
an object at the begin of a chunk. The blocks are side by side, so where a chunk begins
depends on the size of a block: the chunk, which is a power of two not below the object,
and the field `next` behind it.

So the begin of the chunks goes on by four bytes more than a multiple of the alignment
with every block, and an object is aligned if and only if four times its position is
(`pool_aligned_iff`).
-/

set_option autoImplicit false

namespace Jasl

open Library

/-- `sizeof(T)` and `alignof(T)` of an element type. -/
structure ElementType where
  size : BitVec 32
  alignment : ℕ
  positive : 1 ≤ size.toNat
  power : ∃ k ≤ 4, alignment = 2 ^ k
  divides : alignment ∣ size.toNat

/-- `sizeof(Block)`: the chunk and `next`, padded to the alignment of `next`. -/
def sizeofBlock (correctedChunkSize : Word) : ℕ := (correctedChunkSize.toNat + 4 + 3) / 4 * 4

/-- `Pool`. -/
abbrev Pool (type : ElementType) (maxNumberOfElements : BitVec 32) :=
  Chunker maxNumberOfElements (correctedChunkSize type.size)

namespace Pool

/-- Where a block begins in the raw memory, and the object in it. -/
def offset (type : ElementType) (block : ℕ) : ℕ :=
  block * sizeofBlock (correctedChunkSize type.size)

variable {type : ElementType} {maxNumberOfElements : BitVec 32}

/-- `Pool::get_shared`: the offset at which the object is made. -/
def getShared (pool : Pool type maxNumberOfElements) :
    Except ChunkerError ℕ × Pool type maxNumberOfElements :=
  match Chunker.getShared pool (type.size.setWidth 64) with
  | (.ok block, after) => (.ok (offset type block), after)
  | (.error failed, after) => (.error failed, after)

/-! ## Where the blocks begin -/

/-- A block is four bytes longer than a multiple of its chunk. -/
theorem sizeofBlock_eq {chunk : Word} (power : ∃ k, chunk.toNat = 2 ^ k) :
    ∃ m, sizeofBlock chunk = chunk.toNat * m + 4 := by
  obtain ⟨k, power⟩ := power
  rw [sizeofBlock, power]
  match k with
  | 0 => exact ⟨4, rfl⟩
  | 1 => exact ⟨2, rfl⟩
  | k + 2 =>
      refine ⟨1, ?_⟩
      rw [Nat.pow_add, show 2 ^ 2 = 4 from rfl]
      omega

/-- The chunk is a power of two not below the alignment. -/
theorem alignment_dvd_chunk (type : ElementType) :
    type.alignment ∣ (correctedChunkSize type.size).toNat := by
  obtain ⟨⟨k, chunk⟩, fits, -⟩ := correctedChunkSize_spec type.positive
  obtain ⟨j, -, power⟩ := type.power
  have within : type.alignment ≤ type.size.toNat := Nat.le_of_dvd type.positive type.divides
  have below : 2 ^ j ≤ 2 ^ k := by
    rw [← power, ← chunk]
    exact Nat.le_trans within fits
  rw [power, chunk]
  exact Nat.pow_dvd_pow 2 ((Nat.pow_le_pow_iff_right (Nat.lt_succ_self 1)).mp below)

theorem offset_eq (type : ElementType) (block : ℕ) :
    ∃ m, offset type block = type.alignment * m + 4 * block := by
  obtain ⟨m, size⟩ := sizeofBlock_eq (correctedChunkSize_spec type.positive).1
  obtain ⟨n, chunk⟩ := alignment_dvd_chunk type
  refine ⟨block * (n * m), ?_⟩
  rw [offset, size, chunk, Nat.mul_add, Nat.mul_comm block 4, Nat.mul_assoc,
    Nat.mul_left_comm block]

/-- `get_shared` makes an object in a block that is not owned, and the object fits into it. -/
theorem getShared_places {pool : Pool type maxNumberOfElements} {owned : List ℕ}
    (parts : Chunker.Partitioned pool owned) {place : ℕ}
    (made : pool.getShared.1 = .ok place) :
    ∃ block < maxNumberOfElements.toNat, block ∉ owned ∧ place = offset type block ∧
      place + type.size.toNat ≤ offset type (block + 1) := by
  obtain ⟨-, fits, -⟩ := correctedChunkSize_spec type.positive
  unfold getShared at made
  cases shared : Chunker.getShared pool (type.size.setWidth 64) with
  | mk result after =>
      rw [shared] at made
      cases result with
      | error failed => cases made
      | ok block =>
          obtain rfl := Except.ok.inj made
          obtain ⟨first, -⟩ := Chunker.getShared_succeeded (congrArg Prod.fst shared)
          obtain ⟨inside, notOwned⟩ := parts.next_free first
          refine ⟨block, inside, notOwned, rfl, ?_⟩
          rw [offset, offset, Nat.add_mul, Nat.one_mul, sizeofBlock]
          omega

/-- **An object is aligned where four times its block is**, and all objects are where the alignment
is at most four, or where there is one block. -/
theorem pool_aligned_iff (type : ElementType) :
    (∀ block, type.alignment ∣ offset type block ↔ type.alignment ∣ 4 * block) ∧
    ∀ capacity, (∀ block < capacity, type.alignment ∣ offset type block) ↔
      type.alignment ≤ 4 ∨ capacity ≤ 1 := by
  have aligned : ∀ block, type.alignment ∣ offset type block ↔ type.alignment ∣ 4 * block := by
    intro block
    obtain ⟨m, begin_⟩ := offset_eq type block
    rw [begin_]
    exact Nat.dvd_add_right (Nat.dvd_mul_right _ _)
  refine ⟨aligned, fun capacity => ?_⟩
  simp only [aligned]
  obtain ⟨j, small, power⟩ := type.power
  constructor
  · intro all
    by_contra either
    rw [not_or, Nat.not_le, Nat.not_le] at either
    have four := Nat.le_of_dvd (by decide) (all 1 either.2)
    omega
  · rintro (low | one) block inside
    · rw [power] at low
      have least : j ≤ 2 := (Nat.pow_le_pow_iff_right (Nat.lt_succ_self 1)).mp low
      have divides : type.alignment ∣ 2 ^ 2 := power ▸ Nat.pow_dvd_pow 2 least
      exact Nat.dvd_trans divides (Nat.dvd_mul_right 4 block)
    · obtain rfl : block = 0 := by omega
      exact Nat.dvd_zero _

/-- `uint64_t`, and any other type of one word of 64 bits. -/
def word : ElementType where
  size := 8
  alignment := 8
  positive := by decide
  power := ⟨3, by decide, rfl⟩
  divides := by decide

/-- A pool of two words. -/
def twoWords : Pool word 2 := Chunker.init fun _ => 0

/-- The second word of a pool begins four bytes behind a multiple of its alignment. -/
theorem pool_misaligns_words :
    twoWords.getShared.2.getShared.1 = .ok 12 ∧ offset word 1 = 12 ∧
      ¬ ∀ block < 2, word.alignment ∣ offset word block :=
  ⟨rfl, rfl, by decide⟩

end Pool

end Jasl
