import Jasl.Library.Chain
import Jasl.Library.Runs
import Mathlib.Data.List.Range
import Mathlib.Data.List.Perm.Basic

/-!
# Chunks of equal size

`Chunker`: `max_chunks` blocks, those that are free in a list from `m_next`
through the field `next` of the blocks. A block is its position in `m_blocks`,
and `next` is a position in 32 bits, where `max_chunks` stands for null. The bytes
of a block are not looked at.

A chunk that was handed out is released once, by the deleter of the pointer, in
any order. The free blocks and those handed out are all blocks, each once
(`chunker_partitions_the_blocks`).
-/

set_option autoImplicit false

namespace Jasl

open Library

/-! ## The chunker -/

/-- Why `get_shared` fails: the assertion that a size is not zero, or an exception. -/
inductive ChunkerError where
  | assertion
  | runtimeError (what : String)
deriving DecidableEq, Repr

/-- `Chunker`, with the parameters `max_chunks` and `corrected_chunk_size`. -/
structure Chunker (maxChunks : BitVec 32) (correctedChunkSize : BitVec 64) where
  /-- The field `next` of the blocks. -/
  blocks : ℕ → BitVec 32
  /-- `m_next`. -/
  next : Option ℕ

namespace Chunker

variable {maxChunks : BitVec 32} {correctedChunkSize : BitVec 64}

/-- The loop of the constructor, after a number of turns: a block gets the position behind it. -/
def linked (raw : ℕ → BitVec 32) : ℕ → ℕ → BitVec 32
  | 0 => raw
  | turns + 1 => Function.update (linked raw turns) turns (BitVec.ofNat 32 (turns + 1))

/-- `Chunker::Chunker`, in memory with some content. -/
def init (raw : ℕ → BitVec 32) : Chunker maxChunks correctedChunkSize where
  blocks := Function.update (linked raw (maxChunks.toNat - 1)) (maxChunks.toNat - 1) maxChunks
  next := some 0

/-- `Chunker::create`: the block taken out of the list, or null. -/
def create (c : Chunker maxChunks correctedChunkSize) :
    Option ℕ × Chunker maxChunks correctedChunkSize :=
  match c.next with
  | none => (none, c)
  | some block =>
      if c.blocks block = maxChunks then (some block, { c with next := none })
      else (some block, { c with next := some (c.blocks block).toNat })

/-- `Chunker::get_shared`. -/
def getShared (c : Chunker maxChunks correctedChunkSize) (size : BitVec 64) :
    Except ChunkerError ℕ × Chunker maxChunks correctedChunkSize :=
  if size = 0 then (.error .assertion, c)
  else if correctedChunkSize < size then (.error (.runtimeError "size is too big"), c)
  else
    match c.create with
    | (some block, after) => (.ok block, after)
    | (none, after) => (.error (.runtimeError "unable to allocate chunk"), after)

/-- `Chunker::destroy`, the deleter. -/
def destroy (c : Chunker maxChunks correctedChunkSize) (block : ℕ) :
    Chunker maxChunks correctedChunkSize :=
  let link :=
    match c.next with
    | none => maxChunks
    | some first => BitVec.ofNat 32 first
  { c with blocks := Function.update c.blocks block link, next := some block }

end Chunker

/-- A call of `get_shared`, or the release of a chunk. -/
inductive ChunkerOp where
  | getShared (size : BitVec 64)
  | release (block : ℕ)
deriving Repr

namespace Chunker

variable {maxChunks : BitVec 32} {correctedChunkSize : BitVec 64}

/-- One call. An exception is the caller's, who goes on; an assertion that fails is the end. -/
def step (c : Chunker maxChunks correctedChunkSize) :
    ChunkerOp → Except ChunkerError (Chunker maxChunks correctedChunkSize)
  | .getShared size =>
      match c.getShared size with
      | (.error .assertion, _) => .error .assertion
      | (_, after) => .ok after
  | .release block => .ok (c.destroy block)

/-- The blocks that are owned: handed out, and not released since. -/
def noteOwned (before : Chunker maxChunks correctedChunkSize) (op : ChunkerOp)
    (_ : Chunker maxChunks correctedChunkSize) (owned : List ℕ) : List ℕ :=
  match op with
  | .getShared size =>
      match (before.getShared size).1 with
      | .ok block => block :: owned
      | .error _ => owned
  | .release block => owned.erase block

/-- Only a chunk that is owned is released. -/
def ReleasesOwned (watched : Chunker maxChunks correctedChunkSize × List ℕ) : ChunkerOp → Prop
  | .getShared _ => True
  | .release block => block ∈ watched.2

instance (watched : Chunker maxChunks correctedChunkSize × List ℕ) :
    (op : ChunkerOp) → Decidable (ReleasesOwned watched op)
  | .getShared _ => inferInstanceAs (Decidable True)
  | .release block => inferInstanceAs (Decidable (block ∈ watched.2))

/-! ## The free list -/

/-- The block that a block points to. -/
def following (c : Chunker maxChunks correctedChunkSize) (block : ℕ) : Option ℕ :=
  if c.blocks block = maxChunks then none else some (c.blocks block).toNat

/-- The free blocks, in the order of the list, and the owned ones are all blocks, each once. -/
def Partitioned (c : Chunker maxChunks correctedChunkSize) (owned : List ℕ) : Prop :=
  ∃ free, Chain c.following c.next free ∧ (free ++ owned).Perm (List.range maxChunks.toNat)

variable {c after : Chunker maxChunks correctedChunkSize} {owned : List ℕ}

theorem create_of_some {block : ℕ} (first : c.next = some block) :
    c.create = (some block, { c with next := c.following block }) := by
  rw [create, first]
  simp only [following]
  split <;> rfl

theorem create_of_none (empty : c.next = none) : c.create = (none, c) := by
  rw [create, empty]

/-- A released block points to what was first before. -/
theorem following_destroy (block : ℕ) (bounded : ∀ first, c.next = some first →
    first < maxChunks.toNat) :
    (c.destroy block).following = Function.update c.following block c.next := by
  funext other
  by_cases same : other = block
  · rw [same, Function.update_self]
    simp only [following, destroy, Function.update_self]
    cases first : c.next with
    | none => rw [if_pos rfl]
    | some head =>
        have below := bounded head first
        have fits : head % 2 ^ 32 = head := Nat.mod_eq_of_lt (below.trans maxChunks.isLt)
        have position : (BitVec.ofNat 32 head).toNat = head := by
          rw [BitVec.toNat_ofNat, fits]
        rw [if_neg, position]
        intro null
        rw [← null, position] at below
        exact lt_irrefl head below
  · rw [Function.update_of_ne same]
    simp only [following, destroy, Function.update_of_ne same]

/-! ### The first list -/

theorem linked_of_lt (raw : ℕ → BitVec 32) {turns block : ℕ} (done : block < turns) :
    linked raw turns block = BitVec.ofNat 32 (block + 1) := by
  induction turns with
  | zero => exact absurd done (Nat.not_lt_zero block)
  | succ turns ih =>
      rw [linked]
      by_cases last : block = turns
      · rw [last, Function.update_self]
      · rw [Function.update_of_ne last]
        exact ih (by omega)

variable {raw : ℕ → BitVec 32}

theorem blocks_init {block : ℕ} (inside : block < maxChunks.toNat) :
    (init raw : Chunker maxChunks correctedChunkSize).blocks block = BitVec.ofNat 32 (block + 1) := by
  by_cases last : block = maxChunks.toNat - 1
  · have behind : block + 1 = maxChunks.toNat := by omega
    rw [behind, BitVec.ofNat_toNat, BitVec.setWidth_eq, last]
    exact Function.update_self ..
  · exact (Function.update_of_ne last ..).trans (linked_of_lt raw (by omega))

theorem following_init {block : ℕ} (inside : block < maxChunks.toNat) :
    (init raw : Chunker maxChunks correctedChunkSize).following block =
      if block + 1 = maxChunks.toNat then none else some (block + 1) := by
  have last : (BitVec.ofNat 32 (block + 1) = maxChunks) ↔ block + 1 = maxChunks.toNat := by
    rw [← BitVec.toNat_inj, BitVec.toNat_ofNat, Nat.mod_eq_of_lt (by omega)]
  rw [following, blocks_init inside]
  by_cases end_ : block + 1 = maxChunks.toNat
  · rw [if_pos (last.mpr end_), if_pos end_]
  · rw [if_neg (mt last.mp end_), if_neg end_, BitVec.toNat_ofNat, Nat.mod_eq_of_lt (by omega)]

/-- From any block the first list runs on to the last one. -/
theorem chain_init (rest : ℕ) : ∀ block, block + rest + 1 = maxChunks.toNat →
    Chain (init raw : Chunker maxChunks correctedChunkSize).following (some block)
      (List.range' block (rest + 1)) := by
  induction rest with
  | zero =>
      intro block last
      refine .cell ?_
      rw [following_init (by omega), if_pos (by omega)]
      exact .null
  | succ rest ih =>
      intro block more
      rw [List.range'_succ]
      refine .cell ?_
      rw [following_init (by omega), if_neg (by omega)]
      exact ih (block + 1) (by omega)

namespace Partitioned

theorem init (nonzero : maxChunks ≠ 0) :
    (Chunker.init raw : Chunker maxChunks correctedChunkSize).Partitioned [] := by
  have positive : 0 < maxChunks.toNat := by
    rw [Nat.pos_iff_ne_zero]
    intro zero
    exact nonzero (BitVec.eq_of_toNat_eq zero)
  refine ⟨List.range maxChunks.toNat, ?_, ?_⟩
  · rw [List.range_eq_range', ← Nat.sub_add_cancel positive]
    exact chain_init (maxChunks.toNat - 1) 0 (by omega)
  · rw [List.append_nil]

theorem nodup (parts : c.Partitioned owned) : owned.Nodup := by
  obtain ⟨free, -, all⟩ := parts
  exact (List.nodup_append.mp (all.nodup_iff.mpr List.nodup_range)).2.1

/-- The first block of the list is one of the blocks, and not owned. -/
theorem next_free (parts : c.Partitioned owned) {block : ℕ} (first : c.next = some block) :
    block < maxChunks.toNat ∧ block ∉ owned := by
  obtain ⟨free, chain, all⟩ := parts
  have distinct := List.nodup_append.mp (all.nodup_iff.mpr List.nodup_range)
  rw [first] at chain
  cases chain with
  | cell walk =>
      have member : block ∈ List.range maxChunks.toNat :=
        all.mem_iff.mp (List.mem_append_left _ List.mem_cons_self)
      exact ⟨List.mem_range.mp member, fun alsoOwned =>
        distinct.2.2 block List.mem_cons_self block alsoOwned rfl⟩

/-- Every block is first in the list, further on in it, or owned. -/
theorem next_eq_none_iff (parts : c.Partitioned owned) :
    c.next = none ↔ ∀ block < maxChunks.toNat, block ∈ owned := by
  constructor
  · intro empty
    obtain ⟨free, chain, all⟩ := parts
    rw [empty] at chain
    cases chain
    intro block inside
    exact all.mem_iff.mpr (List.mem_range.mpr inside)
  · intro taken
    cases first : c.next with
    | none => rfl
    | some block =>
        obtain ⟨inside, notOwned⟩ := parts.next_free first
        exact absurd (taken block inside) notOwned

/-- A block taken out of the list is owned. -/
theorem create (parts : c.Partitioned owned) {block : ℕ} (first : c.next = some block) :
    ({ c with next := c.following block } : Chunker maxChunks correctedChunkSize).Partitioned
      (block :: owned) := by
  obtain ⟨free, chain, all⟩ := parts
  rw [first] at chain
  cases chain with
  | @cell _ rest walk => exact ⟨rest, walk, List.perm_middle.trans all⟩

/-- A block that is released is in the list again. -/
theorem destroy (parts : c.Partitioned owned) {block : ℕ} (member : block ∈ owned) :
    (c.destroy block).Partitioned (owned.erase block) := by
  have inside : ∀ first, c.next = some first → first < maxChunks.toNat :=
    fun first there => (parts.next_free there).1
  obtain ⟨free, chain, all⟩ := parts
  have distinct := List.nodup_append.mp (all.nodup_iff.mpr List.nodup_range)
  have apart : block ∉ free := fun alsoFree => distinct.2.2 block alsoFree block member rfl
  refine ⟨block :: free, ?_, ?_⟩
  · rw [following_destroy block inside]
    exact chain.push apart
  · have moved : (free ++ block :: owned.erase block).Perm (free ++ owned) :=
      (List.perm_cons_erase member).symm.append_left free
    exact (List.perm_middle.symm.trans moved).trans all

end Partitioned

/-! ## Calls -/

/-- `get_shared` with a size that a block has fails exactly when the list is empty. -/
theorem getShared_fails_iff {size : BitVec 64} (positive : size ≠ 0)
    (fits : size ≤ correctedChunkSize) :
    (∀ block, (c.getShared size).1 ≠ .ok block) ↔ c.next = none := by
  rw [getShared, if_neg positive, if_neg (BitVec.not_lt.mpr fits)]
  cases first : c.next with
  | none =>
      rw [create_of_none first]
      exact iff_of_true nofun rfl
  | some block =>
      rw [create_of_some first]
      exact iff_of_false (fun never => never block rfl) nofun

/-- A call of `get_shared` that fails changes nothing. -/
theorem getShared_failed {size : BitVec 64} {failed : ChunkerError}
    (fails : (c.getShared size).1 = .error failed) : (c.getShared size).2 = c := by
  rw [getShared] at fails ⊢
  by_cases zero : size = 0
  · rw [if_pos zero]
  · by_cases big : correctedChunkSize < size
    · rw [if_neg zero, if_pos big]
    · rw [if_neg zero, if_neg big] at fails ⊢
      cases first : c.next with
      | none => rw [create_of_none first]
      | some block =>
          rw [create_of_some first] at fails
          cases fails

/-- A call of `get_shared` that succeeds takes the first block out of the list. -/
theorem getShared_succeeded {size : BitVec 64} {block : ℕ}
    (succeeds : (c.getShared size).1 = .ok block) :
    c.next = some block ∧ (c.getShared size).2 = { c with next := c.following block } := by
  rw [getShared] at succeeds ⊢
  by_cases zero : size = 0
  · rw [if_pos zero] at succeeds
    cases succeeds
  · by_cases big : correctedChunkSize < size
    · rw [if_neg zero, if_pos big] at succeeds
      cases succeeds
    · rw [if_neg zero, if_neg big] at succeeds ⊢
      cases first : c.next with
      | none =>
          rw [create_of_none first] at succeeds
          cases succeeds
      | some other =>
          rw [create_of_some first] at succeeds ⊢
          obtain rfl : other = block := Except.ok.inj succeeds
          exact ⟨rfl, rfl⟩

/-- **Every call keeps the blocks apart** that releases an owned chunk, if it releases one. -/
theorem Partitioned.step (parts : c.Partitioned owned) {op : ChunkerOp}
    (releases : ReleasesOwned (c, owned) op) (stepped : c.step op = .ok after) :
    after.Partitioned (noteOwned c op after owned) := by
  cases op with
  | getShared size =>
      have last : (c.getShared size).2 = after := by
        simp only [Chunker.step] at stepped
        split at stepped
        · cases stepped
        · rename_i result next _ returned
          rw [returned]
          exact Except.ok.inj stepped
      rw [noteOwned, ← last]
      cases result : (c.getShared size).1 with
      | error failed =>
          rw [getShared_failed result]
          exact parts
      | ok block =>
          obtain ⟨first, taken⟩ := getShared_succeeded result
          rw [taken]
          exact parts.create first
  | release block =>
      obtain rfl := Except.ok.inj stepped
      exact parts.destroy releases

end Chunker

/-- **A chunker hands out each block to one owner at a time and leaks none**, in every run that
releases only chunks that are owned: the free list ends, its blocks are distinct, and with the owned
ones they are all blocks, each once; `get_shared` with a size that fits fails exactly when all blocks
are owned; and where it fails it changes nothing. -/
theorem chunker_partitions_the_blocks {maxChunks : BitVec 32} {correctedChunkSize : BitVec 64}
    {raw : ℕ → BitVec 32} (nonzero : maxChunks ≠ 0) {ops : List ChunkerOp}
    {c : Chunker maxChunks correctedChunkSize} {owned : List ℕ}
    (run : Run (observed Chunker.step Chunker.noteOwned) Chunker.ReleasesOwned
      (.init raw, []) ops (c, owned)) :
    (∃ free, Chain c.following c.next free ∧ free.Nodup ∧
      (free ++ owned).Perm (List.range maxChunks.toNat)) ∧
    owned.Nodup ∧
    (∀ size, size ≠ 0 → size ≤ correctedChunkSize →
      ((∀ block, (c.getShared size).1 ≠ .ok block) ↔ ∀ block < maxChunks.toNat, block ∈ owned)) ∧
    ∀ size failed, (c.getShared size).1 = .error failed → (c.getShared size).2 = c := by
  have parts : c.Partitioned owned := by
    apply run.invariant (fun watched => watched.1.Partitioned watched.2) (.init nonzero)
    intro before op after held releases stepped
    obtain ⟨returned, noted⟩ := observed_eq_ok.mp stepped
    rw [noted]
    exact held.step releases returned
  refine ⟨?_, parts.nodup, ?_, fun size failed => Chunker.getShared_failed⟩
  · obtain ⟨free, chain, all⟩ := parts
    exact ⟨free, chain, chain.nodup, all⟩
  · intro size positive fits
    rw [Chunker.getShared_fails_iff positive fits, parts.next_eq_none_iff]

/-- Two chunks of three are handed out and released in this order, one is handed out again, and a
size that no block has is refused. -/
def chunkOps : List ChunkerOp :=
  [.getShared 8, .getShared 1, .release 0, .release 1, .getShared 9, .getShared 5]

def usedChunker : Chunker 3 8 × List ℕ :=
  (checkedRun (observed Chunker.step Chunker.noteOwned) Chunker.ReleasesOwned
    (.init fun _ => 0, []) chunkOps).get (by decide +kernel)

theorem chunker_partitions_the_blocks_used :
    usedChunker.2 = [1] ∧ usedChunker.1.next = some 0 ∧
      ∃ free, Chain usedChunker.1.following usedChunker.1.next free ∧ free.Nodup ∧
        (free ++ usedChunker.2).Perm (List.range (3 : BitVec 32).toNat) := by
  have run : Run (observed Chunker.step Chunker.noteOwned) Chunker.ReleasesOwned
      ((.init fun _ => 0 : Chunker 3 8), []) chunkOps usedChunker := Run.of_isSome _
  exact ⟨by decide +kernel, by decide +kernel,
    (chunker_partitions_the_blocks (c := usedChunker.1) (by decide) run).1⟩

end Jasl
