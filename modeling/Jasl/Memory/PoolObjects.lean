import Jasl.Library.SharedPointers
import Jasl.Memory.Pool

/-!
# The life of the objects of a pool

`Pool::get_shared` takes a chunk, constructs an object in it, and hands out a shared pointer
whose deleter destroys the object. The deleter has a pointer to the chunk as well, so the
chunk is released when the deleter goes: with the control block, which stays as long as
there are weak pointers. A constructor that throws gives its chunk back; so does a call for
which there is no memory for a control block, that of the chunk or that of the object, which
is then destroyed at once.

Constructors, destructors and everything else may use the pool again, so all of these are
steps of their own, in any order. The objects that have a chunk are apart, and the pool is
exhausted if and only if there are as many of them as chunks (`pool_objects_are_apart`). An
object is constructed once at most and destroyed once, when its last handle goes; its chunk is
free when it needs none, and only then (`pool_destroys_each_object_once`).
-/

set_option autoImplicit false

namespace Jasl

open Library

/-! ## States and steps -/

/-- What became of a call of `get_shared`. -/
inductive PoolObject where
  | absent
  /-- The constructor runs. -/
  | constructing
  /-- The constructor has thrown. -/
  | threw
  | shared (control : ControlBlock)
deriving DecidableEq, Repr

/-- A constructor that returns, and a destructor that is called. -/
inductive PoolEntry where
  | constructed (serial : ℕ)
  | destroyed (serial : ℕ)
deriving DecidableEq, Repr

/-- A pool, and the calls of `get_shared` that came to a chunk, in order. -/
structure PoolWorld (type : ElementType) (maxNumberOfElements : BitVec 32) where
  pool : Pool type maxNumberOfElements
  made : ℕ := 0
  /-- The chunk that a call got. -/
  block : ℕ → ℕ := fun _ => 0
  object : ℕ → PoolObject := fun _ => .absent
  log : List PoolEntry := []

/-- A step of `get_shared`, or one with the pointers to an object. -/
inductive ObjectOp where
  /-- A chunk is taken, and the constructor called. -/
  | getShared
  /-- A chunk is taken, and there is no memory for its control block. -/
  | noMemory
  | constructed (serial : ℕ)
  | threw (serial : ℕ)
  /-- The constructor has returned, and there is no memory for the control block. -/
  | unshared (serial : ℕ)
  | pointer (serial : ℕ) (op : PointerOp)
deriving Repr

/-- Why a step is not taken: an assertion, or there is no such pointer or constructor. -/
inductive PoolHalt where
  | assertion
  | outOfTurn
deriving DecidableEq, Repr

/-- A chunk is there for it. -/
def PoolObject.holds : PoolObject → Bool
  | .absent | .threw => false
  | .constructing => true
  | .shared control => control.stage ≠ .freed

namespace PoolWorld

variable {type : ElementType} {maxNumberOfElements : BitVec 32}

/-- A pool before any call. -/
def create (pool : Pool type maxNumberOfElements) : PoolWorld type maxNumberOfElements where
  pool := pool

def setObject (w : PoolWorld type maxNumberOfElements) (serial : ℕ) (object : PoolObject) :
    PoolWorld type maxNumberOfElements :=
  { w with object := Function.update w.object serial object }

def note (w : PoolWorld type maxNumberOfElements) (entry : PoolEntry) :
    PoolWorld type maxNumberOfElements :=
  { w with log := entry :: w.log }

/-- A call gets a chunk, and calls the constructor. -/
def take (w : PoolWorld type maxNumberOfElements) (pool : Pool type maxNumberOfElements)
    (block : ℕ) : PoolWorld type maxNumberOfElements :=
  { w with
    pool
    made := w.made + 1
    block := Function.update w.block w.made block
    object := Function.update w.object w.made .constructing }

/-- The last pointer to a chunk goes. -/
def release (w : PoolWorld type maxNumberOfElements) (serial : ℕ) :
    PoolWorld type maxNumberOfElements :=
  { w with pool := Chunker.destroy w.pool (w.block serial) }

/-- The control block of an object changes; the deleter calls the destructor. -/
def setControl (w : PoolWorld type maxNumberOfElements) (serial : ℕ)
    (before after : ControlBlock) : PoolWorld type maxNumberOfElements :=
  let w := w.setObject serial (.shared after)
  let w := if ControlBlock.disposes before after then w.note (.destroyed serial) else w
  if after.stage = .freed then w.release serial else w

/-- One step. An exception is the caller's, who goes on. -/
def step (w : PoolWorld type maxNumberOfElements) :
    ObjectOp → Except PoolHalt (PoolWorld type maxNumberOfElements)
  | .getShared =>
      match Chunker.getShared w.pool (type.size.setWidth 64) with
      | (.ok block, pool) => .ok (w.take pool block)
      | (.error .assertion, _) => .error .assertion
      | (.error (.runtimeError _), pool) => .ok { w with pool }
  | .noMemory =>
      match Chunker.getShared w.pool (type.size.setWidth 64) with
      | (.ok block, pool) => .ok { w with pool := Chunker.destroy pool block }
      | (.error .assertion, _) => .error .assertion
      | (.error (.runtimeError _), pool) => .ok { w with pool }
  | .constructed serial =>
      if w.object serial = .constructing then
        .ok ((w.setObject serial (.shared .create)).note (.constructed serial))
      else .error .outOfTurn
  | .threw serial =>
      if w.object serial = .constructing then .ok ((w.setObject serial .threw).release serial)
      else .error .outOfTurn
  | .unshared serial =>
      if w.object serial = .constructing then
        .ok (((w.setObject serial (.shared .unmade)).note (.constructed serial)).note
          (.destroyed serial))
      else .error .outOfTurn
  | .pointer serial op =>
      match w.object serial with
      | .shared control =>
          match control.step op with
          | .ok after => .ok (w.setControl serial control after)
          | .error () => .error .outOfTurn
      | _ => .error .outOfTurn

/-- The calls that have a chunk. -/
def holding (w : PoolWorld type maxNumberOfElements) : List ℕ :=
  (List.range w.made).filter fun serial => (w.object serial).holds

/-- Where the object of a call begins. -/
def place (w : PoolWorld type maxNumberOfElements) (serial : ℕ) : ℕ :=
  Pool.offset type (w.block serial)

variable {w after : PoolWorld type maxNumberOfElements} {op : ObjectOp}

theorem setControl_eq (w : PoolWorld type maxNumberOfElements) (serial : ℕ)
    (before after : ControlBlock) :
    w.setControl serial before after =
      { w with
        pool :=
          if after.stage = .freed then Chunker.destroy w.pool (w.block serial) else w.pool
        object := Function.update w.object serial (.shared after)
        log :=
          (if ControlBlock.disposes before after then [.destroyed serial] else []) ++ w.log } := by
  rw [setControl]
  by_cases disposes : ControlBlock.disposes before after = true
  · by_cases freed : after.stage = .freed
    · simp only [if_pos disposes, if_pos freed]
      rfl
    · simp only [if_pos disposes, if_neg freed]
      rfl
  · by_cases freed : after.stage = .freed
    · simp only [if_neg disposes, if_pos freed]
      rfl
    · simp only [if_neg disposes, if_neg freed]
      rfl

/-- What a step can do. -/
inductive Stepped (w : PoolWorld type maxNumberOfElements) :
    ObjectOp → PoolWorld type maxNumberOfElements → Prop where
  | takes {block : ℕ} (first : w.pool.next = some block) :
      Stepped w .getShared (w.take { w.pool with next := w.pool.following block } block)
  | refused (op : ObjectOp) (full : w.pool.next = none) : Stepped w op w
  | givesBack {block : ℕ} (first : w.pool.next = some block) :
      Stepped w .noMemory
        { w with pool := Chunker.destroy { w.pool with next := w.pool.following block } block }
  | constructed {serial : ℕ} (constructing : w.object serial = .constructing) :
      Stepped w (.constructed serial)
        ((w.setObject serial (.shared .create)).note (.constructed serial))
  | threw {serial : ℕ} (constructing : w.object serial = .constructing) :
      Stepped w (.threw serial) ((w.setObject serial .threw).release serial)
  | unshared {serial : ℕ} (constructing : w.object serial = .constructing) :
      Stepped w (.unshared serial)
        (((w.setObject serial (.shared .unmade)).note (.constructed serial)).note
          (.destroyed serial))
  | pointer {serial : ℕ} {op : PointerOp} {before after : ControlBlock}
      (shared : w.object serial = .shared before) (stepped : before.step op = .ok after) :
      Stepped w (.pointer serial op) (w.setControl serial before after)

/-- `get_shared` of the chunker, with the size of the objects: it takes the first free chunk. -/
theorem getShared_cases (pool : Pool type maxNumberOfElements) :
    (∃ block, pool.next = some block ∧ Chunker.getShared pool (type.size.setWidth 64) =
        (.ok block, { pool with next := Chunker.following pool block })) ∨
      (pool.next = none ∧ Chunker.getShared pool (type.size.setWidth 64) =
        (.error (.runtimeError "unable to allocate chunk"), pool)) := by
  have size : (type.size.setWidth 64).toNat = type.size.toNat := by
    rw [BitVec.toNat_setWidth]
    exact Nat.mod_eq_of_lt (type.size.isLt.trans (by decide))
  have positive : type.size.setWidth 64 ≠ 0 := by
    intro zero
    rw [zero] at size
    exact absurd type.positive (by rw [← size]; decide)
  have fits : ¬ correctedChunkSize type.size < type.size.setWidth 64 := by
    rw [BitVec.lt_def, size, Nat.not_lt]
    exact (correctedChunkSize_spec type.positive).2.1
  rw [Chunker.getShared, if_neg positive, if_neg fits]
  cases first : pool.next with
  | none =>
      rw [Chunker.create_of_none first]
      exact .inr ⟨rfl, rfl⟩
  | some block =>
      rw [Chunker.create_of_some first]
      exact .inl ⟨block, rfl, rfl⟩

theorem step_eq_ok (stepped : w.step op = .ok after) : Stepped w op after := by
  cases op with
  | getShared =>
      rw [step] at stepped
      rcases getShared_cases w.pool with ⟨block, first, got⟩ | ⟨full, got⟩
      · rw [got] at stepped
        obtain rfl := Except.ok.inj stepped
        exact .takes first
      · rw [got] at stepped
        obtain rfl := Except.ok.inj stepped
        exact .refused _ full
  | noMemory =>
      rw [step] at stepped
      rcases getShared_cases w.pool with ⟨block, first, got⟩ | ⟨full, got⟩
      · rw [got] at stepped
        obtain rfl := Except.ok.inj stepped
        exact .givesBack first
      · rw [got] at stepped
        obtain rfl := Except.ok.inj stepped
        exact .refused _ full
  | constructed serial =>
      rw [step] at stepped
      split at stepped
      · rename_i constructing
        obtain rfl := Except.ok.inj stepped
        exact .constructed constructing
      · cases stepped
  | threw serial =>
      rw [step] at stepped
      split at stepped
      · rename_i constructing
        obtain rfl := Except.ok.inj stepped
        exact .threw constructing
      · cases stepped
  | unshared serial =>
      rw [step] at stepped
      split at stepped
      · rename_i constructing
        obtain rfl := Except.ok.inj stepped
        exact .unshared constructing
      · cases stepped
  | pointer serial op =>
      rw [step] at stepped
      split at stepped
      · rename_i shared
        split at stepped
        · rename_i moved
          obtain rfl := Except.ok.inj stepped
          exact .pointer shared moved
        · cases stepped
      · cases stepped

/-! ## The chunks that are taken -/

theorem mem_holding {serial : ℕ} :
    serial ∈ w.holding ↔ serial < w.made ∧ (w.object serial).holds = true := by
  rw [holding, List.mem_filter, List.mem_range]

theorem nodup_holding : w.holding.Nodup := List.nodup_range.filter _

/-- A change of an object that has its chunk before and after. -/
theorem holding_setObject {serial : ℕ} {object : PoolObject}
    (before : (w.object serial).holds = true) (behind : object.holds = true) :
    (w.setObject serial object).holding = w.holding := by
  apply List.filter_congr
  intro other _
  by_cases same : other = serial
  · rw [same, before]
    change PoolObject.holds (Function.update w.object serial object serial) = true
    rw [Function.update_self]
    exact behind
  · change PoolObject.holds (Function.update w.object serial object other) = _
    rw [Function.update_of_ne same]

/-- A change of an object that has no chunk any more. -/
theorem holding_perm {serial : ℕ} {object : PoolObject} (member : serial ∈ w.holding)
    (behind : object.holds = false) :
    w.holding.Perm (serial :: (w.setObject serial object).holding) := by
  have left : ∀ other, other ∈ (w.setObject serial object).holding ↔
      other ≠ serial ∧ other ∈ w.holding := by
    intro other
    rw [mem_holding, mem_holding]
    change _ ∧ PoolObject.holds (Function.update w.object serial object other) = true ↔ _
    by_cases same : other = serial
    · subst same
      rw [Function.update_self, behind]
      simp
    · rw [Function.update_of_ne same]
      exact (and_iff_right same).symm
  have gone : serial ∉ (w.setObject serial object).holding := fun there =>
    ((left serial).mp there).1 rfl
  have distinct := List.nodup_cons.mpr ⟨gone, nodup_holding⟩
  refine (List.perm_ext_iff_of_nodup nodup_holding distinct).mpr fun other => ?_
  rw [List.mem_cons, left]
  by_cases same : other = serial
  · subst same
    exact iff_of_true member (.inl rfl)
  · rw [or_iff_right same, and_iff_right same]

end PoolWorld

/-- The block is in the list of the free ones. -/
def Chunker.IsFree {maxChunks : BitVec 32} {correctedChunkSize : BitVec 64}
    (c : Chunker maxChunks correctedChunkSize) (block : ℕ) : Prop :=
  ∃ free, Chain c.following c.next free ∧ block ∈ free

/-- The order of the owned blocks does not matter. -/
theorem Chunker.Partitioned.perm {maxChunks : BitVec 32} {correctedChunkSize : BitVec 64}
    {c : Chunker maxChunks correctedChunkSize} {owned other : List ℕ}
    (parts : c.Partitioned owned) (same : owned.Perm other) : c.Partitioned other := by
  obtain ⟨free, chain, all⟩ := parts
  exact ⟨free, chain, (same.symm.append_left free).trans all⟩

/-- An owned block is one of the blocks. -/
theorem Chunker.Partitioned.lt_of_mem {maxChunks : BitVec 32} {correctedChunkSize : BitVec 64}
    {c : Chunker maxChunks correctedChunkSize} {owned : List ℕ} (parts : c.Partitioned owned)
    {block : ℕ} (member : block ∈ owned) : block < maxChunks.toNat := by
  obtain ⟨free, -, all⟩ := parts
  exact List.mem_range.mp (all.mem_iff.mp (List.mem_append_right free member))

/-- No block is free when as many are owned as there are. -/
theorem Chunker.Partitioned.next_eq_none_iff_length {maxChunks : BitVec 32}
    {correctedChunkSize : BitVec 64} {c : Chunker maxChunks correctedChunkSize} {owned : List ℕ}
    (parts : c.Partitioned owned) : c.next = none ↔ owned.length = maxChunks.toNat := by
  obtain ⟨free, chain, all⟩ := parts
  have lengths := all.length_eq
  rw [List.length_append, List.length_range] at lengths
  cases first : c.next with
  | none =>
      rw [first] at chain
      cases chain
      exact iff_of_true rfl (by rwa [List.length_nil, Nat.zero_add] at lengths)
  | some block =>
      rw [first] at chain
      cases chain with
      | cell _ =>
          refine iff_of_false (by rintro ⟨⟩) ?_
          rw [List.length_cons] at lengths
          omega

/-- A block is in the list of the free ones, or it is owned. -/
theorem Chunker.Partitioned.isFree_iff {maxChunks : BitVec 32} {correctedChunkSize : BitVec 64}
    {c : Chunker maxChunks correctedChunkSize} {owned : List ℕ} (parts : c.Partitioned owned)
    {block : ℕ} (inside : block < maxChunks.toNat) : c.IsFree block ↔ block ∉ owned := by
  obtain ⟨free, chain, all⟩ := parts
  have somewhere : block ∈ free ++ owned := all.mem_iff.mpr (List.mem_range.mpr inside)
  have apart := (List.nodup_append.mp (all.nodup_iff.mpr List.nodup_range)).2.2
  constructor
  · rintro ⟨other, walk, member⟩ there
    rw [walk.unique chain] at member
    exact apart block member block there rfl
  · intro unowned
    exact ⟨free, chain, (List.mem_append.mp somewhere).resolve_right unowned⟩

/-! ## The invariant -/

/-- How often the constructor of an object has returned. -/
def PoolObject.constructions : PoolObject → ℕ
  | .shared _ => 1
  | _ => 0

/-- How often the destructor of an object was called. -/
def PoolObject.destructions : PoolObject → ℕ
  | .shared control => if control.managed then 0 else 1
  | _ => 0

/-- The call that an entry is about. -/
def PoolEntry.serial : PoolEntry → ℕ
  | .constructed serial | .destroyed serial => serial

/-- The log is that of the objects. -/
structure LogMatches (object : ℕ → PoolObject) (log : List PoolEntry) : Prop where
  sound : ∀ serial control, object serial = .shared control → control.Sound
  constructions : ∀ serial, log.count (.constructed serial) = (object serial).constructions
  destructions : ∀ serial, log.count (.destroyed serial) = (object serial).destructions

/-- An object changes, with entries of its own. -/
theorem LogMatches.update {object : ℕ → PoolObject} {log entries : List PoolEntry} {serial : ℕ}
    {changed : PoolObject} (logMatches : LogMatches object log)
    (own : ∀ entry ∈ entries, entry.serial = serial)
    (sound : ∀ control, changed = .shared control → control.Sound)
    (constructions : entries.count (.constructed serial) + (object serial).constructions =
      changed.constructions)
    (destructions : entries.count (.destroyed serial) + (object serial).destructions =
      changed.destructions) :
    LogMatches (Function.update object serial changed) (entries ++ log) := by
  have others : ∀ entry : PoolEntry, entry.serial ≠ serial → entries.count entry = 0 :=
    fun entry other => List.count_eq_zero_of_not_mem fun member => other (own entry member)
  refine ⟨fun other => ?_, fun other => ?_, fun other => ?_⟩
  · by_cases same : other = serial
    · rw [same, Function.update_self]
      exact sound
    · rw [Function.update_of_ne same]
      exact logMatches.sound other
  · rw [List.count_append, logMatches.constructions]
    by_cases same : other = serial
    · rw [same, Function.update_self]
      exact constructions
    · rw [Function.update_of_ne same, others (.constructed other) same, Nat.zero_add]
  · rw [List.count_append, logMatches.destructions]
    by_cases same : other = serial
    · rw [same, Function.update_self]
      exact destructions
    · rw [Function.update_of_ne same, others (.destroyed other) same, Nat.zero_add]

namespace PoolWorld

variable {type : ElementType} {maxNumberOfElements : BitVec 32}

/-- The chunks of the objects and the free ones are all chunks, and the log is that of the
objects. -/
structure Proper (w : PoolWorld type maxNumberOfElements) : Prop where
  parts : Chunker.Partitioned w.pool (w.holding.map w.block)
  later : ∀ serial, w.made ≤ serial → w.object serial = .absent
  logMatches : LogMatches w.object w.log

namespace Proper

variable {w after : PoolWorld type maxNumberOfElements} {op : ObjectOp}

theorem create (nonzero : maxNumberOfElements ≠ 0) (raw : ℕ → BitVec 32) :
    Proper (PoolWorld.create (.init raw : Pool type maxNumberOfElements)) where
  parts := .init nonzero
  later := fun _ _ => rfl
  logMatches := ⟨by rintro _ _ ⟨⟩, fun _ => rfl, fun _ => rfl⟩

theorem member (proper : w.Proper) {serial : ℕ} (holds : (w.object serial).holds = true) :
    serial ∈ w.holding := by
  refine mem_holding.mpr ⟨?_, holds⟩
  by_contra beyond
  rw [proper.later serial (Nat.not_lt.mp beyond)] at holds
  cases holds

/-- An object that is there changes. -/
theorem later_setObject (proper : w.Proper) {serial : ℕ} (holds : (w.object serial).holds = true)
    (object : PoolObject) :
    ∀ other, w.made ≤ other → Function.update w.object serial object other = .absent := by
  intro other beyond
  have different : other ≠ serial := by
    rintro rfl
    exact absurd (mem_holding.mp (proper.member holds)).1 (Nat.not_lt.mpr beyond)
  rw [Function.update_of_ne different]
  exact proper.later other beyond

/-- Where an object has its chunk before and after, the chunks stay as they are. -/
theorem parts_setObject (proper : w.Proper) {serial : ℕ} {object : PoolObject}
    (before : (w.object serial).holds = true) (behind : object.holds = true) :
    Chunker.Partitioned w.pool ((w.setObject serial object).holding.map w.block) := by
  rw [holding_setObject before behind]
  exact proper.parts

/-- Where an object gives its chunk up, the chunk is free. -/
theorem parts_release (proper : w.Proper) {serial : ℕ} {object : PoolObject}
    (before : (w.object serial).holds = true) (behind : object.holds = false) :
    Chunker.Partitioned (Chunker.destroy w.pool (w.block serial))
      ((w.setObject serial object).holding.map w.block) := by
  have split := (holding_perm (proper.member before) behind).map w.block
  have owned : w.block serial ∈ w.holding.map w.block := List.mem_map_of_mem (proper.member before)
  refine (proper.parts.destroy owned).perm ?_
  refine (split.erase (w.block serial)).trans ?_
  rw [List.map_cons, List.erase_cons_head]

/-- A chunk is taken. -/
theorem takes (proper : w.Proper) {block : ℕ} (first : w.pool.next = some block) :
    (w.take { w.pool with next := w.pool.following block } block).Proper := by
  have new : w.made ∉ w.holding := fun member =>
    lt_irrefl _ (mem_holding.mp member).1
  have objects : ∀ other, other ≠ w.made →
      Function.update w.object w.made .constructing other = w.object other :=
    fun other different => Function.update_of_ne different _ _
  refine ⟨?_, ?_, ?_⟩
  · have holding : (w.take { w.pool with next := w.pool.following block } block).holding =
        w.holding ++ [w.made] := by
      change (List.range (w.made + 1)).filter _ = _
      rw [List.range_succ, List.filter_append, PoolWorld.holding]
      congr 1
      · apply List.filter_congr
        intro other member
        have different : other ≠ w.made := Nat.ne_of_lt (List.mem_range.mp member)
        exact congrArg PoolObject.holds (objects other different)
      · refine List.filter_eq_self.mpr ?_
        intro other member
        rw [List.mem_singleton.mp member]
        change PoolObject.holds (Function.update w.object w.made .constructing w.made) = true
        rw [Function.update_self]
        rfl
    have blocks : (w.holding ++ [w.made]).map (Function.update w.block w.made block) =
        w.holding.map w.block ++ [block] := by
      rw [List.map_append, List.map_singleton, Function.update_self]
      congr 1
      apply List.map_congr_left
      intro other member
      have different : other ≠ w.made := by
        rintro rfl
        exact new member
      rw [Function.update_of_ne different]
    rw [holding]
    refine (proper.parts.create first).perm ?_
    change (block :: w.holding.map w.block).Perm
      ((w.holding ++ [w.made]).map (Function.update w.block w.made block))
    rw [blocks]
    exact (List.perm_append_singleton block _).symm
  · intro other beyond
    rw [← proper.later other (Nat.le_of_succ_le beyond)]
    exact objects other (Nat.ne_of_gt beyond)
  · have absent := proper.later w.made le_rfl
    refine @LogMatches.update _ _ [] _ _ proper.logMatches ?_ ?_ ?_ ?_
    · intro entry member
      cases member
    · rintro control ⟨⟩
    · rw [absent]
      rfl
    · rw [absent]
      rfl

/-- A step with a pointer to an object. -/
theorem setControl (proper : w.Proper) {serial : ℕ} {before behind : ControlBlock}
    {op : PointerOp} (shared : w.object serial = .shared before)
    (moved : before.step op = .ok behind) : (w.setControl serial before behind).Proper := by
  have sound := proper.logMatches.sound serial before shared
  have holds : (w.object serial).holds = true := by
    rw [shared]
    exact decide_eq_true (sound.not_freed moved)
  rw [setControl_eq]
  refine ⟨?_, proper.later_setObject holds _, ?_⟩
  · by_cases freed : behind.stage = .freed
    · have gone : (PoolObject.shared behind).holds = false := by
        rw [PoolObject.holds, freed]
        rfl
      rw [if_pos freed]
      exact proper.parts_release holds gone
    · rw [if_neg freed]
      exact proper.parts_setObject holds (decide_eq_true freed)
  · refine @LogMatches.update _ _ (if ControlBlock.disposes before behind then _ else _) _ _
      proper.logMatches ?_ ?_ ?_ ?_
    · intro entry member
      split at member
      · rw [List.mem_singleton.mp member, PoolEntry.serial]
      · cases member
    · rintro control ⟨⟩
      exact sound.step moved
    · rw [shared]
      split
      · rfl
      · rfl
    · rw [shared]
      have kept := ControlBlock.managed_of_step moved
      by_cases managed : before.managed = true
      · by_cases later : behind.managed = true
        · simp [PoolObject.destructions, ControlBlock.disposes, managed, later]
        · simp [PoolObject.destructions, ControlBlock.disposes, managed, later]
      · have later : behind.managed ≠ true := fun later => managed (kept later)
        simp [PoolObject.destructions, ControlBlock.disposes, managed, later]

/-- **Every step keeps it.** -/
theorem step (proper : w.Proper) (stepped : w.step op = .ok after) : after.Proper := by
  cases step_eq_ok stepped with
  | @takes block first => exact proper.takes first
  | refused _ _ => exact proper
  | @givesBack block first =>
      refine ⟨?_, proper.later, proper.logMatches⟩
      have back := (proper.parts.create first).destroy List.mem_cons_self
      rw [List.erase_cons_head] at back
      exact back
  | @constructed serial constructing =>
      have holds : (w.object serial).holds = true := by
        rw [constructing]
        rfl
      refine ⟨proper.parts_setObject holds rfl, proper.later_setObject holds _, ?_⟩
      refine @LogMatches.update _ _ [.constructed serial] _ _ proper.logMatches ?_ ?_ ?_ ?_
      · intro entry member
        rw [List.mem_singleton.mp member, PoolEntry.serial]
      · rintro control ⟨⟩
        exact .create
      · rw [constructing, List.count_singleton_self]
        rfl
      · rw [constructing]
        rfl
  | @threw serial constructing =>
      have holds : (w.object serial).holds = true := by
        rw [constructing]
        rfl
      refine ⟨proper.parts_release holds rfl, proper.later_setObject holds _, ?_⟩
      refine @LogMatches.update _ _ [] _ _ proper.logMatches ?_ ?_ ?_ ?_
      · intro entry member
        cases member
      · rintro control ⟨⟩
      · rw [constructing]
        rfl
      · rw [constructing]
        rfl
  | @unshared serial constructing =>
      have holds : (w.object serial).holds = true := by
        rw [constructing]
        rfl
      refine ⟨proper.parts_setObject holds rfl, proper.later_setObject holds _, ?_⟩
      refine @LogMatches.update _ _ [.destroyed serial, .constructed serial] _ _ proper.logMatches
        ?_ ?_ ?_ ?_
      · intro entry member
        simp only [List.mem_cons, List.not_mem_nil, or_false] at member
        rcases member with rfl | rfl
        · rfl
        · rfl
      · rintro control ⟨⟩
        exact .unmade
      · rw [constructing]
        simp [PoolObject.constructions]
      · rw [constructing]
        simp [PoolObject.destructions, ControlBlock.managed, ControlBlock.unmade]
  | @pointer serial op before after shared moved => exact proper.setControl shared moved

theorem run (nonzero : maxNumberOfElements ≠ 0) {raw : ℕ → BitVec 32} {ops : List ObjectOp}
    (run : Run PoolWorld.step (fun _ _ => True)
      (.create (.init raw : Pool type maxNumberOfElements)) ops w) : w.Proper :=
  run.invariant Proper (.create nonzero raw) fun _ _ _ held _ returned => held.step returned

end Proper

end PoolWorld

/-! ## Objects are apart -/

/-- A block ends before the next one begins, with the object in it. -/
theorem Pool.offset_add_size_le (type : ElementType) {block next : ℕ} (before : block < next) :
    offset type block + type.size.toNat ≤ offset type next := by
  obtain ⟨-, fits, -⟩ := correctedChunkSize_spec type.positive
  have within : type.size.toNat ≤ sizeofBlock (correctedChunkSize type.size) := by
    rw [sizeofBlock]
    omega
  calc offset type block + type.size.toNat
      ≤ offset type block + sizeofBlock (correctedChunkSize type.size) := by omega
    _ = (block + 1) * sizeofBlock (correctedChunkSize type.size) := by
        rw [offset, Nat.add_mul, Nat.one_mul]
    _ ≤ offset type next := Nat.mul_le_mul_right _ before

/-- **The objects of a pool are apart, and it is exhausted when there is one for each chunk.** In
every state that any calls lead to, whatever constructors throw and whatever pointers are kept: the
objects that have a chunk lie in the memory of the pool and do not overlap; and `get_shared` throws
if and only if there are as many of them as chunks. Among these are objects that are destroyed,
as long as a weak pointer is left. -/
theorem pool_objects_are_apart {type : ElementType} {maxNumberOfElements : BitVec 32}
    (nonzero : maxNumberOfElements ≠ 0) {raw : ℕ → BitVec 32} {ops : List ObjectOp}
    {w : PoolWorld type maxNumberOfElements}
    (run : Run PoolWorld.step (fun _ _ => True)
      (.create (.init raw : Pool type maxNumberOfElements)) ops w) :
    (∀ first second, first ≠ second → (w.object first).holds = true →
        (w.object second).holds = true →
          w.place first + type.size.toNat ≤ w.place second ∨
            w.place second + type.size.toNat ≤ w.place first) ∧
      (∀ serial, (w.object serial).holds = true →
        w.place serial + type.size.toNat ≤
          maxNumberOfElements.toNat * sizeofBlock (correctedChunkSize type.size)) ∧
      ((∀ place, w.pool.getShared.1 ≠ .ok place) ↔
        w.holding.length = maxNumberOfElements.toNat) := by
  have proper : w.Proper := PoolWorld.Proper.run nonzero run
  refine ⟨fun first second different inFirst inSecond => ?_, fun serial holds => ?_, ?_⟩
  · have apart : w.block first ≠ w.block second := by
      intro same
      refine different (List.inj_on_of_nodup_map proper.parts.nodup ?_ ?_ same)
      · exact proper.member inFirst
      · exact proper.member inSecond
    rcases Nat.lt_or_gt_of_ne apart with before | before
    · exact .inl (Pool.offset_add_size_le type before)
    · exact .inr (Pool.offset_add_size_le type before)
  · exact Pool.offset_add_size_le type
      (proper.parts.lt_of_mem (List.mem_map_of_mem (proper.member holds)))
  · rw [← List.length_map (f := w.block), ← proper.parts.next_eq_none_iff_length]
    rcases PoolWorld.getShared_cases w.pool with ⟨block, first, got⟩ | ⟨full, got⟩
    · rw [Pool.getShared, got, first]
      exact iff_of_false (fun never => never _ rfl) (by rintro ⟨⟩)
    · rw [Pool.getShared, got, full]
      exact iff_of_true (by rintro _ ⟨⟩) rfl

/-- The last handle of an object goes while a weak pointer is left, so the only chunk is taken until
that goes as well. -/
def weakOps : List ObjectOp :=
  [.getShared, .constructed 0, .pointer 0 .observe, .pointer 0 .drop, .pointer 0 .finish,
    .getShared]

def onePool : PoolWorld Pool.word 1 := .create (.init fun _ => 0)

def weakPool : PoolWorld Pool.word 1 :=
  (checkedRun PoolWorld.step (fun _ _ => True) onePool weakOps).get (by decide +kernel)

theorem pool_objects_are_apart_weak :
    (∀ place, weakPool.pool.getShared.1 ≠ .ok place) ∧ weakPool.holding = [0] :=
  have run : Run PoolWorld.step (fun _ _ => True) onePool weakOps weakPool := Run.of_isSome _
  ⟨(pool_objects_are_apart (by decide) run).2.2.mpr (by decide +kernel), by decide +kernel⟩

/-! ## Objects are destroyed once -/

/-- What a chunk is kept for: a constructor or a destructor that runs, a handle, or a weak
pointer. -/
def PoolObject.Needed : PoolObject → Prop
  | .absent | .threw => False
  | .constructing => True
  | .shared control =>
      (∃ handles, control.stage = .managing handles ∧ 1 ≤ handles) ∨ control.stage = .disposing ∨
        (control.stage = .disposed ∧ control.observers ≠ 0)

namespace PoolWorld.Proper

variable {type : ElementType} {maxNumberOfElements : BitVec 32}
  {w : PoolWorld type maxNumberOfElements}

/-- An object has its chunk as long as it needs it. -/
theorem holds_iff_needed (proper : w.Proper) (serial : ℕ) :
    (w.object serial).holds = true ↔ (w.object serial).Needed := by
  cases object : w.object serial with
  | absent | threw => exact iff_of_false Bool.false_ne_true not_false
  | constructing => exact iff_of_true rfl trivial
  | shared control =>
      have sound := proper.logMatches.sound serial control object
      obtain ⟨stage, observers⟩ := control
      cases stage with
      | managing handles => exact iff_of_true rfl (.inl ⟨handles, rfl, sound.handles handles rfl⟩)
      | disposing => exact iff_of_true rfl (.inr (.inl rfl))
      | disposed => exact iff_of_true rfl (.inr (.inr ⟨rfl, sound.observed rfl⟩))
      | freed =>
          refine iff_of_false Bool.false_ne_true ?_
          rintro (⟨_, ⟨⟩, _⟩ | ⟨⟨⟩⟩ | ⟨⟨⟩, _⟩)

/-- An object is constructed and not destroyed as long as there is a handle. -/
theorem once (proper : w.Proper) (serial : ℕ) :
    w.log.count (.constructed serial) ≤ 1 ∧
      w.log.count (.destroyed serial) ≤ w.log.count (.constructed serial) ∧
      (w.log.count (.destroyed serial) < w.log.count (.constructed serial) ↔
        ∃ control handles, w.object serial = .shared control ∧
          control.stage = .managing handles ∧ 1 ≤ handles) := by
  rw [proper.logMatches.constructions, proper.logMatches.destructions]
  cases object : w.object serial with
  | absent | threw | constructing =>
      refine ⟨Nat.zero_le _, le_rfl, iff_of_false (lt_irrefl _) ?_⟩
      rintro ⟨_, _, ⟨⟩, _⟩
  | shared control =>
      have sound := proper.logMatches.sound serial control object
      obtain ⟨stage, observers⟩ := control
      cases stage with
      | managing handles =>
          exact ⟨le_rfl, Nat.zero_le _, iff_of_true Nat.zero_lt_one
            ⟨_, handles, rfl, rfl, sound.handles handles rfl⟩⟩
      | disposing | disposed | freed =>
          refine ⟨le_rfl, le_rfl, iff_of_false (lt_irrefl _) ?_⟩
          rintro ⟨_, _, ⟨⟩, ⟨⟩, _⟩

/-- The chunk of an object that needs it is not free. -/
theorem not_isFree_of_needed (proper : w.Proper) {serial : ℕ}
    (needed : (w.object serial).Needed) :
    w.block serial < maxNumberOfElements.toNat ∧ ¬ Chunker.IsFree w.pool (w.block serial) := by
  have owned : w.block serial ∈ w.holding.map w.block :=
    List.mem_map_of_mem (proper.member ((proper.holds_iff_needed serial).mpr needed))
  have inside := proper.parts.lt_of_mem owned
  exact ⟨inside, fun free => (proper.parts.isFree_iff inside).mp free owned⟩

/-- A chunk that is not free belongs to one object, which needs it. -/
theorem existsUnique_of_not_isFree (proper : w.Proper) {block : ℕ}
    (inside : block < maxNumberOfElements.toNat) (taken : ¬ Chunker.IsFree w.pool block) :
    ∃! serial, (w.object serial).Needed ∧ w.block serial = block := by
  rw [proper.parts.isFree_iff inside, not_not] at taken
  obtain ⟨serial, member, rfl⟩ := List.mem_map.mp taken
  have holds := (mem_holding.mp member).2
  refine ⟨serial, ⟨(proper.holds_iff_needed serial).mp holds, rfl⟩, ?_⟩
  rintro other ⟨needed, same⟩
  have also := proper.member ((proper.holds_iff_needed other).mpr needed)
  exact List.inj_on_of_nodup_map proper.parts.nodup also member same

end PoolWorld.Proper

/-- **An object of a pool is destroyed once, when its last handle goes, and then its chunk is
released.** In every state that any calls lead to, an object was constructed once at most, and
destroyed at most as often; it is constructed and not destroyed if and only if there is a handle. As
long as a constructor or a destructor of it runs, or there is a handle or a weak pointer, its chunk
is not in the list of the free ones; and every other chunk is. -/
theorem pool_destroys_each_object_once {type : ElementType} {maxNumberOfElements : BitVec 32}
    (nonzero : maxNumberOfElements ≠ 0) {raw : ℕ → BitVec 32} {ops : List ObjectOp}
    {w : PoolWorld type maxNumberOfElements}
    (run : Run PoolWorld.step (fun _ _ => True)
      (.create (.init raw : Pool type maxNumberOfElements)) ops w) :
    (∀ serial, w.log.count (.constructed serial) ≤ 1 ∧
      w.log.count (.destroyed serial) ≤ w.log.count (.constructed serial) ∧
      (w.log.count (.destroyed serial) < w.log.count (.constructed serial) ↔
        ∃ control handles, w.object serial = .shared control ∧
          control.stage = .managing handles ∧ 1 ≤ handles) ∧
      ((w.object serial).Needed → w.block serial < maxNumberOfElements.toNat ∧
        ¬ Chunker.IsFree w.pool (w.block serial))) ∧
      ∀ block < maxNumberOfElements.toNat, ¬ Chunker.IsFree w.pool block →
        ∃! serial, (w.object serial).Needed ∧ w.block serial = block := by
  have proper := PoolWorld.Proper.run nonzero run
  refine ⟨fun serial => ?_, fun block inside taken => ?_⟩
  · obtain ⟨constructed, destroyed, handles⟩ := proper.once serial
    exact ⟨constructed, destroyed, handles, proper.not_isFree_of_needed⟩
  · exact proper.existsUnique_of_not_isFree inside taken

theorem pool_destroys_each_object_once_weak :
    weakPool.log.count (.destroyed 0) ≤ weakPool.log.count (.constructed 0) ∧
      ¬ Chunker.IsFree weakPool.pool (weakPool.block 0) :=
  have run : Run PoolWorld.step (fun _ _ => True) onePool weakOps weakPool := Run.of_isSome _
  have object := (pool_destroys_each_object_once (by decide) run).1 0
  ⟨object.2.1, (object.2.2.2 (.inr (.inr (by decide +kernel)))).2⟩

end Jasl
