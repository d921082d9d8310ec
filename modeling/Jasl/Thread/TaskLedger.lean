import Jasl.Thread.Worker
import Mathlib.Data.List.Nodup
import Mathlib.Logic.Relation

/-!
# The ledger of tasks

What a pool is for, without threads and queues: tasks are offered, each by a
numbered call; an open call may place its task at one worker, and is closed with
whether it has. A worker that has got a stop request gets no more.

What follows (`TaskLedger.Sound`): a task is placed at most once, and at one worker; a
call that is closed with true has placed its task, and one that is closed with
false has not and will not; and a stop request is the last that a worker gets.
-/

set_option autoImplicit false

namespace Jasl

open Library

universe u v

/-- The calls of `κ` and what the workers of `π` have got. -/
@[ext]
structure TaskLedger (κ : Type u) (π : Type v) where
  /-- The number of calls so far. -/
  calls : ℕ
  /-- The open call of each caller, and whether it has placed its task. -/
  current : κ → Option (ℕ × Bool)
  placed : π → List (Request ℕ)
  /-- The calls that are closed. -/
  returned : List (ℕ × Bool)

namespace TaskLedger

variable {κ : Type u} {π : Type v}

def empty : TaskLedger κ π := ⟨0, fun _ => none, fun _ => [], []⟩

/-- What may happen to a ledger. -/
inductive Step [DecidableEq κ] [DecidableEq π] (l : TaskLedger κ π) : TaskLedger κ π → Prop where
  | offer {caller : κ} (free : l.current caller = none) :
      Step l
        { l with
          calls := l.calls + 1
          current := Function.update l.current caller (some (l.calls, false)) }
  | place {caller : κ} {call : ℕ} {id : π} (mine : l.current caller = some (call, false))
      (unstopped : Request.stop ∉ l.placed id) :
      Step l
        { l with
          current := Function.update l.current caller (some (call, true))
          placed := Function.update l.placed id (l.placed id ++ [.task call]) }
  | close {caller : κ} {call : ℕ} {result : Bool}
      (mine : l.current caller = some (call, result)) :
      Step l
        { l with
          current := Function.update l.current caller none
          returned := l.returned ++ [(call, result)] }
  | stop {id : π} (unstopped : Request.stop ∉ l.placed id) :
      Step l { l with placed := Function.update l.placed id (l.placed id ++ [.stop]) }

/-- One step, or none. -/
abbrev Moves [DecidableEq κ] [DecidableEq π] (l after : TaskLedger κ π) : Prop :=
  Relation.ReflGen Step l after

/-- What matters of a ledger is its entries. -/
theorem Moves.of_eq [DecidableEq κ] [DecidableEq π] {l middle after : TaskLedger κ π}
    (moves : l.Moves middle) (calls : after.calls = middle.calls)
    (current : after.current = middle.current) (placed : after.placed = middle.placed)
    (returned : after.returned = middle.returned) : l.Moves after := by
  rw [TaskLedger.ext calls current placed returned]
  exact moves

/-- A task is placed somewhere. -/
def IsPlaced (l : TaskLedger κ π) (call : ℕ) : Prop := ∃ id, Request.task call ∈ l.placed id

/-- The books are in order. -/
structure Sound (l : TaskLedger κ π) : Prop where
  once : ∀ id, (l.placed id).Nodup
  somewhere : ∀ id other call, Request.task call ∈ l.placed id →
    Request.task call ∈ l.placed other → id = other
  known : ∀ call, l.IsPlaced call → call < l.calls
  numbered : ∀ caller call result, l.current caller = some (call, result) → call < l.calls
  own : ∀ caller other call result another, l.current caller = some (call, result) →
    l.current other = some (call, another) → caller = other
  current : ∀ caller call result, l.current caller = some (call, result) →
    (result = true ↔ l.IsPlaced call)
  returned : ∀ call result, (call, result) ∈ l.returned →
    (result = true ↔ l.IsPlaced call) ∧ call < l.calls ∧
      ∀ caller other, l.current caller ≠ some (call, other)
  stopped : ∀ id, Request.stop ∈ l.placed id → (l.placed id).getLast? = some .stop

namespace Sound

variable {l after : TaskLedger κ π}

theorem empty : Sound (.empty : TaskLedger κ π) where
  once := fun _ => List.nodup_nil
  somewhere := nofun
  known := nofun
  numbered := nofun
  own := nofun
  current := nofun
  returned := nofun
  stopped := nofun

/-- A worker that has taken a stop request has nothing left. -/
theorem eq_of_prefix (sound : l.Sound) {id : π} {taken : List (Request ℕ)}
    (prefix_ : taken <+: l.placed id) (ends : Request.stop ∈ taken) : taken = l.placed id := by
  obtain ⟨rest, all⟩ := prefix_
  have last := sound.stopped id (by rw [← all]; exact List.mem_append_left _ ends)
  have once := sound.once id
  rw [← all] at last once ⊢
  rcases List.eq_nil_or_concat rest with rfl | ⟨earlier, final, rfl⟩
  · exact (List.append_nil _).symm
  · rw [List.concat_eq_append, ← List.append_assoc, List.getLast?_concat,
      Option.some.injEq] at last
    subst last
    have twice := (List.nodup_append.mp once).2.2
    exact absurd rfl (twice _ ends _ (by simp))

section Calls

variable [DecidableEq κ]

theorem offer (sound : l.Sound) {caller : κ} (free : l.current caller = none) :
    Sound
      { l with
        calls := l.calls + 1
        current := Function.update l.current caller (some (l.calls, false)) } := by
  have fresh : ¬ l.IsPlaced l.calls := fun placed => Nat.lt_irrefl _ (sound.known _ placed)
  have cases_ : ∀ {other call result},
      Function.update l.current caller (some (l.calls, false)) other = some (call, result) →
      (other = caller ∧ call = l.calls ∧ result = false) ∨
        (other ≠ caller ∧ l.current other = some (call, result)) := by
    intro other call result now
    by_cases same : other = caller
    · rw [same, Function.update_self, Option.some.injEq, Prod.mk.injEq] at now
      exact .inl ⟨same, now.1.symm, now.2.symm⟩
    · rw [Function.update_of_ne same] at now
      exact .inr ⟨same, now⟩
  refine ⟨sound.once, sound.somewhere, ?_, ?_, ?_, ?_, ?_, sound.stopped⟩
  · exact fun call placed => Nat.lt_succ_of_lt (sound.known call placed)
  · intro other call result now
    rcases cases_ now with ⟨-, rfl, -⟩ | ⟨-, before⟩
    · exact Nat.lt_succ_self _
    · exact Nat.lt_succ_of_lt (sound.numbered _ _ _ before)
  · intro first second call result another firstNow secondNow
    rcases cases_ firstNow with ⟨rfl, rfl, -⟩ | ⟨-, firstBefore⟩
    · rcases cases_ secondNow with ⟨rfl, -, -⟩ | ⟨-, secondBefore⟩
      · rfl
      · exact absurd (sound.numbered _ _ _ secondBefore) (Nat.lt_irrefl _)
    · rcases cases_ secondNow with ⟨-, rfl, -⟩ | ⟨-, secondBefore⟩
      · exact absurd (sound.numbered _ _ _ firstBefore) (Nat.lt_irrefl _)
      · exact sound.own _ _ _ _ _ firstBefore secondBefore
  · intro other call result now
    rcases cases_ now with ⟨-, rfl, rfl⟩ | ⟨-, before⟩
    · exact iff_of_false nofun fresh
    · exact sound.current _ _ _ before
  · intro call result closed
    obtain ⟨placed, old, nobody⟩ := sound.returned call result closed
    refine ⟨placed, Nat.lt_succ_of_lt old, ?_⟩
    intro other another now
    rcases cases_ now with ⟨-, rfl, -⟩ | ⟨-, before⟩
    · exact Nat.lt_irrefl _ old
    · exact nobody _ _ before

theorem close (sound : l.Sound) {caller : κ} {call : ℕ} {result : Bool}
    (mine : l.current caller = some (call, result)) :
    Sound
      { l with
        current := Function.update l.current caller none
        returned := l.returned ++ [(call, result)] } := by
  have cases_ : ∀ {other next result},
      Function.update l.current caller none other = some (next, result) →
      other ≠ caller ∧ l.current other = some (next, result) := by
    intro other next result now
    by_cases same : other = caller
    · rw [same, Function.update_self] at now
      cases now
    · rw [Function.update_of_ne same] at now
      exact ⟨same, now⟩
  refine ⟨sound.once, sound.somewhere, sound.known, ?_, ?_, ?_, ?_, sound.stopped⟩
  · exact fun other next result now => sound.numbered _ _ _ (cases_ now).2
  · exact fun first second next result another firstNow secondNow =>
      sound.own _ _ _ _ _ (cases_ firstNow).2 (cases_ secondNow).2
  · exact fun other next result now => sound.current _ _ _ (cases_ now).2
  · intro next another closed
    rcases List.mem_append.mp closed with before | last
    · obtain ⟨was, old, nobody⟩ := sound.returned next another before
      exact ⟨was, old, fun other result now => nobody _ _ (cases_ now).2⟩
    · rw [List.mem_singleton, Prod.mk.injEq] at last
      obtain ⟨rfl, rfl⟩ := last
      refine ⟨sound.current _ _ _ mine, sound.numbered _ _ _ mine, ?_⟩
      intro other result now
      obtain ⟨different, before⟩ := cases_ now
      exact different (sound.own _ _ _ _ _ before mine)

end Calls

section Workers

variable [DecidableEq π]

/-- What stands at a worker that has got one more request. -/
theorem mem_update {id other : π} {request found : Request ℕ} :
    found ∈ Function.update l.placed id (l.placed id ++ [request]) other ↔
      found ∈ l.placed other ∨ (other = id ∧ found = request) := by
  by_cases same : other = id
  · subst same
    rw [Function.update_self, List.mem_append, List.mem_singleton]
    simp
  · rw [Function.update_of_ne same]
    simp [same]

theorem stop (sound : l.Sound) {id : π} (unstopped : Request.stop ∉ l.placed id) :
    Sound { l with placed := Function.update l.placed id (l.placed id ++ [.stop]) } := by
  have task : ∀ {other call},
      Request.task call ∈ Function.update l.placed id (l.placed id ++ [.stop]) other ↔
        Request.task call ∈ l.placed other := by
    intro other call
    rw [mem_update]
    simp
  have placed : ∀ call,
      IsPlaced { l with placed := Function.update l.placed id (l.placed id ++ [.stop]) } call ↔
        l.IsPlaced call := by
    intro call
    simp only [IsPlaced, task]
  refine ⟨?_, ?_, ?_, sound.numbered, sound.own, ?_, ?_, ?_⟩
  · intro other
    change (Function.update l.placed id (l.placed id ++ [.stop]) other).Nodup
    by_cases same : other = id
    · rw [same, Function.update_self]
      refine (sound.once id).append (List.nodup_singleton _) ?_
      rw [List.disjoint_singleton]
      exact unstopped
    · rw [Function.update_of_ne same]
      exact sound.once other
  · exact fun first second call firstPlaced secondPlaced =>
      sound.somewhere _ _ _ (task.mp firstPlaced) (task.mp secondPlaced)
  · exact fun call isPlaced => sound.known _ ((placed call).mp isPlaced)
  · intro caller call result now
    rw [placed]
    exact sound.current _ _ _ now
  · intro call result closed
    rw [placed]
    exact sound.returned _ _ closed
  · intro other stopped
    change (Function.update l.placed id (l.placed id ++ [.stop]) other).getLast? = some .stop
    by_cases same : other = id
    · rw [same, Function.update_self, List.getLast?_concat]
    · rw [Function.update_of_ne same]
      exact sound.stopped other ((mem_update.mp stopped).resolve_right fun here => same here.1)

end Workers

variable [DecidableEq κ] [DecidableEq π]

theorem place (sound : l.Sound) {caller : κ} {call : ℕ} {id : π}
    (mine : l.current caller = some (call, false)) (unstopped : Request.stop ∉ l.placed id) :
    Sound
      { l with
        current := Function.update l.current caller (some (call, true))
        placed := Function.update l.placed id (l.placed id ++ [.task call]) } := by
  have unplaced : ¬ l.IsPlaced call :=
    fun placed => Bool.false_ne_true ((sound.current _ _ _ mine).mpr placed)
  have placed : ∀ other, IsPlaced
      { l with
        current := Function.update l.current caller (some (call, true))
        placed := Function.update l.placed id (l.placed id ++ [.task call]) } other ↔
        l.IsPlaced other ∨ other = call := by
    intro other
    simp only [IsPlaced, mem_update, Request.task.injEq]
    constructor
    · rintro ⟨at_, before | ⟨-, same⟩⟩
      · exact .inl ⟨at_, before⟩
      · exact .inr same
    · rintro (⟨at_, before⟩ | same)
      · exact ⟨at_, .inl before⟩
      · exact ⟨id, .inr ⟨rfl, same⟩⟩
  have cases_ : ∀ {other next result},
      Function.update l.current caller (some (call, true)) other = some (next, result) →
      (other = caller ∧ next = call ∧ result = true) ∨
        (other ≠ caller ∧ next ≠ call ∧ l.current other = some (next, result)) := by
    intro other next result now
    by_cases same : other = caller
    · rw [same, Function.update_self, Option.some.injEq, Prod.mk.injEq] at now
      exact .inl ⟨same, now.1.symm, now.2.symm⟩
    · rw [Function.update_of_ne same] at now
      exact .inr ⟨same, fun another => same (sound.own _ _ _ _ _ (another ▸ now) mine), now⟩
  refine ⟨?_, ?_, ?_, ?_, ?_, ?_, ?_, ?_⟩
  · intro other
    change (Function.update l.placed id (l.placed id ++ [.task call]) other).Nodup
    by_cases same : other = id
    · rw [same, Function.update_self]
      refine (sound.once id).append (List.nodup_singleton _) ?_
      rw [List.disjoint_singleton]
      exact fun already => unplaced ⟨id, already⟩
    · rw [Function.update_of_ne same]
      exact sound.once other
  · intro first second other firstPlaced secondPlaced
    rcases mem_update.mp firstPlaced with before | ⟨here, same⟩
    · rcases mem_update.mp secondPlaced with also | ⟨-, same⟩
      · exact sound.somewhere _ _ _ before also
      · obtain rfl := Request.task.inj same
        exact absurd ⟨first, before⟩ unplaced
    · obtain rfl := Request.task.inj same
      rcases mem_update.mp secondPlaced with also | ⟨there, -⟩
      · exact absurd ⟨second, also⟩ unplaced
      · rw [here, there]
  · intro other isPlaced
    rcases (placed other).mp isPlaced with before | rfl
    · exact sound.known _ before
    · exact sound.numbered _ _ _ mine
  · intro other next result now
    rcases cases_ now with ⟨-, rfl, -⟩ | ⟨-, -, before⟩
    · exact sound.numbered _ _ _ mine
    · exact sound.numbered _ _ _ before
  · intro first second next result another firstNow secondNow
    rcases cases_ firstNow with ⟨rfl, rfl, -⟩ | ⟨-, different, firstBefore⟩
    · rcases cases_ secondNow with ⟨rfl, -, -⟩ | ⟨-, different, -⟩
      · rfl
      · exact absurd rfl different
    · rcases cases_ secondNow with ⟨-, rfl, -⟩ | ⟨-, -, secondBefore⟩
      · exact absurd rfl different
      · exact sound.own _ _ _ _ _ firstBefore secondBefore
  · intro other next result now
    rw [placed]
    rcases cases_ now with ⟨-, rfl, rfl⟩ | ⟨-, different, before⟩
    · exact iff_of_true rfl (.inr rfl)
    · rw [sound.current _ _ _ before]
      exact ⟨.inl, fun either => either.resolve_right different⟩
  · intro next result closed
    obtain ⟨was, old, nobody⟩ := sound.returned next result closed
    have different : next ≠ call := fun same => nobody caller false (same ▸ mine)
    refine ⟨?_, old, ?_⟩
    · rw [placed, was]
      exact ⟨.inl, fun either => either.resolve_right different⟩
    · intro other another now
      rcases cases_ now with ⟨-, rfl, -⟩ | ⟨-, -, before⟩
      · exact different rfl
      · exact nobody _ _ before
  · intro other stop
    rcases mem_update.mp stop with before | ⟨-, same⟩
    · by_cases here : other = id
      · exact absurd (here ▸ before) unstopped
      · change (Function.update l.placed id _ other).getLast? = some .stop
        rw [Function.update_of_ne here]
        exact sound.stopped other before
    · cases same

/-- **What happens to a ledger keeps it sound.** -/
theorem step (sound : l.Sound) (stepped : l.Step after) : after.Sound := by
  cases stepped with
  | offer free => exact sound.offer free
  | place mine unstopped => exact sound.place mine unstopped
  | close mine => exact sound.close mine
  | stop unstopped => exact sound.stop unstopped

theorem moves (sound : l.Sound) (moves : l.Moves after) : after.Sound := by
  cases moves with
  | refl => exact sound
  | single stepped => exact sound.step stepped

end Sound

end TaskLedger

end Jasl
