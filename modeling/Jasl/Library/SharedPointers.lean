import Mathlib.Tactic.Common

/-!
# Shared pointers

The control block of an object that shared pointers manage: how many handles there are
and how many observers (weak pointers), and where the object stands (`Stage`). The
last handle that goes calls the disposer, once, and what the block holds for it is
let go of when the disposer has returned and no observer is left. An observer that is
locked gives a handle if and only if there is one.

What has no handle never has one again (`ControlBlock.managed_of_step`), and nothing is
done with a block that is freed (`ControlBlock.Sound.not_freed`).
-/

set_option autoImplicit false

namespace Jasl.Library

/-- Where a managed object stands. -/
inductive Stage where
  | managing (handles : ℕ)
  /-- The disposer runs. -/
  | disposing
  /-- The disposer has returned, and there are observers. -/
  | disposed
  | freed
deriving DecidableEq, Repr

/-- A control block. -/
structure ControlBlock where
  stage : Stage
  observers : ℕ := 0
deriving DecidableEq, Repr

/-- What is done with the pointers to an object, and the return of the disposer. -/
inductive PointerOp where
  | copy
  | drop
  | observe
  | forget
  | lock
  | finish
deriving DecidableEq, Repr

namespace ControlBlock

/-- The block of a first handle. -/
def create : ControlBlock := ⟨.managing 1, 0⟩

/-- There was no memory for the block: the disposer is called at once. -/
def unmade : ControlBlock := ⟨.disposing, 0⟩

/-- One step, if there is a pointer for it. -/
def step (block : ControlBlock) : PointerOp → Except Unit ControlBlock
  | .copy =>
      match block.stage with
      | .managing handles => .ok { block with stage := .managing (handles + 1) }
      | _ => .error ()
  | .drop =>
      match block.stage with
      | .managing handles => .ok
          { block with stage := if handles ≤ 1 then .disposing else .managing (handles - 1) }
      | _ => .error ()
  | .observe =>
      match block.stage with
      | .managing _ => .ok { block with observers := block.observers + 1 }
      | _ =>
          if block.observers = 0 then .error ()
          else .ok { block with observers := block.observers + 1 }
  | .forget =>
      if block.observers = 0 then .error ()
      else .ok
        { stage :=
            if block.stage = .disposed ∧ block.observers = 1 then .freed else block.stage
          observers := block.observers - 1 }
  | .lock =>
      if block.observers = 0 then .error ()
      else
        match block.stage with
        | .managing handles => .ok { block with stage := .managing (handles + 1) }
        | _ => .ok block
  | .finish =>
      if block.stage = .disposing then .ok
        { block with stage := if block.observers = 0 then .freed else .disposed }
      else .error ()

/-- There are handles. -/
def managed (block : ControlBlock) : Bool :=
  match block.stage with
  | .managing _ => true
  | _ => false

/-- The disposer is called. -/
def disposes (before after : ControlBlock) : Bool := before.managed && !after.managed

/-- The counts fit the stage. -/
structure Sound (block : ControlBlock) : Prop where
  handles : ∀ handles, block.stage = .managing handles → 1 ≤ handles
  observed : block.stage = .disposed → block.observers ≠ 0
  forgotten : block.stage = .freed → block.observers = 0

theorem Sound.create : ControlBlock.create.Sound where
  handles := by
    rintro handles ⟨⟩
    exact Nat.le_refl 1
  observed := by rintro ⟨⟩
  forgotten := by rintro ⟨⟩

theorem Sound.unmade : ControlBlock.unmade.Sound where
  handles := by rintro handles ⟨⟩
  observed := by rintro ⟨⟩
  forgotten := by rintro ⟨⟩

variable {block after : ControlBlock} {op : PointerOp}

/-- What a step can do. -/
inductive Stepped (block : ControlBlock) : PointerOp → ControlBlock → Prop where
  | gains {handles : ℕ} (op : PointerOp) (managing : block.stage = .managing handles) :
      Stepped block op { block with stage := .managing (handles + 1) }
  | loses {handles : ℕ} (managing : block.stage = .managing handles) (more : 1 < handles) :
      Stepped block .drop { block with stage := .managing (handles - 1) }
  | disposes {handles : ℕ} (managing : block.stage = .managing handles) (last : handles ≤ 1) :
      Stepped block .drop { block with stage := .disposing }
  | observes (open_ : (∃ handles, block.stage = .managing handles) ∨ block.observers ≠ 0) :
      Stepped block .observe { block with observers := block.observers + 1 }
  | forgets (observed : block.observers ≠ 0)
      (stays : ¬ (block.stage = .disposed ∧ block.observers = 1)) :
      Stepped block .forget { block with observers := block.observers - 1 }
  | misses (observed : block.observers ≠ 0) : Stepped block .lock block
  | finishes (disposing : block.stage = .disposing) (observed : block.observers ≠ 0) :
      Stepped block .finish { block with stage := .disposed }
  | frees (op : PointerOp) (past : block.stage = .disposing ∨ block.stage = .disposed) :
      Stepped block op ⟨.freed, 0⟩

theorem step_eq_ok (stepped : block.step op = .ok after) : Stepped block op after := by
  cases op with
  | copy =>
      rw [step] at stepped
      split at stepped
      · rename_i managing
        obtain rfl := Except.ok.inj stepped
        exact .gains _ managing
      · cases stepped
  | drop =>
      rw [step] at stepped
      split at stepped
      · rename_i handles managing
        obtain rfl := Except.ok.inj stepped
        by_cases last : handles ≤ 1
        · rw [if_pos last]
          exact .disposes managing last
        · rw [if_neg last]
          exact .loses managing (Nat.lt_of_not_le last)
      · cases stepped
  | observe =>
      rw [step] at stepped
      split at stepped
      · rename_i managing
        obtain rfl := Except.ok.inj stepped
        exact .observes (.inl ⟨_, managing⟩)
      · split at stepped
        · cases stepped
        · rename_i observed
          obtain rfl := Except.ok.inj stepped
          exact .observes (.inr observed)
  | forget =>
      rw [step] at stepped
      split at stepped
      · cases stepped
      · rename_i observed
        obtain rfl := Except.ok.inj stepped
        by_cases last : block.stage = .disposed ∧ block.observers = 1
        · rw [if_pos last, last.2]
          exact .frees _ (.inr last.1)
        · rw [if_neg last]
          exact .forgets observed last
  | lock =>
      rw [step] at stepped
      split at stepped
      · cases stepped
      · rename_i observed
        split at stepped
        · rename_i managing
          obtain rfl := Except.ok.inj stepped
          exact .gains _ managing
        · obtain rfl := Except.ok.inj stepped
          exact .misses observed
  | finish =>
      rw [step] at stepped
      split at stepped
      · rename_i disposing
        obtain rfl := Except.ok.inj stepped
        by_cases none : block.observers = 0
        · rw [if_pos none, none]
          exact .frees _ (.inl disposing)
        · rw [if_neg none]
          exact .finishes disposing none
      · cases stepped

theorem Sound.step (sound : block.Sound) (stepped : block.step op = .ok after) : after.Sound := by
  cases step_eq_ok stepped with
  | gains _ _ =>
      refine ⟨?_, by rintro ⟨⟩, by rintro ⟨⟩⟩
      rintro handles ⟨⟩
      exact Nat.le_add_left 1 _
  | loses _ more =>
      refine ⟨?_, by rintro ⟨⟩, by rintro ⟨⟩⟩
      rintro handles ⟨⟩
      exact Nat.le_sub_one_of_lt more
  | disposes _ _ => exact ⟨by rintro _ ⟨⟩, by rintro ⟨⟩, by rintro ⟨⟩⟩
  | observes open_ =>
      refine ⟨sound.handles, fun _ => Nat.succ_ne_zero _, fun freed => ?_⟩
      rcases open_ with ⟨handles, managing⟩ | observed
      · cases managing.symm.trans freed
      · exact absurd (sound.forgotten freed) observed
  | forgets observed stays =>
      refine ⟨sound.handles, fun disposed none => stays ⟨disposed, ?_⟩, fun freed => ?_⟩
      · have last : block.observers - 1 = 0 := none
        omega
      · exact absurd (sound.forgotten freed) observed
  | misses _ => exact sound
  | finishes _ observed => exact ⟨by rintro _ ⟨⟩, fun _ => observed, by rintro ⟨⟩⟩
  | frees _ _ => exact ⟨by rintro _ ⟨⟩, by rintro ⟨⟩, fun _ => rfl⟩

/-- What has no handle never has one again. -/
theorem managed_of_step (stepped : block.step op = .ok after) (managed : after.managed = true) :
    block.managed = true := by
  cases step_eq_ok stepped with
  | gains _ managing | loses managing _ => rw [ControlBlock.managed, managing]
  | disposes | finishes | frees => cases managed
  | observes | forgets | misses => exact managed

/-- Nothing is done with a block that is freed. -/
theorem Sound.not_freed (sound : block.Sound) (stepped : block.step op = .ok after) :
    block.stage ≠ .freed := by
  intro freed
  have none := sound.forgotten freed
  cases step_eq_ok stepped with
  | gains _ managing | loses managing _ | disposes managing _ => cases managing.symm.trans freed
  | observes open_ =>
      rcases open_ with ⟨handles, managing⟩ | observed
      · cases managing.symm.trans freed
      · exact observed none
  | forgets observed _ | misses observed | finishes _ observed => exact observed none
  | frees _ past =>
      rw [freed] at past
      rcases past with disposing | disposed
      · cases disposing
      · cases disposed

end ControlBlock

end Jasl.Library
