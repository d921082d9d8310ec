import Mathlib.Data.List.Nodup
import Mathlib.Data.List.Perm.Basic

/-!
# Objects that go with their last owner

Objects that each own a resource, told apart by its name: a descriptor, a block, a
slot. An object is there from the time it is added until it is reaped, which happens
when nothing holds it any more; its name is opened when it is added and closed when it
is reaped. Who holds what is not known here: `reap` gets a predicate.

As long as no object is added under the name of one that is there, the names of the
objects differ, and what was opened is what was closed and what is there
(`Objects.Sound`). So a name is closed exactly once for each time it was opened, and a
name that is open belongs to one object (`Sound.count_opened`).
-/

set_option autoImplicit false

namespace Jasl.Library

universe u v

/-- The objects there are, and the names that were opened and closed. -/
structure Objects (α : Type u) (κ : Type v) where
  live : List α
  opened : List κ
  closed : List κ

namespace Objects

variable {α : Type u} {κ : Type v}

def empty : Objects α κ := ⟨[], [], []⟩

section Changes

variable (name : α → κ) (objects : Objects α κ)

def add (object : α) : Objects α κ where
  live := object :: objects.live
  opened := name object :: objects.opened
  closed := objects.closed

variable (held : α → Bool)

/-- The names of the objects that nothing holds. -/
def dead : List κ := (objects.live.filter fun object => !held object).map name

/-- The objects that nothing holds go, with their names. -/
def reap : Objects α κ where
  live := objects.live.filter held
  opened := objects.opened
  closed := objects.closed ++ objects.dead name held

@[simp] theorem mem_reap {object : α} :
    object ∈ (objects.reap name held).live ↔ object ∈ objects.live ∧ held object = true :=
  List.mem_filter

theorem mem_dead {key : κ} :
    key ∈ objects.dead name held ↔
      ∃ object ∈ objects.live, held object = false ∧ name object = key := by
  simp [dead, and_assoc]

/-- An object whose name is not closed stays. -/
theorem mem_of_not_dead {key : κ} (there : key ∈ objects.live.map name)
    (staying : key ∉ objects.dead name held) : key ∈ (objects.reap name held).live.map name := by
  obtain ⟨object, member, rfl⟩ := List.mem_map.mp there
  refine List.mem_map_of_mem ((objects.mem_reap name held).mpr ⟨member, ?_⟩)
  by_contra lost
  exact staying ((objects.mem_dead name held).mpr ⟨object, member, by simpa using lost, rfl⟩)

end Changes

/-! ## The names -/

/-- The names of the objects differ, and what was opened is what was closed and what is there. -/
structure Sound (name : α → κ) (objects : Objects α κ) : Prop where
  distinct : (objects.live.map name).Nodup
  balanced : objects.opened.Perm (objects.closed ++ objects.live.map name)

namespace Sound

variable {name : α → κ} {objects : Objects α κ}

theorem empty : Sound name (Objects.empty : Objects α κ) := ⟨.nil, .nil⟩

/-- One name, one object. -/
theorem eq_of_name (sound : objects.Sound name) {first second : α} (inFirst : first ∈ objects.live)
    (inSecond : second ∈ objects.live) (same : name first = name second) : first = second :=
  List.inj_on_of_nodup_map sound.distinct inFirst inSecond same

theorem add (sound : objects.Sound name) {object : α}
    (fresh : name object ∉ objects.live.map name) : (objects.add name object).Sound name where
  distinct := List.nodup_cons.mpr ⟨fresh, sound.distinct⟩
  balanced := (sound.balanced.cons (name object)).trans List.perm_middle.symm

/-- **What nothing holds goes, and the names stay sound.** -/
theorem reap (sound : objects.Sound name) (held : α → Bool) :
    (objects.reap name held).Sound name where
  distinct := sound.distinct.sublist (List.filter_sublist.map name)
  balanced := by
    have split : (objects.live.map name).Perm
        (objects.dead name held ++ (objects.live.filter held).map name) := by
      rw [dead, ← List.map_append]
      refine List.Perm.map name ?_
      exact (List.filter_append_perm held objects.live).symm.trans List.perm_append_comm
    refine sound.balanced.trans ?_
    change (objects.closed ++ objects.live.map name).Perm
      (objects.closed ++ objects.dead name held ++ (objects.live.filter held).map name)
    rw [List.append_assoc]
    exact split.append_left objects.closed

/-- The name of an object that something holds stays open. -/
theorem not_dead (sound : objects.Sound name) {held : α → Bool} {object : α}
    (there : object ∈ objects.live) (holding : held object = true) :
    name object ∉ objects.dead name held := by
  intro member
  obtain ⟨other, inOther, lost, same⟩ := (objects.mem_dead name held).mp member
  rw [sound.eq_of_name inOther there same, holding] at lost
  cases lost

/-- **A name is closed once for each time it was opened**, but for the time it is open. -/
theorem count_opened [DecidableEq κ] (sound : objects.Sound name) (key : κ) :
    objects.opened.count key =
      objects.closed.count key + if key ∈ objects.live.map name then 1 else 0 := by
  rw [sound.balanced.count_eq, List.count_append]
  congr 1
  split
  · rename_i there
    exact List.count_eq_one_of_mem sound.distinct there
  · rename_i gone
    exact List.count_eq_zero_of_not_mem gone

end Sound

end Objects

end Jasl.Library
