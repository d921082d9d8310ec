import Mathlib.Data.List.Nodup
import Mathlib.Data.List.Perm.Subperm

/-!
# A set of elements told apart by a key

The elements of the set are compared by a key alone, as in a hash set whose
equality looks at one field: two elements with one key never stand in it
together. Inserting an element whose key is taken changes nothing, and finding
an element needs only its key. The order in which the set yields its elements is
not determined: `pick` takes any position, and a result for all positions is a
result for every order.
-/

set_option autoImplicit false

namespace Jasl.Library

universe u v

/-- A set whose elements are told apart by `key`. -/
structure KeyedSet {α : Type u} {κ : Type v} (key : α → κ) where
  elements : List α
  distinct : (elements.map key).Nodup

namespace KeyedSet

variable {α : Type u} {κ : Type v} {key : α → κ}

instance : Membership α (KeyedSet key) where
  mem set element := element ∈ set.elements

theorem mem_elements {set : KeyedSet key} {element : α} :
    element ∈ set.elements ↔ element ∈ set := Iff.rfl

def empty : KeyedSet key := ⟨[], .nil⟩

@[simp] theorem not_mem_empty (element : α) : element ∉ (empty : KeyedSet key) :=
  List.not_mem_nil

/-- One key, one element. -/
theorem eq_of_key {set : KeyedSet key} {first second : α} (inFirst : first ∈ set)
    (inSecond : second ∈ set) (same : key first = key second) : first = second :=
  List.inj_on_of_nodup_map set.distinct inFirst inSecond same

theorem length_le_of_subset {set other : KeyedSet key} (subset : ∀ element ∈ set, element ∈ other) :
    set.elements.length ≤ other.elements.length :=
  ((List.Nodup.of_map key set.distinct).subperm subset).length_le

/-! ## Taking the elements one after another -/

/-- The element at a position, counted round; `none` only when the set is empty. -/
def pick (set : KeyedSet key) (position : ℕ) : Option α :=
  set.elements[position % set.elements.length]?

theorem pick_mem {set : KeyedSet key} {position : ℕ} {element : α}
    (picked : set.pick position = some element) : element ∈ set :=
  List.mem_of_getElem? picked

theorem pick_eq_none {set : KeyedSet key} {position : ℕ} :
    set.pick position = none ↔ set.elements = [] := by
  rw [pick, List.getElem?_eq_none_iff]
  constructor
  · intro beyond
    by_contra nonempty
    have positive : 0 < set.elements.length := List.length_pos_of_ne_nil nonempty
    exact absurd (Nat.mod_lt position positive) (by omega)
  · intro isEmpty
    simp [isEmpty]

/-! ## Finding -/

variable [DecidableEq κ]

/-- The element with a key. -/
def find (set : KeyedSet key) (wanted : κ) : Option α :=
  set.elements.find? fun element => key element = wanted

theorem find_eq_some {set : KeyedSet key} {wanted : κ} {element : α} :
    set.find wanted = some element ↔ element ∈ set ∧ key element = wanted := by
  constructor
  · intro found
    exact ⟨List.mem_of_find?_eq_some found, by simpa using List.find?_some found⟩
  · rintro ⟨member, rfl⟩
    cases found : set.find (key element) with
    | none =>
        rw [find, List.find?_eq_none] at found
        exact absurd (decide_eq_true rfl) (found element member)
    | some other =>
        have inSet : other ∈ set := List.mem_of_find?_eq_some found
        have same : key other = key element := by simpa using List.find?_some found
        rw [eq_of_key inSet member same]

theorem find_eq_none {set : KeyedSet key} {wanted : κ} :
    set.find wanted = none ↔ ∀ element ∈ set, key element ≠ wanted := by
  rw [find, List.find?_eq_none]
  simp only [decide_eq_true_eq]
  rfl

/-! ## Insertion -/

/-- Insertion, which leaves a set that has the key already as it was. -/
def insert (set : KeyedSet key) (element : α) : KeyedSet key :=
  if taken : key element ∈ set.elements.map key then set
  else ⟨element :: set.elements, List.nodup_cons.mpr ⟨taken, set.distinct⟩⟩

/-- What a set holds after an insertion. -/
theorem mem_insert {set : KeyedSet key} {element other : α} :
    other ∈ set.insert element ↔
      other ∈ set ∨ (other = element ∧ ∀ present ∈ set, key present ≠ key element) := by
  rw [insert]
  split
  · rename_i taken
    obtain ⟨present, inSet, same⟩ := List.mem_map.mp taken
    constructor
    · exact Or.inl
    · rintro (member | ⟨-, free⟩)
      · exact member
      · exact absurd same (free present inSet)
  · rename_i notTaken
    have free : ∀ present ∈ set, key present ≠ key element := fun present inSet same =>
      notTaken (same ▸ List.mem_map_of_mem inSet)
    constructor
    · intro member
      rcases List.mem_cons.mp member with rfl | inSet
      · exact .inr ⟨rfl, free⟩
      · exact .inl inSet
    · rintro (member | ⟨rfl, -⟩)
      · exact List.mem_cons_of_mem _ member
      · exact List.mem_cons_self

/-- Finding after an insertion finds the element that was there, and otherwise the new one. -/
theorem find_insert (set : KeyedSet key) (element : α) (wanted : κ) :
    (set.insert element).find wanted =
      (set.find wanted).or (if key element = wanted then some element else none) := by
  rw [insert]
  split
  · rename_i taken
    split
    · rename_i same
      obtain ⟨present, inSet, equal⟩ := List.mem_map.mp taken
      rw [find_eq_some.mpr ⟨inSet, equal.trans same⟩, Option.some_or]
    · rw [Option.or_none]
  · rename_i free
    by_cases same : key element = wanted
    · have none : set.find wanted = none :=
        find_eq_none.mpr fun present inSet equal =>
          free (same ▸ equal ▸ List.mem_map_of_mem inSet)
      rw [none, if_pos same, find, List.find?_cons_of_pos (by simpa using same), Option.none_or]
    · rw [if_neg same, Option.or_none, find, List.find?_cons_of_neg (by simpa using same), find]

/-! ## Removal -/

/-- The set without the element that has a key. -/
def erase (set : KeyedSet key) (unwanted : κ) : KeyedSet key where
  elements := set.elements.filter fun element => key element ≠ unwanted
  distinct := set.distinct.sublist (List.filter_sublist.map key)

theorem mem_erase {set : KeyedSet key} {unwanted : κ} {element : α} :
    element ∈ set.erase unwanted ↔ element ∈ set ∧ key element ≠ unwanted := by
  simp only [← mem_elements, erase, List.mem_filter, decide_eq_true_eq]

/-- Finding after a removal finds every other key. -/
theorem find_erase (set : KeyedSet key) (unwanted wanted : κ) :
    (set.erase unwanted).find wanted = if wanted = unwanted then none else set.find wanted := by
  apply Option.ext
  intro element
  rw [find_eq_some, mem_erase]
  split
  · rename_i same
    constructor
    · intro ⟨⟨_, other⟩, equal⟩
      exact absurd (equal.trans same) other
    · exact nofun
  · rename_i other
    rw [find_eq_some]
    constructor
    · intro ⟨⟨inSet, _⟩, equal⟩
      exact ⟨inSet, equal⟩
    · intro ⟨inSet, equal⟩
      exact ⟨⟨inSet, fun same => other (equal.symm.trans same)⟩, equal⟩

/-- Removing an element that is there makes the set smaller. -/
theorem length_erase_lt {set : KeyedSet key} {element : α} (member : element ∈ set) :
    (set.erase (key element)).elements.length < set.elements.length := by
  refine List.length_filter_lt_length_iff_exists.mpr ⟨element, member, ?_⟩
  simp

end KeyedSet

end Jasl.Library
