import Mathlib.Data.List.Sort

/-!
# An ordered multimap with iterators

The container keeps its elements in the order of their keys, elements with equal
keys in the order they were inserted, and hands out an iterator for every
element. An iterator names its element until the element is erased, and is never
given out again, so an iterator that outlived its element is told apart from one
that is live: `erase` fails on a dead iterator and on the past-the-end one.

The structure carries its invariants: it is sorted, no two elements have one
iterator, and a new iterator is one that no element has.
-/

set_option autoImplicit false

namespace Jasl.Library

universe u v

/-- An element with the iterator that names it. -/
structure Node (κ : Type u) (υ : Type v) where
  iterator : ℕ
  key : κ
  value : υ
deriving DecidableEq, Repr

structure OrderedMultimap (κ : Type u) (υ : Type v) [LinearOrder κ] where
  nodes : List (Node κ υ)
  fresh : ℕ
  sorted : nodes.Pairwise fun earlier later => earlier.key ≤ later.key
  iterators_nodup : (nodes.map Node.iterator).Nodup
  iterator_lt_fresh : ∀ node ∈ nodes, node.iterator < fresh

namespace OrderedMultimap

variable {κ : Type u} {υ : Type v} [LinearOrder κ]

/-- The container with no element. -/
def empty : OrderedMultimap κ υ where
  nodes := []
  fresh := 0
  sorted := .nil
  iterators_nodup := .nil
  iterator_lt_fresh := by simp

/-- The first element, `none` when there is none. -/
def begin (m : OrderedMultimap κ υ) : Option (Node κ υ) := m.nodes.head?

/-! ## Insertion -/

/-- A new element goes behind every element whose key is not larger, and before the others. -/
theorem pairwise_orderedInsert_of {rel : Node κ υ → Node κ υ → Prop} (node : Node κ υ) :
    ∀ {nodes : List (Node κ υ)}, nodes.Pairwise (fun a b => a.key ≤ b.key) → nodes.Pairwise rel →
      (∀ other ∈ nodes, other.key ≤ node.key → rel other node) →
      (∀ other ∈ nodes, node.key < other.key → rel node other) →
        (nodes.orderedInsert (fun a b => a.key < b.key) node).Pairwise rel
  | [], _, _, _, _ => by simp
  | head :: tail, sorted, related, behind, before => by
      rw [List.pairwise_cons] at sorted related
      obtain ⟨least, sortedTail⟩ := sorted
      obtain ⟨first, relatedTail⟩ := related
      rw [List.orderedInsert_cons]
      split
      · rename_i smaller
        rw [List.pairwise_cons]
        refine ⟨fun other member => before other member ?_,
          List.pairwise_cons.mpr ⟨first, relatedTail⟩⟩
        rcases List.mem_cons.mp member with rfl | inTail
        · exact smaller
        · exact smaller.trans_le (least other inTail)
      · rename_i notSmaller
        rw [List.pairwise_cons]
        refine ⟨fun other member => ?_, pairwise_orderedInsert_of node sortedTail relatedTail
          (fun other inTail => behind other (List.mem_cons_of_mem _ inTail))
          fun other inTail => before other (List.mem_cons_of_mem _ inTail)⟩
        rcases (List.mem_orderedInsert _).mp member with rfl | inTail
        · exact behind head List.mem_cons_self (not_lt.mp notSmaller)
        · exact first other inTail

theorem pairwise_orderedInsert (node : Node κ υ) {nodes : List (Node κ υ)}
    (sorted : nodes.Pairwise fun a b => a.key ≤ b.key) :
    (nodes.orderedInsert (fun a b => a.key < b.key) node).Pairwise fun a b => a.key ≤ b.key :=
  pairwise_orderedInsert_of node sorted sorted (fun _ _ small => small) fun _ _ large => large.le

/-- Insertion of an element under a key, with a new iterator. -/
def insert (m : OrderedMultimap κ υ) (key : κ) (value : υ) : OrderedMultimap κ υ where
  nodes := m.nodes.orderedInsert (fun a b => a.key < b.key) ⟨m.fresh, key, value⟩
  fresh := m.fresh + 1
  sorted := pairwise_orderedInsert _ m.sorted
  iterators_nodup := by
    have perm := (List.perm_orderedInsert (fun a b : Node κ υ => a.key < b.key)
      ⟨m.fresh, key, value⟩ m.nodes).map Node.iterator
    rw [perm.nodup_iff, List.map_cons, List.nodup_cons]
    refine ⟨fun member => ?_, m.iterators_nodup⟩
    obtain ⟨node, inNodes, same⟩ := List.mem_map.mp member
    exact absurd (m.iterator_lt_fresh node inNodes) (by simp [same])
  iterator_lt_fresh := by
    intro node member
    rcases (List.mem_orderedInsert _).mp member with rfl | inNodes
    · exact Nat.lt_succ_self _
    · exact Nat.lt_succ_of_lt (m.iterator_lt_fresh node inNodes)

theorem mem_insert {m : OrderedMultimap κ υ} {key : κ} {value : υ} {node : Node κ υ} :
    node ∈ (m.insert key value).nodes ↔ node = ⟨m.fresh, key, value⟩ ∨ node ∈ m.nodes :=
  List.mem_orderedInsert _

/-- A relation on the elements holds after an insertion when the new element stands in it to the
elements in front of it, those whose key is not larger, and to those behind it. -/
theorem pairwise_insert {rel : Node κ υ → Node κ υ → Prop} {m : OrderedMultimap κ υ} {key : κ}
    {value : υ} (related : m.nodes.Pairwise rel)
    (behind : ∀ node ∈ m.nodes, node.key ≤ key → rel node ⟨m.fresh, key, value⟩)
    (before : ∀ node ∈ m.nodes, key < node.key → rel ⟨m.fresh, key, value⟩ node) :
    (m.insert key value).nodes.Pairwise rel :=
  pairwise_orderedInsert_of _ m.sorted related behind before

theorem values_insert (m : OrderedMultimap κ υ) (key : κ) (value : υ) :
    ((m.insert key value).nodes.map Node.value).Perm (value :: m.nodes.map Node.value) :=
  (List.perm_orderedInsert _ _ _).map Node.value

/-! ## Erasure -/

/-- The container without the element an iterator names. -/
def without (m : OrderedMultimap κ υ) (iterator : ℕ) : OrderedMultimap κ υ where
  nodes := m.nodes.filter fun node => node.iterator ≠ iterator
  fresh := m.fresh
  sorted := m.sorted.filter _
  iterators_nodup := m.iterators_nodup.sublist (List.filter_sublist.map Node.iterator)
  iterator_lt_fresh := fun node member => m.iterator_lt_fresh node (List.mem_of_mem_filter member)

/-- Erasure through an iterator, which fails when the iterator is past the end
(`none`) or names no element. -/
def erase (m : OrderedMultimap κ υ) : Option ℕ → Option (OrderedMultimap κ υ)
  | none => none
  | some iterator =>
      if iterator ∈ m.nodes.map Node.iterator then some (m.without iterator) else none

/-- Erasure succeeds on a live iterator. -/
theorem erase_of_mem {m : OrderedMultimap κ υ} {node : Node κ υ} (member : node ∈ m.nodes) :
    m.erase (some node.iterator) = some (m.without node.iterator) := by
  rw [erase, if_pos (List.mem_map_of_mem member)]

theorem mem_without {m : OrderedMultimap κ υ} {iterator : ℕ} {node : Node κ υ} :
    node ∈ (m.without iterator).nodes ↔ node ∈ m.nodes ∧ node.iterator ≠ iterator := by
  simp [without]

theorem nodes_without_sublist (m : OrderedMultimap κ υ) (iterator : ℕ) :
    (m.without iterator).nodes.Sublist m.nodes := List.filter_sublist

theorem values_without_sublist (m : OrderedMultimap κ υ) (iterator : ℕ) :
    ((m.without iterator).nodes.map Node.value).Sublist (m.nodes.map Node.value) :=
  List.filter_sublist.map Node.value

theorem length_without_le (m : OrderedMultimap κ υ) (iterator : ℕ) :
    (m.without iterator).nodes.length ≤ m.nodes.length :=
  List.length_filter_le _ _

/-- Iterators name at most one element. -/
theorem eq_of_iterator {m : OrderedMultimap κ υ} {first second : Node κ υ}
    (inFirst : first ∈ m.nodes) (inSecond : second ∈ m.nodes)
    (same : first.iterator = second.iterator) : first = second :=
  List.inj_on_of_nodup_map m.iterators_nodup inFirst inSecond same

/-! ## The first element -/

theorem begin_mem {m : OrderedMultimap κ υ} {node : Node κ υ} (first : m.begin = some node) :
    node ∈ m.nodes :=
  List.mem_of_mem_head? first

/-- The first element has a least key. -/
theorem begin_le {m : OrderedMultimap κ υ} {node other : Node κ υ} (first : m.begin = some node)
    (member : other ∈ m.nodes) : node.key ≤ other.key := by
  have sorted := m.sorted
  rw [begin] at first
  cases nodes : m.nodes with
  | nil => simp [nodes] at member
  | cons head tail =>
      rw [nodes] at first member sorted
      have same : head = node := by simpa using first
      subst same
      rcases List.mem_cons.mp member with rfl | inTail
      · exact le_refl _
      · exact (List.pairwise_cons.mp sorted).1 other inTail

theorem begin_eq_none {m : OrderedMultimap κ υ} : m.begin = none ↔ m.nodes = [] :=
  List.head?_eq_none_iff

/-- What is before the first key is before every key. -/
theorem lt_key_of_begin {m : OrderedMultimap κ υ} {bound : κ}
    (later : ∀ node, m.begin = some node → bound < node.key) :
    ∀ node ∈ m.nodes, bound < node.key := by
  intro node member
  cases first : m.begin with
  | none =>
      rw [begin_eq_none.mp first] at member
      cases member
  | some least => exact (later least first).trans_le (begin_le first member)

/-- Erasing the first element leaves the rest, in order. -/
theorem without_begin {m : OrderedMultimap κ υ} {node : Node κ υ} (first : m.begin = some node) :
    m.nodes = node :: (m.without node.iterator).nodes := by
  have nodup := m.iterators_nodup
  rw [begin] at first
  simp only [without]
  cases nodes : m.nodes with
  | nil => simp [nodes] at first
  | cons head tail =>
      rw [nodes] at first nodup
      have same : head = node := by simpa using first
      subst same
      rw [List.map_cons, List.nodup_cons] at nodup
      have keep : tail.filter (fun other => other.iterator ≠ head.iterator) = tail := by
        rw [List.filter_eq_self]
        intro other member
        simp only [ne_eq, decide_not, Bool.not_eq_true', decide_eq_false_iff_not]
        exact fun equal => nodup.1 (equal ▸ List.mem_map_of_mem member)
      rw [List.filter_cons_of_neg (by simp), keep]

theorem length_without_begin {m : OrderedMultimap κ υ} {node : Node κ υ}
    (first : m.begin = some node) :
    (m.without node.iterator).nodes.length + 1 = m.nodes.length := by
  rw [without_begin first, List.length_cons]

end OrderedMultimap

end Jasl.Library
