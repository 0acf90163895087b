import Mathlib.Algebra.Order.Ring.Int
import Mathlib.Data.List.Basic
import Mathlib.Tactic.Common

/-!
# Finite sets in increasing order

`SortedSet α` is a finite set over a linear order, kept as the strictly increasing list of its
elements, so that the least element and the traversal in order are at hand. The operations are
those of an ordered tree set: insertion, removal, the first element.

* `mem_insert`, `mem_erase`: what the operations contain.
* `first?_eq_none`, `first?_least`: the first element is the least one.
* `length_erase`: a removal that finds its element leaves one element less, which is what a loop
  that consumes the set terminates by.
-/

/-- A finite set, as the strictly increasing list of its elements. -/
structure SortedSet (α : Type) [LinearOrder α] where
  /-- The elements. -/
  elems : List α
  /-- They strictly increase. -/
  sorted : elems.Pairwise (· < ·)
deriving DecidableEq

namespace SortedSet

variable {α : Type} [LinearOrder α] {s : SortedSet α} {a b : α}

/-- The elements are those of the list. -/
instance : Membership α (SortedSet α) := ⟨fun s a => a ∈ s.elems⟩

instance (a : α) (s : SortedSet α) : Decidable (a ∈ s) :=
  inferInstanceAs (Decidable (a ∈ s.elems))

theorem mem_def : a ∈ s ↔ a ∈ s.elems := Iff.rfl

/-- The set without elements. -/
def empty : SortedSet α := ⟨[], .nil⟩

@[simp] theorem not_mem_empty : a ∉ (empty : SortedSet α) := List.not_mem_nil

/-! ### Insertion -/

/-- Insert into a strictly increasing list. -/
def insertElem (a : α) : List α → List α
  | [] => [a]
  | b :: l => if a < b then a :: b :: l else if a = b then b :: l else b :: insertElem a l

theorem mem_insertElem {l : List α} : b ∈ insertElem a l ↔ b = a ∨ b ∈ l := by
  induction l with
  | nil => simp [insertElem]
  | cons c l ih =>
    rw [insertElem]
    split_ifs with hlt heq
    · simp
    · subst heq; simp
    · simp [ih, or_left_comm]

theorem pairwise_insertElem {l : List α} (h : l.Pairwise (· < ·)) :
    (insertElem a l).Pairwise (· < ·) := by
  induction l with
  | nil => exact List.pairwise_singleton _ _
  | cons c l ih =>
    obtain ⟨hc, hl⟩ := List.pairwise_cons.mp h
    rw [insertElem]
    split_ifs with hlt heq
    · refine List.pairwise_cons.mpr ⟨?_, h⟩
      intro d hd
      rcases List.mem_cons.mp hd with rfl | hd
      exacts [hlt, lt_trans hlt (hc d hd)]
    · exact h
    · refine List.pairwise_cons.mpr ⟨?_, ih hl⟩
      intro d hd
      rcases mem_insertElem.mp hd with rfl | hd
      exacts [lt_of_le_of_ne (not_lt.mp hlt) (Ne.symm heq), hc d hd]

/-- Add an element. -/
def insert (s : SortedSet α) (a : α) : SortedSet α :=
  ⟨insertElem a s.elems, pairwise_insertElem s.sorted⟩

@[simp] theorem mem_insert : b ∈ s.insert a ↔ b = a ∨ b ∈ s := mem_insertElem

/-! ### Removal -/

/-- Remove an element. -/
def erase (s : SortedSet α) (a : α) : SortedSet α :=
  ⟨s.elems.erase a, s.sorted.sublist List.erase_sublist⟩

theorem nodup (s : SortedSet α) : s.elems.Nodup := s.sorted.imp ne_of_lt

@[simp] theorem mem_erase : b ∈ s.erase a ↔ b ≠ a ∧ b ∈ s := s.nodup.mem_erase_iff

theorem length_erase (h : a ∈ s) : (s.erase a).elems.length + 1 = s.elems.length := by
  have hpos : 0 < s.elems.length := List.length_pos_of_mem h
  rw [erase, List.length_erase_of_mem h]
  omega

/-! ### The first element -/

/-- The least element, if there is one. -/
def first? (s : SortedSet α) : Option α := s.elems.head?

theorem first?_eq_none : s.first? = none ↔ ∀ a, a ∉ s := by
  rw [first?, List.head?_eq_none_iff, List.eq_nil_iff_forall_not_mem]
  rfl

theorem first?_mem (h : s.first? = some a) : a ∈ s := List.mem_of_head? h

theorem first?_least (h : s.first? = some a) (hb : b ∈ s) : a ≤ b := by
  obtain ⟨l, hl⟩ := List.head?_eq_some_iff.mp h
  have hsorted := s.sorted
  rw [mem_def, hl] at hb
  rw [hl] at hsorted
  rcases List.mem_cons.mp hb with rfl | hb
  exacts [le_rfl, le_of_lt ((List.pairwise_cons.mp hsorted).1 b hb)]

end SortedSet
