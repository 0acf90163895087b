import Mathlib.Data.List.Perm.Basic
import Mathlib.Tactic.Common

/-!
# Stable sorting

A list that is sorted by a comparison of keys is not determined by the order of its keys, as
elements with equal keys may come in any order. It is if these are left as they were.

* `StablySorted cmp key l l'`: `l'` is ordered, has the elements of `l`, and keeps the order of the
  elements of each key.
* `StablySorted.unique`: there is one such list, and `stablySorted_mergeSort` has it.
-/

open List

namespace StableSort

variable {α κ : Type} {cmp : κ → κ → Ordering} {key : α → κ} {l l' : List α}

/-- `l'` is what a stable sort by keys makes of `l`. -/
structure StablySorted [DecidableEq κ] (cmp : κ → κ → Ordering) (key : α → κ) (l l' : List α) :
    Prop where
  ordered : l'.Pairwise fun a b => (cmp (key a) (key b)).isLE = true
  perm : l'.Perm l
  stable : ∀ k, (l'.filter fun a => key a = k) = l.filter fun a => key a = k

variable [DecidableEq κ] [Std.TransCmp cmp] [Std.LawfulEqCmp cmp]

omit [DecidableEq κ] in
/-- The first elements of two stable sorts have the same key. -/
private theorem key_head_eq {a b : α} {as bs : List α}
    (ha : (a :: as).Pairwise fun a b => (cmp (key a) (key b)).isLE = true)
    (hb : (b :: bs).Pairwise fun a b => (cmp (key a) (key b)).isLE = true)
    (hperm : (a :: as).Perm (b :: bs)) : key a = key b := by
  have hle {a b : α} {as bs : List α}
      (ha : (a :: as).Pairwise fun a b => (cmp (key a) (key b)).isLE = true)
      (hperm : (a :: as).Perm (b :: bs)) : (cmp (key a) (key b)).isLE = true := by
    rcases List.mem_cons.mp (hperm.mem_iff.mpr (List.mem_cons_self ..)) with rfl | hmem
    · exact Std.ReflCmp.isLE_rfl
    · exact (List.pairwise_cons.mp ha).1 b hmem
  exact Std.LawfulEqCmp.eq_of_compare
    (Std.OrientedCmp.isLE_antisymm (hle ha hperm) (hle hb hperm.symm))

/-- **A stable sort is determined.** -/
theorem StablySorted.unique {l₀ : List α} (h : StablySorted cmp key l₀ l)
    (h' : StablySorted cmp key l₀ l') : l = l' := by
  have hperm : l.Perm l' := h.perm.trans h'.perm.symm
  have hstable : ∀ k, (l.filter fun a => key a = k) = l'.filter fun a => key a = k :=
    fun k => (h.stable k).trans (h'.stable k).symm
  have hord := h.ordered
  have hord' := h'.ordered
  clear h h'
  induction l generalizing l' with
  | nil => exact hperm.nil_eq
  | cons a as ih =>
    obtain _ | ⟨b, bs⟩ := l'
    · exact absurd hperm.symm (List.not_perm_nil_cons a as)
    · have hkey := key_head_eq hord hord' hperm
      have hhead := hstable (key a)
      rw [List.filter_cons_of_pos (by simp), List.filter_cons_of_pos (by simp [hkey])] at hhead
      obtain rfl := (List.cons.inj hhead).1
      refine congrArg _ (ih hperm.cons_inv (fun k => ?_) (List.pairwise_cons.mp hord).2
        (List.pairwise_cons.mp hord').2)
      have hk := hstable k
      by_cases ha : key a = k
      · rw [List.filter_cons_of_pos (by simp [ha]), List.filter_cons_of_pos (by simp [ha])] at hk
        exact (List.cons.inj hk).2
      · rwa [List.filter_cons_of_neg (by simp [ha]), List.filter_cons_of_neg (by simp [ha])] at hk

omit [DecidableEq κ] [Std.LawfulEqCmp cmp] in
private theorem isLE_trans (a b c : α) (hab : (cmp (key a) (key b)).isLE = true)
    (hbc : (cmp (key b) (key c)).isLE = true) : (cmp (key a) (key c)).isLE = true :=
  Std.TransCmp.isLE_trans hab hbc

omit [DecidableEq κ] [Std.LawfulEqCmp cmp] in
private theorem isLE_total (a b : α) :
    ((cmp (key a) (key b)).isLE || (cmp (key b) (key a)).isLE) = true := by
  have hswap : cmp (key b) (key a) = (cmp (key a) (key b)).swap := Std.OrientedCmp.eq_swap
  rw [hswap]
  cases cmp (key a) (key b) <;> rfl

/-- **Merge sort is a stable sort.** -/
theorem stablySorted_mergeSort (l : List α) :
    StablySorted cmp key l (l.mergeSort fun a b => (cmp (key a) (key b)).isLE) where
  ordered := List.pairwise_mergeSort isLE_trans isLE_total l
  perm := List.mergeSort_perm l _
  stable k := by
    -- The elements of one key are in order already, so that the sort keeps them as a sublist.
    have hequal : (l.filter fun a => key a = k).Pairwise fun a b =>
        (cmp (key a) (key b)).isLE = true := by
      refine List.pairwise_of_forall_mem_list fun a ha b hb => ?_
      have ha' : key a = k := by simpa using (List.mem_filter.mp ha).2
      have hb' : key b = k := by simpa using (List.mem_filter.mp hb).2
      rw [ha', hb']
      exact Std.ReflCmp.isLE_rfl
    have hsub := (List.sublist_mergeSort isLE_trans isLE_total hequal List.filter_sublist).filter
      fun a => decide (key a = k)
    rw [List.filter_filter] at hsub
    simp only [Bool.and_self] at hsub
    exact (hsub.eq_of_length ((List.mergeSort_perm l _).filter _).length_eq.symm).symm

end StableSort
