import Mathlib.Data.List.Perm.Basic
import Mathlib.Data.List.Range
import Mathlib.Data.List.Count
import Mathlib.Data.List.Nodup
import Mathlib.Algebra.Order.Ring.Int
import Mathlib.Tactic.Abel
import Mathlib.Tactic.Common

/-!
# Ledgers of numbered tickets

Tickets are numbered in the order they are issued, and every ticket that was issued is to be found
in exactly one of several places. `balance next l` compares the tickets of the list `l` with those
issued so far, ticket by ticket: it is `0` when `l` holds every ticket below `next` once and no
other (`perm_range_of_balance`).

A ticket in the hands of a running operation is a difference of `bill [r]`; operations that pass
tickets on add up.
-/

namespace Ledger

/-- How often each ticket occurs in a list. -/
def bill (l : List ℕ) : ℕ → ℤ := fun r => l.count r

/-- The tickets of a list, less those that were issued. -/
def balance (next : ℕ) (l : List ℕ) : ℕ → ℤ := fun r => l.count r - if r < next then 1 else 0

@[simp] theorem bill_nil : bill [] = 0 := by
  funext r
  simp [bill]

theorem bill_append (l l' : List ℕ) : bill (l ++ l') = bill l + bill l' := by
  funext r
  simp [bill]

theorem bill_cons (r : ℕ) (l : List ℕ) : bill (r :: l) = bill [r] + bill l :=
  bill_append [r] l

theorem bill_nonneg (l : List ℕ) (r : ℕ) : 0 ≤ bill l r := Int.natCast_nonneg _

/-- A ticket that is billed is in the list. -/
theorem mem_of_bill {l : List ℕ} {r : ℕ} (h : 1 ≤ bill l r) : r ∈ l := by
  rw [← List.count_pos_iff]
  simp only [bill] at h
  omega

theorem one_le_bill {l : List ℕ} {r : ℕ} (h : r ∈ l) : 1 ≤ bill l r := by
  have hpos := List.count_pos_iff.mpr h
  simp only [bill]
  omega

theorem bill_perm {l l' : List ℕ} (h : l.Perm l') : bill l = bill l' := by
  funext r
  simp [bill, h.count_eq]

theorem balance_append (n : ℕ) (l l' : List ℕ) : balance n (l ++ l') = balance n l + bill l' := by
  funext r
  simp only [balance, bill, List.count_append, Nat.cast_add, Pi.add_apply]
  omega

/-- Issuing a ticket. -/
theorem balance_succ (n : ℕ) (l : List ℕ) : balance (n + 1) l = balance n l - bill [n] := by
  funext r
  simp only [balance, bill, Pi.sub_apply, List.count_singleton, beq_iff_eq]
  split_ifs <;> omega

@[simp] theorem balance_zero : balance 0 [] = 0 := by
  funext r
  simp [balance]

/-- **A balanced ledger** holds every ticket exactly once. -/
theorem perm_range_of_balance {n : ℕ} {l : List ℕ} (h : balance n l = 0) :
    l.Perm (List.range n) := by
  rw [List.perm_iff_count]
  intro r
  have hr := congrFun h r
  simp only [balance, Pi.zero_apply] at hr
  rw [List.nodup_range.count]
  simp only [List.mem_range]
  split_ifs at hr ⊢ <;> omega

end Ledger
