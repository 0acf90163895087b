import Mathlib.Algebra.Order.Ring.Int
import Mathlib.Data.List.Nodup
import Mathlib.Logic.Function.Basic
import Mathlib.Tactic.Common

/-!
# Doubly linked lists of addresses

An intrusive list: each node holds the addresses of the next and of the previous node, and whoever
owns the list holds the address of its head.

* `Chain` says that the links from a head on run through exactly the nodes of a list, and back.
* `Chain.pushFront` and `Chain.remove`: inserting a node at the head, and taking out a node
  anywhere, as pointer assignments.
* `Chain.walk`: following the links meets every node once and ends.
-/

/-- The links of every node. -/
structure Links (α : Type) where
  /-- The node after a node. -/
  next : α → Option α
  /-- The node before a node. -/
  prev : α → Option α

namespace Links

variable {α : Type} {k : Links α} {prev head : Option α} {a b : α} {l : List α}

section Assignments

variable [DecidableEq α]

/-- Change the next node of a node, if that is one. -/
def setNext (k : Links α) (a : Option α) (next : Option α) : Links α :=
  match a with
  | none => k
  | some a => { k with next := Function.update k.next a next }

/-- Change the previous node of a node, if that is one. -/
def setPrev (k : Links α) (a : Option α) (prev : Option α) : Links α :=
  match a with
  | none => k
  | some a => { k with prev := Function.update k.prev a prev }

/-- Insert a node at the head. -/
def pushFront (k : Links α) (head : Option α) (a : α) : Links α :=
  ((k.setNext (some a) head).setPrev (some a) none).setPrev head (some a)

/-- Take a node out. -/
def remove (k : Links α) (a : α) : Links α :=
  (k.setNext (k.prev a) (k.next a)).setPrev (k.next a) (k.prev a)

end Assignments

/-- The head once a node is taken out. -/
def headAfter (k : Links α) (head : Option α) (a : α) : Option α :=
  if (k.prev a).isSome then head else k.next a

/-- Follow the links for at most so many nodes. -/
def walk (k : Links α) : ℕ → Option α → Option (List α)
  | _, none => some []
  | 0, some _ => none
  | fuel + 1, some a => (k.walk fuel (k.next a)).map (a :: ·)

/-- The links from a head on run through the nodes of a list, and back to the node before it. -/
def Chain (k : Links α) : Option α → Option α → List α → Prop
  | _, head, [] => head = none
  | prev, head, a :: l => head = some a ∧ k.prev a = prev ∧ k.Chain (some a) (k.next a) l

/-! ### Assignments -/

section Assignments

variable [DecidableEq α]

theorem setNext_next (k : Links α) (a : Option α) (next : Option α) (b : α) :
    (k.setNext a next).next b = if a = some b then next else k.next b := by
  cases a with
  | none => simp [setNext]
  | some a =>
    show Function.update k.next a next b = _
    rw [Function.update_apply]
    simp only [Option.some.injEq, eq_comm]

@[simp] theorem setNext_prev (k : Links α) (a : Option α) (next : Option α) :
    (k.setNext a next).prev = k.prev := by
  cases a <;> rfl

theorem setPrev_prev (k : Links α) (a : Option α) (prev : Option α) (b : α) :
    (k.setPrev a prev).prev b = if a = some b then prev else k.prev b := by
  cases a with
  | none => simp [setPrev]
  | some a =>
    show Function.update k.prev a prev b = _
    rw [Function.update_apply]
    simp only [Option.some.injEq, eq_comm]

@[simp] theorem setPrev_next (k : Links α) (a : Option α) (prev : Option α) :
    (k.setPrev a prev).next = k.next := by
  cases a <;> rfl

theorem pushFront_next (k : Links α) (head : Option α) (a b : α) :
    (k.pushFront head a).next b = if a = b then head else k.next b := by
  simp [pushFront, setNext_next]

theorem pushFront_prev (k : Links α) (head : Option α) (a b : α) :
    (k.pushFront head a).prev b =
      if head = some b then some a else if a = b then none else k.prev b := by
  simp [pushFront, setPrev_prev]

theorem remove_next (k : Links α) (a b : α) :
    (k.remove a).next b = if k.prev a = some b then k.next a else k.next b := by
  simp [remove, setNext_next]

theorem remove_prev (k : Links α) (a b : α) :
    (k.remove a).prev b = if k.next a = some b then k.prev a else k.prev b := by
  simp [remove, setPrev_prev]

end Assignments

/-! ### Chains -/

/-- Links that agree on the nodes of a list. -/
theorem Chain.congr {k' : Links α} (h : k.Chain prev head l) (hnext : ∀ b ∈ l, k'.next b = k.next b)
    (hprev : ∀ b ∈ l, k'.prev b = k.prev b) : k'.Chain prev head l := by
  induction l generalizing prev head with
  | nil => exact h
  | cons a l ih =>
    obtain ⟨hhead, hback, hrest⟩ := h
    refine ⟨hhead, by rw [hprev a List.mem_cons_self, hback], ?_⟩
    rw [hnext a List.mem_cons_self]
    exact ih hrest (fun b hb => hnext b (.tail a hb)) fun b hb => hprev b (.tail a hb)

/-- The first node of a chain may be told another node before it. -/
theorem Chain.setFirst [DecidableEq α] {k' : Links α} {prev' : Option α}
    (h : k.Chain prev head l) (hnodup : l.Nodup) (hnext : ∀ b ∈ l, k'.next b = k.next b)
    (hprev : ∀ b ∈ l, k'.prev b = if head = some b then prev' else k.prev b) :
    k'.Chain prev' head l := by
  cases l with
  | nil => exact h
  | cons a l =>
    obtain ⟨hhead, -, hrest⟩ := h
    refine ⟨hhead, by rw [hprev a List.mem_cons_self, if_pos hhead], ?_⟩
    rw [hnext a List.mem_cons_self]
    refine hrest.congr (fun b hb => hnext b (.tail a hb)) fun b hb => ?_
    rw [hprev b (.tail a hb), if_neg]
    rw [hhead, Option.some.injEq]
    rintro rfl
    exact (List.nodup_cons.mp hnodup).1 hb

/-- **Inserting at the head.** -/
theorem Chain.pushFront [DecidableEq α] (h : k.Chain none head l) (hnodup : l.Nodup) (ha : a ∉ l) :
    (k.pushFront head a).Chain none (some a) (a :: l) := by
  have hhead : head ≠ some a := by
    rintro rfl
    cases l with
    | nil => cases h
    | cons b l => exact ha (by simp [Option.some.inj h.1])
  refine ⟨rfl, ?_, ?_⟩
  · rw [pushFront_prev, if_neg hhead, if_pos rfl]
  · rw [pushFront_next, if_pos rfl]
    have hne (b : α) (hb : b ∈ l) : a ≠ b := fun heq => ha (heq ▸ hb)
    refine h.setFirst hnodup (fun b hb => ?_) fun b hb => ?_
    · rw [pushFront_next, if_neg (hne b hb)]
    · rw [pushFront_prev, if_neg (hne b hb)]

/-- The node after a node of a chain is in the chain, and points back. -/
theorem Chain.prev_of_next (h : k.Chain prev head l) (ha : a ∈ l) (hb : k.next a = some b) :
    b ∈ l ∧ k.prev b = some a := by
  induction l generalizing prev head with
  | nil => cases ha
  | cons c l ih =>
    obtain ⟨-, -, hrest⟩ := h
    rcases List.mem_cons.mp ha with rfl | ha
    · cases l with
      | nil => exact absurd hrest (by simp [Chain, hb])
      | cons d l =>
        obtain ⟨hhead, hback, -⟩ := hrest
        obtain rfl : b = d := Option.some.inj (hb.symm.trans hhead)
        exact ⟨by simp, hback⟩
    · obtain ⟨hmem, hback⟩ := ih hrest ha
      exact ⟨.tail c hmem, hback⟩

/-- The node before a node of a chain is in the chain and points on, or there is none in the
chain. -/
theorem Chain.next_of_prev (h : k.Chain prev head l) (ha : a ∈ l) :
    (head = some a ∧ k.prev a = prev) ∨ ∃ b ∈ l, k.prev a = some b ∧ k.next b = some a := by
  induction l generalizing prev head with
  | nil => cases ha
  | cons c l ih =>
    obtain ⟨hhead, hback, hrest⟩ := h
    rcases List.mem_cons.mp ha with rfl | ha
    · exact .inl ⟨hhead, hback⟩
    · refine .inr ?_
      rcases ih hrest ha with ⟨hnext, heq⟩ | ⟨b, hb, heq, hnext⟩
      · exact ⟨c, List.mem_cons_self, heq, hnext⟩
      · exact ⟨b, .tail c hb, heq, hnext⟩

/-- The nodes before and after the first node of a chain. -/
private theorem Chain.prev_eq_iff (h : k.Chain prev head (a :: l)) (hnodup : (a :: l).Nodup)
    (hb : b ∈ l) : k.prev b = some a ↔ k.next a = some b := by
  constructor
  · intro hback
    rcases h.2.2.next_of_prev hb with ⟨hnext, -⟩ | ⟨c, hc, heq, -⟩
    · exact hnext
    · obtain rfl : a = c := Option.some.inj (hback.symm.trans heq)
      exact absurd hc (List.nodup_cons.mp hnodup).1
  · exact fun hnext => (h.prev_of_next List.mem_cons_self hnext).2

/-- Links that skip a node of a chain. -/
private theorem Chain.skip [DecidableEq α] {k' : Links α} (h : k.Chain prev head l)
    (hnodup : l.Nodup) (ha : a ∈ l) (hfirst : prev ≠ some a)
    (hnext : ∀ b ∈ l, k'.next b = if k.next b = some a then k.next a else k.next b)
    (hprev : ∀ b ∈ l, k'.prev b = if k.prev b = some a then k.prev a else k.prev b) :
    k'.Chain prev (if head = some a then k.next a else head) (l.erase a) := by
  induction l generalizing prev head with
  | nil => cases ha
  | cons c l ih =>
    obtain ⟨rfl, hback, hrest⟩ := h
    have hchain : k.Chain prev (some c) (c :: l) := ⟨rfl, hback, hrest⟩
    obtain ⟨hc, hl⟩ := List.nodup_cons.mp hnodup
    by_cases hac : c = a
    · subst hac
      rw [List.erase_cons_head, if_pos rfl]
      refine hrest.setFirst hl (fun b hb => ?_) fun b hb => ?_
      · rw [hnext b (.tail c hb), if_neg fun heq => hc (hrest.prev_of_next hb heq).1]
      · rw [hprev b (.tail c hb), hback]
        simp only [hchain.prev_eq_iff hnodup hb]
    · have ha : a ∈ l := (List.mem_cons.mp ha).resolve_left (Ne.symm hac)
      have hsome : some c ≠ some a := fun heq => hac (Option.some.inj heq)
      rw [List.erase_cons_tail (by simpa using hac), if_neg hsome]
      refine ⟨rfl, ?_, ?_⟩
      · rw [hprev c List.mem_cons_self, hback, if_neg hfirst]
      · rw [hnext c List.mem_cons_self]
        exact ih hrest hl ha hsome (fun b hb => hnext b (.tail c hb)) fun b hb =>
          hprev b (.tail c hb)

/-- In a whole chain, the node before and the node after are inverse to each other. -/
theorem Chain.prev_iff_next (h : k.Chain none head l) (ha : a ∈ l) (hb : b ∈ l) :
    k.prev a = some b ↔ k.next b = some a := by
  constructor
  · intro hback
    rcases h.next_of_prev ha with ⟨-, hnone⟩ | ⟨c, -, heq, hnext⟩
    · rw [hnone] at hback
      cases hback
    · obtain rfl : b = c := Option.some.inj (hback.symm.trans heq)
      exact hnext
  · exact fun hnext => (h.prev_of_next hb hnext).2

/-- **Taking a node out.** -/
theorem Chain.remove [DecidableEq α] (h : k.Chain none head l) (hnodup : l.Nodup) (ha : a ∈ l) :
    (k.remove a).Chain none (k.headAfter head a) (l.erase a) := by
  have hhead : k.headAfter head a = if head = some a then k.next a else head := by
    rw [headAfter]
    rcases h.next_of_prev ha with ⟨rfl, hnone⟩ | ⟨b, hb, heq, hnext⟩
    · simp [hnone]
    · cases l with
      | nil => cases ha
      | cons c l =>
        have hne : head ≠ some a := by
          intro hhead
          have hnone : k.prev c = none := h.2.1
          obtain rfl : c = a := Option.some.inj (h.1.symm.trans hhead)
          rw [heq] at hnone
          cases hnone
        simp [heq, hne]
  rw [hhead]
  refine h.skip hnodup ha (by simp) (fun b hb => ?_) fun b hb => ?_
  · simp only [remove_next, h.prev_iff_next ha hb]
  · simp only [remove_prev, h.prev_iff_next hb ha]

/-- **Following the links** meets the nodes of a chain and ends. -/
theorem Chain.walk_eq (h : k.Chain prev head l) {fuel : ℕ} (hfuel : l.length ≤ fuel) :
    k.walk fuel head = some l := by
  induction l generalizing prev head fuel with
  | nil =>
    obtain rfl : head = none := h
    cases fuel <;> rfl
  | cons a l ih =>
    obtain ⟨rfl, -, hrest⟩ := h
    cases fuel with
    | zero => simp at hfuel
    | succ fuel =>
      rw [walk, ih hrest (Nat.le_of_succ_le_succ hfuel)]
      rfl

end Links
