import Mathlib.Data.List.Infix
import Mathlib.Tactic.Common

/-!
# Logs that keep to a protocol

A protocol says which record may follow a log. A log keeps to it when each of its records was
allowed when it was made.

* `Kept.concat`: a log is extended by a record that is allowed.
* `Kept.after`: what is known of the records that come after a given one.
* `Since P Q`: a record that meets `P` was made, and none that meets `Q` after it; `since_concat`
  says how that changes with one more record.
-/

namespace Protocol

variable {ρ : Type}

/-- Each record was allowed when it was made. -/
def Kept (allowed : List ρ → ρ → Prop) (log : List ρ) : Prop :=
  ∀ l r l', log = l ++ r :: l' → allowed l r

variable {allowed : List ρ → ρ → Prop} {log : List ρ} {r : ρ}

theorem kept_nil : Kept allowed [] := by
  intro l r l' h
  simp at h

theorem Kept.concat (h : Kept allowed log) (hr : allowed log r) : Kept allowed (log ++ [r]) := by
  intro l r' l' heq
  rcases List.eq_nil_or_concat l' with rfl | ⟨l'', r'', rfl⟩
  · obtain ⟨rfl, hr'⟩ := List.append_inj' heq rfl
    obtain rfl : r = r' := by simpa using hr'
    exact hr
  · rw [List.concat_eq_append, ← List.cons_append, ← List.append_assoc] at heq
    exact h _ _ _ (List.append_inj' heq rfl).1

/-- A log is extended by records each of which is allowed after those before it. -/
theorem Kept.extend (h : Kept allowed log) {l : List ρ}
    (hl : ∀ l₁ r l₂, l = l₁ ++ r :: l₂ → allowed (log ++ l₁) r) : Kept allowed (log ++ l) := by
  induction l using List.reverseRecOn with
  | nil => simpa using h
  | append_singleton l r ih =>
    rw [← List.append_assoc]
    refine (ih fun l₁ r' l₂ heq => hl l₁ r' (l₂ ++ [r]) (by rw [heq]; simp)).concat ?_
    exact hl l r [] rfl

/-- A log is extended by records that are always allowed. -/
theorem Kept.append (h : Kept allowed log) {l : List ρ} (hl : ∀ r ∈ l, ∀ m, allowed m r) :
    Kept allowed (log ++ l) :=
  h.extend fun l₁ r l₂ heq => hl r (by rw [heq]; simp) _

/-- Records that come after `x` were allowed when `x`, and all before it, had been made. -/
theorem Kept.after (h : Kept allowed log) {l l' : List ρ} {x : ρ} (heq : log = l ++ x :: l')
    (hr : r ∈ l') : ∃ m, (∀ y ∈ l, y ∈ m) ∧ x ∈ m ∧ allowed m r := by
  obtain ⟨l₁, l₂, rfl⟩ := List.append_of_mem hr
  refine ⟨l ++ x :: l₁, fun y hy => List.mem_append_left _ hy, by simp, ?_⟩
  exact h (l ++ x :: l₁) r l₂ (by rw [heq]; simp)

/-- A record that is allowed only as long as none like it was made, is made once. -/
theorem Kept.once (h : Kept allowed log) (hnew : ∀ l, allowed l r → r ∉ l) {l l' : List ρ}
    (heq : log = l ++ r :: l') : r ∉ l' := by
  intro hr
  obtain ⟨m, -, hm, hallowed⟩ := h.after heq hr
  exact hnew m hallowed hm

/-- A record that meets `P` was made when the log before it was as `P` says, and none that meets `Q`
was made after it. -/
def Since (P : List ρ → ρ → Prop) (Q : ρ → Prop) (log : List ρ) : Prop :=
  ∃ l r l', log = l ++ r :: l' ∧ P l r ∧ ∀ r' ∈ l', ¬ Q r'

variable {P : List ρ → ρ → Prop} {Q : ρ → Prop}

@[simp] theorem since_nil : ¬ Since P Q [] := by
  rintro ⟨l, r, l', h, -⟩
  simp at h

/-- **One more record.** -/
theorem since_concat : Since P Q (log ++ [r]) ↔ P log r ∨ (Since P Q log ∧ ¬ Q r) := by
  constructor
  · rintro ⟨l, r', l', heq, hP, hQ⟩
    rcases List.eq_nil_or_concat l' with rfl | ⟨l'', r'', rfl⟩
    · obtain ⟨rfl, hr⟩ := List.append_inj' heq rfl
      obtain rfl : r = r' := by simpa using hr
      exact .inl hP
    · rw [List.concat_eq_append, ← List.cons_append, ← List.append_assoc] at heq
      obtain ⟨rfl, hr⟩ := List.append_inj' heq rfl
      obtain rfl : r = r'' := by simpa using hr
      refine .inr ⟨⟨l, r', l'', rfl, hP, fun x hx => hQ x ?_⟩, hQ r ?_⟩
      · rw [List.concat_eq_append]
        exact List.mem_append_left _ hx
      · rw [List.concat_eq_append]
        exact List.mem_append_right _ (List.mem_singleton_self r)
  · rintro (hP | ⟨⟨l, r', l', rfl, hP, hQ⟩, hr⟩)
    · exact ⟨log, r, [], rfl, hP, by simp⟩
    · refine ⟨l, r', l' ++ [r], by simp, hP, fun x hx => ?_⟩
      rcases List.mem_append.mp hx with hx | hx
      · exact hQ x hx
      · rwa [List.mem_singleton.mp hx]

/-- Records that do not meet `Q` are no matter. -/
theorem Since.append (h : Since P Q log) {l : List ρ} (hQ : ∀ r ∈ l, ¬ Q r) :
    Since P Q (log ++ l) := by
  obtain ⟨l₁, r, l₂, rfl, hP, hl₂⟩ := h
  refine ⟨l₁, r, l₂ ++ l, by simp, hP, fun r' hr' => ?_⟩
  rcases List.mem_append.mp hr' with hr' | hr'
  · exact hl₂ r' hr'
  · exact hQ r' hr'

/-- Records that meet neither condition change nothing. -/
theorem since_append {l : List ρ} (hP : ∀ m, ∀ r ∈ l, ¬ P m r) (hQ : ∀ r ∈ l, ¬ Q r) :
    Since P Q (log ++ l) ↔ Since P Q log := by
  induction l using List.reverseRecOn with
  | nil => rw [List.append_nil]
  | append_singleton l r ih =>
    rw [← List.append_assoc, since_concat,
      ih (fun m r' hr' => hP m r' (List.mem_append_left _ hr'))
        (fun r' hr' => hQ r' (List.mem_append_left _ hr'))]
    have hlast : r ∈ l ++ [r] := List.mem_append_right _ (List.mem_singleton_self r)
    constructor
    · rintro (h | ⟨h, -⟩)
      · exact absurd h (hP _ r hlast)
      · exact h
    · exact fun h => .inr ⟨h, hQ r hlast⟩

end Protocol
