import Mathlib.Tactic.Common

/-!
# Machines that answer

A machine answers each input, and goes on from the state the input leaves.

* `answers f s is`: the answers of `f` to the inputs `is`, one after another, from the state `s`.
* `answers_congr`: the simulation rule.
-/

namespace Answering

variable {σ σ' ι ρ : Type}

/-- The answers to a list of inputs. -/
def answers (f : σ → ι → σ × ρ) : σ → List ι → List ρ
  | _, [] => []
  | s, i :: is => (f s i).2 :: answers f (f s i).1 is

/-- The state after a list of inputs. -/
def after (f : σ → ι → σ × ρ) : σ → List ι → σ
  | s, [] => s
  | s, i :: is => after f (f s i).1 is

variable {f : σ → ι → σ × ρ} {g : σ' → ι → σ' × ρ} {s : σ}

theorem after_append (is js : List ι) : after f s (is ++ js) = after f (after f s is) js := by
  induction is generalizing s with
  | nil => rfl
  | cons i is ih => exact ih

/-- **The simulation rule.** Related states that answer alike and stay related answer alike for
ever. -/
theorem answers_congr {R : σ → σ' → Prop} {t : σ'} (h : R s t)
    (hstep : ∀ s t i, R s t → R (f s i).1 (g t i).1 ∧ (f s i).2 = (g t i).2) (is : List ι) :
    answers f s is = answers g t is := by
  induction is generalizing s t with
  | nil => rfl
  | cons i is ih =>
    obtain ⟨hnext, hanswer⟩ := hstep s t i h
    rw [answers, answers, hanswer, ih hnext]

end Answering
