import Mathlib.Tactic.Common

/-!
# Programs that act on a state

A program performs operations of a signature, one after another; what it does next depends on the
answers. A handler says what an operation answers, what it makes of the state and what it outputs.

* `Interaction.run` runs a program with a handler, and `run_inv` is the invariant rule.
* `Interaction.Along Q p s t` runs a program from two states at once: each operation that it
  performs meets `Q` in the two states it is performed in.
* `Along.run_eq`: two runs are alike when each operation, where it meets the condition, cannot tell
  the two states apart.
-/

/-- A program over operations `O`, the answers to `o` being of type `A o`. -/
inductive Interaction (O : Type) (A : O → Type) (α : Type) : Type where
  /-- The program is over. -/
  | ret (a : α)
  /-- The program performs an operation and goes on with the answer. -/
  | perform (o : O) (next : A o → Interaction O A α)

namespace Interaction

variable {O O' : Type} {A : O → Type} {α β σ ω : Type}

/-- One program after another. -/
def bind : Interaction O A α → (α → Interaction O A β) → Interaction O A β
  | ret a, f => f a
  | perform o next, f => perform o fun a => (next a).bind f

@[simp] theorem bind_ret (a : α) (f : α → Interaction O A β) : (ret a).bind f = f a := rfl

@[simp] theorem bind_perform (o : O) (next : A o → Interaction O A α)
    (f : α → Interaction O A β) :
    (perform o next).bind f = perform o fun a => (next a).bind f := rfl

/-- A program as one that could perform operations of another signature too. -/
def inl {B : O' → Type} : Interaction O A α → Interaction (O ⊕ O') (Sum.elim A B) α
  | ret a => ret a
  | perform o next => perform (.inl o) fun a => (next a).inl

/-- What operations do to a state: the answer, the new state and the output. -/
abbrev Handler (O : Type) (A : O → Type) (σ ω : Type) := (o : O) → σ → A o × σ × List ω

/-- Two handlers, one for each part of a signature. -/
def Handler.sum {B : O' → Type} (h : Handler O A σ ω) (g : Handler O' B σ ω) :
    Handler (O ⊕ O') (Sum.elim A B) σ ω
  | .inl o => h o
  | .inr o => g o

/-- The result of a run, the state it ends in and its output. -/
structure Outcome (α σ ω : Type) where
  /-- What the program returned. -/
  result : α
  /-- The state in the end. -/
  state : σ
  /-- What was output, the first first. -/
  output : List ω

/-- Run a program. -/
def run (h : Handler O A σ ω) : Interaction O A α → σ → Outcome α σ ω
  | ret a, s => ⟨a, s, []⟩
  | perform o next, s =>
    let out := (next (h o s).1).run h (h o s).2.1
    ⟨out.result, out.state, (h o s).2.2 ++ out.output⟩

variable {h : Handler O A σ ω}

@[simp] theorem run_ret (a : α) (s : σ) : (ret a : Interaction O A α).run h s = ⟨a, s, []⟩ := rfl

@[simp] theorem run_perform (o : O) (next : A o → Interaction O A α) (s : σ) :
    (perform o next).run h s =
      ⟨((next (h o s).1).run h (h o s).2.1).result, ((next (h o s).1).run h (h o s).2.1).state,
        (h o s).2.2 ++ ((next (h o s).1).run h (h o s).2.1).output⟩ := rfl

theorem run_bind (p : Interaction O A α) (f : α → Interaction O A β) (s : σ) :
    (p.bind f).run h s =
      ⟨((f (p.run h s).result).run h (p.run h s).state).result,
        ((f (p.run h s).result).run h (p.run h s).state).state,
        (p.run h s).output ++ ((f (p.run h s).result).run h (p.run h s).state).output⟩ := by
  induction p generalizing s with
  | ret a => rfl
  | perform o next ih => simp only [bind_perform, run_perform, ih, List.append_assoc]

@[simp] theorem run_inl {B : O' → Type} (g : Handler O' B σ ω) (p : Interaction O A α) (s : σ) :
    (p.inl (B := B)).run (h.sum g) s = p.run h s := by
  induction p generalizing s with
  | ret a => rfl
  | perform o next ih => simp only [inl, run_perform, Handler.sum, ih]

/-- **The invariant rule**: what every operation keeps, a run keeps. -/
theorem run_inv {I : σ → Prop} (hstep : ∀ o s, I s → I (h o s).2.1) (p : Interaction O A α) {s : σ}
    (hs : I s) : I (p.run h s).state := by
  induction p generalizing s with
  | ret a => exact hs
  | perform o next ih => exact ih _ (hstep o s hs)

variable (h) in
/-- Two runs of a program at once, the second given the answers of the first: the condition holds of
each operation and the two states it is performed in. -/
def Along (Q : O → σ → σ → Prop) : Interaction O A α → σ → σ → Prop
  | ret _, _, _ => True
  | perform o next, s, t => Q o s t ∧ (next (h o s).1).Along Q (h o s).2.1 (h o t).2.1

@[simp] theorem along_ret {Q : O → σ → σ → Prop} (a : α) (s t : σ) :
    (ret a : Interaction O A α).Along h Q s t := trivial

@[simp] theorem along_perform {Q : O → σ → σ → Prop} (o : O) (next : A o → Interaction O A α)
    (s t : σ) : (perform o next).Along h Q s t ↔
      Q o s t ∧ (next (h o s).1).Along h Q (h o s).2.1 (h o t).2.1 := .rfl

/-- An operation that cannot tell two states apart. -/
structure Same (h : Handler O A σ ω) (o : O) (s t : σ) : Prop where
  /-- The answers agree. -/
  answer : (h o s).1 = (h o t).1
  /-- So does the output. -/
  output : (h o s).2.2 = (h o t).2.2

/-- **The two-run rule.** Where two states are related and each operation of the run meets the
condition, the program returns and outputs the same from both, and ends in related states. -/
theorem Along.run_eq {Q : O → σ → σ → Prop} {I : σ → σ → Prop}
    (hsame : ∀ o s t, I s t → Q o s t → Same h o s t)
    (hkeep : ∀ o s t, I s t → I (h o s).2.1 (h o t).2.1) {p : Interaction O A α} {s t : σ}
    (hp : p.Along h Q s t) (hI : I s t) :
    (p.run h s).result = (p.run h t).result ∧ (p.run h s).output = (p.run h t).output ∧
      I (p.run h s).state (p.run h t).state := by
  induction p generalizing s t with
  | ret a => exact ⟨rfl, rfl, hI⟩
  | perform o next ih =>
    obtain ⟨hq, hp⟩ := hp
    obtain ⟨hanswer, houtput⟩ := hsame o s t hI hq
    obtain ⟨hr, ho, hI'⟩ := ih _ hp (hkeep o s t hI)
    simp only [run_perform, ← hanswer, ← houtput, hr, ho, true_and]
    exact hI'

end Interaction
