import StarlingMonkey.Lib.Run
import Mathlib.Logic.Relation

/-!
# Operations that call out to code that performs operations

An operation may run code it does not know in the middle of its work, and that code may perform
operations of the same system, which in turn run such code. `Reentrant` is such a system: an
environment `η` says what the code does when an operation calls out to it. Calls are of several
kinds `κ`, and the code that is run may be restricted differently for each.

* `Reentrant.Calls inner n k`: what code nested at most `n` deep can do to the state in a call of
  kind `k`, when it performs operations that satisfy `inner k`.
* `Reentrant.Lawful`: an environment whose code does only that, at some depth.
* `Calls.le` is the rule of the library. Relations, one for each kind, that are reflexive and
  transitive and hold between the states around every operation, provided that the code the
  operation calls out to keeps to them, hold around everything such code can do.
-/

open Relation

/-- A system whose operations call out. -/
structure Reentrant (π χ σ η ι κ : Type) where
  /-- Perform an operation in an environment. -/
  perform : η → σ → ι → Outcome π χ σ σ
  /-- In a call of each kind, the code of an environment leads to related states only. -/
  Within : (κ → σ → σ → Prop) → η → Prop
  within_mono : ∀ {R R' : κ → σ → σ → Prop} {env : η}, (∀ k s t, R k s t → R' k s t) →
    Within R env → Within R' env

namespace Reentrant

variable {π χ σ η ι κ : Type} (S : Reentrant π χ σ η ι κ) (inner : κ → ι → Prop)

/-- What code nested at most `n` deep can do: perform operations one after another, in
environments whose code is nested less deep. Code that is not nested at all does nothing. -/
def Calls : ℕ → κ → σ → σ → Prop
  | 0 => fun _ => Eq
  | n + 1 => fun k => ReflTransGen fun s t => ∃ env i, inner k i ∧ S.Within (Calls n) env ∧
      (S.perform env s i).state? = some t

/-- The code of the environment performs operations of the system, nested to some depth. -/
def Lawful (env : η) : Prop := ∃ n, S.Within (S.Calls inner n) env

variable {S inner} {K : κ → σ → σ → Prop}

/-- **The rule for code that is called out to.** -/
theorem Calls.le (hrefl : ∀ k s, K k s s) (htrans : ∀ k s t u, K k s t → K k t u → K k s u)
    (hop : ∀ env k s i, S.Within K env → inner k i →
      (S.perform env s i).Sat (K k s) (K k s) fun _ => True) :
    ∀ n k s t, S.Calls inner n k s t → K k s t := by
  intro n
  induction n with
  | zero =>
    rintro k s _ rfl
    exact hrefl k s
  | succ n ih =>
    intro k s t h
    induction h with
    | refl => exact hrefl k s
    | tail _ hstep hs =>
      obtain ⟨env, i, hi, hw, ht⟩ := hstep
      exact htrans _ _ _ _ hs ((hop env k _ i (S.within_mono ih hw) hi).state? ht)

/-- A lawful environment keeps to such relations. -/
theorem Lawful.within {env : η} (h : S.Lawful inner env) (hrefl : ∀ k s, K k s s)
    (htrans : ∀ k s t u, K k s t → K k t u → K k s u)
    (hop : ∀ env k s i, S.Within K env → inner k i →
      (S.perform env s i).Sat (K k s) (K k s) fun _ => True) : S.Within K env := by
  obtain ⟨n, hn⟩ := h
  exact S.within_mono (Calls.le hrefl htrans hop n) hn

/-- Performing one operation is something that nested code can do. -/
theorem Calls.perform {n : ℕ} {k : κ} {env : η} {s t : σ} {i : ι} (hi : inner k i)
    (hw : S.Within (S.Calls inner n) env) (ht : (S.perform env s i).state? = some t) :
    S.Calls inner (n + 1) k s t :=
  .single ⟨env, i, hi, hw, ht⟩

/-- The code performs one operation, in an environment whose code does nothing. -/
theorem Calls.perform_quiet {k : κ} {env : η} {s t : σ} {i : ι} (hi : inner k i)
    (hw : S.Within (fun _ => Eq) env) (ht : (S.perform env s i).caught = .ok t) :
    S.Calls inner 1 k s t :=
  Calls.perform hi hw (Outcome.state?_of_caught ht)

/-- Code that does nothing is nested to every depth. -/
theorem Calls.refl (n : ℕ) (k : κ) (s : σ) : S.Calls inner n k s s := by
  cases n with
  | zero => rfl
  | succ n => exact ReflTransGen.refl

end Reentrant
