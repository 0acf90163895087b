import StarlingMonkey.Lib.Run

/-!
# Foreign code as trees of calls

A system may call out, in the middle of an operation, to code that it does not know and that
performs operations of the same system. `Script` is that code written out: it ends, or performs
an operation and goes on, and for the calls out of that operation it comes with further scripts.
What a script does next depends on the state it finds, so that every reaction is covered, and the
tree has no bound on its depth.

* `CallingOut.run` runs a script, `CallingOut.env` the scripts an operation calls out to.
* `CallingOut.env_obeys` is the rule of the library. An invariant, and a relation between the
  states around a call, hold of everything scripts do, without an abort, as soon as they hold of
  every operation whose calls out keep to them.
* `CallingOut.watch` is checked at every call out. That no run aborts says that it holds in the
  middle of the operations too.
-/

/-- Foreign code that performs operations `ι`, is called in the ways `κ` and returns a `ρ`. -/
inductive Script (σ ι κ ρ : Type) where
  /-- The code returns. -/
  | done (r : ρ)
  /-- The code performs an operation, which may call out in turn, and goes on. -/
  | perform (i : ι) (inner : κ → σ → Script σ ι κ ρ) (next : σ → Script σ ι κ ρ)

/-- A system whose operations call out. -/
structure CallingOut (π χ σ ι κ ρ : Type) where
  /-- Perform an operation, given what is called out to. -/
  perform : (κ → σ → Except π (ρ × σ)) → σ → ι → Outcome π χ σ σ
  /-- What is checked at each call out: the abort, if the check fails. -/
  watch : κ → σ → Option π

namespace CallingOut

variable {π χ σ ι κ ρ : Type} (S : CallingOut π χ σ ι κ ρ)

/-- Run a script. The exceptions of its operations are caught. -/
def run : Script σ ι κ ρ → σ → Except π (ρ × σ)
  | .done r, s => .ok (r, s)
  | .perform i inner next, s =>
    match S.perform (fun k t =>
        match S.watch k t with
        | some p => .error p
        | none => run (inner k t) t) s i with
    | .ok t => run (next t) t
    | .threw _ t => run (next t) t
    | .panic p => .error p

/-- What an operation calls out to, when the foreign code consists of scripts. -/
def env (scripts : κ → σ → Script σ ι κ ρ) (k : κ) (t : σ) : Except π (ρ × σ) :=
  match S.watch k t with
  | some p => .error p
  | none => S.run (scripts k t) t

theorem run_perform (i : ι) (inner : κ → σ → Script σ ι κ ρ) (next : σ → Script σ ι κ ρ) (s : σ) :
    S.run (.perform i inner next) s =
      match S.perform (S.env inner) s i with
      | .ok t => S.run (next t) t
      | .threw _ t => S.run (next t) t
      | .panic p => .error p := by
  rw [run]
  rfl

/-- Code that keeps the invariant `I`, leads to states related by `R`, and does not abort. -/
def Obeys (I : σ → Prop) (R : σ → σ → Prop) (env : κ → σ → Except π (ρ × σ)) : Prop :=
  ∀ k s, I s → ∃ r t, env k s = .ok (r, t) ∧ I t ∧ R s t

variable {S} {I : σ → Prop} {R : σ → σ → Prop}

theorem run_obeys (hrefl : ∀ s, I s → R s s) (htrans : ∀ s t u, R s t → R t u → R s u)
    (hwatch : ∀ k s, I s → S.watch k s = none)
    (hperform : ∀ scripts, Obeys I R (S.env scripts) → ∀ s i, I s →
      (S.perform (S.env scripts) s i).Sat (fun t => I t ∧ R s t) (fun t => I t ∧ R s t)
        fun _ => False)
    (script : Script σ ι κ ρ) :
    ∀ s, I s → ∃ r t, S.run script s = .ok (r, t) ∧ I t ∧ R s t := by
  induction script with
  | done r => exact fun s hs => ⟨r, s, rfl, hs, hrefl s hs⟩
  | perform i inner next hinner hnext =>
    intro s hs
    have henv : Obeys I R (S.env inner) := by
      intro k t ht
      rw [env, hwatch k t ht]
      exact hinner k t t ht
    -- the operation does not abort, and the script goes on from the state it leaves
    have hgo {t : σ} (ht : I t ∧ R s t) : ∃ r u, S.run (next t) t = .ok (r, u) ∧ I u ∧ R s u := by
      obtain ⟨r, u, hu, hI, hR⟩ := hnext t t ht.1
      exact ⟨r, u, hu, hI, htrans s t u ht.2 hR⟩
    have hsat := hperform _ henv s i hs
    rw [run_perform]
    cases heq : S.perform (S.env inner) s i with
    | ok t => exact hgo (by rwa [heq] at hsat)
    | threw e t => exact hgo (by rwa [heq] at hsat)
    | panic p =>
      rw [heq] at hsat
      exact hsat.elim

/-- **The rule for foreign code.** -/
theorem env_obeys (hrefl : ∀ s, I s → R s s) (htrans : ∀ s t u, R s t → R t u → R s u)
    (hwatch : ∀ k s, I s → S.watch k s = none)
    (hperform : ∀ scripts, Obeys I R (S.env scripts) → ∀ s i, I s →
      (S.perform (S.env scripts) s i).Sat (fun t => I t ∧ R s t) (fun t => I t ∧ R s t)
        fun _ => False)
    (scripts : κ → σ → Script σ ι κ ρ) : Obeys I R (S.env scripts) := by
  intro k s hs
  rw [env, hwatch k s hs]
  exact run_obeys hrefl htrans hwatch hperform (scripts k s) s hs

/-- Call out. -/
def callOut {α : Type} (x : Except π α) : Outcome π χ σ α :=
  match x with
  | .ok a => .ok a
  | .error p => .panic p

/-- What is known of a call out to code that keeps to the rules. -/
theorem Obeys.sat {env : κ → σ → Except π (ρ × σ)} (h : Obeys I R env) {s : σ} (hs : I s) (k : κ)
    {P : ρ × σ → Prop} {Q : σ → Prop} {E : π → Prop} (hP : ∀ r t, I t → R s t → P (r, t)) :
    (callOut (env k s) : Outcome π χ σ (ρ × σ)).Sat P Q E := by
  obtain ⟨r, t, heq, hI, hR⟩ := h k s hs
  rw [heq]
  exact hP r t hI hR

end CallingOut
