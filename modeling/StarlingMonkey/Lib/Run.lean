import StarlingMonkey.Lib.Outcome

/-!
# Runs of an event machine

A machine reads one event after another: `step s e` is the outcome of event `e` in state `s`. A
throw is an ordinary step (the caller sees the exception, the machine goes on from the state it
left); an abort ends the run.

* `Machine.RunWhere ok s t`: some list of events leads from `s` to `t`, and every event met the
  condition `ok` in the state it was read in. `Machine.Run` is the unconditioned case.
* `RunWhere.inv` is the invariant rule: what holds at the start and is kept by every step that
  meets the condition holds at the end.
* `Machine.exec` evaluates a list of events, and `runWhere_of_exec` turns an evaluation into a
  run, which is how a concrete history is exhibited.
-/

/-- An event machine: the outcome of one event in one state. -/
structure Machine (π χ σ ε : Type) where
  /-- The outcome of an event. -/
  step : σ → ε → Outcome π χ σ σ

namespace Machine

variable {π χ σ ε : Type} (M : Machine π χ σ ε)

/-- Runs all of whose steps meet the condition `ok`. -/
inductive RunWhere (ok : σ → ε → Prop) : σ → σ → Prop where
  /-- The empty run. -/
  | refl (s : σ) : RunWhere ok s s
  /-- One more event. -/
  | tail {s t u : σ} {e : ε} (h : RunWhere ok s t) (hok : ok t e)
      (hstep : (M.step t e).state? = some u) : RunWhere ok s u

/-- Runs without a condition on the steps. -/
abbrev Run : σ → σ → Prop := M.RunWhere fun _ _ => True

variable {M} {ok ok' : σ → ε → Prop} {s t u : σ}

/-- **The invariant rule.** -/
theorem RunWhere.inv {I : σ → Prop} (hrun : M.RunWhere ok s t) (h0 : I s)
    (hstep : ∀ s e t, I s → ok s e → (M.step s e).state? = some t → I t) : I t := by
  induction hrun with
  | refl => exact h0
  | tail _ hok hs ih => exact hstep _ _ _ ih hok hs

/-- The invariant rule, from a specification of the step. -/
theorem RunWhere.inv_of_sat {I : σ → Prop} {E : π → Prop} (hrun : M.RunWhere ok s t) (h0 : I s)
    (hstep : ∀ s e, I s → ok s e → (M.step s e).Sat I I E) : I t :=
  hrun.inv h0 fun s e _ hs hok ht => (hstep s e hs hok).state? ht

theorem RunWhere.mono (hrun : M.RunWhere ok s t) (h : ∀ s e, ok s e → ok' s e) :
    M.RunWhere ok' s t := by
  induction hrun with
  | refl => exact .refl s
  | tail _ hok hs ih => exact ih.tail (h _ _ hok) hs

theorem RunWhere.trans (h : M.RunWhere ok s t) (h' : M.RunWhere ok t u) : M.RunWhere ok s u := by
  induction h' with
  | refl => exact h
  | tail _ hok hs ih => exact ih.tail hok hs

/-- One more event, which returns. -/
theorem RunWhere.tail_ok (h : M.RunWhere ok s t) (e : ε) (hok : ok t e)
    (hstep : M.step t e = .ok u) : M.RunWhere ok s u :=
  h.tail hok (congrArg Outcome.state? hstep)

theorem RunWhere.run (hrun : M.RunWhere ok s t) : M.Run s t :=
  hrun.mono fun _ _ _ => trivial

variable (M)

/-- Read a list of events, stopping at the first abort. -/
def exec (s : σ) : List ε → Option σ
  | [] => some s
  | e :: es => (M.step s e).state? >>= fun t => exec t es

/-- The states in which the events of a list are read. -/
def Meets (ok : σ → ε → Prop) (s : σ) : List ε → Prop
  | [] => True
  | e :: es => ok s e ∧ ∀ t, (M.step s e).state? = some t → Meets ok t es

variable {M}

private theorem runWhere_exec_aux {r : σ} {es : List ε} (h : M.RunWhere ok r s)
    (hm : M.Meets ok s es) (hx : M.exec s es = some t) : M.RunWhere ok r t := by
  induction es generalizing s with
  | nil => cases hx; exact h
  | cons e es ih =>
    cases hs : (M.step s e).state? with
    | none => simp [exec, hs] at hx
    | some u =>
      have hx' : M.exec u es = some t := by simpa [exec, hs] using hx
      exact ih (h.tail hm.1 hs) (hm.2 u hs) hx'

/-- An evaluation is a run. -/
theorem runWhere_of_exec {es : List ε} (hm : M.Meets ok s es) (hx : M.exec s es = some t) :
    M.RunWhere ok s t :=
  runWhere_exec_aux (.refl s) hm hx

/-- A condition on the events alone is checked event by event. -/
theorem meets_of_forall {es : List ε} (h : ∀ e ∈ es, ∀ s, ok s e) : M.Meets ok s es := by
  induction es generalizing s with
  | nil => trivial
  | cons e es ih => exact ⟨h e (by simp) s, fun u _ => ih fun e' he' => h e' (by simp [he'])⟩

/-- An evaluation is an unconditioned run. -/
theorem run_of_exec {es : List ε} (hx : M.exec s es = some t) : M.Run s t :=
  runWhere_of_exec (meets_of_forall fun _ _ _ => trivial) hx

/-- A run is exhibited by evaluating a list of events and testing the state it ends in. -/
theorem exists_run_of_exec (es : List ε) {P : σ → Bool} (h : (M.exec s es).any P = true) :
    ∃ t, M.Run s t ∧ P t = true := by
  obtain ⟨t, ht, hP⟩ := (Option.any_eq_true P _).mp h
  exact ⟨t, run_of_exec ht, hP⟩

/-- The same for runs under a condition on the events. -/
theorem exists_runWhere_of_exec (ok : σ → ε → Prop) (es : List ε) {P : σ → Bool}
    (hok : ∀ e ∈ es, ∀ s, ok s e) (h : (M.exec s es).any P = true) :
    ∃ t, M.RunWhere ok s t ∧ P t = true := by
  obtain ⟨t, ht, hP⟩ := (Option.any_eq_true P _).mp h
  exact ⟨t, runWhere_of_exec (meets_of_forall hok) ht, hP⟩

/-- The condition on a list of events is decided by evaluating the list. -/
instance decidableMeets (ok : σ → ε → Prop) [∀ s e, Decidable (ok s e)] :
    ∀ (s : σ) (es : List ε), Decidable (M.Meets ok s es)
  | _, [] => .isTrue trivial
  | s, e :: es =>
    match h : (M.step s e).state? with
    | none => decidable_of_iff (ok s e) (by simp [Meets, h])
    | some u =>
      have := decidableMeets ok u es
      decidable_of_iff (ok s e ∧ M.Meets ok u es) (by simp [Meets, h])

end Machine
