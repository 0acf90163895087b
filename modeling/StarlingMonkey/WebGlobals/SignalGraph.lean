import StarlingMonkey.WebGlobals.Coherence

/-!
# Runs of the abort signals

What holds of the signals in every run: `signals_kept`.
-/

namespace WebGlobals

open Protocol

variable {g g' : Signalling} {as as' : List Aborting} {debug : Bool} {s t : Dom}

/-- Nothing is struck from the log. -/
theorem SignalStep.log_eq (hstep : SignalStep g as g' as') (h : Coherent g as) :
    ∃ l, g'.log = g.log ++ l := by
  cases hstep
  case stay => exact ⟨[], by simp⟩
  case new => exact ⟨_, rfl⟩
  case born reason =>
    cases reason with
    | none => exact ⟨_, rfl⟩
    | some v => exact ⟨_, rfl⟩
  case any signals _ =>
    rw [Signalling.createDependentAbortSignal]
    split
    · exact ⟨_, rfl⟩
    · exact ⟨_, (Signalling.linkSources_spec _ _ _).1⟩
  case add signal a _ =>
    rw [Signalling.add]
    split_ifs
    · exact ⟨[], by simp⟩
    · exact ⟨_, rfl⟩
  case remove => exact ⟨_, rfl⟩
  case abort signal reason ds hlt hroot hg =>
    have hself : signal ∉ (g.signals signal).dependentSignals := by
      intro hmem
      have hdep := (h.graph.roots signal signal ((h.graph.links signal signal).mp hmem)).2.1
      rw [hroot] at hdep
      cases hdep
    obtain ⟨r, -, -, -, -, hlog, -⟩ := Signalling.signalAbort_spec hg hself
    refine ⟨(signal :: ds).map (.aborted · r) ++ [.began signal], ?_⟩
    rw [← List.append_assoc, ← hlog]
    rfl
  case run => exact ⟨_, rfl⟩
  case fire => exact ⟨_, rfl⟩
  case next => exact ⟨_, rfl⟩
  case finish => exact ⟨[], by simp⟩

namespace Dom

/-- **The invariant** holds in every run. -/
theorem coherent_run (hrun : (domMachine debug).Run s t) (h : Coherent s.sig s.aborts) :
    Coherent t.sig t.aborts :=
  hrun.inv (I := fun s => Coherent s.sig s.aborts) h fun _ _ _ hs _ hstep =>
    Coherent.step (step_signalStep (Outcome.eq_ok_of_state? hstep)) hs

theorem log_run (hrun : (domMachine debug).Run s t) (h : Coherent s.sig s.aborts) :
    ∃ l, t.sig.log = s.sig.log ++ l := by
  have hboth : Coherent t.sig t.aborts ∧ ∃ l, t.sig.log = s.sig.log ++ l := by
    refine hrun.inv (I := fun t => Coherent t.sig t.aborts ∧ ∃ l, t.sig.log = s.sig.log ++ l)
      ⟨h, [], by simp⟩ ?_
    rintro u a v ⟨hu, l, hl⟩ - hstep
    have hsignals := step_signalStep (Outcome.eq_ok_of_state? hstep)
    obtain ⟨l', hl'⟩ := hsignals.log_eq hu
    exact ⟨Coherent.step hsignals hu, l ++ l', by rw [hl', hl, List.append_assoc]⟩
  exact hboth.2

/-- **Abort signals.** In every run: signals and those that depend on them know of each other, and
no signal depends on one that depends on others; a reason stays as it was set; a signal that depends
on others is aborted exactly if one of them is; the log keeps to `SignalAllowed`; and once no abort
is in progress, of each signal that was aborted exactly the algorithms that are due have run, and
its event was fired. -/
theorem signals_kept (hrun : (domMachine debug).Run initial s)
    (hnext : (domMachine debug).Run s t) :
    (∀ x d, d ∈ (s.sig.signals x).dependentSignals ↔ x ∈ (s.sig.signals d).sourceSignals) ∧
    (∀ d, ∀ x ∈ (s.sig.signals d).sourceSignals, (s.sig.signals x).dependent = false) ∧
    (∀ x r, (s.sig.signals x).abortReason = some r ↔ .aborted x r ∈ s.sig.log ∨
      ∃ dependent sources, .created x (some r) dependent sources ∈ s.sig.log) ∧
    (∀ x r, (s.sig.signals x).abortReason = some r → (t.sig.signals x).abortReason = some r) ∧
    (∀ d, (s.sig.signals d).dependent = true → ((s.sig.signals d).aborted = true ↔
      ∃ x ∈ (s.sig.signals d).sourceSignals, (s.sig.signals x).aborted = true)) ∧
    (∀ x, (s.sig.signals x).aborted = true → ∀ d ∈ (s.sig.signals x).dependentSignals,
      (s.sig.signals d).aborted = true) ∧
    Kept SignalAllowed s.sig.log ∧
    (s.aborts = [] → ∀ x r, .aborted x r ∈ s.sig.log →
      ranOf x s.sig.log = due x s.sig.log ∧ .fired x ∈ s.sig.log) := by
  have h : Coherent s.sig s.aborts := coherent_run hrun .initial
  have ht : Coherent t.sig t.aborts := coherent_run hnext h
  refine ⟨h.graph.links, fun d x hx => (h.graph.roots d x hx).1, h.graph.reason, ?_,
    h.graph.shared, ?_, h.protocol, ?_⟩
  · intro x r hr
    obtain ⟨l, hl⟩ := log_run hnext h
    rw [ht.graph.reason, hl]
    rcases (h.graph.reason x r).mp hr with hr | ⟨d, sources, hr⟩
    · exact .inl (List.mem_append_left _ hr)
    · exact .inr ⟨d, sources, List.mem_append_left _ hr⟩
  · intro x hx d hd
    have hsource := (h.graph.links x d).mp hd
    exact (h.graph.shared d (h.graph.roots d x hsource).2.1).mpr ⟨x, hsource, hx⟩
  · intro hnone x r hr
    have hbegan : .began x ∈ s.sig.log := by
      rcases h.waiting x r hr with hx | hx
      · exact hx
      · rw [hnone] at hx
        cases hx
    rcases (h.began x hbegan).2.2 with hx | hx
    · rw [hnone] at hx
      cases hx
    · exact hx

/-- A controller and what depends on it, at two removes: both have an algorithm, and one that the
first calls aborts again, to no effect. -/
theorem signals_kept_history : ∃ s, (domMachine true).Run initial s ∧
    s.sig.log = [.created 0 none false [], .created 1 none true [0], .created 2 none true [0],
      .registered 0 (.runSteps 7), .registered 2 (.runSteps 8), .aborted 0 (.value 5),
      .aborted 1 (.value 5), .aborted 2 (.value 5), .began 0, .ran 0 (.runSteps 7), .fired 0,
      .began 1, .fired 1, .began 2, .ran 2 (.runSteps 8), .fired 2] ∧
    (∀ x r, .aborted x r ∈ s.sig.log →
      ranOf x s.sig.log = due x s.sig.log ∧ .fired x ∈ s.sig.log) := by
  obtain ⟨s, hrun, hs⟩ := Machine.exists_run_of_exec (M := domMachine true) (s := initial)
    [.newSignal, .any [0], .any [1, 1], .addAbortAlgorithm 0 7, .addAbortAlgorithm 2 8,
      .abort 0 (some 5), .advance, .abort 0 none, .return_, .advance, .advance, .advance, .advance,
      .advance, .advance, .advance, .return_, .advance, .advance, .advance]
    (P := fun s => s.frames.isEmpty && s.sig.log = [.created 0 none false [],
      .created 1 none true [0], .created 2 none true [0], .registered 0 (.runSteps 7),
      .registered 2 (.runSteps 8), .aborted 0 (.value 5), .aborted 1 (.value 5),
      .aborted 2 (.value 5), .began 0, .ran 0 (.runSteps 7), .fired 0, .began 1, .fired 1,
      .began 2, .ran 2 (.runSteps 8), .fired 2]) (by decide)
  rw [Bool.and_eq_true, List.isEmpty_iff] at hs
  obtain ⟨-, -, -, -, -, -, -, hdone⟩ := signals_kept hrun (.refl s)
  refine ⟨s, hrun, of_decide_eq_true hs.2, hdone ?_⟩
  rw [aborts, hs.1]
  rfl

/-- **An algorithm that is removed in time.** An algorithm of the source removes one of the signal
that depends on it, which is aborted by then; that one does not run. And a signal that is aborted
from the start fires no event. -/
theorem removed_algorithm_skipped : ∃ s, (domMachine true).Run initial s ∧ s.frames = [] ∧
    s.sig.log = [.created 0 none false [], .created 1 none true [0], .registered 0 (.runSteps 7),
      .registered 1 (.runSteps 8), .aborted 0 (.value 5), .aborted 1 (.value 5), .began 0,
      .ran 0 (.runSteps 7), .unregistered 1 8, .fired 0, .began 1, .fired 1,
      .created 2 (some (.value 5)) false []] ∧
    .ran 1 (.runSteps 8) ∉ s.sig.log ∧ .fired 2 ∉ s.sig.log := by
  obtain ⟨s, hrun, hs⟩ := Machine.exists_run_of_exec (M := domMachine true) (s := initial)
    [.newSignal, .any [0], .addAbortAlgorithm 0 7, .addAbortAlgorithm 1 8, .abort 0 (some 5),
      .advance, .removeAbortAlgorithm 1 8, .return_, .advance, .advance, .advance, .advance,
      .advance, .advance, .any [0]]
    (P := fun s => s.frames.isEmpty && s.sig.log = [.created 0 none false [],
      .created 1 none true [0], .registered 0 (.runSteps 7), .registered 1 (.runSteps 8),
      .aborted 0 (.value 5), .aborted 1 (.value 5), .began 0, .ran 0 (.runSteps 7),
      .unregistered 1 8, .fired 0, .began 1, .fired 1,
      .created 2 (some (.value 5)) false []]) (by decide)
  rw [Bool.and_eq_true, List.isEmpty_iff] at hs
  have hlog := of_decide_eq_true hs.2
  refine ⟨s, hrun, hs.1, hlog, ?_, ?_⟩
  · rw [hlog]
    decide
  · rw [hlog]
    decide

end Dom

end WebGlobals
