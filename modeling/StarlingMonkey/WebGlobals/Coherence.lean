import StarlingMonkey.WebGlobals.Aborting

/-!
# The graph of abort signals

`Coherent` is the invariant of the signals and of the aborts in progress: dependent signals and
their sources know of each other, a signal that depends on others is aborted exactly if one of them
is, and what is left of the algorithms of a signal is what is due and has not run. Each kind of
`SignalStep` keeps it.
-/

namespace WebGlobals

open Protocol

variable {g g' : Signalling} {as as' : List Aborting}

/-- The fields of a signal that its creation fixes, and who knows of it. -/
structure Graph (g : Signalling) : Prop where
  links : ∀ x d, d ∈ (g.signals x).dependentSignals ↔ x ∈ (g.signals d).sourceSignals
  roots : ∀ d, ∀ x ∈ (g.signals d).sourceSignals, (g.signals x).dependent = false ∧
    (g.signals d).dependent = true ∧ x < g.nextSignal
  unborn : ∀ x, g.nextSignal ≤ x → g.signals x = .new
  created : ∀ x r dependent sources, .created x r dependent sources ∈ g.log →
    x < g.nextSignal ∧ dependent = (g.signals x).dependent ∧ sources = (g.signals x).sourceSignals ∧
      (dependent = true → r = none)
  born : ∀ x, x < g.nextSignal → ∃ r, .created x r (g.signals x).dependent
    (g.signals x).sourceSignals ∈ g.log
  reason : ∀ x r, (g.signals x).abortReason = some r ↔ .aborted x r ∈ g.log ∨
    ∃ dependent sources, .created x (some r) dependent sources ∈ g.log
  shared : ∀ d, (g.signals d).dependent = true → ((g.signals d).aborted = true ↔
    ∃ x ∈ (g.signals d).sourceSignals, (g.signals x).aborted = true)

/-- A signal runs its abort steps only after the source that aborted it first. -/
def InOrder (g : Signalling) (a : Aborting) : Prop :=
  (∀ d ∈ a.dependents, ∃ x ∈ (g.signals d).sourceSignals,
    (∃ r, FirstAborted (g.signals d).sourceSignals x r g.log) ∧
      (x = a.signal ∨ .fired x ∈ g.log)) ∧
  ((g.signals a.signal).dependent = true → ∃ x ∈ (g.signals a.signal).sourceSignals,
    (∃ r, FirstAborted (g.signals a.signal).sourceSignals x r g.log) ∧ .fired x ∈ g.log)

/-- An abort stays in order as the log grows. -/
theorem InOrder.mono {a b : Aborting} (h : InOrder g a) (hsignal : b.signal = a.signal)
    (hdependents : b.dependents = a.dependents)
    (hfields : ∀ x, x = a.signal ∨ x ∈ a.dependents →
      (g'.signals x).dependent = (g.signals x).dependent ∧
      (g'.signals x).sourceSignals = (g.signals x).sourceSignals)
    (hlog : g.log <+: g'.log) : InOrder g' b := by
  obtain ⟨l, hlog⟩ := hlog
  have hfired {x : ℕ} (hx : .fired x ∈ g.log) : .fired x ∈ g'.log :=
    hlog ▸ List.mem_append_left _ hx
  obtain ⟨hds, hself⟩ := h
  rw [InOrder, hsignal, hdependents]
  refine ⟨fun d hd => ?_, fun hdep => ?_⟩
  · obtain ⟨x, hx, ⟨r, hfirst⟩, hbefore⟩ := hds d hd
    rw [(hfields d (.inr hd)).2]
    exact ⟨x, hx, ⟨r, hlog ▸ hfirst.append l⟩, hbefore.imp_right hfired⟩
  · obtain ⟨hdependent, hsources⟩ := hfields a.signal (.inl rfl)
    obtain ⟨x, hx, ⟨r, hfirst⟩, hbefore⟩ := hself (hdependent ▸ hdep)
    rw [hsources]
    exact ⟨x, hx, ⟨r, hlog ▸ hfirst.append l⟩, hfired hbefore⟩

/-- Where the abort steps of the signals are. -/
structure Coherent (g : Signalling) (as : List Aborting) : Prop where
  graph : Graph g
  waiting : ∀ x r, .aborted x r ∈ g.log →
    .began x ∈ g.log ∨ x ∈ as.flatMap Aborting.dependents
  waits : ∀ x ∈ as.flatMap Aborting.dependents, (∃ r, .aborted x r ∈ g.log) ∧ .began x ∉ g.log
  nodup : (as.map Aborting.signal ++ as.flatMap Aborting.dependents).Nodup
  began : ∀ x, .began x ∈ g.log → (∃ r, .aborted x r ∈ g.log) ∧
    (g.signals x).abortAlgorithms = [] ∧
    (x ∈ as.map Aborting.signal ∨ (ranOf x g.log = due x g.log ∧ .fired x ∈ g.log))
  fresh : ∀ x, .began x ∉ g.log → (g.signals x).abortAlgorithms = due x g.log ∧
    ranOf x g.log = [] ∧ .fired x ∉ g.log
  current : ∀ a ∈ as, .began a.signal ∈ g.log ∧
    due a.signal g.log = ranOf a.signal g.log ++ a.pending ∧
    (a.fired = true ↔ .fired a.signal ∈ g.log) ∧ (a.fired = true → a.pending = [])
  order : ∀ a ∈ as, InOrder g a
  protocol : Kept SignalAllowed g.log

namespace Graph

/-- A signal is aborted if its reason is set. -/
theorem aborted_iff (h : Graph g) {x : ℕ} : (g.signals x).aborted = true ↔
    (∃ r, .aborted x r ∈ g.log) ∨ ∃ r d s, .created x (some r) d s ∈ g.log := by
  rw [AbortSignal.aborted, Option.isSome_iff_exists]
  constructor
  · rintro ⟨r, hr⟩
    rcases (h.reason x r).mp hr with hr | ⟨d, s, hr⟩
    · exact .inl ⟨r, hr⟩
    · exact .inr ⟨r, d, s, hr⟩
  · rintro (⟨r, hr⟩ | ⟨r, d, s, hr⟩)
    · exact ⟨r, (h.reason x r).mpr (.inl hr)⟩
    · exact ⟨r, (h.reason x r).mpr (.inr ⟨d, s, hr⟩)⟩

theorem not_aborted (h : Graph g) {x : ℕ} (hx : (g.signals x).aborted = false) :
    (∀ r, .aborted x r ∉ g.log) ∧ ∀ r d s, .created x (some r) d s ∉ g.log := by
  have hno : ¬ (g.signals x).aborted = true := by simp [hx]
  rw [h.aborted_iff, not_or] at hno
  refine ⟨fun r hr => hno.1 ⟨r, hr⟩, fun r d s hr => hno.2 ⟨r, d, s, hr⟩⟩

/-- Nothing was recorded about a signal that was not created. -/
theorem not_aborted_of_le (h : Graph g) {x : ℕ} (hx : g.nextSignal ≤ x) :
    (g.signals x).aborted = false := by
  rw [h.unborn x hx]
  rfl

theorem not_mem_sources (h : Graph g) {x d : ℕ} (hx : g.nextSignal ≤ x) :
    x ∉ (g.signals d).sourceSignals :=
  fun hmem => absurd (h.roots d x hmem).2.2 (Nat.not_lt.mpr hx)

theorem lt_of_source (h : Graph g) {x d : ℕ} (hmem : x ∈ (g.signals d).sourceSignals) :
    d < g.nextSignal := by
  by_contra hle
  rw [h.unborn d (Nat.not_lt.mp hle)] at hmem
  cases hmem

end Graph

/-! ### Steps that create a signal -/

/-- A new signal, which depends on the sources. -/
theorem Graph.create (h : Graph g) (sig : AbortSignal) (hsources : ∀ x ∈ sig.sourceSignals,
      (g.signals x).dependent = false ∧ (g.signals x).aborted = false ∧ x < g.nextSignal)
    (hnone : sig.sourceSignals ≠ [] → sig.dependent = true)
    (hreason : sig.dependent = true → sig.abortReason = none)
    (hlog : g'.log = g.log ++ [.created g.nextSignal sig.abortReason sig.dependent
      sig.sourceSignals]) (hnext : g'.nextSignal = g.nextSignal + 1)
    (hself : ∃ ds, g'.signals g.nextSignal = { sig with dependentSignals := ds } ∧ ds = [])
    (hothers : ∀ x, x ≠ g.nextSignal → ∃ ds, g'.signals x =
      { g.signals x with dependentSignals := ds } ∧
      ∀ d, d ∈ ds ↔ d ∈ (g.signals x).dependentSignals ∨
        (d = g.nextSignal ∧ x ∈ sig.sourceSignals)) : Graph g' := by
  obtain ⟨_, hself, rfl⟩ := hself
  have hnew : g.nextSignal ∉ sig.sourceSignals := fun hmem =>
    absurd (hsources _ hmem).2.2 (lt_irrefl _)
  have hfields (x : ℕ) (hx : x ≠ g.nextSignal) :
      (g'.signals x).abortReason = (g.signals x).abortReason ∧
      (g'.signals x).dependent = (g.signals x).dependent ∧
      (g'.signals x).sourceSignals = (g.signals x).sourceSignals := by
    obtain ⟨ds, heq, -⟩ := hothers x hx
    rw [heq]
    exact ⟨rfl, rfl, rfl⟩
  have hbefore (x : ℕ) (r : Option Reason) (d : Bool) (s : List ℕ)
      (hmem : .created x r d s ∈ g.log) : x ≠ g.nextSignal :=
    Nat.ne_of_lt (h.created x r d s hmem).1
  constructor
  case links =>
    intro x d
    by_cases hx : x = g.nextSignal
    · -- nothing depends on the new signal yet
      subst hx
      rw [hself]
      by_cases hd : d = g.nextSignal
      · subst hd
        simp [hself, hnew]
      · rw [(hfields d hd).2.2]
        simp [h.not_mem_sources (le_refl _)]
    · obtain ⟨ds, heq, hds⟩ := hothers x hx
      rw [heq]
      show d ∈ ds ↔ _
      rw [hds, h.links]
      by_cases hd : d = g.nextSignal
      · subst hd
        rw [hself, h.unborn _ (le_refl _)]
        simp [AbortSignal.new]
      · rw [(hfields d hd).2.2]
        simp [hd]
  case roots =>
    intro d x hmem
    have hsource : (g.signals x).dependent = false ∧ (g'.signals d).dependent = true ∧
        x < g.nextSignal := by
      by_cases hd : d = g.nextSignal
      · subst hd
        rw [hself] at hmem ⊢
        obtain ⟨hdep, -, hlt⟩ := hsources x hmem
        exact ⟨hdep, hnone (List.ne_nil_of_mem hmem), hlt⟩
      · rw [(hfields d hd).2.2] at hmem
        rw [(hfields d hd).2.1]
        exact h.roots d x hmem
    obtain ⟨hx, hd, hlt⟩ := hsource
    rw [(hfields x (Nat.ne_of_lt hlt)).2.1, hnext]
    exact ⟨hx, hd, Nat.lt_succ_of_lt hlt⟩
  case unborn =>
    intro x hx
    rw [hnext] at hx
    have hne : x ≠ g.nextSignal := by omega
    obtain ⟨ds, heq, hds⟩ := hothers x hne
    have hunborn := h.unborn x (by omega)
    have hnil : ds = [] := by
      refine List.eq_nil_iff_forall_not_mem.mpr fun d hd => ?_
      rcases (hds d).mp hd with hd | ⟨-, hd⟩
      · rw [hunborn] at hd
        cases hd
      · exact absurd (hsources x hd).2.2 (by omega)
    rw [heq, hnil, hunborn]
    rfl
  case created =>
    intro x r dependent sources hmem
    rw [hlog] at hmem
    rw [hnext]
    rcases List.mem_append.mp hmem with hmem | hmem
    · obtain ⟨hlt, hdep, hsrc, hr⟩ := h.created x r dependent sources hmem
      have hne := Nat.ne_of_lt hlt
      rw [(hfields x hne).2.1, (hfields x hne).2.2]
      exact ⟨Nat.lt_succ_of_lt hlt, hdep, hsrc, hr⟩
    · cases List.mem_singleton.mp hmem
      rw [hself]
      exact ⟨Nat.lt_succ_self _, rfl, rfl, hreason⟩
  case born =>
    intro x hx
    rw [hnext] at hx
    rw [hlog]
    by_cases hne : x = g.nextSignal
    · subst hne
      rw [hself]
      exact ⟨_, List.mem_append_right _ (List.mem_singleton_self _)⟩
    · obtain ⟨r, hr⟩ := h.born x (by omega)
      rw [(hfields x hne).2.1, (hfields x hne).2.2]
      exact ⟨r, List.mem_append_left _ hr⟩
  case reason =>
    intro x r
    rw [hlog]
    by_cases hne : x = g.nextSignal
    · -- its reason is the one it was born with: the log says nothing else of it
      subst hne
      have hno := h.not_aborted (h.not_aborted_of_le (le_refl g.nextSignal))
      rw [hself]
      constructor
      · intro hr
        refine .inr ⟨sig.dependent, sig.sourceSignals, List.mem_append_right _ ?_⟩
        rw [show sig.abortReason = some r from hr]
        exact List.mem_singleton_self _
      · rintro (hr | ⟨d, s, hr⟩)
        · rcases List.mem_append.mp hr with hr | hr
          · exact absurd hr (hno.1 r)
          · cases List.mem_singleton.mp hr
        · rcases List.mem_append.mp hr with hr | hr
          · exact absurd hr (hno.2 r d s)
          · have heq := List.mem_singleton.mp hr
            simp only [SignalRecord.created.injEq] at heq
            exact heq.2.1.symm
    · rw [(hfields x hne).1, h.reason]
      simp only [List.mem_append, List.mem_singleton, reduceCtorEq, or_false,
        SignalRecord.created.injEq, hne, false_and]
  case shared =>
    intro d hd
    by_cases hne : d = g.nextSignal
    · -- a dependent signal is made only if none of its sources is aborted
      subst hne
      rw [hself] at hd ⊢
      have hno : ¬ ∃ x ∈ sig.sourceSignals, (g'.signals x).aborted = true := by
        rintro ⟨x, hx, haborted⟩
        have hlt := (hsources x hx).2.2
        rw [AbortSignal.aborted, (hfields x (Nat.ne_of_lt hlt)).1] at haborted
        have hsafe := (hsources x hx).2.1
        rw [AbortSignal.aborted, haborted] at hsafe
        cases hsafe
      simp [AbortSignal.aborted, hreason hd] at hno ⊢
      exact hno
    · rw [(hfields d hne).2.1] at hd
      rw [AbortSignal.aborted, (hfields d hne).1, (hfields d hne).2.2, ← AbortSignal.aborted,
        h.shared d hd]
      refine exists_congr fun x => and_congr_right fun hx => ?_
      rw [AbortSignal.aborted, AbortSignal.aborted,
        (hfields x (Nat.ne_of_lt (h.roots d x hx).2.2)).1]

/-! ### Steps that leave the graph as it is -/

/-- Records other than creations and aborts, and algorithms, do not matter to the graph. -/
theorem Graph.quiet (h : Graph g) (hnext : g'.nextSignal = g.nextSignal)
    (hsignals : ∀ x, g'.signals x =
      { g.signals x with abortAlgorithms := (g'.signals x).abortAlgorithms })
    (hunborn : ∀ x, g.nextSignal ≤ x → (g'.signals x).abortAlgorithms = [])
    (hcreated : ∀ x r d s, .created x r d s ∈ g'.log ↔ .created x r d s ∈ g.log)
    (haborted : ∀ x r, .aborted x r ∈ g'.log ↔ .aborted x r ∈ g.log) : Graph g' := by
  have hreason (x : ℕ) : (g'.signals x).abortReason = (g.signals x).abortReason := by
    rw [hsignals]
  have hdependent (x : ℕ) : (g'.signals x).dependent = (g.signals x).dependent := by
    rw [hsignals]
  have hsources (x : ℕ) : (g'.signals x).sourceSignals = (g.signals x).sourceSignals := by
    rw [hsignals]
  have hdependents (x : ℕ) :
      (g'.signals x).dependentSignals = (g.signals x).dependentSignals := by
    rw [hsignals]
  constructor
  case links => simpa only [hdependents, hsources] using h.links
  case roots => simpa only [hdependent, hsources, hnext] using h.roots
  case unborn =>
    intro x hx
    rw [hnext] at hx
    rw [hsignals, hunborn x hx, h.unborn x hx]
    rfl
  case created => simpa only [hcreated, hdependent, hsources, hnext] using h.created
  case born => simpa only [hcreated, hdependent, hsources, hnext] using h.born
  case reason => simpa only [hreason, hcreated, haborted] using h.reason
  case shared => simpa only [AbortSignal.aborted, hreason, hdependent, hsources] using h.shared

/-- `signal_abort` aborts a signal that depends on none, and what depends on it. -/
theorem Graph.abort (h : Graph g) {signal : ℕ} {reason : Reason} {ds : List ℕ}
    (hlt : signal < g.nextSignal) (hroot : (g.signals signal).dependent = false)
    (hmem : ∀ x, x ∈ ds ↔ x ∈ (g.signals signal).dependentSignals ∧
      (g.signals x).aborted = false)
    (hnext : g'.nextSignal = g.nextSignal)
    (hlog : g'.log = g.log ++ (signal :: ds).map (.aborted · reason))
    (hnew : (g.signals signal).aborted = false)
    (hsignals : ∀ x, g'.signals x =
      if x ∈ signal :: ds then { g.signals x with abortReason := some reason } else g.signals x) :
    Graph g' := by
  have hdependent (x : ℕ) : (g'.signals x).dependent = (g.signals x).dependent := by
    rw [hsignals]
    split_ifs <;> rfl
  have hsources (x : ℕ) : (g'.signals x).sourceSignals = (g.signals x).sourceSignals := by
    rw [hsignals]
    split_ifs <;> rfl
  have hdependents (x : ℕ) :
      (g'.signals x).dependentSignals = (g.signals x).dependentSignals := by
    rw [hsignals]
    split_ifs <;> rfl
  have haborted (x : ℕ) : (g'.signals x).aborted = true ↔
      x ∈ signal :: ds ∨ (g.signals x).aborted = true := by
    rw [hsignals]
    split_ifs with hx
    · simp [AbortSignal.aborted, hx]
    · simp [hx]
  have hcreated (x : ℕ) (r : Option Reason) (d : Bool) (s : List ℕ) :
      .created x r d s ∈ g'.log ↔ .created x r d s ∈ g.log := by
    rw [hlog]
    simp
  -- the dependent signals of the signal are signals that were created
  have hborn (x : ℕ) (hx : x ∈ signal :: ds) : x < g.nextSignal := by
    rcases List.mem_cons.mp hx with rfl | hx
    · exact hlt
    · exact h.lt_of_source ((h.links signal x).mp ((hmem x).mp hx).1)
  constructor
  case links => simpa only [hdependents, hsources] using h.links
  case roots => simpa only [hdependent, hsources, hnext] using h.roots
  case unborn =>
    intro x hx
    rw [hnext] at hx
    rw [hsignals, if_neg fun hmem => absurd (hborn x hmem) (Nat.not_lt.mpr hx)]
    exact h.unborn x hx
  case created => simpa only [hcreated, hdependent, hsources, hnext] using h.created
  case born => simpa only [hcreated, hdependent, hsources, hnext] using h.born
  case reason =>
    intro x r
    simp only [hcreated]
    rw [hsignals, hlog]
    split_ifs with hx
    · have hsafe : (g.signals x).aborted = false := by
        rcases List.mem_cons.mp hx with rfl | hx
        · exact hnew
        · exact ((hmem x).mp hx).2
      have hno := h.not_aborted hsafe
      simp only [Option.some.injEq, List.mem_append, List.mem_map, SignalRecord.aborted.injEq,
        hno.1 r, hno.2 r, false_or, exists_const, or_false]
      constructor
      · rintro rfl
        exact ⟨x, hx, rfl, rfl⟩
      · rintro ⟨y, -, -, hr⟩
        exact hr
    · rw [h.reason]
      simp only [List.mem_append, List.mem_map, SignalRecord.aborted.injEq]
      constructor
      · rintro (hr | hr)
        · exact .inl (.inl hr)
        · exact .inr hr
      · rintro ((hr | ⟨y, hy, rfl, -⟩) | hr)
        · exact .inl hr
        · exact absurd hy hx
        · exact .inr hr
  case shared =>
    intro d hd
    rw [hdependent] at hd
    rw [haborted, hsources, h.shared d hd]
    simp only [haborted]
    constructor
    · rintro (hx | ⟨x, hx, hax⟩)
      · rcases List.mem_cons.mp hx with rfl | hx
        · rw [hroot] at hd
          cases hd
        · exact ⟨signal, (h.links signal d).mp ((hmem d).mp hx).1, .inl List.mem_cons_self⟩
      · exact ⟨x, hx, .inr hax⟩
    · rintro ⟨x, hx, hax | hax⟩
      · rcases List.mem_cons.mp hax with rfl | hax
        · by_cases hd' : (g.signals d).aborted = true
          · exact .inr ((h.shared d hd).mp hd')
          · refine .inl (List.mem_cons_of_mem _ ((hmem d).mpr ⟨(h.links x d).mpr hx, ?_⟩))
            simpa using hd'
        · -- a dependent signal is no source
          have hxd := (h.roots x signal ((h.links signal x).mp ((hmem x).mp hax).1)).2.1
          rw [(h.roots d x hx).1] at hxd
          cases hxd
      · exact .inr ⟨x, hx, hax⟩

/-! ### Steps keep the invariant -/

namespace Coherent

variable {x : ℕ}

theorem not_began (h : Coherent g as) (hx : (g.signals x).aborted = false) : .began x ∉ g.log := by
  intro hmem
  obtain ⟨⟨r, hr⟩, -⟩ := h.began x hmem
  exact (h.graph.not_aborted hx).1 r hr

theorem began_of_mem (h : Coherent g as) (hx : x ∈ as.map Aborting.signal) : .began x ∈ g.log := by
  obtain ⟨a, ha, rfl⟩ := List.mem_map.mp hx
  exact (h.current a ha).1

/-- A new signal. -/
theorem create (h : Coherent g as) {sig : AbortSignal} (hgraph : Graph g')
    (hlog : g'.log = g.log ++ [.created g.nextSignal sig.abortReason sig.dependent
      sig.sourceSignals])
    (halgorithms : ∀ x, (g'.signals x).abortAlgorithms = (g.signals x).abortAlgorithms)
    (hfields : ∀ x, x < g.nextSignal → (g'.signals x).dependent = (g.signals x).dependent ∧
      (g'.signals x).sourceSignals = (g.signals x).sourceSignals)
    (hsources : sig.dependent = true → ∀ x ∈ sig.sourceSignals,
      (∃ s, .created x none false s ∈ g.log) ∧ ∀ r, .aborted x r ∉ g.log) : Coherent g' as := by
  have hmem {r : SignalRecord} (hr : ∀ r' d s, r ≠ .created g.nextSignal r' d s) :
      r ∈ g'.log ↔ r ∈ g.log := by
    rw [hlog, List.mem_append, List.mem_singleton, or_iff_left (hr _ _ _)]
  have hdue (x : ℕ) : due x g'.log = due x g.log := by
    rw [hlog]
    exact due_concat_of_ne (by simp) (by simp)
  have hran (x : ℕ) : ranOf x g'.log = ranOf x g.log := by
    rw [hlog]
    exact ranOf_concat_of_ne (by simp)
  have hborn {x : ℕ} (hx : ∃ r, .aborted x r ∈ g.log) : x < g.nextSignal := by
    by_contra hle
    obtain ⟨r, hr⟩ := hx
    exact (h.graph.not_aborted (h.graph.not_aborted_of_le (Nat.not_lt.mp hle))).1 r hr
  constructor
  case graph => exact hgraph
  case waiting =>
    intro x r hr
    rw [hmem (by simp)] at hr ⊢
    exact h.waiting x r hr
  case waits =>
    intro x hx
    simp only [hmem (r := .began x) (by simp), hmem (r := .aborted x _) (by simp)]
    exact h.waits x hx
  case nodup => exact h.nodup
  case began =>
    intro x hx
    simp only [hmem (r := .began x) (by simp), hmem (r := .aborted x _) (by simp),
      hmem (r := .fired x) (by simp), hdue, hran, halgorithms] at hx ⊢
    exact h.began x hx
  case fresh =>
    intro x hx
    simp only [hmem (r := .began x) (by simp), hmem (r := .fired x) (by simp), hdue, hran,
      halgorithms] at hx ⊢
    exact h.fresh x hx
  case current =>
    intro a ha
    simp only [hmem (r := .began a.signal) (by simp), hmem (r := .fired a.signal) (by simp), hdue,
      hran]
    exact h.current a ha
  case order =>
    intro a ha
    -- whatever aborts, or waits to, was created before
    refine (h.order a ha).mono rfl rfl (fun x hx => hfields x (hborn ?_)) ⟨_, hlog.symm⟩
    rcases hx with rfl | hx
    · exact (h.began _ (h.current a ha).1).1
    · exact (h.waits x (List.mem_flatMap.mpr ⟨a, ha, hx⟩)).1
  case protocol =>
    rw [hlog]
    refine h.protocol.concat ⟨fun r d s hr => ?_, hsources⟩
    exact absurd (h.graph.created _ r d s hr).1 (lt_irrefl _)

/-- A signal that depends on none. -/
theorem create_root (h : Coherent g as) {sig : AbortSignal} (hdependent : sig.dependent = false)
    (hsources : sig.sourceSignals = []) (hdependents : sig.dependentSignals = [])
    (halgorithms : sig.abortAlgorithms = []) : Coherent (g.create sig) as := by
  have hself := g.create_self sig
  have hother (x : ℕ) (hx : x ≠ g.nextSignal) := g.create_of_ne sig hx
  have hgraph : Graph (g.create sig) := by
    refine h.graph.create sig ?_ ?_ ?_ rfl rfl ⟨_, ?_, hdependents⟩ fun x hx => ?_
    · simp [hsources]
    · simp [hsources]
    · simp [hdependent]
    · rw [hself]
    · exact ⟨_, hother x hx, by simp [hsources]⟩
  refine h.create hgraph rfl (fun x => ?_) (fun x hx => ?_) (by simp [hdependent])
  · by_cases hx : x = g.nextSignal
    · subst hx
      rw [hself, halgorithms, h.graph.unborn _ (le_refl _)]
      rfl
    · rw [hother x hx]
  · rw [hother x (Nat.ne_of_lt hx)]
    exact ⟨rfl, rfl⟩

/-- The reason of a new signal is made before it. -/
theorem of_nextError (h : Coherent g as) (n : ℕ) : Coherent { g with nextError := n } as :=
  ⟨⟨h.graph.links, h.graph.roots, h.graph.unborn, h.graph.created, h.graph.born, h.graph.reason,
    h.graph.shared⟩, h.waiting, h.waits, h.nodup, h.began, h.fresh, h.current, h.order, h.protocol⟩

theorem reasonOf (h : Coherent g as) (reason : Option ℕ) : Coherent (g.reasonOf reason).2 as := by
  cases reason with
  | none => exact h.of_nextError _
  | some v => exact h

/-- `create_dependent_abort_signal`. -/
theorem any (h : Coherent g as) {signals : List ℕ} (hsignals : ∀ x ∈ signals, x < g.nextSignal) :
    Coherent (g.createDependentAbortSignal signals) as := by
  rw [Signalling.createDependentAbortSignal]
  split
  next reason heq => exact h.create_root rfl rfl rfl rfl
  next hnone =>
    have hsafe (y : ℕ) (hy : y ∈ signals) : (g.signals y).aborted = false := by
      rw [List.findSome?_eq_none_iff] at hnone
      rw [AbortSignal.aborted, hnone y hy]
      rfl
    -- a dependent signal among those given stands for its own sources
    set sources := g.collectSources [] signals with hsources
    have hroots (x : ℕ) (hx : x ∈ sources) : (g.signals x).dependent = false ∧
        (g.signals x).aborted = false ∧ x < g.nextSignal := by
      rw [hsources, Signalling.mem_collectSources] at hx
      obtain hx | ⟨y, hy, hx⟩ := hx
      · cases hx
      · split at hx
        next hdep =>
          obtain ⟨hroot, -, hlt⟩ := h.graph.roots y x hx
          refine ⟨hroot, ?_, hlt⟩
          have hno := mt (h.graph.shared y hdep).mpr (by simp [hsafe y hy])
          push Not at hno
          simpa using hno x hx
        next hdep =>
          subst hx
          exact ⟨by simpa using hdep, hsafe x hy, hsignals x hy⟩
    obtain ⟨hlog, hnext, hlinked⟩ := Signalling.linkSources_spec
      (g.create { AbortSignal.new with dependent := true, sourceSignals := sources }) g.nextSignal
      sources
    have hnew : g.nextSignal ∉ sources := fun hmem => absurd (hroots _ hmem).2.2 (lt_irrefl _)
    have hother (x : ℕ) (hx : x ≠ g.nextSignal) : (g.create { AbortSignal.new with
        dependent := true, sourceSignals := sources }).signals x = g.signals x :=
      g.create_of_ne _ hx
    have hgraph : Graph ((g.create { AbortSignal.new with
        dependent := true, sourceSignals := sources }).linkSources g.nextSignal sources) := by
      refine h.graph.create { AbortSignal.new with
        dependent := true, sourceSignals := sources } hroots (fun _ => rfl) (fun _ => rfl) hlog
        hnext ?_ fun x hx => ?_
      · obtain ⟨ds, heq, hds⟩ := hlinked g.nextSignal
        refine ⟨ds, by rw [heq, Signalling.create_self], ?_⟩
        refine List.eq_nil_iff_forall_not_mem.mpr fun d hd => ?_
        rcases (hds d).mp hd with hd | ⟨-, hd⟩
        · rw [Signalling.create_self] at hd
          cases hd
        · exact hnew hd
      · obtain ⟨ds, heq, hds⟩ := hlinked x
        rw [hother x hx] at heq hds
        exact ⟨ds, heq, hds⟩
    refine h.create hgraph hlog (fun x => ?_) (fun x hx => ?_) fun _ x hx => ?_
    · obtain ⟨ds, heq, -⟩ := hlinked x
      rw [heq]
      by_cases hx : x = g.nextSignal
      · subst hx
        rw [Signalling.create_self, h.graph.unborn _ (le_refl _)]
      · rw [hother x hx]
    · obtain ⟨ds, heq, -⟩ := hlinked x
      rw [heq, hother x (Nat.ne_of_lt hx)]
      exact ⟨rfl, rfl⟩
    · -- the protocol asks for sources that were created unaborted and are so still
      obtain ⟨hroot, hsafe, hlt⟩ := hroots x hx
      obtain ⟨haborted, hborn⟩ := h.graph.not_aborted hsafe
      obtain ⟨r, hr⟩ := h.graph.born x hlt
      cases r with
      | none =>
        rw [hroot] at hr
        exact ⟨⟨_, hr⟩, haborted⟩
      | some r => exact absurd hr (hborn r _ _)

/-- A signal is changed in its algorithms, and one thing is recorded. -/
theorem graph_of_modify (h : Graph g) {signal : ℕ} (hlt : signal < g.nextSignal)
    {f : List AbortAlgorithm → List AbortAlgorithm} {r : SignalRecord}
    (hcreated : ∀ x r' d s, r ≠ .created x r' d s) (haborted : ∀ x r', r ≠ .aborted x r') :
    Graph ((g.modify signal fun sig =>
      { sig with abortAlgorithms := f sig.abortAlgorithms }).record r) := by
  refine h.quiet rfl (fun x => ?_) (fun x hx => ?_) (fun x r' d s => ?_) fun x r' => ?_
  · by_cases hx : x = signal
    · subst hx
      simp [Signalling.modify, Signalling.record]
    · simp [Signalling.modify, Signalling.record, hx]
  · have hne : x ≠ signal := by omega
    simp [Signalling.modify, Signalling.record, hne, h.unborn x hx, AbortSignal.new]
  · simp [Signalling.modify, Signalling.record, (hcreated x r' d s).symm]
  · simp [Signalling.modify, Signalling.record, (haborted x r').symm]

/-- `run_abort_steps` takes the algorithms of a signal. -/
theorem begin_fields (g : Signalling) (signal x : ℕ) :
    ((g.begin signal).signals x).dependent = (g.signals x).dependent ∧
    ((g.begin signal).signals x).sourceSignals = (g.signals x).sourceSignals ∧
    ((g.begin signal).signals x).abortAlgorithms =
      if x = signal then [] else (g.signals x).abortAlgorithms := by
  by_cases hx : x = signal
  · subst hx
    simp [Signalling.begin, Signalling.modify, Signalling.record]
  · simp [Signalling.begin, Signalling.modify, Signalling.record, hx]

theorem graph_begin (h : Graph g) {signal : ℕ} (hlt : signal < g.nextSignal) :
    Graph (g.begin signal) :=
  graph_of_modify h hlt (f := fun _ => []) (by simp) (by simp)

/-- The reasons of some signals are set, and the abort steps of one begin. -/
theorem began_log {l l' : List SignalRecord} {xs : List ℕ} {signal : ℕ} {r : Reason}
    (hlog : l' = l ++ (xs.map (.aborted · r) ++ [.began signal])) (x : ℕ) :
    (.began x ∈ l' ↔ x = signal ∨ .began x ∈ l) ∧ (.fired x ∈ l' ↔ .fired x ∈ l) ∧
    (∀ r', .aborted x r' ∈ l' ↔ .aborted x r' ∈ l ∨ (x ∈ xs ∧ r' = r)) ∧
    due x l' = due x l ∧ ranOf x l' = ranOf x l := by
  subst hlog
  refine ⟨by simp [or_comm], by simp, fun r' => ?_, due_append (by simp) (by simp),
    ranOf_append (by simp)⟩
  simp only [List.mem_append, List.mem_map, SignalRecord.aborted.injEq, List.mem_singleton,
    reduceCtorEq, or_false]
  refine or_congr_right ⟨?_, ?_⟩
  · rintro ⟨y, hy, rfl, rfl⟩
    exact ⟨hy, rfl⟩
  · rintro ⟨hx, rfl⟩
    exact ⟨x, hx, rfl, rfl⟩

/-- Records that begin nothing and fire nothing, and what is due. -/
theorem of_registry (h : Coherent g as) (signal : ℕ) {r : SignalRecord} (hgraph : Graph g')
    (hlog : g'.log = g.log ++ [r])
    (hr : (∀ x, r ≠ .began x) ∧ (∀ x, r ≠ .fired x) ∧ (∀ x a, r ≠ .ran x a) ∧
      ∀ x reason, r ≠ .aborted x reason)
    (hfields : ∀ x, (g'.signals x).dependent = (g.signals x).dependent ∧
      (g'.signals x).sourceSignals = (g.signals x).sourceSignals)
    (hothers : ∀ x, x ≠ signal → (g'.signals x).abortAlgorithms = (g.signals x).abortAlgorithms ∧
      due x (g.log ++ [r]) = due x g.log)
    (hbegan : .began signal ∈ g.log → (g'.signals signal).abortAlgorithms = [])
    (hfresh : .began signal ∉ g.log →
      (g'.signals signal).abortAlgorithms = due signal (g.log ++ [r]))
    (hallowed : SignalAllowed g.log r) : Coherent g' as := by
  obtain ⟨hnb, hnf, hnr, hna⟩ := hr
  have hbeg (x : ℕ) : .began x ∈ g'.log ↔ .began x ∈ g.log := by
    rw [hlog, List.mem_append, List.mem_singleton, or_iff_left (hnb x).symm]
  have hfired (x : ℕ) : .fired x ∈ g'.log ↔ .fired x ∈ g.log := by
    rw [hlog, List.mem_append, List.mem_singleton, or_iff_left (hnf x).symm]
  have haborted (x : ℕ) (reason : Reason) : .aborted x reason ∈ g'.log ↔
      .aborted x reason ∈ g.log := by
    rw [hlog, List.mem_append, List.mem_singleton, or_iff_left (hna x reason).symm]
  have hran (x : ℕ) : ranOf x g'.log = ranOf x g.log := by
    rw [hlog]
    exact ranOf_concat_of_ne (hnr x)
  -- what is due is fixed when the abort steps begin
  have hdue (x : ℕ) (hx : .began x ∈ g.log) : due x g'.log = due x g.log := by
    rw [hlog, due_concat_of_began hx]
  constructor
  case graph => exact hgraph
  case waiting => simpa only [hbeg, haborted] using h.waiting
  case waits => simpa only [hbeg, haborted] using h.waits
  case nodup => exact h.nodup
  case began =>
    intro x hx
    rw [hbeg] at hx
    obtain ⟨hab, halg, hplace⟩ := h.began x hx
    simp only [haborted, hfired, hran, hdue x hx]
    refine ⟨hab, ?_, hplace⟩
    by_cases hxs : x = signal
    · subst hxs
      exact hbegan hx
    · rw [(hothers x hxs).1, halg]
  case fresh =>
    intro x hx
    rw [hbeg] at hx
    obtain ⟨halg, hranx, hfx⟩ := h.fresh x hx
    rw [hfired, hran]
    refine ⟨?_, hranx, hfx⟩
    by_cases hxs : x = signal
    · subst hxs
      rw [hfresh hx, hlog]
    · rw [(hothers x hxs).1, hlog, (hothers x hxs).2, halg]
  case current =>
    intro a ha
    have hcur := h.current a ha
    simp only [hbeg, hfired, hran, hdue _ hcur.1]
    exact hcur
  case order =>
    exact fun a ha => (h.order a ha).mono rfl rfl (fun x _ => hfields x) ⟨_, hlog.symm⟩
  case protocol =>
    rw [hlog]
    exact h.protocol.concat hallowed

/-- `add_abort_algorithm`. -/
theorem add (h : Coherent g as) {signal : ℕ} (a : AbortAlgorithm) (hlt : signal < g.nextSignal) :
    Coherent (g.add signal a) as := by
  rw [Signalling.add]
  split_ifs with haborted
  · exact h
  · have hsafe : (g.signals signal).aborted = false := by simpa using haborted
    have hbegan := h.not_began hsafe
    have hgraph := graph_of_modify h.graph hlt (f := (· ++ [a])) (r := .registered signal a)
      (by simp) (by simp)
    refine h.of_registry signal (r := .registered signal a) hgraph rfl (by simp) (fun x => ?_)
      (fun x hx => ⟨?_, ?_⟩) (fun hmem => absurd hmem hbegan) (fun _ => ?_)
      (h.graph.not_aborted hsafe)
    · by_cases hx : x = signal
      · subst hx
        simp [Signalling.modify, Signalling.record]
      · simp [Signalling.modify, Signalling.record, hx]
    · simp [Signalling.modify, Signalling.record, hx]
    · exact due_concat_of_ne (by simp [Ne.symm hx]) (by simp)
    · rw [due_registered hbegan, ← (h.fresh signal hbegan).1]
      simp [Signalling.modify, Signalling.record]

/-- `remove_abort_algorithm`. -/
theorem remove (h : Coherent g as) {signal : ℕ} (callback : ℕ) (hlt : signal < g.nextSignal) :
    Coherent (g.removeAbortAlgorithm signal callback) as := by
  have hgraph := graph_of_modify h.graph hlt (f := List.filter (· ≠ .runSteps callback))
    (r := .unregistered signal callback) (by simp) (by simp)
  rw [Signalling.removeAbortAlgorithm]
  refine h.of_registry signal (r := .unregistered signal callback) hgraph rfl (by simp)
    (fun x => ?_) (fun x hx => ⟨?_, ?_⟩) (fun hbegan => ?_) (fun hbegan => ?_) trivial
  · by_cases hx : x = signal
    · subst hx
      simp [Signalling.modify, Signalling.record]
    · simp [Signalling.modify, Signalling.record, hx]
  · simp [Signalling.modify, Signalling.record, hx]
  · exact due_concat_of_ne (by simp) (by simp [Ne.symm hx])
  · simp [Signalling.modify, Signalling.record, (h.began signal hbegan).2.1]
  · rw [due_unregistered hbegan, ← (h.fresh signal hbegan).1]
    simp [Signalling.modify, Signalling.record]

/-- What takes part in an abort is aborted. -/
theorem not_mem_of_not_aborted (h : Coherent g as) (hx : (g.signals x).aborted = false) :
    x ∉ as.map Aborting.signal ++ as.flatMap Aborting.dependents := by
  intro hmem
  rcases List.mem_append.mp hmem with hmem | hmem
  · exact h.not_began hx (h.began_of_mem hmem)
  · obtain ⟨⟨r, hr⟩, -⟩ := h.waits x hmem
    exact (h.graph.not_aborted hx).1 r hr

/-- A signal that is not aborted when its source is has that source as the first. -/
theorem firstAborted (h : Graph g) {signal d : ℕ} (hmem : signal ∈ (g.signals d).sourceSignals)
    (hd : (g.signals d).aborted = false) (r : Reason) (l : List SignalRecord) :
    FirstAborted (g.signals d).sourceSignals signal r (g.log ++ .aborted signal r :: l) := by
  refine ⟨g.log, l, rfl, fun x hx r' hr' => ?_⟩
  have haborted := (h.shared d (h.roots d signal hmem).2.1).mpr
    ⟨x, hx, h.aborted_iff.mpr (.inl ⟨r', hr'⟩)⟩
  rw [hd] at haborted
  cases haborted

/-- The reasons are set in the order the protocol asks for: the signal, then what depends on it. -/
theorem abort_allowed (h : Coherent g as) {signal : ℕ} {r : Reason} {ds : List ℕ}
    (hroot : (g.signals signal).dependent = false) (hnodup : (signal :: ds).Nodup)
    (hunaborted : ∀ x ∈ signal :: ds, (g.signals x).aborted = false)
    (hsource : ∀ d ∈ ds, signal ∈ (g.signals d).sourceSignals) :
    Kept SignalAllowed (g.log ++ (signal :: ds).map (.aborted · r)) := by
  refine h.protocol.extend fun l₁ r' l₂ heq => ?_
  obtain ⟨ys, zs, hyz, rfl, hzs⟩ := List.map_eq_append_iff.mp heq
  obtain ⟨y, zs, rfl, rfl, rfl⟩ := List.map_eq_cons_iff.mp hzs
  have hy : y ∈ signal :: ds := by
    rw [hyz]
    simp
  have hno := h.graph.not_aborted (hunaborted y hy)
  -- the reasons set before are those of other signals
  have hbefore : y ∉ ys := by
    rw [hyz] at hnodup
    exact fun hmem => (List.nodup_append.mp hnodup).2.2 y hmem y List.mem_cons_self rfl
  have hlog {r' : SignalRecord} (hr : ∀ x reason, r' ≠ .aborted x reason)
      (hmem : r' ∈ g.log ++ ys.map (.aborted · r)) : r' ∈ g.log := by
    refine (List.mem_append.mp hmem).resolve_right fun hmem => ?_
    obtain ⟨z, -, heq⟩ := List.mem_map.mp hmem
    exact hr z r heq.symm
  refine ⟨fun r' hr' => ?_, fun r' d s hr' => hno.2 r' d s (hlog (by simp) hr'),
    fun r' sources hr' => ?_⟩
  · rcases List.mem_append.mp hr' with hr' | hr'
    · exact hno.1 r' hr'
    · obtain ⟨z, hz, heq⟩ := List.mem_map.mp hr'
      cases heq
      exact hbefore hz
  · obtain ⟨-, hdep, rfl, -⟩ := h.graph.created y r' true sources (hlog (by simp) hr')
    have hyds : y ∈ ds := by
      rcases List.mem_cons.mp hy with rfl | hy
      · rw [hroot] at hdep
        cases hdep
      · exact hy
    refine ⟨signal, hsource y hyds, ?_⟩
    cases ys with
    | nil =>
      -- the first is the signal itself, which depends on none
      rw [List.nil_append, List.cons.injEq] at hyz
      exact absurd (hyz.1 ▸ hyds) (List.nodup_cons.mp hnodup).1
    | cons z ys =>
      rw [List.cons_append, List.cons.injEq] at hyz
      obtain ⟨rfl, -⟩ := hyz
      exact firstAborted h.graph (hsource y hyds) (hunaborted y hy) r _

/-- The signals of an abort are none of those that abort already. -/
theorem nodup_abort (h : Coherent g as) {signal : ℕ} {pending : List AbortAlgorithm}
    {ds : List ℕ} (hnodup : (signal :: ds).Nodup)
    (hunaborted : ∀ x ∈ signal :: ds, (g.signals x).aborted = false) :
    ((⟨signal, pending, false, ds⟩ :: as : List Aborting).map Aborting.signal ++
      (⟨signal, pending, false, ds⟩ :: as : List Aborting).flatMap Aborting.dependents).Nodup := by
  have hall : ((signal :: ds) ++ (as.map Aborting.signal ++
      as.flatMap Aborting.dependents)).Nodup := by
    refine List.nodup_append.mpr ⟨hnodup, h.nodup, ?_⟩
    rintro x hx y hy rfl
    exact h.not_mem_of_not_aborted (hunaborted x hx) hy
  refine (List.Perm.nodup_iff ?_).mp hall
  rw [List.map_cons, List.flatMap_cons, List.cons_append, List.cons_append]
  refine List.Perm.cons _ ?_
  rw [← List.append_assoc, ← List.append_assoc]
  exact List.perm_append_comm.append_right _

/-- `signal_abort`: the reasons are set, and the abort steps of the signal begin. -/
theorem abort (h : Coherent g as) {signal : ℕ} {reason : Option ℕ} {ds : List ℕ}
    (hlt : signal < g.nextSignal) (hroot : (g.signals signal).dependent = false)
    (hg : g.signalAbort signal reason = some (g', ds)) :
    Coherent (g'.begin signal)
      (⟨signal, (g'.signals signal).abortAlgorithms, false, ds⟩ :: as) := by
  have hself : signal ∉ (g.signals signal).dependentSignals := by
    intro hmem
    have hdep := (h.graph.roots signal signal ((h.graph.links signal signal).mp hmem)).2.1
    rw [hroot] at hdep
    cases hdep
  obtain ⟨r, hsafe, hnodup, hmem, hnext, hlog, hsignals⟩ := Signalling.signalAbort_spec hg hself
  have hgraph : Graph g' := h.graph.abort hlt hroot hmem hnext hlog hsafe hsignals
  have hnodup : (signal :: ds).Nodup :=
    List.nodup_cons.mpr ⟨fun hx => hself ((hmem signal).mp hx).1, hnodup⟩
  have hsource (d : ℕ) (hd : d ∈ ds) : signal ∈ (g.signals d).sourceSignals :=
    (h.graph.links signal d).mp ((hmem d).mp hd).1
  have hunaborted (x : ℕ) (hx : x ∈ signal :: ds) : (g.signals x).aborted = false := by
    rcases List.mem_cons.mp hx with rfl | hx
    · exact hsafe
    · exact ((hmem x).mp hx).2
  have hbegan := h.not_began hsafe
  -- what is recorded: the reasons, and that the abort steps of the signal begin
  have hlog' : (g'.begin signal).log =
      g.log ++ ((signal :: ds).map (.aborted · r) ++ [.began signal]) := by
    rw [Signalling.begin, Signalling.record]
    show g'.log ++ _ = _
    rw [hlog, List.append_assoc]
  have hbeg (x : ℕ) := (began_log hlog' x).1
  have hfired (x : ℕ) := (began_log hlog' x).2.1
  have haborted (x : ℕ) := (began_log hlog' x).2.2.1
  have hdue (x : ℕ) := (began_log hlog' x).2.2.2.1
  have hran (x : ℕ) := (began_log hlog' x).2.2.2.2
  -- what of the signals changes: the reasons, and the algorithms of the signal
  have hreasons (x : ℕ) : (g'.signals x).dependent = (g.signals x).dependent ∧
      (g'.signals x).sourceSignals = (g.signals x).sourceSignals ∧
      (g'.signals x).abortAlgorithms = (g.signals x).abortAlgorithms := by
    rw [hsignals]
    split_ifs <;> exact ⟨rfl, rfl, rfl⟩
  have hfields (x : ℕ) : ((g'.begin signal).signals x).dependent = (g.signals x).dependent ∧
      ((g'.begin signal).signals x).sourceSignals = (g.signals x).sourceSignals ∧
      ((g'.begin signal).signals x).abortAlgorithms =
        if x = signal then [] else (g.signals x).abortAlgorithms := by
    obtain ⟨hdependent, hsources, halgorithms⟩ := begin_fields g' signal x
    obtain ⟨hdependent', hsources', halgorithms'⟩ := hreasons x
    exact ⟨hdependent.trans hdependent', hsources.trans hsources', halgorithms' ▸ halgorithms⟩
  constructor
  case graph => exact graph_begin hgraph (hnext ▸ hlt)
  case waiting =>
    intro x r' hr'
    rw [haborted] at hr'
    rw [hbeg, List.flatMap_cons, List.mem_append]
    rcases hr' with hr' | ⟨hx, -⟩
    · rcases h.waiting x r' hr' with hx | hx
      · exact .inl (.inr hx)
      · exact .inr (.inr hx)
    · rcases List.mem_cons.mp hx with rfl | hx
      · exact .inl (.inl rfl)
      · exact .inr (.inl hx)
  case waits =>
    intro x hx
    simp only [hbeg, haborted, not_or]
    rw [List.flatMap_cons, List.mem_append] at hx
    rcases hx with hx | hx
    · have hx' := List.mem_cons_of_mem signal hx
      have hne : x ≠ signal := fun heq => (List.nodup_cons.mp hnodup).1 (heq ▸ hx)
      exact ⟨⟨r, .inr ⟨hx', rfl⟩⟩, hne, h.not_began (hunaborted x hx')⟩
    · obtain ⟨⟨r', hr'⟩, hb⟩ := h.waits x hx
      have hne : x ≠ signal := fun heq =>
        h.not_mem_of_not_aborted hsafe (List.mem_append_right _ (heq ▸ hx))
      exact ⟨⟨r', .inl hr'⟩, hne, hb⟩
  case nodup => exact h.nodup_abort hnodup hunaborted
  case began =>
    intro x hx
    simp only [haborted, hfired, hdue, hran, hfields]
    by_cases hxs : x = signal
    · subst hxs
      exact ⟨⟨r, .inr ⟨List.mem_cons_self, rfl⟩⟩, if_pos rfl, .inl List.mem_cons_self⟩
    · obtain ⟨⟨r', hr'⟩, halg, hplace⟩ := h.began x (((hbeg x).mp hx).resolve_left hxs)
      rw [if_neg hxs]
      exact ⟨⟨r', .inl hr'⟩, halg, hplace.imp_left (List.mem_cons_of_mem _)⟩
  case fresh =>
    intro x hx
    rw [hbeg, not_or] at hx
    rw [hfired, hdue, hran, (hfields x).2.2, if_neg hx.1]
    exact h.fresh x hx.2
  case current =>
    intro a ha
    simp only [hbeg, hfired, hdue, hran]
    rcases List.mem_cons.mp ha with rfl | ha
    · obtain ⟨halgorithms, hran, hfired⟩ := h.fresh signal hbegan
      refine ⟨.inl rfl, ?_, by simp [hfired], by simp⟩
      rw [hran, (hreasons signal).2.2, halgorithms]
      rfl
    · obtain ⟨hb, hrest⟩ := h.current a ha
      exact ⟨.inr hb, hrest⟩
  case order =>
    intro a ha
    rcases List.mem_cons.mp ha with rfl | ha
    · refine ⟨fun d hd => ?_, fun hdep => ?_⟩
      · rw [(hfields d).2.1, hlog', List.map_cons, List.cons_append]
        exact ⟨signal, hsource d hd, ⟨r, firstAborted h.graph (hsource d hd)
          (hunaborted d (List.mem_cons_of_mem _ hd)) r _⟩, .inl rfl⟩
      · rw [(hfields signal).1, hroot] at hdep
        cases hdep
    · exact (h.order a ha).mono rfl rfl (fun x _ => ⟨(hfields x).1, (hfields x).2.1⟩)
        ⟨_, hlog'.symm⟩
  case protocol =>
    rw [hlog', ← List.append_assoc]
    refine (h.abort_allowed hroot hnodup hunaborted hsource).concat ⟨?_, r, ?_⟩
    · intro hr'
      rcases List.mem_append.mp hr' with hr' | hr'
      · exact hbegan hr'
      · simp at hr'
    · exact List.mem_append_right _ (List.mem_map.mpr ⟨signal, List.mem_cons_self, rfl⟩)

/-- The abort steps of one signal at a time. -/
theorem signal_ne {a b : Aborting} (h : Coherent g (a :: as)) (hb : b ∈ as) :
    b.signal ≠ a.signal := by
  intro heq
  have hnodup := h.nodup
  rw [List.map_cons, List.cons_append, List.nodup_cons] at hnodup
  have hmem : b.signal ∈ as.map Aborting.signal := List.mem_map_of_mem hb
  exact hnodup.1 (List.mem_append_left _ (heq ▸ hmem))

/-- The signal whose abort steps run goes on, and what it does is recorded. -/
theorem of_record {a b : Aborting} {r : SignalRecord} (h : Coherent g (a :: as))
    (hsignal : b.signal = a.signal) (hdependents : b.dependents = a.dependents)
    (hr : r = .fired a.signal ∨ ∃ x, r = .ran a.signal x)
    (hdue : ∀ x, due x (g.log ++ [r]) = due x g.log)
    (hran : ∀ x, x ≠ a.signal → ranOf x (g.log ++ [r]) = ranOf x g.log)
    (hcurrent : due b.signal (g.log ++ [r]) = ranOf b.signal (g.log ++ [r]) ++ b.pending ∧
      (b.fired = true ↔ .fired b.signal ∈ g.log ++ [r]) ∧ (b.fired = true → b.pending = []))
    (hallowed : SignalAllowed g.log r) : Coherent (g.record r) (b :: as) := by
  obtain ⟨hbegan, -⟩ := h.current _ List.mem_cons_self
  -- nothing else is recorded
  have hsame {q : SignalRecord} (hnf : q ≠ .fired a.signal)
      (hnr : ∀ x, q ≠ .ran a.signal x) : q ∈ g.log ++ [r] ↔ q ∈ g.log := by
    rw [List.mem_append, List.mem_singleton, or_iff_left]
    rintro rfl
    rcases hr with heq | ⟨x, heq⟩
    · exact hnf heq
    · exact hnr x heq
  have hb (x : ℕ) := hsame (q := .began x) (by simp) (by simp)
  have ha (x : ℕ) (reason : Reason) := hsame (q := .aborted x reason) (by simp) (by simp)
  have hf (x : ℕ) (hx : x ≠ a.signal) := hsame (q := .fired x) (by simpa using hx) (by simp)
  constructor
  case graph =>
    refine h.graph.quiet rfl (fun _ => rfl) (fun x hx => ?_) (fun x r' d s => ?_) ha
    · rw [Signalling.record, h.graph.unborn x hx]
      rfl
    · exact hsame (by simp) (by simp)
  case waiting =>
    simpa only [Signalling.record, hb, ha, List.flatMap_cons, hdependents] using h.waiting
  case waits =>
    simpa only [Signalling.record, hb, ha, List.flatMap_cons, hdependents] using h.waits
  case nodup =>
    simpa only [List.map_cons, List.flatMap_cons, hsignal, hdependents] using h.nodup
  case began =>
    intro x hx
    obtain ⟨hab, halg, hplace⟩ := h.began x ((hb x).mp hx)
    simp only [Signalling.record, ha, hdue]
    refine ⟨hab, halg, ?_⟩
    by_cases hxs : x = a.signal
    · exact .inl (hxs ▸ hsignal ▸ List.mem_cons_self)
    · rw [hran x hxs, hf x hxs, List.map_cons, hsignal]
      exact hplace
  case fresh =>
    intro x hx
    have hx := mt (hb x).mpr hx
    have hne : x ≠ a.signal := fun heq => hx (heq ▸ hbegan)
    simp only [Signalling.record, hdue, hran x hne, hf x hne]
    exact h.fresh x hx
  case current =>
    intro c hc
    rcases List.mem_cons.mp hc with rfl | hc
    · exact ⟨(hb _).mpr (hsignal ▸ hbegan), hcurrent⟩
    · have hne := h.signal_ne hc
      simp only [Signalling.record, hb, hdue, hran _ hne, hf _ hne]
      exact h.current c (List.mem_cons_of_mem _ hc)
  case order =>
    intro c hc
    have hlog : g.log <+: (g.record r).log := List.prefix_append _ _
    rcases List.mem_cons.mp hc with rfl | hc
    · exact (h.order a List.mem_cons_self).mono hsignal hdependents (fun _ _ => ⟨rfl, rfl⟩) hlog
    · exact (h.order c (List.mem_cons_of_mem _ hc)).mono rfl rfl (fun _ _ => ⟨rfl, rfl⟩) hlog
  case protocol => exact h.protocol.concat hallowed

/-- An algorithm of the signal whose abort steps run. -/
theorem run {signal : ℕ} {a : AbortAlgorithm} {pending : List AbortAlgorithm} {fired : Bool}
    {ds : List ℕ} (h : Coherent g (⟨signal, a :: pending, fired, ds⟩ :: as)) :
    Coherent (g.record (.ran signal a)) (⟨signal, pending, fired, ds⟩ :: as) := by
  obtain ⟨hbegan, hdue, hfired, hpending⟩ := h.current _ List.mem_cons_self
  -- the event waits for the algorithms
  have hnot : fired = false := by
    cases fired with
    | false => rfl
    | true => cases hpending rfl
  subst hnot
  have hdue' (x : ℕ) : due x (g.log ++ [.ran signal a]) = due x g.log :=
    due_concat_of_ne (by simp) (by simp)
  refine h.of_record rfl rfl (.inr ⟨a, rfl⟩) hdue' (fun x hx => ?_) ⟨?_, ?_, by simp⟩
    ⟨hbegan, by simpa using hfired, pending, hdue⟩
  · exact ranOf_concat_of_ne (by simp [Ne.symm hx])
  · rw [hdue', hdue, ranOf_ran, List.append_assoc]
    rfl
  · simpa using hfired

/-- The event of the signal whose abort steps run. -/
theorem fire {signal : ℕ} {ds : List ℕ} (h : Coherent g (⟨signal, [], false, ds⟩ :: as)) :
    Coherent (g.record (.fired signal)) (⟨signal, [], true, ds⟩ :: as) := by
  obtain ⟨hbegan, hdue, hfired, -⟩ := h.current _ List.mem_cons_self
  have hdue' (x : ℕ) : due x (g.log ++ [.fired signal]) = due x g.log :=
    due_concat_of_ne (by simp) (by simp)
  have hran (x : ℕ) : ranOf x (g.log ++ [.fired signal]) = ranOf x g.log :=
    ranOf_concat_of_ne (by simp)
  have hallowed : SignalAllowed g.log (.fired signal) := by
    refine ⟨hbegan, by simpa using hfired, by simpa using hdue.symm, fun r sources hcreated => ?_⟩
    obtain ⟨-, hdep, rfl, -⟩ := h.graph.created _ _ _ _ hcreated
    exact (h.order _ List.mem_cons_self).2 hdep.symm
  refine h.of_record rfl rfl (.inl rfl) hdue' (fun x _ => hran x) ⟨?_, by simp, fun _ => rfl⟩
    hallowed
  rw [hdue', hran]
  exact hdue

/-- The abort steps of the next dependent signal. -/
theorem next {signal d : ℕ} {ds : List ℕ} (h : Coherent g (⟨signal, [], true, d :: ds⟩ :: as)) :
    Coherent (g.begin d) (⟨d, (g.signals d).abortAlgorithms, false, ds⟩ :: as) := by
  obtain ⟨hbegan, hdue, hfired, -⟩ := h.current _ List.mem_cons_self
  have hfired : .fired signal ∈ g.log := hfired.mp rfl
  -- the next one was aborted with the signal, and its steps have waited since
  obtain ⟨⟨r, hr⟩, hd⟩ := h.waits d (by simp)
  have hlt : d < g.nextSignal := by
    by_contra hle
    exact (h.graph.not_aborted (h.graph.not_aborted_of_le (Nat.not_lt.mp hle))).1 r hr
  have hlog : (g.begin d).log = g.log ++ (([] : List ℕ).map (.aborted · r) ++ [.began d]) := rfl
  have hb (x : ℕ) := (began_log hlog x).1
  have hf (x : ℕ) := (began_log hlog x).2.1
  have ha (x : ℕ) (r' : Reason) : .aborted x r' ∈ (g.begin d).log ↔ .aborted x r' ∈ g.log := by
    simpa using (began_log hlog x).2.2.1 r'
  have hdue' (x : ℕ) := (began_log hlog x).2.2.2.1
  have hran (x : ℕ) := (began_log hlog x).2.2.2.2
  have hfields := begin_fields g d
  have hnodup := h.nodup
  simp only [List.map_cons, List.flatMap_cons, List.cons_append] at hnodup
  have hnodup := (List.nodup_cons.mp hnodup).2
  constructor
  case graph => exact graph_begin h.graph hlt
  case waiting =>
    intro x r' hr'
    rw [ha] at hr'
    rw [hb, List.flatMap_cons, List.mem_append]
    rcases h.waiting x r' hr' with hx | hx
    · exact .inl (.inr hx)
    · rw [List.flatMap_cons, List.mem_append, List.mem_cons] at hx
      rcases hx with (hx | hx) | hx
      · exact .inl (.inl hx)
      · exact .inr (.inl hx)
      · exact .inr (.inr hx)
  case waits =>
    intro x hx
    simp only [hb, ha, not_or]
    have hx' : x ∈ ds ++ as.flatMap Aborting.dependents := by
      rwa [List.flatMap_cons] at hx
    obtain ⟨hab, hbx⟩ := h.waits x (by
      rw [List.flatMap_cons, List.cons_append]
      exact List.mem_cons_of_mem _ hx')
    refine ⟨hab, ?_, hbx⟩
    rintro rfl
    exact (List.nodup_cons.mp (List.nodup_append.mp hnodup).2.1).1 hx'
  case nodup =>
    rw [List.map_cons, List.flatMap_cons, List.cons_append]
    exact (List.perm_middle.nodup_iff).mp hnodup
  case began =>
    intro x hx
    simp only [ha, hf, hdue', hran, hfields]
    by_cases hxd : x = d
    · subst hxd
      exact ⟨⟨r, hr⟩, if_pos rfl, .inl List.mem_cons_self⟩
    · obtain ⟨hab, halg, hplace⟩ := h.began x (((hb x).mp hx).resolve_left hxd)
      rw [if_neg hxd]
      refine ⟨hab, halg, ?_⟩
      rcases hplace with hplace | hplace
      · rcases List.mem_cons.mp hplace with rfl | hplace
        · -- the signal before it is done
          exact .inr ⟨by simpa using hdue.symm, hfired⟩
        · exact .inl (List.mem_cons_of_mem _ hplace)
      · exact .inr hplace
  case fresh =>
    intro x hx
    rw [hb, not_or] at hx
    rw [hf, hdue', hran, (hfields x).2.2, if_neg hx.1]
    exact h.fresh x hx.2
  case current =>
    intro b hb'
    simp only [hb, hf, hdue', hran]
    rcases List.mem_cons.mp hb' with rfl | hb'
    · obtain ⟨halg, hrand, hfd⟩ := h.fresh d hd
      refine ⟨.inl rfl, ?_, by simp [hfd], by simp⟩
      rw [hrand, halg]
      rfl
    · obtain ⟨hb'', hrest⟩ := h.current b (List.mem_cons_of_mem _ hb')
      exact ⟨.inr hb'', hrest⟩
  case order =>
    intro b hb'
    have hsame (x : ℕ) : ((g.begin d).signals x).dependent = (g.signals x).dependent ∧
        ((g.begin d).signals x).sourceSignals = (g.signals x).sourceSignals :=
      ⟨(hfields x).1, (hfields x).2.1⟩
    rcases List.mem_cons.mp hb' with rfl | hb'
    · -- the event of the signal before it was fired
      have hbefore (d' : ℕ) (hd' : d' ∈ d :: ds) : ∃ y ∈ (g.signals d').sourceSignals,
          (∃ r', FirstAborted (g.signals d').sourceSignals y r' g.log) ∧ .fired y ∈ g.log := by
        obtain ⟨y, hy, hr', hyf⟩ := (h.order _ List.mem_cons_self).1 d' hd'
        exact ⟨y, hy, hr', hyf.elim (fun heq => heq ▸ hfired) id⟩
      have horder : InOrder g ⟨d, [], false, ds⟩ :=
        ⟨fun d' hd' => by
          obtain ⟨y, hy, hr', hyf⟩ := hbefore d' (List.mem_cons_of_mem _ hd')
          exact ⟨y, hy, hr', .inr hyf⟩, fun _ => hbefore d List.mem_cons_self⟩
      exact horder.mono rfl rfl (fun x _ => hsame x) ⟨_, hlog.symm⟩
    · exact (h.order b (List.mem_cons_of_mem _ hb')).mono rfl rfl (fun x _ => hsame x)
        ⟨_, hlog.symm⟩
  case protocol => exact h.protocol.concat ⟨hd, r, hr⟩

/-- The abort of a signal ends. -/
theorem finish {signal : ℕ} (h : Coherent g (⟨signal, [], true, []⟩ :: as)) : Coherent g as := by
  obtain ⟨hbegan, hdue, hfired, -⟩ := h.current _ List.mem_cons_self
  constructor
  case graph => exact h.graph
  case waiting => exact h.waiting
  case waits => exact h.waits
  case nodup => exact (List.nodup_cons.mp h.nodup).2
  case began =>
    intro x hx
    obtain ⟨hab, halg, hplace⟩ := h.began x hx
    refine ⟨hab, halg, ?_⟩
    rcases hplace with hplace | hplace
    · rcases List.mem_cons.mp hplace with rfl | hplace
      · exact .inr ⟨by simpa using hdue.symm, hfired.mp rfl⟩
      · exact .inl hplace
    · exact .inr hplace
  case fresh => exact h.fresh
  case current => exact fun a ha => h.current a (List.mem_cons_of_mem _ ha)
  case order => exact fun a ha => h.order a (List.mem_cons_of_mem _ ha)
  case protocol => exact h.protocol

/-- **Every step** keeps the invariant. -/
theorem step (hstep : SignalStep g as g' as') (h : Coherent g as) : Coherent g' as' := by
  cases hstep
  case stay => exact h
  case new => exact h.create_root rfl rfl rfl rfl
  case born reason => exact (h.reasonOf reason).create_root rfl rfl rfl rfl
  case any hsignals => exact h.any hsignals
  case add a hlt => exact h.add a hlt
  case remove callback hlt => exact h.remove callback hlt
  case abort hlt hroot hg => exact h.abort hlt hroot hg
  case run => exact h.run
  case fire => exact h.fire
  case next => exact h.next
  case finish => exact h.finish

theorem initial : Coherent .initial [] := by
  have hnew (x : ℕ) : Signalling.initial.signals x = .new := rfl
  have hlog : Signalling.initial.log = [] := rfl
  constructor
  case graph =>
    constructor <;> simp [Signalling.initial, AbortSignal.new]
  case protocol => exact kept_nil
  all_goals simp [hnew, hlog, AbortSignal.new, due, ranOf]

end Coherent

end WebGlobals
