import StarlingMonkey.WebGlobals.Dom
import StarlingMonkey.Lib.Protocol

/-!
# How signals are aborted

What the operations on signals come to, read off the log. `due` are the algorithms that the abort of
a signal owes: those that were registered, less those that were removed before its abort steps
began. `SignalStep` says what one step of the whole system does to the signals and to the aborts in
progress, and `Coherent` is the invariant, kept by each such step.
-/

namespace WebGlobals

/-! ### The log -/

section Log

/-- One record's effect on the algorithms that are due. Those of a signal whose abort steps have
begun stay as they are. -/
def dueStep (x : ℕ) (p : List AbortAlgorithm × Bool) : SignalRecord → List AbortAlgorithm × Bool
  | .registered g a => if g = x ∧ p.2 = false then (p.1 ++ [a], p.2) else p
  | .unregistered g callback =>
    if g = x ∧ p.2 = false then (p.1.filter (· ≠ .runSteps callback), p.2) else p
  | .began g => if g = x then (p.1, true) else p
  | _ => p

/-- The algorithms that were registered on a signal and not removed before its abort steps began,
in order. -/
def due (x : ℕ) (l : List SignalRecord) : List AbortAlgorithm := (l.foldl (dueStep x) ([], false)).1

/-- The algorithms of a signal that ran. -/
def ranOf (x : ℕ) (l : List SignalRecord) : List AbortAlgorithm :=
  l.filterMap fun
    | .ran g a => if g = x then some a else none
    | _ => none

/-- The signal was the first of the sources to be aborted, and with that reason. -/
def FirstAborted (sources : List ℕ) (x : ℕ) (reason : Reason) (l : List SignalRecord) : Prop :=
  ∃ l₁ l₂, l = l₁ ++ .aborted x reason :: l₂ ∧ ∀ y ∈ sources, ∀ r, .aborted y r ∉ l₁

/-- When a record may follow others. -/
def SignalAllowed (l : List SignalRecord) : SignalRecord → Prop
  | .created g _ dependent sources => (∀ r d s, .created g r d s ∉ l) ∧
      (dependent = true → ∀ x ∈ sources, (∃ s, .created x none false s ∈ l) ∧
        ∀ r, .aborted x r ∉ l)
  | .registered g _ => (∀ r, .aborted g r ∉ l) ∧ ∀ r d s, .created g (some r) d s ∉ l
  | .unregistered .. => True
  | .aborted g reason => (∀ r, .aborted g r ∉ l) ∧ (∀ r d s, .created g (some r) d s ∉ l) ∧
      ∀ r sources, .created g r true sources ∈ l → ∃ x ∈ sources, FirstAborted sources x reason l
  | .began g => .began g ∉ l ∧ ∃ r, .aborted g r ∈ l
  | .ran g a => .began g ∈ l ∧ .fired g ∉ l ∧ ∃ rest, due g l = ranOf g l ++ a :: rest
  | .fired g => .began g ∈ l ∧ .fired g ∉ l ∧ ranOf g l = due g l ∧
      ∀ r sources, .created g r true sources ∈ l →
        ∃ x ∈ sources, (∃ r, FirstAborted sources x r l) ∧ .fired x ∈ l

variable {x : ℕ} {l : List SignalRecord} {r : SignalRecord}

theorem foldl_dueStep_snd (x : ℕ) (l : List SignalRecord) :
    (l.foldl (dueStep x) ([], false)).2 = true ↔ .began x ∈ l := by
  induction l using List.reverseRecOn with
  | nil => simp
  | append_singleton l r ih =>
    rw [List.foldl_append, List.mem_append, ← ih]
    cases r with
    | registered g a =>
      simp only [List.foldl_cons, List.foldl_nil, dueStep]
      split_ifs <;> simp
    | unregistered g callback =>
      simp only [List.foldl_cons, List.foldl_nil, dueStep]
      split_ifs <;> simp
    | began g =>
      simp only [List.foldl_cons, List.foldl_nil, dueStep]
      split_ifs with h
      · simp [h]
      · simp [Ne.symm h]
    | _ => simp [dueStep]

theorem foldl_dueStep_of_began (h : .began x ∈ l) :
    l.foldl (dueStep x) ([], false) = (due x l, true) :=
  Prod.ext rfl ((foldl_dueStep_snd x l).mpr h)

theorem foldl_dueStep_of_not_began (h : .began x ∉ l) :
    l.foldl (dueStep x) ([], false) = (due x l, false) := by
  refine Prod.ext rfl ?_
  rwa [← foldl_dueStep_snd, Bool.not_eq_true] at h

theorem due_concat (x : ℕ) (l : List SignalRecord) (r : SignalRecord) :
    due x (l ++ [r]) = (dueStep x (l.foldl (dueStep x) ([], false)) r).1 := by
  rw [due, List.foldl_append]
  rfl

/-- Once the abort steps have begun, what is due is settled. -/
theorem due_concat_of_began (h : .began x ∈ l) : due x (l ++ [r]) = due x l := by
  rw [due_concat, foldl_dueStep_of_began h]
  cases r <;> simp [dueStep]

/-- Records that register or remove no algorithm of the signal. -/
theorem due_concat_of_ne (hadd : ∀ a, r ≠ .registered x a) (hremove : ∀ c, r ≠ .unregistered x c) :
    due x (l ++ [r]) = due x l := by
  rw [due_concat, due]
  cases r with
  | registered g a =>
    have hne : g ≠ x := by
      rintro rfl
      exact hadd a rfl
    simp [dueStep, hne]
  | unregistered g callback =>
    have hne : g ≠ x := by
      rintro rfl
      exact hremove callback rfl
    simp [dueStep, hne]
  | began g =>
    simp only [dueStep]
    split_ifs <;> rfl
  | _ => rfl

theorem due_registered (h : .began x ∉ l) (a : AbortAlgorithm) :
    due x (l ++ [.registered x a]) = due x l ++ [a] := by
  rw [due_concat, foldl_dueStep_of_not_began h]
  simp [dueStep]

theorem due_unregistered (h : .began x ∉ l) (callback : ℕ) :
    due x (l ++ [.unregistered x callback]) = (due x l).filter (· ≠ .runSteps callback) := by
  rw [due_concat, foldl_dueStep_of_not_began h]
  simp [dueStep]

theorem ranOf_concat_of_ne (h : ∀ a, r ≠ .ran x a) : ranOf x (l ++ [r]) = ranOf x l := by
  rw [ranOf, List.filterMap_append]
  cases r with
  | ran g a =>
    have hne : g ≠ x := by
      rintro rfl
      exact h a rfl
    simp [ranOf, hne]
  | _ => simp [ranOf]

theorem ranOf_ran (x : ℕ) (l : List SignalRecord) (a : AbortAlgorithm) :
    ranOf x (l ++ [.ran x a]) = ranOf x l ++ [a] := by
  simp [ranOf, List.filterMap_append]

/-- Records that register, remove and run no algorithm. -/
theorem due_append {l' : List SignalRecord} (hadd : ∀ g a, .registered g a ∉ l')
    (hremove : ∀ g c, .unregistered g c ∉ l') : due x (l ++ l') = due x l := by
  induction l' using List.reverseRecOn with
  | nil => rw [List.append_nil]
  | append_singleton l' r ih =>
    rw [← List.append_assoc, due_concat_of_ne, ih]
    · exact fun g a h => hadd g a (List.mem_append_left _ h)
    · exact fun g c h => hremove g c (List.mem_append_left _ h)
    · rintro a rfl
      exact hadd x a (List.mem_append_right _ (List.mem_singleton_self _))
    · rintro c rfl
      exact hremove x c (List.mem_append_right _ (List.mem_singleton_self _))

theorem ranOf_append {l' : List SignalRecord} (h : ∀ g a, .ran g a ∉ l') :
    ranOf x (l ++ l') = ranOf x l := by
  induction l' using List.reverseRecOn with
  | nil => rw [List.append_nil]
  | append_singleton l' r ih =>
    rw [← List.append_assoc, ranOf_concat_of_ne, ih]
    · exact fun g a hmem => h g a (List.mem_append_left _ hmem)
    · rintro a rfl
      exact h x a (List.mem_append_right _ (List.mem_singleton_self _))

theorem FirstAborted.append {sources : List ℕ} {reason : Reason}
    (h : FirstAborted sources x reason l) (l' : List SignalRecord) :
    FirstAborted sources x reason (l ++ l') := by
  obtain ⟨l₁, l₂, rfl, hno⟩ := h
  exact ⟨l₁, l₂ ++ l', by simp, hno⟩

end Log

/-! ### What the operations come to -/

namespace Signalling

variable {g : Signalling}

/-- The sources that are collected are those of the signals. -/
theorem mem_collectSources (g : Signalling) (signals sources : List ℕ) (x : ℕ) :
    x ∈ g.collectSources sources signals ↔ x ∈ sources ∨ ∃ y ∈ signals,
      if (g.signals y).dependent then x ∈ (g.signals y).sourceSignals else x = y := by
  induction signals generalizing sources with
  | nil => simp [collectSources]
  | cons y signals ih =>
    have hfold (ys : List ℕ) (sources : List ℕ) : x ∈ ys.foldl (fun sources source =>
        if sources.contains source then sources else sources ++ [source]) sources ↔
          x ∈ sources ∨ x ∈ ys := by
      induction ys generalizing sources with
      | nil => simp
      | cons z ys ih =>
        rw [List.foldl_cons, ih]
        split_ifs with hz
        · have hz : z ∈ sources := by simpa using hz
          rw [List.mem_cons]
          constructor
          · rintro (h | h)
            · exact .inl h
            · exact .inr (.inr h)
          · rintro (h | rfl | h)
            · exact .inl h
            · exact .inl hz
            · exact .inr h
        · simp [or_assoc]
    rw [collectSources]
    cases hy : (g.signals y).dependent with
    | false =>
      rw [Bool.not_false, if_pos rfl, ih]
      simp [hy, or_assoc]
    | true =>
      rw [Bool.not_true, if_neg Bool.false_ne_true, ih, hfold]
      simp [hy, or_assoc]

/-- Linking the sources of a signal changes what depends on them only. -/
theorem linkSources_spec (g : Signalling) (result : ℕ) (sources : List ℕ) :
    (g.linkSources result sources).log = g.log ∧
    (g.linkSources result sources).nextSignal = g.nextSignal ∧
    ∀ x, ∃ ds, (g.linkSources result sources).signals x =
        { g.signals x with dependentSignals := ds } ∧
      ∀ d, d ∈ ds ↔ d ∈ (g.signals x).dependentSignals ∨ (d = result ∧ x ∈ sources) := by
  induction sources generalizing g with
  | nil => exact ⟨rfl, rfl, fun x => ⟨_, rfl, by simp [linkSources]⟩⟩
  | cons y sources ih =>
    obtain ⟨hlog, hnext, hsignals⟩ := ih (g.modify y fun sig =>
      { sig with dependentSignals := sig.dependentSignals ++ [result] })
    refine ⟨hlog, hnext, fun x => ?_⟩
    obtain ⟨ds, heq, hds⟩ := hsignals x
    rw [linkSources, List.foldl_cons, ← linkSources, heq]
    by_cases hxy : x = y
    · subst hxy
      refine ⟨ds, by simp [modify], fun d => ?_⟩
      rw [hds]
      simp only [modify, Function.update_self, List.mem_append, List.mem_cons, List.not_mem_nil]
      tauto
    · refine ⟨ds, by simp [modify, hxy], fun d => ?_⟩
      rw [hds]
      simp [modify, hxy]

/-- The dependent signals that are not aborted get the reason, each once. -/
theorem abortDependents_spec (g : Signalling) (reason : Reason) (ds : List ℕ) :
    (g.abortDependents reason ds).2.Nodup ∧
    (∀ x, x ∈ (g.abortDependents reason ds).2 ↔ x ∈ ds ∧ (g.signals x).aborted = false) ∧
    (g.abortDependents reason ds).1.nextSignal = g.nextSignal ∧
    (g.abortDependents reason ds).1.log =
      g.log ++ (g.abortDependents reason ds).2.map (.aborted · reason) ∧
    ∀ x, (g.abortDependents reason ds).1.signals x =
      if x ∈ (g.abortDependents reason ds).2 then
        { g.signals x with abortReason := some reason } else g.signals x := by
  induction ds generalizing g with
  | nil => simp [abortDependents]
  | cons d ds ih =>
    rw [abortDependents]
    cases hd : (g.signals d).aborted with
    -- a dependent signal that is aborted already is left out
    | true =>
      rw [if_pos rfl]
      obtain ⟨hnodup, hmem, hnext, hlog, hsignals⟩ := ih g
      refine ⟨hnodup, fun x => ?_, hnext, hlog, hsignals⟩
      rw [hmem, List.mem_cons]
      constructor
      · exact fun h => ⟨.inr h.1, h.2⟩
      · rintro ⟨rfl | h, hx⟩
        · rw [hd] at hx
          cases hx
        · exact ⟨h, hx⟩
    -- the others get the reason, which makes them aborted for the rest of the list
    | false =>
      rw [if_neg Bool.false_ne_true]
      obtain ⟨hnodup, hmem, hnext, hlog, hsignals⟩ := ih (g.setReason d reason)
      have haborted (x : ℕ) : ((g.setReason d reason).signals x).aborted = false ↔
          x ≠ d ∧ (g.signals x).aborted = false := by
        by_cases hx : x = d
        · subst hx
          simp [setReason, modify, record, AbortSignal.aborted]
        · simp [setReason, modify, record, hx]
      have hd' : d ∉ ((g.setReason d reason).abortDependents reason ds).2 := by
        rw [hmem, haborted]
        exact fun h => h.2.1 rfl
      refine ⟨List.nodup_cons.mpr ⟨hd', hnodup⟩, fun x => ?_, hnext, ?_, fun x => ?_⟩
      · show x ∈ d :: _ ↔ _
        rw [List.mem_cons, List.mem_cons, hmem, haborted]
        constructor
        · rintro (rfl | ⟨h, -, hx⟩)
          · exact ⟨.inl rfl, hd⟩
          · exact ⟨.inr h, hx⟩
        · rintro ⟨rfl | h, hx⟩
          · exact .inl rfl
          · by_cases hxd : x = d
            · exact .inl hxd
            · exact .inr ⟨h, hxd, hx⟩
      · show (((g.setReason d reason).abortDependents reason ds).1).log = _
        rw [hlog]
        simp [setReason, modify, record]
      · show (((g.setReason d reason).abortDependents reason ds).1).signals x = _
        rw [hsignals]
        by_cases hx : x = d
        · subst hx
          rw [if_neg hd', if_pos (List.mem_cons_self)]
          simp [setReason, modify, record]
        · simp [setReason, modify, record, hx]

/-- What `signal_abort` does before it runs any abort steps. -/
theorem signalAbort_spec {g' : Signalling} {signal : ℕ} {reason : Option ℕ} {ds : List ℕ}
    (h : g.signalAbort signal reason = some (g', ds))
    (hself : signal ∉ (g.signals signal).dependentSignals) :
    ∃ r, (g.signals signal).aborted = false ∧ ds.Nodup ∧
      (∀ x, x ∈ ds ↔ x ∈ (g.signals signal).dependentSignals ∧ (g.signals x).aborted = false) ∧
      g'.nextSignal = g.nextSignal ∧
      g'.log = g.log ++ (signal :: ds).map (.aborted · r) ∧
      ∀ x, g'.signals x =
        if x ∈ signal :: ds then { g.signals x with abortReason := some r } else g.signals x := by
  rw [signalAbort] at h
  split at h
  next => cases h
  next hsafe =>
    -- making the reason changes no signal
    have hreason : (g.reasonOf reason).2.signals = g.signals ∧
        (g.reasonOf reason).2.nextSignal = g.nextSignal ∧
        (g.reasonOf reason).2.log = g.log := by
      cases reason <;> exact ⟨rfl, rfl, rfl⟩
    obtain ⟨hsignals, hnext, hlog⟩ := hreason
    set r := (g.reasonOf reason).1
    set g₁ := ((g.reasonOf reason).2).setReason signal r with hg₁
    have hold (x : ℕ) (hx : x ≠ signal) : g₁.signals x = g.signals x := by
      simp [hg₁, setReason, modify, record, hx, hsignals]
    have hnew : g₁.signals signal = { g.signals signal with abortReason := some r } := by
      simp [hg₁, setReason, modify, record, hsignals]
    have hlog₁ : g₁.log = g.log ++ [.aborted signal r] := by
      simp [hg₁, setReason, modify, record, hlog]
    obtain ⟨hnodup, hmem, hnext', hlog', hsignals'⟩ :=
      g₁.abortDependents_spec r (g₁.signals signal).dependentSignals
    simp only [Option.some.injEq] at h
    rw [show g.reasonOf reason = (r, (g.reasonOf reason).2) from rfl] at h
    dsimp only at h
    rw [← hg₁] at h
    -- the signal is none of its own dependents, so its reason does not change who is left
    have hmem' (x : ℕ) : x ∈ ds ↔
        x ∈ (g.signals signal).dependentSignals ∧ (g.signals x).aborted = false := by
      rw [h] at hmem
      rw [hmem, hnew]
      refine and_congr_right fun hx => ?_
      rw [hold x fun heq => hself (heq ▸ hx)]
    rw [h] at hnodup hnext' hlog' hsignals'
    have hsignal : signal ∉ ds := fun hx => hself ((hmem' signal).mp hx).1
    refine ⟨r, by simpa using hsafe, hnodup, hmem', ?_, ?_, fun x => ?_⟩
    · rw [hnext']
      exact hnext
    · rw [hlog', hlog₁]
      simp
    · rw [hsignals']
      by_cases hx : x = signal
      · subst hx
        rw [if_neg hsignal, if_pos List.mem_cons_self, hnew]
      · rw [hold x hx]
        simp [hx]

end Signalling

/-! ### Steps -/

/-- An abort in progress: the signal whose abort steps run, the algorithms to come, whether the
event was fired, and the dependent signals that come next. -/
structure Aborting where
  signal : ℕ
  pending : List AbortAlgorithm
  fired : Bool
  dependents : List ℕ

/-- What one step of the system does to the signals and to the aborts in progress. -/
inductive SignalStep : Signalling → List Aborting → Signalling → List Aborting → Prop where
  | stay (g : Signalling) (as : List Aborting) : SignalStep g as g as
  | new (g : Signalling) (as : List Aborting) : SignalStep g as (g.create .new) as
  | born (g : Signalling) (as : List Aborting) (reason : Option ℕ) :
    SignalStep g as (g.abortedSignal reason) as
  | any {g : Signalling} (as : List Aborting) {signals : List ℕ}
      (h : ∀ x ∈ signals, x < g.nextSignal) :
    SignalStep g as (g.createDependentAbortSignal signals) as
  | add {g : Signalling} (as : List Aborting) {signal : ℕ} (a : AbortAlgorithm)
      (h : signal < g.nextSignal) : SignalStep g as (g.add signal a) as
  | remove {g : Signalling} (as : List Aborting) {signal : ℕ} (callback : ℕ)
      (h : signal < g.nextSignal) : SignalStep g as (g.removeAbortAlgorithm signal callback) as
  | abort {g g' : Signalling} (as : List Aborting) {signal : ℕ} {reason : Option ℕ} {ds : List ℕ}
      (h : signal < g.nextSignal) (hdependent : (g.signals signal).dependent = false)
      (hg : g.signalAbort signal reason = some (g', ds)) :
    SignalStep g as (g'.begin signal)
      (⟨signal, (g'.signals signal).abortAlgorithms, false, ds⟩ :: as)
  | run (g : Signalling) (signal : ℕ) (a : AbortAlgorithm) (pending : List AbortAlgorithm)
      (fired : Bool) (ds : List ℕ) (as : List Aborting) :
    SignalStep g (⟨signal, a :: pending, fired, ds⟩ :: as) (g.record (.ran signal a))
      (⟨signal, pending, fired, ds⟩ :: as)
  | fire (g : Signalling) (signal : ℕ) (ds : List ℕ) (as : List Aborting) :
    SignalStep g (⟨signal, [], false, ds⟩ :: as) (g.record (.fired signal))
      (⟨signal, [], true, ds⟩ :: as)
  | next (g : Signalling) (signal d : ℕ) (ds : List ℕ) (as : List Aborting) :
    SignalStep g (⟨signal, [], true, d :: ds⟩ :: as) (g.begin d)
      (⟨d, (g.signals d).abortAlgorithms, false, ds⟩ :: as)
  | finish (g : Signalling) (signal : ℕ) (as : List Aborting) :
    SignalStep g (⟨signal, [], true, []⟩ :: as) g as

/-- The abort that a frame is. -/
def Frame.aborting? : Frame → Option Aborting
  | .aborting signal _ pending fired dependents => some ⟨signal, pending, fired, dependents⟩
  | _ => none

namespace Dom

/-- The aborts in progress, the innermost first. -/
def aborts (s : Dom) : List Aborting := s.frames.filterMap Frame.aborting?

variable {s t : Dom} {debug : Bool}

theorem dispatch_eq_ok {event : ℕ} {target : Target} (h : s.dispatch debug event target = .ok t) :
    t.sig = s.sig ∧ t.aborts = s.aborts ∧ t.ev = s.ev.start event target ∧
      t.frames = .dispatching s.ev.nextDispatch event target none (s.ev.snapshots event target) ::
        s.frames := by
  rw [dispatch] at h
  obtain ⟨-, -, h⟩ := Outcome.bind_eq_ok h
  obtain rfl := Outcome.ok.inj h
  exact ⟨rfl, rfl, rfl, rfl⟩

/-- What JS does to the signals. -/
theorem act_signalStep {a : Action} (h : s.act debug a = .ok t) :
    SignalStep s.sig s.aborts t.sig t.aborts := by
  have hstay : SignalStep s.sig s.aborts s.sig s.aborts := .stay _ _
  cases a with
  | newEvent eventType cancelable =>
    obtain rfl := Outcome.ok.inj h
    exact hstay
  | initEvent event eventType cancelable =>
    rw [act] at h
    split at h <;> obtain rfl := Outcome.ok.inj h <;> exact hstay
  | preventDefault event =>
    rw [act] at h
    split at h <;> obtain rfl := Outcome.ok.inj h <;> exact hstay
  | stopPropagation event =>
    rw [act] at h
    split at h <;> obtain rfl := Outcome.ok.inj h <;> exact hstay
  | stopImmediatePropagation event =>
    rw [act] at h
    split at h <;> obtain rfl := Outcome.ok.inj h <;> exact hstay
  | addEventListener target eventType callback capture passive once signal =>
    rw [act] at h
    split at h
    next hsignal =>
      obtain rfl := Outcome.ok.inj h
      cases signal with
      | none => exact hstay
      | some signal =>
        rw [addAnEventListener]
        split
        · exact hstay
        · exact .add _ _ (by simpa using hsignal)
    next =>
      obtain rfl := Outcome.ok.inj h
      exact hstay
  | removeEventListener target eventType callback capture =>
    obtain rfl := Outcome.ok.inj h
    exact hstay
  | dispatchEvent event target =>
    rw [act] at h
    split at h
    · obtain ⟨hsig, haborts, -⟩ := dispatch_eq_ok h
      rw [hsig, haborts]
      exact hstay
    · obtain rfl := Outcome.ok.inj h
      exact hstay
  | newSignal =>
    obtain rfl := Outcome.ok.inj h
    exact .new _ _
  | abortedSignal reason =>
    obtain rfl := Outcome.ok.inj h
    exact .born _ _ reason
  | any signals =>
    rw [act] at h
    split at h
    next hsignals =>
      obtain rfl := Outcome.ok.inj h
      exact .any _ (by simpa using hsignals)
    next =>
      obtain rfl := Outcome.ok.inj h
      exact hstay
  | addAbortAlgorithm signal callback =>
    rw [act] at h
    split at h
    next hsignal =>
      obtain rfl := Outcome.ok.inj h
      exact .add _ _ hsignal
    next =>
      obtain rfl := Outcome.ok.inj h
      exact hstay
  | removeAbortAlgorithm signal callback =>
    rw [act] at h
    split at h
    next hsignal =>
      obtain rfl := Outcome.ok.inj h
      exact .remove _ _ hsignal
    next =>
      obtain rfl := Outcome.ok.inj h
      exact hstay
  | abort signal reason =>
    rw [act] at h
    split at h
    next hsignal =>
      obtain rfl := Outcome.ok.inj h
      simp only [Bool.and_eq_true, decide_eq_true_eq, Bool.not_eq_true'] at hsignal
      rw [signalAbort]
      split
      next => exact hstay
      next sig dependents hg => exact .abort _ hsignal.1 hsignal.2 hg
    next =>
      obtain rfl := Outcome.ok.inj h
      exact hstay
  | advance =>
    obtain rfl := Outcome.ok.inj h
    exact hstay
  | return_ =>
    obtain rfl := Outcome.ok.inj h
    exact hstay

/-- What the frame on top does to the signals as it goes on. -/
theorem advance_signalStep (h : s.advance debug = .ok t) :
    SignalStep s.sig s.aborts t.sig t.aborts := by
  rw [advance] at h
  split at h
  next d event target snap snapshots frames hfs =>
    obtain ⟨-, -, h⟩ := Outcome.bind_eq_ok h
    obtain rfl := Outcome.ok.inj h
    simp only [aborts, hfs, List.filterMap_cons, Frame.aborting?]
    exact .stay _ _
  next d event target frames hfs =>
    obtain rfl := Outcome.ok.inj h
    simp only [aborts, hfs, List.filterMap_cons, Frame.aborting?]
    exact .stay _ _
  next signal held id pending fired dependents frames hfs =>
    obtain rfl := Outcome.ok.inj h
    simp only [aborts, hfs, List.filterMap_cons, Frame.aborting?]
    exact .run _ _ _ _ _ _ _
  next signal callback pending fired dependents frames hfs =>
    obtain rfl := Outcome.ok.inj h
    simp only [aborts, hfs, List.filterMap_cons, Frame.aborting?]
    exact .run _ _ _ _ _ _ _
  next signal dependents frames hfs =>
    obtain ⟨hsig, haborts, -⟩ := dispatch_eq_ok h
    rw [hsig, haborts]
    simp only [aborts, hfs, List.filterMap_cons, Frame.aborting?]
    exact .fire _ _ _ _
  next signal dependent dependents frames hfs =>
    obtain rfl := Outcome.ok.inj h
    simp only [aborts, hfs, List.filterMap_cons, Frame.aborting?]
    exact .next _ _ _ _ _
  next signal frames hfs =>
    obtain rfl := Outcome.ok.inj h
    simp only [aborts, hfs, List.filterMap_cons, Frame.aborting?]
    exact .finish _ _ _
  next =>
    obtain rfl := Outcome.ok.inj h
    exact .stay _ _

/-- The end of a call does nothing to the signals. -/
theorem return_signalStep (h : s.return_ debug = .ok t) :
    SignalStep s.sig s.aborts t.sig t.aborts := by
  rw [return_] at h
  split at h
  next d event target snap snapshots frames hfs =>
    obtain ⟨-, -, h⟩ := Outcome.bind_eq_ok h
    obtain rfl := Outcome.ok.inj h
    simp only [aborts, hfs, List.filterMap_cons, Frame.aborting?]
    exact .stay _ _
  next signal pending fired dependents frames hfs =>
    obtain rfl := Outcome.ok.inj h
    simp only [aborts, hfs, List.filterMap_cons, Frame.aborting?]
    exact .stay _ _
  next =>
    obtain rfl := Outcome.ok.inj h
    exact .stay _ _

/-- **What a step does to the signals.** -/
theorem step_signalStep {a : Action} (h : s.step debug a = .ok t) :
    SignalStep s.sig s.aborts t.sig t.aborts := by
  have hact (hs : (if s.calls then s.act debug a else pure s) = .ok t) :
      SignalStep s.sig s.aborts t.sig t.aborts := by
    split at hs
    · exact act_signalStep hs
    · obtain rfl := Outcome.ok.inj hs
      exact .stay _ _
  cases a with
  | advance => exact advance_signalStep h
  | return_ => exact return_signalStep h
  | _ => exact hact h

end Dom

end WebGlobals
