import StarlingMonkey.WebGlobals.Turns
import StarlingMonkey.WebGlobals.SignalGraph

/-!
# Runs of the event dispatch

What holds of listeners and dispatches in every run: `dispatches_kept`. The listeners that an abort
removes are those that were linked to its signal (`Linked`).
-/

namespace WebGlobals

open Protocol

variable {v v' : Listening}

/-- Nothing is linked to a signal, and listeners come into a list under new ids only. -/
def Unlinked (v v' : Listening) : Prop :=
  (∀ x t id, .linked x t id ∈ v'.log ↔ .linked x t id ∈ v.log) ∧
    ∀ t id, id ∈ (v'.listeners t).map EventListener.id →
      id ∈ (v.listeners t).map EventListener.id ∨ v.nextListener ≤ id

namespace Unlinked

theorem refl (v : Listening) : Unlinked v v := ⟨fun _ _ _ => Iff.rfl, fun _ _ h => .inl h⟩

/-- One thing is recorded. -/
theorem record (h : Unlinked v v') {r : EventRecord} (hr : ∀ x t id, r ≠ .linked x t id) :
    Unlinked v (v'.record r) := by
  refine ⟨fun x t id => ?_, h.2⟩
  rw [← h.1 x t id, Listening.record, List.mem_append, List.mem_singleton,
    or_iff_left (hr x t id).symm]

/-- Events do not matter. -/
theorem of_events (hlog : ∃ r, v'.log = v.log ++ [r] ∧ ∀ x t id, r ≠ .linked x t id)
    (hlisteners : v'.listeners = v.listeners) : Unlinked v v' := by
  obtain ⟨r, hlog, hr⟩ := hlog
  refine ⟨fun x t id => ?_, fun t id hmem => .inl (hlisteners ▸ hmem)⟩
  rw [hlog, List.mem_append, List.mem_singleton, or_iff_left (hr x t id).symm]

theorem retain (v : Listening) (t : Target) (p : EventListener → Bool) :
    Unlinked v (v.retain t p) := by
  refine ⟨fun x t' id => by simp [Listening.retain], fun t' id hmem => .inl ?_⟩
  by_cases ht : t' = t
  · subst ht
    obtain ⟨y, hy, rfl⟩ := List.mem_map.mp hmem
    simp only [Listening.retain, Function.update_self] at hy
    exact List.mem_map_of_mem (List.mem_of_mem_filter hy)
  · simpa [Listening.retain, ht] using hmem

theorem append (v : Listening) (t : Target) (type : String) (callback : ℕ) (capture : Bool)
    (passive : Option Bool) (once : Bool) :
    Unlinked v (v.append t type callback capture passive once).1 := by
  rw [Listening.append]
  split
  · exact refl v
  · refine ⟨fun x t' id => by simp, fun t' id hmem => ?_⟩
    by_cases ht : t' = t
    · subst ht
      simp only [Function.update_self, List.map_append, List.mem_append, List.map_cons,
        List.map_nil, List.mem_singleton] at hmem
      exact hmem.imp_right fun heq => le_of_eq heq.symm
    · exact .inl (by simpa [ht] using hmem)

theorem visit (v : Listening) (d e : ℕ) (t : Target) (snap : ListenerSnapshot) :
    Unlinked v (v.visit d e t snap).1 := by
  rw [Listening.visit]
  split_ifs
  · exact (retain v t _).record (by simp)
  · exact (retain v t _).record (by simp)
  · exact of_events ⟨_, rfl, by simp⟩ rfl
  · exact of_events ⟨_, rfl, by simp⟩ rfl
  · exact of_events ⟨_, rfl, by simp⟩ rfl

theorem initEvent (v : Listening) (e : ℕ) (type : String) (c : Bool) :
    Unlinked v (v.initEvent e type c) := by
  rw [Listening.initEvent]
  split_ifs
  · exact refl v
  · exact of_events ⟨_, rfl, by simp⟩ rfl

end Unlinked

/-- A listener that is live was added. -/
theorem added_of_live {t : Target} {l : List EventRecord} {y : EventListener}
    (h : y ∈ liveOf t l) : .added t y ∈ l := by
  induction l using List.reverseRecOn with
  | nil => cases h
  | append_singleton l r ih =>
    rw [liveOf_concat] at h
    cases r with
    | added t' z =>
      simp only [liveStep] at h
      split_ifs at h with ht
      · subst ht
        rcases List.mem_append.mp h with h | h
        · exact List.mem_append_left _ (ih h)
        · rw [List.mem_singleton.mp h]
          exact List.mem_append_right _ (List.mem_singleton_self _)
      · exact List.mem_append_left _ (ih h)
    | removed t' id =>
      simp only [liveStep] at h
      split_ifs at h
      · exact List.mem_append_left _ (ih (List.mem_of_mem_filter h))
      · exact List.mem_append_left _ (ih h)
    | _ => exact List.mem_append_left _ (ih h)

/-- What was linked has an id that was given out. -/
theorem Heard.lt_of_linked {ds : List Dispatching} (h : Heard v ds) {x id : ℕ} {t : Target}
    (hmem : .linked x t id ∈ v.log) : id < v.nextListener := by
  obtain ⟨l, l', hlog⟩ := List.append_of_mem hmem
  obtain ⟨y, hy, rfl⟩ := List.mem_map.mp (h.protocol _ _ _ hlog)
  refine h.lists.lt t y ?_
  rw [hlog]
  exact List.mem_append_left _ (added_of_live hy)

namespace Dom

variable {s t : Dom} {debug : Bool}

namespace Linked

/-- What the aborts are to remove stays the same. -/
theorem of_unlinked (h : s.Linked) (hheard : Heard s.ev s.dispatches) (hev : Unlinked s.ev t.ev)
    (hpool : ∀ x u id, t.Pool x u id ↔ s.Pool x u id) : t.Linked := by
  constructor
  case linked => exact fun x u id hp => (hev.1 x u id).mpr (h.linked x u id ((hpool x u id).mp hp))
  case kept =>
    intro x u id hmem hin
    rw [hev.1] at hmem
    refine (hpool x u id).mpr (h.kept x u id hmem ((hev.2 u id hin).resolve_right fun hle => ?_))
    exact absurd (hheard.lt_of_linked hmem) (Nat.not_lt.mpr hle)

/-- The aborts in progress and the algorithms of the signals stay the same. -/
theorem pool_congr (haborts : t.aborts = s.aborts) (halgorithms : ∀ x,
    ∀ u id, .removeListener u id ∈ (t.sig.signals x).abortAlgorithms ↔
      .removeListener u id ∈ (s.sig.signals x).abortAlgorithms) (x : ℕ) (u : Target) (id : ℕ) :
    t.Pool x u id ↔ s.Pool x u id := by
  rw [Pool, Pool, haborts, halgorithms]

/-- A new signal has no algorithms. -/
theorem algorithms_create (hc : Graph s.sig) {sig : AbortSignal} (hnil : sig.abortAlgorithms = [])
    (x : ℕ) : ((s.sig.create sig).signals x).abortAlgorithms =
      (s.sig.signals x).abortAlgorithms := by
  by_cases hx : x = s.sig.nextSignal
  · subst hx
    rw [Signalling.create_self, hnil, hc.unborn _ (le_refl _)]
    rfl
  · rw [Signalling.create_of_ne _ _ hx]

/-- `addEventListener` with a signal. -/
theorem link (h : s.Linked) (hheard : Heard s.ev s.dispatches) {signal : ℕ}
    (hsafe : (s.sig.signals signal).aborted = false) (target : Target) (type : String)
    (callback : ℕ) (capture : Bool) (passive : Option Bool) (once : Bool) :
    Linked { s with
      ev := (s.ev.append target type callback capture passive once).1.record
        (.linked signal target (s.ev.append target type callback capture passive once).2)
      sig := s.sig.add signal (.removeListener target
        (s.ev.append target type callback capture passive once).2) } := by
  set v := (s.ev.append target type callback capture passive once).1 with hv
  set id := (s.ev.append target type callback capture passive once).2 with hid
  have hun : Unlinked s.ev v := Unlinked.append ..
  have hadd : s.sig.add signal (.removeListener target id) =
      (s.sig.modify signal fun sig => { sig with
        abortAlgorithms := sig.abortAlgorithms ++ [.removeListener target id] }).record
        (.registered signal (.removeListener target id)) := by
    rw [Signalling.add, hsafe, if_neg Bool.false_ne_true]
  have hpool (x : ℕ) (u : Target) (i : ℕ) : Pool { s with
      ev := v.record (.linked signal target id)
      sig := s.sig.add signal (.removeListener target id) } x u i ↔
        s.Pool x u i ∨ (x = signal ∧ u = target ∧ i = id) := by
    rw [Pool, Pool, hadd]
    by_cases hx : x = signal
    · subst hx
      simp only [Signalling.record, Signalling.modify, Function.update_self, List.mem_append,
        List.mem_singleton, AbortAlgorithm.removeListener.injEq, aborts, true_and]
      exact or_right_comm
    · simp [Signalling.record, Signalling.modify, hx, aborts]
  have hlog (x : ℕ) (u : Target) (i : ℕ) :
      .linked x u i ∈ (v.record (.linked signal target id)).log ↔
        .linked x u i ∈ s.ev.log ∨ (x = signal ∧ u = target ∧ i = id) := by
    rw [Listening.record, List.mem_append, List.mem_singleton, hun.1, EventRecord.linked.injEq]
  constructor
  case linked =>
    intro x u i hp
    rw [hlog]
    exact ((hpool x u i).mp hp).imp_left (h.linked x u i)
  case kept =>
    intro x u i hmem hin
    rw [hpool]
    rcases (hlog x u i).mp hmem with hmem | hmem
    · refine .inl (h.kept x u i hmem ((hun.2 u i hin).resolve_right fun hle => ?_))
      exact absurd (hheard.lt_of_linked hmem) (Nat.not_lt.mpr hle)
    · exact .inr hmem

/-- `signal_abort` takes the algorithms of the signal. -/
theorem abort (h : s.Linked) (hheard : Heard s.ev s.dispatches) (hc : Graph s.sig) {signal : ℕ}
    {reason : Option ℕ} (hroot : (s.sig.signals signal).dependent = false) :
    (s.signalAbort signal reason).Linked := by
  rw [Dom.signalAbort]
  split
  next => exact h
  next sig dependents hg =>
    have hself : signal ∉ (s.sig.signals signal).dependentSignals := by
      intro hmem
      have hdep := (hc.roots signal signal ((hc.links signal signal).mp hmem)).2.1
      rw [hroot] at hdep
      cases hdep
    obtain ⟨r, -, -, -, -, -, hsignals⟩ := Signalling.signalAbort_spec hg hself
    have halg (x : ℕ) : (sig.signals x).abortAlgorithms = (s.sig.signals x).abortAlgorithms := by
      rw [hsignals]
      split_ifs <;> rfl
    refine h.of_unlinked hheard (Unlinked.refl _) fun x u id => ?_
    simp only [Pool, aborts, List.filterMap_cons, Frame.aborting?, List.mem_cons, exists_eq_or_imp]
    by_cases hx : x = signal
    · subst hx
      simp [Signalling.begin, Signalling.modify, Signalling.record, halg]
    · simp [Signalling.begin, Signalling.modify, Signalling.record, hx, Ne.symm hx, halg]

/-- What JS does. -/
theorem act (h : s.Linked) (hheard : Heard s.ev s.dispatches) (hc : Coherent s.sig s.aborts)
    {a : Action} (hs : s.act debug a = .ok t) : t.Linked := by
  -- most calls touch no list and no algorithm
  have hsame {v : Listening} (hv : Unlinked s.ev v) : Linked { s with ev := v } :=
    h.of_unlinked hheard hv fun _ _ _ => Iff.rfl
  have hsignals {sig : Signalling} (halg : ∀ x u id,
      .removeListener u id ∈ (sig.signals x).abortAlgorithms ↔
        .removeListener u id ∈ (s.sig.signals x).abortAlgorithms) : Linked { s with sig } :=
    h.of_unlinked hheard (Unlinked.refl _) (pool_congr rfl halg)
  cases a with
  | newEvent eventType cancelable =>
    obtain rfl := Outcome.ok.inj hs
    exact hsame (.of_events ⟨_, rfl, by simp⟩ rfl)
  | initEvent event eventType cancelable =>
    rw [Dom.act] at hs
    split at hs <;> obtain rfl := Outcome.ok.inj hs
    · exact hsame (.initEvent _ _ _ _)
    · exact h
  | preventDefault event =>
    rw [Dom.act] at hs
    split at hs <;> obtain rfl := Outcome.ok.inj hs
    · exact hsame (.of_events ⟨_, rfl, by simp⟩ rfl)
    · exact h
  | stopPropagation event =>
    rw [Dom.act] at hs
    split at hs <;> obtain rfl := Outcome.ok.inj hs
    · exact hsame (.of_events ⟨_, rfl, by simp⟩ rfl)
    · exact h
  | stopImmediatePropagation event =>
    rw [Dom.act] at hs
    split at hs <;> obtain rfl := Outcome.ok.inj hs
    · exact hsame (.of_events ⟨_, rfl, by simp⟩ rfl)
    · exact h
  | addEventListener target eventType callback capture passive once signal =>
    rw [Dom.act] at hs
    split at hs <;> obtain rfl := Outcome.ok.inj hs
    -- only a listener given a signal is linked to it, and only if the signal is not aborted
    · cases signal with
      | none => exact hsame (.append _ _ _ _ _ _ _)
      | some signal =>
        rw [addAnEventListener]
        split
        next => exact h
        next hsafe => exact h.link hheard (by simpa using hsafe) _ _ _ _ _ _
    · exact h
  | removeEventListener target eventType callback capture =>
    obtain rfl := Outcome.ok.inj hs
    exact hsame (.retain _ _ _)
  | dispatchEvent event target =>
    rw [Dom.act] at hs
    split at hs
    · obtain ⟨hsig, haborts, hev, -⟩ := dispatch_eq_ok hs
      refine h.of_unlinked hheard ?_ (pool_congr haborts fun x u id => by rw [hsig])
      rw [hev]
      exact .of_events ⟨_, rfl, by simp⟩ rfl
    · obtain rfl := Outcome.ok.inj hs
      exact h
  | newSignal =>
    obtain rfl := Outcome.ok.inj hs
    exact hsignals fun x u id => by rw [algorithms_create hc.graph rfl]
  | abortedSignal reason =>
    obtain rfl := Outcome.ok.inj hs
    have hgraph := (hc.reasonOf reason).graph
    refine hsignals fun x u id => ?_
    rw [Signalling.abortedSignal]
    rw [algorithms_create (s := { s with sig := (s.sig.reasonOf reason).2 }) hgraph rfl]
    cases reason <;> rfl
  | any signals =>
    rw [Dom.act] at hs
    split at hs <;> obtain rfl := Outcome.ok.inj hs
    · refine hsignals fun x u id => ?_
      rw [Signalling.createDependentAbortSignal]
      split
      · rw [algorithms_create hc.graph rfl]
      · obtain ⟨-, -, hlinked⟩ := Signalling.linkSources_spec (s.sig.create { AbortSignal.new with
          dependent := true, sourceSignals := s.sig.collectSources [] signals }) s.sig.nextSignal
          (s.sig.collectSources [] signals)
        obtain ⟨ds, heq, -⟩ := hlinked x
        rw [heq]
        show _ ∈ ((s.sig.create _).signals x).abortAlgorithms ↔ _
        rw [algorithms_create hc.graph rfl]
    · exact h
  | addAbortAlgorithm signal callback =>
    rw [Dom.act] at hs
    split at hs <;> obtain rfl := Outcome.ok.inj hs
    · refine hsignals fun x u id => ?_
      rw [Signalling.add]
      split_ifs
      · rfl
      · by_cases hx : x = signal
        · subst hx
          simp [Signalling.record, Signalling.modify]
        · simp [Signalling.record, Signalling.modify, hx]
    · exact h
  | removeAbortAlgorithm signal callback =>
    rw [Dom.act] at hs
    split at hs <;> obtain rfl := Outcome.ok.inj hs
    · refine hsignals fun x u id => ?_
      by_cases hx : x = signal
      · subst hx
        simp [Signalling.removeAbortAlgorithm, Signalling.record, Signalling.modify]
      · simp [Signalling.removeAbortAlgorithm, Signalling.record, Signalling.modify, hx]
    · exact h
  -- an abort hands the removals over from the signal to the steps that run
  | abort signal reason =>
    rw [Dom.act] at hs
    split at hs
    next hsignal =>
      obtain rfl := Outcome.ok.inj hs
      simp only [Bool.and_eq_true, Bool.not_eq_true'] at hsignal
      exact h.abort hheard hc.graph hsignal.2
    next =>
      obtain rfl := Outcome.ok.inj hs
      exact h
  | advance =>
    obtain rfl := Outcome.ok.inj hs
    exact h
  | return_ =>
    obtain rfl := Outcome.ok.inj hs
    exact h

/-- What the frame on top does as it goes on. -/
theorem advance (h : s.Linked) (hheard : Heard s.ev s.dispatches)
    (hs : s.advance debug = .ok t) : t.Linked := by
  rw [Dom.advance] at hs
  split at hs
  next d event target snap snapshots frames hfs =>
    obtain ⟨-, -, hs⟩ := Outcome.bind_eq_ok hs
    obtain rfl := Outcome.ok.inj hs
    refine h.of_unlinked hheard (.visit _ _ _ _ _) (pool_congr ?_ fun _ _ _ => Iff.rfl)
    simp only [aborts, hfs, List.filterMap_cons, Frame.aborting?]
  next d event target frames hfs =>
    obtain rfl := Outcome.ok.inj hs
    refine h.of_unlinked hheard (.of_events ⟨_, rfl, by simp⟩ rfl)
      (pool_congr ?_ fun _ _ _ => Iff.rfl)
    simp only [aborts, hfs, List.filterMap_cons, Frame.aborting?]
  -- an abort algorithm takes its listener out: the link is used up with it
  next signal held id pending fired dependents frames hfs =>
    obtain rfl := Outcome.ok.inj hs
    have hun : Unlinked s.ev ((s.ev.record (.severed signal held id)).removeAnEventListenerById
        held id) := by
      have hret := Unlinked.retain (s.ev.record (.severed signal held id)) held fun l => l.id ≠ id
      refine ⟨fun x u i => ?_, hret.2⟩
      rw [Listening.removeAnEventListenerById, hret.1]
      simp [Listening.record]
    -- the only link that is gone is that one
    have hpool (x : ℕ) (u : Target) (i : ℕ) : s.Pool x u i ↔
        (x = signal ∧ u = held ∧ i = id) ∨ Pool { s with
          ev := (s.ev.record (.severed signal held id)).removeAnEventListenerById held id
          sig := s.sig.record (.ran signal (.removeListener held id))
          frames := .aborting signal false pending fired dependents :: frames } x u i := by
      simp only [Pool, aborts, hfs, List.filterMap_cons, Frame.aborting?, List.mem_cons,
        exists_eq_or_imp, AbortAlgorithm.removeListener.injEq, Signalling.record]
      constructor
      · rintro (hm | ⟨rfl, ⟨rfl, rfl⟩ | hm⟩ | hm)
        · exact .inr (.inl hm)
        · exact .inl ⟨rfl, rfl, rfl⟩
        · exact .inr (.inr (.inl ⟨rfl, hm⟩))
        · exact .inr (.inr (.inr hm))
      · rintro (⟨rfl, rfl, rfl⟩ | hm | ⟨rfl, hm⟩ | hm)
        · exact .inr (.inl ⟨rfl, .inl ⟨rfl, rfl⟩⟩)
        · exact .inl hm
        · exact .inr (.inl ⟨rfl, .inr hm⟩)
        · exact .inr (.inr hm)
    constructor
    case linked =>
      exact fun x u i hp => (hun.1 x u i).mpr (h.linked x u i ((hpool x u i).mpr (.inr hp)))
    case kept =>
      intro x u i hmem hin
      rw [hun.1] at hmem
      -- a listener in the list now was in it before, for the removal adds none
      have hold := (hun.2 u i hin).resolve_right fun hle =>
        absurd (hheard.lt_of_linked hmem) (Nat.not_lt.mpr hle)
      rcases (hpool x u i).mp (h.kept x u i hmem hold) with ⟨rfl, rfl, rfl⟩ | hp
      · -- it is out of the list now
        obtain ⟨y, hy, hyi⟩ := List.mem_map.mp hin
        simp only [Listening.removeAnEventListenerById, Listening.retain, Function.update_self]
          at hy
        have hne := (List.mem_filter.mp hy).2
        simp [hyi] at hne
      · exact hp
  next signal callback pending fired dependents frames hfs =>
    obtain rfl := Outcome.ok.inj hs
    refine h.of_unlinked hheard (.refl _) fun x u id => ?_
    simp only [Pool, aborts, hfs, List.filterMap_cons, Frame.aborting?, List.mem_cons,
      exists_eq_or_imp, Signalling.record, reduceCtorEq, false_or]
  next signal dependents frames hfs =>
    obtain ⟨hsig, haborts, hev, -⟩ := dispatch_eq_ok hs
    refine h.of_unlinked hheard ?_ fun x u id => ?_
    · rw [hev]
      refine ⟨fun x u id => ?_, fun u id hmem => .inl hmem⟩
      simp [Listening.start, Listening.newEvent, Listening.modifyEvent]
    · rw [Pool, Pool, hsig, haborts]
      simp [aborts, hfs, Frame.aborting?, Signalling.record]
  -- the algorithms of the next signal move from it to the steps that run
  next signal dependent dependents frames hfs =>
    obtain rfl := Outcome.ok.inj hs
    refine h.of_unlinked hheard (.refl _) fun x u id => ?_
    simp only [Pool, aborts, hfs, List.filterMap_cons, Frame.aborting?, List.mem_cons,
      exists_eq_or_imp]
    by_cases hx : x = dependent
    · subst hx
      simp [Signalling.begin, Signalling.modify, Signalling.record]
    · simp [Signalling.begin, Signalling.modify, Signalling.record, hx, Ne.symm hx]
  next signal frames hfs =>
    obtain rfl := Outcome.ok.inj hs
    refine h.of_unlinked hheard (.refl _) fun x u id => ?_
    simp [Pool, aborts, hfs, Frame.aborting?]
  next =>
    obtain rfl := Outcome.ok.inj hs
    exact h

/-- The end of a call. -/
theorem return_ (h : s.Linked) (hheard : Heard s.ev s.dispatches)
    (hs : s.return_ debug = .ok t) : t.Linked := by
  rw [Dom.return_] at hs
  split at hs
  next d event target snap snapshots frames hfs =>
    obtain ⟨-, -, hs⟩ := Outcome.bind_eq_ok hs
    obtain rfl := Outcome.ok.inj hs
    refine h.of_unlinked hheard (.of_events ⟨_, rfl, by simp⟩ rfl)
      (pool_congr ?_ fun _ _ _ => Iff.rfl)
    simp only [aborts, hfs, List.filterMap_cons, Frame.aborting?]
  next signal pending fired dependents frames hfs =>
    obtain rfl := Outcome.ok.inj hs
    refine h.of_unlinked hheard (.refl _) (pool_congr ?_ fun _ _ _ => Iff.rfl)
    simp only [aborts, hfs, List.filterMap_cons, Frame.aborting?]
  next =>
    obtain rfl := Outcome.ok.inj hs
    exact h

theorem step (h : s.Linked) (hheard : Heard s.ev s.dispatches) (hc : Coherent s.sig s.aborts)
    {a : Action} (hs : s.step debug a = .ok t) : t.Linked := by
  have hact (hs : (if s.calls then s.act debug a else pure s) = .ok t) : t.Linked := by
    split at hs
    · exact h.act hheard hc hs
    · obtain rfl := Outcome.ok.inj hs
      exact h
  cases a with
  | advance => exact h.advance hheard hs
  | return_ => exact h.return_ hheard hs
  | _ => exact hact hs

end Linked

/-! ### Leaving the list -/

/-- Why a listener is not in a list any more: `removeEventListener` was called with what it was
added with, it is called and runs once, or a signal was aborted that it is linked to. -/
def Left (a : Action) (t : Dom) (target : Target) (y : EventListener) : Prop :=
  a = .removeEventListener target y.eventType y.callback y.capture ∨
    (y.once = true ∧ ∃ d e p, t.ev.log.getLast? = some (.called d e y.id p)) ∨
    ∃ x, .severed x target y.id ∈ t.ev.log

theorem mem_append {v : Listening} {u : Target} {y : EventListener} (hy : y ∈ v.listeners u)
    (target : Target) (type : String) (callback : ℕ) (capture : Bool) (passive : Option Bool)
    (once : Bool) :
    y ∈ (v.append target type callback capture passive once).1.listeners u := by
  rw [Listening.append]
  split
  · exact hy
  · by_cases hu : u = target
    · subst hu
      simp [hy]
    · simp [hu, hy]

theorem mem_retain {v : Listening} {u : Target} {y : EventListener} (hy : y ∈ v.listeners u)
    (target : Target) (p : EventListener → Bool) :
    y ∈ (v.retain target p).listeners u ∨ (u = target ∧ p y = false) := by
  by_cases hu : u = target
  · subst hu
    cases hp : p y with
    | false => exact .inr ⟨rfl, rfl⟩
    | true => exact .inl (by simp [Listening.retain, hy, hp])
  · exact .inl (by simpa [Listening.retain, hu] using hy)

theorem mem_visit {v : Listening} {u : Target} {y : EventListener} (hy : y ∈ v.listeners u)
    (d event : ℕ) (target : Target) (snap : ListenerSnapshot) :
    y ∈ (v.visit d event target snap).1.listeners u ∨ (u = target ∧ y.id = snap.id ∧
      snap.once = true ∧ (v.visit d event target snap).1.log.getLast? =
        some (.called d event y.id (snap.passive = some true))) := by
  by_cases hany : (v.listeners target).any (·.id = snap.id) = true
  · by_cases honce : snap.once = true
    · have hlisteners : (v.visit d event target snap).1.listeners =
          (v.retain target fun l => l.id ≠ snap.id).listeners := by
        rw [Listening.visit, if_pos hany, if_pos honce]
        split_ifs <;> rfl
      rw [hlisteners]
      rcases mem_retain hy target fun l => l.id ≠ snap.id with hin | ⟨rfl, hp⟩
      · exact .inl hin
      · have hid : y.id = snap.id := by simpa using hp
        refine .inr ⟨rfl, hid, honce, ?_⟩
        rw [Listening.visit, if_pos hany, hid]
        simp [Listening.record]
    · rw [Listening.visit, if_pos hany, if_neg honce]
      split_ifs <;> exact .inl hy
  · rw [Listening.visit, if_neg hany]
    exact .inl hy

/-- What JS does takes listeners out of a list with `removeEventListener` only. -/
theorem act_left {a : Action} (hs : s.act debug a = .ok t) {u : Target} {y : EventListener}
    (hy : y ∈ s.ev.listeners u) : y ∈ t.ev.listeners u ∨ Left a t u y := by
  cases a with
  | newEvent eventType cancelable =>
    obtain rfl := Outcome.ok.inj hs
    exact .inl hy
  | initEvent event eventType cancelable =>
    rw [act] at hs
    split at hs <;> obtain rfl := Outcome.ok.inj hs
    · rw [Listening.initEvent]
      split_ifs <;> exact .inl hy
    · exact .inl hy
  | addEventListener target eventType callback capture passive once signal =>
    rw [act] at hs
    split at hs <;> obtain rfl := Outcome.ok.inj hs
    -- adding, and linking to a signal, take nothing out
    · cases signal with
      | none => exact .inl (mem_append hy _ _ _ _ _ _)
      | some signal =>
        rw [addAnEventListener]
        split
        · exact .inl hy
        · exact .inl (mem_append hy _ _ _ _ _ _)
    · exact .inl hy
  | removeEventListener target eventType callback capture =>
    obtain rfl := Outcome.ok.inj hs
    rcases mem_retain hy target fun l =>
      !(l.eventType = eventType && l.capture = capture && l.callback = callback) with
      hin | ⟨rfl, hp⟩
    · exact .inl hin
    · simp only [Bool.not_eq_false', Bool.and_eq_true, decide_eq_true_eq] at hp
      obtain ⟨⟨rfl, rfl⟩, rfl⟩ := hp
      exact .inr (.inl rfl)
  | dispatchEvent event target =>
    rw [act] at hs
    split at hs
    · obtain ⟨-, -, hev, -⟩ := dispatch_eq_ok hs
      rw [hev]
      exact .inl hy
    · obtain rfl := Outcome.ok.inj hs
      exact .inl hy
  | abort signal reason =>
    rw [act] at hs
    split at hs <;> obtain rfl := Outcome.ok.inj hs
    · rw [signalAbort]
      split <;> exact .inl hy
    · exact .inl hy
  -- the other calls do not touch the lists
  | newSignal | abortedSignal | advance | return_ =>
    obtain rfl := Outcome.ok.inj hs
    exact .inl hy
  | preventDefault | stopPropagation | stopImmediatePropagation | any | addAbortAlgorithm
    | removeAbortAlgorithm =>
    rw [act] at hs
    split at hs <;> obtain rfl := Outcome.ok.inj hs <;> exact .inl hy

/-- **Why a listener leaves.** -/
theorem step_left (hheard : Heard s.ev s.dispatches) {a : Action} (hs : s.step debug a = .ok t)
    {u : Target} {y : EventListener} (hy : y ∈ s.ev.listeners u) :
    y ∈ t.ev.listeners u ∨ Left a t u y := by
  have hact (hs : (if s.calls then s.act debug a else pure s) = .ok t) :
      y ∈ t.ev.listeners u ∨ Left a t u y := by
    split at hs
    · exact act_left hs hy
    · obtain rfl := Outcome.ok.inj hs
      exact .inl hy
  cases a with
  | advance =>
    rw [step, advance] at hs
    split at hs
    next d event target snap snapshots frames hfs =>
      obtain ⟨-, -, hs⟩ := Outcome.bind_eq_ok hs
      obtain rfl := Outcome.ok.inj hs
      -- a listener marked once leaves before its callback is called
      rcases mem_visit hy d event target snap with hin | ⟨rfl, hid, honce, hlast⟩
      · exact .inl hin
      · have hx : (⟨d, event, u, none, snap :: snapshots⟩ : Dispatching) ∈ s.dispatches := by
          rw [dispatches, hfs]
          exact List.mem_cons_self
        obtain ⟨z, hz, hzi, -, hzo⟩ := hheard.turns.snapshots _ hx snap List.mem_cons_self
        obtain ⟨-, rfl⟩ := hheard.lists.eq_of_id hy hz (hid.trans hzi.symm)
        exact .inr (.inr (.inl ⟨hzo.trans honce, d, event, _, hlast⟩))
    next d event target frames hfs =>
      obtain rfl := Outcome.ok.inj hs
      exact .inl hy
    next signal held id pending fired dependents frames hfs =>
      obtain rfl := Outcome.ok.inj hs
      -- an abort algorithm takes out the listener it was made for
      rcases mem_retain hy held fun l => l.id ≠ id with hin | ⟨rfl, hp⟩
      · exact .inl hin
      · have hid : y.id = id := by simpa using hp
        refine .inr (.inr (.inr ⟨signal, ?_⟩))
        simp [Listening.removeAnEventListenerById, Listening.retain, Listening.record, hid]
    next signal callback pending fired dependents frames hfs =>
      obtain rfl := Outcome.ok.inj hs
      exact .inl hy
    next signal dependents frames hfs =>
      obtain ⟨-, -, hev, -⟩ := dispatch_eq_ok hs
      rw [hev]
      exact .inl hy
    next signal dependent dependents frames hfs =>
      obtain rfl := Outcome.ok.inj hs
      exact .inl hy
    next signal frames hfs =>
      obtain rfl := Outcome.ok.inj hs
      exact .inl hy
    next =>
      obtain rfl := Outcome.ok.inj hs
      exact .inl hy
  | return_ =>
    rw [step, return_] at hs
    split at hs
    next d event target snap snapshots frames hfs =>
      obtain ⟨-, -, hs⟩ := Outcome.bind_eq_ok hs
      obtain rfl := Outcome.ok.inj hs
      exact .inl hy
    next signal pending fired dependents frames hfs =>
      obtain rfl := Outcome.ok.inj hs
      exact .inl hy
    next =>
      obtain rfl := Outcome.ok.inj hs
      exact .inl hy
  | _ => exact hact hs

/-! ### Runs -/

/-- The invariant of the whole system. -/
structure Dispatches (s : Dom) : Prop where
  coherent : Coherent s.sig s.aborts
  heard : Heard s.ev s.dispatches
  nested : s.Nested
  linked : s.Linked

theorem Dispatches.initial : Dispatches initial where
  coherent := .initial
  heard := .initial
  nested := by simp [Nested, Dom.initial]
  linked := by
    constructor <;>
      simp [Pool, aborts, Dom.initial, Signalling.initial, Listening.initial, AbortSignal.new]

theorem Dispatches.step (h : s.Dispatches) {a : Action} (hs : s.step debug a = .ok t) :
    t.Dispatches where
  coherent := Coherent.step (step_signalStep hs) h.coherent
  heard := h.heard.step (step_eventStep h.nested h.linked hs)
  nested := h.nested.step hs
  linked := h.linked.step h.heard h.coherent hs

theorem dispatches_run (hrun : (domMachine debug).Run s t) (h : s.Dispatches) : t.Dispatches :=
  hrun.inv (I := Dispatches) h fun _ _ _ hs _ hstep => hs.step (Outcome.eq_ok_of_state? hstep)

/-- No listener that was linked to an aborted signal is left in a list. -/
theorem Dispatches.severed (h : s.Dispatches) (hnone : s.aborts = []) {x : ℕ} {r : Reason}
    (hr : .aborted x r ∈ s.sig.log) {u : Target} {id : ℕ} (hlinked : .linked x u id ∈ s.ev.log) :
    id ∉ (s.ev.listeners u).map EventListener.id := by
  intro hin
  have hbegan : .began x ∈ s.sig.log := by
    refine (h.coherent.waiting x r hr).resolve_right fun hx => ?_
    rw [hnone] at hx
    cases hx
  rcases h.linked.kept x u id hlinked hin with hp | ⟨a, ha, -⟩
  · rw [(h.coherent.began x hbegan).2.1] at hp
    cases hp
  · rw [hnone] at ha
    cases ha

/-- `removeEventListener()` removes the listener. -/
theorem step_removed (hcalls : s.calls = true) {u : Target} {type : String} {callback : ℕ}
    {capture : Bool} (hs : s.step debug (.removeEventListener u type callback capture) = .ok t) :
    (type, callback, capture) ∉ (t.ev.listeners u).map EventListener.key := by
  change (if s.calls then s.act debug _ else pure s) = _ at hs
  rw [if_pos hcalls, act] at hs
  obtain rfl := Outcome.ok.inj hs
  intro hmem
  obtain ⟨y, hy, hkey⟩ := List.mem_map.mp hmem
  simp only [Listening.removeAnEventListener, Listening.retain, Function.update_self,
    List.mem_filter] at hy
  rw [EventListener.key, Prod.mk.injEq, Prod.mk.injEq] at hkey
  simp [hkey] at hy

/-- `append` answers with the id of a listener like the one asked for. -/
theorem mem_of_append (v : Listening) (u : Target) (type : String) (callback : ℕ)
    (capture : Bool) (passive : Option Bool) (once : Bool) :
    ∃ y ∈ (v.append u type callback capture passive once).1.listeners u,
      y.key = (type, callback, capture) ∧
      y.id = (v.append u type callback capture passive once).2 := by
  rw [Listening.append]
  split
  next l hl =>
    have hkey := List.find?_some hl
    simp only [Bool.and_eq_true, decide_eq_true_eq] at hkey
    refine ⟨l, List.mem_of_find?_eq_some hl, ?_, rfl⟩
    rw [EventListener.key, hkey.1.1, hkey.1.2, hkey.2]
  next => simp [EventListener.key]

/-- `addEventListener()` leaves the list with such a listener, linked to the signal it was called
with, unless that signal is aborted. -/
theorem step_added (hcalls : s.calls = true) {u : Target} {type : String} {callback : ℕ}
    {capture once : Bool} {passive : Option Bool} {signal : Option ℕ}
    (hsignal : ∀ x ∈ signal, x < s.sig.nextSignal ∧ (s.sig.signals x).aborted = false)
    (hs : s.step debug (.addEventListener u type callback capture passive once signal) = .ok t) :
    ∃ y ∈ t.ev.listeners u, y.key = (type, callback, capture) ∧
      ∀ x ∈ signal, .linked x u y.id ∈ t.ev.log := by
  change (if s.calls then s.act debug _ else pure s) = _ at hs
  rw [if_pos hcalls, act] at hs
  obtain ⟨y, hy, hkey, hid⟩ := mem_of_append s.ev u type callback capture passive once
  cases signal with
  | none =>
    obtain rfl := Outcome.ok.inj hs
    exact ⟨y, hy, hkey, by rintro x ⟨⟩⟩
  | some x =>
    obtain ⟨hlt, hsafe⟩ := hsignal x rfl
    rw [if_pos (by simpa using hlt)] at hs
    obtain rfl := Outcome.ok.inj hs
    rw [addAnEventListener, if_neg (by simp [hsafe])]
    refine ⟨y, hy, hkey, ?_⟩
    rintro x' ⟨⟩
    rw [hid]
    exact List.mem_append_right _ (List.mem_singleton_self _)

/-- **The dispatch of events.** In every run, in a debug or a release build: the log keeps to
`EventAllowed`; a list holds what was added to it and not removed since, in order, no two listeners
with the same type, callback and capture, and no two with the same id; a listener that is removed is
not in the list, one that is added is, linked to the signal that the call named, and one leaves a
list for one of the reasons of `Left` only; the propagation of an event is stopped as the calls on
it say; and once no abort is in progress, no listener is left that was linked to an aborted
signal. -/
theorem dispatches_kept (hrun : (domMachine debug).Run initial s) :
    Kept EventAllowed s.ev.log ∧
    (∀ u, s.ev.listeners u = liveOf u s.ev.log) ∧
    (∀ u, ((s.ev.listeners u).map EventListener.key).Nodup) ∧
    (∀ u x u' x', x ∈ s.ev.listeners u → x' ∈ s.ev.listeners u' → x.id = x'.id →
      u = u' ∧ x = x') ∧
    (∀ u type callback capture t, s.calls = true →
      s.step debug (.removeEventListener u type callback capture) = .ok t →
      (type, callback, capture) ∉ (t.ev.listeners u).map EventListener.key) ∧
    (∀ u type callback capture passive once signal t, s.calls = true →
      (∀ x ∈ signal, x < s.sig.nextSignal ∧ (s.sig.signals x).aborted = false) →
      s.step debug (.addEventListener u type callback capture passive once signal) = .ok t →
      ∃ y ∈ t.ev.listeners u, y.key = (type, callback, capture) ∧
        ∀ x ∈ signal, .linked x u y.id ∈ t.ev.log) ∧
    (∀ a t u, s.step debug a = .ok t → ∀ y ∈ s.ev.listeners u,
      y ∈ t.ev.listeners u ∨ Left a t u y) ∧
    (∀ e, ((s.ev.events e).stopPropagation = true ↔ Stopped e s.ev.log) ∧
      ((s.ev.events e).stopImmediatePropagation = true ↔ StoppedNow e s.ev.log)) ∧
    (s.aborts = [] → ∀ x r u id, .aborted x r ∈ s.sig.log → .linked x u id ∈ s.ev.log →
      id ∉ (s.ev.listeners u).map EventListener.id) := by
  have h : s.Dispatches := dispatches_run hrun .initial
  exact ⟨h.heard.protocol, h.heard.lists.live, h.heard.lists.keys,
    fun u x u' x' hx hx' heq => h.heard.lists.eq_of_id hx (h.heard.lists.added u' x' hx') heq,
    fun u type callback capture t hcalls hs => step_removed hcalls hs,
    fun u type callback capture passive once signal t hcalls hx hs => step_added hcalls hx hs,
    fun a t u hs y hy => step_left h.heard hs hy,
    fun e => ⟨h.heard.flags.stopped e, h.heard.flags.stoppedNow e⟩,
    fun hnone x r u id hr hlinked => h.severed hnone hr hlinked⟩

/-- A listener that runs once aborts the signal of the last; the second is passive, so that it
cannot cancel the event. A listener of the next event stops its propagation, and the one after it
stops it at once, so that the last is not called. -/
theorem dispatches_kept_history : ∃ s, (domMachine true).Run initial s ∧
    s.ev.log.drop 6 = [.started 0 0 (.object 0) [0, 1, 2], .removed (.object 0) 0,
      .called 0 0 0 false, .severed 0 (.object 0) 2, .removed (.object 0) 2,
      .severed 0 (.object 0) 2, .initialized 1 "abort" false, .started 1 1 (.signal 0) [],
      .finished 1 1 true, .returned 0 0, .called 0 0 1 true, .prevented 0, .returned 0 0,
      .skipped 0 2, .finished 0 0 true, .added (.object 0) ⟨3, "message", 4, false, none, false⟩,
      .added (.object 0) ⟨4, "message", 5, false, none, false⟩, .initialized 2 "message" false,
      .started 2 2 (.object 0) [1, 3, 4], .called 2 2 1 true, .stopped 2 false, .returned 2 2,
      .called 2 2 3 false, .stopped 2 true, .returned 2 2, .finished 2 2 true] ∧
    Kept EventAllowed s.ev.log := by
  obtain ⟨s, hrun, hs⟩ := Machine.exists_run_of_exec (M := domMachine true) (s := initial)
    [.newSignal, .newEvent "message" true,
      .addEventListener (.object 0) "message" 1 false none true none,
      .addEventListener (.object 0) "message" 2 false (some true) false none,
      .addEventListener (.object 0) "message" 3 false none false (some 0),
      .addEventListener (.object 0) "message" 3 false none false (some 0),
      .dispatchEvent 0 (.object 0), .advance, .abort 0 none, .advance, .advance, .advance,
      .advance, .advance, .return_, .advance, .preventDefault 0, .return_, .advance, .advance,
      .addEventListener (.object 0) "message" 4 false none false none,
      .addEventListener (.object 0) "message" 5 false none false none, .newEvent "message" false,
      .dispatchEvent 2 (.object 0), .advance, .stopPropagation 2, .return_, .advance,
      .stopImmediatePropagation 2, .return_, .advance]
    (P := fun s => s.ev.log.drop 6 = [.started 0 0 (.object 0) [0, 1, 2],
      .removed (.object 0) 0, .called 0 0 0 false, .severed 0 (.object 0) 2,
      .removed (.object 0) 2, .severed 0 (.object 0) 2, .initialized 1 "abort" false,
      .started 1 1 (.signal 0) [], .finished 1 1 true, .returned 0 0, .called 0 0 1 true,
      .prevented 0, .returned 0 0, .skipped 0 2, .finished 0 0 true,
      .added (.object 0) ⟨3, "message", 4, false, none, false⟩,
      .added (.object 0) ⟨4, "message", 5, false, none, false⟩, .initialized 2 "message" false,
      .started 2 2 (.object 0) [1, 3, 4], .called 2 2 1 true, .stopped 2 false, .returned 2 2,
      .called 2 2 3 false, .stopped 2 true, .returned 2 2, .finished 2 2 true]) (by decide)
  exact ⟨s, hrun, of_decide_eq_true hs, (dispatches_kept hrun).1⟩

end Dom

end WebGlobals
