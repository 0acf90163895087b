import StarlingMonkey.WebGlobals.Aborting

/-!
# How events are dispatched

What happens to listeners and events, read off the log: the listeners that are in a list, the flags
of an event, the turns of a dispatch. `EventStep` says what one step of the whole system does to
them and to the dispatches in progress.
-/

namespace WebGlobals

open Protocol

/-! ### The log -/

/-- What two listeners in one list never share. -/
def EventListener.key (l : EventListener) : String × ℕ × Bool :=
  (l.eventType, l.callback, l.capture)

/-- One record's effect on the list of a target. -/
def liveStep (t : Target) (ls : List EventListener) : EventRecord → List EventListener
  | .added t' l => if t' = t then ls ++ [l] else ls
  | .removed t' id => if t' = t then ls.filter (·.id ≠ id) else ls
  | _ => ls

/-- The listeners of a target: those that were added and not removed since, in order. -/
def liveOf (t : Target) (log : List EventRecord) : List EventListener := log.foldl (liveStep t) []

/-- The listeners whose turn came in a dispatch. -/
def turnsOf (d : ℕ) (log : List EventRecord) : List ℕ :=
  log.filterMap fun
    | .called d' _ id _ | .skipped d' id => if d' = d then some id else none
    | _ => none

/-- The type of the event and whether it can be canceled, as it was last initialized. -/
def Initialized (e : ℕ) (type : String) (cancelable : Bool) : List EventRecord → Prop :=
  Since (fun _ r => r = .initialized e type cancelable) fun r => ∃ type c, r = .initialized e type c

/-- The propagation of the event was stopped, since it was last initialized or dispatched. -/
def Stopped (e : ℕ) : List EventRecord → Prop :=
  Since (fun _ r => ∃ immediate, r = .stopped e immediate) fun r =>
    (∃ type c, r = .initialized e type c) ∨ ∃ d result, r = .finished d e result

/-- The immediate propagation of the event was stopped. -/
def StoppedNow (e : ℕ) : List EventRecord → Prop :=
  Since (fun _ r => r = .stopped e true) fun r =>
    (∃ type c, r = .initialized e type c) ∨ ∃ d result, r = .finished d e result

/-- A passive listener of the event runs. -/
def InPassive (e : ℕ) : List EventRecord → Prop :=
  Since (fun _ r => ∃ d id, r = .called d e id true) fun r => ∃ d, r = .returned d e

/-- `preventDefault()` was called on the event, which could be canceled, while no passive listener
of it ran, and it was not initialized since. -/
def Canceled (e : ℕ) : List EventRecord → Prop :=
  Since (fun l r => r = .prevented e ∧ (∃ type, Initialized e type true l) ∧ ¬ InPassive e l)
    fun r => ∃ type c, r = .initialized e type c

/-- When a record may follow others. -/
def EventAllowed (l : List EventRecord) : EventRecord → Prop
  | .added t listener => (∀ t' x, .added t' x ∈ l → x.id ≠ listener.id) ∧
      ∀ x ∈ liveOf t l, x.key ≠ listener.key
  | .linked _ t id => id ∈ (liveOf t l).map EventListener.id
  | .severed g t id => .linked g t id ∈ l
  | .started d e t ids => (∀ e' t' ids', .started d e' t' ids' ∉ l) ∧ ids.Nodup ∧
      ∃ type c, Initialized e type c l ∧ ((Stopped e l ∧ ids = []) ∨
        (¬ Stopped e l ∧ ids = ((liveOf t l).filter (·.eventType = type)).map EventListener.id))
  | .skipped d id => ∃ e t ids rest, .started d e t ids ∈ l ∧ ids = turnsOf d l ++ id :: rest ∧
      ¬ StoppedNow e l ∧ id ∉ (liveOf t l).map EventListener.id
  | .called d e id passive => ∃ t ids rest listener l', .started d e t ids ∈ l ∧
      ids = turnsOf d l ++ id :: rest ∧ ¬ StoppedNow e l ∧
      l = l' ++ (if listener.once then [.removed t id] else []) ∧ listener ∈ liveOf t l' ∧
      listener.id = id ∧ passive = decide (listener.passive = some true) ∧
      (listener.once = true → ∀ d' e' p, .called d' e' id p ∉ l)
  | .finished d e result => ∃ t ids, .started d e t ids ∈ l ∧
      (turnsOf d l = ids ∨ StoppedNow e l) ∧ (result = false ↔ Canceled e l)
  | _ => True

section Log

variable {e : ℕ} {type : String} {c : Bool} {l : List EventRecord} {r : EventRecord}

theorem initialized_concat : Initialized e type c (l ++ [r]) ↔
    r = .initialized e type c ∨ (Initialized e type c l ∧ ¬ ∃ type c, r = .initialized e type c) :=
  since_concat

theorem stopped_concat : Stopped e (l ++ [r]) ↔ (∃ immediate, r = .stopped e immediate) ∨
    (Stopped e l ∧ ¬ ((∃ type c, r = .initialized e type c) ∨
      ∃ d result, r = .finished d e result)) :=
  since_concat

theorem stoppedNow_concat : StoppedNow e (l ++ [r]) ↔ r = .stopped e true ∨
    (StoppedNow e l ∧ ¬ ((∃ type c, r = .initialized e type c) ∨
      ∃ d result, r = .finished d e result)) :=
  since_concat

theorem inPassive_concat : InPassive e (l ++ [r]) ↔ (∃ d id, r = .called d e id true) ∨
    (InPassive e l ∧ ¬ ∃ d, r = .returned d e) :=
  since_concat

theorem canceled_concat : Canceled e (l ++ [r]) ↔
    (r = .prevented e ∧ (∃ type, Initialized e type true l) ∧ ¬ InPassive e l) ∨
    (Canceled e l ∧ ¬ ∃ type c, r = .initialized e type c) :=
  since_concat

theorem liveOf_concat (t : Target) (l : List EventRecord) (r : EventRecord) :
    liveOf t (l ++ [r]) = liveStep t (liveOf t l) r := by
  rw [liveOf, List.foldl_append]
  rfl

theorem turnsOf_concat (d : ℕ) (l : List EventRecord) (r : EventRecord) :
    turnsOf d (l ++ [r]) = turnsOf d l ++ turnsOf d [r] := List.filterMap_append

/-- Listeners leave the list of a target. -/
theorem liveOf_removed (t t' : Target) (l : List EventRecord) (ls : List EventListener) :
    liveOf t (l ++ ls.map (.removed t' ·.id)) =
      if t' = t then (liveOf t l).filter (·.id ∉ ls.map EventListener.id) else liveOf t l := by
  induction ls using List.reverseRecOn with
  | nil => simp
  | append_singleton ls x ih =>
    rw [List.map_append, ← List.append_assoc, List.map_cons, List.map_nil, liveOf_concat, ih]
    by_cases ht : t' = t
    · simp only [liveStep, ht, if_true, List.filter_filter]
      refine List.filter_congr fun y _ => ?_
      simp only [List.map_append, List.map_cons, List.map_nil, List.mem_append, List.mem_singleton,
        not_or]
      by_cases hy : y.id = x.id <;> simp [hy]
    · simp [liveStep, ht]

/-- A record that says nothing about the flags of an event. -/
def EventRecord.quiet : EventRecord → Bool
  | .added .. | .removed .. | .linked .. | .severed .. | .started .. | .skipped .. => true
  | _ => false

variable {l' : List EventRecord}

theorem initialized_append (h : ∀ r ∈ l', r.quiet = true) :
    Initialized e type c (l ++ l') ↔ Initialized e type c l := by
  refine since_append (fun m r hr hp => ?_) fun r hr ⟨type, c, hp⟩ => ?_ <;>
  · subst hp
    cases h _ hr

theorem stopped_append (h : ∀ r ∈ l', r.quiet = true) : Stopped e (l ++ l') ↔ Stopped e l := by
  refine since_append (fun m r hr ⟨i, hp⟩ => ?_) fun r hr hp => ?_
  · subst hp
    cases h _ hr
  · rcases hp with ⟨type, c, rfl⟩ | ⟨d, result, rfl⟩ <;> cases h _ hr

theorem stoppedNow_append (h : ∀ r ∈ l', r.quiet = true) :
    StoppedNow e (l ++ l') ↔ StoppedNow e l := by
  refine since_append (fun m r hr hp => ?_) fun r hr hp => ?_
  · subst hp
    cases h _ hr
  · rcases hp with ⟨type, c, rfl⟩ | ⟨d, result, rfl⟩ <;> cases h _ hr

theorem inPassive_append (h : ∀ r ∈ l', r.quiet = true) :
    InPassive e (l ++ l') ↔ InPassive e l := by
  refine since_append (fun m r hr ⟨d, id, hp⟩ => ?_) fun r hr ⟨d, hp⟩ => ?_ <;>
  · subst hp
    cases h _ hr

theorem canceled_append (h : ∀ r ∈ l', r.quiet = true) : Canceled e (l ++ l') ↔ Canceled e l := by
  refine since_append (fun m r hr hp => ?_) fun r hr ⟨type, c, hp⟩ => ?_
  · obtain ⟨rfl, -⟩ := hp
    cases h _ hr
  · subst hp
    cases h _ hr

end Log

/-! ### Steps -/

/-- A dispatch in progress: the listener that is called, and those to come. -/
structure Dispatching where
  dispatch : ℕ
  event : ℕ
  target : Target
  current : Option ListenerSnapshot
  snapshots : List ListenerSnapshot

/-- What one step of the system does to the listeners and events, and to the dispatches in
progress. -/
inductive EventStep : Listening → List Dispatching → Listening → List Dispatching → Prop where
  | stay (v : Listening) (ds : List Dispatching) : EventStep v ds v ds
  | newEvent (v : Listening) (ds : List Dispatching) (type : String) (c : Bool) :
    EventStep v ds (v.newEvent type c) ds
  | initEvent {v : Listening} (ds : List Dispatching) {e : ℕ} (type : String) (c : Bool)
      (h : e < v.nextEvent) : EventStep v ds (v.initEvent e type c) ds
  | preventDefault {v : Listening} (ds : List Dispatching) {e : ℕ} (h : e < v.nextEvent) :
    EventStep v ds ((v.preventDefault e).record (.prevented e)) ds
  | stopPropagation {v : Listening} (ds : List Dispatching) {e : ℕ} (h : e < v.nextEvent)
      (hcalls : ∀ x ∈ ds, x.current.isSome = true) :
    EventStep v ds ((v.stopPropagation e).record (.stopped e false)) ds
  | stopImmediatePropagation {v : Listening} (ds : List Dispatching) {e : ℕ} (h : e < v.nextEvent)
      (hcalls : ∀ x ∈ ds, x.current.isSome = true) :
    EventStep v ds ((v.stopImmediatePropagation e).record (.stopped e true)) ds
  | append (v : Listening) (ds : List Dispatching) (t : Target) (type : String) (callback : ℕ)
      (capture : Bool) (passive : Option Bool) (once : Bool) :
    EventStep v ds (v.append t type callback capture passive once).1 ds
  | link (v : Listening) (ds : List Dispatching) (t : Target) (type : String) (callback : ℕ)
      (capture : Bool) (passive : Option Bool) (once : Bool) (signal : ℕ) :
    EventStep v ds ((v.append t type callback capture passive once).1.record
      (.linked signal t (v.append t type callback capture passive once).2)) ds
  | retain (v : Listening) (ds : List Dispatching) (t : Target) (p : EventListener → Bool) :
    EventStep v ds (v.retain t p) ds
  | sever {v : Listening} (ds : List Dispatching) {signal : ℕ} {t : Target} {id : ℕ}
      (h : .linked signal t id ∈ v.log) :
    EventStep v ds ((v.record (.severed signal t id)).removeAnEventListenerById t id) ds
  | start {v : Listening} (ds : List Dispatching) {e : ℕ} (t : Target) (h : e < v.nextEvent)
      (hdispatch : (v.events e).dispatch = false) :
    EventStep v ds (v.start e t) (⟨v.nextDispatch, e, t, none, v.snapshots e t⟩ :: ds)
  | fire (v : Listening) (ds : List Dispatching) (type : String) (t : Target) :
    EventStep v ds ((v.newEvent type false).start v.nextEvent t)
      (⟨v.nextDispatch, v.nextEvent, t, none, (v.newEvent type false).snapshots v.nextEvent t⟩ ::
        ds)
  | visit (v : Listening) (ds : List Dispatching) (d e : ℕ) (t : Target) (snap : ListenerSnapshot)
      (snaps : List ListenerSnapshot) :
    EventStep v (⟨d, e, t, none, snap :: snaps⟩ :: ds) (v.visit d e t snap).1
      (⟨d, e, t, if (v.visit d e t snap).2 then some snap else none, snaps⟩ :: ds)
  | return_ (v : Listening) (ds : List Dispatching) (d e : ℕ) (t : Target) (c : ListenerSnapshot)
      (snaps : List ListenerSnapshot) :
    EventStep v (⟨d, e, t, some c, snaps⟩ :: ds) (v.return_ d e)
      (⟨d, e, t, none, if (v.events e).stopImmediatePropagation then [] else snaps⟩ :: ds)
  | finish (v : Listening) (ds : List Dispatching) (d e : ℕ) (t : Target) :
    EventStep v (⟨d, e, t, none, []⟩ :: ds) (v.finish d e) ds

/-- The dispatch that a frame is. -/
def Frame.dispatching? : Frame → Option Dispatching
  | .dispatching d e t current snaps => some ⟨d, e, t, current, snaps⟩
  | _ => none

namespace Dom

/-- The dispatches in progress, the innermost first. -/
def dispatches (s : Dom) : List Dispatching := s.frames.filterMap Frame.dispatching?

/-- Below the frame on top, dispatches are in a call. -/
def Nested (s : Dom) : Prop :=
  ∀ fr ∈ s.frames.tail, ∀ x, fr.dispatching? = some x → x.current.isSome = true

/-- The abort of the signal is to remove the listener: that is registered on the signal, or comes up
in an abort in progress. -/
def Pool (s : Dom) (x : ℕ) (t : Target) (id : ℕ) : Prop :=
  .removeListener t id ∈ (s.sig.signals x).abortAlgorithms ∨
    ∃ a ∈ s.aborts, a.signal = x ∧ .removeListener t id ∈ a.pending

/-- The abort of a signal is to remove what was linked to it, as long as that is in a list, and
nothing else. -/
structure Linked (s : Dom) : Prop where
  linked : ∀ x t id, s.Pool x t id → .linked x t id ∈ s.ev.log
  kept : ∀ x t id, .linked x t id ∈ s.ev.log →
    id ∈ (s.ev.listeners t).map EventListener.id → s.Pool x t id

variable {s t : Dom} {debug : Bool}

/-- While JS runs, all dispatches are in a call. -/
theorem Nested.calls (h : s.Nested) (hcalls : s.calls = true) :
    ∀ x ∈ s.dispatches, x.current.isSome = true := by
  intro x hx
  obtain ⟨fr, hfr, hx⟩ := List.mem_filterMap.mp hx
  cases hfs : s.frames with
  | nil =>
    rw [hfs] at hfr
    cases hfr
  | cons top frames =>
    rw [hfs] at hfr
    rcases List.mem_cons.mp hfr with rfl | hfr
    · cases fr with
      | dispatching d e target current snaps =>
        obtain rfl := Option.some.inj hx
        rw [Dom.calls, hfs] at hcalls
        exact hcalls
      | aborting => cases hx
    · exact h fr (by rwa [hfs]) x hx

/-- What JS does to the listeners and events. -/
theorem act_eventStep (hcalls : ∀ x ∈ s.dispatches, x.current.isSome = true) {a : Action}
    (h : s.act debug a = .ok t) : EventStep s.ev s.dispatches t.ev t.dispatches := by
  have hstay : EventStep s.ev s.dispatches s.ev s.dispatches := .stay _ _
  cases a with
  | newEvent eventType cancelable =>
    obtain rfl := Outcome.ok.inj h
    exact .newEvent _ _ _ _
  | initEvent event eventType cancelable =>
    rw [act] at h
    split at h <;> obtain rfl := Outcome.ok.inj h
    · exact .initEvent _ _ _ ‹_›
    · exact hstay
  | preventDefault event =>
    rw [act] at h
    split at h <;> obtain rfl := Outcome.ok.inj h
    · exact .preventDefault _ ‹_›
    · exact hstay
  | stopPropagation event =>
    rw [act] at h
    split at h <;> obtain rfl := Outcome.ok.inj h
    -- code runs only inside a callback, so every dispatch has a current listener
    · exact .stopPropagation _ ‹_› hcalls
    · exact hstay
  | stopImmediatePropagation event =>
    rw [act] at h
    split at h <;> obtain rfl := Outcome.ok.inj h
    · exact .stopImmediatePropagation _ ‹_› hcalls
    · exact hstay
  | addEventListener target eventType callback capture passive once signal =>
    rw [act] at h
    split at h <;> obtain rfl := Outcome.ok.inj h
    · cases signal with
      | none => exact .append _ _ _ _ _ _ _ _
      | some signal =>
        rw [addAnEventListener]
        split
        · exact hstay
        · exact .link _ _ _ _ _ _ _ _ _
    · exact hstay
  | removeEventListener target eventType callback capture =>
    obtain rfl := Outcome.ok.inj h
    exact .retain _ _ _ _
  -- an event that dispatches already, or was not initialized, is refused
  | dispatchEvent event target =>
    rw [act] at h
    split at h
    next hevent =>
      simp only [Bool.and_eq_true, decide_eq_true_eq, Bool.not_eq_true'] at hevent
      rw [dispatch] at h
      obtain ⟨-, -, h⟩ := Outcome.bind_eq_ok h
      obtain rfl := Outcome.ok.inj h
      exact .start _ _ hevent.1.1 hevent.1.2
    next =>
      obtain rfl := Outcome.ok.inj h
      exact hstay
  -- signals, until a step of an abort fires an event, dispatch nothing
  | newSignal =>
    obtain rfl := Outcome.ok.inj h
    exact hstay
  | abortedSignal reason =>
    obtain rfl := Outcome.ok.inj h
    exact hstay
  | any signals =>
    rw [act] at h
    split at h <;> obtain rfl := Outcome.ok.inj h <;> exact hstay
  | addAbortAlgorithm signal callback =>
    rw [act] at h
    split at h <;> obtain rfl := Outcome.ok.inj h <;> exact hstay
  | removeAbortAlgorithm signal callback =>
    rw [act] at h
    split at h <;> obtain rfl := Outcome.ok.inj h <;> exact hstay
  | abort signal reason =>
    rw [act] at h
    split at h <;> obtain rfl := Outcome.ok.inj h
    · rw [signalAbort]
      split <;> exact hstay
    · exact hstay
  | advance =>
    obtain rfl := Outcome.ok.inj h
    exact hstay
  | return_ =>
    obtain rfl := Outcome.ok.inj h
    exact hstay

/-- What the frame on top does to the listeners and events as it goes on. -/
theorem advance_eventStep (hlinked : s.Linked) (h : s.advance debug = .ok t) :
    EventStep s.ev s.dispatches t.ev t.dispatches := by
  rw [advance] at h
  split at h
  next d event target snap snapshots frames hfs =>
    obtain ⟨-, -, h⟩ := Outcome.bind_eq_ok h
    obtain rfl := Outcome.ok.inj h
    simp only [dispatches, hfs, List.filterMap_cons, Frame.dispatching?]
    exact .visit _ _ _ _ _ _ _
  next d event target frames hfs =>
    obtain rfl := Outcome.ok.inj h
    simp only [dispatches, hfs, List.filterMap_cons, Frame.dispatching?]
    exact .finish _ _ _ _ _
  next signal held id pending fired dependents frames hfs =>
    obtain rfl := Outcome.ok.inj h
    have hmem : .linked signal held id ∈ s.ev.log := by
      refine hlinked.linked signal held id (.inr ⟨⟨signal, .removeListener held id :: pending,
        fired, dependents⟩, ?_, rfl, List.mem_cons_self⟩)
      rw [aborts, hfs]
      exact List.mem_cons_self
    simp only [dispatches, hfs, List.filterMap_cons, Frame.dispatching?]
    exact .sever _ hmem
  next signal callback pending fired dependents frames hfs =>
    obtain rfl := Outcome.ok.inj h
    simp only [dispatches, hfs, List.filterMap_cons, Frame.dispatching?]
    exact .stay _ _
  next signal dependents frames hfs =>
    rw [fireAnEvent, dispatch] at h
    obtain ⟨-, -, h⟩ := Outcome.bind_eq_ok h
    obtain rfl := Outcome.ok.inj h
    simp only [dispatches, hfs, List.filterMap_cons, Frame.dispatching?]
    exact .fire _ _ _ _
  next signal dependent dependents frames hfs =>
    obtain rfl := Outcome.ok.inj h
    simp only [dispatches, hfs, List.filterMap_cons, Frame.dispatching?]
    exact .stay _ _
  next signal frames hfs =>
    obtain rfl := Outcome.ok.inj h
    simp only [dispatches, hfs, List.filterMap_cons, Frame.dispatching?]
    exact .stay _ _
  next =>
    obtain rfl := Outcome.ok.inj h
    exact .stay _ _

/-- What the end of a call does to the listeners and events. -/
theorem return_eventStep (h : s.return_ debug = .ok t) :
    EventStep s.ev s.dispatches t.ev t.dispatches := by
  rw [return_] at h
  split at h
  next d event target snap snapshots frames hfs =>
    obtain ⟨-, -, h⟩ := Outcome.bind_eq_ok h
    obtain rfl := Outcome.ok.inj h
    simp only [dispatches, hfs, List.filterMap_cons, Frame.dispatching?]
    exact .return_ _ _ _ _ _ _ _
  next signal pending fired dependents frames hfs =>
    obtain rfl := Outcome.ok.inj h
    simp only [dispatches, hfs, List.filterMap_cons, Frame.dispatching?]
    exact .stay _ _
  next =>
    obtain rfl := Outcome.ok.inj h
    exact .stay _ _

/-- **What a step does to the listeners and events.** -/
theorem step_eventStep (hnested : s.Nested) (hlinked : s.Linked) {a : Action}
    (h : s.step debug a = .ok t) : EventStep s.ev s.dispatches t.ev t.dispatches := by
  have hact (hs : (if s.calls then s.act debug a else pure s) = .ok t) :
      EventStep s.ev s.dispatches t.ev t.dispatches := by
    split at hs
    next hcalls => exact act_eventStep (hnested.calls hcalls) hs
    next =>
      obtain rfl := Outcome.ok.inj hs
      exact .stay _ _
  cases a with
  | advance => exact advance_eventStep hlinked h
  | return_ => exact return_eventStep h
  | _ => exact hact h

/-- A step leaves what is below the frame on top, or calls it. -/
theorem Nested.step (h : s.Nested) {a : Action} (hs : s.step debug a = .ok t) : t.Nested := by
  have hcalled (hc : s.calls = true) (fr : Frame) (hfr : fr ∈ s.frames) (x : Dispatching)
      (hx : fr.dispatching? = some x) : x.current.isSome = true :=
    h.calls hc x (List.mem_filterMap.mpr ⟨fr, hfr, hx⟩)
  have hact (hs : (if s.calls then s.act debug a else pure s) = .ok t) : t.Nested := by
    split at hs
    next hc =>
      have hframes : t.frames = s.frames ∨ t.frames.tail = s.frames := by
        cases a with
        | dispatchEvent event target =>
          rw [act] at hs
          split at hs
          · rw [dispatch] at hs
            obtain ⟨-, -, hs⟩ := Outcome.bind_eq_ok hs
            obtain rfl := Outcome.ok.inj hs
            exact .inr rfl
          · obtain rfl := Outcome.ok.inj hs
            exact .inl rfl
        | addEventListener target eventType callback capture passive once signal =>
          rw [act] at hs
          split at hs <;> obtain rfl := Outcome.ok.inj hs
          · cases signal with
            | none => exact .inl rfl
            | some signal =>
              rw [addAnEventListener]
              split <;> exact .inl rfl
          · exact .inl rfl
        | abort signal reason =>
          rw [act] at hs
          split at hs <;> obtain rfl := Outcome.ok.inj hs
          · rw [signalAbort]
            split
            · exact .inl rfl
            · exact .inr rfl
          · exact .inl rfl
        | newEvent => obtain rfl := Outcome.ok.inj hs; exact .inl rfl
        | newSignal => obtain rfl := Outcome.ok.inj hs; exact .inl rfl
        | abortedSignal => obtain rfl := Outcome.ok.inj hs; exact .inl rfl
        | removeEventListener => obtain rfl := Outcome.ok.inj hs; exact .inl rfl
        | advance => obtain rfl := Outcome.ok.inj hs; exact .inl rfl
        | return_ => obtain rfl := Outcome.ok.inj hs; exact .inl rfl
        | _ =>
          rw [act] at hs
          split at hs <;> obtain rfl := Outcome.ok.inj hs <;> exact .inl rfl
      intro fr hfr
      rcases hframes with hf | hf
      · rw [hf] at hfr
        exact hcalled hc fr (List.mem_of_mem_tail hfr)
      · rw [hf] at hfr
        exact hcalled hc fr hfr
    next =>
      obtain rfl := Outcome.ok.inj hs
      exact h
  -- the frame on top goes on, ends, or fires an event
  have hsame {fr' : Frame} {frames : List Frame} (hfs : s.frames = fr' :: frames)
      {u : Dom} (hu : u.frames.tail = frames) : u.Nested := by
    intro fr hfr
    rw [hu] at hfr
    exact h fr (by rwa [hfs])
  have hpop {fr' : Frame} {frames : List Frame} (hfs : s.frames = fr' :: frames)
      {u : Dom} (hu : u.frames = frames) : u.Nested := by
    intro fr hfr
    rw [hu] at hfr
    exact h fr (by rw [hfs]; exact List.mem_of_mem_tail hfr)
  cases a with
  | advance =>
    rw [Dom.step, Dom.advance] at hs
    split at hs
    next d event target snap snapshots frames hfs =>
      obtain ⟨-, -, hs⟩ := Outcome.bind_eq_ok hs
      obtain rfl := Outcome.ok.inj hs
      exact hsame hfs rfl
    next d event target frames hfs =>
      obtain rfl := Outcome.ok.inj hs
      exact hpop hfs rfl
    next signal held id pending fired dependents frames hfs =>
      obtain rfl := Outcome.ok.inj hs
      exact hsame hfs rfl
    next signal callback pending fired dependents frames hfs =>
      obtain rfl := Outcome.ok.inj hs
      exact hsame hfs rfl
    next signal dependents frames hfs =>
      rw [fireAnEvent, dispatch] at hs
      obtain ⟨-, -, hs⟩ := Outcome.bind_eq_ok hs
      obtain rfl := Outcome.ok.inj hs
      intro fr hfr x hx
      rcases List.mem_cons.mp hfr with rfl | hfr
      · cases hx
      · exact h fr (by rwa [hfs]) x hx
    next signal dependent dependents frames hfs =>
      obtain rfl := Outcome.ok.inj hs
      exact hsame hfs rfl
    next signal frames hfs =>
      obtain rfl := Outcome.ok.inj hs
      exact hpop hfs rfl
    next =>
      obtain rfl := Outcome.ok.inj hs
      exact h
  | return_ =>
    rw [Dom.step, Dom.return_] at hs
    split at hs
    next d event target snap snapshots frames hfs =>
      obtain ⟨-, -, hs⟩ := Outcome.bind_eq_ok hs
      obtain rfl := Outcome.ok.inj hs
      exact hsame hfs rfl
    next signal pending fired dependents frames hfs =>
      obtain rfl := Outcome.ok.inj hs
      exact hsame hfs rfl
    next =>
      obtain rfl := Outcome.ok.inj hs
      exact h
  | _ => exact hact hs

end Dom

end WebGlobals
