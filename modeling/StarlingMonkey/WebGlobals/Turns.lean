import StarlingMonkey.WebGlobals.Listeners

/-!
# The turns of a dispatch

`Turns` is the part of the invariant about the dispatches in progress: what is left of a snapshot
are the listeners whose turn has not come. With the lists, the flags and the protocol of the log it
makes up `Heard`, which every `EventStep` keeps.
-/

namespace WebGlobals

open Protocol

variable {v v' : Listening} {ds ds' : List Dispatching} {l : List EventRecord} {r : EventRecord}

/-- The dispatches in progress, and the listeners that were called. -/
structure Turns (v : Listening) (ds : List Dispatching) : Prop where
  dispatch : ∀ e, (v.events e).dispatch = true ↔ e ∈ ds.map Dispatching.event
  events : (ds.map Dispatching.event).Nodup
  dispatches : (ds.map Dispatching.dispatch).Nodup
  lt : ∀ x ∈ ds, x.event < v.nextEvent ∧ x.dispatch < v.nextDispatch
  started : ∀ d e t ids, .started d e t ids ∈ v.log → d < v.nextDispatch
  noTurns : ∀ d, v.nextDispatch ≤ d → turnsOf d v.log = []
  turns : ∀ x ∈ ds, ∃ ids, .started x.dispatch x.event x.target ids ∈ v.log ∧
    ((ids = turnsOf x.dispatch v.log ++ x.snapshots.map ListenerSnapshot.id ∧
        (x.current = none → x.snapshots ≠ [] → ¬ StoppedNow x.event v.log)) ∨
      (x.current = none ∧ x.snapshots = [] ∧ StoppedNow x.event v.log))
  snapshots : ∀ x ∈ ds, ∀ sn ∈ x.snapshots, ∃ y, .added x.target y ∈ v.log ∧ y.id = sn.id ∧
    y.passive = sn.passive ∧ y.once = sn.once
  called : ∀ d e id p, .called d e id p ∈ v.log → ∃ t y, .added t y ∈ v.log ∧ y.id = id ∧
    (y.once = true → id ∉ (v.listeners t).map EventListener.id)

/-- The invariant of the listeners, the events and the dispatches. -/
structure Heard (v : Listening) (ds : List Dispatching) : Prop where
  lists : Lists v
  flags : Flags v
  turns : Turns v ds
  protocol : Kept EventAllowed v.log

/-- A record that is no turn and begins no dispatch. -/
def EventRecord.turnless : EventRecord → Bool
  | .called .. | .skipped .. | .started .. => false
  | _ => true

theorem turnsOf_append {d : ℕ} (h : ∀ r ∈ l, r.turnless = true) (m : List EventRecord) :
    turnsOf d (m ++ l) = turnsOf d m := by
  rw [turnsOf, List.filterMap_append]
  refine List.append_right_eq_self.mpr (List.filterMap_eq_nil_iff.mpr fun r hr => ?_)
  have hr := h r hr
  cases r <;> first | rfl | cases hr

theorem stopped_of_now {e : ℕ} (h : StoppedNow e l) : Stopped e l := by
  obtain ⟨l₁, r, l₂, rfl, rfl, hno⟩ := h
  exact ⟨l₁, _, l₂, rfl, ⟨true, rfl⟩, hno⟩

/-- Whoever is in a list with an id is the listener that was added with it. -/
theorem Lists.eq_of_id (h : Lists v) {t t' : Target} {x y : EventListener}
    (hx : x ∈ v.listeners t) (hy : .added t' y ∈ v.log) (heq : x.id = y.id) : t = t' ∧ x = y :=
  h.unique t x t' y (h.added t x hx) hy heq

/-- The listener with an id is the only one. -/
theorem Lists.filter_id (h : Lists v) {t : Target} {x : EventListener}
    (hx : x ∈ v.listeners t) : (v.listeners t).filter (fun y => !decide (y.id ≠ x.id)) = [x] := by
  have hnodup := h.nodup t
  generalize v.listeners t = ls at hx hnodup
  induction ls with
  | nil => cases hx
  | cons y ls ih =>
    rw [List.map_cons, List.nodup_cons] at hnodup
    rcases List.mem_cons.mp hx with rfl | hx
    · have hnone : ls.filter (fun y => !decide (y.id ≠ x.id)) = [] := by
        refine List.filter_eq_nil_iff.mpr fun y hy heq => hnodup.1 ?_
        have heq : y.id = x.id := by simpa using heq
        exact heq ▸ List.mem_map_of_mem hy
      rw [List.filter_cons, hnone]
      simp
    · have hne : y.id ≠ x.id := fun heq => hnodup.1 (heq ▸ List.mem_map_of_mem hx)
      rw [List.filter_cons, if_neg (by simpa using hne)]
      exact ih hx hnodup.2

namespace Turns

/-- Things that are no turn of a dispatch. -/
theorem quiet (h : Turns v ds) (hdispatch : ∀ e, (v'.events e).dispatch = (v.events e).dispatch)
    (hevent : v.nextEvent ≤ v'.nextEvent) (hnext : v'.nextDispatch = v.nextDispatch)
    (hlog : v'.log = v.log ++ l) (hl : ∀ r ∈ l, r.turnless = true)
    (hstopped : ∀ x ∈ ds, x.current = none →
      (StoppedNow x.event v'.log ↔ StoppedNow x.event v.log))
    (hlisteners : ∀ t y, .added t y ∈ v.log → y.id ∈ (v'.listeners t).map EventListener.id →
      y.id ∈ (v.listeners t).map EventListener.id) : Turns v' ds := by
  have hsub {r : EventRecord} (hr : r ∈ v.log) : r ∈ v'.log := by
    rw [hlog]
    exact List.mem_append_left _ hr
  have hsame {r : EventRecord} (hr : r.turnless = false) (hmem : r ∈ v'.log) : r ∈ v.log := by
    rw [hlog] at hmem
    refine (List.mem_append.mp hmem).resolve_right fun hmem => ?_
    rw [hl r hmem] at hr
    cases hr
  have hturns (d : ℕ) : turnsOf d v'.log = turnsOf d v.log := by
    rw [hlog, turnsOf_append hl]
  constructor
  case dispatch => simpa only [hdispatch] using h.dispatch
  case events => exact h.events
  case dispatches => exact h.dispatches
  case lt => exact fun x hx => ⟨(h.lt x hx).1.trans_le hevent, hnext ▸ (h.lt x hx).2⟩
  case started => exact fun d e t ids hmem => hnext ▸ h.started d e t ids (hsame rfl hmem)
  case noTurns => simpa only [hturns, hnext] using h.noTurns
  case turns =>
    intro x hx
    obtain ⟨ids, hstarted, hids⟩ := h.turns x hx
    refine ⟨ids, hsub hstarted, ?_⟩
    rw [hturns]
    rcases hids with ⟨heq, hno⟩ | ⟨hcurrent, hnil, hs⟩
    · exact .inl ⟨heq, fun hcurrent hne => (hstopped x hx hcurrent).not.mpr (hno hcurrent hne)⟩
    · exact .inr ⟨hcurrent, hnil, (hstopped x hx hcurrent).mpr hs⟩
  case snapshots =>
    intro x hx sn hsn
    obtain ⟨y, hy, hrest⟩ := h.snapshots x hx sn hsn
    exact ⟨y, hsub hy, hrest⟩
  case called =>
    intro d e id p hmem
    obtain ⟨t, y, hy, rfl, honce⟩ := h.called d e id p (hsame rfl hmem)
    exact ⟨t, y, hsub hy, rfl, fun ho hin => honce ho (hlisteners t y hy hin)⟩

end Turns

namespace Heard

/-- A new event. -/
theorem newEvent (h : Heard v ds) (type : String) (c : Bool) : Heard (v.newEvent type c) ds := by
  have hnew : v.nextEvent ∉ ds.map Dispatching.event := by
    intro hmem
    obtain ⟨x, hx, heq⟩ := List.mem_map.mp hmem
    exact absurd (h.turns.lt x hx).1 (by rw [heq]; exact lt_irrefl _)
  have hdispatch (e : ℕ) : ((v.newEvent type c).events e).dispatch = (v.events e).dispatch := by
    by_cases he : e = v.nextEvent
    · subst he
      have hno := mt (h.turns.dispatch v.nextEvent).mp hnew
      rw [Bool.not_eq_true] at hno
      simp [Listening.newEvent, Event.new, hno]
    · simp [Listening.newEvent, he]
  constructor
  case lists => exact h.lists.quiet rfl rfl rfl rfl
  case flags => exact h.flags.newEvent type c
  case turns =>
    refine h.turns.quiet hdispatch (Nat.le_succ _) rfl rfl (by simp [EventRecord.turnless])
      (fun x hx _ => ?_) fun _ _ _ hmem => hmem
    have hne : v.nextEvent ≠ x.event := Nat.ne_of_gt (h.turns.lt x hx).1
    rw [Listening.newEvent, stoppedNow_concat]
    simp [hne]
  case protocol => exact h.protocol.concat trivial

/-- An event is changed in its flags, and that is recorded. -/
theorem of_event (h : Heard v ds) {e : ℕ} {f : Event → Event}
    (hf : ∀ x, (f x).dispatch = x.dispatch)
    (hflags : Flags ((v.modifyEvent e f).record r)) (hr : r.listless = true)
    (hturnless : r.turnless = true) (hstopped : ∀ x ∈ ds, x.current = none →
      (StoppedNow x.event (v.log ++ [r]) ↔ StoppedNow x.event v.log))
    (hallowed : EventAllowed v.log r) : Heard ((v.modifyEvent e f).record r) ds := by
  constructor
  case lists => exact h.lists.quiet rfl rfl rfl hr
  case flags => exact hflags
  case turns =>
    refine h.turns.quiet (fun e' => ?_) (le_refl _) rfl rfl (by simpa using hturnless) hstopped
      fun _ _ _ hmem => hmem
    by_cases he : e' = e
    · subst he
      simp [Listening.record, Listening.modifyEvent, hf]
    · simp [Listening.record, Listening.modifyEvent, he]
  case protocol => exact h.protocol.concat hallowed

/-- `init_event`. -/
theorem initEvent (h : Heard v ds) {e : ℕ} (he : e < v.nextEvent) (type : String) (c : Bool) :
    Heard (v.initEvent e type c) ds := by
  have hflags := h.flags.initEvent he type c
  rw [Listening.initEvent] at hflags ⊢
  split_ifs at hflags ⊢ with hd
  · exact h
  · refine h.of_event (fun _ => rfl) hflags rfl rfl (fun x hx _ => ?_) trivial
    have hne : e ≠ x.event := by
      rintro rfl
      exact hd ((h.turns.dispatch _).mpr (List.mem_map_of_mem hx))
    rw [stoppedNow_concat]
    simp [hne]

/-- `prevent_default`. -/
theorem preventDefault (h : Heard v ds) {e : ℕ} (he : e < v.nextEvent) :
    Heard ((v.preventDefault e).record (.prevented e)) ds := by
  refine h.of_event (fun x => ?_) (h.flags.preventDefault he) rfl rfl (fun x hx _ => ?_) trivial
  · rw [Event.cancel]
    split_ifs <;> rfl
  · rw [stoppedNow_concat]
    simp

/-- `stop_propagation`. -/
theorem stopPropagation (h : Heard v ds) {e : ℕ} (he : e < v.nextEvent) :
    Heard ((v.stopPropagation e).record (.stopped e false)) ds := by
  refine h.of_event (fun _ => rfl) (h.flags.stop he false rfl rfl rfl) rfl rfl (fun x hx _ => ?_)
    trivial
  rw [stoppedNow_concat]
  simp

/-- `stop_immediate_propagation`: JS runs, so that every dispatch is in a call. -/
theorem stopImmediatePropagation (h : Heard v ds) {e : ℕ} (he : e < v.nextEvent)
    (hcalls : ∀ x ∈ ds, x.current.isSome = true) :
    Heard ((v.stopImmediatePropagation e).record (.stopped e true)) ds := by
  refine h.of_event (fun _ => rfl) (h.flags.stop he true rfl rfl rfl) rfl rfl
    (fun x hx hnone => ?_) trivial
  have hsome := hcalls x hx
  rw [hnone] at hsome
  cases hsome

/-- Listeners are kept that satisfy a condition. -/
theorem retain (h : Heard v ds) (t : Target) (p : EventListener → Bool) :
    Heard (v.retain t p) ds := by
  have hquiet : ∀ r ∈ ((v.listeners t).filter fun x => !p x).map
      (fun x => EventRecord.removed t x.id), r.quiet = true ∧ r.turnless = true := by
    intro r hr
    obtain ⟨x, -, rfl⟩ := List.mem_map.mp hr
    exact ⟨rfl, rfl⟩
  constructor
  case lists => exact h.lists.retain t p
  case flags =>
    exact h.flags.quiet rfl rfl (fun r hr => (hquiet r hr).1) fun _ =>
      ⟨rfl, rfl, rfl, rfl, rfl, rfl⟩
  case turns =>
    refine h.turns.quiet (fun _ => rfl) (le_refl _) rfl rfl (fun r hr => (hquiet r hr).2)
      (fun x _ _ => stoppedNow_append fun r hr => (hquiet r hr).1) fun t' y _ hmem => ?_
    by_cases ht : t' = t
    · subst ht
      obtain ⟨x, hx, heq⟩ := List.mem_map.mp hmem
      simp only [Listening.retain, Function.update_self] at hx
      exact heq ▸ List.mem_map_of_mem (List.mem_of_mem_filter hx)
    · simpa [Listening.retain, ht] using hmem
  case protocol =>
    refine h.protocol.append fun r hr m => ?_
    obtain ⟨x, -, rfl⟩ := List.mem_map.mp hr
    trivial

/-- A record about the signals of listeners. -/
theorem record (h : Heard v ds) (hquiet : r.quiet = true) (hlistless : r.listless = true)
    (hturnless : r.turnless = true) (hallowed : EventAllowed v.log r) : Heard (v.record r) ds := by
  constructor
  case lists => exact h.lists.quiet rfl rfl rfl hlistless
  case flags =>
    exact h.flags.quiet rfl rfl (by simpa using hquiet) fun _ => ⟨rfl, rfl, rfl, rfl, rfl, rfl⟩
  case turns =>
    exact h.turns.quiet (fun _ => rfl) (le_refl _) rfl rfl (by simpa using hturnless)
      (fun x _ _ => stoppedNow_append (by simpa using hquiet)) fun _ _ _ hmem => hmem
  case protocol => exact h.protocol.concat hallowed

/-- A listener is appended, unless the list has one like it. -/
theorem append (h : Heard v ds) (t : Target) (type : String) (callback : ℕ) (capture : Bool)
    (passive : Option Bool) (once : Bool) :
    Heard (v.append t type callback capture passive once).1 ds := by
  have hlists := (h.lists.append t type callback capture passive once).1
  rw [Listening.append] at hlists ⊢
  split
  next x hx => exact h
  next hnone =>
    simp only [hnone] at hlists
    set x : EventListener := ⟨v.nextListener, type, callback, capture, passive, once⟩ with hx
    have hfresh (t' : Target) (y : EventListener) (hy : .added t' y ∈ v.log) : y.id ≠ x.id :=
      Nat.ne_of_lt (h.lists.lt t' y hy)
    constructor
    case lists => exact hlists
    case flags =>
      exact h.flags.quiet (l := [.added t x]) rfl rfl (by simp [EventRecord.quiet])
        fun _ => ⟨rfl, rfl, rfl, rfl, rfl, rfl⟩
    case turns =>
      refine h.turns.quiet (l := [.added t x]) (fun _ => rfl) (le_refl _) rfl rfl
        (by simp [EventRecord.turnless])
        (fun y _ _ => stoppedNow_append (by simp [EventRecord.quiet])) fun t' y hy hmem => ?_
      by_cases ht : t' = t
      · subst ht
        simp only [Function.update_self, List.map_append, List.mem_append, List.map_cons,
          List.map_nil, List.mem_singleton] at hmem
        exact hmem.resolve_right (hfresh t' y hy)
      · simpa [ht] using hmem
    case protocol =>
      refine h.protocol.concat ⟨hfresh, fun y hy heq => ?_⟩
      rw [← h.lists.live] at hy
      have hno := List.find?_eq_none.mp hnone y hy
      simp only [EventListener.key, hx, Prod.mk.injEq] at heq
      simp [heq.1, heq.2.1, heq.2.2] at hno

/-- A dispatch begins. -/
theorem start (h : Heard v ds) {e : ℕ} (t : Target) (he : e < v.nextEvent)
    (hdispatch : (v.events e).dispatch = false) :
    Heard (v.start e t) (⟨v.nextDispatch, e, t, none, v.snapshots e t⟩ :: ds) := by
  have hself : (v.start e t).events e =
      { v.events e with dispatch := true, target := some t } := by
    simp [Listening.start, Listening.modifyEvent]
  have hother (e' : ℕ) (hne : e' ≠ e) : (v.start e t).events e' = v.events e' := by
    simp [Listening.start, Listening.modifyEvent, hne]
  -- the event was not dispatching, so no other dispatch runs with it
  have hnew : e ∉ ds.map Dispatching.event := by
    rw [← h.turns.dispatch, hdispatch]
    exact Bool.false_ne_true
  set ids := (v.snapshots e t).map ListenerSnapshot.id with hids
  have hlog : (v.start e t).log = v.log ++ [.started v.nextDispatch e t ids] := rfl
  have hsub {r : EventRecord} (hr : r ∈ v.log) : r ∈ (v.start e t).log := by
    rw [hlog]
    exact List.mem_append_left _ hr
  have hsame {r : EventRecord} (hr : r ≠ .started v.nextDispatch e t ids)
      (hmem : r ∈ (v.start e t).log) : r ∈ v.log := by
    rw [hlog] at hmem
    exact (List.mem_append.mp hmem).resolve_right (by simpa using hr)
  have hturns (d : ℕ) : turnsOf d (v.start e t).log = turnsOf d v.log := by
    rw [hlog, turnsOf_concat]
    simp [turnsOf]
  have hstopped (e' : ℕ) : StoppedNow e' (v.start e t).log ↔ StoppedNow e' v.log := by
    rw [hlog]
    exact stoppedNow_append (by simp [EventRecord.quiet])
  constructor
  case lists => exact h.lists.quiet rfl rfl hlog rfl
  case flags =>
    refine h.flags.quiet rfl hlog (by simp [EventRecord.quiet]) fun e' => ?_
    by_cases hne : e' = e
    · subst hne
      rw [hself]
      exact ⟨rfl, rfl, rfl, rfl, rfl, rfl⟩
    · rw [hother e' hne]
      exact ⟨rfl, rfl, rfl, rfl, rfl, rfl⟩
  case turns =>
    constructor
    case dispatch =>
      intro e'
      rw [List.map_cons, List.mem_cons]
      by_cases hne : e' = e
      · subst hne
        simp [hself]
      · rw [hother e' hne, h.turns.dispatch, or_iff_right hne]
    case events => exact List.nodup_cons.mpr ⟨hnew, h.turns.events⟩
    case dispatches =>
      refine List.nodup_cons.mpr ⟨fun hmem => ?_, h.turns.dispatches⟩
      obtain ⟨x, hx, heq⟩ := List.mem_map.mp hmem
      exact absurd (h.turns.lt x hx).2 (by rw [heq]; exact lt_irrefl _)
    case lt =>
      intro x hx
      rcases List.mem_cons.mp hx with rfl | hx
      · exact ⟨he, Nat.lt_succ_self _⟩
      · exact ⟨(h.turns.lt x hx).1, Nat.lt_succ_of_lt (h.turns.lt x hx).2⟩
    case started =>
      intro d e' t' ids' hmem
      by_cases heq : EventRecord.started d e' t' ids' = .started v.nextDispatch e t ids
      · cases heq
        exact Nat.lt_succ_self _
      · exact Nat.lt_succ_of_lt (h.turns.started d e' t' ids' (hsame heq hmem))
    case noTurns =>
      intro d hd
      rw [hturns]
      exact h.turns.noTurns d (Nat.le_of_succ_le hd)
    case turns =>
      intro x hx
      simp only [hturns, hstopped]
      rcases List.mem_cons.mp hx with rfl | hx
      -- its turns are those of the snapshot taken, none of which was had
      · refine ⟨ids, by rw [hlog]; exact List.mem_append_right _ (List.mem_singleton_self _),
          .inl ⟨?_, fun _ hne hs => ?_⟩⟩
        · rw [h.turns.noTurns _ (le_refl _), List.nil_append]
        · have hs := (h.flags.stopped e).mpr (stopped_of_now hs)
          simp [Listening.snapshots, hs] at hne
      · obtain ⟨ids', hstarted, hrest⟩ := h.turns.turns x hx
        exact ⟨ids', hsub hstarted, hrest⟩
    case snapshots =>
      intro x hx sn hsn
      rcases List.mem_cons.mp hx with rfl | hx
      -- what is snapshotted is in the list, so it was added
      · have hsn : sn ∈ v.snapshots e t := hsn
        rw [Listening.snapshots] at hsn
        split_ifs at hsn
        · cases hsn
        · obtain ⟨y, hy, rfl⟩ := List.mem_map.mp hsn
          exact ⟨y, hsub (h.lists.added t y (List.mem_of_mem_filter hy)), rfl, rfl, rfl⟩
      · obtain ⟨y, hy, hrest⟩ := h.turns.snapshots x hx sn hsn
        exact ⟨y, hsub hy, hrest⟩
    case called =>
      intro d e' id p hmem
      obtain ⟨t', y, hy, hrest⟩ := h.turns.called d e' id p (hsame (by simp) hmem)
      exact ⟨t', y, hsub hy, hrest⟩
  case protocol =>
    rw [hlog]
    refine h.protocol.concat ⟨fun e' t' ids' hmem => ?_, ?_, (v.events e).eventType,
      (v.events e).cancelable, h.flags.initialized e he, ?_⟩
    -- each conjunct of the protocol, from the lists and the flags
    · exact absurd (h.turns.started _ _ _ _ hmem) (lt_irrefl _)
    · rw [hids, Listening.snapshots]
      split_ifs
      · exact List.nodup_nil
      · rw [List.map_map]
        exact (h.lists.nodup t).sublist (List.filter_sublist.map _)
    · rw [hids, Listening.snapshots, ← h.flags.stopped, ← h.lists.live]
      split_ifs with hs
      · exact .inl ⟨hs, rfl⟩
      · exact .inr ⟨hs, by rw [List.map_map]; rfl⟩

section Head

variable {d e : ℕ} {t : Target} {snap : ListenerSnapshot} {snaps : List ListenerSnapshot}

/-- The next turn of a dispatch. -/
theorem next_turn (h : Heard v (⟨d, e, t, none, snap :: snaps⟩ :: ds)) :
    ∃ ids, .started d e t ids ∈ v.log ∧
      ids = turnsOf d v.log ++ snap.id :: snaps.map ListenerSnapshot.id ∧ ¬ StoppedNow e v.log := by
  obtain ⟨ids, hstarted, ⟨heq, hno⟩ | ⟨-, hnil, -⟩⟩ := h.turns.turns _ List.mem_cons_self
  · exact ⟨ids, hstarted, heq, hno rfl (List.cons_ne_nil _ _)⟩
  · cases hnil

/-- The turn of a listener is over, or it is called: the dispatch on top goes on. -/
theorem turns_of_turn (h : Heard v (⟨d, e, t, none, snap :: snaps⟩ :: ds))
    {current : Option ListenerSnapshot}
    (hstarted : ∀ d e t ids, r ≠ .started d e t ids) (hquiet : ∀ e', r ≠ .stopped e' true)
    (hreset : ∀ e' type c, r ≠ .initialized e' type c) (hfinished : ∀ d e b, r ≠ .finished d e b)
    (hturn : turnsOf d [r] = [snap.id]) (hother : ∀ d', d' ≠ d → turnsOf d' [r] = [])
    (hdispatch : ∀ e', (v'.events e').dispatch = (v.events e').dispatch)
    (hevent : v'.nextEvent = v.nextEvent) (hnext : v'.nextDispatch = v.nextDispatch)
    (hlisteners : v'.listeners = v.listeners) (hlog : v'.log = v.log ++ [r])
    (hcalled : ∀ d e id p, r = .called d e id p → ∃ t y, .added t y ∈ v.log ∧ y.id = id ∧
      (y.once = true → id ∉ (v.listeners t).map EventListener.id)) :
    Turns v' (⟨d, e, t, current, snaps⟩ :: ds) := by
  obtain ⟨ids, hids, heq, hno⟩ := h.next_turn
  have hsub {r : EventRecord} (hr : r ∈ v.log) : r ∈ v'.log := by
    rw [hlog]
    exact List.mem_append_left _ hr
  have hmem {r' : EventRecord} (hr' : r' ∈ v'.log) : r' ∈ v.log ∨ r' = r := by
    rw [hlog] at hr'
    simpa using hr'
  have hstopped (e' : ℕ) : StoppedNow e' v'.log ↔ StoppedNow e' v.log := by
    rw [hlog, stoppedNow_concat]
    simp [hquiet, hreset, hfinished]
  have hdispatches := h.turns.dispatches
  rw [List.map_cons, List.nodup_cons] at hdispatches
  constructor
  case dispatch =>
    intro e'
    rw [hdispatch]
    exact h.turns.dispatch e'
  case events => exact h.turns.events
  case dispatches => exact h.turns.dispatches
  case lt =>
    intro x hx
    rw [hevent, hnext]
    rcases List.mem_cons.mp hx with rfl | hx
    · exact h.turns.lt ⟨d, e, t, none, snap :: snaps⟩ List.mem_cons_self
    · exact h.turns.lt x (List.mem_cons_of_mem _ hx)
  case started =>
    intro d' e' t' ids' hin
    rw [hnext]
    exact h.turns.started _ _ _ _ ((hmem hin).resolve_right (hstarted _ _ _ _).symm)
  case noTurns =>
    intro d' hd'
    rw [hnext] at hd'
    have hne : d' ≠ d := Nat.ne_of_gt ((h.turns.lt _ List.mem_cons_self).2.trans_le hd')
    rw [hlog, turnsOf_concat, h.turns.noTurns d' hd', hother d' hne]
    rfl
  case turns =>
    intro x hx
    rcases List.mem_cons.mp hx with rfl | hx
    -- the turn is had by the next of the snapshot
    · refine ⟨ids, hsub hids, .inl ⟨?_, fun _ _ => (hstopped e).not.mpr hno⟩⟩
      rw [hlog, turnsOf_concat, hturn, List.append_assoc]
      exact heq
    · obtain ⟨ids', hids', hrest⟩ := h.turns.turns x (List.mem_cons_of_mem _ hx)
      have hin : x.dispatch ∈ ds.map Dispatching.dispatch := List.mem_map_of_mem hx
      -- a record of this dispatch is no turn of another
      have hne : x.dispatch ≠ d := by
        rintro heq
        exact hdispatches.1 (heq ▸ hin)
      refine ⟨ids', hsub hids', ?_⟩
      rw [hstopped, hlog, turnsOf_concat, hother _ hne, List.append_nil]
      exact hrest
  case snapshots =>
    intro x hx sn hsn
    have hold : ∃ y ∈ (⟨d, e, t, none, snap :: snaps⟩ :: ds : List Dispatching),
        y.target = x.target ∧ sn ∈ y.snapshots := by
      rcases List.mem_cons.mp hx with rfl | hx
      · exact ⟨_, List.mem_cons_self, rfl, List.mem_cons_of_mem _ hsn⟩
      · exact ⟨x, List.mem_cons_of_mem _ hx, rfl, hsn⟩
    obtain ⟨y, hy, hyt, hsn⟩ := hold
    obtain ⟨z, hz, hrest⟩ := h.turns.snapshots y hy sn hsn
    rw [hyt] at hz
    exact ⟨z, hsub hz, hrest⟩
  case called =>
    intro d' e' id p hin
    rw [hlisteners]
    rcases hmem hin with hin | heq
    · obtain ⟨t', y, hy, hrest⟩ := h.turns.called d' e' id p hin
      exact ⟨t', y, hsub hy, hrest⟩
    -- the listener called now is one the visit found
    · obtain ⟨t', y, hy, hrest⟩ := hcalled d' e' id p heq.symm
      exact ⟨t', y, hsub hy, hrest⟩

/-- The listener is no longer in the list. -/
theorem skip (h : Heard v (⟨d, e, t, none, snap :: snaps⟩ :: ds))
    (hout : snap.id ∉ (v.listeners t).map EventListener.id) :
    Heard (v.record (.skipped d snap.id)) (⟨d, e, t, none, snaps⟩ :: ds) := by
  obtain ⟨ids, hids, heq, hno⟩ := h.next_turn
  constructor
  case lists => exact h.lists.quiet rfl rfl rfl rfl
  case flags =>
    exact h.flags.quiet rfl rfl (by simp [EventRecord.quiet]) fun _ =>
      ⟨rfl, rfl, rfl, rfl, rfl, rfl⟩
  case turns =>
    exact h.turns_of_turn (r := .skipped d snap.id) (by simp) (by simp) (by simp) (by simp)
      (by simp [turnsOf]) (fun d' hd' => by simp [turnsOf, Ne.symm hd']) (fun _ => rfl) rfl rfl rfl
      rfl (by simp)
  case protocol =>
    refine h.protocol.concat ⟨e, t, ids, _, hids, heq, hno, ?_⟩
    rwa [← h.lists.live]

/-- The listener is called. It was taken from the list if it is to be called once. -/
theorem call (h : Heard v (⟨d, e, t, none, snap :: snaps⟩ :: ds)) {l' : List EventRecord}
    {y : EventListener} (hy : y ∈ liveOf t l') (hid : y.id = snap.id) (hadded : .added t y ∈ v.log)
    (hpassive : y.passive = snap.passive)
    (hlog : v.log = l' ++ if y.once then [.removed t snap.id] else [])
    (hout : y.once = true → snap.id ∉ (v.listeners t).map EventListener.id)
    (honce : y.once = true → ∀ d' e' p, .called d' e' snap.id p ∉ v.log)
    (hevents : v'.events = Function.update v.events e { v.events e with
      inPassiveListener := decide (snap.passive = some true) || (v.events e).inPassiveListener })
    (hevent : v'.nextEvent = v.nextEvent) (hdispatch : v'.nextDispatch = v.nextDispatch)
    (hlistener : v'.nextListener = v.nextListener) (hlisteners : v'.listeners = v.listeners)
    (hlog' : v'.log = v.log ++ [.called d e snap.id (snap.passive = some true)]) :
    Heard v' (⟨d, e, t, some snap, snaps⟩ :: ds) := by
  obtain ⟨ids, hids, heq, hno⟩ := h.next_turn
  have he := (h.turns.lt _ List.mem_cons_self).1
  constructor
  case lists => exact h.lists.quiet hlisteners hlistener hlog' rfl
  case flags => exact h.flags.call he d snap.id _ hevents hevent hlog'
  case turns =>
    refine h.turns_of_turn (r := .called d e snap.id (snap.passive = some true)) (by simp)
      (by simp) (by simp) (by simp) (by simp [turnsOf])
      (fun d' hd' => by simp [turnsOf, Ne.symm hd']) (fun e' => ?_) hevent hdispatch hlisteners
      hlog' ?_
    · rw [hevents]
      by_cases hne : e' = e
      · subst hne
        simp
      · simp [hne]
    · rintro d' e' id p heq'
      cases heq'
      exact ⟨t, y, hadded, hid, hout⟩
  case protocol =>
    rw [hlog']
    refine h.protocol.concat ⟨t, ids, _, y, l', hids, heq, hno, hlog, hy, hid, ?_, honce⟩
    rw [hpassive]

/-- **A turn.** -/
theorem visit (h : Heard v (⟨d, e, t, none, snap :: snaps⟩ :: ds)) :
    Heard (v.visit d e t snap).1
      (⟨d, e, t, if (v.visit d e t snap).2 then some snap else none, snaps⟩ :: ds) := by
  rw [Listening.visit]
  split
  next hin =>
    obtain ⟨x, hx, hxid⟩ := List.any_eq_true.mp hin
    have hxid : x.id = snap.id := by simpa using hxid
    obtain ⟨y, hy, hyid, hpassive, honce⟩ :=
      h.turns.snapshots _ List.mem_cons_self snap List.mem_cons_self
    obtain ⟨-, rfl⟩ := h.lists.eq_of_id hx hy (hxid.trans hyid.symm)
    -- one that is to be called once was not called, since it is in the list
    have hfresh (ho : x.once = true) (d' e' : ℕ) (p : Bool) :
        .called d' e' snap.id p ∉ v.log := by
      intro hmem
      obtain ⟨t', z, hz, hzid, hzout⟩ := h.turns.called d' e' snap.id p hmem
      obtain ⟨rfl, rfl⟩ := h.lists.eq_of_id hx hz (hxid.trans hzid.symm)
      exact hzout ho (hxid ▸ List.mem_map_of_mem hx)
    have hupdate (w : Listening) : (if snap.passive = some true then
        w.modifyEvent e fun e => { e with inPassiveListener := true } else w).events =
        Function.update w.events e { w.events e with
          inPassiveListener := decide (snap.passive = some true) ||
            (w.events e).inPassiveListener } := by
      split_ifs with hp
      · simp [Listening.modifyEvent, hp]
      · funext e'
        by_cases hne : e' = e
        · subst hne
          simp [hp]
        · simp [hne]
    have hrest (w : Listening) : (if snap.passive = some true then
        w.modifyEvent e fun e => { e with inPassiveListener := true } else w).nextEvent =
          w.nextEvent ∧ (if snap.passive = some true then
        w.modifyEvent e fun e => { e with inPassiveListener := true } else w).nextDispatch =
          w.nextDispatch ∧ (if snap.passive = some true then
        w.modifyEvent e fun e => { e with inPassiveListener := true } else w).nextListener =
          w.nextListener ∧ (if snap.passive = some true then
        w.modifyEvent e fun e => { e with inPassiveListener := true } else w).listeners =
          w.listeners ∧ (if snap.passive = some true then
        w.modifyEvent e fun e => { e with inPassiveListener := true } else w).log = w.log := by
      split_ifs <;> exact ⟨rfl, rfl, rfl, rfl, rfl⟩
    have hmem : x ∈ liveOf t v.log := by
      rwa [← h.lists.live]
    cases ho : snap.once with
    | true =>
      have hxo : x.once = true := honce.trans ho
      have hv := h.retain t fun l => l.id ≠ snap.id
      have hlog : (v.retain t fun l => l.id ≠ snap.id).log = v.log ++ [.removed t snap.id] := by
        have hfilter := h.lists.filter_id hx
        rw [hxid] at hfilter
        rw [Listening.retain, hfilter]
        simp [hxid]
      obtain ⟨h₁, h₂, h₃, h₄, h₅⟩ := hrest (v.retain t fun l => l.id ≠ snap.id)
      refine hv.call hmem hxid ?_ hpassive ?_ (fun _ => ?_) (fun _ d' e' p => ?_)
        (hupdate _) h₁ h₂ h₃ h₄ ?_
      · rw [hlog]
        exact List.mem_append_left _ hy
      · rw [hlog, hxo]
        rfl
      · simp [Listening.retain]
      · rw [hlog, List.mem_append, not_or]
        exact ⟨hfresh hxo d' e' p, by simp⟩
      · show _ ++ _ = _
        simp only [if_true]
        rw [h₅]
    | false =>
      have hxo : x.once = false := honce.trans ho
      obtain ⟨h₁, h₂, h₃, h₄, h₅⟩ := hrest v
      refine h.call hmem hxid hy hpassive (by simp [hxo]) (by simp [hxo])
        (by simp [hxo]) (hupdate v) h₁ h₂ h₃ h₄ ?_
      show _ ++ _ = _
      simp only [Bool.false_eq_true, if_false]
      rw [h₅]
  next hout =>
    refine h.skip fun hmem => hout ?_
    obtain ⟨x, hx, heq⟩ := List.mem_map.mp hmem
    exact List.any_eq_true.mpr ⟨x, hx, by simpa using heq⟩

/-- A listener has returned: the dispatch goes on, unless immediate propagation was stopped. -/
theorem return_ {c : ListenerSnapshot} (h : Heard v (⟨d, e, t, some c, snaps⟩ :: ds)) :
    Heard (v.return_ d e) (⟨d, e, t, none,
      if (v.events e).stopImmediatePropagation then [] else snaps⟩ :: ds) := by
  have he := (h.turns.lt _ List.mem_cons_self).1
  have hlog : (v.return_ d e).log = v.log ++ [.returned d e] := rfl
  have hstopped (e' : ℕ) : StoppedNow e' (v.return_ d e).log ↔ StoppedNow e' v.log := by
    rw [hlog, stoppedNow_concat]
    simp
  have hturns : Turns (v.return_ d e) (⟨d, e, t, some c, snaps⟩ :: ds) := by
    refine h.turns.quiet (fun e' => ?_) (le_refl _) rfl hlog (by simp [EventRecord.turnless])
      (fun x _ _ => hstopped x.event) fun _ _ _ hmem => hmem
    by_cases hne : e' = e
    · subst hne
      simp [Listening.return_, Listening.record, Listening.modifyEvent]
    · simp [Listening.return_, Listening.record, Listening.modifyEvent, hne]
  constructor
  case lists => exact h.lists.quiet rfl rfl hlog rfl
  case flags => exact h.flags.return_ he d
  case turns =>
    constructor
    case dispatch => exact hturns.dispatch
    case events => exact hturns.events
    case dispatches => exact hturns.dispatches
    case lt =>
      intro x hx
      rcases List.mem_cons.mp hx with rfl | hx
      · exact hturns.lt ⟨d, e, t, some c, snaps⟩ List.mem_cons_self
      · exact hturns.lt x (List.mem_cons_of_mem _ hx)
    case started => exact hturns.started
    case noTurns => exact hturns.noTurns
    case turns =>
      intro x hx
      rcases List.mem_cons.mp hx with rfl | hx
      -- what the callback did to the flag decides whether the rest of the snapshot is dropped
      · obtain ⟨ids, hids, ⟨heq, -⟩ | ⟨hcurrent, -⟩⟩ := hturns.turns _ List.mem_cons_self
        · refine ⟨ids, hids, ?_⟩
          have hflag := h.flags.stoppedNow e
          cases hs : (v.events e).stopImmediatePropagation with
          | true =>
            rw [hs] at hflag
            exact .inr ⟨rfl, rfl, (hstopped e).mpr (hflag.mp rfl)⟩
          | false =>
            rw [hs] at hflag
            refine .inl ⟨heq, fun _ _ hstop => ?_⟩
            exact Bool.false_ne_true (hflag.mpr ((hstopped e).mp hstop))
        · cases hcurrent
      · exact hturns.turns x (List.mem_cons_of_mem _ hx)
    case snapshots =>
      intro x hx sn hsn
      rcases List.mem_cons.mp hx with rfl | hx
      · refine hturns.snapshots _ List.mem_cons_self sn ?_
        have hsn : sn ∈ if (v.events e).stopImmediatePropagation then [] else snaps := hsn
        split_ifs at hsn
        · cases hsn
        · exact hsn
      · exact hturns.snapshots x (List.mem_cons_of_mem _ hx) sn hsn
    case called => exact hturns.called
  case protocol => exact h.protocol.concat trivial

/-- A dispatch ends. -/
theorem finish (h : Heard v (⟨d, e, t, none, []⟩ :: ds)) : Heard (v.finish d e) ds := by
  have he := (h.turns.lt _ List.mem_cons_self).1
  have hlog : (v.finish d e).log = v.log ++ [.finished d e !(v.events e).canceled] := rfl
  have hevents := h.turns.events
  have hdispatches := h.turns.dispatches
  rw [List.map_cons, List.nodup_cons] at hevents hdispatches
  have hsub {r : EventRecord} (hr : r ∈ v.log) : r ∈ (v.finish d e).log := List.mem_append_left _ hr
  have hsame {r : EventRecord} (hr : r ≠ .finished d e !(v.events e).canceled)
      (hmem : r ∈ (v.finish d e).log) : r ∈ v.log := by
    rw [hlog] at hmem
    exact (List.mem_append.mp hmem).resolve_right (by simpa using hr)
  have hturns (d' : ℕ) : turnsOf d' (v.finish d e).log = turnsOf d' v.log := by
    rw [hlog]
    exact turnsOf_append (by simp [EventRecord.turnless]) _
  constructor
  case lists => exact h.lists.quiet rfl rfl hlog rfl
  case flags => exact h.flags.finish he d
  case turns =>
    constructor
    case dispatch =>
      intro e'
      have hd := h.turns.dispatch e'
      rw [List.map_cons, List.mem_cons] at hd
      -- no other dispatch runs with the event, so its flag is free
      by_cases hne : e' = e
      · subst hne
        simp [Listening.finish, Listening.record, Listening.modifyEvent, Event.stopDispatching]
        intro x hx heq
        have hin : x.event ∈ ds.map Dispatching.event := List.mem_map_of_mem hx
        exact hevents.1 (heq ▸ hin)
      · rw [← or_iff_right (a := e' = e) (b := e' ∈ ds.map Dispatching.event) hne, ← hd]
        simp [Listening.finish, Listening.record, Listening.modifyEvent, hne]
    case events => exact hevents.2
    case dispatches => exact hdispatches.2
    case lt => exact fun x hx => h.turns.lt x (List.mem_cons_of_mem _ hx)
    case started => exact fun d' e' t' ids hmem =>
      h.turns.started d' e' t' ids (hsame (by simp) hmem)
    case noTurns =>
      intro d' hd'
      rw [hturns]
      exact h.turns.noTurns d' hd'
    case turns =>
      intro x hx
      obtain ⟨ids, hids, hrest⟩ := h.turns.turns x (List.mem_cons_of_mem _ hx)
      have hin : x.event ∈ ds.map Dispatching.event := List.mem_map_of_mem hx
      have hne : e ≠ x.event := by
        intro heq
        exact hevents.1 (heq ▸ hin)
      have hstopped : StoppedNow x.event (v.finish d e).log ↔ StoppedNow x.event v.log := by
        rw [hlog, stoppedNow_concat]
        simp [hne]
      refine ⟨ids, hsub hids, ?_⟩
      rw [hturns, hstopped]
      exact hrest
    case snapshots =>
      intro x hx sn hsn
      obtain ⟨y, hy, hrest⟩ := h.turns.snapshots x (List.mem_cons_of_mem _ hx) sn hsn
      exact ⟨y, hsub hy, hrest⟩
    case called =>
      intro d' e' id p hmem
      obtain ⟨t', y, hy, hrest⟩ := h.turns.called d' e' id p (hsame (by simp) hmem)
      exact ⟨t', y, hsub hy, hrest⟩
  case protocol =>
    rw [hlog]
    obtain ⟨ids, hids, hrest⟩ := h.turns.turns _ List.mem_cons_self
    refine h.protocol.concat ⟨t, ids, hids, ?_, ?_⟩
    -- the snapshot was gone through, or the event was stopped
    · rcases hrest with ⟨heq, -⟩ | ⟨-, -, hstop⟩
      · exact .inl (by simpa using heq.symm)
      · exact .inr hstop
    · rw [← h.flags.canceled]
      simp

end Head

/-- **Every step** keeps the invariant. -/
theorem step (h : Heard v ds) (hstep : EventStep v ds v' ds') : Heard v' ds' := by
  cases hstep
  case stay => exact h
  case newEvent type c => exact h.newEvent type c
  case initEvent e type c he => exact h.initEvent he type c
  case preventDefault e he => exact h.preventDefault he
  case stopPropagation e he hcalls => exact h.stopPropagation he
  case stopImmediatePropagation e he hcalls => exact h.stopImmediatePropagation he hcalls
  case append t type callback capture passive once =>
    exact h.append t type callback capture passive once
  case link t type callback capture passive once signal =>
    have hv := h.append t type callback capture passive once
    refine hv.record rfl rfl rfl ?_
    show _ ∈ (liveOf _ _).map _
    rw [← hv.lists.live]
    exact (h.lists.append t type callback capture passive once).2
  case retain t p => exact h.retain t p
  case sever signal t id hmem =>
    exact (h.record (r := .severed signal t id) rfl rfl rfl hmem).retain t _
  case start e t he hdispatch => exact h.start t he hdispatch
  case fire type t =>
    exact (h.newEvent type false).start t (Nat.lt_succ_self _)
      (by simp [Listening.newEvent, Event.new])
  case visit => exact h.visit
  case return_ => exact h.return_
  case finish => exact h.finish

theorem initial : Heard .initial [] := by
  have hevents (e : ℕ) : Listening.initial.events e = .new "" false := rfl
  constructor
  case lists =>
    constructor <;> simp [Listening.initial, liveOf]
  case flags =>
    constructor
    case initialized => simp [Listening.initial]
    all_goals simp [Listening.initial, Event.new, Stopped, StoppedNow, InPassive, Canceled]
  case turns =>
    constructor <;> simp [Listening.initial, Event.new, turnsOf]
  case protocol => exact kept_nil

end Heard

end WebGlobals
