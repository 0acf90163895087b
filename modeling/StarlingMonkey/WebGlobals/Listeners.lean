import StarlingMonkey.WebGlobals.Dispatching
import Mathlib.Data.List.Nodup

/-!
# The listeners and the flags of events

The parts of the invariant that are about the lists of listeners (`Lists`) and about the flags of
events (`Flags`), and what keeps them.
-/

namespace WebGlobals

open Protocol

variable {v v' : Listening} {l : List EventRecord} {r : EventRecord}

/-! ### Lists -/

/-- The lists hold what was added and not removed, under different ids and keys. -/
structure Lists (v : Listening) : Prop where
  live : ∀ t, v.listeners t = liveOf t v.log
  added : ∀ t, ∀ x ∈ v.listeners t, .added t x ∈ v.log
  lt : ∀ t x, .added t x ∈ v.log → x.id < v.nextListener
  unique : ∀ t x t' x', .added t x ∈ v.log → .added t' x' ∈ v.log → x.id = x'.id →
    t = t' ∧ x = x'
  nodup : ∀ t, ((v.listeners t).map EventListener.id).Nodup
  keys : ∀ t, ((v.listeners t).map EventListener.key).Nodup

/-- A record that says nothing about lists. -/
def EventRecord.listless : EventRecord → Bool
  | .added .. | .removed .. => false
  | _ => true

theorem liveOf_listless (t : Target) (h : r.listless = true) :
    liveOf t (l ++ [r]) = liveOf t l := by
  rw [liveOf_concat]
  cases r with
  | added => cases h
  | removed => cases h
  | _ => rfl

namespace Lists

/-- Records about other things. -/
theorem quiet (h : Lists v) (hlisteners : v'.listeners = v.listeners)
    (hnext : v'.nextListener = v.nextListener) (hlog : v'.log = v.log ++ [r])
    (hr : r.listless = true) : Lists v' := by
  have hadded (t : Target) (x : EventListener) : .added t x ∈ v'.log ↔ .added t x ∈ v.log := by
    rw [hlog, List.mem_append, List.mem_singleton]
    refine or_iff_left ?_
    rintro rfl
    cases hr
  constructor
  case live =>
    intro t
    rw [hlisteners, hlog, liveOf_listless t hr]
    exact h.live t
  case added => simpa only [hadded, hlisteners] using h.added
  case lt => simpa only [hadded, hnext] using h.lt
  case unique => simpa only [hadded] using h.unique
  case nodup => simpa only [hlisteners] using h.nodup
  case keys => simpa only [hlisteners] using h.keys

/-- Listeners are kept that satisfy a condition. -/
theorem retain (h : Lists v) (t : Target) (p : EventListener → Bool) : Lists (v.retain t p) := by
  have hadded (t' : Target) (x : EventListener) :
      .added t' x ∈ (v.retain t p).log ↔ .added t' x ∈ v.log := by
    simp [Listening.retain]
  have hself : (v.retain t p).listeners t = (v.listeners t).filter p := by
    simp [Listening.retain]
  have hother (t' : Target) (ht : t' ≠ t) : (v.retain t p).listeners t' = v.listeners t' := by
    simp [Listening.retain, ht]
  have hsub (t' : Target) : ((v.retain t p).listeners t').Sublist (v.listeners t') := by
    by_cases ht : t' = t
    · subst ht
      rw [hself]
      exact List.filter_sublist
    · rw [hother t' ht]
  constructor
  case live =>
    intro t'
    rw [Listening.retain]
    show Function.update v.listeners t _ t' = liveOf t' (v.log ++ _)
    rw [liveOf_removed]
    by_cases ht : t = t'
    · subst ht
      rw [Function.update_self, if_pos rfl, ← h.live]
      refine List.filter_congr fun x hx => ?_
      -- listeners are told apart by their ids
      cases hp : p x with
      | true =>
        rw [eq_comm, decide_eq_true_iff]
        intro hmem
        obtain ⟨y, hy, heq⟩ := List.mem_map.mp hmem
        obtain ⟨hy, hpy⟩ := List.mem_filter.mp hy
        obtain rfl := List.inj_on_of_nodup_map (h.nodup t) hy hx heq
        rw [hp] at hpy
        cases hpy
      | false =>
        rw [eq_comm, decide_eq_false_iff_not, not_not]
        exact List.mem_map_of_mem (List.mem_filter.mpr ⟨hx, by simp [hp]⟩)
    · rw [Function.update_of_ne (Ne.symm ht), if_neg ht]
      exact h.live t'
  case added =>
    intro t' x hx
    rw [hadded]
    exact h.added t' x ((hsub t').subset hx)
  case lt => exact fun t' x hx => h.lt t' x ((hadded t' x).mp hx)
  case unique => simpa only [hadded] using h.unique
  case nodup => exact fun t' => (h.nodup t').sublist ((hsub t').map _)
  case keys => exact fun t' => (h.keys t').sublist ((hsub t').map _)

/-- A listener is appended, unless the list has one like it; either way, it is in the list. -/
theorem append (h : Lists v) (t : Target) (type : String) (callback : ℕ) (capture : Bool)
    (passive : Option Bool) (once : Bool) :
    Lists (v.append t type callback capture passive once).1 ∧
    (v.append t type callback capture passive once).2 ∈
      ((v.append t type callback capture passive once).1.listeners t).map EventListener.id := by
  rw [Listening.append]
  split
  -- a listener with the same type, callback and capture is there already
  next x hx => exact ⟨h, List.mem_map_of_mem (List.mem_of_find?_eq_some hx)⟩
  next hnone =>
    set x : EventListener := ⟨v.nextListener, type, callback, capture, passive, once⟩ with hx
    have hkey : ∀ y ∈ v.listeners t, y.key ≠ x.key := by
      intro y hy heq
      have hno := List.find?_eq_none.mp hnone y hy
      simp only [EventListener.key, hx, Prod.mk.injEq] at heq
      simp [heq.1, heq.2.1, heq.2.2] at hno
    -- its id is above every id given before
    have hfresh (t' : Target) (y : EventListener) (hy : .added t' y ∈ v.log) : y.id ≠ x.id :=
      Nat.ne_of_lt (h.lt t' y hy)
    have hmem (t' : Target) (y : EventListener) : .added t' y ∈ v.log ++ [.added t x] ↔
        .added t' y ∈ v.log ∨ (t' = t ∧ y = x) := by
      simp
    refine ⟨?_, by simp [hx]⟩
    constructor
    case live =>
      intro t'
      show Function.update v.listeners t _ t' = liveOf t' (v.log ++ _)
      rw [liveOf_concat, liveStep]
      by_cases ht : t = t'
      · subst ht
        rw [Function.update_self, if_pos rfl, h.live]
      · rw [Function.update_of_ne (Ne.symm ht), if_neg ht]
        exact h.live t'
    case added =>
      intro t' y hy
      rw [hmem]
      by_cases ht : t' = t
      · subst ht
        simp only [Function.update_self, List.mem_append, List.mem_singleton] at hy
        exact hy.imp (h.added t' y) fun hy => ⟨rfl, hy⟩
      · simp only [Function.update_of_ne ht] at hy
        exact .inl (h.added t' y hy)
    case lt =>
      intro t' y hy
      rcases (hmem t' y).mp hy with hy | ⟨-, rfl⟩
      · exact Nat.lt_succ_of_lt (h.lt t' y hy)
      · exact Nat.lt_succ_self _
    case unique =>
      intro t₁ y₁ t₂ y₂ h₁ h₂ heq
      rcases (hmem t₁ y₁).mp h₁ with h₁ | ⟨ht₁, hy₁⟩
      · rcases (hmem t₂ y₂).mp h₂ with h₂ | ⟨-, hy₂⟩
        · exact h.unique t₁ y₁ t₂ y₂ h₁ h₂ heq
        · rw [hy₂] at heq
          exact absurd heq (hfresh t₁ y₁ h₁)
      · rcases (hmem t₂ y₂).mp h₂ with h₂ | ⟨ht₂, hy₂⟩
        · rw [hy₁] at heq
          exact absurd heq.symm (hfresh t₂ y₂ h₂)
        · exact ⟨ht₁.trans ht₂.symm, hy₁.trans hy₂.symm⟩
    case nodup =>
      intro t'
      by_cases ht : t' = t
      · subst ht
        simp only [Function.update_self, List.map_append, List.map_cons, List.map_nil]
        refine List.nodup_append.mpr ⟨h.nodup t', List.nodup_singleton _, ?_⟩
        rintro a ha b hb rfl
        obtain ⟨y, hy, rfl⟩ := List.mem_map.mp ha
        exact hfresh t' y (h.added t' y hy) (List.mem_singleton.mp hb)
      · simp only [Function.update_of_ne ht]
        exact h.nodup t'
    case keys =>
      intro t'
      by_cases ht : t' = t
      · subst ht
        simp only [Function.update_self, List.map_append, List.map_cons, List.map_nil]
        refine List.nodup_append.mpr ⟨h.keys t', List.nodup_singleton _, ?_⟩
        rintro a ha b hb rfl
        obtain ⟨y, hy, rfl⟩ := List.mem_map.mp ha
        exact hkey y hy (List.mem_singleton.mp hb)
      · simp only [Function.update_of_ne ht]
        exact h.keys t'

end Lists

/-! ### Flags -/

/-- The last initialization is one. -/
theorem initialized_unique {e : ℕ} {type type' : String} {c c' : Bool}
    (h : Initialized e type c l) (h' : Initialized e type' c' l) : type = type' ∧ c = c' := by
  induction l using List.reverseRecOn with
  | nil => exact absurd h since_nil
  | append_singleton l r ih =>
    rw [initialized_concat] at h h'
    rcases h with rfl | ⟨h, hno⟩
    · rcases h' with heq | ⟨-, hno⟩
      · cases heq
        exact ⟨rfl, rfl⟩
      · exact absurd ⟨type, c, rfl⟩ hno
    · rcases h' with rfl | ⟨h', -⟩
      · exact absurd ⟨type', c', rfl⟩ hno
      · exact ih h h'

/-- The flags of events say what the log says. -/
structure Flags (v : Listening) : Prop where
  initialized : ∀ e, e < v.nextEvent →
    Initialized e (v.events e).eventType (v.events e).cancelable v.log
  stopped : ∀ e, (v.events e).stopPropagation = true ↔ Stopped e v.log
  stoppedNow : ∀ e, (v.events e).stopImmediatePropagation = true ↔ StoppedNow e v.log
  inPassive : ∀ e, (v.events e).inPassiveListener = true ↔ InPassive e v.log
  canceled : ∀ e, (v.events e).canceled = true ↔ Canceled e v.log
  unborn : ∀ e, v.nextEvent ≤ e → (v.events e).inPassiveListener = false

namespace Flags

/-- Records about other things. -/
theorem quiet (h : Flags v) (hnext : v'.nextEvent = v.nextEvent) (hlog : v'.log = v.log ++ l)
    (hl : ∀ r ∈ l, r.quiet = true)
    (hevents : ∀ e, (v'.events e).eventType = (v.events e).eventType ∧
      (v'.events e).cancelable = (v.events e).cancelable ∧
      (v'.events e).stopPropagation = (v.events e).stopPropagation ∧
      (v'.events e).stopImmediatePropagation = (v.events e).stopImmediatePropagation ∧
      (v'.events e).inPassiveListener = (v.events e).inPassiveListener ∧
      (v'.events e).canceled = (v.events e).canceled) : Flags v' := by
  constructor
  case initialized =>
    intro e he
    obtain ⟨htype, hc, -⟩ := hevents e
    rw [htype, hc, hlog, initialized_append hl]
    exact h.initialized e (hnext ▸ he)
  case stopped =>
    intro e
    rw [(hevents e).2.2.1, hlog, stopped_append hl]
    exact h.stopped e
  case stoppedNow =>
    intro e
    rw [(hevents e).2.2.2.1, hlog, stoppedNow_append hl]
    exact h.stoppedNow e
  case inPassive =>
    intro e
    rw [(hevents e).2.2.2.2.1, hlog, inPassive_append hl]
    exact h.inPassive e
  case canceled =>
    intro e
    rw [(hevents e).2.2.2.2.2, hlog, canceled_append hl]
    exact h.canceled e
  case unborn =>
    intro e he
    rw [(hevents e).2.2.2.2.1]
    exact h.unborn e (hnext ▸ he)

/-- An event that can be canceled was initialized as such. -/
theorem cancelable_iff (h : Flags v) {e : ℕ} (he : e < v.nextEvent) :
    (v.events e).cancelable = true ↔ ∃ type, Initialized e type true v.log := by
  constructor
  · intro hc
    have hi := h.initialized e he
    rw [hc] at hi
    exact ⟨_, hi⟩
  · rintro ⟨type, hi⟩
    exact (initialized_unique (h.initialized e he) hi).2

/-- One event is changed, and one thing is recorded that is about it. -/
theorem of_record (h : Flags v) {e : ℕ} {x : Event} (hnext : v.nextEvent ≤ v'.nextEvent)
    (hbound : ∀ e', e' < v'.nextEvent → e' = e ∨ e' < v.nextEvent) (he : e < v'.nextEvent)
    (hevents : v'.events = Function.update v.events e x) (hlog : v'.log = v.log ++ [r])
    (hinitialized : ∀ e', e' ≠ e → ∀ type c, r ≠ .initialized e' type c)
    (hstopped : ∀ e', e' ≠ e → ∀ i, r ≠ .stopped e' i)
    (hprevented : ∀ e', e' ≠ e → r ≠ .prevented e')
    (hcalled : ∀ e', e' ≠ e → ∀ d id p, r ≠ .called d e' id p)
    (hreturned : ∀ e', e' ≠ e → ∀ d, r ≠ .returned d e')
    (hfinished : ∀ e', e' ≠ e → ∀ d result, r ≠ .finished d e' result)
    (hself : Initialized e x.eventType x.cancelable (v.log ++ [r]) ∧
      (x.stopPropagation = true ↔ Stopped e (v.log ++ [r])) ∧
      (x.stopImmediatePropagation = true ↔ StoppedNow e (v.log ++ [r])) ∧
      (x.inPassiveListener = true ↔ InPassive e (v.log ++ [r])) ∧
      (x.canceled = true ↔ Canceled e (v.log ++ [r]))) : Flags v' := by
  have hother (e' : ℕ) (hne : e' ≠ e) : v'.events e' = v.events e' := by
    rw [hevents, Function.update_of_ne hne]
  have hthis : v'.events e = x := by
    rw [hevents, Function.update_self]
  obtain ⟨hi, hs, hn, hp, hc⟩ := hself
  constructor
  -- for each flag: the record decides it for its own event and says nothing of the others
  case initialized =>
    intro e' he'
    rw [hlog]
    by_cases hne : e' = e
    · subst hne
      rw [hthis]
      exact hi
    · rw [hother e' hne, initialized_concat]
      refine .inr ⟨h.initialized e' ((hbound e' he').resolve_left hne), ?_⟩
      rintro ⟨type, c, heq⟩
      exact hinitialized e' hne type c heq
  case stopped =>
    intro e'
    rw [hlog]
    by_cases hne : e' = e
    · subst hne
      rw [hthis]
      exact hs
    · rw [hother e' hne, stopped_concat, h.stopped e']
      have h₁ := hstopped e' hne
      have h₂ := hinitialized e' hne
      have h₃ := hfinished e' hne
      simp [h₁, h₂, h₃]
  case stoppedNow =>
    intro e'
    rw [hlog]
    by_cases hne : e' = e
    · subst hne
      rw [hthis]
      exact hn
    · rw [hother e' hne, stoppedNow_concat, h.stoppedNow e']
      have h₁ := hstopped e' hne
      have h₂ := hinitialized e' hne
      have h₃ := hfinished e' hne
      simp [h₁, h₂, h₃]
  case inPassive =>
    intro e'
    rw [hlog]
    by_cases hne : e' = e
    · subst hne
      rw [hthis]
      exact hp
    · rw [hother e' hne, inPassive_concat, h.inPassive e']
      have h₁ := hcalled e' hne
      have h₂ := hreturned e' hne
      simp [h₁, h₂]
  case canceled =>
    intro e'
    rw [hlog]
    by_cases hne : e' = e
    · subst hne
      rw [hthis]
      exact hc
    · rw [hother e' hne, canceled_concat, h.canceled e']
      have h₁ := hprevented e' hne
      have h₂ := hinitialized e' hne
      simp [h₁, h₂]
  case unborn =>
    intro e' he'
    have hne : e' ≠ e := by omega
    rw [hother e' hne]
    exact h.unborn e' (hnext.trans he')

/-- A new event. -/
theorem newEvent (h : Flags v) (type : String) (c : Bool) : Flags (v.newEvent type c) := by
  have hpassive : ¬ InPassive v.nextEvent v.log := by
    rw [← h.inPassive, h.unborn _ (le_refl _)]
    exact Bool.false_ne_true
  refine h.of_record (e := v.nextEvent) (r := .initialized v.nextEvent type c) (Nat.le_succ _)
    (fun e' he' => ?_) (Nat.lt_succ_self _) rfl rfl ?_ ?_ ?_ ?_ ?_ ?_ ?_
  · have hlt : e' < v.nextEvent + 1 := he'
    omega
  · rintro e' hne type' c' heq
    cases heq
    exact hne rfl
  · simp
  · simp
  · simp
  · simp
  · simp
  · simp [initialized_concat, stopped_concat, stoppedNow_concat, inPassive_concat,
      canceled_concat, Event.new, hpassive]

/-- `init_event`. -/
theorem initEvent (h : Flags v) {e : ℕ} (he : e < v.nextEvent) (type : String) (c : Bool) :
    Flags (v.initEvent e type c) := by
  rw [Listening.initEvent]
  split_ifs
  · exact h
  · have hpassive := h.inPassive e
    refine h.of_record (e := e) (r := .initialized e type c) (le_refl _)
      (fun e' he' => .inr he') he rfl rfl ?_ ?_ ?_ ?_ ?_ ?_ ?_
    · rintro e' hne type' c' heq
      cases heq
      exact hne rfl
    · simp
    · simp
    · simp
    · simp
    · simp
    · simp [initialized_concat, stopped_concat, stoppedNow_concat, inPassive_concat,
        canceled_concat, Event.reinit, hpassive]

/-- `prevent_default`. -/
theorem preventDefault (h : Flags v) {e : ℕ} (he : e < v.nextEvent) :
    Flags ((v.preventDefault e).record (.prevented e)) := by
  have hi := h.initialized e he
  have hs := h.stopped e
  have hn := h.stoppedNow e
  have hp := h.inPassive e
  have hc := h.canceled e
  have hcancelable := h.cancelable_iff he
  refine h.of_record (e := e) (r := .prevented e) (le_refl _) (fun e' he' => .inr he') he rfl rfl
    ?_ ?_ ?_ ?_ ?_ ?_ ?_
  · simp
  · simp
  · rintro e' hne heq
    cases heq
    exact hne rfl
  · simp
  · simp
  · simp
  · simp only [initialized_concat, stopped_concat, stoppedNow_concat, inPassive_concat,
      canceled_concat, ← hs, ← hn, ← hp, ← hc, ← hcancelable, Event.cancel]
    split_ifs with hcan
    · simp_all
    · cases hcb : (v.events e).cancelable <;> cases hpb : (v.events e).inPassiveListener <;>
        simp_all

/-- `stop_propagation` and `stop_immediate_propagation`. -/
theorem stop (h : Flags v) {e : ℕ} (he : e < v.nextEvent) (now : Bool)
    (hevents : v'.events = Function.update v.events e { v.events e with
      stopPropagation := true
      stopImmediatePropagation := now || (v.events e).stopImmediatePropagation })
    (hnext : v'.nextEvent = v.nextEvent) (hlog : v'.log = v.log ++ [.stopped e now]) :
    Flags v' := by
  have hi := h.initialized e he
  have hs := h.stopped e
  have hn := h.stoppedNow e
  have hp := h.inPassive e
  have hc := h.canceled e
  refine h.of_record (e := e) (r := .stopped e now) (le_of_eq hnext.symm)
    (fun e' he' => .inr (hnext ▸ he')) (hnext ▸ he) hevents hlog ?_ ?_ ?_ ?_ ?_ ?_ ?_
  · simp
  · rintro e' hne i heq
    cases heq
    exact hne rfl
  · simp
  · simp
  · simp
  · simp
  · simp only [initialized_concat, stopped_concat, stoppedNow_concat, inPassive_concat,
      canceled_concat, ← hs, ← hn, ← hp, ← hc]
    cases now <;> simp [hi]

/-- A listener is called. -/
theorem call (h : Flags v) {e : ℕ} (he : e < v.nextEvent) (d id : ℕ) (passive : Bool)
    (hevents : v'.events = Function.update v.events e { v.events e with
      inPassiveListener := passive || (v.events e).inPassiveListener })
    (hnext : v'.nextEvent = v.nextEvent) (hlog : v'.log = v.log ++ [.called d e id passive]) :
    Flags v' := by
  have hi := h.initialized e he
  have hs := h.stopped e
  have hn := h.stoppedNow e
  have hp := h.inPassive e
  have hc := h.canceled e
  refine h.of_record (e := e) (r := .called d e id passive) (le_of_eq hnext.symm)
    (fun e' he' => .inr (hnext ▸ he')) (hnext ▸ he) hevents hlog ?_ ?_ ?_ ?_ ?_ ?_ ?_
  · simp
  · simp
  · simp
  · rintro e' hne d' id' p heq
    cases heq
    exact hne rfl
  · simp
  · simp
  · simp only [initialized_concat, stopped_concat, stoppedNow_concat, inPassive_concat,
      canceled_concat, ← hs, ← hn, ← hp, ← hc]
    cases passive <;> simp [hi]

/-- A listener has returned. -/
theorem return_ (h : Flags v) {e : ℕ} (he : e < v.nextEvent) (d : ℕ) : Flags (v.return_ d e) := by
  have hi := h.initialized e he
  have hs := h.stopped e
  have hn := h.stoppedNow e
  have hc := h.canceled e
  refine h.of_record (e := e) (r := .returned d e) (le_refl _) (fun e' he' => .inr he') he rfl rfl
    ?_ ?_ ?_ ?_ ?_ ?_ ?_
  · simp
  · simp
  · simp
  · simp
  · rintro e' hne d' heq
    cases heq
    exact hne rfl
  · simp
  · simp only [initialized_concat, stopped_concat, stoppedNow_concat, inPassive_concat,
      canceled_concat, ← hs, ← hn, ← hc]
    simp [hi]

/-- A dispatch ends. -/
theorem finish (h : Flags v) {e : ℕ} (he : e < v.nextEvent) (d : ℕ) : Flags (v.finish d e) := by
  have hi := h.initialized e he
  have hp := h.inPassive e
  have hc := h.canceled e
  refine h.of_record (e := e) (r := .finished d e !(v.events e).canceled) (le_refl _)
    (fun e' he' => .inr he') he rfl rfl ?_ ?_ ?_ ?_ ?_ ?_ ?_
  · simp
  · simp
  · simp
  · simp
  · simp
  · rintro e' hne d' result heq
    cases heq
    exact hne rfl
  · simp only [initialized_concat, stopped_concat, stoppedNow_concat, inPassive_concat,
      canceled_concat, ← hp, ← hc, Event.stopDispatching]
    simp [hi]

end Flags

end WebGlobals
