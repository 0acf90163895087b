import StarlingMonkey.FetchEvents.Accounting

/-!
# Runs of a fetch event

Every step keeps the invariant, and no assertion fails but that on the interest count:
`step_accounted`. What follows of every run is `lifetime_kept`.
-/

namespace FetchEvents

open Protocol

namespace Lifetime

variable {s t : Lifetime} {k : Ticket} {loop : ℕ}

/-- The one assertion that may fail. -/
abbrev Overflow (p : LifetimeAbort) : Prop := p = .interestOverflow

/-! ### Accepting a promise -/

/-- An event that may be extended is trusted and active. -/
theorem checkCanExtendLifetime_sat (caller : String) :
    (s.checkCanExtendLifetime caller).Sat
      (fun _ => s.event.trusted = true ∧ s.event.isActive = true) (· = s) Overflow := by
  rw [checkCanExtendLifetime]
  cases htrusted : s.event.trusted <;> cases hactive : s.event.isActive <;> simp

theorem acquireHandle_sat (loop : ℕ) : (s.acquireHandle loop).Sat
    (fun t => t = { s with interest := Function.update s.interest loop (s.interest loop + 1) })
    (fun _ => False) Overflow := by
  rw [acquireHandle, Outcome.sat_bind, Outcome.sat_guard]
  exact ⟨fun _ => rfl, fun _ => rfl⟩

/-- A promise that was not accepted yet may be, while the event may be extended. -/
theorem Accounted.accepted_allowed (h : Accounted s) (hborn : ¬ s.Born k)
    (htrusted : s.event.trusted = true) (hloop : s.active.head? = some loop)
    (hactive : s.event.dispatch = true ∨ (k ≠ .respondWith ∧ s.event.isActive = true)) :
    LifetimeAllowed s.log (.accepted k loop) := by
  refine ⟨?_, h.dispatched.trusted.mp htrusted,
    fun loop' hmem => hborn (h.ticketed.accepted k loop' hmem), ?_⟩
  · rw [← h.dispatched.active, hloop]
  · rw [← h.dispatched.dispatching]
    rcases hactive with hd | ⟨hk, hactive⟩
    · exact .inl hd
    · rw [FetchEvent.isActive, Bool.or_eq_true, decide_eq_true_eq, h.counted.count] at hactive
      exact hactive.symm.imp_right fun hpos => ⟨hk, List.ne_nil_of_length_pos hpos⟩

/-- A promise is accepted. -/
theorem Ticketed.accept (h : Ticketed s) (hborn : ¬ s.Born k) (hself : t.waiting k = true)
    (hheld : t.handle k = some loop) (hnew : t.Born k)
    (hother : ∀ k', k' ≠ k → t.handle k' = s.handle k' ∧ t.waiting k' = s.waiting k')
    (hgrow : ∀ k', s.Born k' → t.Born k') (hlog : t.log = s.log ++ [.accepted k loop]) :
    Ticketed t := by
  constructor
  case idle =>
    intro k' hk'
    by_cases heq : k' = k
    · subst heq
      rw [hself] at hk'
      cases hk'
    · rw [(hother k' heq).1]
      exact h.idle k' ((hother k' heq).2 ▸ hk')
  case unborn =>
    intro k' hk'
    have heq : k' ≠ k := by
      rintro rfl
      exact hk' hnew
    rw [(hother k' heq).2]
    exact h.unborn k' fun hb => hk' (hgrow k' hb)
  case accepted =>
    intro k' loop' hmem
    rw [hlog] at hmem
    rcases List.mem_append.mp hmem with hmem | hmem
    · exact hgrow k' (h.accepted k' loop' hmem)
    · cases List.mem_singleton.mp hmem
      exact hnew
  case spent =>
    intro k' hmem
    have hold : .reacted k' ∈ s.log ∨ .collected k' ∈ s.log := by
      simpa [hlog] using hmem
    obtain ⟨hk', hb⟩ := h.spent k' hold
    have heq : k' ≠ k := by
      rintro rfl
      exact hborn hb
    exact ⟨(hother k' heq).1.trans hk', hgrow k' hb⟩
  case awaited =>
    intro loop' hloop'
    rw [hlog]
    by_cases heq : .respondWith = k
    · subst heq
      obtain rfl : loop = loop' := Option.some.inj (hheld.symm.trans hloop')
      exact since_concat.mpr (.inl rfl)
    · rw [(hother _ heq).1] at hloop'
      exact (h.awaited loop' hloop').append (by simp)

/-- `waitUntil`. -/
theorem Accounted.addLifetimePromise (h : Accounted s) (promise : ℕ) (caller : String) :
    (s.addLifetimePromise promise caller).Sat Accounted Accounted Overflow := by
  rw [Lifetime.addLifetimePromise, Outcome.sat_bind]
  refine (checkCanExtendLifetime_sat caller).mono ?_ (fun _ heq => heq ▸ h) fun _ hp => hp
  rintro - ⟨htrusted, hactive⟩
  cases hloop : s.active.head? with
  | none => exact h
  | some loop =>
    refine Outcome.sat_bind.mpr ((acquireHandle_sat loop).mono ?_ (fun _ => False.elim)
      fun _ hp => hp)
    rintro _ rfl
    have hborn : ¬ s.Born (.waitUntil s.nextPayload) := Nat.lt_irrefl _
    have hwaiting := h.ticketed.unborn _ hborn
    have hnone := h.ticketed.idle _ hwaiting
    set t : Lifetime := noteLifetimePromisePending (record { s with
      interest := Function.update s.interest loop (s.interest loop + 1)
      payloads := Function.update s.payloads s.nextPayload ⟨promise, some loop, true⟩
      nextPayload := s.nextPayload + 1 } (.accepted (.waitUntil s.nextPayload) loop)) with ht
    have hother (k : Ticket) (hk : k ≠ .waitUntil s.nextPayload) :
        t.handle k = s.handle k ∧ t.waiting k = s.waiting k := by
      cases k with
      | waitUntil i =>
        have hi : i ≠ s.nextPayload := fun heq => hk (heq ▸ rfl)
        simp [ht, handle, waiting, noteLifetimePromisePending, record, hi]
      | respondWith => exact ⟨rfl, rfl⟩
    have hself : t.handle (.waitUntil s.nextPayload) = some loop ∧
        t.waiting (.waitUntil s.nextPayload) = true := by
      simp [ht, handle, waiting, noteLifetimePromisePending, record]
    have hgrow (k : Ticket) (hk : s.Born k) : t.Born k := by
      cases k with
      | waitUntil i => exact Nat.lt_succ_of_lt hk
      | respondWith => exact hk
    show Accounted t
    constructor
    case balanced =>
      exact h.balanced.accept hnone hself.1 (fun k hk => (hother k hk).1) rfl rfl rfl
    case counted =>
      exact h.counted.accept hwaiting hself.2 (fun k hk => (hother k hk).2) rfl rfl
    case ticketed =>
      exact h.ticketed.accept hborn hself.2 hself.1 (Nat.lt_succ_self _) hother hgrow rfl
    case dispatched =>
      exact h.dispatched.quiet rfl rfl rfl rfl rfl (by simp [LifetimeRecord.promised])
    case answered => exact h.answered.quiet rfl rfl rfl rfl rfl rfl (by simp)
    case protocol =>
      exact h.protocol.concat (h.accepted_allowed hborn htrusted hloop (.inr ⟨by simp, hactive⟩))

/-- `respondWith`: a loop is active, as the event is trusted and dispatched. -/
theorem Accounted.respondWith (h : Accounted s) (hcollected : s.collected = false) (promise : ℕ) :
    (s.respondWith promise).Sat Accounted Accounted Overflow := by
  rw [Lifetime.respondWith]
  split_ifs with hdispatch hentered
  · exact h
  · exact h
  rw [Bool.not_eq_true, Bool.not_eq_false'] at hdispatch
  rw [Bool.not_eq_true] at hentered
  refine Outcome.sat_bind.mpr ((checkCanExtendLifetime_sat _).mono ?_ (fun _ heq => heq ▸ h)
    fun _ hp => hp)
  rintro - ⟨htrusted, -⟩
  -- a dispatch runs inside a loop, whose interest the event takes
  have hfloor := (h.dispatched.floor htrusted hdispatch).trans_le h.dispatched.floor_le
  obtain ⟨loop, loops, hactive⟩ := List.exists_cons_of_ne_nil (List.ne_nil_of_length_pos hfloor)
  have hloop : s.active.head? = some loop := by rw [hactive]; rfl
  rw [hloop]
  refine Outcome.sat_bind.mpr (Outcome.sat_bind.mpr ((acquireHandle_sat loop).mono ?_
    (fun _ => False.elim) fun _ hp => hp))
  rintro _ rfl
  -- respondWith was not called before, so there is no handle to drop
  have hborn : ¬ s.Born .respondWith := by simp [Born, hentered, hcollected]
  have hwaiting := h.ticketed.unborn _ hborn
  have hnone : s.event.respondInterest = none := h.ticketed.idle _ hwaiting
  show Outcome.Sat (dropHandle _ .respondWith s.event.respondInterest >>= _) _ _ _
  rw [hnone]
  have hreaction : s.respondReaction.isSome = false := hwaiting
  set t : Lifetime := { s with
    respondReaction := some promise
    interest := Function.update s.interest loop (s.interest loop + 1)
    event := { s.event with
      pendingPromisesCount := s.event.pendingPromisesCount + 1
      respondInterest := some loop
      stopPropagation := true
      stopImmediatePropagation := true
      respondWithEntered := true
      waitToRespond := true }
    log := s.log ++ [.accepted .respondWith loop] } with ht
  show Accounted t
  have hother (k : Ticket) (hk : k ≠ .respondWith) :
      t.handle k = s.handle k ∧ t.waiting k = s.waiting k := by
    cases k with
    | waitUntil i => exact ⟨rfl, rfl⟩
    | respondWith => exact absurd rfl hk
  have hgrow (k : Ticket) (hk : s.Born k) : t.Born k := by
    cases k with
    | waitUntil i => exact hk
    | respondWith => exact .inl rfl
  -- nothing can have been delivered yet
  have hno (response : ℕ) (headers : List (String × String)) :
      .responded response headers ∉ s.log := by
    intro hmem
    have hyes := (h.answered.responded response headers hmem).1
    rw [hentered] at hyes
    cases hyes
  have hold (response : ℕ) (headers : List (String × String)) :
      .responded response headers ∉ t.log := by
    intro hmem
    exact hno response headers ((List.mem_append.mp hmem).resolve_right (by simp))
  constructor
  case balanced =>
    exact h.balanced.accept (k := .respondWith) hnone rfl (fun k hk => (hother k hk).1) rfl rfl rfl
  case counted => exact h.counted.accept hwaiting rfl (fun k hk => (hother k hk).2) rfl rfl
  case ticketed => exact h.ticketed.accept hborn rfl rfl (.inl rfl) hother hgrow rfl
  case dispatched =>
    exact h.dispatched.quiet rfl rfl rfl rfl rfl (by simp [LifetimeRecord.promised])
  case answered =>
    constructor
    case wait => rfl
    case entered => exact fun _ => rfl
    case response =>
      intro response
      rw [show t.event.potentialResponse = s.event.potentialResponse from rfl, h.answered.response]
      simp [hno, hold]
    case headers => exact fun response headers hmem => absurd hmem (hold response headers)
    case responded => exact fun response headers hmem => absurd hmem (hold response headers)
  case protocol =>
    exact h.protocol.concat (h.accepted_allowed hborn htrusted hloop (.inl hdispatch))

/-! ### Reactions and releases -/

/-- Once the reaction of a promise has run, or its payload was collected, no handle is left. -/
theorem Ticketed.spend (h : Ticketed s) (hself : t.handle k = none)
    (hother : ∀ k', k' ≠ k → t.handle k' = s.handle k')
    (hwaiting : ∀ k', t.waiting k' = true → s.waiting k' = true)
    (hkept : ∀ k', k' ≠ k → t.waiting k' = s.waiting k')
    (hborn : t.Born k) (hgrow : ∀ k', s.Born k' → t.Born k') {l : List LifetimeRecord}
    (hlog : t.log = s.log ++ l) (haccepted : ∀ k' loop', .accepted k' loop' ∉ l)
    (habandoned : .abandoned ∉ l)
    (hspent : ∀ k', .reacted k' ∈ l ∨ .collected k' ∈ l → k' = k) : Ticketed t := by
  constructor
  case idle =>
    intro k' hk'
    by_cases heq : k' = k
    · subst heq
      exact hself
    · rw [hother k' heq]
      exact h.idle k' (hkept k' heq ▸ hk')
  case unborn =>
    intro k' hk'
    have hno := h.unborn k' fun hb => hk' (hgrow k' hb)
    rw [← Bool.not_eq_true] at hno ⊢
    exact fun hyes => hno (hwaiting k' hyes)
  case accepted =>
    intro k' loop' hmem
    rw [hlog] at hmem
    exact hgrow k' (h.accepted k' loop' ((List.mem_append.mp hmem).resolve_right
      (haccepted k' loop')))
  case spent =>
    intro k' hmem
    by_cases heq : k' = k
    · subst heq
      exact ⟨hself, hborn⟩
    · have hold : .reacted k' ∈ s.log ∨ .collected k' ∈ s.log := by
        rw [hlog, List.mem_append, List.mem_append] at hmem
        have hnot := fun hl => heq (hspent k' hl)
        tauto
      obtain ⟨hk', hb⟩ := h.spent k' hold
      exact ⟨(hother k' heq).trans hk', hgrow k' hb⟩
  case awaited =>
    intro loop' hloop'
    have heq : .respondWith ≠ k := by
      rintro rfl
      rw [hself] at hloop'
      cases hloop'
    rw [hother _ heq] at hloop'
    rw [hlog]
    refine (h.awaited loop' hloop').append ?_
    rintro r hr rfl
    exact habandoned hr

section Dropped

variable {handle : Option ℕ} {l : List LifetimeRecord}

theorem Counted.dropped (h : Counted t) : Counted (t.dropped k handle) := by
  refine h.quiet (fun _ => dropped_waiting _) (by rw [dropped_event]) dropped_log fun r hr => ?_
  obtain ⟨loop, -, rfl⟩ := List.mem_map.mp hr
  rfl

theorem Ticketed.dropped (h : Ticketed t) : Ticketed (t.dropped k handle) := by
  refine h.quiet (fun _ => dropped_handle _) (fun _ => dropped_waiting _) (fun _ => dropped_born _)
    dropped_log fun r hr => ?_
  obtain ⟨loop, -, rfl⟩ := List.mem_map.mp hr
  rfl

theorem Dispatched.dropped (h : Dispatched t) : Dispatched (t.dropped k handle) := by
  refine h.quiet dropped_active (by rw [dropped_event]) (by rw [dropped_event]) dropped_floor
    dropped_log fun r hr => ?_
  obtain ⟨loop, -, rfl⟩ := List.mem_map.mp hr
  rfl

theorem Answered.dropped (h : Answered t) : Answered (t.dropped k handle) :=
  h.quiet (by rw [dropped_event]) dropped_respondReaction (by rw [dropped_event])
    (by rw [dropped_event]) (by rw [dropped_event]) dropped_log (by simp)

/-- **A step that drops a handle** at its end. -/
theorem Accounted.drop (h : Balanced s) (hself : t.handle k = none)
    (hother : ∀ k', k' ≠ k → t.handle k' = s.handle k') (hothers : t.others = s.others)
    (hinterest : t.interest = s.interest) (hlog : t.log = s.log ++ l)
    (hl : ∀ r ∈ l, r.unheld = true)
    (hwhy : .reacted k ∈ l ∨ .collected k ∈ l ∨ (k = .respondWith ∧ .abandoned ∈ l))
    (hcounted : Counted t) (hticketed : Ticketed t) (hdispatched : Dispatched t)
    (hanswered : Answered t) (hkept : Kept LifetimeAllowed t.log) :
    Accounted (t.dropped k (s.handle k)) where
  balanced := h.drop hself hother hothers hinterest hlog hl
  counted := hcounted.dropped
  ticketed := hticketed.dropped
  dispatched := hdispatched.dropped
  answered := hanswered.dropped
  protocol := kept_drop hkept h hlog hl hwhy

end Dropped

theorem noteLifetimePromiseSettled_eq (h : 0 < s.event.pendingPromisesCount) :
    s.noteLifetimePromiseSettled = .ok { s with
      event.pendingPromisesCount := s.event.pendingPromisesCount - 1 } := by
  rw [noteLifetimePromiseSettled, Outcome.guard, if_pos (decide_eq_true h)]
  rfl

/-- The payload of a promise of `waitUntil` loses its handle. -/
theorem payload_handle {i : ℕ} {waits : Bool} (ht : t.payloads = Function.update s.payloads i
      { s.payloads i with handle := none, waiting := waits })
    (hevent : t.event.respondInterest = s.event.respondInterest)
    (hreaction : t.respondReaction = s.respondReaction) :
    t.handle (.waitUntil i) = none ∧ t.waiting (.waitUntil i) = waits ∧
    ∀ k, k ≠ .waitUntil i → t.handle k = s.handle k ∧ t.waiting k = s.waiting k := by
  refine ⟨by simp [handle, ht], by simp [waiting, ht], fun k hk => ?_⟩
  cases k with
  | waitUntil j =>
    have hj : j ≠ i := fun heq => hk (heq ▸ rfl)
    simp [handle, waiting, ht, hj]
  | respondWith => simp [handle, waiting, hevent, hreaction]

/-- `lifetime_promise_settled_cb`. -/
theorem Accounted.lifetimePromiseSettledCb (h : Accounted s) {i : ℕ}
    (hi : (s.payloads i).waiting = true) :
    ((s.record (.reacted (.waitUntil i))).lifetimePromiseSettledCb i).Sat
      Accounted Accounted Overflow := by
  have hwaiting : s.waiting (.waitUntil i) = true := hi
  have hborn : s.Born (.waitUntil i) := by
    by_contra hno
    rw [h.ticketed.unborn _ hno] at hwaiting
    cases hwaiting
  have hcount : 0 < s.event.pendingPromisesCount := h.counted.pos hwaiting
  have hpos : ∀ loop, (s.payloads i).handle = some loop → 0 < s.interest loop :=
    fun loop hloop => h.balanced.pos (k := .waitUntil i) hloop
  rw [Lifetime.lifetimePromiseSettledCb,
    noteLifetimePromiseSettled_eq (s := s.record (.reacted (.waitUntil i))) hcount]
  set t : Lifetime := { s.record (.reacted (.waitUntil i)) with
    event.pendingPromisesCount := s.event.pendingPromisesCount - 1
    payloads := Function.update s.payloads i
      { s.payloads i with handle := none, waiting := false } } with ht
  show Outcome.Sat (t.dropHandle (.waitUntil i) (s.payloads i).handle) _ _ _
  rw [dropHandle_eq (s := t) hpos]
  obtain ⟨hself, hdone, hother⟩ := payload_handle (s := s) (t := t) (i := i) rfl rfl rfl
  refine Accounted.drop (t := t) (k := .waitUntil i) (l := [.reacted (.waitUntil i)]) h.balanced
    hself (fun k hk => (hother k hk).1) rfl rfl rfl (by simp [LifetimeRecord.unheld])
    (.inl (List.mem_singleton_self _)) ?_ ?_ ?_ ?_ ?_
  · exact h.counted.react hwaiting hdone (fun k hk => (hother k hk).2) rfl rfl (by simp)
  · refine h.ticketed.spend hself (fun k hk => (hother k hk).1) (fun k hk => ?_)
      (fun k hk => (hother k hk).2) hborn (fun k hk => ?_) rfl (by simp) (by simp) (by simp)
    · by_cases heq : k = .waitUntil i
      · subst heq
        exact hwaiting
      · rwa [(hother k heq).2] at hk
    · cases k <;> exact hk
  · exact h.dispatched.quiet rfl rfl rfl rfl rfl (by simp [LifetimeRecord.promised])
  · exact h.answered.quiet rfl rfl rfl rfl rfl rfl (by simp)
  · exact h.protocol.concat ((h.counted.waiting _).mpr hwaiting)

/-- The payload of a reaction is collected. -/
theorem Accounted.collect (h : Accounted s) {i : ℕ} (hi : i < s.nextPayload) :
    (dropHandle (record { s with
      payloads := Function.update s.payloads i { s.payloads i with handle := none } }
      (.collected (.waitUntil i))) (.waitUntil i) (s.payloads i).handle).Sat
      Accounted Accounted Overflow := by
  have hpos : ∀ loop, (s.payloads i).handle = some loop → 0 < s.interest loop :=
    fun loop hloop => h.balanced.pos (k := .waitUntil i) hloop
  set t : Lifetime := record { s with
    payloads := Function.update s.payloads i { s.payloads i with handle := none } }
      (.collected (.waitUntil i)) with ht
  rw [dropHandle_eq (s := t) hpos]
  obtain ⟨hself, hdone, hother⟩ := payload_handle (s := s) (t := t) (i := i) rfl rfl rfl
  have hwaiting (k : Ticket) : t.waiting k = s.waiting k := by
    by_cases heq : k = .waitUntil i
    · subst heq
      exact hdone
    · exact (hother k heq).2
  refine Accounted.drop (t := t) (k := .waitUntil i) (l := [.collected (.waitUntil i)]) h.balanced
    hself (fun k hk => (hother k hk).1) rfl rfl rfl (by simp [LifetimeRecord.unheld])
    (.inr (.inl (List.mem_singleton_self _))) ?_ ?_ ?_ ?_ ?_
  · exact h.counted.quiet hwaiting rfl rfl (by simp [LifetimeRecord.uncounted])
  · refine h.ticketed.spend hself (fun k hk => (hother k hk).1) (fun k hk => hwaiting k ▸ hk)
      (fun k _ => hwaiting k) hi (fun k hk => ?_) rfl (by simp) (by simp) (by simp)
    cases k <;> exact hk
  · exact h.dispatched.quiet rfl rfl rfl rfl rfl (by simp [LifetimeRecord.promised])
  · exact h.answered.quiet rfl rfl rfl rfl rfl rfl (by simp)
  · exact h.protocol.concat trivial

/-- The event loses the handle of the promise of `respondWith`. -/
theorem event_handle (hpayloads : t.payloads = s.payloads)
    (hinterest : t.event.respondInterest = none) :
    t.handle .respondWith = none ∧
    ∀ k, k ≠ .respondWith → t.handle k = s.handle k ∧ t.waiting k = s.waiting k := by
  refine ⟨hinterest, fun k hk => ?_⟩
  cases k with
  | waitUntil i => simp [handle, waiting, hpayloads]
  | respondWith => exact absurd rfl hk

/-- The event is collected. -/
theorem Accounted.collectEvent (h : Accounted s) :
    (dropHandle (record { s with collected := true, event.respondInterest := none }
      (.collected .respondWith)) .respondWith s.event.respondInterest).Sat
      Accounted Accounted Overflow := by
  have hpos : ∀ loop, s.event.respondInterest = some loop → 0 < s.interest loop :=
    fun loop hloop => h.balanced.pos (k := .respondWith) hloop
  set t : Lifetime := record { s with collected := true, event.respondInterest := none }
    (.collected .respondWith) with ht
  rw [dropHandle_eq (s := t) hpos]
  obtain ⟨hself, hother⟩ := event_handle (s := s) (t := t) rfl rfl
  have hwaiting (k : Ticket) : t.waiting k = s.waiting k := by cases k <;> rfl
  refine Accounted.drop (t := t) (k := .respondWith) (l := [.collected .respondWith]) h.balanced
    hself (fun k hk => (hother k hk).1) rfl rfl rfl (by simp [LifetimeRecord.unheld])
    (.inr (.inl (List.mem_singleton_self _))) ?_ ?_ ?_ ?_ ?_
  · exact h.counted.quiet hwaiting rfl rfl (by simp [LifetimeRecord.uncounted])
  · refine h.ticketed.spend hself (fun k hk => (hother k hk).1) (fun k hk => hwaiting k ▸ hk)
      (fun k _ => hwaiting k) (.inr rfl) (fun k hk => ?_) rfl (by simp) (by simp) (by simp)
    cases k with
    | waitUntil i => exact hk
    | respondWith => exact .inr rfl
  · exact h.dispatched.quiet rfl rfl rfl rfl rfl (by simp [LifetimeRecord.promised])
  · exact h.answered.quiet rfl rfl rfl rfl rfl rfl (by simp)
  · exact h.protocol.concat trivial

/-- `abandon_respond`. -/
theorem Accounted.abandonRespond (h : Accounted s) :
    (s.record .abandoned).abandonRespond.Sat Accounted Accounted Overflow := by
  have hpos : ∀ loop, s.event.respondInterest = some loop → 0 < s.interest loop :=
    fun loop hloop => h.balanced.pos (k := .respondWith) hloop
  rw [Lifetime.abandonRespond]
  set t : Lifetime := record { s with event.respondInterest := none } .abandoned with ht
  show Outcome.Sat (t.dropHandle .respondWith s.event.respondInterest) _ _ _
  rw [dropHandle_eq (s := t) hpos]
  obtain ⟨hself, hother⟩ := event_handle (s := s) (t := t) rfl rfl
  have hwaiting (k : Ticket) : t.waiting k = s.waiting k := by cases k <;> rfl
  have hborn (k : Ticket) : t.Born k ↔ s.Born k := by cases k <;> rfl
  refine Accounted.drop (t := t) (k := .respondWith) (l := [.abandoned]) h.balanced
    hself (fun k hk => (hother k hk).1) rfl rfl rfl (by simp [LifetimeRecord.unheld])
    (.inr (.inr ⟨rfl, List.mem_singleton_self _⟩)) ?_ ?_ ?_ ?_ ?_
  · exact h.counted.quiet hwaiting rfl rfl (by simp [LifetimeRecord.uncounted])
  · constructor
    case idle =>
      intro k hk
      by_cases heq : k = .respondWith
      · subst heq
        exact hself
      · rw [(hother k heq).1]
        exact h.ticketed.idle k (hwaiting k ▸ hk)
    case unborn => simpa only [hborn, hwaiting] using h.ticketed.unborn
    case accepted =>
      intro k loop hmem
      rw [hborn]
      exact h.ticketed.accepted k loop ((List.mem_append.mp hmem).resolve_right (by simp))
    case spent =>
      intro k hmem
      have hold : .reacted k ∈ s.log ∨ .collected k ∈ s.log := by
        simpa [ht, record] using hmem
      obtain ⟨hnone, hb⟩ := h.ticketed.spent k hold
      by_cases heq : k = .respondWith
      · subst heq
        exact ⟨hself, (hborn _).mpr hb⟩
      · exact ⟨(hother k heq).1.trans hnone, (hborn k).mpr hb⟩
    case awaited =>
      intro loop hloop
      rw [hself] at hloop
      cases hloop
  · exact h.dispatched.quiet rfl rfl rfl rfl rfl (by simp [LifetimeRecord.promised])
  · exact h.answered.quiet rfl rfl rfl rfl rfl rfl (by simp)
  · exact h.protocol.concat trivial

theorem respondSettled_eq {handle : Option ℕ} (hhandle : s.event.respondInterest = handle)
    (hpos : ∀ loop, handle = some loop → 0 < s.interest loop)
    (hcount : 0 < s.event.pendingPromisesCount) :
    s.respondSettled = .ok (Lifetime.dropped { s with
      event := { s.event with
        waitToRespond := false
        respondInterest := none
        pendingPromisesCount := s.event.pendingPromisesCount - 1 } } .respondWith handle) := by
  rw [respondSettled, hhandle, dropHandle_eq (s := { s with
    event.waitToRespond := false, event.respondInterest := none }) hpos]
  show noteLifetimePromiseSettled _ = _
  rw [noteLifetimePromiseSettled_eq (by rwa [dropped_event])]
  cases handle <;> rfl

/-- What the reactions of `respondWith` end with. -/
theorem Accounted.respondSettled (h : Accounted s) {u : Lifetime} {l : List LifetimeRecord}
    (hyes : s.respondReaction.isSome = true) (hpayloads : u.payloads = s.payloads)
    (hnext : u.nextPayload = s.nextPayload) (hcollected : u.collected = s.collected)
    (hreaction : u.respondReaction = none)
    (hentered : u.event.respondWithEntered = s.event.respondWithEntered)
    (hhandle : u.event.respondInterest = s.event.respondInterest)
    (hcount : u.event.pendingPromisesCount = s.event.pendingPromisesCount)
    (hdispatch : u.event.dispatch = s.event.dispatch) (htrusted : u.event.trusted = s.event.trusted)
    (hactive : u.active = s.active) (hfloor : u.floor = s.floor) (hothers : u.others = s.others)
    (hinterest : u.interest = s.interest) (hlog : u.log = s.log ++ .reacted .respondWith :: l)
    (hl : ∀ r ∈ l, ∃ response headers, r = .responded response headers)
    (hanswered : Answered { u with event.waitToRespond := false, event.respondInterest := none })
    (hkept : Kept LifetimeAllowed u.log) : u.respondSettled.Sat Accounted Accounted Overflow := by
  have hwaiting : s.waiting .respondWith = true := hyes
  have hpos : ∀ loop, s.event.respondInterest = some loop → 0 < u.interest loop :=
    fun loop hloop => hinterest ▸ h.balanced.pos (k := .respondWith) hloop
  -- the handle is dropped and the count goes down, without an underflow
  rw [respondSettled_eq hhandle hpos (hcount ▸ h.counted.pos hwaiting)]
  set t : Lifetime := { u with
    event := { u.event with
      waitToRespond := false
      respondInterest := none
      pendingPromisesCount := u.event.pendingPromisesCount - 1 } } with ht
  obtain ⟨hself, hother⟩ := event_handle (s := s) (t := t) hpayloads rfl
  have hdone : t.waiting .respondWith = false := by
    show u.respondReaction.isSome = false
    rw [hreaction]
    rfl
  -- what is recorded besides is the response delivered, which moves no handle
  have hrecords {p : LifetimeRecord → Bool} (hp : p (.reacted .respondWith) = true)
      (hr : ∀ response headers, p (.responded response headers) = true) :
      ∀ r ∈ LifetimeRecord.reacted .respondWith :: l, p r = true := by
    intro r hmem
    rcases List.mem_cons.mp hmem with rfl | hmem
    · exact hp
    · obtain ⟨response, headers, rfl⟩ := hl r hmem
      exact hr response headers
  refine Accounted.drop (t := t) (k := .respondWith) (l := .reacted .respondWith :: l) h.balanced
    hself (fun k hk => (hother k hk).1) hothers hinterest hlog (hrecords rfl fun _ _ => rfl)
    (.inl List.mem_cons_self) ?_ ?_ ?_ ?_ hkept
  · refine h.counted.react hwaiting hdone (fun k hk => (hother k hk).2) ?_ hlog fun r hr => ?_
    · show u.event.pendingPromisesCount - 1 = _
      rw [hcount]
    · obtain ⟨response, headers, rfl⟩ := hl r hr
      rfl
  · refine h.ticketed.spend hself (fun k hk => (hother k hk).1) (fun k hk => ?_)
      (fun k hk => (hother k hk).2) (.inl ?_) (fun k hk => ?_) hlog ?_ ?_ ?_
    · by_cases heq : k = .respondWith
      · subst heq
        exact hwaiting
      · rwa [(hother k heq).2] at hk
    · show u.event.respondWithEntered = true
      rw [hentered, h.answered.entered hyes]
    · cases k with
      | waitUntil i =>
        show i < u.nextPayload
        rw [hnext]
        exact hk
      | respondWith =>
        show u.event.respondWithEntered = true ∨ u.collected = true
        rw [hentered, hcollected]
        exact hk
    · intro k loop hmem
      rcases List.mem_cons.mp hmem with heq | hmem
      · cases heq
      · obtain ⟨response, headers, heq⟩ := hl _ hmem
        cases heq
    · intro hmem
      rcases List.mem_cons.mp hmem with heq | hmem
      · cases heq
      · obtain ⟨response, headers, heq⟩ := hl _ hmem
        cases heq
    · rintro k (hmem | hmem)
      · rcases List.mem_cons.mp hmem with heq | hmem
        · cases heq
          rfl
        · obtain ⟨response, headers, heq⟩ := hl _ hmem
          cases heq
      · rcases List.mem_cons.mp hmem with heq | hmem
        · cases heq
        · obtain ⟨response, headers, heq⟩ := hl _ hmem
          cases heq
  · exact h.dispatched.quiet hactive hdispatch htrusted hfloor hlog (hrecords rfl fun _ _ => rfl)
  · exact ⟨hanswered.wait, hanswered.entered, hanswered.response, hanswered.headers,
      hanswered.responded⟩

/-- The promise of `respondWith` came to no response. -/
theorem Accounted.respondFailed (h : Accounted s) (hyes : s.respondReaction.isSome = true) :
    (Lifetime.respondSettled
      { record { s with respondReaction := none } (.reacted .respondWith) with
      event.respondWithError := true }).Sat Accounted Accounted Overflow := by
  refine h.respondSettled (l := []) hyes rfl rfl rfl rfl rfl rfl rfl rfl rfl rfl rfl rfl rfl rfl
    (by simp) ?_ (h.protocol.concat ((h.counted.waiting .respondWith).mpr hyes))
  have hold (response : ℕ) (headers : List (String × String)) :
      .responded response headers ∈ s.log ++ [.reacted .respondWith] ↔
        .responded response headers ∈ s.log := by
    simp
  constructor
  case wait => rfl
  case entered => exact fun hno => by cases hno
  case response => simpa only [record, hold] using h.answered.response
  case headers =>
    intro response headers hmem
    exact (h.answered.headers response headers ((hold _ _).mp hmem)).imp_right
      fun ⟨hnone, htaken⟩ =>
      ⟨hnone, List.mem_append_left _ htaken⟩
  case responded =>
    intro response headers hmem
    exact ⟨(h.answered.responded response headers ((hold _ _).mp hmem)).1, rfl⟩

/-- `on_respond_fulfilled`: it does not throw. -/
theorem Accounted.onRespondFulfilled (h : Accounted s) (hyes : s.respondReaction.isSome = true)
    (response : Response) : ((record { s with respondReaction := none }
      (.reacted .respondWith)).onRespondFulfilled response).Sat Accounted Accounted Overflow := by
  rw [Lifetime.onRespondFulfilled]
  split_ifs
  · exact h.respondFailed hyes
  obtain ⟨response', heq, -, -⟩ := response.reserveBodyForSending_ok
  rw [heq]
  have hno (id : ℕ) (headers : List (String × String)) : .responded id headers ∉ s.log := by
    intro hmem
    have hnone := (h.answered.responded id headers hmem).2
    rw [hnone] at hyes
    cases hyes
  have hmem (id : ℕ) (headers : List (String × String)) : .responded id headers ∈
      s.log ++ [.reacted .respondWith] ++ [.responded response'.id response'.headers] ↔
        id = response'.id ∧ headers = response'.headers := by
    simp [hno]
  refine h.respondSettled (l := [.responded response'.id response'.headers]) hyes rfl rfl rfl rfl
    rfl rfl rfl rfl rfl rfl rfl rfl rfl (by simp [record]) (by simp) ?_ ?_
  · constructor
    case wait => rfl
    case entered => exact fun hno => by cases hno
    case response =>
      intro id
      show some response'.id = some id ↔ ∃ headers, LifetimeRecord.responded id headers ∈
        s.log ++ [.reacted .respondWith] ++ [.responded response'.id response'.headers]
      simp only [hmem, Option.some.injEq]
      constructor
      · rintro rfl
        exact ⟨_, rfl, rfl⟩
      · rintro ⟨_, rfl, -⟩
        rfl
    case headers =>
      intro id headers hin
      obtain ⟨-, rfl⟩ := (hmem id headers).mp hin
      exact .inl rfl
    case responded => exact fun _ _ _ => ⟨h.answered.entered hyes, rfl⟩
  · have hreacted : LifetimeAllowed s.log (.reacted .respondWith) :=
      (h.counted.waiting .respondWith).mpr hyes
    refine (h.protocol.concat hreacted).concat ⟨?_, ?_, ?_⟩
    · rw [pendingOf_reacted]
      simp
    · simp
    · intro id headers hin
      exact hno id headers ((List.mem_append.mp hin).resolve_right (by simp))

/-! ### Steps -/

/-- Nothing happens that the invariant speaks of, but that others acquire or release interest. -/
theorem Accounted.same (h : Accounted s) (hhandle : ∀ k, t.handle k = s.handle k)
    (hwaiting : ∀ k, t.waiting k = s.waiting k) (hborn : ∀ k, t.Born k ↔ s.Born k)
    (hevent : t.event = s.event) (hreaction : t.respondReaction = s.respondReaction)
    (hactive : t.active = s.active) (hfloor : t.floor = s.floor)
    (hloops : ∀ loop, t.interest loop + s.others loop = s.interest loop + t.others loop)
    (hlog : t.log = s.log) : Accounted t := by
  have hnil : t.log = s.log ++ [] := by rw [hlog, List.append_nil]
  have hno {p : LifetimeRecord → Bool} : ∀ r ∈ ([] : List LifetimeRecord), p r = true := by simp
  constructor
  case balanced =>
    constructor
    case held => simpa only [hlog, hhandle] using h.balanced.held
    case nodup => simpa only [hlog] using h.balanced.nodup
    case interest =>
      intro loop
      have hloop := hloops loop
      rw [h.balanced.interest loop] at hloop
      rw [hlog]
      omega
  case counted => exact h.counted.quiet hwaiting (by rw [hevent]) hnil hno
  case ticketed => exact h.ticketed.quiet hhandle hwaiting hborn hnil hno
  case dispatched =>
    exact h.dispatched.quiet hactive (by rw [hevent]) (by rw [hevent]) hfloor hnil hno
  case answered =>
    exact h.answered.quiet (by rw [hevent]) hreaction (by rw [hevent]) (by rw [hevent])
      (by rw [hevent]) hnil (by simp)
  case protocol =>
    rw [hlog]
    exact h.protocol

/-- A record of what happens to the event or the loops. -/
theorem Accounted.happen (h : Accounted s) {r : LifetimeRecord} (hr : r.promised = false)
    (hhandle : ∀ k, t.handle k = s.handle k) (hwaiting : ∀ k, t.waiting k = s.waiting k)
    (hborn : ∀ k, t.Born k ↔ s.Born k)
    (hcount : t.event.pendingPromisesCount = s.event.pendingPromisesCount)
    (hwait : t.event.waitToRespond = s.event.waitToRespond)
    (hreaction : t.respondReaction = s.respondReaction)
    (hentered : t.event.respondWithEntered = s.event.respondWithEntered)
    (hresponse : t.event.potentialResponse = s.event.potentialResponse)
    (hheaders : t.event.potentialResponseHeaders = s.event.potentialResponseHeaders)
    (hinterest : t.interest = s.interest) (hothers : t.others = s.others)
    (hlog : t.log = s.log ++ [r]) (hdispatched : Dispatched t) : Accounted t := by
  have hone {p : LifetimeRecord → Bool} (hp : ∀ r, r.promised = false → p r = true) :
      ∀ r' ∈ [r], p r' = true := by
    intro r' hmem
    rw [List.mem_singleton.mp hmem]
    exact hp r hr
  constructor
  case balanced =>
    refine h.balanced.quiet hhandle hinterest hothers hlog (hone fun r hr => ?_)
    cases r <;> first | rfl | cases hr
  case counted =>
    refine h.counted.quiet hwaiting hcount hlog (hone fun r hr => ?_)
    cases r <;> first | rfl | cases hr
  case ticketed =>
    refine h.ticketed.quiet hhandle hwaiting hborn hlog (hone fun r hr => ?_)
    cases r <;> first | rfl | cases hr
  case dispatched => exact hdispatched
  case answered =>
    refine h.answered.quiet hwait hreaction hentered hresponse hheaders hlog ?_
    intro response headers hmem
    rw [← List.mem_singleton.mp hmem] at hr
    cases hr
  case protocol =>
    rw [hlog]
    refine h.protocol.concat ?_
    cases r <;> trivial

theorem activeOf_entered (l : List LifetimeRecord) (loop : ℕ) :
    activeOf (l ++ [.entered loop]) = loop :: activeOf l := by
  rw [activeOf, List.foldl_append]
  rfl

theorem activeOf_left (l : List LifetimeRecord) : activeOf (l ++ [.left]) = (activeOf l).tail := by
  rw [activeOf, List.foldl_append]
  rfl

/-- What happens to the loops and the dispatch. -/
theorem Accounted.loops (h : Accounted s) (loop : ℕ) {a : LifetimeAction}
    (ha : a = .enter loop ∨ a = .leave ∨ a = .dispatch ∨ a = .dispatchEvent ∨ a = .finish) :
    (s.step a).Sat Accounted Accounted Overflow := by
  have hhandle {t : Lifetime} (hp : t.payloads = s.payloads)
      (he : t.event.respondInterest = s.event.respondInterest) (k : Ticket) :
      t.handle k = s.handle k := by
    cases k <;> simp [handle, hp, he]
  have hborn {t : Lifetime} (hp : t.nextPayload = s.nextPayload) (hc : t.collected = s.collected)
      (he : t.event.respondWithEntered = s.event.respondWithEntered) (k : Ticket) :
      t.Born k ↔ s.Born k := by
    cases k <;> simp [Born, hp, hc, he]
  have hwaiting {t : Lifetime} (hp : t.payloads = s.payloads)
      (hr : t.respondReaction = s.respondReaction) (k : Ticket) : t.waiting k = s.waiting k := by
    cases k <;> simp [waiting, hp, hr]
  have hd := h.dispatched
  rcases ha with rfl | rfl | rfl | rfl | rfl
  · -- a loop becomes active
    refine h.happen (r := .entered loop) rfl (hhandle rfl rfl) (hwaiting rfl rfl)
      (hborn rfl rfl rfl) rfl rfl rfl rfl rfl rfl rfl rfl rfl ?_
    constructor
    case active =>
      show loop :: s.active = activeOf (s.log ++ [.entered loop])
      rw [activeOf_entered, hd.active]
    case dispatching =>
      show s.event.dispatch = true ↔ Dispatching (s.log ++ [.entered loop])
      simp [dispatching_concat, hd.dispatching]
    case trusted =>
      show s.event.trusted = true ↔ .redispatched ∉ s.log ++ [.entered loop]
      simp [hd.trusted]
    case floor => exact hd.floor
    case floor_le => exact Nat.le_succ_of_le hd.floor_le
  -- a loop that a dispatch needs is not left
  · rw [step]
    split_ifs with hlt
    · refine h.happen (r := .left) rfl (hhandle rfl rfl) (hwaiting rfl rfl)
        (hborn rfl rfl rfl) rfl rfl rfl rfl rfl rfl rfl rfl rfl ?_
      constructor
      case active =>
        show s.active.tail = activeOf (s.log ++ [.left])
        rw [activeOf_left, hd.active]
      case dispatching =>
        show s.event.dispatch = true ↔ Dispatching (s.log ++ [.left])
        simp [dispatching_concat, hd.dispatching]
      case trusted =>
        show s.event.trusted = true ↔ .redispatched ∉ s.log ++ [.left]
        simp [hd.trusted]
      case floor => exact hd.floor
      case floor_le =>
        show s.floor ≤ s.active.tail.length
        rw [List.length_tail]
        omega
    · exact h
  -- the dispatch: its floor is the loops that are active now
  · rw [step]
    split_ifs with hc
    · rw [Bool.and_eq_true, Bool.not_eq_true', Bool.not_eq_true', List.isEmpty_eq_false_iff] at hc
      refine h.happen (r := .dispatched) rfl (hhandle rfl rfl) (hwaiting rfl rfl)
        (hborn rfl rfl rfl) rfl rfl rfl rfl rfl rfl rfl rfl rfl ?_
      constructor
      case active =>
        show s.active = activeOf (s.log ++ [.dispatched])
        rw [hd.active, activeOf, activeOf, List.foldl_append]
        rfl
      case dispatching =>
        show true = true ↔ Dispatching (s.log ++ [.dispatched])
        simp [dispatching_concat]
      case trusted =>
        show s.event.trusted = true ↔ .redispatched ∉ s.log ++ [.dispatched]
        simp [hd.trusted]
      case floor => exact fun _ _ => List.length_pos_of_ne_nil hc.2
      case floor_le => exact le_refl _
    · exact h
  -- author code dispatches the event again, which makes it untrusted
  · rw [step]
    split_ifs
    · refine h.happen (r := .redispatched) rfl (hhandle rfl rfl) (hwaiting rfl rfl)
        (hborn rfl rfl rfl) rfl rfl rfl rfl rfl rfl rfl rfl rfl ?_
      constructor
      case active =>
        show s.active = activeOf (s.log ++ [.redispatched])
        rw [hd.active, activeOf, activeOf, List.foldl_append]
        rfl
      case dispatching =>
        show true = true ↔ Dispatching (s.log ++ [.redispatched])
        simp [dispatching_concat]
      case trusted =>
        show false = true ↔ .redispatched ∉ s.log ++ [.redispatched]
        simp
      case floor => exact fun hno => by cases hno
      case floor_le => exact le_refl _
    · exact h
  -- the dispatch is over
  · rw [step]
    split_ifs
    · refine h.happen (r := .finished) rfl (hhandle rfl rfl) (hwaiting rfl rfl)
        (hborn rfl rfl rfl) rfl rfl rfl rfl rfl rfl rfl rfl rfl ?_
      constructor
      case active =>
        show s.active = activeOf (s.log ++ [.finished])
        rw [hd.active, activeOf, activeOf, List.foldl_append]
        rfl
      case dispatching =>
        show false = true ↔ Dispatching (s.log ++ [.finished])
        simp [dispatching_concat]
      case trusted =>
        show s.event.trusted = true ↔ .redispatched ∉ s.log ++ [.finished]
        simp [hd.trusted]
      case floor => exact fun _ hno => by cases hno
      case floor_le => exact Nat.zero_le _
    · exact h

/-- The serve path reads the response: its headers are there. -/
theorem Accounted.takeResponse (h : Accounted s) (htaken : .taken ∉ s.log) :
    s.takeResponse.Sat Accounted Accounted Overflow := by
  rw [Lifetime.takeResponse]
  cases hresponse : s.event.potentialResponse with
  | none => exact h
  | some response =>
    obtain ⟨headers, hmem⟩ := (h.answered.response response).mp hresponse
    have hheaders := (h.answered.headers response headers hmem).resolve_right fun hno =>
      htaken hno.2
    rw [hheaders]
    set t : Lifetime := record { s with event.potentialResponseHeaders := none } .taken with ht
    show Accounted t
    have hhandle (k : Ticket) : t.handle k = s.handle k := by cases k <;> rfl
    have hwaiting (k : Ticket) : t.waiting k = s.waiting k := by cases k <;> rfl
    have hborn (k : Ticket) : t.Born k ↔ s.Born k := by cases k <;> rfl
    have hold (response : ℕ) (headers : List (String × String)) :
        .responded response headers ∈ t.log ↔ .responded response headers ∈ s.log := by
      simp [ht, record]
    constructor
    case balanced => exact h.balanced.quiet hhandle rfl rfl rfl (by simp [LifetimeRecord.unheld])
    case counted => exact h.counted.quiet hwaiting rfl rfl (by simp [LifetimeRecord.uncounted])
    case ticketed =>
      exact h.ticketed.quiet hhandle hwaiting hborn rfl (by simp [LifetimeRecord.ticketless])
    case dispatched =>
      exact h.dispatched.quiet rfl rfl rfl rfl rfl (by simp [LifetimeRecord.promised])
    case answered =>
      constructor
      case wait => exact h.answered.wait
      case entered => exact h.answered.entered
      case response =>
        intro response
        simp only [hold]
        exact h.answered.response response
      case headers => exact fun _ _ _ => .inr ⟨rfl, List.mem_append_right _ (by simp)⟩
      case responded =>
        intro response headers hin
        exact h.answered.responded response headers ((hold _ _).mp hin)
    case protocol => exact h.protocol.concat trivial

/-- **Every step** keeps the invariant, and no assertion fails but that on the interest count. -/
theorem step_accounted (h : Accounted s) (a : LifetimeAction) :
    (s.step a).Sat Accounted Accounted Overflow := by
  have hhandle {t : Lifetime} (he : t.event = s.event) (hp : t.payloads = s.payloads) (k : Ticket) :
      t.handle k = s.handle k := by
    cases k <;> simp [handle, hp, he]
  have hwaiting {t : Lifetime} (hp : t.payloads = s.payloads)
      (hr : t.respondReaction = s.respondReaction) (k : Ticket) : t.waiting k = s.waiting k := by
    cases k <;> simp [waiting, hp, hr]
  have hborn {t : Lifetime} (he : t.event = s.event) (hn : t.nextPayload = s.nextPayload)
      (hc : t.collected = s.collected) (k : Ticket) : t.Born k ↔ s.Born k := by
    cases k <;> simp [Born, hn, hc, he]
  cases a with
  | enter loop => exact h.loops loop (.inl rfl)
  | leave | dispatch | dispatchEvent | finish => exact h.loops 0 (by simp)
  | waitUntil promise =>
    rw [step]
    split_ifs
    · exact h.addLifetimePromise promise _
    · exact h
  | respondWith promise =>
    rw [step]
    split_ifs with hc
    · simp only [Bool.and_eq_true, Bool.not_eq_true'] at hc
      exact h.respondWith hc.1.2 promise
    · exact h
  | settle promise fulfilled =>
    rw [step]
    split_ifs
    all_goals first
      | exact h
      | exact h.same (hhandle rfl rfl) (hwaiting rfl rfl) (hborn rfl rfl rfl) rfl rfl rfl rfl
          (fun _ => rfl) rfl
  | forget promise =>
    rw [step]
    split_ifs
    · exact h.same (hhandle rfl rfl) (hwaiting rfl rfl) (hborn rfl rfl rfl) rfl rfl rfl rfl
        (fun _ => rfl) rfl
    · exact h
  | lifetimePromiseSettled i =>
    rw [step]
    split_ifs with hc
    · rw [Bool.and_eq_true] at hc
      exact h.lifetimePromiseSettledCb hc.1
    · exact h
  | respondFulfilled response =>
    rw [step]
    split_ifs with hc
    · obtain ⟨p, hp, -⟩ := (Option.any_eq_true _ _).mp hc
      exact h.onRespondFulfilled (by rw [hp]; rfl) response
    · exact h
  | respondRejected =>
    rw [step]
    split_ifs with hc
    · obtain ⟨p, hp, -⟩ := (Option.any_eq_true _ _).mp hc
      exact h.respondFailed (by rw [hp]; rfl)
    · exact h
  | collect i =>
    rw [step]
    split_ifs with hc
    · rw [Bool.and_eq_true, decide_eq_true_eq] at hc
      exact h.collect hc.1
    · exact h
  | collectEvent =>
    rw [step]
    split_ifs
    · exact h.collectEvent
    · exact h
  | abandonRespond =>
    rw [step]
    split_ifs
    · exact h.abandonRespond
    · exact h
  | takeResponse =>
    rw [step]
    split_ifs with hc
    · rw [Bool.and_eq_true, decide_eq_true_eq] at hc
      exact h.takeResponse hc.2
    · exact h
  -- interest taken by others leaves the event's own in the balance
  | acquire =>
    rw [step]
    cases s.active.head? with
    | none => exact h
    | some loop =>
      refine Outcome.sat_bind.mpr ((acquireHandle_sat loop).mono ?_ (fun _ => False.elim)
        fun _ hp => hp)
      rintro _ rfl
      refine h.same (hhandle rfl rfl) (hwaiting rfl rfl) (hborn rfl rfl rfl) rfl rfl rfl rfl
        (fun loop' => ?_) rfl
      by_cases hloop : loop' = loop
      · subst hloop
        simp only [Function.update_self]
        omega
      · simp [hloop]
  | release loop =>
    rw [step]
    split_ifs with hc
    · have hinterest := h.balanced.interest loop
      -- what others gave back they had taken
      have hpos : 0 < s.interest loop := by omega
      rw [Outcome.guard, if_pos (decide_eq_true hpos)]
      refine h.same (hhandle rfl rfl) (hwaiting rfl rfl) (hborn rfl rfl rfl) rfl rfl rfl rfl
        (fun loop' => ?_) rfl
      by_cases hloop : loop' = loop
      · subst hloop
        simp only [Function.update_self]
        omega
      · simp [hloop]
    · exact h

/-! ### Runs -/

theorem Accounted.initial : Accounted initial := by
  have hwaiting (k : Ticket) : Lifetime.initial.waiting k = false := by cases k <;> rfl
  have hhandle (k : Ticket) : Lifetime.initial.handle k = none := by cases k <;> rfl
  have hlog : Lifetime.initial.log = [] := rfl
  constructor
  case balanced =>
    constructor
    case held => simp [hhandle, hlog]
    case nodup => simp [hlog]
    case interest => simp [Lifetime.initial]
  case counted =>
    constructor
    case waiting => simp [hwaiting, hlog]
    case nodup => simp [hlog]
    case count => rfl
  case ticketed =>
    constructor
    case idle => simp [hhandle]
    case unborn => simp [hwaiting]
    case accepted => simp [hlog]
    case spent => simp [hlog]
    case awaited => simp [hhandle]
  case dispatched =>
    constructor <;> simp [Lifetime.initial, FetchEvent.createForRequest, Dispatching,
      WebGlobals.Event.new]
  case answered =>
    constructor <;> simp [Lifetime.initial, FetchEvent.createForRequest]
  case protocol => exact kept_nil

theorem accounted_run (hrun : lifetimeMachine.Run s t) (h : Accounted s) : Accounted t :=
  hrun.inv_of_sat (E := Overflow) h fun _ a hs _ => step_accounted hs a

/-- **The lifetime of a fetch event.** In every run: the log keeps to `LifetimeAllowed`; the count
of pending promises is that of the promises that were accepted and whose reaction has not run; the
interest count of a loop is what others hold of it and one for each promise that holds it; a promise
whose reaction ran or whose payload was collected holds none, nor does that of `respondWith` once
the response was abandoned; the event waits to respond exactly while the promise of `respondWith` is
pending; the response is the one that was recorded, with its headers until they are taken; and no
assertion fails but that the interest count fits 32 bits. -/
theorem lifetime_kept (hrun : lifetimeMachine.Run initial s) :
    Kept LifetimeAllowed s.log ∧
    s.event.pendingPromisesCount = (pendingOf s.log).length ∧ (pendingOf s.log).Nodup ∧
    (∀ loop, s.interest loop = s.others loop + (heldOf s.log).countP (·.2 = loop)) ∧
    (heldOf s.log).Nodup ∧
    (∀ k loop, .reacted k ∈ s.log ∨ .collected k ∈ s.log → (k, loop) ∉ heldOf s.log) ∧
    (∀ loop, (.respondWith, loop) ∈ heldOf s.log → Awaited loop s.log) ∧
    (s.event.waitToRespond = true ↔ .respondWith ∈ pendingOf s.log) ∧
    (∀ response, s.event.potentialResponse = some response ↔
      ∃ headers, .responded response headers ∈ s.log) ∧
    (∀ response headers, .responded response headers ∈ s.log →
      s.event.potentialResponseHeaders = some headers ∨
        (s.event.potentialResponseHeaders = none ∧ .taken ∈ s.log)) ∧
    ∀ a p, s.step a = .panic p → p = .interestOverflow := by
  have h : Accounted s := accounted_run hrun .initial
  refine ⟨h.protocol, h.counted.count, h.counted.nodup, h.balanced.interest, h.balanced.nodup,
    fun k loop hmem hheld => ?_, fun loop hheld => ?_, ?_, h.answered.response,
    h.answered.headers, fun a p hp => ?_⟩
  · rw [h.balanced.held, (h.ticketed.spent k hmem).1] at hheld
    cases hheld
  · exact h.ticketed.awaited loop ((h.balanced.held _ _).mp hheld)
  · rw [h.counted.waiting, h.answered.wait]
    rfl
  · have hstep := step_accounted h a
    rw [hp] at hstep
    exact hstep

/-- The dispatch times out and the response is abandoned, which releases the interest on the loop
that was active when the promise of `respondWith` was accepted. That promise settles during the turn
of another loop. -/
theorem lifetime_kept_history : ∃ s, lifetimeMachine.Run initial s ∧
    s.log = [.entered 1, .dispatched, .accepted (.waitUntil 0) 1, .accepted .respondWith 1,
      .finished, .left, .abandoned, .released .respondWith 1, .entered 2, .reacted .respondWith,
      .responded 9 [("a", "b")], .accepted (.waitUntil 1) 2, .left, .taken,
      .reacted (.waitUntil 0), .released (.waitUntil 0) 1] ∧
    s.event.pendingPromisesCount = (pendingOf s.log).length ∧ s.interest 2 = 1 := by
  obtain ⟨s, hrun, hs⟩ := Machine.exists_run_of_exec (M := lifetimeMachine) (s := initial)
    [.enter 1, .dispatch, .waitUntil 5, .respondWith 6, .finish, .leave, .abandonRespond,
      .settle 6 true, .enter 2,
      .respondFulfilled ⟨9, some false, some ⟨false, false⟩, [("a", "b")]⟩, .waitUntil 7, .leave,
      .takeResponse, .settle 5 false, .lifetimePromiseSettled 0]
    (P := fun s => s.interest 2 = 1 ∧ s.log = [.entered 1, .dispatched,
      .accepted (.waitUntil 0) 1, .accepted .respondWith 1, .finished, .left, .abandoned,
      .released .respondWith 1, .entered 2, .reacted .respondWith, .responded 9 [("a", "b")],
      .accepted (.waitUntil 1) 2, .left, .taken, .reacted (.waitUntil 0),
      .released (.waitUntil 0) 1]) (by decide)
  have hs := of_decide_eq_true hs
  exact ⟨s, hrun, hs.2, (lifetime_kept hrun).2.1, hs.1⟩

end Lifetime

end FetchEvents
