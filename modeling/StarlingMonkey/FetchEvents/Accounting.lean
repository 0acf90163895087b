import Mathlib.Data.List.Nodup
import StarlingMonkey.FetchEvents.Lifetime
import StarlingMonkey.Lib.Protocol

/-!
# Accounting for lifetime promises

What the log says of the lifetime promises (`pendingOf`, `heldOf`), and the invariant that ties the
counts of the event and the loops to it: `Balanced` is about the interest, `Counted` about the
pending promises, `Answered` about the event itself.
-/

namespace FetchEvents

open Protocol

/-! ### The log -/

/-- The loops that are active, the innermost first. -/
def activeOf (log : List LifetimeRecord) : List ℕ :=
  log.foldl (fun loops => fun
    | .entered loop => loop :: loops
    | .left => loops.tail
    | _ => loops) []

/-- The promises that were accepted and whose reaction has not run. -/
def pendingOf (log : List LifetimeRecord) : List Ticket :=
  log.foldl (fun ks => fun
    | .accepted k _ => ks ++ [k]
    | .reacted k => ks.filter (· ≠ k)
    | _ => ks) []

/-- The promises that hold a unit of interest, and the loop they hold it on. -/
def heldOf (log : List LifetimeRecord) : List (Ticket × ℕ) :=
  log.foldl (fun held => fun
    | .accepted k loop => held ++ [(k, loop)]
    | .released k loop => held.filter (· ≠ (k, loop))
    | _ => held) []

/-- The event is being dispatched. -/
def Dispatching : List LifetimeRecord → Prop :=
  Since (fun _ r => r = .dispatched ∨ r = .redispatched) (· = .finished)

/-- The promise of `respondWith` was accepted while the loop was active, and the response was not
abandoned since. -/
def Awaited (loop : ℕ) : List LifetimeRecord → Prop :=
  Since (fun _ r => r = .accepted .respondWith loop) (· = .abandoned)

/-- When a record may follow others. -/
def LifetimeAllowed (l : List LifetimeRecord) : LifetimeRecord → Prop
  | .accepted k loop => (activeOf l).head? = some loop ∧ .redispatched ∉ l ∧
      (∀ loop', .accepted k loop' ∉ l) ∧
      (Dispatching l ∨ (k ≠ .respondWith ∧ pendingOf l ≠ []))
  | .reacted k => k ∈ pendingOf l
  | .released k loop => (k, loop) ∈ heldOf l ∧
      (.reacted k ∈ l ∨ .collected k ∈ l ∨ (k = .respondWith ∧ .abandoned ∈ l))
  | .responded _ _ => .respondWith ∉ pendingOf l ∧ .reacted .respondWith ∈ l ∧
      ∀ response headers, .responded response headers ∉ l
  | _ => True

section Log

variable {l l' : List LifetimeRecord} {r : LifetimeRecord} {k : Ticket} {loop : ℕ}

@[simp] theorem activeOf_nil : activeOf [] = [] := rfl

@[simp] theorem pendingOf_nil : pendingOf [] = [] := rfl

@[simp] theorem heldOf_nil : heldOf [] = [] := rfl

theorem dispatching_concat : Dispatching (l ++ [r]) ↔
    (r = .dispatched ∨ r = .redispatched) ∨ (Dispatching l ∧ r ≠ .finished) := since_concat

/-- A record of what happens to promises, not of what happens to the event or the loops. -/
def LifetimeRecord.promised : LifetimeRecord → Bool
  | .entered _ | .left | .dispatched | .redispatched | .finished => false
  | _ => true

/-- A record of neither an acceptance nor a reaction. -/
def LifetimeRecord.uncounted : LifetimeRecord → Bool
  | .accepted .. | .reacted _ => false
  | _ => true

/-- A record of no acceptance, reaction, collection or abandonment. -/
def LifetimeRecord.ticketless : LifetimeRecord → Bool
  | .accepted .. | .reacted _ | .collected _ | .abandoned => false
  | _ => true

/-- A record of neither an acceptance nor a release. -/
def LifetimeRecord.unheld : LifetimeRecord → Bool
  | .accepted .. | .released .. => false
  | _ => true

theorem activeOf_append (h : ∀ r ∈ l', r.promised = true) : activeOf (l ++ l') = activeOf l := by
  induction l' using List.reverseRecOn with
  | nil => rw [List.append_nil]
  | append_singleton l' r ih =>
    have hr := h r (by simp)
    rw [← List.append_assoc, activeOf, List.foldl_append, ← activeOf,
      ih fun r' hr' => h r' (List.mem_append_left _ hr')]
    cases r <;> first | rfl | cases hr

theorem dispatching_append (h : ∀ r ∈ l', r.promised = true) :
    Dispatching (l ++ l') ↔ Dispatching l := by
  refine since_append (fun _ r hr hp => ?_) fun r hr hp => ?_
  · rcases hp with rfl | rfl <;> cases h _ hr
  · subst hp
    cases h _ hr

theorem pendingOf_append (h : ∀ r ∈ l', r.uncounted = true) :
    pendingOf (l ++ l') = pendingOf l := by
  induction l' using List.reverseRecOn with
  | nil => rw [List.append_nil]
  | append_singleton l' r ih =>
    have hr := h r (by simp)
    rw [← List.append_assoc, pendingOf, List.foldl_append, ← pendingOf,
      ih fun r' hr' => h r' (List.mem_append_left _ hr')]
    cases r <;> first | rfl | cases hr

theorem heldOf_append (h : ∀ r ∈ l', r.unheld = true) : heldOf (l ++ l') = heldOf l := by
  induction l' using List.reverseRecOn with
  | nil => rw [List.append_nil]
  | append_singleton l' r ih =>
    have hr := h r (by simp)
    rw [← List.append_assoc, heldOf, List.foldl_append, ← heldOf,
      ih fun r' hr' => h r' (List.mem_append_left _ hr')]
    cases r <;> first | rfl | cases hr

@[simp] theorem pendingOf_accepted : pendingOf (l ++ [.accepted k loop]) = pendingOf l ++ [k] := by
  rw [pendingOf, List.foldl_append]
  rfl

@[simp] theorem pendingOf_reacted :
    pendingOf (l ++ [.reacted k]) = (pendingOf l).filter (· ≠ k) := by
  rw [pendingOf, List.foldl_append]
  rfl

@[simp] theorem heldOf_accepted :
    heldOf (l ++ [.accepted k loop]) = heldOf l ++ [(k, loop)] := by
  rw [heldOf, List.foldl_append]
  rfl

@[simp] theorem heldOf_released :
    heldOf (l ++ [.released k loop]) = (heldOf l).filter (· ≠ (k, loop)) := by
  rw [heldOf, List.foldl_append]
  rfl

/-- What is filtered out of a list without duplicates. -/
theorem perm_cons_filter {α : Type} [DecidableEq α] {xs : List α} {a : α} (h : xs.Nodup)
    (ha : a ∈ xs) : xs.Perm (a :: xs.filter (· ≠ a)) := by
  have herase : xs.erase a = xs.filter (· ≠ a) := by
    rw [h.erase_eq_filter]
    exact List.filter_congr fun x _ => by simp [bne, Bool.beq_eq_decide_eq]
  rw [← herase]
  exact List.perm_cons_erase ha

end Log

/-! ### The invariant -/

namespace Lifetime

/-- The interest that is held for a promise. -/
def handle (s : Lifetime) : Ticket → Option ℕ
  | .waitUntil i => (s.payloads i).handle
  | .respondWith => s.event.respondInterest

/-- The reaction to a promise has yet to run. -/
def waiting (s : Lifetime) : Ticket → Bool
  | .waitUntil i => (s.payloads i).waiting
  | .respondWith => s.respondReaction.isSome

/-- The promise may have been accepted. -/
def Born (s : Lifetime) : Ticket → Prop
  | .waitUntil i => i < s.nextPayload
  | .respondWith => s.event.respondWithEntered = true ∨ s.collected = true

/-- The interest counts of the loops. -/
structure Balanced (s : Lifetime) : Prop where
  held : ∀ k loop, (k, loop) ∈ heldOf s.log ↔ s.handle k = some loop
  nodup : (heldOf s.log).Nodup
  interest : ∀ loop, s.interest loop = s.others loop + (heldOf s.log).countP (·.2 = loop)

/-- The count of pending promises. -/
structure Counted (s : Lifetime) : Prop where
  waiting : ∀ k, k ∈ pendingOf s.log ↔ s.waiting k = true
  nodup : (pendingOf s.log).Nodup
  count : s.event.pendingPromisesCount = (pendingOf s.log).length

/-- Where the promises that were accepted are. -/
structure Ticketed (s : Lifetime) : Prop where
  idle : ∀ k, s.waiting k = false → s.handle k = none
  unborn : ∀ k, ¬ s.Born k → s.waiting k = false
  accepted : ∀ k loop, .accepted k loop ∈ s.log → s.Born k
  spent : ∀ k, .reacted k ∈ s.log ∨ .collected k ∈ s.log → s.handle k = none ∧ s.Born k
  awaited : ∀ loop, s.handle .respondWith = some loop → Awaited loop s.log

/-- The loops, and the dispatch of the event. -/
structure Dispatched (s : Lifetime) : Prop where
  active : s.active = activeOf s.log
  dispatching : s.event.dispatch = true ↔ Dispatching s.log
  trusted : s.event.trusted = true ↔ .redispatched ∉ s.log
  floor : s.event.trusted = true → s.event.dispatch = true → 0 < s.floor
  floor_le : s.floor ≤ s.active.length

/-- What `respondWith` came to. -/
structure Answered (s : Lifetime) : Prop where
  wait : s.event.waitToRespond = s.respondReaction.isSome
  entered : s.respondReaction.isSome = true → s.event.respondWithEntered = true
  response : ∀ response, s.event.potentialResponse = some response ↔
    ∃ headers, .responded response headers ∈ s.log
  headers : ∀ response headers, .responded response headers ∈ s.log →
    s.event.potentialResponseHeaders = some headers ∨
      (s.event.potentialResponseHeaders = none ∧ .taken ∈ s.log)
  responded : ∀ response headers, .responded response headers ∈ s.log →
    s.event.respondWithEntered = true ∧ s.respondReaction = none

/-- The whole invariant. -/
structure Accounted (s : Lifetime) : Prop where
  balanced : Balanced s
  counted : Counted s
  ticketed : Ticketed s
  dispatched : Dispatched s
  answered : Answered s
  protocol : Kept LifetimeAllowed s.log

variable {s t : Lifetime} {l : List LifetimeRecord} {k : Ticket} {loop : ℕ}

namespace Balanced

/-- Nothing happens to the handles. -/
theorem quiet (h : Balanced s) (hhandle : ∀ k, t.handle k = s.handle k)
    (hinterest : t.interest = s.interest) (hothers : t.others = s.others)
    (hlog : t.log = s.log ++ l) (hl : ∀ r ∈ l, r.unheld = true) : Balanced t := by
  have hheld : heldOf t.log = heldOf s.log := by rw [hlog, heldOf_append hl]
  constructor
  case held => simpa only [hheld, hhandle] using h.held
  case nodup => simpa only [hheld] using h.nodup
  case interest => simpa only [hheld, hinterest, hothers] using h.interest

/-- A promise is accepted that holds no interest. -/
theorem accept (h : Balanced s) (hnone : s.handle k = none) (hself : t.handle k = some loop)
    (hhandle : ∀ k', k' ≠ k → t.handle k' = s.handle k') (hothers : t.others = s.others)
    (hinterest : t.interest = Function.update s.interest loop (s.interest loop + 1))
    (hlog : t.log = s.log ++ [.accepted k loop]) : Balanced t := by
  have hnew : ∀ loop', (k, loop') ∉ heldOf s.log := by
    intro loop' hmem
    rw [h.held, hnone] at hmem
    cases hmem
  constructor
  case held =>
    intro k' loop'
    rw [hlog, heldOf_accepted, List.mem_append, List.mem_singleton, h.held, Prod.mk.injEq]
    by_cases hk : k' = k
    · subst hk
      rw [hnone, hself]
      simp [eq_comm]
    · rw [hhandle k' hk]
      simp [hk]
  case nodup =>
    rw [hlog, heldOf_accepted]
    refine List.nodup_append.mpr ⟨h.nodup, List.nodup_singleton _, ?_⟩
    rintro x hx y hy rfl
    rw [List.mem_singleton.mp hy] at hx
    exact hnew loop hx
  case interest =>
    intro loop'
    rw [hlog, heldOf_accepted, List.countP_append, hinterest, hothers]
    by_cases hloop : loop' = loop
    · subst hloop
      simp [h.interest loop', Nat.add_assoc]
    · simp [hloop, Ne.symm hloop, h.interest loop']

/-- The interest that is held for a promise is released. -/
theorem release (h : Balanced s) (hself : t.handle k = none)
    (hhandle : ∀ k', k' ≠ k → t.handle k' = s.handle k') (hothers : t.others = s.others)
    (hsome : s.handle k = some loop)
    (hinterest : t.interest = Function.update s.interest loop (s.interest loop - 1))
    (hlog : t.log = s.log ++ l ++ [.released k loop]) (hl : ∀ r ∈ l, r.unheld = true) :
    Balanced t := by
  have hheld : heldOf t.log = (heldOf s.log).filter (· ≠ (k, loop)) := by
    rw [hlog, heldOf_released, heldOf_append hl]
  have hmem : (k, loop) ∈ heldOf s.log := (h.held k loop).mpr hsome
  constructor
  case held =>
    intro k' loop'
    rw [hheld, List.mem_filter, h.held]
    by_cases hk : k' = k
    · subst hk
      rw [hself, hsome, Option.some.injEq]
      constructor
      · rintro ⟨heq, hne⟩
        simp [heq] at hne
      · intro hno
        cases hno
    · rw [hhandle k' hk]
      simp [hk]
  case nodup =>
    rw [hheld]
    exact h.nodup.filter _
  case interest =>
    intro loop'
    have hcount := (perm_cons_filter h.nodup hmem).countP_eq (fun x => decide (x.2 = loop'))
    rw [hheld, hinterest, hothers]
    have hloop := h.interest loop'
    rw [hcount, List.countP_cons] at hloop
    by_cases heq : loop' = loop
    · subst heq
      rw [Function.update_self]
      simp only [decide_true, if_true] at hloop
      omega
    · simpa [heq, Ne.symm heq] using hloop

/-- A handle that is held has its unit in the count. -/
theorem pos (h : Balanced s) (hsome : s.handle k = some loop) : 0 < s.interest loop := by
  have hpos : 0 < (heldOf s.log).countP (·.2 = loop) :=
    List.countP_pos_iff.mpr ⟨(k, loop), (h.held k loop).mpr hsome, by simp⟩
  rw [h.interest]
  omega

end Balanced

namespace Counted

/-- Nothing happens to the reactions. -/
theorem quiet (h : Counted s) (hwaiting : ∀ k, t.waiting k = s.waiting k)
    (hcount : t.event.pendingPromisesCount = s.event.pendingPromisesCount)
    (hlog : t.log = s.log ++ l) (hl : ∀ r ∈ l, r.uncounted = true) : Counted t := by
  have hpending : pendingOf t.log = pendingOf s.log := by rw [hlog, pendingOf_append hl]
  constructor
  case waiting => simpa only [hpending, hwaiting] using h.waiting
  case nodup => simpa only [hpending] using h.nodup
  case count => simpa only [hpending, hcount] using h.count

/-- A promise is accepted. -/
theorem accept (h : Counted s) (hnot : s.waiting k = false) (hself : t.waiting k = true)
    (hwaiting : ∀ k', k' ≠ k → t.waiting k' = s.waiting k')
    (hcount : t.event.pendingPromisesCount = s.event.pendingPromisesCount + 1)
    (hlog : t.log = s.log ++ [.accepted k loop]) : Counted t := by
  have hnew : k ∉ pendingOf s.log := by
    rw [h.waiting, hnot]
    exact Bool.false_ne_true
  constructor
  case waiting =>
    intro k'
    rw [hlog, pendingOf_accepted, List.mem_append, List.mem_singleton, h.waiting]
    by_cases hk : k' = k
    · subst hk
      simp [hself]
    · rw [hwaiting k' hk]
      simp [hk]
  case nodup =>
    rw [hlog, pendingOf_accepted]
    refine List.nodup_append.mpr ⟨h.nodup, List.nodup_singleton _, ?_⟩
    rintro x hx y hy rfl
    rw [List.mem_singleton.mp hy] at hx
    exact hnew hx
  case count => rw [hlog, pendingOf_accepted, hcount, h.count, List.length_append]; rfl

/-- The reaction to a promise runs. -/
theorem react (h : Counted s) (hyes : s.waiting k = true) (hself : t.waiting k = false)
    (hwaiting : ∀ k', k' ≠ k → t.waiting k' = s.waiting k')
    (hcount : t.event.pendingPromisesCount = s.event.pendingPromisesCount - 1)
    (hlog : t.log = s.log ++ .reacted k :: l) (hl : ∀ r ∈ l, r.uncounted = true) : Counted t := by
  have hpending : pendingOf t.log = (pendingOf s.log).filter (· ≠ k) := by
    rw [hlog, ← List.singleton_append, ← List.append_assoc, pendingOf_append hl, pendingOf_reacted]
  have hmem : k ∈ pendingOf s.log := (h.waiting k).mpr hyes
  constructor
  case waiting =>
    intro k'
    rw [hpending, List.mem_filter, h.waiting]
    by_cases hk : k' = k
    · subst hk
      simp [hself]
    · rw [hwaiting k' hk]
      simp [hk]
  case nodup =>
    rw [hpending]
    exact h.nodup.filter _
  case count =>
    have hlength := (perm_cons_filter h.nodup hmem).length_eq
    rw [hpending, hcount, h.count, hlength]
    rfl

/-- A reaction that has yet to run has its unit in the count. -/
theorem pos (h : Counted s) (hyes : s.waiting k = true) : 0 < s.event.pendingPromisesCount := by
  rw [h.count]
  exact List.length_pos_of_mem ((h.waiting k).mpr hyes)

end Counted

namespace Ticketed

/-- Nothing happens to the promises. -/
theorem quiet (h : Ticketed s) (hhandle : ∀ k, t.handle k = s.handle k)
    (hwaiting : ∀ k, t.waiting k = s.waiting k) (hborn : ∀ k, t.Born k ↔ s.Born k)
    (hlog : t.log = s.log ++ l) (hl : ∀ r ∈ l, r.ticketless = true) : Ticketed t := by
  have hold {r : LifetimeRecord} (hr : r.ticketless = false) (hmem : r ∈ t.log) : r ∈ s.log := by
    rw [hlog] at hmem
    refine (List.mem_append.mp hmem).resolve_right fun hmem => ?_
    rw [hl r hmem] at hr
    cases hr
  constructor
  case idle => simpa only [hhandle, hwaiting] using h.idle
  case unborn => simpa only [hborn, hwaiting] using h.unborn
  case accepted =>
    intro k loop hmem
    rw [hborn]
    exact h.accepted k loop (hold rfl hmem)
  case spent =>
    intro k hmem
    rw [hborn, hhandle]
    exact h.spent k (hmem.imp (hold rfl) (hold rfl))
  case awaited =>
    intro loop hloop
    rw [hlog]
    refine (h.awaited loop (by rwa [← hhandle])).append ?_
    rintro r hr rfl
    cases hl _ hr

end Ticketed

/-- Nothing happens to the loops and the dispatch. -/
theorem Dispatched.quiet (h : Dispatched s) (hactive : t.active = s.active)
    (hdispatch : t.event.dispatch = s.event.dispatch) (htrusted : t.event.trusted = s.event.trusted)
    (hfloor : t.floor = s.floor) (hlog : t.log = s.log ++ l) (hl : ∀ r ∈ l, r.promised = true) :
    Dispatched t := by
  have hre : .redispatched ∈ t.log ↔ .redispatched ∈ s.log := by
    rw [hlog, List.mem_append, or_iff_left]
    intro hmem
    cases hl _ hmem
  constructor
  case active => rw [hactive, hlog, activeOf_append hl, h.active]
  case dispatching => rw [hdispatch, hlog, dispatching_append hl, h.dispatching]
  case trusted => rw [htrusted, hre, h.trusted]
  case floor => simpa only [htrusted, hdispatch, hfloor] using h.floor
  case floor_le => simpa only [hfloor, hactive] using h.floor_le

/-- Nothing happens to what `respondWith` came to. -/
theorem Answered.quiet (h : Answered s) (hwait : t.event.waitToRespond = s.event.waitToRespond)
    (hreaction : t.respondReaction = s.respondReaction)
    (hentered : t.event.respondWithEntered = s.event.respondWithEntered)
    (hresponse : t.event.potentialResponse = s.event.potentialResponse)
    (hheaders : t.event.potentialResponseHeaders = s.event.potentialResponseHeaders)
    (hlog : t.log = s.log ++ l) (hl : ∀ response headers, .responded response headers ∉ l) :
    Answered t := by
  have hold {response : ℕ} {headers : List (String × String)} :
      .responded response headers ∈ t.log ↔ .responded response headers ∈ s.log := by
    rw [hlog, List.mem_append, or_iff_left (hl response headers)]
  constructor
  case wait => rw [hwait, hreaction, h.wait]
  case entered => simpa only [hreaction, hentered] using h.entered
  case response => simpa only [hresponse, hold] using h.response
  case headers =>
    intro response headers hmem
    rw [hheaders, hlog, List.mem_append]
    exact (h.headers response headers (hold.mp hmem)).imp_right fun ⟨hnone, htaken⟩ =>
      ⟨hnone, .inl htaken⟩
  case responded =>
    intro response headers hmem
    rw [hentered, hreaction]
    exact h.responded response headers (hold.mp hmem)

/-! ### Dropping a handle -/

/-- A handle is dropped that is in the count. -/
def dropped (s : Lifetime) (k : Ticket) : Option ℕ → Lifetime
  | none => s
  | some loop => record { s with interest := Function.update s.interest loop (s.interest loop - 1) }
      (.released k loop)

theorem dropHandle_eq {handle : Option ℕ} (h : ∀ loop, handle = some loop → 0 < s.interest loop) :
    s.dropHandle k handle = .ok (s.dropped k handle) := by
  cases handle with
  | none => rfl
  | some loop =>
    rw [dropHandle, Outcome.guard, if_pos (decide_eq_true (h loop rfl))]
    rfl

variable {handle : Option ℕ}

@[simp] theorem dropped_event : (s.dropped k handle).event = s.event := by
  cases handle <;> rfl

@[simp] theorem dropped_payloads : (s.dropped k handle).payloads = s.payloads := by
  cases handle <;> rfl

@[simp] theorem dropped_nextPayload : (s.dropped k handle).nextPayload = s.nextPayload := by
  cases handle <;> rfl

@[simp] theorem dropped_respondReaction :
    (s.dropped k handle).respondReaction = s.respondReaction := by
  cases handle <;> rfl

@[simp] theorem dropped_collected : (s.dropped k handle).collected = s.collected := by
  cases handle <;> rfl

@[simp] theorem dropped_active : (s.dropped k handle).active = s.active := by
  cases handle <;> rfl

@[simp] theorem dropped_floor : (s.dropped k handle).floor = s.floor := by
  cases handle <;> rfl

@[simp] theorem dropped_log :
    (s.dropped k handle).log = s.log ++ handle.toList.map (.released k) := by
  cases handle with
  | none => exact (List.append_nil _).symm
  | some loop => rfl

@[simp] theorem dropped_handle (k' : Ticket) : (s.dropped k handle).handle k' = s.handle k' := by
  cases k' <;> simp [Lifetime.handle]

@[simp] theorem dropped_waiting (k' : Ticket) : (s.dropped k handle).waiting k' = s.waiting k' := by
  cases k' <;> simp [Lifetime.waiting]

@[simp] theorem dropped_born (k' : Ticket) : (s.dropped k handle).Born k' ↔ s.Born k' := by
  cases k' <;> simp [Born]

/-- The promise of which the handle was holds no interest any more. -/
theorem Balanced.drop (h : Balanced s) (hself : t.handle k = none)
    (hhandle : ∀ k', k' ≠ k → t.handle k' = s.handle k') (hothers : t.others = s.others)
    (hinterest : t.interest = s.interest) (hlog : t.log = s.log ++ l)
    (hl : ∀ r ∈ l, r.unheld = true) : Balanced (t.dropped k (s.handle k)) := by
  cases hs : s.handle k with
  | none =>
    refine h.quiet (fun k' => ?_) hinterest hothers hlog hl
    by_cases hk : k' = k
    · subst hk
      rw [hs]
      exact hself
    · exact hhandle k' hk
  | some loop =>
    refine h.release (t := t.dropped k (some loop)) ?_ (fun k' hk => ?_) hothers hs ?_ ?_ hl
    · rw [dropped_handle, hself]
    · rw [dropped_handle, hhandle k' hk]
    · rw [← hinterest]
      rfl
    · rw [dropped_log, hlog]
      rfl

/-- A handle may be dropped at a reaction, when its payload is collected, or when the response is
abandoned. -/
theorem kept_drop (h : Kept LifetimeAllowed t.log) (hb : Balanced s) (hlog : t.log = s.log ++ l)
    (hl : ∀ r ∈ l, r.unheld = true)
    (hwhy : .reacted k ∈ l ∨ .collected k ∈ l ∨ (k = .respondWith ∧ .abandoned ∈ l)) :
    Kept LifetimeAllowed (t.dropped k (s.handle k)).log := by
  cases hs : s.handle k with
  | none => exact h
  | some loop =>
    rw [dropped_log]
    refine h.concat ⟨?_, ?_⟩
    · rw [hlog, heldOf_append hl]
      exact (hb.held k loop).mpr hs
    · simp only [hlog, List.mem_append]
      tauto

end Lifetime

end FetchEvents
