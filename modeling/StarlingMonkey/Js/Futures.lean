import StarlingMonkey.Js.Promise

/-!
# Where the futures are

Every future that was created is in one place: it is unfinished, it has completed and waits for its
promise to be settled, its promise is being settled, or it was settled or dropped. `Change` says
what one event does to these places and to the log; `Change.accounted` is the step of the invariant,
one case for each kind of change.
-/

namespace Js

open Ledger

/-! ### Records about futures -/

namespace FutureRecord

/-- The future that was created. -/
def created? : FutureRecord → Option ℕ
  | .created id _ _ => some id
  | _ => none

/-- The future that completed. -/
def completed? : FutureRecord → Option ℕ
  | .completed id => some id
  | _ => none

/-- The future whose resolve callback was called. -/
def resolving? : FutureRecord → Option ℕ
  | .resolving id => some id
  | _ => none

/-- The future that settled its promise. -/
def settled? : FutureRecord → Option ℕ
  | .settled id => some id
  | _ => none

/-- The future that was dropped. -/
def dropped? : FutureRecord → Option ℕ
  | .dropped id _ => some id
  | _ => none

/-- The future that was dropped before it completed. -/
def unfinished? : FutureRecord → Option ℕ
  | .dropped id false => some id
  | _ => none

/-- A record that is not about a future. -/
def isNote : FutureRecord → Bool
  | .cancelled _ | .asked .. | .woke _ => true
  | _ => false

end FutureRecord

/-- The futures that a log has records of, of one kind. -/
def idsOf (sel : FutureRecord → Option ℕ) (log : List FutureRecord) : List ℕ := log.filterMap sel

section Logs

variable {sel : FutureRecord → Option ℕ} {log : List FutureRecord} {r : FutureRecord} {id : ℕ}

theorem idsOf_append (sel : FutureRecord → Option ℕ) (l l' : List FutureRecord) :
    idsOf sel (l ++ l') = idsOf sel l ++ idsOf sel l' := List.filterMap_append

theorem idsOf_singleton (sel : FutureRecord → Option ℕ) (r : FutureRecord) :
    idsOf sel [r] = (sel r).toList := by
  cases h : sel r <;> simp [idsOf, h]

theorem mem_idsOf (hr : r ∈ log) (hsel : sel r = some id) : id ∈ idsOf sel log :=
  List.mem_filterMap.mpr ⟨r, hr, hsel⟩

theorem mem_completed (h : id ∈ idsOf FutureRecord.completed? log) : .completed id ∈ log := by
  obtain ⟨r, hr, heq⟩ := List.mem_filterMap.mp h
  cases r with
  | completed id' =>
    cases heq
    exact hr
  | _ => cases heq

/-- When a record may follow others. A future is polled in a turn of its owner, before it completes,
and its promise is settled once, after that; nothing happens to one that was dropped. -/
def Allowed (l : List FutureRecord) : FutureRecord → Prop
  | .polled owner id => .completed id ∉ l ∧ .settled id ∉ l ∧ (∀ c, .dropped id c ∉ l) ∧
      ∃ w p, .created id w p ∈ l ∧ (w = owner ∨ w = 0)
  | .completed id => .completed id ∉ l ∧ .settled id ∉ l ∧ ∀ c, .dropped id c ∉ l
  | .resolving id => .completed id ∈ l ∧ .resolving id ∉ l ∧ .settled id ∉ l ∧
      ∀ c, .dropped id c ∉ l
  | .settled id => .completed id ∈ l ∧ .settled id ∉ l ∧ ∀ c, .dropped id c ∉ l
  | _ => True

/-- A cancellation of the promise of the future returned after the future was created. -/
def Cancelled (l : List FutureRecord) (id : ℕ) : Prop :=
  ∃ l₁ l₂ owner promise, l = l₁ ++ .cancelled promise :: l₂ ∧ .created id owner promise ∈ l₁

/-- A future of the loop was created, and has neither completed nor been dropped. -/
def IsPending (l : List FutureRecord) (owner : ℕ) : Prop :=
  ∃ id promise, .created id owner promise ∈ l ∧ .completed id ∉ l ∧ ∀ c, .dropped id c ∉ l

/-- What cancellations and questions promise: a future whose cancellation has returned is not polled
again, nor is its resolve callback run, and a loop is told of its pending futures. -/
def Honoured (l : List FutureRecord) : FutureRecord → Prop
  | .polled _ id | .resolving id => ¬ Cancelled l id
  | .asked owner answer => IsPending l owner → answer = true
  | _ => True

theorem not_cancelled_nil : ¬ Cancelled [] id := by
  rintro ⟨l₁, l₂, owner, promise, h, -⟩
  simp at h

theorem cancelled_concat : Cancelled (log ++ [r]) id ↔
    Cancelled log id ∨
      ∃ owner promise, r = .cancelled promise ∧ .created id owner promise ∈ log := by
  constructor
  · rintro ⟨l₁, l₂, owner, promise, heq, hmem⟩
    rcases List.eq_nil_or_concat l₂ with rfl | ⟨l₃, r', rfl⟩
    · obtain ⟨rfl, hr⟩ := List.append_inj' heq rfl
      exact .inr ⟨owner, promise, by simpa using hr, hmem⟩
    · rw [List.concat_eq_append, ← List.cons_append, ← List.append_assoc] at heq
      exact .inl ⟨l₁, l₃, owner, promise, (List.append_inj' heq rfl).1, hmem⟩
  · rintro (⟨l₁, l₂, owner, promise, rfl, hmem⟩ | ⟨owner, promise, rfl, hmem⟩)
    · exact ⟨l₁, l₂ ++ [r], owner, promise, by simp, hmem⟩
    · exact ⟨log, [], owner, promise, rfl, hmem⟩

end Logs

/-! ### Places -/

/-- The unfinished futures of a queue. -/
def unfinishedOf (fs : List PendingPromise) : List ℕ :=
  (fs.filter (·.ready.isNone)).map PendingPromise.id

/-- The futures of a queue that the first poll of `spawn_polled` completed. -/
def readyOf (fs : List PendingPromise) : List ℕ :=
  (fs.filter (·.ready.isSome)).map PendingPromise.id

theorem unfinishedOf_append (fs gs : List PendingPromise) :
    unfinishedOf (fs ++ gs) = unfinishedOf fs ++ unfinishedOf gs := by
  simp [unfinishedOf]

theorem readyOf_append (fs gs : List PendingPromise) :
    readyOf (fs ++ gs) = readyOf fs ++ readyOf gs := by
  simp [readyOf]

/-- A queue is split by what is dropped. -/
theorem bill_unfinishedOf_filter (p : PendingPromise → Bool) (fs : List PendingPromise) :
    bill (unfinishedOf (fs.filter p)) + bill (unfinishedOf (fs.filter fun f => !p f)) =
      bill (unfinishedOf fs) := by
  rw [← bill_append, ← unfinishedOf_append]
  exact bill_perm (((List.filter_append_perm p fs).filter _).map _)

theorem bill_readyOf_filter (p : PendingPromise → Bool) (fs : List PendingPromise) :
    bill (readyOf (fs.filter p)) + bill (readyOf (fs.filter fun f => !p f)) =
      bill (readyOf fs) := by
  rw [← bill_append, ← readyOf_append]
  exact bill_perm (((List.filter_append_perm p fs).filter _).map _)

/-- A future that is to be found in a queue as long as it has not run, or completed at once. -/
theorem bill_queue (fs : List PendingPromise) :
    bill (fs.map PendingPromise.id) = bill (unfinishedOf fs) + bill (readyOf fs) := by
  have hsplit := List.filter_append_perm (fun f : PendingPromise => f.ready.isNone) fs
  rw [← bill_perm (hsplit.map PendingPromise.id), List.map_append, bill_append]
  simp [unfinishedOf, readyOf]

namespace Frame

/-- The unfinished futures of a frame. -/
def unfinishedIds (fr : Frame) : List ℕ := unfinishedOf fr.unsettled

/-- The futures of a frame that completed and wait. -/
def waitingIds : Frame → List ℕ
  | .scope _ => []
  | .spawning f => readyOf [f]
  | .polling _ current futures stillPending completed =>
    readyOf (current.toList ++ futures ++ stillPending) ++ completed.map (·.future.id)
  | .settling _ completed => completed.map (·.future.id)

/-- The future whose promise is being settled. -/
def settlingIds : Frame → List ℕ
  | .settling current _ => (current.map (·.future.id)).toList
  | _ => []

/-- A future that is being polled has not completed. -/
def Runs : Frame → Prop
  | .spawning f | .polling _ (some f) _ _ _ => f.ready = none
  | _ => True

end Frame

namespace Futures

/-- The futures the registry holds, and those in progress. -/
def held (s : Futures) : List PendingPromise :=
  s.pending ++ s.active ++ s.frames.flatMap Frame.futures

/-- The unfinished futures. -/
def unfinished (s : Futures) : ℕ → ℤ :=
  bill (unfinishedOf (s.pending ++ s.active) ++ s.frames.flatMap Frame.unfinishedIds)

/-- The futures that completed and wait for their promises to be settled. -/
def waiting (s : Futures) : ℕ → ℤ :=
  bill (readyOf (s.pending ++ s.active) ++ s.frames.flatMap Frame.waitingIds)

/-- The futures whose promises are being settled. -/
def settling (s : Futures) : ℕ → ℤ := bill (s.frames.flatMap Frame.settlingIds)

/-- A future with its owner and its promise. -/
def keys (s : Futures) : List (ℕ × ℕ × ℕ) := s.held.map fun f => (f.id, f.owner, f.promise)

end Futures

/-- What one event does to the places of the futures and to the log. -/
inductive Change (s t : Futures) : Prop where
  /-- Futures stay where they are. -/
  | stay (hnext : t.next = s.next) (hunfinished : t.unfinished = s.unfinished)
      (hwaiting : t.waiting = s.waiting) (hsettling : t.settling = s.settling)
      (hkeys : t.keys ⊆ s.keys) (hlog : t.log = s.log)
  /-- The task that polls is woken. -/
  | wake (owner : ℕ) (hnext : t.next = s.next) (hunfinished : t.unfinished = s.unfinished)
      (hwaiting : t.waiting = s.waiting) (hsettling : t.settling = s.settling)
      (hkeys : t.keys ⊆ s.keys) (hlog : t.log = s.log ++ [.woke owner])
  /-- A future is created. -/
  | create (owner promise : ℕ) (hnext : t.next = s.next + 1)
      (hunfinished : t.unfinished = s.unfinished + bill [s.next]) (hwaiting : t.waiting = s.waiting)
      (hsettling : t.settling = s.settling) (hkeys : t.keys ⊆ (s.next, owner, promise) :: s.keys)
      (hlog : t.log = s.log ++ [.created s.next owner promise])
  /-- A future is polled. -/
  | poll (owner id w p : ℕ) (hid : 1 ≤ s.unfinished id) (hkey : (id, w, p) ∈ s.keys)
      (howner : w = owner ∨ w = 0) (hnext : t.next = s.next)
      (hunfinished : t.unfinished = s.unfinished) (hwaiting : t.waiting = s.waiting)
      (hsettling : t.settling = s.settling) (hkeys : t.keys ⊆ s.keys)
      (hlog : t.log = s.log ++ [.polled owner id])
  /-- A future completes. -/
  | complete (id : ℕ) (hnext : t.next = s.next)
      (hunfinished : s.unfinished = t.unfinished + bill [id])
      (hwaiting : t.waiting = s.waiting + bill [id]) (hsettling : t.settling = s.settling)
      (hkeys : t.keys ⊆ s.keys) (hlog : t.log = s.log ++ [.completed id])
  /-- A promise is about to be settled. -/
  | settle (id : ℕ) (resolves : Bool) (hnext : t.next = s.next)
      (hunfinished : t.unfinished = s.unfinished) (hwaiting : s.waiting = t.waiting + bill [id])
      (hsettling : t.settling = s.settling + bill [id]) (hkeys : t.keys ⊆ s.keys)
      (hlog : t.log = s.log ++ if resolves then [.resolving id] else [])
  /-- A promise was settled. -/
  | settled (id : ℕ) (hnext : t.next = s.next) (hunfinished : t.unfinished = s.unfinished)
      (hwaiting : t.waiting = s.waiting) (hsettling : s.settling = t.settling + bill [id])
      (hkeys : t.keys ⊆ s.keys) (hlog : t.log = s.log ++ [.settled id])
  /-- Futures are dropped. -/
  | drop (fs : List PendingPromise) (hnext : t.next = s.next)
      (hunfinished : s.unfinished = t.unfinished + bill (unfinishedOf fs))
      (hwaiting : s.waiting = t.waiting + bill (readyOf fs)) (hsettling : t.settling = s.settling)
      (hkeys : t.keys ⊆ s.keys)
      (hlog : t.log = s.log ++ fs.map fun f => .dropped f.id f.ready.isSome)

/-! ### The invariant -/

/-- Every future is in one place, and the log says which. -/
structure Accounted (s : Futures) : Prop where
  places : balance s.next (idsOf FutureRecord.settled? s.log ++ idsOf FutureRecord.dropped? s.log) +
    s.unfinished + s.waiting + s.settling = 0
  completed : balance s.next
    (idsOf FutureRecord.completed? s.log ++ idsOf FutureRecord.unfinished? s.log) +
      s.unfinished = 0
  resolving : ∀ id, bill (idsOf FutureRecord.resolving? s.log) id + s.waiting id +
    s.unfinished id ≤ if id < s.next then 1 else 0
  keys : ∀ k ∈ s.keys, .created k.1 k.2.1 k.2.2 ∈ s.log
  created : idsOf FutureRecord.created? s.log = List.range s.next
  unique : ∀ id w p w' p', .created id w p ∈ s.log → .created id w' p' ∈ s.log → w = w' ∧ p = p'
  protocol : Protocol.Kept Allowed s.log

namespace Accounted

variable {s : Futures} {id : ℕ}

theorem nonneg (s : Futures) (id : ℕ) :
    0 ≤ s.unfinished id ∧ 0 ≤ s.waiting id ∧ 0 ≤ s.settling id :=
  ⟨bill_nonneg _ _, bill_nonneg _ _, bill_nonneg _ _⟩

/-- The futures are numbered as they are created. -/
theorem lt_next (h : Accounted s) {w p : ℕ} (hmem : .created id w p ∈ s.log) : id < s.next := by
  have hid := mem_idsOf hmem (show FutureRecord.created? _ = some id from rfl)
  rwa [h.created, List.mem_range] at hid

/-- A future that is held is neither settled nor dropped. -/
theorem not_gone (h : Accounted s) (id : ℕ)
    (hid : 1 ≤ s.unfinished id + s.waiting id + s.settling id) :
    .settled id ∉ s.log ∧ (∀ c, .dropped id c ∉ s.log) ∧ id < s.next := by
  have hplaces := congrFun h.places id
  rw [balance_append] at hplaces
  simp only [balance, bill, Pi.add_apply, Pi.zero_apply] at hplaces
  have hsettled : id ∉ idsOf FutureRecord.settled? s.log := by
    rw [← List.count_eq_zero]
    split_ifs at hplaces <;> omega
  have hdropped : id ∉ idsOf FutureRecord.dropped? s.log := by
    rw [← List.count_eq_zero]
    split_ifs at hplaces <;> omega
  refine ⟨fun hmem => hsettled (mem_idsOf hmem rfl),
    fun c hmem => hdropped (mem_idsOf hmem rfl), ?_⟩
  by_contra hlt
  rw [if_neg hlt] at hplaces
  omega

/-- A future that is unfinished has not completed. -/
theorem not_completed (h : Accounted s) (hid : 1 ≤ s.unfinished id) : .completed id ∉ s.log := by
  intro hmem
  have hpos := one_le_bill (mem_idsOf hmem (show FutureRecord.completed? _ = some id from rfl))
  have hcompleted := congrFun h.completed id
  rw [balance_append] at hcompleted
  have hunfinished := bill_nonneg (idsOf FutureRecord.unfinished? s.log) id
  simp only [balance, bill, Pi.add_apply, Pi.zero_apply] at hcompleted hpos hunfinished
  split_ifs at hcompleted <;> omega

/-- A future that is held and not unfinished has completed. -/
theorem has_completed (h : Accounted s) (hid : 1 ≤ s.waiting id + s.settling id) :
    .completed id ∈ s.log := by
  obtain ⟨hu, hw, hs⟩ := nonneg s id
  obtain ⟨hsettled, hdropped, hlt⟩ := h.not_gone id (by omega)
  have hplaces := congrFun h.places id
  have hcompleted := congrFun h.completed id
  rw [balance_append] at hplaces hcompleted
  have hunfinished : (idsOf FutureRecord.unfinished? s.log).count id = 0 := by
    rw [List.count_eq_zero]
    intro hmem
    obtain ⟨r, hr, heq⟩ := List.mem_filterMap.mp hmem
    cases r with
    | dropped id' c =>
      cases c with
      | false =>
        cases heq
        exact hdropped _ hr
      | true => cases heq
    | _ => cases heq
  refine mem_completed (mem_of_bill ?_)
  simp only [balance, bill, Pi.add_apply, Pi.zero_apply, if_pos hlt] at hplaces hcompleted ⊢
  omega

/-- The resolve callback of a future that waits was not called. -/
theorem not_resolving (h : Accounted s) (hid : 1 ≤ s.waiting id) : .resolving id ∉ s.log := by
  intro hmem
  have hpos := one_le_bill (mem_idsOf hmem (show FutureRecord.resolving? _ = some id from rfl))
  have hle := h.resolving id
  have hu := (nonneg s id).1
  split_ifs at hle <;> omega

end Accounted

theorem idsOf_dropped (fs : List PendingPromise) :
    idsOf FutureRecord.dropped? (fs.map fun f => .dropped f.id f.ready.isSome) =
      fs.map PendingPromise.id := by
  induction fs with
  | nil => rfl
  | cons f fs ih =>
    rw [List.map_cons, List.map_cons, ← ih]
    rfl

theorem idsOf_unfinished (fs : List PendingPromise) :
    idsOf FutureRecord.unfinished? (fs.map fun f => .dropped f.id f.ready.isSome) =
      unfinishedOf fs := by
  induction fs with
  | nil => rfl
  | cons f fs ih =>
    rw [List.map_cons]
    cases hf : f.ready with
    | none =>
      simp only [idsOf, unfinishedOf, List.filterMap_cons, FutureRecord.unfinished?, hf,
        Option.isSome_none, List.filter_cons, Option.isNone_none, if_true, List.map_cons] at ih ⊢
      rw [ih]
    | some c =>
      simp only [idsOf, unfinishedOf, List.filterMap_cons, FutureRecord.unfinished?, hf,
        Option.isSome_some, List.filter_cons, Option.isNone_some, Bool.false_eq_true,
        if_false] at ih ⊢
      exact ih

theorem idsOf_eq_nil {sel : FutureRecord → Option ℕ} {l : List FutureRecord}
    (h : ∀ r ∈ l, sel r = none) : idsOf sel l = [] := by
  rw [idsOf, List.filterMap_eq_nil_iff]
  exact h

namespace Change

variable {s t : Futures}

/-- **A change that creates no future** keeps the account if its records come to what it moves. -/
theorem accounted_of_moved (h : Accounted s) {l : List FutureRecord} (hnext : t.next = s.next)
    (hkeys : t.keys ⊆ s.keys) (hlog : t.log = s.log ++ l) (hcreated : ∀ r ∈ l, r.created? = none)
    (hplaces : bill (idsOf FutureRecord.settled? l) + bill (idsOf FutureRecord.dropped? l) +
      (t.unfinished + t.waiting + t.settling) = s.unfinished + s.waiting + s.settling)
    (hcompleted : bill (idsOf FutureRecord.completed? l) + bill (idsOf FutureRecord.unfinished? l) +
      t.unfinished = s.unfinished)
    (hresolving : ∀ id, bill (idsOf FutureRecord.resolving? l) id + t.waiting id +
      t.unfinished id ≤ s.waiting id + s.unfinished id)
    (hprotocol : Protocol.Kept Allowed t.log) : Accounted t where
  places := by
    rw [← h.places, hlog, hnext]
    simp only [idsOf_append, balance_append, bill_append]
    rw [add_assoc _ s.waiting, add_assoc _ s.unfinished, ← add_assoc s.unfinished, ← hplaces]
    abel
  completed := by
    rw [← h.completed, hlog, hnext, ← hcompleted]
    simp only [idsOf_append, balance_append, bill_append]
    abel
  resolving id := by
    have hle := h.resolving id
    have hmoved := hresolving id
    rw [hlog, hnext, idsOf_append, bill_append, Pi.add_apply]
    omega
  keys k hk := by
    rw [hlog]
    exact List.mem_append_left _ (h.keys k (hkeys hk))
  created := by rw [hlog, idsOf_append, idsOf_eq_nil hcreated, List.append_nil, hnext, h.created]
  unique id w p w' p' hmem hmem' := by
    have hold {id w p} (hmem : .created id w p ∈ t.log) : .created id w p ∈ s.log := by
      rw [hlog] at hmem
      rcases List.mem_append.mp hmem with hmem | hmem
      · exact hmem
      · cases hcreated _ hmem
    exact h.unique id w p w' p' (hold hmem) (hold hmem')
  protocol := hprotocol

/-- The records of a change that are about no future's progress. -/
theorem accounted_of_quiet (h : Accounted s) {l : List FutureRecord} (hnext : t.next = s.next)
    (hunfinished : t.unfinished = s.unfinished) (hwaiting : t.waiting = s.waiting)
    (hsettling : t.settling = s.settling) (hkeys : t.keys ⊆ s.keys) (hlog : t.log = s.log ++ l)
    (hsel : ∀ r ∈ l, r.settled? = none ∧ r.dropped? = none ∧ r.completed? = none ∧
      r.unfinished? = none ∧ r.resolving? = none ∧ r.created? = none)
    (hprotocol : Protocol.Kept Allowed t.log) : Accounted t := by
  refine accounted_of_moved h hnext hkeys hlog (fun r hr => (hsel r hr).2.2.2.2.2) ?_ ?_ ?_
    hprotocol
  · rw [idsOf_eq_nil fun r hr => (hsel r hr).1, idsOf_eq_nil fun r hr => (hsel r hr).2.1,
      hunfinished, hwaiting, hsettling, bill_nil, zero_add, zero_add]
  · rw [idsOf_eq_nil fun r hr => (hsel r hr).2.2.1, idsOf_eq_nil fun r hr => (hsel r hr).2.2.2.1,
      hunfinished, bill_nil, zero_add, zero_add]
  · intro id
    rw [idsOf_eq_nil fun r hr => (hsel r hr).2.2.2.2.1, hunfinished, hwaiting, bill_nil,
      Pi.zero_apply, zero_add]

/-- A record that is not about a future. -/
theorem accounted_record (h : Accounted s) {r : FutureRecord} (hr : r.isNote = true) :
    Accounted (s.record r) := by
  refine accounted_of_quiet h rfl rfl rfl rfl (List.Subset.refl _) rfl ?_ ?_
  · rintro r' hr'
    rw [List.mem_singleton.mp hr']
    cases r <;> first | exact ⟨rfl, rfl, rfl, rfl, rfl, rfl⟩ | cases hr
  · refine h.protocol.concat ?_
    cases r <;> trivial

/-- A future is created, and is unfinished. -/
theorem accounted_create (h : Accounted s) {owner promise : ℕ} (hnext : t.next = s.next + 1)
    (hunfinished : t.unfinished = s.unfinished + bill [s.next]) (hwaiting : t.waiting = s.waiting)
    (hsettling : t.settling = s.settling) (hkeys : t.keys ⊆ (s.next, owner, promise) :: s.keys)
    (hlog : t.log = s.log ++ [.created s.next owner promise]) : Accounted t := by
  have hlog' (sel : FutureRecord → Option ℕ) (hsel : sel (.created s.next owner promise) = none) :
      idsOf sel t.log = idsOf sel s.log := by
    rw [hlog, idsOf_append, idsOf_singleton, hsel]
    exact List.append_nil _
  exact {
    places := by
      rw [hlog' _ rfl, hlog' _ rfl, hnext, balance_succ, hunfinished, hwaiting, hsettling,
        ← h.places]
      abel
    completed := by
      rw [hlog' _ rfl, hlog' _ rfl, hnext, balance_succ, hunfinished, ← h.completed]
      abel
    resolving := fun id => by
      have hle := h.resolving id
      rw [hlog' _ rfl, hnext, hunfinished, hwaiting]
      simp only [Pi.add_apply, bill, List.count_singleton, beq_iff_eq] at hle ⊢
      split_ifs at hle ⊢ <;> omega
    keys := fun k hk => by
      rw [hlog]
      rcases List.mem_cons.mp (hkeys hk) with rfl | hk
      · exact List.mem_append_right _ (List.mem_singleton_self _)
      · exact List.mem_append_left _ (h.keys k hk)
    created := by
      rw [hlog, idsOf_append, idsOf_singleton, h.created, hnext, List.range_succ]
      rfl
    -- the number of the new future is not the number of an old one
    unique := fun id w p w' p' hmem hmem' => by
      rw [hlog] at hmem hmem'
      rcases List.mem_append.mp hmem with hmem | hmem
      · rcases List.mem_append.mp hmem' with hmem' | hmem'
        · exact h.unique id w p w' p' hmem hmem'
        · cases List.mem_singleton.mp hmem'
          exact absurd (h.lt_next hmem) (lt_irrefl _)
      · cases List.mem_singleton.mp hmem
        rcases List.mem_append.mp hmem' with hmem' | hmem'
        · exact absurd (h.lt_next hmem') (lt_irrefl _)
        · cases List.mem_singleton.mp hmem'
          exact ⟨rfl, rfl⟩
    protocol := by
      rw [hlog]
      exact h.protocol.concat trivial }

/-- A future that is unfinished completes, and waits. -/
theorem accounted_complete (h : Accounted s) {id : ℕ} (hnext : t.next = s.next)
    (hunfinished : s.unfinished = t.unfinished + bill [id])
    (hwaiting : t.waiting = s.waiting + bill [id]) (hsettling : t.settling = s.settling)
    (hkeys : t.keys ⊆ s.keys) (hlog : t.log = s.log ++ [.completed id]) : Accounted t := by
  have hid : 1 ≤ s.unfinished id := by
    have hpos := one_le_bill (List.mem_singleton_self id)
    have hu := (Accounted.nonneg t id).1
    rw [hunfinished, Pi.add_apply]
    omega
  obtain ⟨-, hw, hs⟩ := Accounted.nonneg s id
  obtain ⟨hsettled, hdropped, -⟩ := h.not_gone id (by omega)
  refine accounted_of_moved h hnext hkeys hlog (by simp [FutureRecord.created?]) ?_ ?_ ?_ ?_
  · simp only [idsOf_singleton, FutureRecord.settled?, FutureRecord.dropped?, Option.toList_none,
      bill_nil, hunfinished, hwaiting, hsettling]
    abel
  · simp only [idsOf_singleton, FutureRecord.completed?, FutureRecord.unfinished?,
      Option.toList_some, Option.toList_none, bill_nil, hunfinished]
    abel
  · intro id'
    simp only [idsOf_singleton, FutureRecord.resolving?, Option.toList_none, bill_nil, hunfinished,
      hwaiting, Pi.zero_apply, Pi.add_apply]
    omega
  · rw [hlog]
    exact h.protocol.concat ⟨h.not_completed hid, hsettled, hdropped⟩

/-- The promise of a future that waits is about to be settled. -/
theorem accounted_settle (h : Accounted s) {id : ℕ} {resolves : Bool} (hnext : t.next = s.next)
    (hunfinished : t.unfinished = s.unfinished) (hwaiting : s.waiting = t.waiting + bill [id])
    (hsettling : t.settling = s.settling + bill [id]) (hkeys : t.keys ⊆ s.keys)
    (hlog : t.log = s.log ++ if resolves then [.resolving id] else []) : Accounted t := by
  have hid : 1 ≤ s.waiting id := by
    have hpos := one_le_bill (List.mem_singleton_self id)
    have hw := (Accounted.nonneg t id).2.1
    rw [hwaiting, Pi.add_apply]
    omega
  obtain ⟨hu, -, hs⟩ := Accounted.nonneg s id
  obtain ⟨hsettled, hdropped, -⟩ := h.not_gone id (by omega)
  have hnil {sel : FutureRecord → Option ℕ} (hsel : sel (.resolving id) = none) :
      idsOf sel (if resolves then [.resolving id] else []) = [] := by
    cases resolves
    · rfl
    · rw [if_pos rfl, idsOf_singleton, hsel]
      rfl
  refine accounted_of_moved h hnext hkeys hlog ?_ ?_ ?_ ?_ ?_
  · cases resolves <;> simp [FutureRecord.created?]
  · rw [hnil rfl, hnil rfl, hunfinished, hwaiting, hsettling, bill_nil]
    abel
  · rw [hnil rfl, hnil rfl, hunfinished, bill_nil, zero_add, zero_add]
  · -- a promise that is resolved has its record, and one that is rejected none
    intro id'
    have hpos := bill_nonneg [id] id'
    rw [hunfinished, hwaiting, Pi.add_apply]
    cases resolves with
    | true =>
      rw [if_pos rfl, idsOf_singleton]
      simp only [FutureRecord.resolving?, Option.toList_some]
      omega
    | false =>
      simp only [Bool.false_eq_true, if_false, idsOf, List.filterMap_nil, bill_nil, Pi.zero_apply]
      omega
  · rw [hlog]
    cases resolves with
    | true =>
      exact h.protocol.concat
        ⟨h.has_completed (by omega), h.not_resolving hid, hsettled, hdropped⟩
    | false => simpa using h.protocol

/-- The promise of a future was settled. -/
theorem accounted_settled (h : Accounted s) {id : ℕ} (hnext : t.next = s.next)
    (hunfinished : t.unfinished = s.unfinished) (hwaiting : t.waiting = s.waiting)
    (hsettling : s.settling = t.settling + bill [id]) (hkeys : t.keys ⊆ s.keys)
    (hlog : t.log = s.log ++ [.settled id]) : Accounted t := by
  have hid : 1 ≤ s.settling id := by
    have hpos := one_le_bill (List.mem_singleton_self id)
    have hs := (Accounted.nonneg t id).2.2
    rw [hsettling, Pi.add_apply]
    omega
  obtain ⟨hu, hw, -⟩ := Accounted.nonneg s id
  obtain ⟨hsettled, hdropped, -⟩ := h.not_gone id (by omega)
  refine accounted_of_moved h hnext hkeys hlog (by simp [FutureRecord.created?]) ?_ ?_ ?_ ?_
  · simp only [idsOf_singleton, FutureRecord.settled?, FutureRecord.dropped?, Option.toList_some,
      Option.toList_none, bill_nil, hunfinished, hwaiting, hsettling]
    abel
  · simp only [idsOf_singleton, FutureRecord.completed?, FutureRecord.unfinished?,
      Option.toList_none, bill_nil, hunfinished, zero_add]
  · intro id'
    simp only [idsOf_singleton, FutureRecord.resolving?, Option.toList_none, bill_nil, hunfinished,
      hwaiting, Pi.zero_apply, zero_add]
    exact le_rfl
  · rw [hlog]
    exact h.protocol.concat ⟨h.has_completed (by omega), hsettled, hdropped⟩

/-- Futures of the queues are dropped. -/
theorem accounted_drop (h : Accounted s) {fs : List PendingPromise} (hnext : t.next = s.next)
    (hunfinished : s.unfinished = t.unfinished + bill (unfinishedOf fs))
    (hwaiting : s.waiting = t.waiting + bill (readyOf fs)) (hsettling : t.settling = s.settling)
    (hkeys : t.keys ⊆ s.keys)
    (hlog : t.log = s.log ++ fs.map fun f => .dropped f.id f.ready.isSome) : Accounted t := by
  have hnil {sel : FutureRecord → Option ℕ} (hsel : ∀ id c, sel (.dropped id c) = none) :
      idsOf sel (fs.map fun f => .dropped f.id f.ready.isSome) = [] := by
    refine idsOf_eq_nil fun r hr => ?_
    obtain ⟨f, -, rfl⟩ := List.mem_map.mp hr
    exact hsel _ _
  refine accounted_of_moved h hnext hkeys hlog ?_ ?_ ?_ ?_ ?_
  · rintro r hr
    obtain ⟨f, -, rfl⟩ := List.mem_map.mp hr
    rfl
  · rw [hnil fun _ _ => rfl, idsOf_dropped, bill_queue, hunfinished, hwaiting, hsettling, bill_nil]
    abel
  · rw [hnil fun _ _ => rfl, idsOf_unfinished, hunfinished, bill_nil]
    abel
  · intro id
    have hpos := bill_nonneg (unfinishedOf fs) id
    have hpos' := bill_nonneg (readyOf fs) id
    rw [hnil fun _ _ => rfl, hunfinished, hwaiting, bill_nil]
    simp only [Pi.zero_apply, Pi.add_apply]
    omega
  · rw [hlog]
    refine h.protocol.append fun r hr m => ?_
    obtain ⟨f, -, rfl⟩ := List.mem_map.mp hr
    trivial

/-- **One change** keeps every future accounted for. -/
theorem accounted (hc : Change s t) (h : Accounted s) : Accounted t := by
  cases hc with
  | stay hnext hunfinished hwaiting hsettling hkeys hlog =>
    refine accounted_of_quiet h (l := []) hnext hunfinished hwaiting hsettling hkeys
      (by simpa using hlog) (by simp) ?_
    rw [hlog]
    exact h.protocol
  | wake owner hnext hunfinished hwaiting hsettling hkeys hlog =>
    refine accounted_of_quiet h hnext hunfinished hwaiting hsettling hkeys hlog ?_ ?_
    · rintro r hr
      rw [List.mem_singleton.mp hr]
      exact ⟨rfl, rfl, rfl, rfl, rfl, rfl⟩
    · rw [hlog]
      exact h.protocol.concat trivial
  | create owner promise hnext hunfinished hwaiting hsettling hkeys hlog =>
    exact accounted_create h hnext hunfinished hwaiting hsettling hkeys hlog
  | poll owner id w p hid hkey howner hnext hunfinished hwaiting hsettling hkeys hlog =>
    refine accounted_of_quiet h hnext hunfinished hwaiting hsettling hkeys hlog ?_ ?_
    · rintro r hr
      rw [List.mem_singleton.mp hr]
      exact ⟨rfl, rfl, rfl, rfl, rfl, rfl⟩
    · rw [hlog]
      obtain ⟨-, hw, hs⟩ := Accounted.nonneg s id
      obtain ⟨hsettled, hdropped, -⟩ := h.not_gone id (by omega)
      exact h.protocol.concat
        ⟨h.not_completed hid, hsettled, hdropped, w, p, h.keys _ hkey, howner⟩
  | complete id hnext hunfinished hwaiting hsettling hkeys hlog =>
    exact accounted_complete h hnext hunfinished hwaiting hsettling hkeys hlog
  | settle id resolves hnext hunfinished hwaiting hsettling hkeys hlog =>
    exact accounted_settle h hnext hunfinished hwaiting hsettling hkeys hlog
  | settled id hnext hunfinished hwaiting hsettling hkeys hlog =>
    exact accounted_settled h hnext hunfinished hwaiting hsettling hkeys hlog
  | drop fs hnext hunfinished hwaiting hsettling hkeys hlog =>
    exact accounted_drop h hnext hunfinished hwaiting hsettling hkeys hlog

end Change

/-! ### Steps -/

namespace Futures

variable {s t : Futures} {fr fr' : Frame} {frames : List Frame}

section Frames

variable (hs : s.frames = fr :: frames) (ht : t.frames = fr' :: frames)
  (hpending : t.pending = s.pending) (hactive : t.active = s.active) {x : ℕ → ℤ}

include hs ht

theorem settling_frame (h : bill fr.settlingIds = bill fr'.settlingIds + x) :
    s.settling = t.settling + x := by
  simp only [settling, hs, ht, List.flatMap_cons, bill_append, h]
  abel

/-- What a change of the frame on top comes to. -/
theorem mem_frames (hruns : ∀ f ∈ s.frames, f.Runs) (hfr : fr'.Runs) : ∀ f ∈ t.frames, f.Runs := by
  intro f hf
  rw [ht] at hf
  rcases List.mem_cons.mp hf with rfl | hf
  · exact hfr
  · exact hruns f (by rw [hs]; exact List.mem_cons_of_mem _ hf)

include hpending hactive

theorem unfinished_frame (h : bill fr.unfinishedIds = bill fr'.unfinishedIds + x) :
    s.unfinished = t.unfinished + x := by
  simp only [unfinished, hs, ht, hpending, hactive, List.flatMap_cons, bill_append, h]
  abel

theorem waiting_frame (h : bill fr.waitingIds = bill fr'.waitingIds + x) :
    s.waiting = t.waiting + x := by
  simp only [waiting, hs, ht, hpending, hactive, List.flatMap_cons, bill_append, h]
  abel

theorem keys_frame (hfutures : fr'.futures ⊆ fr.futures) : t.keys ⊆ s.keys := by
  refine List.map_subset _ ?_
  simp only [held, hs, ht, hpending, hactive, List.flatMap_cons]
  intro f hf
  simp only [List.mem_append] at hf ⊢
  rcases hf with hf | hf | hf
  · exact .inl hf
  · exact .inr (.inl (hfutures hf))
  · exact .inr (.inr hf)

/-- A frame on top that passes futures on from one of its lists to another. -/
theorem stay_frame (hunfinished : bill fr'.unfinishedIds = bill fr.unfinishedIds)
    (hwaiting : bill fr'.waitingIds = bill fr.waitingIds)
    (hsettling : bill fr'.settlingIds = bill fr.settlingIds) (hfutures : fr'.futures ⊆ fr.futures)
    (hnext : t.next = s.next) (hlog : t.log = s.log) : Change s t := by
  have hu := unfinished_frame hs ht hpending hactive (x := 0) (by simp [hunfinished])
  have hw := waiting_frame hs ht hpending hactive (x := 0) (by simp [hwaiting])
  have hse := settling_frame hs ht (x := 0) (by simp [hsettling])
  rw [add_zero] at hu hw hse
  exact .stay hnext hu.symm hw.symm hse.symm (keys_frame hs ht hpending hactive hfutures) hlog

end Frames

/-- What one event comes to: at most two changes, and futures run that have not completed. -/
def Changes (s t : Futures) : Prop :=
  (Change s t ∨ ∃ u, Change s u ∧ Change u t) ∧ ∀ fr ∈ t.frames, fr.Runs

theorem changes_refl (hruns : ∀ fr ∈ s.frames, fr.Runs) : Changes s s :=
  ⟨.inl (.stay rfl rfl rfl rfl (List.Subset.refl _) rfl), hruns⟩

/-- Dropping the futures of the lists that match. -/
theorem change_dropMatching (s : Futures) (p : PendingPromise → Bool) :
    Change s (s.dropMatching p) := by
  refine .drop ((s.pending ++ s.active).filter p) rfl ?_ ?_ rfl ?_ rfl
  · simp only [unfinished, dropMatching, bill_append, ← List.filter_append]
    rw [← bill_unfinishedOf_filter p (s.pending ++ s.active)]
    abel
  · simp only [waiting, dropMatching, bill_append, ← List.filter_append]
    rw [← bill_readyOf_filter p (s.pending ++ s.active)]
    abel
  · refine List.map_subset _ ?_
    simp only [held, dropMatching]
    intro f hf
    simp only [List.mem_append] at hf ⊢
    rcases hf with (hf | hf) | hf
    · exact .inl (.inl (List.mem_of_mem_filter hf))
    · exact .inl (.inr (List.mem_of_mem_filter hf))
    · exact .inr hf

/-- The futures of `spawn` and `spawn_polled` begin. -/
theorem change_create (s : Futures) (promise : ℕ) {v : Futures}
    (hheld : v.held.Perm (⟨s.next, s.currentOwner, promise, none⟩ :: s.held))
    (hunfinished : v.unfinished = s.unfinished + bill [s.next]) (hwaiting : v.waiting = s.waiting)
    (hsettling : v.settling = s.settling) (hnext : v.next = s.next + 1)
    (hlog : v.log = s.log ++ [.created s.next s.currentOwner promise]) : Change s v := by
  refine .create s.currentOwner promise hnext hunfinished hwaiting hsettling ?_ hlog
  intro k hk
  obtain ⟨f, hf, rfl⟩ := List.mem_map.mp hk
  rcases List.mem_cons.mp (hheld.subset hf) with rfl | hf
  · exact List.mem_cons_self
  · exact List.mem_cons_of_mem _ (List.mem_map_of_mem hf)

/-- A frame that holds nothing may be entered and left. -/
theorem stay_empty (hframes : t.frames = f :: s.frames ∨ s.frames = f :: t.frames)
    (hfr : f.futures = []) (hpending : t.pending = s.pending) (hactive : t.active = s.active)
    (hnext : t.next = s.next) (hlog : t.log = s.log) : Change s t := by
  have hu : f.unfinishedIds = [] := by
    have h := (List.append_eq_nil_iff.mp hfr).1
    rw [Frame.unfinishedIds, h]
    rfl
  have hw : f.waitingIds = [] ∧ f.settlingIds = [] := by
    cases f with
    | scope owner => exact ⟨rfl, rfl⟩
    | spawning f => simp [Frame.futures, Frame.unsettled] at hfr
    | polling owner current futures stillPending completed =>
      simp only [Frame.futures, Frame.unsettled, Frame.completed, List.append_eq_nil_iff,
        List.map_eq_nil_iff] at hfr
      obtain ⟨⟨⟨h₁, h₂⟩, h₃⟩, h₄⟩ := hfr
      simp [Frame.waitingIds, Frame.settlingIds, h₁, h₂, h₃, h₄, readyOf]
    | settling current completed =>
      simp only [Frame.futures, Frame.unsettled, Frame.completed, List.nil_append,
        List.map_eq_nil_iff, List.append_eq_nil_iff, Option.toList_eq_nil_iff] at hfr
      simp [Frame.waitingIds, Frame.settlingIds, hfr.1, hfr.2]
  rcases hframes with hframes | hframes
  · refine .stay hnext ?_ ?_ ?_ ?_ hlog
    · simp [unfinished, hframes, hpending, hactive, hu]
    · simp [waiting, hframes, hpending, hactive, hw.1]
    · simp [settling, hframes, hw.2]
    · simp [keys, held, hframes, hpending, hactive, hfr]
  · refine .stay hnext ?_ ?_ ?_ ?_ hlog
    · simp [unfinished, hframes, hpending, hactive, hu]
    · simp [waiting, hframes, hpending, hactive, hw.1]
    · simp [settling, hframes, hw.2]
    · simp [keys, held, hframes, hpending, hactive, hfr]

theorem bill_unfinishedOf_cons (f : PendingPromise) (fs : List PendingPromise) :
    bill (unfinishedOf (f :: fs)) = bill (unfinishedOf [f]) + bill (unfinishedOf fs) := by
  rw [← bill_append, ← unfinishedOf_append]
  rfl

theorem bill_readyOf_cons (f : PendingPromise) (fs : List PendingPromise) :
    bill (readyOf (f :: fs)) = bill (readyOf [f]) + bill (readyOf fs) := by
  rw [← bill_append, ← readyOf_append]
  rfl

section Single

variable {f : PendingPromise}

theorem unfinishedOf_none (h : f.ready = none) : unfinishedOf [f] = [f.id] := by
  simp [unfinishedOf, h]

theorem readyOf_none (h : f.ready = none) : readyOf [f] = [] := by
  simp [readyOf, h]

theorem unfinishedOf_some {c : Bool} (h : f.ready = some c) : unfinishedOf [f] = [] := by
  simp [unfinishedOf, h]

theorem readyOf_some {c : Bool} (h : f.ready = some c) : readyOf [f] = [f.id] := by
  simp [readyOf, h]

end Single

/-- The first poll of `spawn_polled` begins. -/
theorem changes_spawnPolled (promise : ℕ) (hruns : ∀ fr ∈ s.frames, fr.Runs)
    (ht : s.step (.spawnPolled promise) = .ok t) : Changes s t := by
  obtain rfl := Outcome.ok.inj ht
  have hcreate : Change s (record { s with
      frames := .spawning ⟨s.next, s.currentOwner, promise, none⟩ :: s.frames
      next := s.next + 1 } (.created s.next s.currentOwner promise)) := by
    refine change_create s promise ?_ ?_ ?_ ?_ rfl rfl
    · simp only [held, record, List.flatMap_cons]
      exact List.perm_middle
    · simp only [unfinished, record, List.flatMap_cons, bill_append, Frame.unfinishedIds,
        Frame.unsettled, unfinishedOf_none]
      abel
    · simp [waiting, record, Frame.waitingIds, readyOf]
    · simp [settling, record, Frame.settlingIds]
  refine ⟨.inr ⟨_, hcreate, .poll s.currentOwner s.next s.currentOwner promise ?_ ?_ (.inl rfl)
    rfl rfl rfl rfl (List.Subset.refl _) rfl⟩, ?_⟩
  · refine one_le_bill (List.mem_append_right _ ?_)
    simp [record, Frame.unfinishedIds, Frame.unsettled, unfinishedOf]
  · refine List.mem_map.mpr ⟨⟨s.next, s.currentOwner, promise, none⟩, ?_, rfl⟩
    simp [held, record, Frame.futures, Frame.unsettled]
  · rintro fr (_ | ⟨_, hfr⟩)
    · rfl
    · exact hruns fr hfr

/-- The first poll of `spawn_polled` returns. -/
theorem changes_firstPolled (outcome : Option Bool) (hruns : ∀ fr ∈ s.frames, fr.Runs)
    (ht : s.step (.firstPolled outcome) = .ok t) : Changes s t := by
  rw [step] at ht
  split at ht
  next f frames hfs =>
    have hf : f.ready = none := hruns (.spawning f) (by rw [hfs]; exact List.mem_cons_self)
    have hrest : ∀ fr ∈ frames, fr.Runs := fun fr hfr =>
      hruns fr (by rw [hfs]; exact List.mem_cons_of_mem _ hfr)
    have hkeys {v : Futures} (hpending : v.pending = s.pending ++ [{ f with ready := outcome }])
        (hactive : v.active = s.active) (hframes : v.frames = frames) : v.keys ⊆ s.keys := by
      intro k hk
      simp only [keys, held, hpending, hactive, hframes, hfs, Frame.futures, Frame.unsettled,
        Frame.completed, List.flatMap_cons, List.map_append, List.mem_append, List.map_cons,
        List.map_nil, List.append_nil, List.mem_singleton] at hk ⊢
      tauto
    have hplaces {v : Futures} (hpending : v.pending = s.pending ++ [{ f with ready := outcome }])
        (hactive : v.active = s.active) (hframes : v.frames = frames) :
        s.unfinished + bill (unfinishedOf [{ f with ready := outcome }]) =
            v.unfinished + bill [f.id] ∧
          v.waiting = s.waiting + bill (readyOf [{ f with ready := outcome }]) ∧
          v.settling = s.settling := by
      refine ⟨?_, ?_, ?_⟩
      · simp only [unfinished, hfs, hpending, hactive, hframes, List.flatMap_cons,
          Frame.unfinishedIds, Frame.unsettled, unfinishedOf_append, bill_append,
          unfinishedOf_none hf]
        abel
      · simp only [waiting, hfs, hpending, hactive, hframes, List.flatMap_cons, Frame.waitingIds,
          readyOf_append, bill_append, readyOf_none hf, bill_nil]
        abel
      · simp [settling, hfs, hframes, Frame.settlingIds]
    cases outcome with
    | none =>
      obtain rfl : { s with frames, pending := s.pending ++ [{ f with ready := none }] } = t :=
        Outcome.ok.inj ht
      obtain ⟨hu, hw, hse⟩ := hplaces (v := { s with
        frames, pending := s.pending ++ [{ f with ready := none }] }) rfl rfl rfl
      rw [unfinishedOf_none (f := { f with ready := none }) rfl] at hu
      rw [readyOf_none (f := { f with ready := none }) rfl, bill_nil, add_zero] at hw
      exact ⟨.inl (.stay rfl (add_right_cancel hu).symm hw hse (hkeys rfl rfl rfl) rfl), hrest⟩
    | some resolves =>
      obtain rfl : record { s with
          frames, pending := s.pending ++ [{ f with ready := some resolves }] }
          (.completed f.id) = t := Outcome.ok.inj ht
      obtain ⟨hu, hw, hse⟩ := hplaces (v := record { s with
        frames, pending := s.pending ++ [{ f with ready := some resolves }] }
        (.completed f.id)) rfl rfl rfl
      rw [unfinishedOf_some (f := { f with ready := some resolves }) rfl, bill_nil, add_zero] at hu
      rw [readyOf_some (f := { f with ready := some resolves }) rfl] at hw
      exact ⟨.inl (.complete f.id rfl hu hw hse (hkeys rfl rfl rfl) rfl), hrest⟩
  next =>
    obtain rfl := Outcome.ok.inj ht
    exact changes_refl hruns

/-- A poll turn takes all futures. -/
theorem changes_turn (owner : ℕ) (hruns : ∀ fr ∈ s.frames, fr.Runs)
    (ht : s.step (.turn owner) = .ok t) : Changes s t := by
  obtain rfl := Outcome.ok.inj ht
  refine ⟨.inl (.stay rfl ?_ ?_ ?_ ?_ rfl), ?_⟩
  · simp only [unfinished, List.flatMap_cons, Frame.unfinishedIds, Frame.unsettled,
      Option.toList_none, List.nil_append, List.append_nil, unfinishedOf_append, bill_append]
    simp only [unfinishedOf, List.filter_nil, List.map_nil, bill_nil]
    abel
  · simp only [waiting, List.flatMap_cons, Frame.waitingIds, Option.toList_none, List.nil_append,
      List.append_nil, readyOf_append, bill_append]
    simp only [readyOf, List.filter_nil, List.map_nil, bill_nil]
    abel
  · simp [settling, Frame.settlingIds]
  · intro k hk
    simp only [keys, held, Frame.futures, Frame.unsettled, Frame.completed, List.flatMap_cons,
      Option.toList_none, List.nil_append, List.append_nil, List.map_append, List.map_nil,
      List.mem_append] at hk ⊢
    tauto
  · rintro fr (_ | ⟨_, hfr⟩)
    · trivial
    · exact hruns fr hfr

/-- A poll turn goes on to its next future. -/
theorem changes_poll (hruns : ∀ fr ∈ s.frames, fr.Runs) (ht : s.step .poll = .ok t) :
    Changes s t := by
  rw [step] at ht
  split at ht
  next owner f futures stillPending completed frames hfs =>
    split at ht
    next =>
      -- another loop's future is kept for later
      obtain rfl := Outcome.ok.inj ht
      refine ⟨.inl (stay_frame hfs rfl rfl rfl ?_ ?_ rfl ?_ rfl rfl),
        mem_frames hfs rfl hruns trivial⟩
      · simp only [Frame.unfinishedIds, Frame.unsettled, unfinishedOf_append, bill_append,
          Option.toList_none, List.nil_append]
        rw [bill_unfinishedOf_cons f futures]
        abel
      · simp only [Frame.waitingIds, readyOf_append, bill_append, Option.toList_none,
          List.nil_append]
        rw [bill_readyOf_cons f futures]
        abel
      · intro g hg
        simp only [Frame.futures, Frame.unsettled, Frame.completed, Option.toList_none,
          List.nil_append, List.mem_append, List.mem_cons] at hg ⊢
        tauto
    next howned =>
      split at ht
      next resolves hready =>
        obtain rfl := Outcome.ok.inj ht
        refine ⟨.inl (stay_frame hfs rfl rfl rfl ?_ ?_ rfl ?_ rfl rfl),
          mem_frames hfs rfl hruns trivial⟩
        · simp only [Frame.unfinishedIds, Frame.unsettled, unfinishedOf_append, bill_append,
            Option.toList_none, List.nil_append]
          rw [bill_unfinishedOf_cons f futures, unfinishedOf_some hready, bill_nil, zero_add]
        · simp only [Frame.waitingIds, readyOf_append, bill_append, Option.toList_none,
            List.nil_append, List.map_append, List.map_cons, List.map_nil]
          rw [bill_readyOf_cons f futures, readyOf_some hready]
          abel
        · intro g hg
          simp only [Frame.futures, Frame.unsettled, Frame.completed, Option.toList_none,
            List.nil_append, List.mem_append, List.mem_cons, List.map_append, List.map_cons,
            List.map_nil] at hg ⊢
          tauto
      next hready =>
        obtain rfl := Outcome.ok.inj ht
        have hown : f.owner = owner ∨ f.owner = 0 := by
          simpa [PendingPromise.ownedBy, or_iff_not_imp_left] using howned
        have hf : f ∈ s.held := by
          refine List.mem_append_right _ ?_
          rw [hfs]
          simp [Frame.futures, Frame.unsettled]
        refine ⟨.inl (.poll owner f.id f.owner f.promise ?_ (List.mem_map_of_mem hf) hown rfl
          ?_ ?_ ?_ ?_ rfl), mem_frames hfs rfl hruns hready⟩
        · refine one_le_bill (List.mem_append_right _ ?_)
          rw [hfs]
          simp [Frame.unfinishedIds, Frame.unsettled, unfinishedOf, hready]
        · simp [unfinished, record, hfs, Frame.unfinishedIds, Frame.unsettled]
        · simp [waiting, record, hfs, Frame.waitingIds]
        · simp [settling, record, hfs, Frame.settlingIds]
        · exact keys_frame hfs rfl rfl rfl (List.Subset.refl _)
  next =>
    obtain rfl := Outcome.ok.inj ht
    exact changes_refl hruns

/-- A poll returns that the future has completed. -/
theorem changes_ready (resolves : Bool) (hruns : ∀ fr ∈ s.frames, fr.Runs)
    (ht : s.step (.ready resolves) = .ok t) : Changes s t := by
  rw [step] at ht
  split at ht
  next owner f futures stillPending completed frames hfs =>
    have hready : f.ready = none := hruns (.polling owner (some f) futures stillPending completed)
      (by rw [hfs]; exact List.mem_cons_self)
    have hchange {v : Futures} (hframes : v.frames =
        .polling owner none futures stillPending (completed ++ [⟨f, resolves⟩]) :: frames)
        (hpending : v.pending = s.pending) (hactive : v.active = s.active) (hnext : v.next = s.next)
        (hlog : v.log = s.log ++ [.completed f.id]) : Change s v := by
      refine .complete f.id hnext ?_ ?_ ?_ ?_ hlog
      · refine unfinished_frame hfs hframes hpending hactive ?_
        simp only [Frame.unfinishedIds, Frame.unsettled, unfinishedOf_append, bill_append,
          Option.toList_none, Option.toList_some, List.nil_append, unfinishedOf_none hready]
        abel
      · refine waiting_frame hframes hfs hpending.symm hactive.symm ?_
        simp only [Frame.waitingIds, readyOf_append, bill_append, Option.toList_none,
          Option.toList_some, List.nil_append, List.map_append, List.map_cons, List.map_nil,
          readyOf_none hready]
        abel
      · simp [settling, hfs, hframes, Frame.settlingIds]
      · refine keys_frame hfs hframes hpending hactive ?_
        intro g hg
        simp only [Frame.futures, Frame.unsettled, Frame.completed, Option.toList_none,
          Option.toList_some, List.nil_append, List.mem_append, List.map_append,
          List.map_cons, List.map_nil, List.mem_singleton] at hg ⊢
        tauto
    obtain rfl := Outcome.ok.inj ht
    exact ⟨.inl (hchange rfl rfl rfl rfl rfl), mem_frames hfs rfl hruns trivial⟩
  next =>
    obtain rfl := Outcome.ok.inj ht
    exact changes_refl hruns

/-- A poll returns that the future is still pending. -/
theorem changes_notReady (hruns : ∀ fr ∈ s.frames, fr.Runs) (ht : s.step .notReady = .ok t) :
    Changes s t := by
  rw [step] at ht
  split at ht
  next owner f futures stillPending completed frames hfs =>
    obtain rfl := Outcome.ok.inj ht
    refine ⟨.inl (stay_frame hfs rfl rfl rfl ?_ ?_ rfl ?_ rfl rfl),
      mem_frames hfs rfl hruns trivial⟩
    · simp only [Frame.unfinishedIds, Frame.unsettled, unfinishedOf_append, bill_append,
        Option.toList_none, Option.toList_some, List.nil_append]
      abel
    · simp only [Frame.waitingIds, readyOf_append, bill_append, Option.toList_none,
        Option.toList_some, List.nil_append]
      abel
    · intro g hg
      simp only [Frame.futures, Frame.unsettled, Frame.completed, Option.toList_none,
        Option.toList_some, List.nil_append, List.mem_append, List.mem_singleton] at hg ⊢
      tauto
  next =>
    obtain rfl := Outcome.ok.inj ht
    exact changes_refl hruns

/-- The futures that are still pending go back to the registry, and the others are settled. -/
theorem changes_endTurn (hruns : ∀ fr ∈ s.frames, fr.Runs) (ht : s.step .endTurn = .ok t) :
    Changes s t := by
  rw [step] at ht
  split at ht
  next owner stillPending completed frames hfs =>
    have hchange {v : Futures} (hpending : v.pending = s.pending)
        (hactive : v.active = s.active ++ stillPending)
        (hframes : v.frames = .settling none completed :: frames) (hnext : v.next = s.next)
        (hlog : v.log = s.log) : Change s v ∧ ∀ fr ∈ v.frames, fr.Runs := by
      refine ⟨.stay hnext ?_ ?_ ?_ ?_ hlog, mem_frames hfs hframes hruns trivial⟩
      · simp only [unfinished, hfs, hpending, hactive, hframes, List.flatMap_cons,
          Frame.unfinishedIds, Frame.unsettled, Option.toList_none, List.nil_append,
          unfinishedOf_append, bill_append]
        simp only [unfinishedOf, List.filter_nil, List.map_nil, bill_nil]
        abel
      · simp only [waiting, hfs, hpending, hactive, hframes, List.flatMap_cons, Frame.waitingIds,
          Option.toList_none, List.nil_append, List.append_nil, readyOf_append, bill_append]
        abel
      · simp [settling, hfs, hframes, Frame.settlingIds]
      · intro k hk
        simp only [keys, held, hfs, hpending, hactive, hframes, Frame.futures, Frame.unsettled,
          Frame.completed, List.flatMap_cons, Option.toList_none, List.nil_append,
          List.map_append, List.mem_append] at hk ⊢
        tauto
    dsimp only at ht
    split at ht
    next =>
      obtain rfl := Outcome.ok.inj ht
      obtain ⟨hstay, hruns'⟩ := hchange (v := { s with
        active := s.active ++ stillPending, frames := .settling none completed :: frames })
        rfl rfl rfl rfl rfl
      exact ⟨.inl hstay, hruns'⟩
    next =>
      obtain rfl := Outcome.ok.inj ht
      obtain ⟨hstay, hruns'⟩ := hchange (v := { s with
        active := s.active ++ stillPending, frames := .settling none completed :: frames })
        rfl rfl rfl rfl rfl
      exact ⟨.inr ⟨_, hstay, .wake owner rfl rfl rfl rfl (List.Subset.refl _) rfl⟩,
        hruns'⟩
  next =>
    obtain rfl := Outcome.ok.inj ht
    exact changes_refl hruns

/-- The next promise is settled. -/
theorem changes_settle (hruns : ∀ fr ∈ s.frames, fr.Runs) (ht : s.step .settle = .ok t) :
    Changes s t := by
  rw [step] at ht
  split at ht
  next c completed frames hfs =>
    have hchange {v : Futures} (hframes : v.frames = .settling (some c) completed :: frames)
        (hpending : v.pending = s.pending) (hactive : v.active = s.active) (hnext : v.next = s.next)
        (hlog : v.log = s.log ++ if c.resolves then [.resolving c.future.id] else []) :
        Change s v := by
      refine .settle c.future.id c.resolves hnext ?_ ?_ ?_ ?_ hlog
      · simp [unfinished, hfs, hframes, hpending, hactive, Frame.unfinishedIds, Frame.unsettled]
      · refine waiting_frame hfs hframes hpending hactive ?_
        simp only [Frame.waitingIds, List.map_cons]
        rw [bill_cons]
        abel
      · refine settling_frame hframes hfs ?_
        simp [Frame.settlingIds]
      · refine keys_frame hfs hframes hpending hactive ?_
        intro g hg
        simpa [Frame.futures, Frame.unsettled, Frame.completed] using hg
    dsimp only at ht
    split at ht
    next hc =>
      obtain rfl := Outcome.ok.inj ht
      exact ⟨.inl (hchange rfl rfl rfl rfl (by rw [hc]; rfl)), mem_frames hfs rfl hruns trivial⟩
    next hc =>
      obtain rfl := Outcome.ok.inj ht
      exact ⟨.inl (hchange rfl rfl rfl rfl (by simp [hc])), mem_frames hfs rfl hruns trivial⟩
  next =>
    obtain rfl := Outcome.ok.inj ht
    exact changes_refl hruns

/-- A promise was settled. -/
theorem changes_settled (hruns : ∀ fr ∈ s.frames, fr.Runs) (ht : s.step .settled = .ok t) :
    Changes s t := by
  rw [step] at ht
  split at ht
  next c completed frames hfs =>
    have hchange {v : Futures} (hframes : v.frames = .settling none completed :: frames)
        (hpending : v.pending = s.pending) (hactive : v.active = s.active) (hnext : v.next = s.next)
        (hlog : v.log = s.log ++ [.settled c.future.id]) : Change s v := by
      refine .settled c.future.id hnext ?_ ?_ ?_ ?_ hlog
      · simp [unfinished, hfs, hframes, hpending, hactive, Frame.unfinishedIds, Frame.unsettled]
      · simp [waiting, hfs, hframes, hpending, hactive, Frame.waitingIds]
      · refine settling_frame hfs hframes ?_
        simp [Frame.settlingIds]
      · refine keys_frame hfs hframes hpending hactive ?_
        intro g hg
        simp only [Frame.futures, Frame.unsettled, Frame.completed, Option.toList_none,
          Option.toList_some, List.nil_append, List.map_append, List.map_cons, List.map_nil,
          List.mem_append] at hg ⊢
        tauto
    obtain rfl := Outcome.ok.inj ht
    exact ⟨.inl (hchange rfl rfl rfl rfl rfl), mem_frames hfs rfl hruns trivial⟩
  next =>
    obtain rfl := Outcome.ok.inj ht
    exact changes_refl hruns

/-- **What a step can do.** -/
theorem step_cases (hruns : ∀ fr ∈ s.frames, fr.Runs) {e : FutureEvent} (ht : s.step e = .ok t) :
    Changes s t ∨
    (∃ promise, e = .cancelPendingFuture promise ∧
      t = (s.dropMatching fun f => f.promise = promise).record (.cancelled promise)) ∨
    ∃ owner, e = .hasPendingFutures owner ∧
      t = s.record (.asked owner (s.hasPendingFutures owner)) := by
  cases e with
  | enter owner =>
    obtain rfl := Outcome.ok.inj ht
    refine .inl ⟨.inl (stay_empty (.inl rfl) rfl rfl rfl rfl rfl), ?_⟩
    rintro fr (_ | ⟨_, hfr⟩)
    · trivial
    · exact hruns fr hfr
  | leave =>
    left
    rw [step] at ht
    split at ht
    next owner frames hfs =>
      obtain rfl := Outcome.ok.inj ht
      exact ⟨.inl (stay_empty (f := .scope owner) (.inr hfs) rfl rfl rfl rfl rfl), fun fr hfr =>
        hruns fr (by rw [hfs]; exact List.mem_cons_of_mem _ hfr)⟩
    next =>
      obtain rfl := Outcome.ok.inj ht
      exact changes_refl hruns
  | spawn promise =>
    obtain rfl := Outcome.ok.inj ht
    refine .inl ⟨.inl (change_create s promise ?_ ?_ ?_ rfl rfl rfl), hruns⟩
    · simp only [held, record, List.append_assoc]
      exact List.perm_middle
    · simp only [unfinished, record, unfinishedOf_append, bill_append, unfinishedOf_none]
      abel
    · simp [waiting, record, readyOf]
  | spawnPolled promise => exact .inl (changes_spawnPolled promise hruns ht)
  | firstPolled outcome => exact .inl (changes_firstPolled outcome hruns ht)
  | turn owner => exact .inl (changes_turn owner hruns ht)
  | poll => exact .inl (changes_poll hruns ht)
  | ready resolves => exact .inl (changes_ready resolves hruns ht)
  | notReady => exact .inl (changes_notReady hruns ht)
  | endTurn => exact .inl (changes_endTurn hruns ht)
  | settle => exact .inl (changes_settle hruns ht)
  | settled => exact .inl (changes_settled hruns ht)
  | endSettle =>
    left
    rw [step] at ht
    split at ht
    next frames hfs =>
      obtain rfl := Outcome.ok.inj ht
      exact ⟨.inl (stay_empty (.inr hfs) rfl rfl rfl rfl rfl), fun fr hfr =>
        hruns fr (by rw [hfs]; exact List.mem_cons_of_mem _ hfr)⟩
    next =>
      obtain rfl := Outcome.ok.inj ht
      exact changes_refl hruns
  | cancelPendingFuture promise => exact .inr (.inl ⟨promise, rfl, (Outcome.ok.inj ht).symm⟩)
  | cancelPendingFuturesFor owner =>
    rw [step] at ht
    split at ht
    next => cases ht
    next =>
      obtain rfl := Outcome.ok.inj ht
      exact .inl ⟨.inl (change_dropMatching s _), hruns⟩
  | cancelAllPendingFutures =>
    obtain rfl := Outcome.ok.inj ht
    exact .inl ⟨.inl (change_dropMatching s _), hruns⟩
  | hasPendingFutures owner => exact .inr (.inr ⟨owner, rfl, (Outcome.ok.inj ht).symm⟩)

/-- Every future is accounted for, and those that run have not completed. -/
def Sound (s : Futures) : Prop := Accounted s ∧ ∀ fr ∈ s.frames, fr.Runs

theorem sound_initial : Sound initial := by
  refine ⟨⟨?_, ?_, ?_, ?_, rfl, ?_, Protocol.kept_nil⟩, ?_⟩
  · simp [initial, idsOf, unfinished, waiting, settling, unfinishedOf, readyOf]
  · simp [initial, idsOf, unfinished, unfinishedOf]
  · simp [initial, idsOf, unfinished, waiting, unfinishedOf, readyOf]
  · simp [initial, keys, held]
  · simp [initial]
  · simp [initial]

/-- **Every step** keeps the futures accounted for. -/
theorem Sound.step (h : Sound s) {e : FutureEvent} (ht : s.step e = .ok t) : Sound t := by
  rcases step_cases h.2 ht with ⟨hc | ⟨u, hc, hc'⟩, hruns⟩ | ⟨promise, rfl, rfl⟩ | ⟨owner, rfl, rfl⟩
  · exact ⟨hc.accounted h.1, hruns⟩
  · exact ⟨hc'.accounted (hc.accounted h.1), hruns⟩
  · exact ⟨Change.accounted_record ((change_dropMatching s _).accounted h.1) rfl, h.2⟩
  · exact ⟨Change.accounted_record h.1 rfl, h.2⟩

/-- Where a future can be: settled, dropped, or in a place. -/
def places (s : Futures) : List ℕ :=
  idsOf FutureRecord.settled? s.log ++ idsOf FutureRecord.dropped? s.log ++
    (unfinishedOf (s.pending ++ s.active) ++ s.frames.flatMap Frame.unfinishedIds) ++
    (readyOf (s.pending ++ s.active) ++ s.frames.flatMap Frame.waitingIds) ++
    s.frames.flatMap Frame.settlingIds

/-- **No future is lost**, and none is in two places. -/
theorem perm_places (h : Accounted s) : s.places.Perm (List.range s.next) := by
  refine perm_range_of_balance ?_
  rw [places, balance_append, balance_append, balance_append]
  exact h.places

end Futures

end Js
