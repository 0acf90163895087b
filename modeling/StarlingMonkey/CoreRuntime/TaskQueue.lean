import StarlingMonkey.Lib.SortedSet
import Mathlib.Data.List.AList
import Mathlib.Data.Prod.Lex
import Mathlib.Order.WithBot
import Mathlib.Order.Bounds.Basic

/-!
# The task queue of an event loop

`TaskQueue` holds the live tasks of a loop under their ids, together with two ordered indexes: the
ready tasks in dispatch order, and the timers that are not ready yet by deadline. `insert`,
`remove`, `markReady` and `expireTimers` are the four operations that touch it.

`Indexed` says that the three agree. It is kept by every operation, by `insert` under an id that
is not in use; `expireTimers_spec` says that the loop of `expireTimers` ends and which timers it
marks ready.
-/

namespace CoreRuntime

/-- An identifier of a queued task. -/
abbrev TaskId := ℕ

/-- A reading of the monotonic clock, in nanoseconds. -/
abbrev Instant := ℕ

/-- The position of a ready task: tasks without a deadline come first. -/
abbrev ReadyKey := WithBot Instant ×ₗ TaskId

/-- The position of a timer that is not ready. -/
abbrev TimerKey := Instant ×ₗ TaskId

variable {τ : Type}

/-- A queued task, with its readiness. Timers have a deadline. -/
structure TaskEntry (τ : Type) where
  id : TaskId
  task : τ
  ready : Bool
  deadline : Option Instant

/-- The deadline, as a time to order by: no deadline comes before every other. -/
def TaskEntry.dispatchTime (e : TaskEntry τ) : WithBot Instant :=
  match e.deadline with
  | none => ⊥
  | some deadline => WithBot.some deadline

/-- The entry's position among the ready tasks: tasks without a deadline first, in the order of
their ids, then timers by deadline, ties broken by the id. -/
def TaskEntry.readyKey (e : TaskEntry τ) : ReadyKey := toLex (e.dispatchTime, e.id)

/-- What expiry at `now` makes of an entry: a timer whose deadline has come is ready. -/
def TaskEntry.expire (now : Instant) (e : TaskEntry τ) : TaskEntry τ :=
  { e with ready := e.ready || e.deadline.any (· ≤ now) }

/-- The live tasks, with the indexes of the ready ones and of the timers that are not ready. -/
structure TaskQueue (τ : Type) where
  entries : AList fun _ : TaskId => TaskEntry τ
  ready : SortedSet ReadyKey
  timers : SortedSet TimerKey

namespace TaskQueue

/-- The queue without tasks. -/
def empty : TaskQueue τ := ⟨∅, .empty, .empty⟩

/-- Insert an entry under its id. -/
def insert (q : TaskQueue τ) (entry : TaskEntry τ) : TaskQueue τ where
  entries := q.entries.insert entry.id entry
  ready := if entry.ready then q.ready.insert entry.readyKey else q.ready
  timers :=
    if entry.ready then q.timers
    else match entry.deadline with
      | some deadline => q.timers.insert (toLex (deadline, entry.id))
      | none => q.timers

/-- Take the entry under `id` out, if there is one. -/
def remove (q : TaskQueue τ) (id : TaskId) : Option (TaskEntry τ × TaskQueue τ) :=
  match q.entries.lookup id with
  | none => none
  | some entry =>
    let rest : TaskQueue τ := {
      entries := q.entries.erase id
      ready := if entry.ready then q.ready.erase entry.readyKey else q.ready
      timers :=
        if entry.ready then q.timers
        else match entry.deadline with
          | some deadline => q.timers.erase (toLex (deadline, id))
          | none => q.timers }
    some (entry, rest)

/-- Mark `id` ready. Returns whether a task not yet ready was found. -/
def markReady (q : TaskQueue τ) (id : TaskId) : Bool × TaskQueue τ :=
  match q.entries.lookup id with
  | none => (false, q)
  | some entry =>
    if entry.ready then (false, q)
    else
      let marked : TaskQueue τ := {
        entries := q.entries.insert id { entry with ready := true }
        ready := q.ready.insert entry.readyKey
        timers :=
          match entry.deadline with
          | some deadline => q.timers.erase (toLex (deadline, id))
          | none => q.timers }
      (true, marked)

/-- Mark every timer whose deadline is at or before `now` ready, returning how many. The loop runs
while the first timer has expired; `none` stands for a loop that has not ended in the given number
of iterations. -/
def expireTimers (now : Instant) : ℕ → TaskQueue τ → Option (ℕ × TaskQueue τ)
  | 0, _ => none
  | fuel + 1, q =>
    match q.timers.first? with
    | none => some (0, q)
    | some key =>
      if now < (ofLex key).1 then some (0, q)
      else (expireTimers now fuel (q.markReady (ofLex key).2).2).map fun r => (r.1 + 1, r.2)

/-! ### The indexes agree -/

/-- The three parts of a queue agree: every entry is stored under its own id, the ready set holds
exactly the positions of the ready entries, and the timer set those of the timers not ready. -/
structure Indexed (q : TaskQueue τ) : Prop where
  own : ∀ {id e}, q.entries.lookup id = some e → e.id = id
  mem_ready : ∀ {k}, k ∈ q.ready ↔
    ∃ id e, q.entries.lookup id = some e ∧ e.ready = true ∧ e.readyKey = k
  mem_timers : ∀ {k}, k ∈ q.timers ↔
    ∃ id e d, q.entries.lookup id = some e ∧ e.ready = false ∧ e.deadline = some d ∧
      toLex (d, id) = k

theorem indexed_empty : (empty : TaskQueue τ).Indexed where
  own := by simp [empty]
  mem_ready := by simp [empty]
  mem_timers := by simp [empty]

variable {q r : TaskQueue τ} {entry e e' : TaskEntry τ} {id i j : TaskId} {now d : Instant}

theorem toLex_eq_readyKey {k : WithBot Instant} :
    toLex (k, i) = e.readyKey ↔ e.dispatchTime = k ∧ i = e.id := by
  rw [TaskEntry.readyKey, toLex_inj, Prod.mk.injEq, eq_comm (a := k)]

theorem mem_timers_iff (h : q.Indexed) (d : Instant) (i : TaskId) :
    toLex (d, i) ∈ q.timers ↔
      ∃ e, q.entries.lookup i = some e ∧ e.ready = false ∧ e.deadline = some d := by
  rw [h.mem_timers]
  constructor
  · rintro ⟨j, e, d', he, hr, hd, hk⟩
    obtain ⟨rfl, rfl⟩ := Prod.mk.inj (toLex.injective hk)
    exact ⟨e, he, hr, hd⟩
  · rintro ⟨e, he, hr, hd⟩
    exact ⟨i, e, d, he, hr, hd, rfl⟩

theorem mem_ready_iff (h : q.Indexed) (k : WithBot Instant) (i : TaskId) :
    toLex (k, i) ∈ q.ready ↔
      ∃ e, q.entries.lookup i = some e ∧ e.ready = true ∧ e.dispatchTime = k := by
  rw [h.mem_ready]
  constructor
  · rintro ⟨j, e, he, hr, hk⟩
    obtain ⟨hk, hi⟩ := toLex_eq_readyKey.mp hk.symm
    rw [hi, h.own he]
    exact ⟨e, he, hr, hk⟩
  · rintro ⟨e, he, hr, hk⟩
    exact ⟨i, e, he, hr, (toLex_eq_readyKey.mpr ⟨hk, (h.own he).symm⟩).symm⟩

/-- The indexes agree when they list, for each id, what its entry says. -/
theorem Indexed.of_iff (hown : ∀ {id e}, q.entries.lookup id = some e → e.id = id)
    (hready : ∀ k i, toLex (k, i) ∈ q.ready ↔
      ∃ e, q.entries.lookup i = some e ∧ e.ready = true ∧ e.dispatchTime = k)
    (htimers : ∀ d i, toLex (d, i) ∈ q.timers ↔
      ∃ e, q.entries.lookup i = some e ∧ e.ready = false ∧ e.deadline = some d) : q.Indexed where
  own := hown
  mem_ready := by
    intro k
    rw [show k = toLex ((ofLex k).1, (ofLex k).2) from rfl, hready]
    constructor
    · rintro ⟨e, he, hr, hk⟩
      exact ⟨_, e, he, hr, by rw [TaskEntry.readyKey, hk, hown he]⟩
    · rintro ⟨i, e, he, hr, hk⟩
      obtain ⟨hk, hi⟩ := Prod.mk.inj (toLex.injective hk)
      rw [← hi, hown he]
      exact ⟨e, he, hr, hk⟩
  mem_timers := by
    intro k
    rw [show k = toLex ((ofLex k).1, (ofLex k).2) from rfl, htimers]
    constructor
    · rintro ⟨e, he, hr, hd⟩
      exact ⟨_, e, _, he, hr, hd, rfl⟩
    · rintro ⟨i, e, d, he, hr, hd, hk⟩
      obtain ⟨rfl, rfl⟩ := Prod.mk.inj (toLex.injective hk)
      exact ⟨e, he, hr, hd⟩

/-! ### What the operations keep -/

theorem lookup_insert (e : TaskEntry τ) (i : TaskId) :
    (q.insert e).entries.lookup i = if i = e.id then some e else q.entries.lookup i := by
  split_ifs with hi
  · rw [hi, insert, AList.lookup_insert]
  · rw [insert, AList.lookup_insert_ne hi]

theorem mem_ready_insert {k : WithBot Instant} : toLex (k, i) ∈ (q.insert e).ready ↔
    (e.ready = true ∧ e.dispatchTime = k ∧ i = e.id) ∨ toLex (k, i) ∈ q.ready := by
  cases hr : e.ready <;> simp [insert, hr, toLex_eq_readyKey]

theorem mem_timers_insert : toLex (d, i) ∈ (q.insert e).timers ↔
    (e.ready = false ∧ e.deadline = some d ∧ i = e.id) ∨ toLex (d, i) ∈ q.timers := by
  cases hr : e.ready <;> cases hd : e.deadline <;> simp [insert, hr, hd, eq_comm]

/-- Insertion under an id that is not in use keeps the indexes. -/
theorem Indexed.insert (h : q.Indexed) (hfree : q.entries.lookup e.id = none) :
    (q.insert e).Indexed := by
  refine .of_iff (fun {i e'} he => ?_) (fun k i => ?_) fun d i => ?_
  · rw [lookup_insert] at he
    split_ifs at he with hi
    · rw [hi, ← Option.some.inj he]
    · exact h.own he
  · rw [mem_ready_insert, lookup_insert, mem_ready_iff h]
    by_cases hi : i = e.id
    · subst hi; simp [hfree]
    · simp [hi]
  · rw [mem_timers_insert, lookup_insert, mem_timers_iff h]
    by_cases hi : i = e.id
    · subst hi; simp [hfree]
    · simp [hi]

theorem remove_eq_none : q.remove id = none ↔ q.entries.lookup id = none := by
  rw [remove]
  cases q.entries.lookup id <;> simp

/-- What `remove` takes out, and what it leaves. -/
theorem remove_eq_some (h : q.remove id = some (e, r)) :
    q.entries.lookup id = some e ∧ r = {
      entries := q.entries.erase id
      ready := if e.ready then q.ready.erase e.readyKey else q.ready
      timers :=
        if e.ready then q.timers
        else match e.deadline with
          | some deadline => q.timers.erase (toLex (deadline, id))
          | none => q.timers } := by
  rw [remove] at h
  cases hl : q.entries.lookup id with
  | none => simp [hl] at h
  | some e' =>
    simp only [hl, Option.some.injEq, Prod.mk.injEq] at h
    obtain ⟨rfl, rfl⟩ := h
    exact ⟨rfl, rfl⟩

theorem lookup_remove (h : q.remove id = some (e, r)) (i : TaskId) :
    r.entries.lookup i = if i = id then none else q.entries.lookup i := by
  rw [(remove_eq_some h).2]
  by_cases hi : i = id
  · rw [if_pos hi, hi]; exact AList.lookup_erase ..
  · rw [if_neg hi]; exact AList.lookup_erase_ne hi

/-- Removal keeps the indexes. -/
theorem Indexed.remove (h : q.Indexed) (hr : q.remove id = some (e, r)) : r.Indexed := by
  obtain ⟨hl, hrest⟩ := remove_eq_some hr
  have hid : e.id = id := h.own hl
  have hready (k : WithBot Instant) (i : TaskId) : toLex (k, i) ∈ r.ready ↔
      ¬ (e.ready = true ∧ e.dispatchTime = k ∧ i = id) ∧ toLex (k, i) ∈ q.ready := by
    rw [hrest]
    cases he : e.ready <;> simp [toLex_eq_readyKey, hid]
  have htimers (d : Instant) (i : TaskId) : toLex (d, i) ∈ r.timers ↔
      ¬ (e.ready = false ∧ e.deadline = some d ∧ i = id) ∧ toLex (d, i) ∈ q.timers := by
    rw [hrest]
    cases he : e.ready <;> cases hd : e.deadline <;> simp [eq_comm]
  refine .of_iff (fun {i e'} he => ?_) (fun k i => ?_) fun d i => ?_
  · rw [lookup_remove hr] at he
    split_ifs at he
    exact h.own he
  · rw [hready, lookup_remove hr, mem_ready_iff h]
    by_cases hi : i = id
    · subst hi; simp +contextual [hl]
    · simp [hi]
  · rw [htimers, lookup_remove hr, mem_timers_iff h]
    by_cases hi : i = id
    · subst hi; simp +contextual [hl]
    · simp [hi]

/-! ### Marking tasks ready -/

theorem markReady_of_none (h : q.entries.lookup id = none) : q.markReady id = (false, q) := by
  simp [markReady, h]

theorem markReady_of_ready (h : q.entries.lookup id = some e) (hr : e.ready = true) :
    q.markReady id = (false, q) := by
  simp [markReady, h, hr]

theorem markReady_of_waiting (h : q.entries.lookup id = some e) (hr : e.ready = false) :
    q.markReady id = (true, {
      entries := q.entries.insert id { e with ready := true }
      ready := q.ready.insert e.readyKey
      timers :=
        match e.deadline with
        | some deadline => q.timers.erase (toLex (deadline, id))
        | none => q.timers }) := by
  simp [markReady, h, hr]

/-- Nothing was marked: nothing changes. -/
theorem markReady_false (h : (q.markReady id).1 = false) : (q.markReady id).2 = q := by
  cases hl : q.entries.lookup id with
  | none => rw [markReady_of_none hl]
  | some e =>
    cases hr : e.ready with
    | true => rw [markReady_of_ready hl hr]
    | false =>
      rw [markReady_of_waiting hl hr] at h
      cases h

/-- Marking a task ready changes the readiness of its entry alone. -/
theorem lookup_markReady (i : TaskId) : (q.markReady id).2.entries.lookup i =
    if i = id then (q.entries.lookup id).map fun e => { e with ready := true }
    else q.entries.lookup i := by
  cases hl : q.entries.lookup id with
  | none =>
    rw [markReady_of_none hl, Option.map_none]
    split_ifs with hi
    · rw [hi, hl]
    · rfl
  | some e =>
    cases hr : e.ready with
    | true =>
      have he : { e with ready := true } = e := by cases e; simp_all
      rw [markReady_of_ready hl hr, Option.map_some, he]
      split_ifs with hi
      · rw [hi, hl]
      · rfl
    | false =>
      rw [markReady_of_waiting hl hr]
      split_ifs with hi
      · rw [hi, AList.lookup_insert, Option.map_some]
      · rw [AList.lookup_insert_ne hi]

/-- Marking a task ready keeps the indexes. -/
theorem Indexed.markReady (h : q.Indexed) (id : TaskId) : (q.markReady id).2.Indexed := by
  cases hl : q.entries.lookup id with
  | none => rwa [markReady_of_none hl]
  | some e =>
    cases hr : e.ready with
    | true => rwa [markReady_of_ready hl hr]
    | false =>
      have hid : e.id = id := h.own hl
      refine .of_iff (fun {i e'} he => ?_) (fun k i => ?_) fun d i => ?_
      · rw [lookup_markReady, hl] at he
        split_ifs at he with hi
        · rw [hi, ← hid, ← Option.some.inj he]
        · exact h.own he
      · rw [lookup_markReady, markReady_of_waiting hl hr, SortedSet.mem_insert, toLex_eq_readyKey,
          mem_ready_iff h]
        by_cases hi : i = id
        · subst hi; simp [hl, hr, hid, TaskEntry.dispatchTime]
        · simp [hi, hid]
      · have htimers : toLex (d, i) ∈ (q.markReady id).2.timers ↔
            ¬ (e.deadline = some d ∧ i = id) ∧ toLex (d, i) ∈ q.timers := by
          rw [markReady_of_waiting hl hr]
          cases hd : e.deadline <;> simp [eq_comm]
        rw [htimers, lookup_markReady, mem_timers_iff h]
        by_cases hi : i = id
        · subst hi; simp +contextual [hl]
        · simp [hi]

/-! ### Expiry -/

theorem expire_of_ready (h : e.ready = true) : e.expire now = e := by
  cases e; simp_all [TaskEntry.expire]

theorem expire_of_early (h : ∀ d, e.deadline = some d → now < d) : e.expire now = e := by
  rcases e with ⟨i, t, r, _ | d⟩
  · simp [TaskEntry.expire]
  · simpa [TaskEntry.expire] using fun hle => absurd (h d rfl) (not_lt.mpr hle)

/-- No timer has expired when the first one has not. -/
theorem Indexed.expire_eq (h : q.Indexed)
    (hfirst : ∀ d i, q.timers.first? = some (toLex (d, i)) → now < d) :
    ∀ i, q.entries.lookup i = (q.entries.lookup i).map (TaskEntry.expire now) := by
  intro i
  cases he : q.entries.lookup i with
  | none => rfl
  | some e =>
    rw [Option.map_some]
    cases hr : e.ready with
    | true => rw [expire_of_ready hr]
    | false =>
      rw [expire_of_early]
      intro d hd
      have hmem : toLex (d, i) ∈ q.timers := (mem_timers_iff h d i).mpr ⟨e, he, hr, hd⟩
      cases hf : q.timers.first? with
      | none => exact absurd hmem (SortedSet.first?_eq_none.mp hf _)
      | some k =>
        have hlt : now < (ofLex k).1 := hfirst _ _ hf
        have hle : k ≤ toLex (d, i) := SortedSet.first?_least hf hmem
        rcases (Prod.Lex.le_iff (x := k) (y := toLex (d, i))).mp hle with hlt' | ⟨heq, -⟩
        exacts [hlt.trans hlt', hlt.trans_eq heq]

/-- **Expiry.** The loop ends within one iteration more than there are timers. It marks ready
exactly the timers whose deadline has come, and counts them. -/
theorem expireTimers_spec (now : Instant) {fuel : ℕ} (h : q.Indexed)
    (hfuel : q.timers.elems.length < fuel) :
    ∃ n r, expireTimers now fuel q = some (n, r) ∧ r.Indexed ∧
      (∀ i, r.entries.lookup i = (q.entries.lookup i).map (TaskEntry.expire now)) ∧
      n + r.timers.elems.length = q.timers.elems.length := by
  induction fuel generalizing q with
  | zero => exact absurd hfuel (Nat.not_lt_zero _)
  | succ fuel ih =>
    rw [expireTimers]
    cases hf : q.timers.first? with
    | none => exact ⟨0, q, rfl, h, h.expire_eq (by simp [hf]), Nat.zero_add _⟩
    | some k =>
      obtain ⟨d, i⟩ := k
      change ∃ n r, (if now < d then some (0, q) else _) = _ ∧ _
      split_ifs with hd
      · refine ⟨0, q, rfl, h, h.expire_eq ?_, Nat.zero_add _⟩
        rintro d' i' hf'
        obtain ⟨rfl, -⟩ := Prod.mk.inj (Option.some.inj (hf.symm.trans hf'))
        exact hd
      -- the first timer has expired: it leaves the timer set, so the rest needs less fuel
      · have hmem : toLex (d, i) ∈ q.timers := SortedSet.first?_mem hf
        obtain ⟨e, he, hr, hed⟩ := (mem_timers_iff h d i).mp hmem
        have htimers : (q.markReady i).2.timers = q.timers.erase (toLex (d, i)) := by
          simp only [markReady_of_waiting he hr, hed]
        have hlen := SortedSet.length_erase hmem
        obtain ⟨n, r, hrun, hind, hlook, hcount⟩ :=
          ih (h.markReady i) (by rw [htimers]; omega)
        refine ⟨n + 1, r, ?_, hind, fun j => ?_, by rw [htimers] at hcount; omega⟩
        · change (expireTimers now fuel (q.markReady i).2).map _ = _
          rw [hrun, Option.map_some]
        · rw [hlook, lookup_markReady]
          by_cases hj : j = i
          · subst hj
            simp [he, TaskEntry.expire, hed, not_lt.mp hd]
          · rw [if_neg hj]

/-! ### What the indexes answer -/

/-- The deadlines of the timers that are not ready. -/
def waiting (q : TaskQueue τ) : Set Instant :=
  {d | ∃ id e, q.entries.lookup id = some e ∧ e.ready = false ∧ e.deadline = some d}

theorem Indexed.first_ready_iff (h : q.Indexed) :
    q.ready.first? = none ↔ ¬ ∃ id e, q.entries.lookup id = some e ∧ e.ready = true := by
  rw [SortedSet.first?_eq_none]
  constructor
  · rintro hnone ⟨id, e, he, hr⟩
    exact hnone _ (h.mem_ready.mpr ⟨id, e, he, hr, rfl⟩)
  · rintro hnone k hk
    obtain ⟨id, e, he, hr, -⟩ := h.mem_ready.mp hk
    exact hnone ⟨id, e, he, hr⟩

/-- A ready task is listed once. -/
theorem Indexed.nodup_ready (h : q.Indexed) :
    (q.ready.elems.map fun key => (ofLex key).2).Nodup := by
  refine List.Nodup.map_on ?_ q.ready.nodup
  intro k hk k' hk' heq
  obtain ⟨i, e, he, -, rfl⟩ := h.mem_ready.mp hk
  obtain ⟨i', e', he', -, rfl⟩ := h.mem_ready.mp hk'
  have hid : e.id = e'.id := heq
  rw [h.own he, h.own he'] at hid
  rw [hid] at he
  rw [Option.some.inj (he.symm.trans he')]

/-- The first timer is the earliest of those that wait. -/
theorem Indexed.first_timer (h : q.Indexed) {k : TimerKey} (hk : q.timers.first? = some k) :
    IsLeast q.waiting (ofLex k).1 := by
  constructor
  · obtain ⟨id, e, d, he, hr, hd, rfl⟩ := h.mem_timers.mp (SortedSet.first?_mem hk)
    exact ⟨id, e, he, hr, hd⟩
  · rintro d ⟨id, e, he, hr, hd⟩
    have hmem : toLex (d, id) ∈ q.timers := (mem_timers_iff h d id).mpr ⟨e, he, hr, hd⟩
    have hle := SortedSet.first?_least hk hmem
    rcases (Prod.Lex.le_iff (x := k) (y := toLex (d, id))).mp hle with hlt | ⟨heq, -⟩
    exacts [hlt.le, heq.le]

theorem Indexed.no_timer_iff (h : q.Indexed) : q.timers.first? = none ↔ q.waiting = ∅ := by
  rw [SortedSet.first?_eq_none, Set.eq_empty_iff_forall_notMem]
  constructor
  · rintro hnone d ⟨id, e, he, hr, hd⟩
    exact hnone _ ((mem_timers_iff h d id).mpr ⟨e, he, hr, hd⟩)
  · rintro hnone k hk
    obtain ⟨id, e, d, he, hr, hd, -⟩ := h.mem_timers.mp hk
    exact hnone d ⟨id, e, he, hr, hd⟩

end TaskQueue

end CoreRuntime
