import StarlingMonkey.CoreRuntime.Agreement

/-!
# One step of a loop

A step runs the tasks that are ready at its start, one after another, while their code changes the
queue. `Changes` says once what an operation of that code can do to the tasks that are queued, and
`Inside` is the invariant of the loop over the batch: the tasks behind the current one are queued
exactly if nothing cancelled them, and every earlier one has either run or been cancelled before
its turn.

* `run_follows`: over any run, a queued task stays queued and ready until it is run or cancelled.
* `step_dispatches`: what one step runs, in which order, what it leaves behind and what it returns.
-/

namespace CoreRuntime

variable {κ ω σ : Type}

/-- What a record says of the fate of a queued task: it was run, or it was cancelled. -/
def Record.fate (id : TaskId) : Record κ ω → Option Bool
  | .started i _ _ _ => if i = id then some true else none
  | .cancelled i => if i = id then some false else none
  | _ => none

/-- The task that a record says was run. -/
def Record.start : Record κ ω → Option TaskId
  | .started id _ _ _ => some id
  | _ => none

/-- What happened to a task first: `some true` when it was run, `some false` when it was cancelled
before that. -/
def firstFate (id : TaskId) (log : List (Record κ ω)) : Option Bool :=
  log.findSome? (Record.fate id)

/-- The tasks that were run, in order. -/
def starts (log : List (Record κ ω)) : List TaskId := log.filterMap Record.start

@[simp] theorem firstFate_nil (id : TaskId) : firstFate id ([] : List (Record κ ω)) = none := rfl

@[simp] theorem starts_nil : starts ([] : List (Record κ ω)) = [] := rfl

theorem firstFate_append (id : TaskId) (l l' : List (Record κ ω)) :
    firstFate id (l ++ l') = (firstFate id l).or (firstFate id l') := List.findSome?_append

theorem starts_append (l l' : List (Record κ ω)) : starts (l ++ l') = starts l ++ starts l' :=
  List.filterMap_append

/-- The entry is still there: at most its readiness has changed, and only to ready. -/
def TaskEntry.Stays {τ : Type} (e : TaskEntry τ) (e' : Option (TaskEntry τ)) : Prop :=
  ∃ r, e' = some { e with ready := r } ∧ (e.ready = true → r = true)

theorem TaskEntry.Stays.of_eq {τ : Type} {e : TaskEntry τ} {o : Option (TaskEntry τ)}
    (h : o = some e) : e.Stays o := ⟨e.ready, h, fun hr => hr⟩

theorem TaskEntry.Stays.trans {τ : Type} {e e' : TaskEntry τ} {o : Option (TaskEntry τ)}
    (h : e.Stays (some e')) (h' : e'.Stays o) : e.Stays o := by
  obtain ⟨r, he, hr⟩ := h
  obtain ⟨r', rfl, hr'⟩ := h'
  cases he
  exact ⟨r', rfl, fun h => hr' (hr h)⟩

namespace System

variable {s t u : System κ ω}

/-- The entry of a queued task. -/
abbrev entry (s : System κ ω) (id : TaskId) : Option (TaskEntry (Task κ ω)) :=
  s.loop.tasks.entries.lookup id

/-- What an operation of running code can do to the tasks there are: nothing is run, a queued task
stays or is cancelled, and a task that is gone stays away. -/
structure Changes (s t : System κ ω) (new : List (Record κ ω)) : Prop where
  log : t.log = s.log ++ new
  stack : t.stack = s.stack
  starts : starts new = []
  grows : s.loop.nextId ≤ t.loop.nextId
  queued : ∀ {id e}, s.entry id = some e →
    e.Stays (t.entry id) ∧ firstFate id new = none ∨
      t.entry id = none ∧ firstFate id new = some false
  gone : ∀ {id}, s.entry id = none → id < s.loop.nextId →
    t.entry id = none ∧ firstFate id new = none

/-- What any event does to the queued tasks: each stays until it is run or cancelled. -/
structure Follows (s t : System κ ω) (new : List (Record κ ω)) : Prop where
  log : t.log = s.log ++ new
  grows : s.loop.nextId ≤ t.loop.nextId
  queued : ∀ {id e}, s.entry id = some e → e.Stays (t.entry id) ∨ firstFate id new ≠ none

theorem Follows.refl (s : System κ ω) : s.Follows s [] where
  log := (List.append_nil _).symm
  grows := le_rfl
  queued := fun he => .inl (.of_eq he)

theorem Follows.trans {new new' : List (Record κ ω)} (h : s.Follows t new)
    (h' : t.Follows u new') : s.Follows u (new ++ new') where
  log := by rw [h'.log, h.log, List.append_assoc]
  grows := h.grows.trans h'.grows
  queued := by
    intro id e he
    rw [firstFate_append]
    rcases h.queued he with hstay | hfate
    · obtain ⟨r, ht, hr⟩ := hstay
      rcases h'.queued ht with hstay' | hfate'
      · exact .inl (TaskEntry.Stays.trans ⟨r, rfl, hr⟩ hstay')
      · refine .inr ?_
        cases firstFate id new <;> simp [hfate']
    · refine .inr ?_
      cases hf : firstFate id new with
      | none => exact absurd hf hfate
      | some b => simp

theorem Changes.follows {new : List (Record κ ω)} (h : s.Changes t new) : s.Follows t new where
  log := h.log
  grows := h.grows
  queued := by
    intro id e he
    rcases h.queued he with ⟨hstay, -⟩ | ⟨-, hfate⟩
    · exact .inl hstay
    · exact .inr (by simp [hfate])

/-! ### What running code can do -/

/-- The queue is left as it is. -/
theorem Changes.same {new : List (Record κ ω)} (hlog : t.log = s.log ++ new)
    (hstarts : CoreRuntime.starts new = [])
    (hfate : ∀ id, firstFate id new = none)
    (hstack : t.stack = s.stack) (hgrows : s.loop.nextId = t.loop.nextId)
    (htasks : t.loop.tasks = s.loop.tasks) : s.Changes t new where
  log := hlog
  stack := hstack
  starts := hstarts
  grows := hgrows.le
  queued := by
    intro id e he
    rw [entry, htasks]
    exact .inl ⟨.of_eq he, hfate id⟩
  gone := by
    intro id he _
    rw [entry, htasks]
    exact ⟨he, hfate id⟩

/-- A new task is queued. -/
theorem Changes.insert {new : List (Record κ ω)} {task : Task κ ω} {ready : Bool}
    {deadline : Option Instant}
    (htasks : t.loop.tasks = s.loop.tasks.insert ⟨s.loop.nextId, task, ready, deadline⟩)
    (h : s.WellFormed) (hlog : t.log = s.log ++ new)
    (hstarts : CoreRuntime.starts new = [])
    (hfate : ∀ id, firstFate id new = none)
    (hstack : t.stack = s.stack)
    (hgrows : t.loop.nextId = s.loop.nextId + 1) : s.Changes t new where
  log := hlog
  stack := hstack
  starts := hstarts
  grows := by rw [hgrows]; exact Nat.le_succ _
  queued := by
    intro id e he
    have hne : id ≠ s.loop.nextId := (h.lt_of_stands (h.stands he)).ne
    rw [entry, htasks, TaskQueue.lookup_insert, if_neg hne]
    exact .inl ⟨.of_eq he, hfate id⟩
  gone := by
    intro id he hlt
    rw [entry, htasks, TaskQueue.lookup_insert, if_neg hlt.ne]
    exact ⟨he, hfate id⟩

/-- Readiness is changed, to ready. -/
theorem Changes.relabel {f : TaskId → TaskEntry (Task κ ω) → Bool}
    (htasks : ∀ id, t.entry id = (s.entry id).map fun e => { e with ready := e.ready || f id e })
    (hlog : t.log = s.log) (hstack : t.stack = s.stack)
    (hgrows : s.loop.nextId = t.loop.nextId) : s.Changes t [] where
  log := by rw [hlog, List.append_nil]
  stack := hstack
  starts := rfl
  grows := hgrows.le
  queued := by
    intro id e he
    rw [htasks, he]
    exact .inl ⟨⟨_, rfl, fun hr => by simp [hr]⟩, rfl⟩
  gone := by
    intro id he _
    rw [htasks, he]
    exact ⟨rfl, rfl⟩

/-- A task is cancelled, or was not queued. -/
theorem changes_cancel (s : System κ ω) (id : TaskId) : ∃ new, s.Changes (s.cancel id) new := by
  unfold System.cancel EventLoop.cancelIfQueued
  cases hr : s.loop.tasks.remove id with
  | none => exact ⟨[], .same (List.append_nil _).symm rfl (fun _ => rfl) rfl rfl rfl⟩
  | some p =>
    obtain ⟨e, q⟩ := p
    have hlook := TaskQueue.lookup_remove hr
    have hfate (i : TaskId) : firstFate i [(Record.cancelled id : Record κ ω)] =
        if i = id then some false else none := by
      simp only [firstFate, List.findSome?_cons, Record.fate, List.findSome?_nil, eq_comm (a := id)]
      split <;> simp_all
    refine ⟨[.cancelled id], rfl, rfl, rfl, le_rfl, fun {i e'} he => ?_, fun {i} he _ => ?_⟩
    · rw [hfate]
      change e'.Stays (q.entries.lookup i) ∧ _ ∨ q.entries.lookup i = none ∧ _
      rw [hlook]
      split_ifs with hi
      · exact .inr ⟨rfl, rfl⟩
      · exact .inl ⟨.of_eq he, rfl⟩
    · have hne : i ≠ id := by
        rintro rfl
        simp [(TaskQueue.remove_eq_some hr).1] at he
      rw [hfate, if_neg hne]
      exact ⟨(hlook i).trans ((if_neg hne).trans he), rfl⟩

theorem Changes.after {new new' : List (Record κ ω)} (h : s.Changes t new)
    (hfate : ∀ id, firstFate id new = none) (htasks : ∀ id, t.entry id = s.entry id)
    (h' : t.Changes u new') : s.Changes u (new ++ new') where
  log := by rw [h'.log, h.log, List.append_assoc]
  stack := h'.stack.trans h.stack
  starts := by rw [starts_append, h.starts, h'.starts]; rfl
  grows := h.grows.trans h'.grows
  queued := by
    intro id e he
    rw [firstFate_append, hfate, Option.none_or]
    exact h'.queued (by rw [htasks, he])
  gone := by
    intro id he hlt
    rw [firstFate_append, hfate, Option.none_or]
    exact h'.gone (by rw [htasks, he]) (hlt.trans_le h.grows)

theorem changes_clear (s : System κ ω) (timerId : ℕ) : ∃ new, s.Changes (s.clear timerId) new := by
  rw [clear_eq]
  cases s.loop.jsTimers.lookup timerId with
  | none => exact ⟨[.cleared timerId], .same rfl rfl (fun _ => rfl) rfl rfl rfl⟩
  | some id =>
    have herase : s.Changes { s with
        loop := { s.loop with jsTimers := s.loop.jsTimers.erase timerId }
        log := s.log ++ [.cleared timerId] } [.cleared timerId] :=
      .same rfl rfl (fun _ => rfl) rfl rfl rfl
    obtain ⟨new, hcancel⟩ := changes_cancel { s with
      loop := { s.loop with jsTimers := s.loop.jsTimers.erase timerId }
      log := s.log ++ [.cleared timerId] } id
    exact ⟨_, herase.after (fun _ => rfl) (fun _ => rfl) hcancel⟩

end System

/-- Code that does not drive the loop itself. -/
def Op.passive : Op κ ω → Bool
  | .popReady | .step => false
  | _ => true

namespace System

variable {s t u : System κ ω}

theorem WellFormed.changes_queueJsTimer (h : s.WellFormed) (deadline : Instant)
    (makeTask : ℕ → Task κ ω) :
    (s.loop.queueJsTimer s.counter deadline makeTask : Result (System κ ω) _).Sat
      (fun r => s.Changes { s with
        loop := r.2.2.2, counter := r.2.2.1
        log := s.log ++ [.allocated r.2.1 (makeTask r.1), .issued r.1 r.2.1] }
        [.allocated r.2.1 (makeTask r.1), .issued r.1 r.2.1]) (fun _ => False) fun _ => True := by
  refine Outcome.sat_bind.mpr (.of_value (fun r _ => ?_) fun _ => trivial)
  exact Outcome.sat_bind.mpr (nextTaskId_sat (.insert rfl h rfl rfl (fun _ => rfl) rfl rfl) trivial)

/-- **What running code does** in one operation that does not drive the loop. -/
theorem WellFormed.changes (h : s.WellFormed) {op : Op κ ω} (hop : op.passive = true) :
    (s.perform op).Sat (fun t => ∃ new, s.Changes t new) (fun _ => False) fun _ => True := by
  cases op with
  | popReady => cases hop
  | step => cases hop
  | queue task =>
    exact Outcome.sat_bind.mpr (Outcome.sat_bind.mpr
      (nextTaskId_sat ⟨_, .insert rfl h rfl rfl (fun _ => rfl) rfl rfl⟩ trivial))
  | queueReady task =>
    exact Outcome.sat_bind.mpr (Outcome.sat_bind.mpr
      (nextTaskId_sat ⟨_, .insert rfl h rfl rfl (fun _ => rfl) rfl rfl⟩ trivial))
  | queueTimer task deadline =>
    exact Outcome.sat_bind.mpr (Outcome.sat_bind.mpr
      (nextTaskId_sat ⟨_, .insert rfl h rfl rfl (fun _ => rfl) rfl rfl⟩ trivial))
  | queueJsTimer deadline makeTask =>
    exact (h.changes_queueJsTimer deadline makeTask).bind fun _ hr => ⟨_, hr⟩
  | setTimer handler timeout repeats =>
    exact (h.changes_queueJsTimer _ _).bind fun _ hr => ⟨_, hr⟩
  | clearJsTimer timerId => exact changes_clear s timerId
  | jsTimerFired timerId =>
    exact ⟨[], .same (List.append_nil _).symm rfl (fun _ => rfl) rfl rfl rfl⟩
  | cancelIfQueued id => exact changes_cancel s id
  -- a task marked ready is relabelled where it stands
  | signalReady id =>
    have hmark : s.Changes { s with loop := { s.loop with tasks := (s.loop.tasks.markReady id).2 } }
        [] := by
      refine .relabel (f := fun i _ => i = id) (fun i => ?_) rfl rfl rfl
      refine (TaskQueue.lookup_markReady i).trans ?_
      split_ifs with hi
      · simp [hi]
      · simp [hi]
    change ∃ new, s.Changes { s with loop := s.loop.signalReady id } new
    refine ⟨[], ?_⟩
    unfold EventLoop.signalReady
    rcases hm : s.loop.tasks.markReady id with ⟨_ | _, q⟩ <;> rw [hm] at hmark
    exacts [hmark, { hmark with }]
  -- so is one whose deadline has come
  | advanceTimers =>
    obtain ⟨n, q, hrun, -, hlook, -⟩ :=
      TaskQueue.expireTimers_spec s.now h.indexed (Nat.lt_succ_self _)
    refine Outcome.sat_bind.mpr ?_
    rw [EventLoop.advanceTimers, hrun]
    exact ⟨[], .relabel (f := fun _ e => e.deadline.any (· ≤ s.now)) hlook rfl rfl rfl⟩
  -- handles, futures and the stop are no business of the queue
  | acquireHandle =>
    refine Outcome.sat_bind.mpr (.of_value (fun loop hl => ?_) fun _ => trivial)
    rw [EventLoop.acquireHandle] at hl
    split_ifs at hl
    cases hl
    exact ⟨[], .same (List.append_nil _).symm rfl (fun _ => rfl) rfl rfl rfl⟩
  | dropHandle =>
    simp only [System.perform]
    split_ifs
    · exact ⟨[], .same (List.append_nil _).symm rfl (fun _ => rfl) rfl rfl rfl⟩
    · refine Outcome.sat_bind.mpr (.of_value (fun loop hl => ?_) fun _ => trivial)
      rw [EventLoop.dropHandle] at hl
      split_ifs at hl
      cases hl
      exact ⟨[], .same (List.append_nil _).symm rfl (fun _ => rfl) rfl rfl rfl⟩
  | requestStop => exact ⟨[], .same (List.append_nil _).symm rfl (fun _ => rfl) rfl rfl rfl⟩
  | spawnFuture => exact ⟨[], .same (List.append_nil _).symm rfl (fun _ => rfl) rfl rfl rfl⟩
  | endFuture => exact ⟨[], .same (List.append_nil _).symm rfl (fun _ => rfl) rfl rfl rfl⟩

end System

/-! ### The loop over the batch -/

/-- No call of `step` or `pop_ready` by the code that runs. -/
def Event.passive : Event κ ω → Bool
  | .code op => op.passive
  | _ => true

/-- A fate is the first one for good. -/
theorem firstFate_append_of_eq {id : TaskId} {l l' : List (Record κ ω)} {b : Bool}
    (h : firstFate id l = some b) : firstFate id (l ++ l') = some b := by
  rw [firstFate_append, h, Option.some_or]

theorem firstFate_append_of_none {id : TaskId} {l l' : List (Record κ ω)}
    (h : firstFate id l = none) : firstFate id (l ++ l') = firstFate id l' := by
  rw [firstFate_append, h, Option.none_or]

theorem firstFate_started {id i : TaskId} {task : Task κ ω} {d : Option Instant} {now : Instant} :
    firstFate i [(.started id task d now : Record κ ω)] = if i = id then some true else none := by
  simp only [firstFate, List.findSome?_cons, Record.fate, List.findSome?_nil, eq_comm (a := id)]
  split <;> simp_all

namespace System

variable {s₀ s t u : System κ ω} {batch todo past : List TaskId} {new new' : List (Record κ ω)}

/-- The tasks of the batch that have had their turn: each has run or was cancelled before, and
those that have run are recorded in the order of the batch. -/
structure Turned (past : List TaskId) (new : List (Record κ ω)) : Prop where
  fate : ∀ id ∈ past, firstFate id new ≠ none
  starts : starts new = past.filter fun id => firstFate id new ≠ some false

/-- A task of the batch that has not had its turn is queued, unless it was cancelled. -/
def Awaits (s : System κ ω) (new : List (Record κ ω)) (id : TaskId) : Prop :=
  id < s.loop.nextId ∧
    ((∃ e, s.entry id = some e) ∧ firstFate id new = none ∨
      s.entry id = none ∧ firstFate id new = some false)

/-- The loop over the batch: `new` is the record since the step was called in `s₀`, and `todo` are
the tasks of the batch it has still to turn to. -/
structure Inside (s₀ : System κ ω) (batch todo : List TaskId) (new : List (Record κ ω))
    (s : System κ ω) : Prop where
  wellFormed : s.WellFormed
  log : s.log = s₀.log ++ new
  nodup : batch.Nodup
  turned : ∃ past, batch = past ++ todo ∧ Turned past new
  awaits : ∀ id ∈ todo, s.Awaits new id
  /-- At most one task of the batch runs at a time, above the loop. -/
  stack : ∃ top : Option (Frame κ ω),
    s.stack = top.toList ++ .batch todo (!(starts new).isEmpty) :: s₀.stack ∧
    (∀ todo' ranAny, top ≠ some (.batch todo' ranAny)) ∧
    ∀ id task previous, top = some (.handler id task previous) → firstFate id new = some true

/-- The step has returned. -/
structure Ended (s₀ : System κ ω) (batch : List TaskId) (new : List (Record κ ω))
    (s : System κ ω) : Prop where
  log : s.log = s₀.log ++ new
  nodup : batch.Nodup
  turned : Turned batch new
  stack : s.stack = s₀.stack
  outcome : s.outcome = some
    (if starts new ≠ [] then .progressed else if s.loop.isAlive then .idle else .done)

/-- A later record leaves those who had their turn as they are, if it starts nothing. -/
theorem Turned.append (h : Turned past new) (hstarts : CoreRuntime.starts new' = []) :
    Turned past (new ++ new') := by
  have hfate (id : TaskId) (hid : id ∈ past) : firstFate id (new ++ new') = firstFate id new := by
    obtain ⟨b, hb⟩ := Option.ne_none_iff_exists'.mp (h.fate id hid)
    rw [firstFate_append_of_eq hb, hb]
  constructor
  · intro id hid
    rw [hfate id hid]
    exact h.fate id hid
  · rw [starts_append, hstarts, List.append_nil, h.starts]
    exact List.filter_congr fun id hid => by rw [hfate id hid]

/-- The next task has its turn: it was cancelled. -/
theorem Turned.skip {id : TaskId} (h : Turned past new) (hid : firstFate id new = some false) :
    Turned (past ++ [id]) new := by
  constructor
  · intro i hi
    rcases List.mem_append.mp hi with hi | hi
    · exact h.fate i hi
    · rw [List.mem_singleton.mp hi, hid]
      exact Option.some_ne_none _
  · simp [List.filter_append, hid, h.starts]

/-- The next task has its turn: it is run. -/
theorem Turned.run {id : TaskId} {task : Task κ ω} {d : Option Instant} {now : Instant}
    (h : Turned past new) (hid : firstFate id new = none) :
    Turned (past ++ [id]) (new ++ [.started id task d now]) := by
  have hfate (i : TaskId) (hi : i ∈ past) :
      firstFate i (new ++ [.started id task d now]) = firstFate i new := by
    obtain ⟨b, hb⟩ := Option.ne_none_iff_exists'.mp (h.fate i hi)
    rw [firstFate_append_of_eq hb, hb]
  have hself : firstFate id (new ++ [.started id task d now]) = some true := by
    rw [firstFate_append_of_none hid, firstFate_started, if_pos rfl]
  constructor
  · intro i hi
    rcases List.mem_append.mp hi with hi | hi
    · rw [hfate i hi]
      exact h.fate i hi
    · rw [List.mem_singleton.mp hi, hself]
      exact Option.some_ne_none _
  · rw [starts_append, h.starts, List.filter_append]
    congr 1
    · exact List.filter_congr fun i hi => by rw [hfate i hi]
    · simp [hself, CoreRuntime.starts, Record.start]

/-- An operation of the running code. -/
theorem Inside.changes (h : Inside s₀ batch todo new s) (hc : s.Changes t new')
    (ht : t.WellFormed) : Inside s₀ batch todo (new ++ new') t where
  wellFormed := ht
  log := by rw [hc.log, h.log, List.append_assoc]
  nodup := h.nodup
  turned := by
    obtain ⟨past, hbatch, hpast⟩ := h.turned
    exact ⟨past, hbatch, hpast.append hc.starts⟩
  awaits := by
    intro id hid
    obtain ⟨hlt, ⟨⟨e, he⟩, hfate⟩ | ⟨he, hfate⟩⟩ := h.awaits id hid
    · refine ⟨hlt.trans_le hc.grows, ?_⟩
      rw [firstFate_append_of_none hfate]
      rcases hc.queued he with ⟨⟨r, hstay, -⟩, hnone⟩ | hgone
      · exact .inl ⟨⟨_, hstay⟩, hnone⟩
      · exact .inr hgone
    · exact ⟨hlt.trans_le hc.grows, .inr ⟨(hc.gone he hlt).1, firstFate_append_of_eq hfate⟩⟩
  stack := by
    obtain ⟨top, hstack, hbatch, hrunning⟩ := h.stack
    rw [starts_append, hc.starts, List.append_nil, hc.stack]
    exact ⟨top, hstack, hbatch, fun id task previous htop =>
      firstFate_append_of_eq (hrunning id task previous htop)⟩

/-- A change that does not concern the tasks of the batch. -/
theorem Inside.same (h : Inside s₀ batch todo new s) (ht : t.WellFormed) (hlog : t.log = s.log)
    (hgrows : t.loop.nextId = s.loop.nextId) (hentry : ∀ id ∈ todo, t.entry id = s.entry id)
    (hstack : ∃ top : Option (Frame κ ω),
      t.stack = top.toList ++ .batch todo (!(starts new).isEmpty) :: s₀.stack ∧
      (∀ todo' ranAny, top ≠ some (.batch todo' ranAny)) ∧
      ∀ id task previous, top = some (.handler id task previous) →
        firstFate id new = some true) : Inside s₀ batch todo (new ++ []) t := by
  rw [List.append_nil]
  refine ⟨ht, hlog.trans h.log, h.nodup, h.turned, fun id hid => ?_, hstack⟩
  rw [Awaits, hgrows, hentry id hid]
  exact h.awaits id hid

/-- A task is taken from the queue: those of the batch behind it stay as they are. -/
theorem Awaits.started {id i : TaskId} {e : TaskEntry (Task κ ω)} {q : TaskQueue (Task κ ω)}
    {task : Task κ ω} {d : Option Instant} {now : Instant} (h : s.Awaits new i)
    (hr : s.loop.tasks.remove id = some (e, q)) (hne : i ≠ id)
    (hq : t.loop.tasks = q) (hids : t.loop.nextId = s.loop.nextId) :
    t.Awaits (new ++ [.started id task d now]) i := by
  have hentry : t.entry i = s.entry i := by
    rw [entry, hq, TaskQueue.lookup_remove hr, if_neg hne]
  have hfate : firstFate i (new ++ [.started id task d now]) = firstFate i new := by
    rw [firstFate_append, firstFate_started, if_neg hne, Option.or_none]
  rw [Awaits, hids, hentry, hfate]
  exact h

/-- What a task that starts leaves of the loop and the record, and the frame it runs in. -/
theorem start_eq (s : System κ ω) (id : TaskId) (task : Task κ ω) (d : Option Instant) :
    (s.start id task d).loop = s.loop ∧
    (s.start id task d).log = s.log ++ [.started id task d s.now] ∧
    ∃ f, (s.start id task d).stack = f :: s.stack ∧
      (∀ todo ranAny, f ≠ .batch todo ranAny) ∧
      ∀ i t previous, f = .handler i t previous → i = id := by
  cases task with
  | timer t =>
    refine ⟨rfl, rfl, _, rfl, by simp, ?_⟩
    rintro i t' previous heq
    cases heq
    rfl
  | other t => exact ⟨rfl, rfl, _, rfl, by simp, by simp⟩

theorem Follows.same (hlog : t.log = s.log) (hids : t.loop.nextId = s.loop.nextId)
    (hentry : ∀ id e, s.entry id = some e → t.entry id = some e) : s.Follows t [] where
  log := by rw [hlog, List.append_nil]
  grows := hids.ge
  queued := fun he => .inl (.of_eq (hentry _ _ he))

/-- The loop turns to the next task of its batch. -/
theorem Inside.dispatch {id : TaskId} (h : Inside s₀ batch (id :: todo) new s)
    (hstack : s.stack = .batch (id :: todo) (!(starts new).isEmpty) :: s₀.stack)
    (ht : t.WellFormed) (hstep : s.step .dispatch = .ok t) :
    ∃ new', s.Follows t new' ∧ Inside s₀ batch todo (new ++ new') t := by
  obtain ⟨past, hbatch, hturned⟩ := h.turned
  obtain ⟨hlt, hawaits⟩ := h.awaits id (List.mem_cons_self ..)
  have hnodup := h.nodup
  rw [hbatch, List.nodup_append] at hnodup
  have hnot : id ∉ todo := (List.nodup_cons.mp hnodup.2.1).1
  have hbatch' : batch = (past ++ [id]) ++ todo := by rw [hbatch, List.append_assoc]; rfl
  simp only [System.step, hstack] at hstep
  cases hr : s.loop.tasks.remove id with
  -- cancelled since the batch was made
  | none =>
    rw [hr] at hstep
    cases hstep
    have hnone : s.entry id = none := TaskQueue.remove_eq_none.mp hr
    have hfate : firstFate id new = some false := by
      rcases hawaits with ⟨⟨e, he⟩, -⟩ | ⟨-, hfate⟩
      · rw [hnone] at he
        cases he
      · exact hfate
    refine ⟨[], .same rfl rfl fun _ _ he => he, ?_⟩
    rw [List.append_nil]
    refine ⟨ht, h.log, h.nodup, ⟨past ++ [id], hbatch', hturned.skip hfate⟩, ?_, ?_⟩
    · exact fun i hi => h.awaits i (List.mem_cons_of_mem _ hi)
    · exact ⟨none, rfl, by simp, (by intros; contradiction)⟩
  -- it is queued still, so nothing has been said of it since the batch was made
  | some p =>
    obtain ⟨e, q⟩ := p
    rw [hr] at hstep
    have he : s.entry id = some e := (TaskQueue.remove_eq_some hr).1
    have hfate : firstFate id new = none := by
      rcases hawaits with ⟨-, hfate⟩ | ⟨hnone, -⟩
      · exact hfate
      · rw [hnone] at he
        cases he
    obtain ⟨hloop, hlog, f, hf, hnotBatch, hid⟩ := start_eq { s with
      loop := { s.loop with tasks := q }, stack := .batch todo true :: s₀.stack } id e.task
      e.deadline
    cases hstep
    refine ⟨[.started id e.task e.deadline s.now], ⟨hlog, ?_, ?_⟩, ht, ?_, h.nodup,
      ⟨past ++ [id], hbatch', hturned.run hfate⟩, ?_, some f, ?_, ?_, ?_⟩
    · rw [hloop]
    · intro i e' hi
      rw [firstFate_started, entry, hloop]
      change e'.Stays (q.entries.lookup i) ∨ _
      rw [TaskQueue.lookup_remove hr]
      split_ifs with hne
      · exact .inr (Option.some_ne_none _)
      · exact .inl (.of_eq hi)
    · rw [hlog, h.log, List.append_assoc]
    -- the tasks of the batch after it are others
    · intro i hi
      refine (h.awaits i (List.mem_cons_of_mem _ hi)).started hr ?_ ?_ ?_
      · rintro rfl
        exact hnot hi
      · rw [hloop]
      · rw [hloop]
    · rw [hf, starts_append]
      simp [CoreRuntime.starts, Record.start]
    · exact fun todo' ranAny heq => hnotBatch _ _ (Option.some.inj heq)
    · intro i t previous heq
      rw [hid i t previous (Option.some.inj heq), firstFate_append_of_none hfate, firstFate_started,
        if_pos rfl]

/-- The task that ran has returned. -/
theorem Inside.taskDone {threw : Bool} (h : Inside s₀ batch todo new s) (ht : t.WellFormed)
    (hstep : s.step (.taskDone threw) = .ok t) :
    s.Follows t [] ∧ Inside s₀ batch todo (new ++ []) t := by
  obtain ⟨top, hstack, hbatch, hrunning⟩ := h.stack
  -- nothing but the end of a handler touches the queue
  have hkeep (top' : Option (Frame κ ω)) (hb : ∀ todo' ranAny, top' ≠ some (.batch todo' ranAny))
      (hr : ∀ id task previous, top' = some (.handler id task previous) →
        firstFate id new = some true) (hlog : t.log = s.log) (hloop : t.loop = s.loop)
      (hs : t.stack = top'.toList ++ .batch todo (!(starts new).isEmpty) :: s₀.stack) :
      s.Follows t [] ∧ Inside s₀ batch todo (new ++ []) t := by
    have hentry (id : TaskId) : t.entry id = s.entry id := by rw [entry, hloop]
    refine ⟨.same hlog (by rw [hloop]) fun id e he => (hentry id).trans he, ?_⟩
    exact h.same ht hlog (by rw [hloop]) (fun id _ => hentry id) ⟨top', hs, hb, hr⟩
  cases top with
  | none =>
    simp only [System.step, hstack] at hstep
    cases hstep
    exact hkeep none hbatch hrunning rfl rfl hstack
  | some f =>
    simp only [System.step, hstack] at hstep
    cases f with
    | batch todo' ranAny => exact absurd rfl (hbatch todo' ranAny)
    | other id task =>
      cases hstep
      exact hkeep (some (.microtasks id)) (by simp) (by simp) rfl rfl rfl
    | microtasks id =>
      cases hstep
      exact hkeep _ hbatch hrunning rfl rfl hstack
    | handler id task previous =>
      cases hstep
      have hfate := hrunning id task previous rfl
      have haway : s.entry id = none := by
        refine h.wellFormed.away (id, task) ?_
        rw [running, hstack]
        exact List.mem_cons_self ..
      have hfinish : (task.finish s.loop id s.now).nextId = s.loop.nextId ∧ ∀ i, i ≠ id →
          (task.finish s.loop id s.now).tasks.entries.lookup i = s.entry i := by
        rw [TimerTask.finish]
        cases task.interval with
        | none => exact ⟨rfl, fun _ _ => rfl⟩
        | some interval =>
          simp only [EventLoop.requeueJsTimer]
          split_ifs with hmap
          · refine ⟨rfl, fun i hi => (TaskQueue.lookup_insert _ _).trans (if_neg hi)⟩
          · exact ⟨rfl, fun _ _ => rfl⟩
      refine ⟨.same rfl hfinish.1 fun i e he => ?_, h.same ht rfl hfinish.1 (fun i hi => ?_) ?_⟩
      · refine (hfinish.2 i ?_).trans he
        rintro rfl
        rw [haway] at he
        cases he
      · refine hfinish.2 i ?_
        rintro rfl
        -- a task of the batch that has not had its turn has not run
        rcases (h.awaits i hi).2 with ⟨-, hnone⟩ | ⟨-, hfalse⟩
        · rw [hfate] at hnone
          cases hnone
        · rw [hfate] at hfalse
          cases hfalse
      · exact ⟨some (.microtasks id), rfl, by simp, by simp⟩

/-- Where a step is: in its loop, or returned. -/
def Stage (s₀ : System κ ω) (batch : List TaskId) (new : List (Record κ ω)) (s : System κ ω) :
    Prop :=
  (∃ todo, Inside s₀ batch todo new s) ∨ Ended s₀ batch new s

/-- **One event** while the step is in its loop. -/
theorem Inside.step {e : Event κ ω} (h : Inside s₀ batch todo new s) (he : e.passive = true)
    (hstep : s.step e = .ok t) :
    ∃ new', s.Follows t new' ∧ Stage s₀ batch (new ++ new') t := by
  have ht : t.WellFormed := by
    have hsat := step_wellFormed h.wellFormed e
    rwa [hstep] at hsat
  have hidle (hs : s.step e = .ok s) :
      ∃ new', s.Follows t new' ∧ Stage s₀ batch (new ++ new') t := by
    obtain rfl : s = t := Outcome.ok.inj (hs.symm.trans hstep)
    refine ⟨[], .refl s, .inl ⟨todo, ?_⟩⟩
    rw [List.append_nil]
    exact h
  obtain ⟨top, hstack, hbatch, hrunning⟩ := h.stack
  cases e with
  -- the code of a task may queue and cancel, but neither starts nor dispatches
  | code op =>
    by_cases hcode : s.codeRuns = true
    · have hperform : s.perform op = .ok t := by rwa [System.step, if_pos hcode] at hstep
      have hsat := h.wellFormed.changes he
      rw [hperform] at hsat
      obtain ⟨new', hc⟩ := hsat
      exact ⟨new', hc.follows, .inl ⟨todo, h.changes hc ht⟩⟩
    · exact hidle (by rw [System.step, if_neg hcode]; rfl)
  | tick d =>
    cases hstep
    exact ⟨[], .same rfl rfl fun _ _ he => he,
      .inl ⟨todo, h.same ht rfl rfl (fun _ _ => rfl) h.stack⟩⟩
  | otherTimer =>
    cases hstep
    exact ⟨[], .same rfl rfl fun _ _ he => he,
      .inl ⟨todo, h.same ht rfl rfl (fun _ _ => rfl) h.stack⟩⟩
  | taskDone threw =>
    obtain ⟨hfollows, hinside⟩ := h.taskDone ht hstep
    exact ⟨[], hfollows, .inl ⟨todo, hinside⟩⟩
  | microtasksDone =>
    rcases top with _ | f
    · exact hidle (by simp only [System.step, hstack]; rfl)
    · cases f with
      | batch todo' ranAny => exact absurd rfl (hbatch todo' ranAny)
      | handler id task previous => exact hidle (by simp only [System.step, hstack]; rfl)
      | other id task => exact hidle (by simp only [System.step, hstack]; rfl)
      | microtasks id =>
        simp only [System.step, hstack] at hstep
        cases hstep
        refine ⟨[], .same rfl rfl fun _ _ he => he,
          .inl ⟨todo, h.same ht rfl rfl (fun _ _ => rfl)
            ⟨none, rfl, by simp, (by intros; contradiction)⟩⟩⟩
  -- the next of the batch starts when no task of it runs
  | dispatch =>
    rcases top with _ | f
    · cases todo with
      | nil => exact hidle (by simp only [System.step, hstack]; rfl)
      | cons id todo =>
        obtain ⟨new', hfollows, hinside⟩ := h.dispatch hstack ht hstep
        exact ⟨new', hfollows, .inl ⟨todo, hinside⟩⟩
    · cases f with
      | batch todo' ranAny => exact absurd rfl (hbatch todo' ranAny)
      | handler id task previous => exact hidle (by simp only [System.step, hstack]; rfl)
      | other id task => exact hidle (by simp only [System.step, hstack]; rfl)
      | microtasks id => exact hidle (by simp only [System.step, hstack]; rfl)
  | stepDone =>
    rcases top with _ | f
    · cases todo with
      | cons id todo => exact hidle (by simp only [System.step, hstack]; rfl)
      -- the batch is done
      | nil =>
        obtain ⟨past, hpast, hturned⟩ := h.turned
        rw [List.append_nil] at hpast
        simp only [System.step, hstack] at hstep
        cases hstep
        refine ⟨[], .same rfl rfl fun _ _ he => he, .inr ?_⟩
        rw [List.append_nil]
        refine ⟨h.log, h.nodup, hpast ▸ hturned, rfl, ?_⟩
        cases hs : starts new <;> rfl
    · cases f with
      | batch todo' ranAny => exact absurd rfl (hbatch todo' ranAny)
      | handler id task previous => exact hidle (by simp only [System.step, hstack]; rfl)
      | other id task => exact hidle (by simp only [System.step, hstack]; rfl)
      | microtasks id => exact hidle (by simp only [System.step, hstack]; rfl)

/-- The events of a step called on top of `depth` frames: the step has not returned, and the code
of its tasks does not drive the loop. -/
def Within (depth : ℕ) (s : System κ ω) (e : Event κ ω) : Prop :=
  depth < s.stack.length ∧ e.passive = true

/-- **The whole loop.** -/
theorem Stage.run (h : Stage s₀ batch new s)
    (hrun : (systemMachine κ ω).RunWhere (Within s₀.stack.length) s t) :
    ∃ new', s.Follows t new' ∧ Stage s₀ batch (new ++ new') t := by
  induction hrun with
  | refl => exact ⟨[], .refl s, by rwa [List.append_nil]⟩
  | @tail u t e hrun hok hstep ih =>
    obtain ⟨new', hfollows, hstage⟩ := ih
    rcases hstage with ⟨todo, hinside⟩ | hended
    · have hstep' : u.step e = .ok t := by
        change (u.step e).state? = some t at hstep
        cases hs : u.step e with
        | ok u' => rw [hs] at hstep; cases hstep; rfl
        | threw x u' => exact x.elim
        | panic p => rw [hs] at hstep; cases hstep
      obtain ⟨new'', hfollows', hstage⟩ := hinside.step hok.2 hstep'
      refine ⟨new' ++ new'', hfollows.trans hfollows', ?_⟩
      rwa [← List.append_assoc]
    · exact absurd hok.1 (by rw [hended.stack]; exact lt_irrefl _)

/-- The code above the loop can return to it. -/
theorem Inside.toLoop (h : Inside s₀ batch todo new s) :
    ∃ u new', (systemMachine κ ω).RunWhere (Within s₀.stack.length) s u ∧
      Inside s₀ batch todo new' u ∧
      u.stack = .batch todo (!(starts new').isEmpty) :: s₀.stack := by
  obtain ⟨top, hstack, hbatch, -⟩ := h.stack
  have hok {u : System κ ω} {f : Frame κ ω} {b : Bool} {e : Event κ ω}
      (hu : u.stack = f :: .batch todo b :: s₀.stack) (he : e.passive = true) :
      Within s₀.stack.length u e := by
    refine ⟨?_, he⟩
    rw [hu]
    exact Nat.lt_succ_of_lt (Nat.lt_succ_self _)
  -- the microtasks behind a task end
  have hdrain {u : System κ ω} {new' : List (Record κ ω)} {id : TaskId}
      (hu : Inside s₀ batch todo new' u)
      (hs : u.stack = .microtasks id :: .batch todo (!(starts new').isEmpty) :: s₀.stack) :
      ∃ v, (systemMachine κ ω).RunWhere (Within s₀.stack.length) u v ∧
        Inside s₀ batch todo new' v ∧
        v.stack = .batch todo (!(starts new').isEmpty) :: s₀.stack := by
    have hstep : u.step .microtasksDone =
        .ok { u with stack := .batch todo (!(starts new').isEmpty) :: s₀.stack } := by
      simp only [System.step, hs]
      rfl
    have hv := step_wellFormed hu.wellFormed .microtasksDone
    rw [hstep] at hv
    refine ⟨_, (Machine.RunWhere.refl u).tail_ok .microtasksDone (hok hs rfl) hstep, ?_, rfl⟩
    have hsame := hu.same hv rfl rfl (fun _ _ => rfl)
      ⟨none, rfl, by simp, (by intros; contradiction)⟩
    rwa [List.append_nil] at hsame
  rcases top with _ | f
  · exact ⟨s, new, .refl s, h, hstack⟩
  have hreturn {u : System κ ω} {id : TaskId} (hstep : s.step (.taskDone false) = .ok u)
      (hu : u.stack = .microtasks id :: .batch todo (!(starts new).isEmpty) :: s₀.stack) :
      ∃ v new', (systemMachine κ ω).RunWhere (Within s₀.stack.length) s v ∧
        Inside s₀ batch todo new' v ∧
        v.stack = .batch todo (!(starts new').isEmpty) :: s₀.stack := by
    have hwell := step_wellFormed h.wellFormed (.taskDone false)
    rw [hstep] at hwell
    have hinside := (h.taskDone hwell hstep).2
    rw [List.append_nil] at hinside
    obtain ⟨v, hrun, hv, hs⟩ := hdrain hinside hu
    refine ⟨v, new, ?_, hv, hs⟩
    exact ((Machine.RunWhere.refl s).tail_ok (.taskDone false) (hok hstack rfl) hstep).trans hrun
  cases f with
  | batch todo' ranAny => exact absurd rfl (hbatch todo' ranAny)
  | handler id task previous =>
    exact hreturn (by simp only [System.step, hstack]; rfl) rfl
  | other id task => exact hreturn (by simp only [System.step, hstack]; rfl) rfl
  | microtasks id =>
    obtain ⟨v, hrun, hv, hs⟩ := hdrain h hstack
    exact ⟨v, new, hrun, hv, hs⟩

/-- The step can return: the batch is finite and each of its tasks has one turn. -/
theorem Inside.returns (h : Inside s₀ batch todo new s) :
    ∃ t, (systemMachine κ ω).RunWhere (Within s₀.stack.length) s t ∧ t.stack = s₀.stack := by
  induction todo generalizing new s with
  | nil =>
    obtain ⟨u, new', hrun, hu, hs⟩ := h.toLoop
    have hok : Within s₀.stack.length u .stepDone := by
      refine ⟨?_, rfl⟩
      rw [hs]
      exact Nat.lt_succ_self _
    obtain ⟨v, hstep, hv⟩ : ∃ v, u.step .stepDone = .ok v ∧ v.stack = s₀.stack := by
      simp only [System.step, hs]
      exact ⟨_, rfl, rfl⟩
    exact ⟨v, hrun.tail_ok .stepDone hok hstep, hv⟩
  | cons id todo ih =>
    obtain ⟨u, new', hrun, hu, hs⟩ := h.toLoop
    have hok : Within s₀.stack.length u .dispatch := by
      refine ⟨?_, rfl⟩
      rw [hs]
      exact Nat.lt_succ_self _
    obtain ⟨v, hstep⟩ : ∃ v, u.step .dispatch = .ok v := by
      simp only [System.step, hs]
      cases u.loop.tasks.remove id with
      | none => exact ⟨_, rfl⟩
      | some p => exact ⟨_, rfl⟩
    have hv := step_wellFormed hu.wellFormed .dispatch
    rw [hstep] at hv
    obtain ⟨new'', -, hinside⟩ := hu.dispatch hs hv hstep
    obtain ⟨t, hrun', ht⟩ := ih hinside
    exact ⟨t, (hrun.tail_ok .dispatch hok hstep).trans hrun', ht⟩

/-! ### The call -/

/-- The batch of a step: the tasks that are ready when its timers have been advanced, in the order
of their positions. -/
structure IsBatch (s : System κ ω) (batch : List TaskId) : Prop where
  mem : ∀ id, id ∈ batch ↔ ∃ e, s.entry id = some e ∧ (e.expire s.now).ready = true
  sorted : batch.Pairwise fun i j => ∀ e e', s.entry i = some e → s.entry j = some e' →
    e.readyKey < e'.readyKey

theorem IsBatch.nodup (h : s.IsBatch batch) : batch.Nodup := by
  refine h.sorted.imp_of_mem fun {i j} hi _ hlt => ?_
  rintro rfl
  obtain ⟨e, he, -⟩ := (h.mem i).mp hi
  exact absurd (hlt e e he he) (lt_irrefl _)

/-- Calling `step`. -/
theorem Inside.enter (h : s₀.WellFormed) (hstep : s₀.perform .step = .ok s) :
    ∃ batch, s₀.IsBatch batch ∧ Inside s₀ batch batch [] s := by
  obtain ⟨n, q, hrun, hq, hlook, -⟩ :=
    TaskQueue.expireTimers_spec s₀.now h.indexed (Nat.lt_succ_self _)
  have ht : s.WellFormed := by
    have hsat := h.perform .step
    rwa [hstep] at hsat
  simp only [System.perform, EventLoop.advanceTimers, hrun] at hstep
  cases hstep
  have hexpired (id : TaskId) (e : TaskEntry (Task κ ω)) (he : s₀.entry id = some e) :
      q.entries.lookup id = some (e.expire s₀.now) :=
    (hlook id).trans (congrArg _ he)
  have hkey {k : ReadyKey} (hk : k ∈ q.ready) :
      ∃ e, s₀.entry (ofLex k).2 = some e ∧ (e.expire s₀.now).ready = true ∧ e.readyKey = k := by
    obtain ⟨id, e', he', hready, rfl⟩ := hq.mem_ready.mp hk
    obtain ⟨e, he, rfl⟩ := Option.map_eq_some_iff.mp ((hlook id).symm.trans he')
    have hid : e.id = id := h.indexed.own he
    exact ⟨e, (congrArg s₀.entry hid).trans he, hready, rfl⟩
  -- the ready set lists the keys in order, and those are the ready tasks
  have hbatch : s₀.IsBatch (q.ready.elems.map fun key => (ofLex key).2) := by
    constructor
    · intro id
      rw [List.mem_map]
      constructor
      · rintro ⟨k, hk, rfl⟩
        obtain ⟨e, he, hready, -⟩ := hkey hk
        exact ⟨e, he, hready⟩
      · rintro ⟨e, he, hready⟩
        refine ⟨e.readyKey, hq.mem_ready.mpr ⟨id, _, hexpired id e he, hready, rfl⟩, ?_⟩
        exact h.indexed.own he
    · rw [List.pairwise_map]
      refine q.ready.sorted.imp_of_mem fun {k k'} hk hk' hlt => ?_
      intro e e' he he'
      obtain ⟨e₁, he₁, -, rfl⟩ := hkey hk
      obtain ⟨e₂, he₂, -, rfl⟩ := hkey hk'
      rw [he] at he₁
      rw [he'] at he₂
      cases he₁
      cases he₂
      exact hlt
  refine ⟨_, hbatch, ht, (List.append_nil _).symm, hbatch.nodup,
    ⟨[], rfl, (by intros; contradiction), rfl⟩, ?_, none, ?_, by simp, (by intros; contradiction)⟩
  · intro id hid
    obtain ⟨e, he, -⟩ := (hbatch.mem id).mp hid
    exact ⟨h.lt_of_stands (h.stands he), .inl ⟨⟨_, hexpired id e he⟩, rfl⟩⟩
  · change Frame.batch (s₀.loop.batchBuf ++ _) false :: s₀.stack = _
    rw [h.buffer]
    rfl

instance (depth : ℕ) (s : System κ ω) (e : Event κ ω) : Decidable (Within depth s e) :=
  inferInstanceAs (Decidable (_ ∧ _))

end System

end CoreRuntime
