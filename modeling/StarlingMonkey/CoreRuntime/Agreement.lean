import StarlingMonkey.CoreRuntime.System

/-!
# The queue of a loop over whole runs

`WellFormed` is what holds of a loop between any two operations, whatever the tasks do: the queue's
indexes agree, a timer task that runs is not in the queue, task ids were handed out in order, each
once, and an id stands for the task it was handed out for. `step_wellFormed` says that every event
keeps it and which assertions can fail at all.
-/

namespace CoreRuntime

variable {κ ω σ : Type}

/-- The task, whatever its nesting level: an interval is queued again one level deeper. -/
def Task.identity : Task κ ω → Task κ ω
  | .timer t => .timer { t with nestingLevel := 0 }
  | .other t => .other t

/-- The timer task a frame holds while its handler runs. -/
def Frame.running : Frame κ ω → Option (TaskId × TimerTask κ)
  | .handler id task _ => some (id, task)
  | _ => none

/-- The new task id a record notes. -/
def Record.allocation : Record κ ω → Option (TaskId × Task κ ω)
  | .allocated id task => some (id, task)
  | _ => none

/-- The loop errors of a counter that is used up. Nothing else can fail. -/
def Abort.Exhausted : Abort → Prop
  | .taskIdOverflow | .counterWrapped | .interestOverflow => True
  | _ => False

namespace System

/-- The timer tasks whose handlers run, innermost first. -/
def running (s : System κ ω) : List (TaskId × TimerTask κ) := s.stack.filterMap Frame.running

/-- The task ids handed out so far, with their tasks, in order. -/
def allocations (s : System κ ω) : List (TaskId × Task κ ω) := s.log.filterMap Record.allocation

/-- An id stands for the task it was handed out for. -/
def Stands (s : System κ ω) (id : TaskId) (task : Task κ ω) : Prop :=
  ∃ first, (id, first) ∈ s.allocations ∧ first.identity = task.identity

/-- What holds of a loop between any two operations. -/
structure WellFormed (s : System κ ω) : Prop where
  /-- The indexes of the queue agree. -/
  indexed : s.loop.tasks.Indexed
  /-- A timer task that runs is not in the queue. -/
  away : ∀ p ∈ s.running, s.loop.tasks.entries.lookup p.1 = none
  /-- No timer task runs twice at a time. -/
  nodup : (s.running.map Prod.fst).Nodup
  /-- Task ids are handed out in order, each once. -/
  ids : s.allocations.map Prod.fst = List.range s.loop.nextId
  /-- A queued task is the one its id was handed out for. -/
  stands : ∀ {id e}, s.loop.tasks.entries.lookup id = some e → s.Stands id e.task
  /-- So is a timer task that runs. -/
  standsRunning : ∀ p ∈ s.running, s.Stands p.1 (.timer p.2)
  /-- Between steps the batch buffer is empty. -/
  buffer : s.loop.batchBuf = []
  /-- The interest count counts the handles. -/
  handles : s.loop.interest = s.handles
  /-- The timer ids in use are taken from the counter. -/
  timerIds : ∀ k ∈ s.loop.jsTimers, k < s.counter

variable {s : System κ ω}

theorem wellFormed_initial (now : Instant) (counter : ℕ) :
    (initial now counter : System κ ω).WellFormed where
  indexed := TaskQueue.indexed_empty
  away := by simp [running, initial]
  nodup := List.nodup_nil
  ids := rfl
  stands := by simp [initial, EventLoop.new, TaskQueue.empty]
  standsRunning := by simp [running, initial]
  buffer := rfl
  handles := rfl
  timerIds := by simp [initial, EventLoop.new]

/-! ### Ids that are handed out -/

theorem WellFormed.lt_of_stands (h : s.WellFormed) {id : TaskId} {task : Task κ ω}
    (hs : s.Stands id task) : id < s.loop.nextId := by
  obtain ⟨first, hmem, -⟩ := hs
  have hid : id ∈ s.allocations.map Prod.fst := List.mem_map_of_mem hmem
  rw [h.ids] at hid
  exact List.mem_range.mp hid

/-- The next id is not in use. -/
theorem WellFormed.lookup_next (h : s.WellFormed) :
    s.loop.tasks.entries.lookup s.loop.nextId = none := by
  cases he : s.loop.tasks.entries.lookup s.loop.nextId with
  | none => rfl
  | some e => exact absurd (h.lt_of_stands (h.stands he)) (lt_irrefl _)

/-- An id that a running timer task has is not that of a queued one. -/
theorem WellFormed.not_running (h : s.WellFormed) {id : TaskId} {e : TaskEntry (Task κ ω)}
    (he : s.loop.tasks.entries.lookup id = some e) : id ∉ s.running.map Prod.fst := by
  intro hmem
  obtain ⟨p, hp, rfl⟩ := List.mem_map.mp hmem
  simp [h.away p hp] at he

/-! ### What a change of the queue keeps -/

variable {t : System κ ω}

/-- A change that queues nothing and starts no timer. -/
theorem WellFormed.carry (h : s.WellFormed) (hq : t.loop.tasks.Indexed)
    (hlook : ∀ {i e}, t.loop.tasks.entries.lookup i = some e →
      ∃ e', s.loop.tasks.entries.lookup i = some e' ∧ e'.task = e.task)
    (hrun : t.running = s.running) (halloc : t.allocations = s.allocations)
    (hids : t.loop.nextId = s.loop.nextId)
    (hbuf : t.loop.batchBuf = s.loop.batchBuf)
    (hinterest : t.loop.interest = s.loop.interest)
    (hhandles : t.handles = s.handles)
    (htimers : t.loop.jsTimers = s.loop.jsTimers)
    (hcounter : t.counter = s.counter) : t.WellFormed where
  indexed := hq
  away := by
    intro p hp
    cases he : t.loop.tasks.entries.lookup p.1 with
    | none => rfl
    | some e =>
      obtain ⟨e', he', -⟩ := hlook he
      simp [h.away p (hrun ▸ hp)] at he'
  nodup := by rw [hrun]; exact h.nodup
  ids := by rw [halloc, hids, h.ids]
  stands := by
    intro i e he
    obtain ⟨e', he', htask⟩ := hlook he
    rw [Stands, halloc, ← htask]
    exact h.stands he'
  standsRunning := by
    intro p hp
    rw [Stands, halloc]
    exact h.standsRunning p (hrun ▸ hp)
  buffer := hbuf.trans h.buffer
  handles := by rw [hinterest, hhandles, h.handles]
  timerIds := by rw [htimers, hcounter]; exact h.timerIds

/-- A new task is queued. -/
theorem WellFormed.insert (h : s.WellFormed) {task : Task κ ω} {ready : Bool}
    {deadline : Option Instant} {counter : ℕ} {loop : EventLoop κ ω} {log : List (Record κ ω)}
    (htasks : loop.tasks = s.loop.tasks.insert ⟨s.loop.nextId, task, ready, deadline⟩)
    (hids : loop.nextId = s.loop.nextId + 1)
    (hlog : log.filterMap Record.allocation = s.allocations ++ [(s.loop.nextId, task)])
    (hbuf : loop.batchBuf = s.loop.batchBuf) (hinterest : loop.interest = s.loop.interest)
    (htimers : ∀ k ∈ loop.jsTimers, k < counter) :
    WellFormed { s with loop, counter, log } where
  indexed := by rw [htasks]; exact h.indexed.insert h.lookup_next
  away := by
    intro p hp
    rw [htasks, TaskQueue.lookup_insert, if_neg, h.away p hp]
    rintro hid
    exact absurd (h.lt_of_stands (h.standsRunning p hp)) (hid ▸ lt_irrefl _)
  nodup := h.nodup
  ids := by
    rw [allocations, hlog, hids, List.range_succ, List.map_append, h.ids]
    rfl
  stands := by
    intro id e he
    rw [htasks, TaskQueue.lookup_insert] at he
    rw [Stands, allocations, hlog]
    split_ifs at he with hid
    · refine ⟨task, List.mem_append_right _ ?_, ?_⟩
      · simp [hid]
      · rw [← Option.some.inj he]
    · obtain ⟨first, hmem, heq⟩ := h.stands he
      exact ⟨first, List.mem_append_left _ hmem, heq⟩
  standsRunning := by
    intro p hp
    obtain ⟨first, hmem, heq⟩ := h.standsRunning p hp
    rw [Stands, allocations, hlog]
    exact ⟨first, List.mem_append_left _ hmem, heq⟩
  buffer := hbuf.trans h.buffer
  handles := hinterest.trans h.handles
  timerIds := htimers

/-- A task is taken from the queue and starts. -/
theorem WellFormed.start (h : s.WellFormed) (frames : List (Frame κ ω)) {id : TaskId}
    {e : TaskEntry (Task κ ω)} {q : TaskQueue (Task κ ω)}
    (hr : s.loop.tasks.remove id = some (e, q))
    (hrun : frames.filterMap Frame.running = s.running) :
    WellFormed (System.start { s with loop := { s.loop with tasks := q }, stack := frames } id
      e.task e.deadline) := by
  have he := (TaskQueue.remove_eq_some hr).1
  have hrest := TaskQueue.lookup_remove hr
  have hq := h.indexed.remove hr
  have hlook {i : TaskId} {e' : TaskEntry (Task κ ω)} (hi : q.entries.lookup i = some e') :
      ∃ e'', s.loop.tasks.entries.lookup i = some e'' ∧ e''.task = e'.task := by
    rw [hrest] at hi
    split_ifs at hi
    exact ⟨e', hi, rfl⟩
  have halloc : (s.log ++ [Record.started id e.task e.deadline s.now]).filterMap Record.allocation
      = s.allocations := by simp [allocations, Record.allocation]
  cases htask : e.task with
  | other t =>
    rw [htask] at halloc
    exact h.carry hq hlook ((List.filterMap_cons_none rfl).trans hrun) halloc
      rfl rfl rfl rfl rfl rfl
  | timer t =>
    have hnot : id ∉ s.running.map Prod.fst := h.not_running he
    have hstands : s.Stands id (.timer t) := htask ▸ h.stands he
    have hbase : WellFormed { s with
        loop := { s.loop with tasks := q }, stack := frames
        log := s.log ++ [Record.started id (.timer t) e.deadline s.now] } :=
      h.carry hq hlook hrun (htask ▸ halloc) rfl rfl rfl rfl rfl rfl
    refine ⟨hbase.indexed, ?_, ?_, hbase.ids, hbase.stands, ?_, hbase.buffer, hbase.handles,
      hbase.timerIds⟩
    · intro p hp
      rcases List.mem_cons.mp hp with rfl | hp
      exacts [(hrest id).trans (if_pos rfl), hbase.away p hp]
    · refine List.nodup_cons.mpr ⟨?_, hbase.nodup⟩
      rwa [← hrun] at hnot
    · intro p hp
      rcases List.mem_cons.mp hp with rfl | hp
      · obtain ⟨first, hmem, heq⟩ := hstands
        rw [← halloc, htask] at hmem
        exact ⟨first, hmem, heq⟩
      · exact hbase.standsRunning p hp

/-- The handler of a timer task has returned. -/
theorem WellFormed.finish (h : s.WellFormed) {id : TaskId} {task : TimerTask κ} {n : ℕ}
    {frames : List (Frame κ ω)} (hs : s.stack = .handler id task n :: frames) :
    WellFormed { s with
      loop := task.finish s.loop id s.now, nesting := n, stack := .microtasks id :: frames } := by
  have hrun : s.running = (id, task) :: frames.filterMap Frame.running := by
    rw [running, hs]; rfl
  have haway := h.away
  have hnodup := h.nodup
  have hstands := h.standsRunning
  rw [hrun] at haway hnodup hstands
  obtain ⟨hnot, hnodup'⟩ := List.nodup_cons.mp hnodup
  -- the timer is no longer running, and the queue is as it was
  have hbase (timers : AList fun _ : ℕ => TaskId) (htimers : ∀ k ∈ timers, k < s.counter) :
      WellFormed { s with
        loop := { s.loop with jsTimers := timers }, nesting := n
        stack := .microtasks id :: frames } :=
    ⟨h.indexed, fun p hp => haway p (List.mem_cons_of_mem _ hp), hnodup', h.ids, h.stands,
      fun p hp => hstands p (List.mem_cons_of_mem _ hp), h.buffer, h.handles, htimers⟩
  rw [TimerTask.finish]
  cases hrepeat : task.interval with
  | none => exact hbase _ fun k hk => h.timerIds k ((AList.mem_erase.mp hk).2)
  | some interval =>
    simp only [EventLoop.requeueJsTimer]
    split_ifs with hmap
    swap; · exact hbase _ h.timerIds
    have hfree : s.loop.tasks.entries.lookup id = none := haway _ (List.mem_cons_self ..)
    have hb := hbase _ h.timerIds
    refine ⟨hb.indexed.insert hfree, ?_, hb.nodup, hb.ids, ?_, hb.standsRunning, hb.buffer,
      hb.handles, hb.timerIds⟩
    · intro p hp
      have hne : p.1 ≠ id := fun hid => hnot (List.mem_map.mpr ⟨p, hp, hid⟩)
      exact (TaskQueue.lookup_insert _ _).trans ((if_neg hne).trans (hb.away p hp))
    · intro i e he
      replace he := (TaskQueue.lookup_insert _ _).symm.trans he
      split_ifs at he with hi
      · obtain ⟨first, hmem, heq⟩ := hstands _ (List.mem_cons_self ..)
        rw [← Option.some.inj he, hi]
        exact ⟨first, hmem, by rw [heq, Task.identity, Task.identity, hrepeat]⟩
      · exact hb.stands he

/-! ### What the operations keep -/

theorem nextTaskId_sat {el : EventLoop κ ω} {P : TaskId × EventLoop κ ω → Prop} {Q : σ → Prop}
    {E : Abort → Prop} (h : P (el.nextId, { el with nextId := el.nextId + 1 }))
    (hE : E .taskIdOverflow) : (el.nextTaskId : Result σ _).Sat P Q E := by
  rw [EventLoop.nextTaskId]
  split_ifs
  exacts [h, hE]

/-- A timer id is found at once, or after skipping zero, when the ids in use are below the
counter. -/
theorem allocateJsTimerId_sat {el : EventLoop κ ω} {counter : ℕ} {Q : σ → Prop}
    (h : ∀ k ∈ el.jsTimers, k < counter) (n : ℕ) :
    (el.allocateJsTimerId (n + 2) counter : Result σ _).Sat
      (fun r => counter ≤ r.1 ∧ r.1 ≠ 0 ∧ r.2 = r.1 + 1) Q Abort.Exhausted := by
  have hfree {c : ℕ} (hc : counter ≤ c) : c ∉ el.jsTimers := fun hmem =>
    absurd (h c hmem) (not_lt.mpr hc)
  simp only [EventLoop.allocateJsTimerId]
  split_ifs with h1 h2 h3 h4
  · exact ⟨le_rfl, h2.1, rfl⟩
  · exact ⟨Nat.le_succ _, Nat.succ_ne_zero _, rfl⟩
  · exact absurd ⟨Nat.succ_ne_zero _, hfree (Nat.le_succ _)⟩ h4
  · trivial
  · trivial

/-- Queueing a timer. -/
theorem WellFormed.queueJsTimer (h : s.WellFormed) (deadline : Instant)
    (makeTask : ℕ → Task κ ω) {Q : System κ ω → Prop} :
    (s.loop.queueJsTimer s.counter deadline makeTask : Result (System κ ω) _).Sat
      (fun r => WellFormed { s with
        loop := r.2.2.2, counter := r.2.2.1
        log := s.log ++ [.allocated r.2.1 (makeTask r.1), .issued r.1 r.2.1] }) Q
      Abort.Exhausted := by
  refine (allocateJsTimerId_sat h.timerIds _).bind fun r hid => ?_
  obtain ⟨timerId, counter⟩ := r
  obtain ⟨hle, -, rfl⟩ : s.counter ≤ timerId ∧ timerId ≠ 0 ∧ counter = timerId + 1 := hid
  refine Outcome.sat_bind.mpr (nextTaskId_sat ?_ trivial)
  refine h.insert rfl rfl ?_ rfl rfl fun k hk => ?_
  · simp [allocations, Record.allocation]
  · rcases (AList.mem_insert _).mp hk with rfl | hk
    exacts [Nat.lt_succ_self _, Nat.lt_succ_of_lt ((h.timerIds k hk).trans_le hle)]

theorem WellFormed.advanceTimers (h : s.WellFormed) {Q : System κ ω → Prop} :
    (s.loop.advanceTimers s.now : Result (System κ ω) _).Sat
      (fun r => WellFormed { s with loop := r.2 }) Q Abort.Exhausted := by
  obtain ⟨n, q, hrun, hq, hlook, -⟩ :=
    TaskQueue.expireTimers_spec s.now h.indexed (Nat.lt_succ_self _)
  rw [EventLoop.advanceTimers, hrun]
  refine h.carry hq (fun {i e} he => ?_) rfl rfl rfl rfl rfl rfl rfl rfl
  obtain ⟨e', he', rfl⟩ := Option.map_eq_some_iff.mp ((hlook i).symm.trans he)
  exact ⟨e', he', rfl⟩

theorem WellFormed.cancel (h : s.WellFormed) (id : TaskId) : (s.cancel id).WellFormed := by
  unfold System.cancel EventLoop.cancelIfQueued
  cases hr : s.loop.tasks.remove id with
  | none => exact h
  | some p =>
    obtain ⟨e, q⟩ := p
    refine h.carry (h.indexed.remove hr) (fun {i e'} he => ?_) rfl ?_ rfl rfl rfl rfl rfl rfl
    · have hl := TaskQueue.lookup_remove hr i
      rw [show AList.lookup i q.entries = some e' from he] at hl
      split_ifs at hl
      exact ⟨e', hl.symm, rfl⟩
    · simp [allocations, Record.allocation]

/-- Clearing a timer id takes the id out of the map, and cancels the task. -/
theorem clear_eq (s : System κ ω) (timerId : ℕ) : s.clear timerId =
    match s.loop.jsTimers.lookup timerId with
    | none => { s with log := s.log ++ [.cleared timerId] }
    | some id => cancel { s with
        loop := { s.loop with jsTimers := s.loop.jsTimers.erase timerId }
        log := s.log ++ [.cleared timerId] } id := by
  unfold clear EventLoop.clearJsTimer
  cases hl : s.loop.jsTimers.lookup timerId with
  | none => rfl
  | some id =>
    simp only [cancel, EventLoop.cancelIfQueued]
    cases hr : s.loop.tasks.remove id with
    | none =>
      have := TaskQueue.remove_eq_none.mp hr
      simp [this]
    | some p =>
      have := (TaskQueue.remove_eq_some hr).1
      simp [this]

theorem WellFormed.clear (h : s.WellFormed) (timerId : ℕ) : (s.clear timerId).WellFormed := by
  have hlog : WellFormed { s with log := s.log ++ [.cleared timerId] } :=
    h.carry h.indexed (fun he => ⟨_, he, rfl⟩) rfl (by simp [allocations, Record.allocation])
      rfl rfl rfl rfl rfl rfl
  rw [clear_eq]
  cases s.loop.jsTimers.lookup timerId with
  | none => exact hlog
  | some id =>
    have herase : WellFormed { s with
        loop := { s.loop with jsTimers := s.loop.jsTimers.erase timerId }
        log := s.log ++ [.cleared timerId] } :=
      { hlog with timerIds := fun k hk => h.timerIds k (AList.mem_erase.mp hk).2 }
    exact herase.cancel id

/-- The first ready task is live. -/
theorem WellFormed.remove_first (h : s.WellFormed) {key : ReadyKey}
    (hf : s.loop.tasks.ready.first? = some key) :
    ∃ e q, s.loop.tasks.remove (ofLex key).2 = some (e, q) ∧ e.id = (ofLex key).2 := by
  obtain ⟨id, e, he, -, hkey⟩ := h.indexed.mem_ready.mp (SortedSet.first?_mem hf)
  have hid : e.id = (ofLex key).2 := congrArg (fun k : ReadyKey => (ofLex k).2) hkey
  rw [h.indexed.own he] at hid
  cases hr : s.loop.tasks.remove (ofLex key).2 with
  | none => simp [TaskQueue.remove_eq_none.mp (hid ▸ hr)] at he
  | some p =>
    obtain ⟨e', q⟩ := p
    exact ⟨e', q, rfl, h.indexed.own (TaskQueue.remove_eq_some hr).1⟩

theorem WellFormed.popReady (h : s.WellFormed) :
    (s.perform .popReady).Sat WellFormed WellFormed Abort.Exhausted := by
  refine Outcome.sat_bind.mpr ?_
  rw [EventLoop.popReady]
  cases hf : s.loop.tasks.ready.first? with
  | none => exact h
  | some key =>
    obtain ⟨e, q, hr, hid⟩ := h.remove_first hf
    have hstart := h.start s.stack hr rfl
    have he := (TaskQueue.remove_eq_some hr).1
    rw [← hid] at he hstart
    simpa [hr, he] using hstart

/-- **Every operation** keeps the queue in order, and fails only when a counter is used up. -/
theorem WellFormed.perform (h : s.WellFormed) (op : Op κ ω) :
    (s.perform op).Sat WellFormed WellFormed Abort.Exhausted := by
  cases op with
  | queue task =>
    refine Outcome.sat_bind.mpr (Outcome.sat_bind.mpr (nextTaskId_sat ?_ trivial))
    exact h.insert rfl rfl (by simp [allocations, Record.allocation]) rfl rfl h.timerIds
  | queueReady task =>
    refine Outcome.sat_bind.mpr (Outcome.sat_bind.mpr (nextTaskId_sat ?_ trivial))
    exact h.insert rfl rfl (by simp [allocations, Record.allocation]) rfl rfl h.timerIds
  | queueTimer task deadline =>
    refine Outcome.sat_bind.mpr (Outcome.sat_bind.mpr (nextTaskId_sat ?_ trivial))
    exact h.insert rfl rfl (by simp [allocations, Record.allocation]) rfl rfl h.timerIds
  | queueJsTimer deadline makeTask =>
    exact (h.queueJsTimer deadline makeTask).bind fun _ hr => hr
  | setTimer handler timeout repeats => exact (h.queueJsTimer _ _).bind fun _ hr => hr
  | clearJsTimer timerId => exact h.clear timerId
  | jsTimerFired timerId =>
    exact { h with timerIds := fun k hk => h.timerIds k (AList.mem_erase.mp hk).2 }
  | cancelIfQueued id => exact h.cancel id
  -- both indexes keep the task: only its flag is set
  | signalReady id =>
    have hmark : WellFormed
        { s with loop := { s.loop with tasks := (s.loop.tasks.markReady id).2 } } := by
      refine h.carry (h.indexed.markReady id) (fun {i e} he => ?_) rfl rfl rfl rfl rfl rfl rfl rfl
      rw [TaskQueue.lookup_markReady] at he
      split_ifs at he with hi
      · obtain ⟨e', he', rfl⟩ := Option.map_eq_some_iff.mp he
        exact ⟨e', hi ▸ he', rfl⟩
      · exact ⟨e, he, rfl⟩
    change WellFormed { s with loop := s.loop.signalReady id }
    unfold EventLoop.signalReady
    rcases hm : s.loop.tasks.markReady id with ⟨_ | _, q⟩ <;> rw [hm] at hmark
    exacts [hmark, { hmark with }]
  | advanceTimers => exact h.advanceTimers.bind fun _ hr => hr
  | popReady => exact h.popReady
  | step =>
    refine h.advanceTimers.bind fun r hr => ?_
    exact { hr with buffer := rfl }
  | acquireHandle =>
    refine Outcome.sat_bind.mpr ?_
    rw [EventLoop.acquireHandle]
    split_ifs
    · exact { h with handles := congrArg (· + 1) h.handles }
    · trivial
  | dropHandle =>
    simp only [System.perform]
    -- a drop without a handle is refused before it would underflow
    split_ifs with hzero
    · exact h
    · refine Outcome.sat_bind.mpr ?_
      rw [EventLoop.dropHandle, if_neg (h.handles ▸ hzero)]
      exact { h with handles := congrArg (· - 1) h.handles }
  | requestStop => exact { h with }
  | spawnFuture => exact { h with }
  | endFuture => exact { h with }

/-- **Every event** keeps the queue in order, and fails only when a counter is used up. -/
theorem step_wellFormed (h : s.WellFormed) (e : Event κ ω) :
    (s.step e).Sat WellFormed WellFormed Abort.Exhausted := by
  cases e with
  | code op =>
    rw [System.step]
    split_ifs
    exacts [h.perform op, h]
  | tick d => exact { h with }
  | otherTimer => exact { h with timerIds := fun k hk => Nat.lt_succ_of_lt (h.timerIds k hk) }
  | dispatch =>
    rw [System.step]
    split
    · rename_i id todo ranAny frames hs
      have hrun : s.running = frames.filterMap Frame.running := by rw [running, hs]; rfl
      cases hr : s.loop.tasks.remove id with
      | none =>
        exact h.carry h.indexed (fun he => ⟨_, he, rfl⟩) hrun.symm rfl rfl rfl rfl rfl rfl rfl
      | some p => exact h.start _ hr hrun.symm
    · exact h
  | taskDone threw =>
    rw [System.step]
    split
    · exact h.finish ‹_›
    · rename_i id t frames hs
      exact h.carry h.indexed (fun he => ⟨_, he, rfl⟩) (by rw [running, running, hs]; rfl) rfl
        rfl rfl rfl rfl rfl rfl
    · exact h
  | microtasksDone =>
    rw [System.step]
    split
    · rename_i id frames hs
      exact h.carry h.indexed (fun he => ⟨_, he, rfl⟩) (by rw [running, running, hs]; rfl) rfl
        rfl rfl rfl rfl rfl rfl
    · exact h
  | stepDone =>
    rw [System.step]
    split
    · rename_i ranAny frames hs
      exact h.carry h.indexed (fun he => ⟨_, he, rfl⟩) (by rw [running, running, hs]; rfl) rfl rfl
        h.buffer.symm rfl rfl rfl rfl
    · exact h

/-- What every run keeps. -/
theorem run_wellFormed (h : s.WellFormed) (hrun : (systemMachine κ ω).Run s t) : t.WellFormed :=
  hrun.inv_of_sat h fun _ e hs _ => step_wellFormed hs e

/-! ### What the loop answers -/

theorem hasReady_iff (h : s.WellFormed) : s.loop.hasReady = true ↔
    ∃ id e, s.loop.tasks.entries.lookup id = some e ∧ e.ready = true := by
  have hfirst := not_iff_not.mpr h.indexed.first_ready_iff
  rw [not_not, SortedSet.first?, List.head?_eq_none_iff] at hfirst
  rw [← hfirst, EventLoop.hasReady, Bool.not_eq_true', List.isEmpty_eq_false_iff]

theorem hasPending_iff : s.loop.hasPending = true ↔
    ∃ id e, s.loop.tasks.entries.lookup id = some e := by
  rw [EventLoop.hasPending, Bool.not_eq_true', List.isEmpty_eq_false_iff]
  constructor
  · intro hne
    obtain ⟨⟨id, e⟩, hmem⟩ := List.exists_mem_of_ne_nil _ hne
    exact ⟨id, e, AList.mem_lookup_iff.mpr hmem⟩
  · rintro ⟨id, e, he⟩ hnil
    simpa [hnil] using AList.mem_lookup_iff.mp he

theorem timeToNextTimer_iff (h : s.WellFormed) {now : Instant} {w : Duration} :
    s.loop.timeToNextTimer now = some w ↔ ∃ d, IsLeast s.loop.tasks.waiting d ∧ w = d - now := by
  rw [EventLoop.timeToNextTimer, Option.map_eq_some_iff]
  constructor
  · rintro ⟨k, hk, rfl⟩
    exact ⟨_, h.indexed.first_timer hk, rfl⟩
  · rintro ⟨d, hd, rfl⟩
    cases hk : s.loop.tasks.timers.first? with
    | none =>
      have hmem := hd.1
      rw [h.indexed.no_timer_iff.mp hk] at hmem
      exact absurd hmem (Set.notMem_empty d)
    | some k => exact ⟨k, rfl, by rw [(h.indexed.first_timer hk).unique hd]⟩

/-- **The task queue of a loop over a whole run**, whatever code its tasks run and however deep the
steps are nested. The indexes of the queue hold exactly the ready entries and the waiting timers,
entries are stored under their own ids, ids are handed out once each and stand for one task, the
queries agree with the entries, only a used up counter can end the process (the ready set never
names a task that is not live), and expiry ends and marks exactly the timers that are due. -/
theorem queue_agrees {now : Instant} {counter : ℕ}
    (hrun : (systemMachine κ ω).Run (initial now counter) t) :
    t.loop.tasks.Indexed ∧
    (t.allocations.map Prod.fst).Nodup ∧
    (∀ id e, t.loop.tasks.entries.lookup id = some e → t.Stands id e.task) ∧
    (∀ p ∈ t.running, t.Stands p.1 (.timer p.2)) ∧
    (t.loop.hasReady = true ↔
      ∃ id e, t.loop.tasks.entries.lookup id = some e ∧ e.ready = true) ∧
    (t.loop.hasPending = true ↔ ∃ id e, t.loop.tasks.entries.lookup id = some e) ∧
    (∀ now w, t.loop.timeToNextTimer now = some w ↔
      ∃ d, IsLeast t.loop.tasks.waiting d ∧ w = d - now) ∧
    (∀ e, (t.step e).Sat (fun _ => True) (fun _ => True) Abort.Exhausted) ∧
    ∀ now fuel, t.loop.tasks.timers.elems.length < fuel →
      ∃ n q, t.loop.tasks.expireTimers now fuel = some (n, q) ∧
        (∀ i, q.entries.lookup i = (t.loop.tasks.entries.lookup i).map (TaskEntry.expire now)) ∧
        n + q.timers.elems.length = t.loop.tasks.timers.elems.length := by
  have h := run_wellFormed (wellFormed_initial now counter) hrun
  refine ⟨h.indexed, ?_, fun _ _ => h.stands, h.standsRunning, hasReady_iff h, hasPending_iff,
    fun _ _ => timeToNextTimer_iff h, fun e => ?_, fun now fuel hfuel => ?_⟩
  · rw [h.ids]
    exact List.nodup_range
  · exact (step_wellFormed h e).mono (fun _ _ => trivial) (fun _ _ => trivial) fun _ => id
  · obtain ⟨n, q, hexpire, -, hlook, hcount⟩ := TaskQueue.expireTimers_spec now h.indexed hfuel
    exact ⟨n, q, hexpire, hlook, hcount⟩

/-- A repeating timer that runs, with a task queued behind it by its handler. -/
def intervalRun : List (Event ℕ ℕ) :=
  [.code (.setTimer 7 5 true), .tick 5000000, .code .step, .dispatch,
    .code (.queueReady (.other 1)), .taskDone true, .microtasksDone, .stepDone]

/-- After the step the interval waits again under its id, and the task is ready. -/
theorem queue_agrees_interval : ∃ t, (systemMachine ℕ ℕ).Run (initial 0 0) t ∧
    t.loop.timeToNextTimer t.now = some 5000000 ∧
    ∃ id e, t.loop.tasks.entries.lookup id = some e ∧ e.ready = true := by
  obtain ⟨t, hrun, hready⟩ := Machine.exists_run_of_exec intervalRun (M := systemMachine ℕ ℕ)
    (s := initial 0 0)
    (P := fun t => t.loop.hasReady && t.loop.timeToNextTimer t.now == some 5000000) (by decide)
  rw [Bool.and_eq_true, beq_iff_eq] at hready
  exact ⟨t, hrun, hready.2, (queue_agrees hrun).2.2.2.2.1.mp hready.1⟩

end System

end CoreRuntime
