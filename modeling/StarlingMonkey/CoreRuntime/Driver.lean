import StarlingMonkey.CoreRuntime.Timers

/-!
# The driver of a loop

`run_until` calls `step` until the loop has nothing left. When a step has run nothing, the driver
parks: it registers a listener for the loop's notification, computes a sleep from the earliest timer
and waits for the first of the two, or for a future of the loop to complete. While it is parked,
other code works on the loop: another loop's turn, a promise reaction, an I/O completion, or a
future the driver itself polls. The operations that give the loop work notify the listener. A
notification that is sent while no listener is registered is dropped.

* `Idle` is what holds of a parked driver: whatever it would do if it looked, a wake-up is pending.
* `parked_woken`: it holds in every run in which no stop is requested of a parked loop, and no
  cancellation takes the last thing away that keeps one alive. Those two do not notify.
-/

namespace CoreRuntime

variable {κ ω : Type}

/-- Where the driver is. -/
inductive Phase where
  /-- Before the next step. -/
  | turn
  /-- A step runs, or has just returned. -/
  | stepping
  /-- The executor has its turn, after a step that made progress. -/
  | yielding
  /-- The idle await, with the time its sleep ends. -/
  | parked (sleep : Option Instant)
  /-- Completed futures are settled, and their reactions run. -/
  | settling
  /-- `run_until` has returned. -/
  | finished
deriving DecidableEq, Repr

/-- A loop and its driver. -/
structure Driver (κ ω : Type) where
  system : System κ ω
  phase : Phase

/-- What happens next: the driver starts a step, something happens in the step, the driver decides
how to go on, the executor has had its turn, other code performs an operation on the loop or queues
an interval again, the driver wakes, a number of its futures complete, the completed futures are
settled, time passes, another loop takes a timer id. -/
inductive DriverEvent (κ ω : Type) where
  | step
  | inside (e : Event κ ω)
  | stepped (callerStop : Bool)
  | yielded
  | other (op : Op κ ω)
  | requeue (timerId : ℕ) (id : TaskId) (task : TimerTask κ) (deadline : Instant)
  | wake
  | futuresDone (n : ℕ)
  | settled
  | tick (d : Duration)
  | otherTimer

/-- Operations of code that runs outside the steps of the loop. Its futures complete when the driver
polls them. -/
def Op.outside : Op κ ω → Bool
  | .popReady | .step | .endFuture => false
  | _ => true

namespace Driver

/-- The driver parks: it registers its listener, then computes its sleep. -/
def park (d : Driver κ ω) : Driver κ ω where
  system := { d.system with loop := { d.system.loop with notify := some false } }
  phase := .parked
    ((d.system.loop.timeToNextTimer d.system.now).map fun wait => d.system.now + wait)

/-- The await has completed, and its listener is gone. -/
def unpark (d : Driver κ ω) (futures : ℕ) : Driver κ ω where
  system := { d.system with loop := { d.system.loop with notify := none, futures } }
  phase := .settling

/-- Whether a wake-up of the parked driver is pending: its listener was notified, or its sleep has
ended. -/
def woken (d : Driver κ ω) : Bool :=
  match d.phase with
  | .parked sleep => d.system.loop.notify == some true || sleep.any (· ≤ d.system.now)
  | _ => false

/-- How the driver goes on after a step. -/
def decide (d : Driver κ ω) (callerStop : Bool) : Driver κ ω :=
  if d.system.loop.stopRequested then
    ⟨{ d.system with loop := { d.system.loop with futures := 0 } }, .finished⟩
  else if callerStop then { d with phase := .finished }
  else match d.system.outcome with
    | some .progressed => { d with phase := .yielding }
    | some .done => if d.system.loop.futures = 0 then { d with phase := .finished } else d.park
    | _ => d.park

/-- What happens at an event. An event that cannot happen now changes nothing. -/
def step (d : Driver κ ω) : DriverEvent κ ω → Result (Driver κ ω) (Driver κ ω)
  | .step =>
    if d.phase = .turn then do
      let system ← (d.system.perform .step).lift
      pure ⟨system, .stepping⟩
    else pure d
  | .inside e =>
    if d.phase = .stepping ∧ d.system.stack.length ≠ 0 ∧ e.passive then do
      let system ← (d.system.step e).lift
      pure { d with system }
    else pure d
  | .stepped callerStop =>
    if d.phase = .stepping ∧ d.system.stack.length = 0 then pure (d.decide callerStop) else pure d
  | .yielded => pure (if d.phase = .yielding then { d with phase := .settling } else d)
  | .other op =>
    if d.phase ≠ .stepping ∧ op.outside then do
      let system ← (d.system.perform op).lift
      pure { d with system }
    else pure d
  | .requeue timerId id task deadline =>
    if d.phase ≠ .stepping then
      pure { d with system := { d.system with
        loop := d.system.loop.requeueJsTimer timerId id (.timer task) deadline } }
    else pure d
  | .wake => pure (if d.woken then d.unpark d.system.loop.futures else d)
  | .futuresDone n =>
    match d.phase with
    | .parked _ | .yielding => pure (d.unpark (d.system.loop.futures - n))
    | _ => pure d
  | .settled => pure (if d.phase = .settling then { d with phase := .turn } else d)
  | .tick t => pure { d with system := { d.system with now := d.system.now + t } }
  | .otherTimer => pure { d with system := { d.system with counter := d.system.counter + 1 } }

/-- Before anything has happened. -/
def initial (now : Instant) (counter : ℕ) : Driver κ ω := ⟨.initial now counter, .turn⟩

end Driver

/-- The machine of a loop and its driver. -/
def driverMachine (κ ω : Type) : Machine Abort Empty (Driver κ ω) (DriverEvent κ ω) := ⟨Driver.step⟩

/-! ### What a step leaves -/

namespace System

variable {s t : System κ ω}

/-- A task is ready. -/
def Ready (s : System κ ω) : Prop := ∃ id e, s.entry id = some e ∧ e.ready = true

/-- A step that runs, called from outside the tasks of the loop. One that has not run a task has
all tasks of its batch before it, and nothing else is ready. -/
def InStep (s : System κ ω) : Prop :=
  (∃ todo, s.stack = [.batch todo false] ∧ (∀ id ∈ todo, ∃ e, s.entry id = some e) ∧
    ∀ id e, s.entry id = some e → e.ready = true → id ∈ todo) ∨
  (∃ todo, s.stack = [.batch todo true]) ∨
  ∃ f todo, s.stack = [f, .batch todo true] ∧ ∀ todo' ranAny, f ≠ .batch todo' ranAny

/-- A step that has returned. When it ran nothing, nothing is ready, and its outcome tells whether
the loop is alive. -/
def Returned (s : System κ ω) : Prop :=
  s.stack = [] ∧ (s.outcome = some .progressed ∨
    ¬ s.Ready ∧ (s.outcome = some .idle ∧ s.loop.isAlive = true ∨
      s.outcome = some .done ∧ s.loop.isAlive = false))

/-- A step is called. -/
theorem InStep.enter (h : s.WellFormed) (hstack : s.stack = []) (hstep : s.perform .step = .ok t) :
    t.InStep := by
  obtain ⟨n, q, hrun, hq, -⟩ := TaskQueue.expireTimers_spec s.now h.indexed (Nat.lt_succ_self _)
  simp only [System.perform, EventLoop.advanceTimers, hrun] at hstep
  cases hstep
  refine .inl ⟨_, by rw [hstack], ?_, ?_⟩
  · rw [h.buffer, List.nil_append]
    intro id hid
    obtain ⟨k, hk, rfl⟩ := List.mem_map.mp hid
    obtain ⟨i, e, he, -, rfl⟩ := hq.mem_ready.mp hk
    exact ⟨e, (congrArg (fun i => AList.lookup i q.entries) (hq.own he)).trans he⟩
  · intro id e he hr
    refine List.mem_append_right _ (List.mem_map.mpr ⟨e.readyKey, ?_, hq.own he⟩)
    exact hq.mem_ready.mpr ⟨id, e, he, hr, rfl⟩

/-- What happens in a step leads to the step or out of it. -/
theorem InStep.step (h : s.InStep) (hw : s.WellFormed) {e : Event κ ω} (he : e.passive = true)
    (hstep : s.step e = .ok t) : t.InStep ∨ t.Returned := by
  have hidle (hs : s.step e = .ok s) : t.InStep ∨ t.Returned := by
    obtain rfl : s = t := Outcome.ok.inj (hs.symm.trans hstep)
    exact .inl h
  rcases h with ⟨todo, hs, hqueued, hready⟩ | ⟨todo, hs⟩ | ⟨f, todo, hs, hf⟩
  -- the ready batch: the tasks in it are queued, and a task that is not queued is not ready
  · cases e with
    | code op => exact hidle (by rw [System.step, codeRuns, hs]; rfl)
    | tick d => cases hstep; exact .inl (.inl ⟨todo, hs, hqueued, hready⟩)
    | otherTimer => cases hstep; exact .inl (.inl ⟨todo, hs, hqueued, hready⟩)
    | taskDone threw => exact hidle (by simp only [System.step, hs]; rfl)
    | microtasksDone => exact hidle (by simp only [System.step, hs]; rfl)
    | dispatch =>
      cases todo with
      | nil => exact hidle (by simp only [System.step, hs]; rfl)
      | cons id todo =>
        obtain ⟨entry, hentry⟩ := hqueued id (List.mem_cons_self ..)
        simp only [System.step, hs] at hstep
        cases hr : s.loop.tasks.remove id with
        | none =>
          exact absurd (hentry.symm.trans (TaskQueue.remove_eq_none.mp hr)) (Option.some_ne_none _)
        | some p =>
          rw [hr] at hstep
          obtain ⟨-, -, f, hstack, hf, -⟩ := start_eq { s with
            loop := { s.loop with tasks := p.2 }, stack := [.batch todo true] } id p.1.task
            p.1.deadline
          cases hstep
          exact .inl (.inr (.inr ⟨f, todo, hstack, hf⟩))
    | stepDone =>
      cases todo with
      | cons id todo => exact hidle (by simp only [System.step, hs]; rfl)
      | nil =>
        simp only [System.step, hs] at hstep
        cases hstep
        -- the batch ran empty, so nothing is ready: the step says whether the loop is alive
        refine .inr ⟨rfl, .inr ⟨?_, ?_⟩⟩
        · rintro ⟨id, e, he, hr⟩
          exact absurd (hready id e he hr) List.not_mem_nil
        · change some (if s.loop.isAlive = true then _ else _) = _ ∧ s.loop.isAlive = true ∨
            some (if s.loop.isAlive = true then _ else _) = _ ∧ s.loop.isAlive = false
          cases s.loop.isAlive with
          | true => exact .inl ⟨rfl, rfl⟩
          | false => exact .inr ⟨rfl, rfl⟩
  -- a task dequeued since the batch was made is skipped
  · cases e with
    | code op => exact hidle (by rw [System.step, codeRuns, hs]; rfl)
    | tick d => cases hstep; exact .inl (.inr (.inl ⟨todo, hs⟩))
    | otherTimer => cases hstep; exact .inl (.inr (.inl ⟨todo, hs⟩))
    | taskDone threw => exact hidle (by simp only [System.step, hs]; rfl)
    | microtasksDone => exact hidle (by simp only [System.step, hs]; rfl)
    | dispatch =>
      cases todo with
      | nil => exact hidle (by simp only [System.step, hs]; rfl)
      | cons id todo =>
        simp only [System.step, hs] at hstep
        cases hr : s.loop.tasks.remove id with
        | none =>
          rw [hr] at hstep
          cases hstep
          exact .inl (.inr (.inl ⟨todo, rfl⟩))
        | some p =>
          rw [hr] at hstep
          obtain ⟨-, -, f, hstack, hf, -⟩ := start_eq { s with
            loop := { s.loop with tasks := p.2 }, stack := [.batch todo true] } id p.1.task
            p.1.deadline
          cases hstep
          exact .inl (.inr (.inr ⟨f, todo, hstack, hf⟩))
    | stepDone =>
      cases todo with
      | cons id todo => exact hidle (by simp only [System.step, hs]; rfl)
      | nil =>
        simp only [System.step, hs] at hstep
        cases hstep
        exact .inr ⟨rfl, .inl rfl⟩
  -- a task runs: only what its own code does moves it
  · cases e with
    | code op =>
      by_cases hcode : s.codeRuns = true
      · have hperform : s.perform op = .ok t := by rwa [System.step, if_pos hcode] at hstep
        have hsat := hw.changes he
        rw [hperform] at hsat
        obtain ⟨new, hc⟩ := hsat
        exact .inl (.inr (.inr ⟨f, todo, hc.stack.trans hs, hf⟩))
      · exact hidle (by rw [System.step, if_neg hcode]; rfl)
    | tick d => cases hstep; exact .inl (.inr (.inr ⟨f, todo, hs, hf⟩))
    | otherTimer => cases hstep; exact .inl (.inr (.inr ⟨f, todo, hs, hf⟩))
    | taskDone threw =>
      cases f with
      | batch todo' ranAny => exact absurd rfl (hf todo' ranAny)
      | handler id task previous =>
        simp only [System.step, hs] at hstep
        cases hstep
        exact .inl (.inr (.inr ⟨_, todo, rfl, by simp⟩))
      | other id task =>
        simp only [System.step, hs] at hstep
        cases hstep
        exact .inl (.inr (.inr ⟨_, todo, rfl, by simp⟩))
      | microtasks id => exact hidle (by simp only [System.step, hs]; rfl)
    | microtasksDone =>
      cases f with
      | batch todo' ranAny => exact absurd rfl (hf todo' ranAny)
      | handler id task previous => exact hidle (by simp only [System.step, hs]; rfl)
      | other id task => exact hidle (by simp only [System.step, hs]; rfl)
      | microtasks id =>
        simp only [System.step, hs] at hstep
        cases hstep
        exact .inl (.inr (.inl ⟨todo, rfl⟩))
    | dispatch =>
      cases f with
      | batch todo' ranAny => exact absurd rfl (hf todo' ranAny)
      | _ => exact hidle (by simp only [System.step, hs]; rfl)
    | stepDone =>
      cases f with
      | batch todo' ranAny => exact absurd rfl (hf todo' ranAny)
      | _ => exact hidle (by simp only [System.step, hs]; rfl)

/-! ### What other code does to a parked loop -/

/-- Something other than the task keeps the loop alive. -/
def AliveWithout (s : System κ ω) (id : TaskId) : Prop :=
  (∃ i e, i ≠ id ∧ s.entry i = some e) ∨ s.loop.hasInterest = true ∨ 0 < s.loop.futures

/-- The operation leaves a parked driver what it waits for: it requests no stop, and cancels no task
without which the loop is not alive. -/
def Spares (s : System κ ω) : Op κ ω → Prop
  | .cancelIfQueued id => (∃ e, s.entry id = some e) → s.AliveWithout id
  | .clearJsTimer timerId => ∀ id, s.loop.jsTimers.lookup timerId = some id →
    (∃ e, s.entry id = some e) → s.AliveWithout id
  | .requestStop => False
  | _ => True

/-- The loop has no more to do than before, and still something if it had. -/
structure Quiet (s t : System κ ω) : Prop where
  notify : t.loop.notify = s.loop.notify
  ready : t.Ready → s.Ready ∨ ∃ d ∈ s.loop.tasks.waiting, d ≤ s.now
  waiting : t.loop.tasks.waiting ⊆ s.loop.tasks.waiting
  alive : s.loop.isAlive = true → t.loop.isAlive = true
  stop : t.loop.stopRequested = s.loop.stopRequested

theorem isAlive_iff : s.loop.isAlive = true ↔
    (∃ id e, s.entry id = some e) ∨ s.loop.hasInterest = true ∨ 0 < s.loop.futures := by
  rw [EventLoop.isAlive, Bool.or_eq_true, Bool.or_eq_true, hasPending_iff, decide_eq_true_iff,
    or_assoc]

/-- Entries are only taken away. -/
theorem Quiet.of_subset (hentry : ∀ id e, t.entry id = some e → s.entry id = some e)
    (halive : s.loop.isAlive = true → t.loop.isAlive = true)
    (hnotify : t.loop.notify = s.loop.notify)
    (hstop : t.loop.stopRequested = s.loop.stopRequested) : s.Quiet t where
  notify := hnotify
  ready := by
    rintro ⟨id, e, he, hr⟩
    exact .inl ⟨id, e, hentry id e he, hr⟩
  waiting := by
    rintro d ⟨id, e, he, hr, hd⟩
    exact ⟨id, e, hentry id e he, hr, hd⟩
  alive := halive
  stop := hstop

@[simp] theorem cancel_now (s : System κ ω) (id : TaskId) : (s.cancel id).now = s.now := by
  simp only [System.cancel]
  split <;> rfl

/-- A cancellation that leaves something is quiet. -/
theorem quiet_cancel {id : TaskId} (h : (∃ e, s.entry id = some e) → s.AliveWithout id) :
    s.Quiet (s.cancel id) := by
  simp only [System.cancel, EventLoop.cancelIfQueued]
  cases hr : s.loop.tasks.remove id with
  | none => exact .of_subset (fun _ _ he => he) (fun ha => ha) rfl rfl
  | some p =>
    obtain ⟨e, q⟩ := p
    have hq := TaskQueue.lookup_remove hr
    refine .of_subset (fun i e' he' => ?_) (fun _ => isAlive_iff.mpr ?_) rfl rfl
    · replace he' := (hq i).symm.trans he'
      split_ifs at he'
      exact he'
    · refine (h ⟨e, (TaskQueue.remove_eq_some hr).1⟩).imp_left ?_
      rintro ⟨i, e', hne, he'⟩
      exact ⟨i, e', (hq i).trans ((if_neg hne).trans he')⟩

/-- **What an operation of other code does** to a loop whose driver listens: the listener is
notified, or the loop has no more to do than before. -/
theorem WellFormed.nudges (h : s.WellFormed) {op : Op κ ω} (hop : op.outside = true) {b : Bool}
    (hlisten : s.loop.notify = some b) (hspares : s.Spares op) :
    (s.perform op).Sat (fun t => t.stack = s.stack ∧ t.now = s.now ∧
      (t.loop.notify = some true ∨ s.Quiet t)) (fun _ => False) fun _ => True := by
  have hnotify1 : s.loop.notify.map (fun _ => true) = some true := by rw [hlisten]; rfl
  cases op with
  | popReady => cases hop
  | step => cases hop
  | endFuture => cases hop
  | requestStop => exact hspares.elim
  | queue task =>
    refine Outcome.sat_bind.mpr (Outcome.sat_bind.mpr (nextTaskId_sat ⟨rfl, rfl, .inr ?_⟩ trivial))
    -- a task queued as not ready and without a deadline gives the sleeper nothing to wake for
    have hlook (i : TaskId) {e : TaskEntry (Task κ ω)}
        (he : (s.loop.tasks.insert ⟨s.loop.nextId, task, false, none⟩).entries.lookup i = some e) :
        s.entry i = some e ∨ e.ready = false ∧ e.deadline = none := by
      rw [TaskQueue.lookup_insert] at he
      split_ifs at he
      · rw [← Option.some.inj he]
        exact .inr ⟨rfl, rfl⟩
      · exact .inl he
    refine ⟨rfl, ?_, ?_, fun _ => ?_, rfl⟩
    · rintro ⟨id, e, he, hr⟩
      rcases hlook id he with he | ⟨hnot, -⟩
      · exact .inl ⟨id, e, he, hr⟩
      · rw [hnot] at hr
        cases hr
    · rintro d ⟨id, e, he, hr, hd⟩
      rcases hlook id he with he | ⟨-, hnone⟩
      · exact ⟨id, e, he, hr, hd⟩
      · rw [hnone] at hd
        cases hd
    · exact isAlive_iff.mpr (.inl ⟨s.loop.nextId, _,
        (TaskQueue.lookup_insert _ _).trans (if_pos rfl)⟩)
  | queueReady task =>
    exact Outcome.sat_bind.mpr (Outcome.sat_bind.mpr
      (nextTaskId_sat ⟨rfl, rfl, .inl hnotify1⟩ trivial))
  | queueTimer task deadline =>
    exact Outcome.sat_bind.mpr (Outcome.sat_bind.mpr
      (nextTaskId_sat ⟨rfl, rfl, .inl hnotify1⟩ trivial))
  | queueJsTimer deadline makeTask =>
    refine Outcome.sat_bind.mpr (Outcome.sat_bind.mpr (.of_value (fun r _ => ?_) fun _ => trivial))
    exact Outcome.sat_bind.mpr (nextTaskId_sat ⟨rfl, rfl, .inl hnotify1⟩ trivial)
  | setTimer handler timeout repeats =>
    refine Outcome.sat_bind.mpr (Outcome.sat_bind.mpr (.of_value (fun r _ => ?_) fun _ => trivial))
    exact Outcome.sat_bind.mpr (nextTaskId_sat ⟨rfl, rfl, .inl hnotify1⟩ trivial)
  | clearJsTimer timerId =>
    change (s.clear timerId).stack = s.stack ∧ (s.clear timerId).now = s.now ∧
      ((s.clear timerId).loop.notify = some true ∨ s.Quiet (s.clear timerId))
    rw [clear_eq]
    cases hk : s.loop.jsTimers.lookup timerId with
    | none => exact ⟨rfl, rfl, .inr (.of_subset (fun _ _ he => he) (fun ha => ha) rfl rfl)⟩
    | some id =>
      obtain ⟨new, hc⟩ := changes_cancel { s with
        loop := { s.loop with jsTimers := s.loop.jsTimers.erase timerId }
        log := s.log ++ [.cleared timerId] } id
      have hquiet := quiet_cancel (s := { s with
        loop := { s.loop with jsTimers := s.loop.jsTimers.erase timerId }
        log := s.log ++ [.cleared timerId] }) (hspares id hk)
      exact ⟨hc.stack, cancel_now _ id, .inr { hquiet with }⟩
  | jsTimerFired timerId =>
    exact ⟨rfl, rfl, .inr (.of_subset (fun _ _ he => he) (fun ha => ha) rfl rfl)⟩
  | cancelIfQueued id =>
    obtain ⟨new, hc⟩ := changes_cancel s id
    exact ⟨hc.stack, cancel_now s id, .inr (quiet_cancel hspares)⟩
  | signalReady id =>
    change s.stack = s.stack ∧ s.now = s.now ∧ ((s.loop.signalReady id).notify = some true ∨
      s.Quiet { s with loop := s.loop.signalReady id })
    refine ⟨rfl, rfl, ?_⟩
    rw [EventLoop.signalReady]
    rcases hm : s.loop.tasks.markReady id with ⟨_ | _, q⟩
    · obtain rfl : q = s.loop.tasks := by
        have hsame : (s.loop.tasks.markReady id).2 = s.loop.tasks :=
          TaskQueue.markReady_false (by rw [hm])
        rwa [hm] at hsame
      exact .inr (.of_subset (fun _ _ he => he) (fun ha => ha) rfl rfl)
    · exact .inl hnotify1
  -- expiring timers notifies nobody, but what it makes ready was due by the sleeper's own deadline
  | advanceTimers =>
    obtain ⟨n, q, hrun, -, hlook, -⟩ :=
      TaskQueue.expireTimers_spec s.now h.indexed (Nat.lt_succ_self _)
    refine Outcome.sat_bind.mpr ?_
    rw [EventLoop.advanceTimers, hrun]
    refine ⟨rfl, rfl, .inr ⟨rfl, ?_, ?_, fun ha => ?_, rfl⟩⟩
    · rintro ⟨id, e', he', hr⟩
      obtain ⟨e, he, rfl⟩ := Option.map_eq_some_iff.mp ((hlook id).symm.trans he')
      rcases (Bool.or_eq_true ..).mp hr with hr | hdue
      · exact .inl ⟨id, e, he, hr⟩
      · obtain ⟨d, hd, hle⟩ := (Option.any_eq_true ..).mp hdue
        cases hready : e.ready with
        | true => exact .inl ⟨id, e, he, hready⟩
        | false => exact .inr ⟨d, ⟨id, e, he, hready, hd⟩, of_decide_eq_true hle⟩
    · rintro d ⟨id, e', he', hr, hd⟩
      obtain ⟨e, he, rfl⟩ := Option.map_eq_some_iff.mp ((hlook id).symm.trans he')
      exact ⟨id, e, he, ((Bool.or_eq_false_iff ..).mp hr).1, hd⟩
    · refine isAlive_iff.mpr ((isAlive_iff.mp ha).imp_left ?_)
      rintro ⟨id, e, he⟩
      exact ⟨id, _, (hlook id).trans (congrArg _ he)⟩
  -- a handle keeps the loop alive, and it was alive or the sleeper had stopped
  | acquireHandle =>
    refine Outcome.sat_bind.mpr (.of_value (fun loop hl => ?_) fun _ => trivial)
    rw [EventLoop.acquireHandle] at hl
    split_ifs at hl
    cases hl
    refine ⟨rfl, rfl, .inr (.of_subset (fun _ _ he => he) (fun _ => isAlive_iff.mpr ?_) rfl rfl)⟩
    exact .inr (.inl (decide_eq_true (Nat.succ_pos _)))
  -- the last handle wakes the sleeper, another drop changes nothing it looks at
  | dropHandle =>
    simp only [System.perform]
    split_ifs
    · exact ⟨rfl, rfl, .inr (.of_subset (fun _ _ he => he) (fun ha => ha) rfl rfl)⟩
    · refine Outcome.sat_bind.mpr (.of_value (fun loop hl => ?_) fun _ => trivial)
      rw [EventLoop.dropHandle] at hl
      split_ifs at hl
      cases hl
      exact ⟨rfl, rfl, .inl hnotify1⟩
  | spawnFuture =>
    refine ⟨rfl, rfl, .inr (.of_subset (fun _ _ he => he) (fun _ => isAlive_iff.mpr ?_) rfl rfl)⟩
    exact .inr (.inr (Nat.succ_pos _))

/-! ### The parked driver -/

/-- A wake-up of a driver that sleeps until `sleep` is pending. -/
def Stirred (s : System κ ω) (sleep : Option Instant) : Prop :=
  s.loop.notify = some true ∨ ∃ y, sleep = some y ∧ y ≤ s.now

/-- What holds of a loop whose driver is parked. -/
structure Idle (s : System κ ω) (sleep : Option Instant) : Prop where
  listening : ∃ b, s.loop.notify = some b
  ready : s.Ready → s.Stirred sleep
  timers : ∀ x ∈ s.loop.tasks.waiting, s.Stirred sleep ∨ ∃ y, sleep = some y ∧ y ≤ x
  alive : s.loop.isAlive = true ∨ s.Stirred sleep
  stop : s.loop.stopRequested = false ∨ s.Stirred sleep

variable {sleep : Option Instant}

/-- Nothing more is asked once a wake-up is pending. -/
theorem Idle.of_stirred (hlisten : ∃ b, s.loop.notify = some b) (h : s.Stirred sleep) :
    s.Idle sleep :=
  ⟨hlisten, fun _ => h, fun _ _ => .inl h, .inr h, .inr h⟩

/-- Time passes, and the loop has no more to do. -/
theorem Idle.quiet (h : s.Idle sleep) (hq : s.Quiet t) (hnow : s.now ≤ t.now) : t.Idle sleep := by
  have hlisten : ∃ b, t.loop.notify = some b := by
    rw [hq.notify]
    exact h.listening
  have hstir (hs : s.Stirred sleep) : t.Stirred sleep := by
    rcases hs with hn | ⟨y, hy, hle⟩
    · exact .inl (hq.notify.trans hn)
    · exact .inr ⟨y, hy, hle.trans hnow⟩
  refine ⟨hlisten, ?_, ?_, ?_, ?_⟩
  · intro hr
    rcases hq.ready hr with hr | ⟨d, hd, hle⟩
    · exact hstir (h.ready hr)
    · rcases h.timers d hd with hs | ⟨y, hy, hyd⟩
      · exact hstir hs
      · exact .inr ⟨y, hy, (hyd.trans hle).trans hnow⟩
  · intro x hx
    exact (h.timers x (hq.waiting hx)).imp_left hstir
  · exact h.alive.imp hq.alive hstir
  · rw [hq.stop]
    exact h.stop.imp_right hstir

@[simp] theorem cancel_notify (s : System κ ω) (id : TaskId) :
    (s.cancel id).loop.notify = s.loop.notify := by
  simp only [System.cancel, EventLoop.cancelIfQueued]
  cases s.loop.tasks.remove id <;> rfl

/-- The operations that do not spare a parked driver leave its listener and the clock alone. -/
theorem notify_of_not_spares {op : Op κ ω} (h : ¬ s.Spares op) (hstep : s.perform op = .ok t) :
    t.stack = s.stack ∧ t.loop.notify = s.loop.notify ∧ t.now = s.now := by
  cases op with
  | cancelIfQueued id =>
    cases hstep
    obtain ⟨new, hc⟩ := changes_cancel s id
    exact ⟨hc.stack, cancel_notify s id, cancel_now s id⟩
  | clearJsTimer timerId =>
    cases hstep
    obtain ⟨new, hc⟩ := changes_clear s timerId
    refine ⟨hc.stack, ?_⟩
    rw [clear_eq]
    cases s.loop.jsTimers.lookup timerId with
    | none => exact ⟨rfl, rfl⟩
    | some id => exact ⟨cancel_notify _ id, cancel_now _ id⟩
  | requestStop =>
    cases hstep
    exact ⟨rfl, rfl, rfl⟩
  | _ => exact absurd trivial h

/-- **Other code** performs an operation while the driver is parked. -/
theorem Idle.other (h : s.Idle sleep) (hw : s.WellFormed) {op : Op κ ω} (hop : op.outside = true)
    (hspares : s.Stirred sleep ∨ s.Spares op) (hstep : s.perform op = .ok t) :
    t.stack = s.stack ∧ t.Idle sleep := by
  obtain ⟨b, hlisten⟩ := h.listening
  by_cases hsp : s.Spares op
  · have hsat := hw.nudges hop hlisten hsp
    rw [hstep] at hsat
    obtain ⟨hstack, hnow, hnotify | hquiet⟩ := hsat
    · exact ⟨hstack, .of_stirred ⟨true, hnotify⟩ (.inl hnotify)⟩
    · exact ⟨hstack, h.quiet hquiet hnow.ge⟩
  · obtain ⟨hstack, hnotify, hnow⟩ := notify_of_not_spares hsp hstep
    refine ⟨hstack, .of_stirred ⟨b, hnotify.trans hlisten⟩ ?_⟩
    have hs := hspares.resolve_right hsp
    rwa [Stirred, hnotify, hnow]

/-- An interval is queued again by code that holds its task. -/
theorem WellFormed.requeue (h : s.WellFormed) {id : TaskId} {task : Task κ ω}
    (hfree : s.entry id = none) (hstands : s.Stands id task) (hstack : s.stack = [])
    (timerId : ℕ) (deadline : Instant) :
    WellFormed { s with loop := s.loop.requeueJsTimer timerId id task deadline } := by
  have hrunning : s.running = [] := by
    rw [running, hstack]
    rfl
  rw [EventLoop.requeueJsTimer]
  split_ifs with hmap
  · refine ⟨h.indexed.insert hfree, ?_, h.nodup, h.ids, ?_, h.standsRunning, h.buffer, h.handles,
      h.timerIds⟩
    · intro p hp
      have hp' : p ∈ s.running := hp
      rw [hrunning] at hp'
      cases hp'
    · intro i e he
      replace he := (TaskQueue.lookup_insert _ _).symm.trans he
      split_ifs at he with hi
      · rw [← Option.some.inj he, hi]
        exact hstands
      · exact h.stands he
  · exact h

end System

namespace Driver

variable {d d' : Driver κ ω}

/-- What holds of a loop and its driver between any two events. -/
structure Holds (d : Driver κ ω) : Prop where
  wellFormed : d.system.WellFormed
  stepping : d.phase = .stepping → d.system.InStep ∨ d.system.Returned
  stack : d.phase ≠ .stepping → d.system.stack = []
  idle : ∀ sleep, d.phase = .parked sleep → d.system.Idle sleep

theorem holds_initial (now : Instant) (counter : ℕ) :
    (initial now counter : Driver κ ω).Holds :=
  ⟨System.wellFormed_initial now counter, by rintro ⟨⟩, fun _ => rfl, (by intros; contradiction)⟩

/-- A driver that is neither in a step nor parked. -/
theorem Holds.of_phase {system : System κ ω} {phase : Phase} (hw : system.WellFormed)
    (hstack : system.stack = []) (hstepping : phase ≠ .stepping)
    (hparked : ∀ sleep, phase ≠ .parked sleep) : Holds ⟨system, phase⟩ :=
  ⟨hw, fun h => absurd h hstepping, fun _ => hstack, fun sleep h => absurd h (hparked sleep)⟩

/-- The driver parks after a step that ran nothing. -/
theorem holds_park (hw : d.system.WellFormed) (hstack : d.system.stack = [])
    (hready : ¬ d.system.Ready) (halive : d.system.loop.isAlive = true)
    (hstop : d.system.loop.stopRequested = false) : d.park.Holds := by
  refine ⟨{ hw with }, by rintro ⟨⟩, fun _ => hstack, ?_⟩
  rintro sleep hsleep
  obtain rfl := Phase.parked.inj hsleep
  refine ⟨⟨false, rfl⟩, fun hr => absurd hr hready, ?_, .inl halive, .inl hstop⟩
  intro x hx
  have hne : d.system.loop.tasks.timers.first? ≠ none := by
    intro hnone
    rw [hw.indexed.no_timer_iff] at hnone
    change x ∈ d.system.loop.tasks.waiting at hx
    rw [hnone] at hx
    exact hx
  obtain ⟨k, hk⟩ := Option.ne_none_iff_exists'.mp hne
  have hleast := hw.indexed.first_timer hk
  have hsleep' : (d.system.loop.timeToNextTimer d.system.now).map (fun wait =>
      d.system.now + wait) = some (d.system.now + ((ofLex k).1 - d.system.now)) := by
    rw [EventLoop.timeToNextTimer, hk]
    rfl
  by_cases hdue : (ofLex k).1 ≤ d.system.now
  · refine .inl (.inr ⟨_, hsleep', ?_⟩)
    rw [Nat.sub_eq_zero_of_le hdue]
    exact le_rfl
  · refine .inr ⟨_, hsleep', ?_⟩
    rw [Nat.add_sub_cancel' (not_le.mp hdue).le]
    exact hleast.2 hx

/-- The steps of a run in which nothing takes from a parked driver what it waits for without waking
it. An interval that is queued again is the one its id stands for, and not queued. -/
def Sparing (d : Driver κ ω) : DriverEvent κ ω → Prop
  | .other op => ∀ sleep, d.phase = .parked sleep → d.system.Stirred sleep ∨ d.system.Spares op
  | .requeue _ id task _ => d.system.entry id = none ∧ d.system.Stands id (.timer task)
  | _ => True

theorem Holds.decide (h : d.Holds) (hphase : d.phase = .stepping)
    (hstack : d.system.stack = []) (callerStop : Bool) : (d.decide callerStop).Holds := by
  have hreturned : d.system.Returned := by
    rcases h.stepping hphase with hin | hreturned
    · rcases hin with ⟨todo, hs, -⟩ | ⟨todo, hs⟩ | ⟨f, todo, hs, -⟩
      all_goals
        rw [hs] at hstack
        cases hstack
    · exact hreturned
  rw [Driver.decide]
  by_cases hstop : d.system.loop.stopRequested = true
  · rw [if_pos hstop]
    exact .of_phase { h.wellFormed with } hstack (by rintro ⟨⟩) (by simp)
  by_cases hcaller : callerStop = true
  · rw [if_neg hstop, if_pos hcaller]
    exact .of_phase h.wellFormed hstack (by rintro ⟨⟩) (by simp)
  rw [if_neg hstop, if_neg hcaller]
  obtain ⟨-, hprogressed | ⟨hready, ⟨hidle, halive⟩ | ⟨hdone, hdead⟩⟩⟩ := hreturned
  · rw [hprogressed]
    exact .of_phase h.wellFormed hstack (by rintro ⟨⟩) (by simp)
  · rw [hidle]
    exact holds_park h.wellFormed hstack hready halive (eq_false_of_ne_true hstop)
  -- a loop without futures, interest and tasks is left; one with futures is alive
  · have hfutures : d.system.loop.futures = 0 := by
      by_contra hne
      have halive : d.system.loop.isAlive = true :=
        System.isAlive_iff.mpr (.inr (.inr (Nat.pos_of_ne_zero hne)))
      rw [hdead] at halive
      cases halive
    rw [hdone]
    change Holds (if d.system.loop.futures = 0 then _ else _)
    rw [if_pos hfutures]
    exact .of_phase h.wellFormed hstack (by rintro ⟨⟩) (by simp)

/-- **Every event** of a sparing run. -/
theorem Holds.step (h : d.Holds) {e : DriverEvent κ ω} (he : Sparing d e)
    (hstep : d.step e = .ok d') : d'.Holds := by
  cases e with
  -- a step enters its batch
  | step =>
    rw [Driver.step] at hstep
    split_ifs at hstep with hphase
    · obtain ⟨s, hs, hd⟩ := Outcome.bind_eq_ok hstep
      cases hd
      have hperform := Outcome.lift_eq_ok hs
      have hsat := h.wellFormed.perform .step
      rw [hperform] at hsat
      have hstack := h.stack (by rw [hphase]; rintro ⟨⟩)
      exact ⟨hsat, fun _ => .inl (.enter h.wellFormed hstack hperform), fun hne => absurd rfl hne,
        (by intros; contradiction)⟩
    · cases hstep
      exact h
  | inside e =>
    rw [Driver.step] at hstep
    split_ifs at hstep with hin
    · obtain ⟨s, hs, hd⟩ := Outcome.bind_eq_ok hstep
      cases hd
      have hsystem := Outcome.lift_eq_ok hs
      have hsat := System.step_wellFormed h.wellFormed e
      rw [hsystem] at hsat
      refine ⟨hsat, fun _ => ?_, fun hne => absurd hin.1 hne, fun sleep hp => ?_⟩
      · rcases h.stepping hin.1 with hstepping | hreturned
        · exact hstepping.step h.wellFormed hin.2.2 hsystem
        · exact absurd (congrArg List.length hreturned.1) hin.2.1
      · rw [hin.1] at hp
        cases hp
    · cases hstep
      exact h
  | stepped callerStop =>
    rw [Driver.step] at hstep
    split_ifs at hstep with hphase
    · cases hstep
      exact h.decide hphase.1 (List.length_eq_zero_iff.mp hphase.2) callerStop
    · cases hstep
      exact h
  | yielded =>
    rw [Driver.step] at hstep
    cases hstep
    split_ifs with hphase
    · exact .of_phase h.wellFormed (h.stack (by rw [hphase]; rintro ⟨⟩)) (by rintro ⟨⟩) (by simp)
    · exact h
  -- code outside the driver runs between its polls: a sleeper is woken by all that concerns it
  | other op =>
    rw [Driver.step] at hstep
    split_ifs at hstep with hout
    · obtain ⟨s, hs, hd⟩ := Outcome.bind_eq_ok hstep
      cases hd
      have hperform := Outcome.lift_eq_ok hs
      have hsat := h.wellFormed.perform op
      rw [hperform] at hsat
      have hpassive : op.passive = true := by
        cases op <;> first | rfl | cases hout.2
      have hstack : s.stack = d.system.stack := by
        have hchanges := h.wellFormed.changes hpassive
        rw [hperform] at hchanges
        obtain ⟨new, hc⟩ := hchanges
        exact hc.stack
      refine ⟨hsat, fun hp => absurd hp hout.1, fun hne => hstack.trans (h.stack hne), ?_⟩
      intro sleep hp
      exact ((h.idle sleep hp).other h.wellFormed hout.2 (he sleep hp) hperform).2
    · cases hstep
      exact h
  -- an interval puts itself back while the driver does not run: the queue notifies
  | requeue timerId id task deadline =>
    rw [Driver.step] at hstep
    split_ifs at hstep with hout
    · cases hstep
      have hstack := h.stack hout
      refine ⟨h.wellFormed.requeue he.1 he.2 hstack timerId deadline, fun hp => absurd hp hout,
        fun _ => hstack, fun sleep hp => ?_⟩
      have hidle := h.idle sleep hp
      simp only [EventLoop.requeueJsTimer]
      split_ifs with hmap
      · obtain ⟨b, hlisten⟩ := hidle.listening
        have hnotify : d.system.loop.notify.map (fun _ => true) = some true := by
          rw [hlisten]
          rfl
        exact .of_stirred ⟨true, hnotify⟩ (.inl hnotify)
      · exact hidle
    · cases hstep
      exact h
  | wake =>
    rw [Driver.step] at hstep
    cases hstep
    split_ifs with hwoken
    · refine .of_phase { h.wellFormed with } (h.stack ?_) (by rintro ⟨⟩) (by simp)
      rintro hphase
      rw [woken, hphase] at hwoken
      cases hwoken
    · exact h
  | futuresDone n =>
    rw [Driver.step] at hstep
    split at hstep
    · rename_i sleep hphase
      cases hstep
      exact .of_phase { h.wellFormed with } (h.stack (by rw [hphase]; rintro ⟨⟩)) (by rintro ⟨⟩)
        (by simp)
    · rename_i hphase
      cases hstep
      exact .of_phase { h.wellFormed with } (h.stack (by rw [hphase]; rintro ⟨⟩)) (by rintro ⟨⟩)
        (by simp)
    · cases hstep
      exact h
  | settled =>
    rw [Driver.step] at hstep
    cases hstep
    split_ifs with hphase
    · exact .of_phase h.wellFormed (h.stack (by rw [hphase]; rintro ⟨⟩)) (by rintro ⟨⟩) (by simp)
    · exact h
  | tick t =>
    rw [Driver.step] at hstep
    cases hstep
    refine ⟨{ h.wellFormed with }, h.stepping, h.stack, fun sleep hp => ?_⟩
    exact (h.idle sleep hp).quiet (.of_subset (fun _ _ he => he) (fun ha => ha) rfl rfl)
      (Nat.le_add_right ..)
  | otherTimer =>
    rw [Driver.step] at hstep
    cases hstep
    refine ⟨{ h.wellFormed with timerIds := ?_ }, h.stepping, h.stack, fun sleep hp => ?_⟩
    · exact fun k hk => Nat.lt_succ_of_lt (h.wellFormed.timerIds k hk)
    · exact (h.idle sleep hp).quiet (.of_subset (fun _ _ he => he) (fun ha => ha) rfl rfl) le_rfl

/-- **No wake-up of a parked driver is lost** in a run in which no stop is requested of a parked
loop, and no cancellation takes the last thing away that keeps one alive, unless a wake-up is
pending anyway. Whenever a task is ready, the earliest timer is due or earlier than the end of the
driver's sleep, the loop is no longer alive, or a stop is requested, a wake-up is pending. -/
theorem parked_woken {now : Instant} {counter : ℕ} {sleep : Option Instant}
    (hrun : (driverMachine κ ω).RunWhere Sparing (initial now counter) d)
    (hparked : d.phase = .parked sleep)
    (hcause : d.system.loop.hasReady = true ∨
      (∃ x, IsLeast d.system.loop.tasks.waiting x ∧
        (x ≤ d.system.now ∨ ∀ y, sleep = some y → x < y)) ∨
      d.system.loop.isAlive = false ∨ d.system.loop.stopRequested = true) :
    d.woken = true := by
  have h : d.Holds := hrun.inv (holds_initial now counter) fun _ _ _ hs he hstep =>
    hs.step he (Outcome.eq_ok_of_state? hstep)
  have hidle := h.idle sleep hparked
  have hstirred : d.system.Stirred sleep := by
    rcases hcause with hready | ⟨x, hx, hearly⟩ | hdead | hstop
    · exact hidle.ready ((System.hasReady_iff h.wellFormed).mp hready)
    · rcases hidle.timers x hx.1 with hs | ⟨y, hy, hle⟩
      · exact hs
      · rcases hearly with hdue | hearly
        · exact .inr ⟨y, hy, hle.trans hdue⟩
        · exact absurd (hearly y hy) (not_lt.mpr hle)
    · rcases hidle.alive with halive | hs
      · rw [hdead] at halive
        cases halive
      · exact hs
    · rcases hidle.stop with hno | hs
      · rw [hstop] at hno
        cases hno
      · exact hs
  rw [woken, hparked]
  rcases hstirred with hnotify | ⟨y, rfl, hle⟩
  · simp [hnotify]
  · simp [hle]

/-- An interval waits, the driver parks, and other code queues a task. -/
def queuedWhileParked : List (DriverEvent ℕ ℕ) :=
  [.other (.setTimer 7 50 true), .step, .inside .stepDone, .stepped false,
    .other (.queueReady (.other 8))]

theorem sparing_queuedWhileParked : ∀ e ∈ queuedWhileParked, ∀ d, Sparing d e := by
  rintro e he d
  simp only [queuedWhileParked, List.mem_cons, List.not_mem_nil, or_false] at he
  rcases he with rfl | rfl | rfl | rfl | rfl
  · exact fun _ _ => .inr trivial
  · trivial
  · trivial
  · trivial
  · exact fun _ _ => .inr trivial

/-- The parked driver is woken long before its sleep ends. -/
theorem parked_woken_queued : ∃ d, (driverMachine ℕ ℕ).RunWhere Sparing (initial 0 1) d ∧
    d.phase = .parked (some 50000000) ∧ d.system.now = 0 ∧ d.woken = true := by
  obtain ⟨d, hrun, hd⟩ := Machine.exists_runWhere_of_exec Sparing queuedWhileParked
    (M := driverMachine ℕ ℕ) (s := initial 0 1) (P := fun d => Decidable.decide
      (d.phase = .parked (some 50000000) ∧ d.system.now = 0 ∧ d.system.loop.hasReady = true))
    sparing_queuedWhileParked (by decide)
  obtain ⟨hphase, hnow, hready⟩ := of_decide_eq_true hd
  exact ⟨d, hrun, hphase, hnow, parked_woken hrun hphase (.inl hready)⟩

/-- The driver parks on a loop with one task, which is then cancelled. -/
def lastTaskCancelled : List (DriverEvent ℕ ℕ) :=
  [.other (.queue (.other 7)), .step, .inside .stepDone, .stepped false, .other (.cancelIfQueued 0)]

/-- The driver parks on a loop that is held by an interest handle, and a stop is requested. -/
def stopWhileParked : List (DriverEvent ℕ ℕ) :=
  [.other .acquireHandle, .step, .inside .stepDone, .stepped false, .other .requestStop]

/-- The two wake-ups that are lost. -/
theorem wakeups_lost :
    (∃ d, (driverMachine ℕ ℕ).Run (initial 0 1) d ∧ d.phase = .parked none ∧
      d.system.loop.isAlive = false ∧ d.woken = false) ∧
    ∃ d, (driverMachine ℕ ℕ).Run (initial 0 1) d ∧ d.phase = .parked none ∧
      d.system.loop.stopRequested = true ∧ d.woken = false := by
  constructor
  · obtain ⟨d, hrun, hd⟩ := Machine.exists_run_of_exec lastTaskCancelled (M := driverMachine ℕ ℕ)
      (s := initial 0 1) (P := fun d =>
        Decidable.decide (d.phase = .parked none ∧ d.system.loop.isAlive = false ∧ d.woken = false))
      (by decide)
    exact ⟨d, hrun, of_decide_eq_true hd⟩
  · obtain ⟨d, hrun, hd⟩ := Machine.exists_run_of_exec stopWhileParked (M := driverMachine ℕ ℕ)
      (s := initial 0 1) (P := fun d => Decidable.decide
        (d.phase = .parked none ∧ d.system.loop.stopRequested = true ∧ d.woken = false))
      (by decide)
    exact ⟨d, hrun, of_decide_eq_true hd⟩

end Driver

end CoreRuntime
