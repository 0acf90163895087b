import StarlingMonkey.CoreRuntime.TaskQueue
import StarlingMonkey.Lib.Outcome

/-!
# Event loops and their timers

`EventLoop` is the task registry of one loop: the counter task ids are taken from, the queue, the
map from the ids scripts see to the timer tasks they control, the interest other parts of the
program hold in the loop, and the notification its driver waits for. The definitions below are its
operations. Arithmetic is checked, as in a build with overflow checks: a counter that would leave
its integer type ends the process.

A notification wakes a listener that is registered when it is sent, and is dropped otherwise. Where
a task or a timer was created is recorded for diagnostics only and left out.
-/

namespace CoreRuntime

/-- A span of time, in nanoseconds. -/
abbrev Duration := ℕ

/-- A later reading. It saturates at the largest one that can be represented. -/
def Instant.add (t : Instant) (d : Duration) : Instant := min (t + d) (2 ^ 64 - 1)

/-- The assertions that end the process. -/
inductive Abort where
  /-- `next_task_id` would pass the last task id. -/
  | taskIdOverflow
  /-- `next_global_counter` has wrapped around. -/
  | counterWrapped
  /-- `allocate_js_timer_id` has not found an id. -/
  | timerIdLoop
  /-- `expire_timers` has not ended. -/
  | expiryLoop
  /-- `pop_ready`: ready tasks are live. -/
  | readyNotLive
  /-- `acquire_handle`: interest count overflow. -/
  | interestOverflow
  /-- `InterestHandle` outlived its tracker's count. -/
  | handleOutlived
deriving DecidableEq, Repr

/-- A timer task: what it runs, the delay after which it repeats, its nesting level and the id
scripts know it by. -/
structure TimerTask (κ : Type) where
  handler : κ
  interval : Option Duration
  nestingLevel : ℕ
  timerId : ℕ
deriving DecidableEq, Repr

/-- A task: a timer, or a task of another kind. -/
inductive Task (κ ω : Type) where
  | timer (t : TimerTask κ)
  | other (t : ω)
deriving DecidableEq, Repr

/-- The task registry of a loop, with the state its handles and its driver share. -/
structure EventLoop (κ ω : Type) where
  nextId : TaskId
  tasks : TaskQueue (Task κ ω)
  /-- The timer ids scripts know, with the task each controls. -/
  jsTimers : AList fun _ : ℕ => TaskId
  /-- The buffer the batch of a step is built in. -/
  batchBuf : List TaskId
  stopRequested : Bool
  /-- The count of interest handles that are held. -/
  interest : ℕ
  /-- The pending futures that count for this loop. -/
  futures : ℕ
  /-- The listener registered for the loop's notification, and whether it has been notified. -/
  notify : Option Bool

variable {κ ω σ : Type}

/-- The outcome of an operation. -/
abbrev Result (σ α : Type) := Outcome Abort Empty σ α

namespace EventLoop

/-- A new, empty loop. -/
def new : EventLoop κ ω :=
  ⟨0, .empty, ∅, [], false, 0, 0, none⟩

/-- Wake the listener, if there is one. -/
def notify1 (el : EventLoop κ ω) : EventLoop κ ω :=
  { el with notify := el.notify.map fun _ => true }

/-- Allocate the next unique task id. -/
def nextTaskId (el : EventLoop κ ω) : Result σ (TaskId × EventLoop κ ω) :=
  if el.nextId + 1 < 2 ^ 64 then .ok (el.nextId, { el with nextId := el.nextId + 1 })
  else .panic .taskIdOverflow

/-- Queue a task for later execution. -/
def queue (el : EventLoop κ ω) (task : Task κ ω) : Result σ (TaskId × EventLoop κ ω) := do
  let (id, el) ← el.nextTaskId
  pure (id, { el with tasks := el.tasks.insert ⟨id, task, false, none⟩ })

/-- Queue a task that is immediately ready to run. -/
def queueReady (el : EventLoop κ ω) (task : Task κ ω) : Result σ (TaskId × EventLoop κ ω) := do
  let (id, el) ← el.nextTaskId
  pure (id, notify1 { el with tasks := el.tasks.insert ⟨id, task, true, none⟩ })

/-- Insert a timer task under `id`, and wake the driver. -/
def insertTimer (el : EventLoop κ ω) (id : TaskId) (task : Task κ ω) (deadline : Instant) :
    EventLoop κ ω :=
  notify1 { el with tasks := el.tasks.insert ⟨id, task, false, some deadline⟩ }

/-- Queue a task with a timer deadline. -/
def queueTimer (el : EventLoop κ ω) (task : Task κ ω) (deadline : Instant) :
    Result σ (TaskId × EventLoop κ ω) := do
  let (id, el) ← el.nextTaskId
  pure (id, el.insertTimer id task deadline)

/-- Cancel a queued task. Returns whether it was found. -/
def cancelIfQueued (el : EventLoop κ ω) (id : TaskId) : Bool × EventLoop κ ω :=
  match el.tasks.remove id with
  | none => (false, el)
  | some (_, tasks) => (true, { el with tasks })

/-- Allocate the next timer id: greater than zero and not in the loop's map. The counter belongs to
the global, and other loops take ids from it as well. -/
def allocateJsTimerId (el : EventLoop κ ω) : ℕ → ℕ → Result σ (ℕ × ℕ)
  | 0, _ => .panic .timerIdLoop
  | fuel + 1, counter =>
    if counter < 2 ^ 53 - 1 then
      if counter ≠ 0 ∧ counter ∉ el.jsTimers then .ok (counter, counter + 1)
      else el.allocateJsTimerId fuel (counter + 1)
    else .panic .counterWrapped

/-- Queue a timer task under a fresh timer id. -/
def queueJsTimer (el : EventLoop κ ω) (counter : ℕ) (deadline : Instant) (makeTask : ℕ → Task κ ω) :
    Result σ (ℕ × TaskId × ℕ × EventLoop κ ω) := do
  let (timerId, counter) ← el.allocateJsTimerId (el.jsTimers.entries.length + 2) counter
  let (id, el) ← el.nextTaskId
  let el := el.insertTimer id (makeTask timerId) deadline
  pure (timerId, id, counter, { el with jsTimers := el.jsTimers.insert timerId id })

/-- Queue an interval again under its ids, unless it was cleared while it ran. -/
def requeueJsTimer (el : EventLoop κ ω) (timerId : ℕ) (id : TaskId) (task : Task κ ω)
    (deadline : Instant) : EventLoop κ ω :=
  if el.jsTimers.lookup timerId = some id then el.insertTimer id task deadline else el

/-- Cancel a timer by the id scripts know. -/
def clearJsTimer (el : EventLoop κ ω) (timerId : ℕ) : EventLoop κ ω :=
  match el.jsTimers.lookup timerId with
  | none => el
  | some task => (cancelIfQueued { el with jsTimers := el.jsTimers.erase timerId } task).2

/-- Release the id of a timer that does not repeat, after it fired. -/
def jsTimerFired (el : EventLoop κ ω) (timerId : ℕ) : EventLoop κ ω :=
  { el with jsTimers := el.jsTimers.erase timerId }

/-- Mark a queued task as ready to run. -/
def signalReady (el : EventLoop κ ω) (id : TaskId) : EventLoop κ ω :=
  match el.tasks.markReady id with
  | (true, tasks) => notify1 { el with tasks }
  | (false, tasks) => { el with tasks }

/-- Take the next ready task out of the queue. -/
def popReady (el : EventLoop κ ω) : Result σ (Option (TaskId × Task κ ω) × EventLoop κ ω) :=
  match el.tasks.ready.first? with
  | none => .ok (none, el)
  | some key => do
    let (entry, tasks) ← Outcome.expect (el.tasks.remove (ofLex key).2) .readyNotLive
    pure (some (entry.id, entry.task), { el with tasks })

/-- Mark the timers whose deadline has passed ready. Returns their number. -/
def advanceTimers (el : EventLoop κ ω) (now : Instant) : Result σ (ℕ × EventLoop κ ω) := do
  let (n, tasks) ← Outcome.expect
    (el.tasks.expireTimers now (el.tasks.timers.elems.length + 1)) .expiryLoop
  pure (n, { el with tasks })

/-- The time until the next timer fires. -/
def timeToNextTimer (el : EventLoop κ ω) (now : Instant) : Option Duration :=
  el.tasks.timers.first?.map fun key => (ofLex key).1 - now

/-- Whether there are tasks in the queue. -/
def hasPending (el : EventLoop κ ω) : Bool := !el.tasks.entries.entries.isEmpty

/-- Whether a task is ready. -/
def hasReady (el : EventLoop κ ω) : Bool := !el.tasks.ready.elems.isEmpty

/-- Whether an interest handle is held. -/
def hasInterest (el : EventLoop κ ω) : Bool := 0 < el.interest

/-- Whether the loop should stay alive. -/
def isAlive (el : EventLoop κ ω) : Bool := el.hasPending || el.hasInterest || 0 < el.futures

/-- Register interest: a handle is held. -/
def acquireHandle (el : EventLoop κ ω) : Result σ (EventLoop κ ω) :=
  if el.interest + 1 < 2 ^ 32 then .ok { el with interest := el.interest + 1 }
  else .panic .interestOverflow

/-- Drop a handle, and wake the driver. -/
def dropHandle (el : EventLoop κ ω) : Result σ (EventLoop κ ω) :=
  if el.interest = 0 then .panic .handleOutlived
  else .ok (notify1 { el with interest := el.interest - 1 })

/-- Request that the loop end after its current step. -/
def requestStop (el : EventLoop κ ω) : EventLoop κ ω := { el with stopRequested := true }

end EventLoop

/-! ### Timers -/

/-- The timeout of a timer nested more than five levels deep is at least four milliseconds. -/
def clampNestedTimeout (nestingLevel : ℕ) (delay : Duration) : Duration :=
  if 5 < nestingLevel ∧ delay < 4000000 then 4000000 else delay

/-- One level deeper, saturating. -/
def deeper (nestingLevel : ℕ) : ℕ := min (nestingLevel + 1) (2 ^ 32 - 1)

/-- The delay of a new timer, from the timeout a script gave, in milliseconds. -/
def timerDelay (nesting : ℕ) (timeout : ℤ) : Duration :=
  clampNestedTimeout nesting ((max timeout 0).toNat * 1000000)

/-- The task of a new timer. -/
def newTimer (nesting : ℕ) (handler : κ) (timeout : ℤ) (repeats : Bool) (timerId : ℕ) :
    TimerTask κ :=
  ⟨handler, if repeats then some (timerDelay nesting timeout) else none, deeper nesting, timerId⟩

/-- The timer initialization steps, called with the nesting level of the running timer. -/
def timerInitializationSteps (el : EventLoop κ ω) (counter nesting : ℕ) (now : Instant)
    (handler : κ) (timeout : ℤ) (repeats : Bool) : Result σ (ℕ × TaskId × ℕ × EventLoop κ ω) :=
  el.queueJsTimer counter (now.add (timerDelay nesting timeout)) fun timerId =>
    .timer (newTimer nesting handler timeout repeats timerId)

/-- What a timer task does after its handler ran, whether or not the handler threw: an interval is
queued again, a timeout releases its id. -/
def TimerTask.finish (t : TimerTask κ) (el : EventLoop κ ω) (id : TaskId) (now : Instant) :
    EventLoop κ ω :=
  match t.interval with
  | some interval =>
    let delay := clampNestedTimeout t.nestingLevel interval
    el.requeueJsTimer t.timerId id (.timer { t with nestingLevel := deeper t.nestingLevel })
      (now.add delay)
  | none => el.jsTimerFired t.timerId

end CoreRuntime
