import StarlingMonkey.CoreRuntime.EventLoop
import StarlingMonkey.Lib.Run

/-!
# A loop and the code that runs on it

A step of the loop runs tasks, and the code of a task may call every operation of the loop,
another step included. `System` makes the control flow explicit: `stack` holds the calls that have
not returned, innermost first. A `batch` frame is a call of `step` with the tasks it has still to
turn to, the other frames are a task that runs and the microtasks that follow it. Code runs when
the innermost frame is not a batch, which covers every order of calls and every nesting.

The `log` records what happened, in order. It is read by the statements only.
-/

namespace CoreRuntime

variable {κ ω : Type}

/-- What a call of `step` reports to its caller. -/
inductive StepOutcome where
  | done
  | idle
  | progressed
deriving DecidableEq, Repr

/-- A call that has not returned. -/
inductive Frame (κ ω : Type) where
  /-- `step`, with the rest of its batch and whether a task ran. -/
  | batch (todo : List TaskId) (ranAny : Bool)
  /-- A timer's handler runs, with the nesting level to restore after it. -/
  | handler (id : TaskId) (task : TimerTask κ) (previousNesting : ℕ)
  /-- A task of another kind runs. -/
  | other (id : TaskId) (task : ω)
  /-- The task has run, and the microtasks behind it are drained. -/
  | microtasks (id : TaskId)

/-- What is recorded of a run. -/
inductive Record (κ ω : Type) where
  /-- A task was queued under a new id. -/
  | allocated (id : TaskId) (task : Task κ ω)
  /-- A queued task was cancelled. -/
  | cancelled (id : TaskId)
  /-- A task was taken from the queue to be run, with its deadline and the time. -/
  | started (id : TaskId) (task : Task κ ω) (deadline : Option Instant) (now : Instant)
  /-- A timer id was issued to a script, for a task. -/
  | issued (timerId : ℕ) (id : TaskId)
  /-- A script cleared a timer id. -/
  | cleared (timerId : ℕ)

/-- A loop, the clock, the counter timer ids are taken from, the nesting level of the running
timer, the interest handles that are held, the calls that have not returned, the outcome of the
last step that has, and the record. -/
structure System (κ ω : Type) where
  loop : EventLoop κ ω
  now : Instant
  counter : ℕ
  nesting : ℕ
  handles : ℕ
  stack : List (Frame κ ω)
  outcome : Option StepOutcome
  log : List (Record κ ω)

/-- What code does to the loop. -/
inductive Op (κ ω : Type) where
  | queue (task : Task κ ω)
  | queueReady (task : Task κ ω)
  | queueTimer (task : Task κ ω) (deadline : Instant)
  | queueJsTimer (deadline : Instant) (makeTask : ℕ → Task κ ω)
  | setTimer (handler : κ) (timeout : ℤ) (repeats : Bool)
  | clearJsTimer (timerId : ℕ)
  | jsTimerFired (timerId : ℕ)
  | cancelIfQueued (id : TaskId)
  | signalReady (id : TaskId)
  | advanceTimers
  | popReady
  | step
  | acquireHandle
  | dropHandle
  | requestStop
  | spawnFuture
  | endFuture

/-- What happens next: the running code calls the loop, time passes, another loop takes a timer
id, the innermost step turns to its next task, the running task or its microtasks end, the
innermost step returns. The engine's own job queue is not part of the model: microtasks are code
that runs after a task. -/
inductive Event (κ ω : Type) where
  | code (op : Op κ ω)
  | tick (d : Duration)
  | otherTimer
  | dispatch
  | taskDone (threw : Bool)
  | microtasksDone
  | stepDone

namespace System

/-- Before anything has happened. -/
def initial (now : Instant) (counter : ℕ) : System κ ω :=
  ⟨.new, now, counter, 0, 0, [], none, []⟩

/-- The loop after `task` was queued under `id`. -/
def allocate (s : System κ ω) (id : TaskId) (task : Task κ ω) (loop : EventLoop κ ω) :
    System κ ω :=
  { s with loop, log := s.log ++ [.allocated id task] }

/-- The task taken from the queue starts to run. -/
def start (s : System κ ω) (id : TaskId) (task : Task κ ω) (deadline : Option Instant) :
    System κ ω :=
  let s : System κ ω := { s with log := s.log ++ [.started id task deadline s.now] }
  match task with
  | .timer t => { s with nesting := t.nestingLevel, stack := .handler id t s.nesting :: s.stack }
  | .other t => { s with stack := .other id t :: s.stack }

/-- Cancel a queued task, and record it if it was found. -/
def cancel (s : System κ ω) (id : TaskId) : System κ ω :=
  match s.loop.cancelIfQueued id with
  | (true, loop) => { s with loop, log := s.log ++ [.cancelled id] }
  | (false, loop) => { s with loop }

/-- Clear a timer id, and record that and what it cancels. -/
def clear (s : System κ ω) (timerId : ℕ) : System κ ω :=
  let cancelled := (s.loop.jsTimers.lookup timerId).filter fun id =>
    (s.loop.tasks.entries.lookup id).isSome
  { s with
    loop := s.loop.clearJsTimer timerId
    log := s.log ++ .cleared timerId :: cancelled.toList.map .cancelled }

/-- The code that runs performs an operation. -/
def perform (s : System κ ω) : Op κ ω → Result (System κ ω) (System κ ω)
  | .queue task => do
    let (id, loop) ← s.loop.queue task
    pure (s.allocate id task loop)
  | .queueReady task => do
    let (id, loop) ← s.loop.queueReady task
    pure (s.allocate id task loop)
  | .queueTimer task deadline => do
    let (id, loop) ← s.loop.queueTimer task deadline
    pure (s.allocate id task loop)
  | .queueJsTimer deadline makeTask => do
    let (timerId, id, counter, loop) ← s.loop.queueJsTimer s.counter deadline makeTask
    let task := makeTask timerId
    pure { s with loop, counter, log := s.log ++ [.allocated id task, .issued timerId id] }
  | .setTimer handler timeout repeats => do
    let (timerId, id, counter, loop) ←
      timerInitializationSteps s.loop s.counter s.nesting s.now handler timeout repeats
    let task := .timer (newTimer s.nesting handler timeout repeats timerId)
    pure { s with loop, counter, log := s.log ++ [.allocated id task, .issued timerId id] }
  | .clearJsTimer timerId => pure (s.clear timerId)
  | .jsTimerFired timerId => pure { s with loop := s.loop.jsTimerFired timerId }
  | .cancelIfQueued id => pure (s.cancel id)
  | .signalReady id => pure { s with loop := s.loop.signalReady id }
  | .advanceTimers => do
    let (_, loop) ← s.loop.advanceTimers s.now
    pure { s with loop }
  | .popReady => do
    let (popped, loop) ← s.loop.popReady
    match popped with
    | none => pure { s with loop }
    -- the caller runs the task it is given
    | some (id, task) =>
      pure (start { s with loop } id task ((s.loop.tasks.entries.lookup id).bind (·.deadline)))
  | .step => do
    let (_, loop) ← s.loop.advanceTimers s.now
    let batch := loop.batchBuf ++ loop.tasks.ready.elems.map fun key => (ofLex key).2
    pure { s with loop := { loop with batchBuf := [] }, stack := .batch batch false :: s.stack }
  | .acquireHandle => do
    let loop ← s.loop.acquireHandle
    pure { s with loop, handles := s.handles + 1 }
  | .dropHandle =>
    if s.handles = 0 then pure s
    else do
      let loop ← s.loop.dropHandle
      pure { s with loop, handles := s.handles - 1 }
  | .requestStop => pure { s with loop := s.loop.requestStop }
  | .spawnFuture => pure { s with loop := { s.loop with futures := s.loop.futures + 1 } }
  | .endFuture => pure { s with loop := { s.loop with futures := s.loop.futures - 1 } }

/-- Whether code runs: the innermost call is not a step between two of its tasks. -/
def codeRuns (s : System κ ω) : Bool :=
  match s.stack with
  | .batch _ _ :: _ => false
  | _ => true

/-- What happens at an event. An event that cannot happen now changes nothing. -/
def step (s : System κ ω) : Event κ ω → Result (System κ ω) (System κ ω)
  | .code op => if s.codeRuns then s.perform op else pure s
  | .tick d => pure { s with now := s.now + d }
  | .otherTimer => pure { s with counter := s.counter + 1 }
  | .dispatch =>
    match s.stack with
    | .batch (id :: todo) ranAny :: frames =>
      match s.loop.tasks.remove id with
      -- an earlier task of the batch cancelled this one
      | none => pure { s with stack := .batch todo ranAny :: frames }
      | some (entry, tasks) =>
        pure (start { s with
          loop := { s.loop with tasks }, stack := .batch todo true :: frames } id entry.task
          entry.deadline)
    | _ => pure s
  | .taskDone _ =>
    match s.stack with
    | .handler id task previousNesting :: frames =>
      pure { s with
        loop := task.finish s.loop id s.now
        nesting := previousNesting
        stack := .microtasks id :: frames }
    | .other id _ :: frames => pure { s with stack := .microtasks id :: frames }
    | _ => pure s
  | .microtasksDone =>
    match s.stack with
    | .microtasks _ :: frames => pure { s with stack := frames }
    | _ => pure s
  | .stepDone =>
    match s.stack with
    | .batch [] ranAny :: frames =>
      let outcome := if ranAny then .progressed else if s.loop.isAlive then .idle else .done
      pure { s with
        loop := { s.loop with batchBuf := [] }
        outcome := some outcome
        stack := frames }
    | _ => pure s

end System

/-- The machine of a loop and its code. -/
def systemMachine (κ ω : Type) : Machine Abort Empty (System κ ω) (Event κ ω) := ⟨System.step⟩

end CoreRuntime
