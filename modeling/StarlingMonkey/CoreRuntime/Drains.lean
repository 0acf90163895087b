import StarlingMonkey.Lib.Run
import StarlingMonkey.Js.Rejections
import Mathlib.Data.List.Chain

/-!
# The drains of a loop

`run_until` between its steps: the drain after each task, the report of the rejections that a drain
leaves unhandled, the capture of an exception, which reads its `stack` and calls its `toString`, and
the settlement of completed futures. `LoopThread.points` is where the thread of the loop is: the
function that runs, the ones it returns to, and the place in each. What a task, a job, a future or
an accessor of a value does is not known. It is a sequence of operations in the engine, after which
it returns or throws.

* `LoopThread.Laid`: how the points lie on each other.
* `LoopThread.Clean`: no exception is pending unless the function that runs is about to look for it,
  and no job is queued where no drain comes before the next step.
* `steps_clean`: in every run in which the values that the last report before a step describes queue
  no job, a step finds neither a job nor an exception. Every rejection that had no handler when the
  drain after it ended is printed once, and no other.
-/

namespace CoreRuntime

open Js

/-- Whose code runs. -/
inductive Runner where
  /-- A function of the author that the engine calls: it may throw. -/
  | author
  /-- A task. It may throw, and it may drain the job queue when no script is on the stack. -/
  | task
  /-- Native code that leaves no exception: a poll, the settlement of a promise, another loop of
  the thread. -/
  | host
deriving DecidableEq, Repr

/-- A place in the code of the loop. -/
inductive Point where
  /-- Code runs that is not the loop's. -/
  | running (runner : Runner)
  /-- A reaction job has returned. -/
  | jobReturned (derived : ℕ)
  /-- `ExnThrown::capture`. -/
  | capture
  /-- `ExnThrown::capture`, where the `stack` property was read. -/
  | stackRead
  /-- `ExnThrown::capture`, where the value was turned into a string. -/
  | stringified
  /-- `handle_and_clear_exception`. -/
  | handleAndClear
  /-- `report_and_clear`. -/
  | reportAndClear
  /-- `run_microtasks`. -/
  | runMicrotasks
  /-- `finalization::run_pending`, before its next callback. -/
  | runPending
  /-- `run_jobs`, before its next job. -/
  | runJobs
  /-- `report_unhandled_rejections`. -/
  | reportUnhandledRejections
  /-- The loop of `report_unhandled_rejections`, with the promises to come. -/
  | reports (promises : List ℕ)
  /-- The reason of a promise was captured, and is to be printed. -/
  | print (promise : ℕ)
  /-- `settle_completed_futures` of the event loop, with the number of futures that completed. -/
  | settle (completed : ℕ)
  /-- `settle_completed_futures` of the promises, with the number of those that are left. -/
  | settlePromises (completed : ℕ)
  /-- `run_until`, at the top of its loop. -/
  | turn
  /-- `step`, before the next task of the batch, and whether it ran one. -/
  | batch (ranAny : Bool)
  /-- `run_until` at an await, and whether the step made progress. -/
  | await (progressed : Bool)
  /-- `run_until`, where it has polled its futures. -/
  | polled (progressed : Bool)
  /-- No driver runs. -/
  | outside
deriving DecidableEq, Repr

/-- The engine, and where the thread is: the innermost place first. -/
structure LoopThread where
  engine : Engine
  points : List Point

/-- What happens: the loop goes on; the code that runs performs an operation, drains the job queue,
or returns; the batch has another task, or is over, with which the driver may end; the driver is
woken, polls its futures, of which some have completed, or is dropped; other code of the thread
runs; a driver starts. -/
inductive LoopEvent where
  | advance
  | act (op : JsOp)
  | checkpoint
  | returns (thrown : Option Thrown)
  | runTask
  | stepReturns (finished : Bool)
  | poll
  | polled (completed : ℕ)
  | wake
  | drop
  | other
  | drive
deriving DecidableEq, Repr

/-- The debug assertions. -/
inductive DrainAbort where
  | pendingMicrotask
  | pendingException
  | runWithException
deriving DecidableEq, Repr

namespace LoopThread

/-- The outcome of a step. -/
abbrev Result := Outcome DrainAbort Empty LoopThread LoopThread

/-- `ExnThrown::capture`, up to the first function of the author that it calls. -/
def capture (e : Engine) (k : List Point) : LoopThread :=
  match e.exception with
  | none => ⟨e, k⟩
  | some .error | some .primitive => ⟨{ e with exception := none }, k⟩
  | some (.object true) => ⟨{ e with exception := none }, .running .author :: .stringified :: k⟩
  | some (.object false) => ⟨{ e with exception := none }, .running .author :: .stackRead :: k⟩

/-- The code of the loop goes on. -/
def advance (t : LoopThread) : Result :=
  match t.points with
  | .jobReturned derived :: k =>
    -- the engine rejects the promise of the reaction
    match t.engine.exception with
    | none => pure ⟨t.engine, k⟩
    | some reason => pure ⟨{ t.engine with exception := none }.reject derived reason, k⟩
  | .capture :: k => pure (capture t.engine k)
  | .stackRead :: k =>
    pure ⟨{ t.engine with exception := none }, .running .author :: .stringified :: k⟩
  | .stringified :: k => pure ⟨{ t.engine with exception := none }, k⟩
  | .handleAndClear :: k | .reportAndClear :: k =>
    if t.engine.exception.isSome then pure ⟨t.engine, .capture :: k⟩ else pure ⟨t.engine, k⟩
  | .runMicrotasks :: k => do
    .guard t.engine.exception.isNone .runWithException
    pure ⟨t.engine, .runPending :: .runJobs :: .reportUnhandledRejections :: k⟩
  | .runPending :: k =>
    match t.engine.cleanups with
    | 0 => pure ⟨t.engine, k⟩
    | n + 1 => pure ⟨{ t.engine with cleanups := n },
        .running .author :: .reportAndClear :: .runPending :: k⟩
  | .runJobs :: k =>
    match t.engine.jobs with
    | [] => pure ⟨t.engine, k⟩
    | derived :: jobs => pure ⟨{ t.engine with jobs },
        .running .author :: .jobReturned derived :: .runJobs :: k⟩
  | .reportUnhandledRejections :: k =>
    let (taken, engine) := t.engine.judge.takeUnhandledRejections
    pure ⟨engine, .reports taken :: k⟩
  | .reports [] :: k => pure ⟨t.engine, k⟩
  | .reports (promise :: promises) :: k =>
    match (t.engine.promises promise).state.reason? with
    | none => pure ⟨t.engine, .reports promises :: k⟩
    | some reason => pure ⟨{ t.engine with exception := some reason },
        .capture :: .print promise :: .reports promises :: k⟩
  | .print promise :: k =>
    pure ⟨{ t.engine with reported := t.engine.reported ++ [promise] }, k⟩
  | .settle 0 :: k =>
    if t.engine.jobs.isEmpty then pure ⟨t.engine, k⟩ else pure ⟨t.engine, .runMicrotasks :: k⟩
  | .settle (completed + 1) :: k =>
    pure ⟨t.engine, .settlePromises (completed + 1) :: .runMicrotasks :: k⟩
  | .settlePromises 0 :: k => pure ⟨t.engine, .runJobs :: .reportAndClear :: k⟩
  | .settlePromises (completed + 1) :: k =>
    pure ⟨t.engine, .running .host :: .settlePromises completed :: k⟩
  | .turn :: k => do
    .guard t.engine.jobs.isEmpty .pendingMicrotask
    .guard t.engine.exception.isNone .pendingException
    pure ⟨t.engine, .batch false :: k⟩
  | _ => pure t

/-- What happens at an event. An event that cannot happen now changes nothing. -/
def step (t : LoopThread) : LoopEvent → Result
  | .advance => t.advance
  | .act op =>
    match t.points with
    | .running _ :: _ => pure ⟨t.engine.act op, t.points⟩
    | _ => pure t
  | .checkpoint =>
    match t.points with
    | .running .task :: _ | .running .host :: _ => pure ⟨t.engine, .runMicrotasks :: t.points⟩
    | _ => pure t
  | .returns thrown =>
    match t.points with
    | .running .host :: k => pure ⟨t.engine, k⟩
    | .running _ :: k => pure ⟨{ t.engine with exception := thrown }, k⟩
    | _ => pure t
  | .runTask =>
    match t.points with
    | .batch _ :: k => pure ⟨t.engine,
        .running .task :: .handleAndClear :: .runMicrotasks :: .handleAndClear :: .batch true :: k⟩
    | _ => pure t
  | .stepReturns finished =>
    match t.points with
    | .batch ranAny :: k => pure ⟨t.engine, (if finished then .outside else .await ranAny) :: k⟩
    | _ => pure t
  | .poll =>
    match t.points with
    | .await progressed :: k => pure ⟨t.engine, .running .host :: .polled progressed :: k⟩
    | _ => pure t
  | .polled completed =>
    match t.points with
    | .polled progressed :: k =>
      if completed = 0 ∧ progressed = false ∧ t.engine.jobs = [] then
        pure ⟨t.engine, .await progressed :: k⟩
      else pure ⟨t.engine, .settle completed :: .turn :: k⟩
    | _ => pure t
  | .wake =>
    match t.points with
    | .await false :: k => pure ⟨t.engine, .settle 0 :: .turn :: k⟩
    | _ => pure t
  | .drop =>
    match t.points with
    | .await _ :: k => pure ⟨t.engine, .outside :: k⟩
    | _ => pure t
  | .other =>
    match t.points with
    | .await _ :: _ | .outside :: _ => pure ⟨t.engine, .running .host :: t.points⟩
    | _ => pure t
  | .drive =>
    match t.points with
    | .outside :: k => pure ⟨t.engine, .turn :: k⟩
    | _ => pure t

/-- Before the first driver. -/
def initial : LoopThread := ⟨.initial, [.outside]⟩

end LoopThread

/-- The machine of a loop's thread. -/
def loopMachine : Machine DrainAbort Empty LoopThread LoopEvent := ⟨LoopThread.step⟩

/-! ### Where the thread can be -/

namespace Point

/-- The functions that look for a pending exception. -/
def looks : Point → Bool
  | .jobReturned _ | .capture | .stackRead | .stringified | .handleAndClear | .reportAndClear =>
    true
  | _ => false

/-- The functions that drain the job queue before they return. -/
def drains : Point → Bool
  | .runMicrotasks | .runJobs | .settle _ => true
  | _ => false

/-- The promises that are about to be printed. -/
def toReport : Point → List ℕ
  | .reports promises => promises
  | .print promise => [promise]
  | _ => []

/-- The places from which the author's functions are called. -/
def calls : Point → Bool
  | .jobReturned _ | .reportAndClear | .stackRead | .stringified => true
  | _ => false

/-- The places at which native code runs. -/
def hosts : Point → Bool
  | .polled _ | .await _ | .outside | .settlePromises _ => true
  | _ => false

/-- The places at which an exception of a function is reported. -/
def catches : Point → Bool
  | .runPending | .runMicrotasks | .batch _ => true
  | _ => false

/-- The places at which `run_microtasks` is called. -/
def checkpoints : Point → Bool
  | .handleAndClear | .turn | .running .task | .running .host => true
  | _ => false

/-- The loop of `report_unhandled_rejections`. -/
def isReports : Point → Bool
  | .reports _ => true
  | _ => false

/-- Whether a place is of a function that is called from the other. -/
def lies : Point → Point → Bool
  | .running .author, g => g.calls
  | .running .task, g => g == .handleAndClear
  | .running .host, g => g.hosts
  | .jobReturned _, g => g == .runJobs
  | .capture, .print _ | .stackRead, .print _ | .stringified, .print _ => true
  | .capture, g | .stackRead, g | .stringified, g => g.catches
  | .handleAndClear, g | .reportAndClear, g => g.catches
  | .runMicrotasks, g | .reportUnhandledRejections, g | .reports _, g => g.checkpoints
  | .runPending, g => g == .runJobs
  | .runJobs, g => g == .reportUnhandledRejections || g == .reportAndClear
  | .print _, .reports _ => true
  | .settle _, g => g == .turn
  | .settlePromises _, g => g == .runMicrotasks
  | _, _ => false

/-- The places of the report of a rejection. -/
def reporting : Point → Bool
  | .running .author | .capture | .stackRead | .stringified | .print _ | .reports _ => true
  | _ => false

/-- What the report of a rejection calls is part of it. -/
theorem reporting_of_lies {f g : Point} (hlies : f.lies g = true) (hg : g.reporting = true)
    (hf : f.drains = false) : f.reporting = true := by
  cases f with
  | capture | stackRead | stringified | print p | reports l => rfl
  | runMicrotasks | runJobs | settle n => cases hf
  | running r =>
    cases r with
    | author => rfl
    | _ =>
      cases g <;>
        first | exact (Bool.false_ne_true hg).elim | exact (Bool.false_ne_true hlies).elim
  | _ =>
    cases g with
    | running r' =>
      cases r' <;>
        first | exact (Bool.false_ne_true hg).elim | exact (Bool.false_ne_true hlies).elim
    | _ => first | exact (Bool.false_ne_true hg).elim | exact (Bool.false_ne_true hlies).elim

end Point

namespace LoopThread

/-- The places lie on each other. -/
abbrev Laid (points : List Point) : Prop := points.IsChain fun f g => f.lies g = true

/-- The report with which the last drain before a step ends is in progress. -/
def lastReport : List Point → Bool
  | [] => false
  | f :: k => (f.isReports && k == [.turn]) || lastReport k

/-- The promises that are about to be printed. -/
def toReport (points : List Point) : List ℕ := points.flatMap Point.toReport

/-- The invariant. -/
structure Clean (t : LoopThread) : Prop where
  laid : Laid t.points
  exception : t.engine.exception = none ∨ ∀ f ∈ t.points.head?, f.looks = true
  jobs : .turn ∈ t.points → (∀ f ∈ t.points, f.drains = false) → t.engine.jobs = []
  reporting : t.engine.Reporting (toReport t.points)

/-- The condition on the steps: a driver starts with an empty job queue, and the values that the
last report before a step describes queue no job. -/
def Undisturbed (t : LoopThread) : LoopEvent → Prop
  | .drive => t.points = [.outside] → t.engine.jobs = []
  | .act op => lastReport t.points = true → t.engine.queues op = false
  | _ => True

variable {t : LoopThread} {e e' : Engine} {f f' g : Point} {k : List Point}

/-- A driver is at the bottom. -/
theorem Laid.eq_nil (h : Laid (f :: k)) (hf : ∀ g, f.lies g = false) : k = [] := by
  cases k with
  | nil => rfl
  | cons g k =>
    have hg := (List.isChain_cons_cons.mp h).1
    rw [hf g] at hg
    cases hg

/-- Where no drain is left before a step, the last report is in progress, or about to be, or the
step itself. -/
theorem Laid.lastReport (h : Laid k) (hturn : .turn ∈ k) (hdrains : ∀ f ∈ k, f.drains = false) :
    k = [.turn] ∨ k = [.reportUnhandledRejections, .turn] ∨
      lastReport k = true ∧ ∃ f k', k = f :: k' ∧ f.reporting = true := by
  induction k with
  | nil => cases hturn
  | cons f k ih =>
    have hf := hdrains f (List.mem_cons_self ..)
    rcases List.mem_cons.mp hturn with rfl | hturn
    · rw [h.eq_nil fun g => by cases g <;> rfl]
      exact .inl rfl
    rcases ih h.tail hturn fun g hg => hdrains g (List.mem_cons_of_mem f hg) with
      rfl | rfl | ⟨hlast, g, k, rfl, hg⟩
    · have hlies := (List.isChain_cons_cons.mp h).1
      cases f with
      | reportUnhandledRejections => exact .inr (.inl rfl)
      | reports l => exact .inr (.inr ⟨rfl, _, _, rfl, rfl⟩)
      | running r => cases r <;> cases hlies
      | runMicrotasks | settle n => cases hf
      | _ => cases hlies
    · have hlies := (List.isChain_cons_cons.mp h).1
      cases f with
      | runJobs => cases hf
      | running r => cases r <;> cases hlies
      | _ => cases hlies
    · have hlies := (List.isChain_cons_cons.mp h).1
      have hlast' : LoopThread.lastReport (f :: g :: k) = true := by
        rw [LoopThread.lastReport, hlast, Bool.or_true]
      exact .inr (.inr ⟨hlast', f, _, rfl, Point.reporting_of_lies hlies hg hf⟩)

/-! ### The steps -/

theorem clean_initial : Clean initial where
  laid := List.isChain_singleton _
  exception := .inl rfl
  jobs hturn := by simp [initial] at hturn
  reporting := Engine.reporting_initial

theorem Laid.push (hlies : f.lies g = true) (h : Laid (g :: k)) : Laid (f :: g :: k) :=
  List.isChain_cons_cons.mpr ⟨hlies, h⟩

/-- One place takes that of another. -/
theorem Laid.replace (h : Laid (f :: k)) (hlies : ∀ g, f.lies g = true → f'.lies g = true) :
    Laid (f' :: k) :=
  List.isChain_cons.mpr ⟨fun g hg => hlies g ((List.isChain_cons.mp h).1 g hg), h.tail⟩

namespace Clean

/-- A place that does not look for an exception finds none. -/
theorem exception_eq (h : Clean ⟨e, f :: k⟩) (hf : f.looks = false) : e.exception = none := by
  refine h.exception.resolve_right fun hlooks => ?_
  rw [hlooks f rfl] at hf
  cases hf

/-- A function returns. -/
theorem pop (h : Clean ⟨e, f :: k⟩) (hexception : e.exception = none)
    (hjobs : f.drains = true → e.jobs = []) (hreport : f.toReport = []) : Clean ⟨e, k⟩ where
  laid := h.laid.tail
  exception := .inl hexception
  jobs hturn hdrains := by
    cases hf : f.drains with
    | true => exact hjobs hf
    | false =>
      refine h.jobs (List.mem_cons_of_mem f hturn) fun g hg => ?_
      rcases List.mem_cons.mp hg with rfl | hg
      · exact hf
      · exact hdrains g hg
  reporting := by
    have hr := h.reporting
    rwa [toReport, List.flatMap_cons, hreport] at hr

/-- A function is called. -/
theorem push (h : Clean ⟨e, g :: k⟩) (hlies : f.lies g = true)
    (hexception : e.exception = none ∨ f.looks = true) (hturn : f ≠ .turn)
    (hreport : f.toReport = []) : Clean ⟨e, f :: g :: k⟩ where
  laid := h.laid.push hlies
  exception := hexception.imp id fun hlooks g' hg' => Option.mem_some_iff.mp hg' ▸ hlooks
  jobs hmem hdrains :=
    h.jobs ((List.mem_cons.mp hmem).resolve_left hturn.symm) fun g' hg' =>
      hdrains g' (List.mem_cons_of_mem f hg')
  reporting := by
    have hr := h.reporting
    rw [toReport, List.flatMap_cons, hreport]
    exact hr

/-- A function goes on to its next place. -/
theorem replace (h : Clean ⟨e, f :: k⟩) (hlies : ∀ g, f.lies g = true → f'.lies g = true)
    (hexception : e.exception = none ∨ f'.looks = true) (hturn : f' ≠ .turn)
    (hdrains : f'.drains = false → f.drains = false) (hreport : f'.toReport = f.toReport) :
    Clean ⟨e, f' :: k⟩ where
  laid := h.laid.replace hlies
  exception := hexception.imp id fun hlooks g hg => Option.mem_some_iff.mp hg ▸ hlooks
  jobs hmem hall := by
    refine h.jobs (List.mem_cons_of_mem f ((List.mem_cons.mp hmem).resolve_left hturn.symm))
      fun g hg => ?_
    rcases List.mem_cons.mp hg with rfl | hg
    · exact hdrains (hall f' (List.mem_cons_self ..))
    · exact hall g (List.mem_cons_of_mem f' hg)
  reporting := by
    have hr := h.reporting
    rw [toReport, List.flatMap_cons] at hr ⊢
    rwa [hreport]

/-- The engine changes. -/
theorem engine (h : Clean ⟨e, k⟩) (hchange : Engine.Change e e')
    (hexception : e'.exception = none ∨ ∀ f ∈ k.head?, f.looks = true)
    (hjobs : e.jobs = [] → .turn ∈ k → (∀ f ∈ k, f.drains = false) → e'.jobs = []) :
    Clean ⟨e', k⟩ where
  laid := h.laid
  exception := hexception
  jobs hturn hdrains := hjobs (h.jobs hturn hdrains) hturn hdrains
  reporting := h.reporting.change hchange

/-- The pending exception is cleared. -/
theorem clear (h : Clean ⟨e, k⟩) : Clean ⟨{ e with exception := none }, k⟩ :=
  h.engine (Engine.SameRejections.change ⟨rfl, rfl, rfl⟩) (.inl rfl) fun hjobs _ _ => hjobs

/-- Before a step there is neither a job nor an exception. -/
theorem turn (h : Clean ⟨e, .turn :: k⟩) : k = [] ∧ e.jobs = [] ∧ e.exception = none := by
  obtain rfl := h.laid.eq_nil fun g => by cases g <;> rfl
  exact ⟨rfl, h.jobs (List.mem_cons_self ..) (by simp [Point.drains]), h.exception_eq rfl⟩

/-- A capture calls the author's code. -/
theorem call (h : Clean ⟨{ e with exception := none }, f :: k⟩)
    (hf : f = .capture ∨ f = .stackRead) (hf' : f' = .stackRead ∨ f' = .stringified) :
    Clean ⟨{ e with exception := none }, .running .author :: f' :: k⟩ := by
  have hnext : Clean ⟨{ e with exception := none }, f' :: k⟩ := by
    rcases hf with rfl | rfl <;> rcases hf' with rfl | rfl
    all_goals exact h.replace (fun g => by cases g <;> exact id) (.inl rfl) (by rintro ⟨⟩) id rfl
  exact hnext.push (by rcases hf' with rfl | rfl <;> rfl) (.inl rfl) (by rintro ⟨⟩) rfl

/-- An exception is captured. -/
theorem capture (h : Clean ⟨e, .capture :: k⟩) : Clean (LoopThread.capture e k) := by
  have hclear := h.clear
  rw [LoopThread.capture]
  cases hexception : e.exception with
  | none => exact h.pop hexception (fun hf => Bool.noConfusion hf) rfl
  | some thrown =>
    cases thrown with
    | error | primitive => exact hclear.pop rfl (fun hf => Bool.noConfusion hf) rfl
    | object stack =>
      cases stack with
      | true => exact hclear.call (.inl rfl) (.inr rfl)
      | false => exact hclear.call (.inl rfl) (.inl rfl)

/-- The engine takes the exception of a job. -/
theorem jobReturned {derived : ℕ} (h : Clean ⟨e, .jobReturned derived :: k⟩) :
    (LoopThread.advance ⟨e, .jobReturned derived :: k⟩).Sat Clean (fun _ => False)
      fun _ => False := by
  simp only [LoopThread.advance]
  cases hexception : e.exception with
  | none => exact h.pop hexception (fun hf => Bool.noConfusion hf) rfl
  | some reason =>
    have hpop := h.clear.pop rfl (fun hf => Bool.noConfusion hf) rfl
    refine hpop.engine (Engine.change_act (.reject derived reason))
      (.inl (Engine.exception_act (.reject derived reason))) fun _ hturn hall => ?_
    -- the job was called by `run_jobs`, which goes on
    cases k with
    | nil => cases hturn
    | cons g k =>
      have hlies := (List.isChain_cons_cons.mp h.laid).1
      have hg : g = .runJobs := by simpa [Point.lies] using hlies
      exact Bool.noConfusion (hg ▸ hall g (List.mem_cons_self ..))

/-- A drain starts. -/
theorem runMicrotasks (h : Clean ⟨e, .runMicrotasks :: k⟩) :
    Clean ⟨e, .runPending :: .runJobs :: .reportUnhandledRejections :: k⟩ where
  laid := .cons_cons rfl (.cons_cons rfl (h.laid.replace fun _ => id))
  exception := .inl (h.exception_eq rfl)
  jobs _ hall := Bool.noConfusion (hall .runJobs (by simp))
  reporting := h.reporting

/-- A drain is called from where futures are settled. -/
theorem settle_lies {completed : ℕ} (h : (Point.settle completed).lies g = true) :
    Point.runMicrotasks.lies g = true := by
  obtain rfl : g = .turn := by simpa [Point.lies] using h
  rfl

/-- The completed futures are settled. -/
theorem settled (h : Clean ⟨e, .settlePromises 0 :: k⟩) :
    Clean ⟨e, .runJobs :: .reportAndClear :: k⟩ where
  laid := .cons_cons rfl (h.laid.replace fun g => by
    cases g <;> first | exact fun _ => rfl | exact fun hg => Bool.noConfusion hg)
  exception := .inl (h.exception_eq rfl)
  jobs _ hall := Bool.noConfusion (hall .runJobs (by simp))
  reporting := h.reporting

/-- A drain has ended. -/
theorem take (h : Clean ⟨e, .reportUnhandledRejections :: k⟩) :
    Clean ⟨e.judge.takeUnhandledRejections.2, .reports e.judge.takeUnhandledRejections.1 :: k⟩ where
  laid := h.laid.replace fun _ => id
  exception := .inl (h.exception_eq rfl)
  jobs hmem hall := h.jobs (by simpa using hmem) fun g hg => by
    rcases List.mem_cons.mp hg with rfl | hg
    · rfl
    · exact hall g (List.mem_cons_of_mem _ hg)
  reporting := by
    rw [toReport, List.flatMap_cons]
    exact h.reporting.take

/-- The reason of a rejection is captured. -/
theorem report {promise : ℕ} {promises : List ℕ}
    (h : Clean ⟨e, .reports (promise :: promises) :: k⟩) :
    (LoopThread.advance ⟨e, .reports (promise :: promises) :: k⟩).Sat Clean (fun _ => False)
      fun _ => False := by
  obtain ⟨reason, hreason⟩ := h.reporting.rejected
  have hsome : (e.promises promise).state.reason? = some reason := by
    rw [hreason]
    rfl
  simp only [LoopThread.advance, hsome]
  exact
    { laid := .cons_cons rfl (.cons_cons rfl (h.laid.replace fun _ => id))
      exception := .inr fun g hg => Option.mem_some_iff.mp hg ▸ rfl
      jobs := fun hmem hall => h.jobs (by simpa using hmem) fun g hg => by
        rcases List.mem_cons.mp hg with rfl | hg
        · rfl
        · exact hall g (by simp [hg])
      reporting := h.reporting.change (Engine.SameRejections.change ⟨rfl, rfl, rfl⟩) }

/-- The reason of a rejection is printed. -/
theorem print {promise : ℕ} (h : Clean ⟨e, .print promise :: k⟩) :
    Clean ⟨{ e with reported := e.reported ++ [promise] }, k⟩ where
  laid := h.laid.tail
  exception := .inl (h.exception_eq rfl)
  jobs hmem hall := h.jobs (List.mem_cons_of_mem _ hmem) fun g hg => by
    rcases List.mem_cons.mp hg with rfl | hg
    · rfl
    · exact hall g hg
  reporting := h.reporting.print

/-- **The code of the loop goes on.** -/
theorem advance (h : Clean t) : t.advance.Sat Clean (fun _ => False) fun _ => False := by
  obtain ⟨e, points⟩ := t
  cases points with
  | nil => exact h
  | cons f k =>
    cases f with
    -- code that runs does not return by itself
    | running r => exact h
    | batch ranAny | await progressed | polled progressed | outside => exact h
    | capture => exact h.capture
    | jobReturned derived => exact h.jobReturned
    | stackRead => exact h.clear.call (.inr rfl) (.inr rfl)
    | stringified => exact h.clear.pop rfl (fun hf => Bool.noConfusion hf) rfl
    -- an exception is taken before it is reported
    | handleAndClear | reportAndClear =>
      simp only [LoopThread.advance]
      split
      · exact h.replace (fun g => by cases g <;> first | exact id | exact fun _ => rfl) (.inr rfl)
          (by rintro ⟨⟩) id rfl
      case isFalse hnone =>
        exact h.pop (by simpa using hnone) (fun hf => Bool.noConfusion hf) rfl
    | runMicrotasks =>
      simp only [LoopThread.advance, h.exception_eq rfl]
      exact h.runMicrotasks
    | runPending =>
      have hnone := h.exception_eq rfl
      simp only [LoopThread.advance]
      cases hcleanups : e.cleanups with
      | zero => exact h.pop hnone (fun hf => Bool.noConfusion hf) rfl
      | succ n =>
        -- the callback is called with the rest of the queue, and reports what it throws
        have hcall : Clean ⟨{ e with cleanups := n }, .runPending :: k⟩ :=
          h.engine (Engine.SameRejections.change ⟨rfl, rfl, rfl⟩) (.inl hnone)
            fun hjobs _ _ => hjobs
        exact (hcall.push (f := .reportAndClear) rfl (.inl hnone) (by rintro ⟨⟩) rfl).push rfl
          (.inl hnone) (by rintro ⟨⟩) rfl
    | runJobs =>
      have hnone := h.exception_eq rfl
      simp only [LoopThread.advance]
      cases hjobs : e.jobs with
      -- the drain ends with the queue empty
      | nil => exact h.pop hnone (fun _ => hjobs) rfl
      | cons derived jobs =>
        have hcall : Clean ⟨{ e with jobs }, .runJobs :: k⟩ :=
          h.engine (Engine.SameRejections.change ⟨rfl, rfl, rfl⟩) (.inl hnone) fun _ _ hall =>
            Bool.noConfusion (hall .runJobs (List.mem_cons_self ..))
        exact (hcall.push (f := .jobReturned derived) rfl (.inl hnone) (by rintro ⟨⟩) rfl).push rfl
          (.inl hnone) (by rintro ⟨⟩) rfl
    | reportUnhandledRejections => exact h.take
    | reports promises =>
      cases promises with
      | nil => exact h.pop (h.exception_eq rfl) (fun hf => Bool.noConfusion hf) rfl
      | cons promise promises => exact h.report
    | print promise => exact h.print
    | settle completed =>
      have hnone := h.exception_eq rfl
      cases completed with
      -- nothing completed: only a job that is left asks for a drain
      | zero =>
        simp only [LoopThread.advance]
        split
        case isTrue hjobs => exact h.pop hnone (fun _ => List.isEmpty_iff.mp hjobs) rfl
        case isFalse =>
          exact h.replace (fun g => settle_lies) (.inl hnone) (by rintro ⟨⟩) id rfl
      | succ completed =>
        have hdrain : Clean ⟨e, .runMicrotasks :: k⟩ :=
          h.replace (fun g => settle_lies) (.inl hnone) (by rintro ⟨⟩) id rfl
        exact hdrain.push rfl (.inl hnone) (by rintro ⟨⟩) rfl
    | settlePromises completed =>
      have hnone := h.exception_eq rfl
      cases completed with
      | zero => exact h.settled
      | succ completed =>
        have hrest : Clean ⟨e, .settlePromises completed :: k⟩ :=
          h.replace (fun g => id) (.inl hnone) (by rintro ⟨⟩) id rfl
        exact hrest.push rfl (.inl hnone) (by rintro ⟨⟩) rfl
    -- the turn ends with no job and no exception
    | turn =>
      obtain ⟨rfl, hjobs, hnone⟩ := h.turn
      have hr := h.reporting
      simp only [LoopThread.advance, hjobs, hnone]
      exact ⟨List.isChain_singleton _, .inl hnone, fun hmem => by simp at hmem, hr⟩

/-- An operation of the code that runs. -/
theorem act {op : JsOp} {r : Runner} (h : Clean ⟨e, .running r :: k⟩)
    (hok : Undisturbed ⟨e, .running r :: k⟩ (.act op)) :
    Clean ⟨e.act op, .running r :: k⟩ := by
  have hnone := h.exception_eq rfl
  refine h.engine (Engine.change_act op) (.inl ((Engine.exception_act op).trans hnone))
    fun hjobs hturn hall => ?_
  -- where no drain comes before the step, the last report is in progress
  have hlast : lastReport (.running r :: k) = true := by
    rcases h.laid.lastReport hturn hall with heq | heq | ⟨hlast, -⟩
    · cases heq
    · cases heq
    · exact hlast
  rw [Engine.jobs_act (hok hlast), hjobs]

/-- The code that runs returns. -/
theorem returned {r : Runner} {thrown : Option Thrown} (h : Clean ⟨e, .running r :: k⟩)
    (hr : r ≠ .host) : Clean ⟨{ e with exception := thrown }, k⟩ := by
  have hpop := h.pop (h.exception_eq rfl) (fun hf => Bool.noConfusion hf) rfl
  refine hpop.engine (Engine.SameRejections.change ⟨rfl, rfl, rfl⟩) (.inr fun g hg => ?_)
    fun hjobs _ _ => hjobs
  have hlies := (List.isChain_cons.mp h.laid).1 g hg
  cases r with
  | author => cases g <;> first | rfl | exact Bool.noConfusion hlies
  | task =>
    obtain rfl : g = .handleAndClear := by simpa [Point.lies] using hlies
    rfl
  | host => exact absurd rfl hr

/-- A driver goes on at another place. -/
theorem move {g : Point} (h : Clean ⟨e, f :: k⟩) (hf : ∀ g, f.lies g = false)
    (hlooks : f.looks = false) (hf' : f.toReport = []) (hg : g.toReport = [])
    (hjobs : g = .turn → e.jobs = []) : Clean ⟨e, g :: k⟩ := by
  obtain rfl := h.laid.eq_nil hf
  have hr := h.reporting
  rw [toReport, List.flatMap_singleton, hf'] at hr
  refine ⟨List.isChain_singleton _, .inl (h.exception_eq hlooks), fun hmem _ => ?_, ?_⟩
  · exact hjobs (List.mem_singleton.mp hmem).symm
  · rw [toReport, List.flatMap_singleton, hg]
    exact hr

/-- A driver settles what has completed. -/
theorem settle {completed : ℕ} (h : Clean ⟨e, f :: k⟩) (hf : ∀ g, f.lies g = false)
    (hlooks : f.looks = false) (hf' : f.toReport = []) :
    Clean ⟨e, .settle completed :: .turn :: k⟩ := by
  obtain rfl := h.laid.eq_nil hf
  have hr := h.reporting
  rw [toReport, List.flatMap_singleton, hf'] at hr
  exact ⟨List.isChain_pair.mpr rfl, .inl (h.exception_eq hlooks), fun _ hall =>
    Bool.noConfusion (hall (.settle completed) (List.mem_cons_self ..)), hr⟩

/-- A task runs. -/
theorem task {ranAny : Bool} (h : Clean ⟨e, .batch ranAny :: k⟩) :
    Clean ⟨e, .running .task :: .handleAndClear :: .runMicrotasks :: .handleAndClear ::
      .batch true :: k⟩ := by
  have hnone := h.exception_eq rfl
  have hbatch : Clean ⟨e, .batch true :: k⟩ :=
    h.move (fun g => by cases g <;> rfl) rfl rfl rfl (by rintro ⟨⟩)
  have hafter : Clean ⟨e, .runMicrotasks :: .handleAndClear :: .batch true :: k⟩ :=
    (hbatch.push (f := .handleAndClear) rfl (.inl hnone) (by rintro ⟨⟩) rfl).push rfl (.inl hnone)
      (by rintro ⟨⟩) rfl
  exact (hafter.push (f := .handleAndClear) rfl (.inl hnone) (by rintro ⟨⟩) rfl).push rfl
    (.inl hnone) (by rintro ⟨⟩) rfl

/-- **The step.** -/
theorem step {ev : LoopEvent} (h : Clean t) (hok : Undisturbed t ev) :
    (t.step ev).Sat Clean (fun _ => False) fun _ => False := by
  obtain ⟨e, points⟩ := t
  cases points with
  | nil => cases ev <;> exact h
  | cons f k =>
    cases ev with
    | advance => exact h.advance
    -- an event reaches the thread at the point that waits for it, and is ignored elsewhere
    | act op =>
      cases f with
      | running r => exact h.act hok
      | _ => exact h
    | checkpoint =>
      cases f with
      | running r =>
        cases r with
        -- author code has no checkpoint of its own
        | author => exact h
        | task | host => exact h.push rfl (.inl (h.exception_eq rfl)) (by rintro ⟨⟩) rfl
      | _ => exact h
    | returns thrown =>
      cases f with
      | running r =>
        cases r with
        | author | task => exact h.returned (by rintro ⟨⟩)
        | host => exact h.pop (h.exception_eq rfl) (fun hf => Bool.noConfusion hf) rfl
      | _ => exact h
    | runTask =>
      cases f with
      | batch ranAny => exact h.task
      | _ => exact h
    | stepReturns finished =>
      cases f with
      | batch ranAny =>
        cases finished <;> exact h.move (fun g => by cases g <;> rfl) rfl rfl rfl (by rintro ⟨⟩)
      | _ => exact h
    | poll =>
      cases f with
      | await progressed =>
        have hpolled : Clean ⟨e, .polled progressed :: k⟩ :=
          h.move (fun g => by cases g <;> rfl) rfl rfl rfl (by rintro ⟨⟩)
        exact hpolled.push rfl (.inl (h.exception_eq rfl)) (by rintro ⟨⟩) rfl
      | _ => exact h
    | polled completed =>
      cases f with
      | polled progressed =>
        simp only [LoopThread.step]
        split
        · exact h.move (fun g => by cases g <;> rfl) rfl rfl rfl (by rintro ⟨⟩)
        · exact h.settle (fun g => by cases g <;> rfl) rfl rfl
      | _ => exact h
    | wake =>
      cases f with
      | await progressed =>
        cases progressed with
        | true => exact h
        | false => exact h.settle (fun g => by cases g <;> rfl) rfl rfl
      | _ => exact h
    | drop =>
      cases f with
      | await progressed => exact h.move (fun g => by cases g <;> rfl) rfl rfl rfl (by rintro ⟨⟩)
      | _ => exact h
    | other =>
      cases f with
      | await progressed | outside =>
        exact h.push rfl (.inl (h.exception_eq rfl)) (by rintro ⟨⟩) rfl
      | _ => exact h
    | drive =>
      cases f with
      | outside =>
        obtain rfl := h.laid.eq_nil fun g => by cases g <;> rfl
        exact h.move (fun g => by cases g <;> rfl) rfl rfl rfl fun _ => hok rfl
      | _ => exact h

end Clean

/-! ### Runs -/

/-- **A step starts from a clean engine.** In every run in which the values that the last report
before a step describes queue no job, the driver enters `step` with no job and no exception pending,
no assertion fails, and a promise is printed once if its verdict is that it had no handler, and
never otherwise. -/
theorem steps_clean (t : LoopThread) (hrun : loopMachine.RunWhere Undisturbed .initial t) :
    (t.points.head? = some .turn → t.engine.jobs = [] ∧ t.engine.exception = none) ∧
      (∀ ev, Undisturbed t ev → (t.step ev).isPanic = false) ∧
      ∀ p, t.engine.reported.count p + (toReport t.points).count p =
        if (t.engine.promises p).verdict = some true then 1 else 0 := by
  have ht : Clean t := hrun.inv_of_sat clean_initial fun s ev hs hok =>
    (hs.step hok).mono (fun _ => id) (fun _ => False.elim) fun _ => id
  refine ⟨fun hturn => ?_, fun ev hok => (ht.step hok).not_isPanic, ht.reporting.judged⟩
  obtain ⟨e, points⟩ := t
  obtain ⟨k, rfl⟩ : ∃ k, points = .turn :: k := List.head?_eq_some_iff.mp hturn
  exact ht.turn.2

/-- A driver starts with an empty job queue. -/
def Started (t : LoopThread) (ev : LoopEvent) : Prop :=
  ev = .drive → t.points = [.outside] → t.engine.jobs = []

instance (t : LoopThread) (ev : LoopEvent) : Decidable (Started t ev) :=
  inferInstanceAs (Decidable (_ → _ → _))

instance (t : LoopThread) (ev : LoopEvent) : Decidable (Undisturbed t ev) :=
  match ev with
  | .drive => inferInstanceAs (Decidable (t.points = [.outside] → t.engine.jobs = []))
  | .act op =>
    inferInstanceAs (Decidable (lastReport t.points = true → t.engine.queues op = false))
  | .advance | .checkpoint | .returns _ | .runTask | .stepReturns _ | .poll | .polled _ | .wake
  | .drop | .other => .isTrue trivial

/-- A future completes, and the reaction of its promise throws an object, whose accessors the report
calls: what they do. -/
def throwing (accessor : List LoopEvent) : List LoopEvent :=
  [.other, .act (.addReactions 0 1), .returns none, .drive, .advance, .stepReturns false, .poll,
    .returns none, .polled 1, .advance, .advance, .act (.resolve 0), .returns none, .advance,
    .advance, .returns (some (.object true)), .advance, .advance, .advance, .advance, .advance,
    .advance, .advance, .advance, .advance] ++ accessor ++
    [.returns none, .advance, .advance, .advance]

/-- The rejection is printed, and the step is clean. -/
theorem steps_clean_throwing : ∃ t, loopMachine.RunWhere Undisturbed .initial t ∧
    t.points = [.turn] ∧ t.engine.reported = [1] ∧ t.engine.jobs = [] := by
  have hrun : ∃ t, loopMachine.RunWhere Undisturbed .initial t ∧
      decide (t.points = [.turn] ∧ t.engine.reported = [1]) = true := by
    obtain ⟨t, ht, hP⟩ := (Option.any_eq_true _ _).mp
      (show ((loopMachine.exec .initial (throwing [])).any fun t =>
        decide (t.points = [.turn] ∧ t.engine.reported = [1])) = true from by decide)
    exact ⟨t, Machine.runWhere_of_exec (by decide) ht, hP⟩
  obtain ⟨t, hrun, ht⟩ := hrun
  obtain ⟨hturn, hreported⟩ := of_decide_eq_true ht
  exact ⟨t, hrun, hturn, hreported, ((steps_clean t hrun).1 (by rw [hturn]; rfl)).1⟩

/-- An accessor that the last report before a step calls queues a job, which the step finds. -/
theorem accessor_queues : ¬ ∀ t, loopMachine.RunWhere Started .initial t →
    t.points.head? = some .turn → t.engine.jobs = [] ∧ t.engine.exception = none := by
  intro h
  obtain ⟨t, ht, hP⟩ := (Option.any_eq_true _ _).mp
    (show ((loopMachine.exec .initial (throwing [.act (.queueMicrotask 2)])).any fun t =>
      decide (t.points.head? = some .turn ∧ t.engine.jobs = [2])) = true from by decide)
  obtain ⟨hturn, hjobs⟩ := of_decide_eq_true hP
  have hclean := h t (Machine.runWhere_of_exec (by decide) ht) hturn
  rw [hjobs] at hclean
  cases hclean.1

end LoopThread

end CoreRuntime
