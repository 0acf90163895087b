import StarlingMonkey.Js.AsyncFromSync
import StarlingMonkey.Lib.Run
import StarlingMonkey.WebStreams.Basic
import Mathlib.Data.List.Basic
import Mathlib.Logic.Function.Iterate

/-!
# Streams from sync iterables

`ReadableStream.from` makes a stream whose pull algorithm calls the async `next` of an iterator
record, once for each pull. Here the iterable is a sync one, so that `next` is `afs_next`.

`FromStream` is the stream, its controller, the record and the reaction jobs of all of them.
Other code reads from the stream and lets go of its reader at any time, also when it runs inside the
sync iterator. A promise that was yielded settles at any time.

* `Phase`: where the call of `next` that is in flight has got to. There is one at a time, since the
  controller makes one pull at a time.
* `Driven`: the results come in order, and each is that of its call alone.
* `from_specified_iff`: a stream does what the specification says as long as no call diverges.

A call may return an object of the author's own, where a yielded promise has such a species. The
object settles apart from the value it was to follow, so that the next call may come first.
-/

namespace WebStreams

open Js

/-- A sync iterator, by what it does. -/
structure SyncIterator (V : Type) where
  /-- What the `n`th call of `next` does. -/
  next : ℕ → SyncNext V
  /-- What `return` is and does after `n` calls of `next`. -/
  ret : ℕ → ReturnMethod V
  /-- How often the author's code reads from the stream in the `n`th call of `next`. -/
  nextReads : ℕ → ℕ
  /-- The same for `return`. -/
  returnReads : ℕ → ℕ

/-- What goes on apart from the promises of the code where the author's object was returned: the
value of the call settles, or the object does. -/
inductive ForeignWait (V : Type) where
  | value (done : Bool) (settling : Settling V)
  | object (outcome : Except (Failure V) (IteratorResult V))
deriving DecidableEq

/-- A reaction job. -/
inductive FromJob (V : Type) where
  /-- The start promise is fulfilled. -/
  | started
  /-- `afs_wrap_parked`. -/
  | wrapParked
  /-- The reaction of `afs_next` to the settling of a value. -/
  | valueSettled (done : Bool) (settling : Settling V)
  /-- `from_pull_fulfilled`. -/
  | pullFulfilled (result : IteratorResult V)
  /-- A rejection of `next`, which is passed on. -/
  | pullRejected (e : Failure V)
  /-- The pull promise is fulfilled or rejected. -/
  | pullSettled (rejection : Option (Failure V))
  /-- The reaction of `afs_next` where functions of the author's are called with what it returns,
  or that of the promise that follows the author's object. -/
  | foreignSettled (wait : ForeignWait V)
deriving DecidableEq

/-- What the stream is fed. -/
inductive FromOutput (V : Type) where
  | enqueued (v : V)
  | closed
  | errored (e : Failure V)
deriving DecidableEq, Repr

/-- The iteration: the record, the calls of `next`, after how many of them `return` was called, how
the promises of `next` were settled, the values that are awaited, with their `done` flags, what is
awaited where the author's objects were returned, and the jobs. -/
structure Iteration (V : Type) where
  record : AsyncIteratorRecord V
  calls : ℕ
  closings : List ℕ
  results : List (Except (Failure V) (IteratorResult V))
  awaiting : List (Bool × Settling V)
  foreign : List (ForeignWait V)
  jobs : List (FromJob V)
deriving DecidableEq

/-- A stream that `ReadableStream.from` made. -/
structure FromStream (V : Type) extends Iteration V where
  state : StreamState
  started : Bool
  closeRequested : Bool
  pulling : Bool
  pullAgain : Bool
  /-- How many read requests are pending. -/
  requests : ℕ
  queue : List V
  output : List (FromOutput V)
deriving DecidableEq

/-- What happens: other code reads or lets go of its reader, a value that is awaited settles, or
what else is awaited does, the next job runs. -/
inductive FromEvent where
  | read
  | release
  | settle (i : ℕ)
  | settleForeign (i : ℕ)
  | job
deriving DecidableEq, Repr

variable {V : Type}

namespace FromStream

/-! ### The controller -/

/-- `readable_stream_default_controller_can_close_or_enqueue`. -/
def canCloseOrEnqueue (s : FromStream V) : Bool := !s.closeRequested && s.state = .readable

/-- `readable_stream_default_controller_should_call_pull`. The high water mark is 0, so that the
desired size is never positive. -/
def shouldCallPull (s : FromStream V) : Bool :=
  s.canCloseOrEnqueue && s.started && 0 < s.requests

/-- `readable_stream_default_controller_call_pull_if_needed`, for a pull algorithm. -/
def callPullIfNeeded (s : FromStream V) (pull : FromStream V → FromStream V) : FromStream V :=
  if !s.shouldCallPull then s
  else if s.pulling then { s with pullAgain := true }
  else pull { s with pulling := true }

/-- A read, up to the pull: it is served from the queue, or waits. -/
def takeRead (s : FromStream V) : FromStream V :=
  match s.state, s.queue with
  | .readable, [] => { s with requests := s.requests + 1 }
  | .readable, _ :: queue =>
    if s.closeRequested && queue.isEmpty then { s with queue := [], state := .closed }
    else { s with queue }
  | _, _ => s

/-- `readable_stream_default_reader_read`. A stream that is closing is not pulled. -/
def read (pull : FromStream V → FromStream V) (s : FromStream V) : FromStream V :=
  s.takeRead.callPullIfNeeded pull

/-- `readable_stream_default_controller_enqueue`. A size of 1 is always accepted. -/
def controllerEnqueue (pull : FromStream V → FromStream V) (s : FromStream V) (v : V) :
    FromStream V :=
  if !s.canCloseOrEnqueue then s
  else
    let s := { s with output := s.output ++ [FromOutput.enqueued v] }
    let s :=
      if 0 < s.requests then { s with requests := s.requests - 1 }
      else { s with queue := s.queue ++ [v] }
    s.callPullIfNeeded pull

/-- `readable_stream_default_controller_close`. -/
def controllerClose (s : FromStream V) : FromStream V :=
  if !s.canCloseOrEnqueue then s
  else
    let s := { s with closeRequested := true, output := s.output ++ [FromOutput.closed] }
    if s.queue.isEmpty then { s with state := .closed, requests := 0 } else s

/-- `readable_stream_default_controller_error`. -/
def controllerError (s : FromStream V) (e : Failure V) : FromStream V :=
  if s.state ≠ .readable then s
  else { s with
    state := .errored, queue := [], requests := 0, output := s.output ++ [.errored e] }

/-! ### The iteration -/

/-- The reaction of the pull to the promise of `next`. -/
def reaction : Except (Failure V) (IteratorResult V) → FromJob V
  | .ok result => .pullFulfilled result
  | .error e => .pullRejected e

/-- The promise of `next` is settled. -/
def settle (s : FromStream V) (outcome : Except (Failure V) (IteratorResult V)) : FromStream V :=
  { s with results := s.results ++ [outcome], jobs := s.jobs ++ [reaction outcome] }

variable [Inhabited V] (it : SyncIterator V)

/-- `afs_next`, from where the code of the author's has run. The pull reacts to the promise. -/
def callNext (s : FromStream V) : FromStream V :=
  let (record, promise) := afsNext s.record (it.next s.calls)
  let s := { s with record, calls := s.calls + 1 }
  match promise with
  | .rejected e => s.settle (.error e)
  | .wrapping => { s with jobs := s.jobs ++ [.wrapParked] }
  | .reacting settling done => { s with awaiting := s.awaiting ++ [(done, settling)] }
  | .foreign outcome settling done =>
    { s with foreign := s.foreign ++ .value done settling :: (outcome.map .object).toList }

/-- `from_pull_native`. While the sync iterator's `next` runs, a pull is in flight. -/
def fromPull (s : FromStream V) : FromStream V :=
  ((read id)^[it.nextReads s.calls] s).callNext it

/-- The sync iterator's `return` is called. -/
def callReturn (s : FromStream V) : FromStream V :=
  let s := (read (fromPull it))^[it.returnReads s.calls] s
  { s with closings := s.closings ++ [s.calls] }

/-- The reaction of `afs_next` to the settling of a value. -/
def valueSettled (s : FromStream V) (done : Bool) (settling : Settling V) : FromStream V :=
  let outcome := afsReaction (it.ret s.calls) done settling
  let s := if outcome.closed then s.callReturn it else s
  outcome.settles.elim s s.settle

/-- What was awaited apart has settled. -/
def foreignSettled (s : FromStream V) : ForeignWait V → FromStream V
  | .value done settling =>
    if (afsReaction (it.ret s.calls) done settling).closed then s.callReturn it else s
  | .object outcome => s.settle outcome

/-- `from_pull_fulfilled`. -/
def fromPullFulfilled (s : FromStream V) (result : IteratorResult V) : FromStream V :=
  if result.done then s.controllerClose else s.controllerEnqueue (fromPull it) result.value

/-- A job runs. -/
def run (s : FromStream V) : FromJob V → FromStream V
  | .started => { s with started := true }.callPullIfNeeded (fromPull it)
  | .wrapParked =>
    let (record, result) := afsWrapParked s.record
    { s with record }.settle (.ok result)
  | .valueSettled done settling => s.valueSettled it done settling
  | .pullFulfilled result =>
    let s := s.fromPullFulfilled it result
    { s with jobs := s.jobs ++ [.pullSettled none] }
  | .pullRejected e => { s with jobs := s.jobs ++ [.pullSettled (some e)] }
  | .pullSettled none =>
    let s := { s with pulling := false }
    if s.pullAgain then { s with pullAgain := false }.callPullIfNeeded (fromPull it) else s
  | .pullSettled (some e) => s.controllerError e
  | .foreignSettled wait => s.foreignSettled it wait

/-- What happens at an event. An event that cannot happen now changes nothing. -/
def step (s : FromStream V) : FromEvent → FromStream V
  | .read => s.read (fromPull it)
  | .release => { s with requests := 0 }
  | .settle i =>
    match s.awaiting[i]? with
    | none | some (_, .never) => s
    | some (done, settling) => { s with
      awaiting := s.awaiting.eraseIdx i, jobs := s.jobs ++ [.valueSettled done settling] }
  | .settleForeign i =>
    match s.foreign[i]? with
    | none | some (.value _ .never) => s
    | some wait => { s with
      foreign := s.foreign.eraseIdx i, jobs := s.jobs ++ [.foreignSettled wait] }
  | .job =>
    match s.jobs with
    | [] => s
    | job :: jobs => { s with jobs }.run it job

/-- `ReadableStreamFromIterable` has made the stream. -/
def initial : FromStream V where
  record := ⟨default, false⟩
  calls := 0
  closings := []
  results := []
  awaiting := []
  foreign := []
  jobs := [.started]
  state := .readable
  started := false
  closeRequested := false
  pulling := false
  pullAgain := false
  requests := 0
  queue := []
  output := []

end FromStream

/-- The machine of a stream from a sync iterable. -/
def fromMachine [Inhabited V] (it : SyncIterator V) :
    Machine Empty Empty (FromStream V) FromEvent := ⟨fun s ev => pure (s.step it ev)⟩

/-! ### Reads -/

namespace FromStream

variable {s : FromStream V}

/-- What a read leaves as it is while a pull is in flight. -/
structure Untouched (s t : FromStream V) : Prop where
  iteration : t.toIteration = s.toIteration
  started : t.started = s.started
  pulling : t.pulling = s.pulling
  output : t.output = s.output
  live : s.canCloseOrEnqueue = true → t.canCloseOrEnqueue = true

theorem Untouched.refl (s : FromStream V) : Untouched s s := ⟨rfl, rfl, rfl, rfl, id⟩

theorem Untouched.trans {t u : FromStream V} (h : Untouched s t) (h' : Untouched t u) :
    Untouched s u :=
  ⟨h'.iteration.trans h.iteration, h'.started.trans h.started, h'.pulling.trans h.pulling,
    h'.output.trans h.output, fun hl => h'.live (h.live hl)⟩

/-- A read closes the stream only if that was requested. -/
theorem untouched_takeRead (s : FromStream V) : Untouched s s.takeRead := by
  rw [takeRead.eq_def]
  split
  · exact ⟨rfl, rfl, rfl, rfl, id⟩
  · split
    next hclose =>
      refine ⟨rfl, rfl, rfl, rfl, fun hlive => ?_⟩
      simp only [Bool.and_eq_true] at hclose
      simp [canCloseOrEnqueue, hclose.1] at hlive
    next => exact ⟨rfl, rfl, rfl, rfl, id⟩
  · exact .refl _

/-- A pull that is wanted while one is in flight is made later. -/
theorem untouched_callPullIfNeeded (hpulling : s.pulling = true)
    (pull : FromStream V → FromStream V) : Untouched s (s.callPullIfNeeded pull) := by
  rw [callPullIfNeeded, if_pos hpulling]
  split
  · exact .refl s
  · exact ⟨rfl, rfl, rfl, rfl, id⟩

theorem untouched_read (hpulling : s.pulling = true) (pull : FromStream V → FromStream V) :
    Untouched s (s.read pull) :=
  have htake := untouched_takeRead s
  htake.trans (untouched_callPullIfNeeded (htake.pulling.trans hpulling) pull)

theorem untouched_reads (hpulling : s.pulling = true) (pull : FromStream V → FromStream V) (n : ℕ) :
    Untouched s ((read pull)^[n] s) := by
  induction n with
  | zero => exact .refl s
  | succ n ih =>
    rw [Function.iterate_succ_apply']
    exact ih.trans (untouched_read (ih.pulling.trans hpulling) pull)

/-- A call of `return` is noted, and leaves the rest to the reads. -/
theorem callReturn_spec [Inhabited V] (it : SyncIterator V) (hpulling : s.pulling = true) :
    (s.callReturn it).toIteration = { s.toIteration with closings := s.closings ++ [s.calls] } ∧
      (s.callReturn it).pulling = true ∧ (s.callReturn it).output = s.output ∧
      (s.canCloseOrEnqueue = true → (s.callReturn it).canCloseOrEnqueue = true) := by
  have hreads := untouched_reads hpulling (fromPull it) (it.returnReads s.calls)
  refine ⟨?_, hreads.pulling.trans hpulling, hreads.output, hreads.live⟩
  rw [callReturn, hreads.iteration]

/-- What the pull's reaction does while the stream may be fed: the iteration goes on as it was. -/
structure FedWith (s t : FromStream V) (output : FromOutput V) : Prop where
  iteration : t.toIteration = s.toIteration
  pulling : t.pulling = s.pulling
  output : t.output = s.output ++ [output]

theorem fedWith_controllerClose (hlive : s.canCloseOrEnqueue = true) :
    FedWith s s.controllerClose .closed := by
  rw [controllerClose, hlive]
  simp only [Bool.not_true, Bool.false_eq_true, ↓reduceIte]
  split <;> exact ⟨rfl, rfl, rfl⟩

theorem fedWith_controllerEnqueue (hlive : s.canCloseOrEnqueue = true) (hpulling : s.pulling = true)
    (pull : FromStream V → FromStream V) (v : V) :
    FedWith s (s.controllerEnqueue pull v) (.enqueued v) := by
  have huntouched {t : FromStream V} (ht : FedWith s t (.enqueued v)) :
      FedWith s (t.callPullIfNeeded pull) (.enqueued v) := by
    have h := untouched_callPullIfNeeded (ht.pulling.trans hpulling) pull
    exact ⟨h.iteration.trans ht.iteration, h.pulling.trans ht.pulling, h.output.trans ht.output⟩
  rw [controllerEnqueue, hlive]
  simp only [Bool.not_true, Bool.false_eq_true, ↓reduceIte]
  refine huntouched ?_
  split <;> exact ⟨rfl, rfl, rfl⟩

theorem controllerError_of_live (hlive : s.canCloseOrEnqueue = true) (e : Failure V) :
    s.controllerError e = { s with
      state := .errored, queue := [], requests := 0, output := s.output ++ [.errored e] } := by
  have hstate : s.state = .readable := by
    simp only [canCloseOrEnqueue, Bool.and_eq_true, decide_eq_true_eq] at hlive
    exact hlive.2
  rw [controllerError, if_neg (not_not_intro hstate)]

/-! ### The calls -/

section Calls

/-- No call of `next` is taken back. -/
def Counts (f : FromStream V → FromStream V) : Prop := ∀ s, s.calls ≤ (f s).calls

theorem counts_id : Counts (V := V) id := fun _ => le_rfl

theorem takeRead_calls (s : FromStream V) : s.takeRead.calls = s.calls :=
  congrArg Iteration.calls (untouched_takeRead s).iteration

theorem Counts.callPullIfNeeded {pull : FromStream V → FromStream V} (h : Counts pull) :
    Counts fun s => s.callPullIfNeeded pull := by
  intro s
  simp only [FromStream.callPullIfNeeded]
  split_ifs
  · exact le_rfl
  · exact le_rfl
  · exact h { s with pulling := true }

theorem Counts.read {pull : FromStream V → FromStream V} (h : Counts pull) :
    Counts (FromStream.read pull) := fun s =>
  (takeRead_calls s).ge.trans (h.callPullIfNeeded s.takeRead)

theorem Counts.reads {pull : FromStream V → FromStream V} (h : Counts pull) (n : ℕ) :
    Counts (FromStream.read pull)^[n] := by
  induction n with
  | zero => exact counts_id
  | succ n ih =>
    intro s
    rw [Function.iterate_succ_apply']
    exact (ih s).trans (h.read _)

variable (it : SyncIterator V)

theorem callNext_calls (s : FromStream V) : (s.callNext it).calls = s.calls + 1 := by
  rw [callNext]
  rcases afsNext s.record (it.next s.calls) with ⟨record, _ | _ | _ | _⟩ <;> rfl

theorem counts_fromPull : Counts (fromPull it) := by
  intro s
  rw [fromPull, callNext_calls]
  exact (counts_id.reads _ s).trans (Nat.le_succ _)

theorem counts_callReturn : Counts fun s => s.callReturn it :=
  fun s => (counts_fromPull it).reads _ s

/-- What is fed to the stream may have it pull. -/
theorem counts_fromPullFulfilled (result : IteratorResult V) :
    Counts fun s => s.fromPullFulfilled it result := by
  intro s
  simp only [fromPullFulfilled, controllerClose, controllerEnqueue]
  have hpull := (counts_fromPull it).callPullIfNeeded
  split_ifs
  · exact le_rfl
  · exact le_rfl
  · exact le_rfl
  · exact le_rfl
  · exact hpull { s with
      output := s.output ++ [FromOutput.enqueued result.value], requests := s.requests - 1 }
  · exact hpull { s with
      output := s.output ++ [FromOutput.enqueued result.value], queue := s.queue ++ [result.value] }

variable [Inhabited V]

theorem counts_run (job : FromJob V) : Counts fun s => s.run it job := by
  intro s
  have hpull := (counts_fromPull it).callPullIfNeeded
  cases job with
  | started => exact hpull { s with started := true }
  | wrapParked => exact le_rfl
  | valueSettled done settling =>
    have hsettle (t : FromStream V) (settles : Option (Except (Failure V) (IteratorResult V))) :
        (settles.elim t t.settle).calls = t.calls := by
      cases settles <;> rfl
    simp only [run, valueSettled, hsettle]
    split_ifs
    · exact counts_callReturn it s
    · exact le_rfl
  | pullFulfilled result => exact counts_fromPullFulfilled it result s
  | pullRejected e => exact le_rfl
  | pullSettled rejection =>
    cases rejection with
    | none =>
      simp only [run]
      split_ifs
      · exact hpull { s with pulling := false, pullAgain := false }
      · exact le_rfl
    | some e =>
      simp only [run, controllerError]
      split_ifs <;> exact le_rfl
  | foreignSettled wait =>
    cases wait with
    | value done settling =>
      simp only [run, foreignSettled]
      split_ifs
      · exact counts_callReturn it s
      · exact le_rfl
    | object outcome => exact le_rfl

theorem calls_le_step (s : FromStream V) (ev : FromEvent) : s.calls ≤ (s.step it ev).calls := by
  cases ev with
  | read => exact (counts_fromPull it).read s
  | release => exact le_rfl
  | settle i =>
    simp only [step]
    split <;> exact le_rfl
  | settleForeign i =>
    simp only [step]
    split <;> exact le_rfl
  | job =>
    simp only [step]
    split
    · exact le_rfl
    next job jobs _ => exact counts_run it job { s with jobs }

end Calls

end FromStream

/-! ### What the specification says -/

section Specified

variable (it : SyncIterator V)

/-- What the `n`th call of `next` comes to by the specification. -/
def reference (n : ℕ) : NextOutcome V := specNext (it.next n) (it.ret (n + 1))

/-- What a result of `next` feeds to the stream. -/
def fed : Except (Failure V) (IteratorResult V) → FromOutput V
  | .ok ⟨_, true⟩ => .closed
  | .ok ⟨v, false⟩ => .enqueued v
  | .error e => .errored e

/-- What a job is about to feed to the stream. -/
def FromJob.feeds : FromJob V → Option (FromOutput V)
  | .pullFulfilled result => some (fed (.ok result))
  | .pullRejected e | .pullSettled (some e) => some (.errored e)
  | _ => none

/-- **The iteration is as specified.** -/
structure AsSpecified (s : FromStream V) : Prop where
  /-- The results are those of the reference, in the order of the calls. -/
  results : s.results.map some = (List.range s.results.length).map fun n => (reference it n).settles
  /-- `return` was called for the calls for which the reference calls it, once for each. -/
  closings : s.closings =
    ((List.range s.results.length).filter fun n => (reference it n).closed).map (· + 1)
  /-- One call is in flight at a time. -/
  serialized : s.calls ≤ s.results.length + 1
  /-- Until its continuation runs, the parked value is that of the call in flight, with its flag. -/
  parked : .wrapParked ∈ s.jobs → s.jobs = [.wrapParked] ∧ s.calls = s.results.length + 1 ∧
    it.next s.results.length =
      .ok (some ⟨.ok s.record.pendingDone, .ok (.primitive s.record.pendingValue)⟩)
  /-- The stream is fed the results. -/
  output : s.output ++ s.jobs.filterMap FromJob.feeds = s.results.map fed
  /-- A call is not lost. -/
  settled : s.jobs = [] → s.awaiting = [] → s.foreign = [] → s.results.length = s.calls

end Specified

section Alone

variable [Inhabited V] (it : SyncIterator V)

/-- What the `n`th call of `next` comes to if its continuation runs before the next call. -/
def alone (n : ℕ) : NextOutcome V := afsAlone ⟨default, false⟩ (it.next n) (it.ret (n + 1))

/-- The calls came to what each comes to alone. -/
structure History (i : Iteration V) : Prop where
  results : i.results.map some = (List.range i.results.length).map fun n => (alone it n).settles
  closings : i.closings =
    ((List.range i.results.length).filter fun n => (alone it n).closed).map (· + 1)
  /-- No object of the author's was returned. -/
  foreign : i.foreign = []

/-- `next` was called once more than promises of it were settled, and returned the promise `p`. -/
def Calling (i : Iteration V) (p : NextPromise V) : Prop :=
  i.calls = i.results.length + 1 ∧
    ∃ record, afsNext record (it.next i.results.length) = (i.record, p)

/-- Where the call of `next` that is in flight has got to. As long as there is one, the controller
is pulling, and the stream may be fed (`live`). -/
inductive Phase (i : Iteration V) (started pulling live : Bool) : Prop where
  | unstarted (jobs : i.jobs = [.started]) (awaiting : i.awaiting = [])
      (calls : i.calls = i.results.length) (hstarted : started = false) (hpulling : pulling = false)
  | idle (jobs : i.jobs = []) (awaiting : i.awaiting = []) (calls : i.calls = i.results.length)
  | parked (jobs : i.jobs = [.wrapParked]) (awaiting : i.awaiting = [])
      (calling : Calling it i .wrapping) (hpulling : pulling = true) (hlive : live = true)
  | waiting (done : Bool) (settling : Settling V) (jobs : i.jobs = [])
      (awaiting : i.awaiting = [(done, settling)])
      (calling : Calling it i (.reacting settling done)) (hpulling : pulling = true)
      (hlive : live = true)
  | settled (done : Bool) (settling : Settling V) (jobs : i.jobs = [.valueSettled done settling])
      (awaiting : i.awaiting = []) (calling : Calling it i (.reacting settling done))
      (hsettles : settling ≠ .never) (hpulling : pulling = true) (hlive : live = true)
  | reacting (outcome : Except (Failure V) (IteratorResult V))
      (jobs : i.jobs = [FromStream.reaction outcome]) (awaiting : i.awaiting = [])
      (calls : i.calls = i.results.length) (hpulling : pulling = true) (hlive : live = true)
  | returned (rejection : Option (Failure V)) (jobs : i.jobs = [.pullSettled rejection])
      (awaiting : i.awaiting = []) (calls : i.calls = i.results.length) (hpulling : pulling = true)
      (hlive : rejection.isSome = true → live = true)

/-- No call so far was to return an object of the author's. -/
def OwnCalls (s : FromStream V) : Prop := ∀ n < s.calls, ¬ Foreign (it.next n)

/-- **The invariant.** -/
structure Driven (s : FromStream V) : Prop where
  history : History it s.toIteration
  phase : Phase it s.toIteration s.started s.pulling s.canCloseOrEnqueue
  output : s.output ++ s.jobs.filterMap FromJob.feeds = s.results.map fed

variable {it}

/-- One more call came to what it comes to alone. -/
theorem History.settle {i i' : Iteration V} (h : History it i)
    {outcome : Except (Failure V) (IteratorResult V)} {closed : Bool}
    (halone : alone it i.results.length = ⟨some outcome, closed⟩)
    (hresults : i'.results = i.results ++ [outcome])
    (hclosings : i'.closings = i.closings ++ if closed then [i.results.length + 1] else [])
    (hforeign : i'.foreign = i.foreign) : History it i' := by
  refine ⟨?_, ?_, hforeign.trans h.foreign⟩
  · rw [hresults, List.map_append, List.length_append, List.length_singleton, List.range_succ,
      List.map_append, h.results]
    simp [halone]
  · rw [hclosings, hresults, List.length_append, List.length_singleton, List.range_succ,
      List.filter_append, List.map_append, h.closings]
    cases closed <;> simp [halone]

/-- What is in the slot does not matter to the call. -/
private theorem alone_of_calling {i : Iteration V} {p : NextPromise V} (h : Calling it i p) :
    ∃ record, afsNext record (it.next i.results.length) = (i.record, p) ∧
      alone it i.results.length = afsAlone record (it.next i.results.length) (it.ret i.calls) := by
  obtain ⟨hcalls, record, hnext⟩ := h
  exact ⟨record, hnext, by rw [hcalls]; exact afsAlone_record _ _ _ _⟩

namespace Driven

variable {s t : FromStream V}

/-- The controller changes, and the iteration goes on as it was. -/
theorem frame (h : Driven it s) (hst : s.Untouched t) : Driven it t := by
  obtain ⟨hhistory, hphase, hout⟩ := h
  obtain ⟨hiter, hstarted, hpulling, houtput, hlive⟩ := hst
  refine ⟨by rw [hiter]; exact hhistory, ?_, by rw [houtput, hiter]; exact hout⟩
  rw [hiter, hstarted, hpulling]
  cases hphase with
  | unstarted hj ha hc hs hp => exact .unstarted hj ha hc hs hp
  | idle hj ha hc => exact .idle hj ha hc
  | parked hj ha hc hp hl => exact .parked hj ha hc hp (hlive hl)
  | waiting done settling hj ha hc hp hl => exact .waiting done settling hj ha hc hp (hlive hl)
  | settled done settling hj ha hc hn hp hl =>
    exact .settled done settling hj ha hc hn hp (hlive hl)
  | reacting outcome hj ha hc hp hl => exact .reacting outcome hj ha hc hp (hlive hl)
  | returned rejection hj ha hc hp hl =>
    exact .returned rejection hj ha hc hp fun hr => hlive (hl hr)

/-- What was fed, and what the jobs are about to feed. -/
theorem output_of (h : Driven it s) {jobs : List (FromJob V)} (hjobs : s.jobs = jobs) :
    s.output ++ jobs.filterMap FromJob.feeds = s.results.map fed := by
  rw [← hjobs]
  exact h.output

/-- The promise of the call in flight is settled with what the call comes to alone. -/
theorem settle {i : Iteration V} (h : History it i)
    {outcome : Except (Failure V) (IteratorResult V)} {closed : Bool}
    (halone : alone it i.results.length = ⟨some outcome, closed⟩) (hresults : s.results = i.results)
    (hclosings : s.closings = i.closings ++ if closed then [i.results.length + 1] else [])
    (hforeign : s.foreign = i.foreign) (hjobs : s.jobs = []) (hawaiting : s.awaiting = [])
    (hcalls : s.calls = i.results.length + 1)
    (hpulling : s.pulling = true) (hlive : s.canCloseOrEnqueue = true)
    (houtput : s.output = s.results.map fed) : Driven it (s.settle outcome) := by
  have hjob : s.jobs ++ [FromStream.reaction outcome] = [FromStream.reaction outcome] := by
    rw [hjobs, List.nil_append]
  refine ⟨h.settle halone (by rw [← hresults]; rfl) hclosings hforeign, ?_, ?_⟩
  · refine .reacting outcome hjob hawaiting ?_ hpulling hlive
    have hlength : (s.results ++ [outcome]).length = s.results.length + 1 := List.length_append
    exact hcalls.trans (by rw [← hresults]; exact hlength.symm)
  · have hfeeds : FromJob.feeds (FromStream.reaction outcome) = some (fed outcome) := by
      cases outcome <;> rfl
    change s.output ++ (s.jobs ++ [FromStream.reaction outcome]).filterMap FromJob.feeds =
      (s.results ++ [outcome]).map fed
    rw [hjob, List.filterMap_cons_some hfeeds, List.map_append, houtput]
    rfl

/-- `next` is called, and returns no object of the author's. -/
theorem callNext (h : Driven it s) (hnot : ¬ Foreign (it.next s.calls)) (hjobs : s.jobs = [])
    (hawaiting : s.awaiting = [])
    (hcalls : s.calls = s.results.length) (hpulling : s.pulling = true)
    (hlive : s.canCloseOrEnqueue = true) : Driven it (s.callNext it) := by
  have houtput : s.output = s.results.map fed :=
    (List.append_nil _).symm.trans (h.output_of hjobs)
  have hcalling {promise : NextPromise V} {record : AsyncIteratorRecord V}
      (hnext : afsNext s.record (it.next s.calls) = (record, promise)) :
      Calling it { s.toIteration with record, calls := s.calls + 1 } promise :=
    ⟨congrArg (· + 1) hcalls, s.record, by rw [← hcalls]; exact hnext⟩
  rw [FromStream.callNext]
  rcases hnext : afsNext s.record (it.next s.calls) with
    ⟨record, _ | _ | ⟨settling, done⟩ | ⟨outcome, settling, done⟩⟩
  case foreign => exact absurd (foreign_of_afsNext hnext) hnot
  case rejected e =>
    have halone : alone it s.results.length = ⟨some (.error e), false⟩ := by
      obtain ⟨record', hnext', halone⟩ := alone_of_calling (hcalling hnext)
      exact halone.trans (by rw [afsAlone, hnext'])
    exact settle h.history halone rfl (List.append_nil _).symm rfl hjobs hawaiting
      (congrArg (· + 1) hcalls) hpulling hlive houtput
  case wrapping =>
    refine ⟨⟨h.history.results, h.history.closings, h.history.foreign⟩, ?_, ?_⟩
    · exact .parked (by rw [hjobs]; rfl) hawaiting (hcalling hnext) hpulling hlive
    · rw [hjobs]
      exact (List.append_nil _).trans houtput
  case reacting =>
    refine ⟨⟨h.history.results, h.history.closings, h.history.foreign⟩, ?_, h.output⟩
    exact .waiting done settling hjobs (by rw [hawaiting]; rfl) (hcalling hnext) hpulling hlive

/-- The controller pulls if a pull is wanted and none is in flight. -/
theorem callPull (h : Driven it s)
    (hown : OwnCalls it (s.callPullIfNeeded (FromStream.fromPull it))) :
    Driven it (s.callPullIfNeeded (FromStream.fromPull it)) := by
  by_cases hwanted : s.shouldCallPull = true
  · rw [FromStream.callPullIfNeeded, if_neg (by simp [hwanted])] at hown ⊢
    rw [FromStream.shouldCallPull, Bool.and_eq_true, Bool.and_eq_true] at hwanted
    obtain ⟨⟨hlive, hstarted⟩, -⟩ := hwanted
    by_cases hpulling : s.pulling = true
    · rw [if_pos hpulling]
      exact h.frame ⟨rfl, rfl, rfl, rfl, id⟩
    · rw [if_neg hpulling] at hown ⊢
      cases h.phase with
      | unstarted _ _ _ hs => rw [hs] at hstarted; cases hstarted
      | idle hj ha hc =>
        have hpulled : Driven it { s with pulling := true } := ⟨h.history, .idle hj ha hc, h.output⟩
        have hreads := FromStream.untouched_reads (s := { s with pulling := true }) rfl id
          (it.nextReads s.calls)
        have hcalls := congrArg Iteration.calls hreads.iteration
        refine (hpulled.frame hreads).callNext ?_ ?_ ?_ ?_ hreads.pulling (hreads.live hlive)
        · refine hown _ ?_
          rw [FromStream.fromPull, FromStream.callNext_calls]
          exact Nat.lt_succ_self _
        · rw [hreads.iteration]; exact hj
        · rw [hreads.iteration]; exact ha
        · rw [hreads.iteration]; exact hc
      | parked _ _ _ hp => exact absurd hp hpulling
      | waiting _ _ _ _ _ hp => exact absurd hp hpulling
      | settled _ _ _ _ _ _ hp => exact absurd hp hpulling
      | reacting _ _ _ _ hp => exact absurd hp hpulling
      | returned _ _ _ _ hp => exact absurd hp hpulling
  · rw [FromStream.callPullIfNeeded, if_pos (by simp [hwanted])]
    exact h

/-- The parked value is handed over. -/
theorem wrapParked (h : Driven it s) (hjobs : s.jobs = [.wrapParked]) (hawaiting : s.awaiting = [])
    (hcalling : Calling it s.toIteration .wrapping) (hpulling : s.pulling = true)
    (hlive : s.canCloseOrEnqueue = true) :
    Driven it ({ s with jobs := [] }.run it .wrapParked) := by
  have halone : alone it s.results.length = ⟨some (.ok (afsWrapParked s.record).2), false⟩ := by
    obtain ⟨record, hnext, halone⟩ := alone_of_calling hcalling
    exact halone.trans (by rw [afsAlone, hnext])
  have houtput : s.output = s.results.map fed :=
    (List.append_nil _).symm.trans (h.output_of hjobs)
  exact settle h.history halone rfl (List.append_nil _).symm rfl rfl hawaiting hcalling.1 hpulling
    hlive houtput

/-- The value has settled, and the promise of `next` is settled. -/
theorem valueSettled (h : Driven it s) {done : Bool} {settling : Settling V}
    (hjobs : s.jobs = [.valueSettled done settling]) (hawaiting : s.awaiting = [])
    (hcalling : Calling it s.toIteration (.reacting settling done)) (hsettles : settling ≠ .never)
    (hpulling : s.pulling = true) (hlive : s.canCloseOrEnqueue = true) :
    Driven it ({ s with jobs := [] }.valueSettled it done settling) := by
  have halone : alone it s.results.length = afsReaction (it.ret s.calls) done settling := by
    obtain ⟨record, hnext, halone⟩ := alone_of_calling hcalling
    exact halone.trans (by rw [afsAlone, hnext])
  have houtput : s.output = s.results.map fed :=
    (List.append_nil _).symm.trans (h.output_of hjobs)
  rw [FromStream.valueSettled]
  obtain ⟨outcome, houtcome⟩ := afsReaction_settles (it.ret s.calls) done hsettles
  generalize afsReaction (it.ret s.calls) done settling = reaction at *
  obtain ⟨settles, closed⟩ := reaction
  obtain rfl : settles = some outcome := houtcome
  cases closed with
  | false =>
    exact settle h.history halone rfl (List.append_nil _).symm rfl rfl hawaiting hcalling.1 hpulling
      hlive houtput
  | true =>
    obtain ⟨hiter, hp, ho, hl⟩ :=
      FromStream.callReturn_spec (s := { s with jobs := [] }) it hpulling
    have hresults := congrArg Iteration.results hiter
    have hforeign := congrArg Iteration.foreign hiter
    refine settle h.history halone hresults ?_ hforeign
      (congrArg Iteration.jobs hiter) ((congrArg Iteration.awaiting hiter).trans hawaiting)
      ((congrArg Iteration.calls hiter).trans hcalling.1) hp (hl hlive) ?_
    · exact (congrArg Iteration.closings hiter).trans (by rw [hcalling.1]; rfl)
    · exact ho.trans (houtput.trans (congrArg (List.map fed) hresults.symm))

/-- `from_pull_fulfilled` runs. -/
theorem pullFulfilled (h : Driven it s) {result : IteratorResult V}
    (hjobs : s.jobs = [.pullFulfilled result]) (hawaiting : s.awaiting = [])
    (hcalls : s.calls = s.results.length) (hpulling : s.pulling = true)
    (hlive : s.canCloseOrEnqueue = true) :
    Driven it ({ s with jobs := [] }.run it (.pullFulfilled result)) := by
  have hfed : FromStream.FedWith { s with jobs := [] }
      ({ s with jobs := [] }.fromPullFulfilled it result) (fed (.ok result)) := by
    rcases result with ⟨v, _ | _⟩
    · exact FromStream.fedWith_controllerEnqueue (s := { s with jobs := [] }) hlive hpulling _ v
    · exact FromStream.fedWith_controllerClose (s := { s with jobs := [] }) hlive
  obtain ⟨hiter, hp, ho⟩ := hfed
  rw [FromStream.run]
  have hresults := congrArg Iteration.results hiter
  have hjob : ({ s with jobs := [] }.fromPullFulfilled it result).jobs ++ [.pullSettled none] =
      [.pullSettled none] := by
    rw [hiter]
    rfl
  refine ⟨⟨?_, ?_, (congrArg Iteration.foreign hiter).trans h.history.foreign⟩, ?_, ?_⟩
  · simpa only [hresults] using h.history.results
  · simpa only [hresults, congrArg Iteration.closings hiter] using h.history.closings
  · refine .returned none hjob ((congrArg Iteration.awaiting hiter).trans hawaiting) ?_
      (hp.trans hpulling) (by rintro ⟨⟩)
    exact (congrArg Iteration.calls hiter).trans
      (hcalls.trans (congrArg List.length hresults.symm))
  · simp only [hjob, hresults, ho]
    exact (List.append_nil _).trans (h.output_of hjobs)

/-- **A job.** -/
theorem job (h : Driven it s) {job : FromJob V} {jobs : List (FromJob V)}
    (hjobs : s.jobs = job :: jobs) (hown : OwnCalls it ({ s with jobs }.run it job)) :
    Driven it ({ s with jobs }.run it job) := by
  cases h.phase with
  | idle hj => rw [hj] at hjobs; cases hjobs
  | waiting _ _ hj => rw [hj] at hjobs; cases hjobs
  | unstarted hj ha hc =>
    obtain ⟨rfl, rfl⟩ := List.cons.inj (hj.symm.trans hjobs)
    have houtput := h.output_of hj
    exact callPull ⟨⟨h.history.results, h.history.closings, h.history.foreign⟩, .idle rfl ha hc,
      houtput⟩ hown
  | parked hj ha hc hp hl =>
    obtain ⟨rfl, rfl⟩ := List.cons.inj (hj.symm.trans hjobs)
    exact h.wrapParked hj ha hc hp hl
  | settled done settling hj ha hc hn hp hl =>
    obtain ⟨rfl, rfl⟩ := List.cons.inj (hj.symm.trans hjobs)
    exact h.valueSettled hj ha hc hn hp hl
  | reacting outcome hj ha hc hp hl =>
    obtain ⟨rfl, rfl⟩ := List.cons.inj (hj.symm.trans hjobs)
    cases outcome with
    | ok result => exact h.pullFulfilled hj ha hc hp hl
    | error e =>
      have houtput := h.output_of hj
      exact ⟨⟨h.history.results, h.history.closings, h.history.foreign⟩,
        .returned (some e) rfl ha hc hp fun _ => hl,
        houtput⟩
  | returned rejection hj ha hc hp hl =>
    obtain ⟨rfl, rfl⟩ := List.cons.inj (hj.symm.trans hjobs)
    have hhistory : History it { s.toIteration with jobs := [] } :=
      ⟨h.history.results, h.history.closings, h.history.foreign⟩
    have houtput := h.output_of hj
    cases rejection with
    | none =>
      have hidle : Driven it { s with jobs := [], pulling := false } :=
        ⟨hhistory, .idle rfl ha hc, houtput⟩
      by_cases hagain : s.pullAgain = true
      · rw [FromStream.run] at hown ⊢
        simp only [hagain, if_true] at hown ⊢
        exact callPull (hidle.frame ⟨rfl, rfl, rfl, rfl, id⟩) hown
      · have hstep : { s with jobs := [] }.run it (.pullSettled none) =
            { s with jobs := [], pulling := false } := if_neg hagain
        rw [hstep]
        exact hidle
    | some e =>
      have herror := FromStream.controllerError_of_live (s := { s with jobs := [] }) (hl rfl) e
      rw [FromStream.run, herror]
      exact ⟨hhistory, .idle rfl ha hc, (List.append_nil _).trans houtput⟩

/-- A value that is awaited settles. -/
theorem settleAwaited (h : Driven it s) (i : ℕ) : Driven it (s.step it (.settle i)) := by
  have hnone (ha : s.awaiting = []) : s.step it (.settle i) = s := by
    rw [FromStream.step, ha]
    rfl
  cases h.phase with
  | unstarted _ ha => rw [hnone ha]; exact h
  | idle _ ha => rw [hnone ha]; exact h
  | parked _ ha => rw [hnone ha]; exact h
  | settled _ _ _ ha => rw [hnone ha]; exact h
  | reacting _ _ ha => rw [hnone ha]; exact h
  | returned _ _ ha => rw [hnone ha]; exact h
  | waiting done settling hj ha hc hp hl =>
    cases i with
    | succ i =>
      rw [FromStream.step, ha]
      exact h
    | zero =>
      have hsettled (hn : settling ≠ .never) : Driven it { s with
          awaiting := s.awaiting.eraseIdx 0
          jobs := s.jobs ++ [.valueSettled done settling] } := by
        refine ⟨⟨h.history.results, h.history.closings, h.history.foreign⟩, ?_, ?_⟩
        · exact .settled done settling (by rw [hj]; rfl) (by rw [ha]; rfl) hc hn hp hl
        · have houtput := h.output_of hj
          rw [hj]
          exact houtput
      rw [FromStream.step]
      cases settling with
      | never => rw [ha]; exact h
      | fulfils v => rw [ha] at hsettled ⊢; exact hsettled (by rintro ⟨⟩)
      | rejects e => rw [ha] at hsettled ⊢; exact hsettled (by rintro ⟨⟩)

/-- **A step.** -/
theorem step (h : Driven it s) (ev : FromEvent) (hown : OwnCalls it (s.step it ev)) :
    Driven it (s.step it ev) := by
  cases ev with
  | read => exact callPull (h.frame (FromStream.untouched_takeRead s)) hown
  | release => exact h.frame ⟨rfl, rfl, rfl, rfl, id⟩
  | settle i => exact h.settleAwaited i
  | settleForeign i =>
    rw [FromStream.step, h.history.foreign]
    exact h
  | job =>
    cases hjobs : s.jobs with
    | nil =>
      simp only [FromStream.step, hjobs]
      exact h
    | cons job jobs =>
      simp only [FromStream.step, hjobs] at hown ⊢
      exact h.job hjobs hown

theorem initial : Driven it (FromStream.initial : FromStream V) :=
  ⟨⟨rfl, rfl, rfl⟩, .unstarted rfl rfl rfl rfl rfl, rfl⟩

/-- **A run.** -/
theorem of_run (hrun : (fromMachine it).Run FromStream.initial s) (hown : OwnCalls it s) :
    Driven it s := by
  have hinv : OwnCalls it s → Driven it s := by
    refine hrun.inv (I := fun s => OwnCalls it s → Driven it s) (fun _ => initial)
      fun s ev t h _ ht hown => ?_
    obtain rfl : s.step it ev = t := Option.some.inj ht
    exact (h fun n hn => hown n (hn.trans_le (FromStream.calls_le_step it s ev))).step ev hown
  exact hinv hown

end Driven

section Comparison

variable {s : FromStream V}

/-- Two lists over the same calls are equal when they are equal call by call. -/
private theorem filter_range_inj {p q : ℕ → Bool} {n : ℕ}
    (h : ((List.range n).filter p).map (· + 1) = ((List.range n).filter q).map (· + 1)) :
    ∀ k < n, p k = q k := by
  have hfilter := List.map_injective_iff.mpr (add_left_injective 1) h
  intro k hk
  have hmem : k ∈ (List.range n).filter p ↔ k ∈ (List.range n).filter q := by rw [hfilter]
  simp only [List.mem_filter, List.mem_range, hk, true_and] at hmem
  exact Bool.eq_iff_iff.mpr hmem

/-- What the calls came to is what the specification says exactly if that is so call by call. -/
theorem Driven.specified_iff (h : Driven it s) :
    AsSpecified it s ↔ ∀ n < s.results.length, alone it n = reference it n := by
  constructor
  · rintro ⟨hresults, hclosings, -, -, -, -⟩ n hn
    rw [h.history.results, List.map_inj_left] at hresults
    rw [h.history.closings] at hclosings
    have hclosed := filter_range_inj hclosings n hn
    have hsettles := hresults n (List.mem_range.mpr hn)
    cases halone : alone it n
    cases hreference : reference it n
    rw [halone, hreference] at hclosed hsettles
    exact congrArg₂ NextOutcome.mk hsettles hclosed
  · intro hcalls
    refine ⟨?_, ?_, ?_, ?_, h.output, ?_⟩
    · rw [h.history.results]
      exact List.map_congr_left fun n hn => by rw [hcalls n (List.mem_range.mp hn)]
    · rw [h.history.closings]
      refine congrArg _ (List.filter_congr fun n hn => ?_)
      rw [hcalls n (List.mem_range.mp hn)]
    · cases h.phase with
      | unstarted _ _ hc | idle _ _ hc => omega
      | reacting _ _ _ hc | returned _ _ _ hc => omega
      | parked _ _ hc => exact hc.1.le
      | waiting _ _ _ _ hc | settled _ _ _ _ hc => exact hc.1.le
    · intro hmem
      cases h.phase with
      | parked hj _ hc =>
        obtain ⟨hcalls, record, hnext⟩ := hc
        exact ⟨hj, hcalls, afsNext_wrapping hnext⟩
      | unstarted hj => rw [hj] at hmem; simp at hmem
      | idle hj => rw [hj] at hmem; cases hmem
      | waiting _ _ hj => rw [hj] at hmem; cases hmem
      | settled _ _ hj => rw [hj] at hmem; simp at hmem
      | reacting outcome hj => rw [hj] at hmem; cases outcome <;> simp [FromStream.reaction] at hmem
      | returned _ hj => rw [hj] at hmem; simp at hmem
    · intro hjobs hawaiting _
      cases h.phase with
      | idle _ _ hc => exact hc.symm
      | waiting _ _ _ ha => rw [ha] at hawaiting; cases hawaiting
      | unstarted hj | parked hj => rw [hj] at hjobs; cases hjobs
      | settled _ _ hj | reacting _ hj | returned _ hj => rw [hj] at hjobs; cases hjobs

end Comparison

end Alone

/-- **Iteration over a sync iterator is as specified** in every state of every run in which no
object of the author's is returned for a call of `next`, exactly as long as the engine does not
throw while it wraps a value, which the code takes for an error of `next`. -/
theorem from_specified_iff [Inhabited V] (it : SyncIterator V) (s : FromStream V)
    (hrun : (fromMachine it).Run FromStream.initial s) (hown : OwnCalls it s) :
    AsSpecified it s ↔ ∀ n < s.results.length, ¬ Diverges (it.next n) (it.ret (n + 1)) :=
  (Driven.of_run hrun hown).specified_iff.trans
    (forall₂_congr fun _ _ => afsAlone_eq_specNext_iff _ _ _)

/-- A primitive, a promise and a rejected promise are yielded; `return` throws. -/
private def mixedIterator : SyncIterator ℕ where
  next
    | 0 => .ok (some ⟨.ok false, .ok (.primitive 7)⟩)
    | 1 => .ok (some ⟨.ok false, .ok (.object (.promise none .intrinsic (.fulfils 8)))⟩)
    | _ => .ok (some ⟨.ok false, .ok (.object (.promise none .intrinsic (.rejects (.value 9))))⟩)
  ret _ := .callable (.error (.value 10))
  nextReads _ := 1
  returnReads _ := 0

private theorem not_foreign_mixed (n : ℕ) : ¬ Foreign (mixedIterator.next n) := by
  rcases n with _ | _ | n <;> exact id

theorem from_specified_iff_mixed : ∃ s : FromStream ℕ,
    (s.results = [.ok ⟨7, false⟩, .ok ⟨8, false⟩, .error (.value 9)] ∧ s.closings = [3]) ∧
      AsSpecified mixedIterator s := by
  obtain ⟨s, hrun, hs⟩ := Machine.exists_run_of_exec (M := fromMachine mixedIterator)
    (s := FromStream.initial)
    ([.read, .job, .job, .job, .job, .settle 0, .job, .job, .job, .settle 0, .job, .job, .job])
    (P := fun s => s.results = [.ok ⟨7, false⟩, .ok ⟨8, false⟩, .error (.value 9)] ∧
      s.closings = [3]) (by decide)
  obtain ⟨hresults, hclosings⟩ := of_decide_eq_true hs
  refine ⟨s, ⟨hresults, hclosings⟩,
    (from_specified_iff mixedIterator s hrun fun n _ => not_foreign_mixed n).mpr fun n hn => ?_⟩
  rw [hresults] at hn
  obtain rfl | rfl | rfl : n = 0 ∨ n = 1 ∨ n = 2 := by
    simp only [List.length_cons, List.length_nil] at hn
    omega
  · exact id
  · exact id
  · exact id

/-- A promise whose `constructor` throws is yielded. -/
private def throwingConstructor : SyncIterator ℕ where
  next _ := .ok (some ⟨.ok false,
    .ok (.object (.promise (some (.value 5)) .intrinsic (.fulfils 1)))⟩)
  ret _ := .callable (.ok true)
  nextReads _ := 0
  returnReads _ := 0

/-- A promise that never settles is yielded, whose `constructor` is `%Promise%` at first, and then a
constructor that makes an object of its own: an iterator result, which is no promise. -/
private def changingConstructor : SyncIterator ℕ where
  next _ := .ok (some ⟨.ok false,
    .ok (.object (.promise none (.foreign (some (.ok ⟨6, false⟩))) .never))⟩)
  ret _ := .missing
  nextReads _ := 0
  returnReads _ := 0

/-- The iterator is left open where wrapping its value throws; and a result of the author's is
delivered for a promise that never settles. -/
theorem throwing_constructor_leaves_open : (∃ s : FromStream ℕ,
    (fromMachine throwingConstructor).Run FromStream.initial s ∧ s.closings = [] ∧
      ¬ AsSpecified throwingConstructor s) ∧
    ∃ s : FromStream ℕ, (fromMachine changingConstructor).Run FromStream.initial s ∧
      s.output = [.enqueued 6] ∧ ¬ AsSpecified changingConstructor s := by
  constructor
  · obtain ⟨s, hrun, hs⟩ := Machine.exists_run_of_exec (M := fromMachine throwingConstructor)
      (s := FromStream.initial) [.read, .job, .job]
      (P := fun s => s.results = [.error (.value 5)] ∧ s.closings = []) (by decide)
    obtain ⟨hresults, hclosings⟩ := of_decide_eq_true hs
    refine ⟨s, hrun, hclosings, fun h => ?_⟩
    have hopen := h.closings
    rw [hclosings, hresults] at hopen
    exact absurd hopen (by decide)
  · obtain ⟨s, hrun, hs⟩ := Machine.exists_run_of_exec (M := fromMachine changingConstructor)
      (s := FromStream.initial) [.read, .job, .settleForeign 1, .job, .job]
      (P := fun s => s.results = [.ok ⟨6, false⟩] ∧ s.output = [.enqueued 6]) (by decide)
    obtain ⟨hresults, houtput⟩ := of_decide_eq_true hs
    refine ⟨s, hrun, houtput, fun h => ?_⟩
    have hresult := h.results
    rw [hresults] at hresult
    exact absurd hresult (by decide)

end WebStreams
