import StarlingMonkey.WebStreams.Queue
import StarlingMonkey.Lib.Script

/-!
# The writable stream

The stream, its `WritableStreamDefaultController` and the writer that holds the lock, in one
record, and the functions of `writable/algorithms.rs` that act on them. A source name
`writable_stream_default_controller_x` is shortened to `controllerX`, `writable_stream_x` to
`streamX` where it would clash, and `writable_stream_default_writer_x` to `writerX`.

Chunks are of any type `χ` and their sizes of any type `F` of numbers. The promises that `write`,
`close` and `abort` return are numbered in the order they are made. `settled`, `requested`, `log`,
`history`, `raised`, `calls`, `measuring` and `overtaken` record how they were settled, which of
them had a request, what the sink was asked to do, the states of the stream, the error it was
erroring with and the calls of `write`: no algorithm reads them. Neither does one read the writers
that were released, or when a writer was acquired.
-/

namespace WebStreams

/-- What a writable stream asks of the numbers that measure chunks: `≤`. -/
class SizeOrder (F : Type) extends SizeNum F where
  le : F → F → Bool

instance : SizeOrder ℤ where
  le a b := a ≤ b

/-- `WritableStreamState`. -/
inductive WritableStreamState where
  | writable | closed | erroring | errored
deriving DecidableEq, Repr

/-- `ValueWithSize`, without the size. -/
inductive QueueValue (χ : Type) where
  | chunk (c : χ)
  | closeSentinel
deriving DecidableEq, Repr

/-- `PendingAbortRequest`. -/
structure PendingAbortRequest where
  promise : ℕ
  reason : Option JsError
  wasAlreadyErroring : Bool
deriving DecidableEq, Repr

/-- The ready or the closed promise of a writer. -/
inductive WriterPromise where
  | pending
  | fulfilled
  | rejected (e : Option JsError)
deriving DecidableEq, Repr

/-- A writer. -/
structure Writer where
  number : ℕ
  /-- `writer.[[readyPromise]]`. -/
  ready : WriterPromise
  /-- `writer.[[closedPromise]]`. -/
  closed : WriterPromise
  /-- The state of the stream when the writer acquired it. -/
  acquired : WritableStreamState
  /-- Whether the sink's abort was running then. -/
  abortRunning : Bool
  /-- Whether the promise was resolved or rejected when it was settled already. -/
  readyAgain : Bool
  closedAgain : Bool
deriving DecidableEq, Repr

namespace Writer

/-- Resolve or reject the ready promise. A promise that is settled stays as it is. -/
def settleReady (w : Writer) (p : WriterPromise) : Writer :=
  if w.ready = .pending then { w with ready := p } else { w with readyAgain := true }

/-- Resolve or reject the closed promise. -/
def settleClosed (w : Writer) (p : WriterPromise) : Writer :=
  if w.closed = .pending then { w with closed := p } else { w with closedAgain := true }

/-- `writable_stream_default_writer_ensure_ready_promise_rejected`: the promise is rejected, or
replaced by one that is. -/
def ensureReadyPromiseRejected (error : Option JsError) (w : Writer) : Writer :=
  { w with ready := .rejected error }

/-- `writable_stream_default_writer_ensure_closed_promise_rejected`. -/
def ensureClosedPromiseRejected (error : Option JsError) (w : Writer) : Writer :=
  { w with closed := .rejected error }

end Writer

/-- The promise that a `write`, a `close` or an `abort` returned. -/
inductive WritePromise where
  | write (p : ℕ)
  | close (p : ℕ)
  | abort (p : ℕ)
deriving DecidableEq, Repr

/-- How a promise was settled. -/
inductive Settled where
  | fulfilled
  | rejected (e : Option JsError)
deriving DecidableEq, Repr

/-- What happened between the stream and its sink: a chunk was accepted, the start promise was
fulfilled, an algorithm was invoked, and its promise was settled, with success or without. -/
inductive SinkRecord (χ : Type) where
  | accepted (p : ℕ) (c : χ)
  | started
  | write (p : ℕ) (c : χ)
  | wrote (p : ℕ) (ok : Bool)
  | close
  | closed (ok : Bool)
  | abort
  | aborted (ok : Bool)
deriving DecidableEq, Repr

/-- A writable stream with its default controller and writer. -/
structure WritableStream (χ F : Type) extends QueueWithSizes (QueueValue χ) F where
  /-- `stream.[[state]]`. -/
  state : WritableStreamState
  /-- `stream.[[storedError]]`; `none` is undefined. -/
  storedError : Option JsError
  /-- `stream.[[backpressure]]`. -/
  backpressure : Bool
  /-- `stream.[[writer]]`. -/
  writer : Option Writer
  /-- The writers that were released. -/
  released : List Writer
  /-- `stream.[[closeRequest]]`. -/
  closeRequest : Option ℕ
  /-- `stream.[[inFlightWriteRequest]]`. -/
  inFlightWriteRequest : Option ℕ
  /-- `stream.[[inFlightCloseRequest]]`. -/
  inFlightCloseRequest : Option ℕ
  /-- `stream.[[pendingAbortRequest]]`. -/
  pendingAbortRequest : Option PendingAbortRequest
  /-- `stream.[[writeRequests]]`. -/
  writeRequests : List ℕ
  /-- Whether `controller.[[writeAlgorithm]]`, `[[closeAlgorithm]]` and `[[abortAlgorithm]]` are
  set. -/
  algorithms : Bool
  /-- Whether `controller.[[strategySizeAlgorithm]]` is set; without it every size is `1`. -/
  sizeAlgorithm : Bool
  /-- `controller.[[started]]`. -/
  started : Bool
  /-- `controller.[[strategyHWM]]`. -/
  strategyHwm : F
  /-- Whether the signal of `controller.[[abortController]]` was aborted. -/
  signalled : Bool
  /-- Whether the start promise is unsettled. -/
  startPending : Bool
  /-- Whether the promise of the latest write, and of the close, has reactions to run. -/
  writePending : Bool
  closePending : Bool
  /-- The abort promise that the reactions to the sink's abort are to settle. -/
  abortPending : Option ℕ
  /-- The abort promise that `finishErroring` holds while the sink's abort runs. -/
  hand : List ℕ
  /-- The number of the next promise, and of the next writer. -/
  nextPromise : ℕ
  nextWriter : ℕ
  /-- The chunks of the calls of `write`, in the order of the calls. -/
  calls : List χ
  /-- How many calls of `size` are running, and whether `write` was ever called from inside one. -/
  measuring : ℕ
  overtaken : Bool
  /-- The writes that had a request, in order. -/
  requested : List ℕ
  /-- How the promises were settled, in the order they were. -/
  settled : List (WritePromise × Settled)
  /-- What happened between the stream and its sink. -/
  log : List (SinkRecord χ)
  /-- The states of the stream, from the first to the current one. -/
  history : List WritableStreamState
  /-- The error that the stream was erroring with. -/
  raised : Option JsError

/-- Why the process aborted. -/
inductive WritableAbort where
  /-- A `debug_assert!` failed. -/
  | assertion
  /-- An `expect` or an `unwrap` failed. -/
  | expectation
  /-- What is watched did not hold when author code was called. -/
  | watched
deriving DecidableEq, Repr

/-- What author code is called for: the strategy's `size`, the sink's `write`, `close` and `abort`,
and the listeners of the abort signal. -/
inductive WritableCallback (χ : Type) where
  | size (c : χ)
  | write (c : χ)
  | close
  | abort (reason : Option JsError)
  | signal (reason : Option JsError)
deriving DecidableEq, Repr

/-- The outcome of an algorithm of the stream. -/
abbrev WritableOutcome (χ F α : Type) := Outcome WritableAbort JsError (WritableStream χ F) α

/-- What an operation calls out to. The value is what `size` returns or throws. -/
abbrev WritableEnv (χ F : Type) := WritableCallback χ → WritableStream χ F →
  Except WritableAbort (Except JsError F × WritableStream χ F)

namespace WritableStream

variable {χ F : Type}

/-- Check a debug assertion. -/
def check (c : Bool) : WritableOutcome χ F Unit := Outcome.guard c .assertion

/-- Call out to code whose value does not matter. -/
def callOut (env : WritableEnv χ F) (k : WritableCallback χ) (s : WritableStream χ F) :
    WritableOutcome χ F (WritableStream χ F) := do
  let (_, s) ← CallingOut.callOut (env k s)
  pure s

/-- Record what happened with the sink. -/
def record (s : WritableStream χ F) (r : SinkRecord χ) : WritableStream χ F :=
  { s with log := s.log ++ [r] }

/-- Settle a promise. -/
def settle (s : WritableStream χ F) (p : WritePromise) (o : Settled) : WritableStream χ F :=
  { s with settled := s.settled ++ [(p, o)] }

/-- Return a promise that is settled already. -/
def returnSettled (s : WritableStream χ F) (p : ℕ → WritePromise) (o : Settled) :
    WritableStream χ F :=
  { s.settle (p s.nextPromise) o with nextPromise := s.nextPromise + 1 }

/-- Change the state of the stream. -/
def moveTo (s : WritableStream χ F) (state : WritableStreamState) : WritableStream χ F :=
  { s with state, history := s.history ++ [state] }

/-- The state is "writable" or "erroring". -/
def isLive (s : WritableStream χ F) : Bool := s.state = .writable || s.state = .erroring

/-- `writable_stream_close_queued_or_in_flight`. -/
def closeQueuedOrInFlight (s : WritableStream χ F) : Bool :=
  s.closeRequest.isSome || s.inFlightCloseRequest.isSome

/-- `writable_stream_has_operation_marked_in_flight`. -/
def hasOperationMarkedInFlight (s : WritableStream χ F) : Bool :=
  s.inFlightWriteRequest.isSome || s.inFlightCloseRequest.isSome

/-- The sink's abort was called, and the reactions to it have yet to run. -/
def abortRunning (s : WritableStream χ F) : Bool := s.abortPending.isSome || !s.hand.isEmpty

/-! ### The writer -/

/-- Change the writer, if there is one. -/
def updateWriter (s : WritableStream χ F) (f : Writer → Writer) : WritableStream χ F :=
  { s with writer := s.writer.map f }

/-- `set_up_writable_stream_default_writer`. -/
def setUpDefaultWriter (s : WritableStream χ F) : WritableOutcome χ F (WritableStream χ F) :=
  if s.writer.isSome then
    .threw (.typeError
      "This stream has already been locked for exclusive writing by another writer") s
  else
    let (ready, closed) : WriterPromise × WriterPromise :=
      match s.state with
      | .writable =>
        (if !s.closeQueuedOrInFlight && s.backpressure then .pending else .fulfilled, .pending)
      | .erroring => (.rejected s.storedError, .pending)
      | .closed => (.fulfilled, .fulfilled)
      | .errored => (.rejected s.storedError, .rejected s.storedError)
    pure { s with
      writer := some ⟨s.nextWriter, ready, closed, s.state, s.abortRunning, false, false⟩
      nextWriter := s.nextWriter + 1 }

/-- What a released writer is rejected with. -/
def releasedError : JsError :=
  .typeError "Writer was released and can no longer be used to monitor the stream's closedness"

/-- `writable_stream_default_writer_release`. The promises of the writer are rejected, and no
algorithm reaches them any more. -/
def writerRelease (s : WritableStream χ F) : WritableStream χ F :=
  let s := s.updateWriter (Writer.ensureReadyPromiseRejected releasedError)
  let s := s.updateWriter (Writer.ensureClosedPromiseRejected releasedError)
  { s with writer := none, released := s.released ++ s.writer.toList }

/-! ### The algorithms of the controller -/

/-- `writable_stream_default_controller_clear_algorithms`. -/
def clearAlgorithms (s : WritableStream χ F) : WritableStream χ F :=
  { s with algorithms := false, sizeAlgorithm := false }

/-- Perform an algorithm of the sink, if it is set. -/
def invoke (env : WritableEnv χ F) (s : WritableStream χ F) (r : SinkRecord χ)
    (k : WritableCallback χ) : WritableOutcome χ F (WritableStream χ F) :=
  if s.algorithms then callOut env k (s.record r) else pure s

/-- `writable_stream_reject_close_and_closed_promise_if_needed`. -/
def rejectCloseAndClosedPromiseIfNeeded (s : WritableStream χ F) :
    WritableOutcome χ F (WritableStream χ F) := do
  check (s.state = .errored)
  let s ←
    match s.closeRequest with
    | some p => do
      check s.inFlightCloseRequest.isNone
      pure ({ s with closeRequest := none }.settle (.close p) (.rejected s.storedError))
    | none => pure s
  pure (s.updateWriter fun w => w.settleClosed (.rejected s.storedError))

section Sizes

variable [SizeNum F]

/-- `error_steps`. -/
def errorSteps (s : WritableStream χ F) : WritableStream χ F :=
  { s with toQueueWithSizes := .reset }

/-- `abort_steps`. -/
def abortSteps (env : WritableEnv χ F) (s : WritableStream χ F) (reason : Option JsError) :
    WritableOutcome χ F (WritableStream χ F) := do
  let s ← s.invoke env .abort (.abort reason)
  pure s.clearAlgorithms

/-- Steps 6 and 7 of `writable_stream_finish_erroring`: reject the write requests. -/
def rejectWriteRequests (s : WritableStream χ F) : WritableStream χ F :=
  { s with
    settled := s.settled ++ s.writeRequests.map fun p => (.write p, .rejected s.storedError)
    writeRequests := [] }

/-- `writable_stream_finish_erroring`. -/
def finishErroring (env : WritableEnv χ F) (s : WritableStream χ F) :
    WritableOutcome χ F (WritableStream χ F) := do
  check (s.state = .erroring)
  check (!s.hasOperationMarkedInFlight)
  let s := (s.moveTo .errored).errorSteps.rejectWriteRequests
  match s.pendingAbortRequest with
  | none => s.rejectCloseAndClosedPromiseIfNeeded
  | some r =>
    let s := { s with pendingAbortRequest := none }
    if r.wasAlreadyErroring then
      rejectCloseAndClosedPromiseIfNeeded (s.settle (.abort r.promise) (.rejected s.storedError))
    else do
      -- the abort promise is a local variable while the sink's abort runs
      let s ← abortSteps env { s with hand := r.promise :: s.hand } r.reason
      pure { s with hand := s.hand.erase r.promise, abortPending := some r.promise }

/-- `writable_stream_start_erroring`. -/
def startErroring (env : WritableEnv χ F) (s : WritableStream χ F) (reason : Option JsError) :
    WritableOutcome χ F (WritableStream χ F) := do
  check s.storedError.isNone
  check (s.state = .writable)
  let s := { s.moveTo .erroring with storedError := reason, raised := reason }
  let s := s.updateWriter (Writer.ensureReadyPromiseRejected reason)
  if !s.hasOperationMarkedInFlight && s.started then s.finishErroring env else pure s

/-- `writable_stream_deal_with_rejection`. -/
def dealWithRejection (env : WritableEnv χ F) (s : WritableStream χ F) (error : Option JsError) :
    WritableOutcome χ F (WritableStream χ F) :=
  if s.state = .writable then s.startErroring env error
  else do
    check (s.state = .erroring)
    s.finishErroring env

/-- `writable_stream_finish_in_flight_write`. -/
def finishInFlightWrite (s : WritableStream χ F) : WritableOutcome χ F (WritableStream χ F) := do
  let p ← Outcome.expect s.inFlightWriteRequest .expectation
  pure (record ({ s with inFlightWriteRequest := none }.settle (.write p) .fulfilled)
    (.wrote p true))

/-- `writable_stream_finish_in_flight_write_with_error`. -/
def finishInFlightWriteWithError (env : WritableEnv χ F) (s : WritableStream χ F)
    (error : Option JsError) : WritableOutcome χ F (WritableStream χ F) := do
  let p ← Outcome.expect s.inFlightWriteRequest .expectation
  let s := record ({ s with inFlightWriteRequest := none }.settle (.write p) (.rejected error))
    (.wrote p false)
  check s.isLive
  s.dealWithRejection env error

/-- `writable_stream_finish_in_flight_close`. -/
def finishInFlightClose (s : WritableStream χ F) : WritableOutcome χ F (WritableStream χ F) := do
  let p ← Outcome.expect s.inFlightCloseRequest .expectation
  let s := record ({ s with inFlightCloseRequest := none }.settle (.close p) .fulfilled)
    (.closed true)
  check s.isLive
  let s :=
    if s.state = .erroring then
      let s := { s with storedError := none }
      match s.pendingAbortRequest with
      | some r => { s with pendingAbortRequest := none }.settle (.abort r.promise) .fulfilled
      | none => s
    else s
  let s := (s.moveTo .closed).updateWriter fun w => w.settleClosed .fulfilled
  check s.pendingAbortRequest.isNone
  check s.storedError.isNone
  pure s

/-- `writable_stream_finish_in_flight_close_with_error`. -/
def finishInFlightCloseWithError (env : WritableEnv χ F) (s : WritableStream χ F)
    (error : Option JsError) : WritableOutcome χ F (WritableStream χ F) := do
  let p ← Outcome.expect s.inFlightCloseRequest .expectation
  let s := record ({ s with inFlightCloseRequest := none }.settle (.close p) (.rejected error))
    (.closed false)
  check s.isLive
  let s :=
    match s.pendingAbortRequest with
    | some r => { s with pendingAbortRequest := none }.settle (.abort r.promise) (.rejected error)
    | none => s
  s.dealWithRejection env error

/-- `writable_stream_mark_close_request_in_flight`. -/
def markCloseRequestInFlight (s : WritableStream χ F) :
    WritableOutcome χ F (WritableStream χ F) := do
  check s.inFlightCloseRequest.isNone
  check s.closeRequest.isSome
  pure { s with inFlightCloseRequest := s.closeRequest, closeRequest := none }

/-- `writable_stream_mark_first_write_request_in_flight`. Returns the request. -/
def markFirstWriteRequestInFlight (s : WritableStream χ F) :
    WritableOutcome χ F (ℕ × WritableStream χ F) := do
  check s.inFlightWriteRequest.isNone
  check (!s.writeRequests.isEmpty)
  match s.writeRequests with
  | p :: ps => pure (p, { s with inFlightWriteRequest := some p, writeRequests := ps })
  | [] => .panic .expectation

/-- `dequeue_value`, from a queue that must not be empty. -/
def dequeue (s : WritableStream χ F) : WritableOutcome χ F (WritableStream χ F) := do
  check (!s.queue.isEmpty)
  let (_, q) ← Outcome.expect s.dequeueValue .expectation
  pure { s with toQueueWithSizes := q }

/-- `writable_stream_default_controller_process_close`. -/
def processClose (env : WritableEnv χ F) (s : WritableStream χ F) :
    WritableOutcome χ F (WritableStream χ F) := do
  let s ← s.markCloseRequestInFlight
  let s ← s.dequeue
  check s.queue.isEmpty
  let s ← s.invoke env .close .close
  pure { s.clearAlgorithms with closePending := true }

/-- `writable_stream_default_controller_process_write`. -/
def processWrite (env : WritableEnv χ F) (s : WritableStream χ F) (c : χ) :
    WritableOutcome χ F (WritableStream χ F) := do
  let (p, s) ← s.markFirstWriteRequestInFlight
  let s ← s.invoke env (.write p c) (.write c)
  pure { s with writePending := true }

/-- `writable_stream_default_controller_advance_queue_if_needed`. -/
def advanceQueueIfNeeded (env : WritableEnv χ F) (s : WritableStream χ F) :
    WritableOutcome χ F (WritableStream χ F) :=
  if !s.started then pure s
  else if s.inFlightWriteRequest.isSome then pure s
  else do
    check s.isLive
    if s.state = .erroring then s.finishErroring env
    else
      match s.queue with
      | [] => pure s
      | (.closeSentinel, _) :: _ => s.processClose env
      | (.chunk c, _) :: _ => s.processWrite env c

/-- `writable_stream_default_controller_close`. -/
def controllerClose (env : WritableEnv χ F) (s : WritableStream χ F) :
    WritableOutcome χ F (WritableStream χ F) :=
  advanceQueueIfNeeded env { s with queue := s.queue ++ [(.closeSentinel, SizeNum.zero)] }

/-- `writable_stream_default_controller_error`. -/
def controllerError (env : WritableEnv χ F) (s : WritableStream χ F) (error : Option JsError) :
    WritableOutcome χ F (WritableStream χ F) := do
  check (s.state = .writable)
  s.clearAlgorithms.startErroring env error

/-- `writable_stream_default_controller_error_if_needed`. -/
def controllerErrorIfNeeded (env : WritableEnv χ F) (s : WritableStream χ F)
    (error : Option JsError) : WritableOutcome χ F (WritableStream χ F) :=
  if s.state = .writable then s.controllerError env error else pure s

/-- `writable_stream_default_controller_get_chunk_size`. -/
def getChunkSize (env : WritableEnv χ F) (s : WritableStream χ F) (c : χ) :
    WritableOutcome χ F (F × WritableStream χ F) :=
  if !s.sizeAlgorithm then pure (SizeNum.one, s)
  else do
    let (result, s) ← CallingOut.callOut (env (.size c) { s with measuring := s.measuring + 1 })
    let s := { s with measuring := s.measuring - 1 }
    match result with
    | .ok size => pure (size, s)
    | .error e => do
      let s ← s.controllerErrorIfNeeded env (some e)
      pure (SizeNum.one, s)

end Sizes

section Orders

variable [SizeOrder F]

/-- `writable_stream_default_controller_get_backpressure`. -/
def getBackpressure (s : WritableStream χ F) : Bool :=
  SizeOrder.le (SizeNum.sub s.strategyHwm s.queueTotalSize) (SizeNum.zero : F)

/-- `writable_stream_update_backpressure`. -/
def updateBackpressure (s : WritableStream χ F) (backpressure : Bool) :
    WritableOutcome χ F (WritableStream χ F) := do
  check (s.state = .writable)
  check (!s.closeQueuedOrInFlight)
  let s := s.updateWriter fun w =>
    if backpressure ≠ s.backpressure then
      if backpressure then { w with ready := .pending } else w.settleReady .fulfilled
    else w
  pure { s with backpressure }

/-- `writable_stream_default_controller_write`. `p` is the promise of the request, for the
record. -/
def controllerWrite (env : WritableEnv χ F) (s : WritableStream χ F) (p : ℕ) (c : χ) (size : F) :
    WritableOutcome χ F (WritableStream χ F) :=
  match s.enqueueValueWithSize (.chunk c) size with
  | .error e => s.controllerErrorIfNeeded env (some e)
  | .ok q => do
    let s := record { s with toQueueWithSizes := q } (.accepted p c)
    let s ←
      if !s.closeQueuedOrInFlight && s.state = .writable then s.updateBackpressure s.getBackpressure
      else pure s
    s.advanceQueueIfNeeded env

/-- `writable_stream_add_write_request`. Returns the promise. -/
def addWriteRequest (s : WritableStream χ F) : WritableOutcome χ F (ℕ × WritableStream χ F) := do
  check s.writer.isSome
  check (s.state = .writable)
  let p := s.nextPromise
  pure (p, { s with
    nextPromise := p + 1
    writeRequests := s.writeRequests ++ [p]
    requested := s.requested ++ [p] })

/-- Record a call of `write`. -/
def call (s : WritableStream χ F) (c : χ) : WritableStream χ F :=
  { s with calls := s.calls ++ [c], overtaken := s.overtaken || s.measuring ≠ 0 }

/-- `writable_stream_default_writer_write`, for the writer with the number `w`. -/
def writerWrite (env : WritableEnv χ F) (s : WritableStream χ F) (w : ℕ) (c : χ) :
    WritableOutcome χ F (WritableStream χ F) := do
  let (size, s) ← s.getChunkSize env c
  if s.writer.map Writer.number ≠ some w then
    pure (s.returnSettled .write
      (.rejected (some (.typeError "Cannot write to a stream using a released writer"))))
  else if s.state = .errored then pure (s.returnSettled .write (.rejected s.storedError))
  else if s.closeQueuedOrInFlight || s.state = .closed then
    pure (s.returnSettled .write
      (.rejected (some (.typeError "The stream is closing or closed and cannot be written to"))))
  else if s.state = .erroring then pure (s.returnSettled .write (.rejected s.storedError))
  else do
    check (s.state = .writable)
    let (p, s) ← s.addWriteRequest
    s.controllerWrite env p c size

/-- `writable_stream_close`. -/
def streamClose (env : WritableEnv χ F) (s : WritableStream χ F) :
    WritableOutcome χ F (WritableStream χ F) :=
  if s.state = .closed ∨ s.state = .errored then
    pure <| s.returnSettled .close <| .rejected <| some <| .typeError
      "The stream (in closed or errored state) is not in the writable state and cannot be closed"
  else do
    check s.isLive
    check (!s.closeQueuedOrInFlight)
    let p := s.nextPromise
    let s := { s with nextPromise := p + 1, closeRequest := some p }
    let s :=
      if s.backpressure && s.state = .writable then
        s.updateWriter fun w => w.settleReady .fulfilled
      else s
    s.controllerClose env

/-- `writable_stream_default_writer_close_with_error_propagation`. -/
def writerCloseWithErrorPropagation (env : WritableEnv χ F) (s : WritableStream χ F) :
    WritableOutcome χ F (WritableStream χ F) :=
  if s.closeQueuedOrInFlight || s.state = .closed then pure (s.returnSettled .close .fulfilled)
  else if s.state = .errored then pure (s.returnSettled .close (.rejected s.storedError))
  else do
    check s.isLive
    s.streamClose env

/-- `abort` of the controller's `[[abortController]]`: a signal is aborted once. -/
def signalAbort (env : WritableEnv χ F) (s : WritableStream χ F) (reason : Option JsError) :
    WritableOutcome χ F (WritableStream χ F) :=
  if s.signalled then pure s else callOut env (.signal reason) { s with signalled := true }

/-- `writable_stream_abort`. -/
def streamAbort (env : WritableEnv χ F) (s : WritableStream χ F) (reason : Option JsError) :
    WritableOutcome χ F (WritableStream χ F) :=
  if s.state = .closed ∨ s.state = .errored then pure (s.returnSettled .abort .fulfilled)
  else do
    let s ← s.signalAbort env reason
    -- the listeners of the signal may have changed the state
    if s.state = .closed ∨ s.state = .errored then pure (s.returnSettled .abort .fulfilled)
    else if s.pendingAbortRequest.isSome then pure s
    else do
      check s.isLive
      let wasAlreadyErroring := s.state = .erroring
      let p := s.nextPromise
      let reason := if wasAlreadyErroring then none else reason
      let s := { s with
        nextPromise := p + 1
        pendingAbortRequest := some ⟨p, reason, wasAlreadyErroring⟩ }
      if wasAlreadyErroring then pure s else s.startErroring env reason

end Orders

end WritableStream

/-! ### The machine -/

/-- An operation of the JavaScript interfaces of the stream, or one that a pipe performs. Writers
are given by their number. -/
inductive WritableOp (χ : Type) where
  /-- `controller.error(e)`. -/
  | error (e : Option JsError)
  /-- `getWriter()`. -/
  | getWriter
  /-- `writer.write(chunk)`. -/
  | write (w : ℕ) (c : χ)
  /-- `writer.close()`. -/
  | writerClose (w : ℕ)
  /-- `writer.abort(reason)`. -/
  | writerAbort (w : ℕ) (reason : Option JsError)
  /-- `writer.releaseLock()`. -/
  | releaseLock (w : ℕ)
  /-- `stream.close()`. -/
  | close
  /-- `stream.abort(reason)`. -/
  | abort (reason : Option JsError)
  /-- A pipe closes the stream with its writer. -/
  | closeWithErrorPropagation (w : ℕ)
deriving DecidableEq, Repr

/-- An operation or a promise reaction. -/
inductive WritableEvent (χ : Type) where
  | op (op : WritableOp χ)
  | startFulfilled
  | startRejected (e : Option JsError)
  | writeFulfilled
  | writeRejected (e : Option JsError)
  | closeFulfilled
  | closeRejected (e : Option JsError)
  | abortFulfilled
  | abortRejected (e : Option JsError)
deriving DecidableEq, Repr

namespace WritableStream

variable {χ F : Type} [SizeOrder F]

/-- A stream as `set_up_writable_stream_default_controller` leaves it, before the start promise is
settled. -/
def initial (strategyHwm : F) (sizeAlgorithm : Bool) : WritableStream χ F where
  toQueueWithSizes := .reset
  state := .writable
  storedError := none
  backpressure := SizeOrder.le (SizeNum.sub strategyHwm SizeNum.zero) (SizeNum.zero : F)
  writer := none
  released := []
  closeRequest := none
  inFlightWriteRequest := none
  inFlightCloseRequest := none
  pendingAbortRequest := none
  writeRequests := []
  algorithms := true
  sizeAlgorithm := sizeAlgorithm
  started := false
  strategyHwm := strategyHwm
  signalled := false
  startPending := true
  writePending := false
  closePending := false
  abortPending := none
  hand := []
  nextPromise := 0
  nextWriter := 0
  calls := []
  measuring := 0
  overtaken := false
  requested := []
  settled := []
  log := []
  history := [.writable]
  raised := none

/-- The writer with the number `w` holds the lock. -/
def holds (s : WritableStream χ F) (w : ℕ) : Bool := s.writer.any (·.number = w)

/-- Perform an operation. -/
def perform (env : WritableEnv χ F) (s : WritableStream χ F) :
    WritableOp χ → WritableOutcome χ F (WritableStream χ F)
  | .error e => if s.state = .writable then s.controllerError env e else pure s
  | .getWriter => s.setUpDefaultWriter
  | .write w c =>
    if s.holds w then writerWrite env (s.call c) w c
    else .threw (.typeError "Cannot write to a stream using a released writer") s
  | .writerClose w =>
    if !s.holds w then .threw (.typeError "Cannot close a stream using a released writer") s
    else if s.closeQueuedOrInFlight then
      .threw (.typeError "Cannot close an already-closing stream") s
    else s.streamClose env
  | .writerAbort w reason =>
    if s.holds w then s.streamAbort env reason
    else .threw (.typeError "Cannot abort a stream using a released writer") s
  | .releaseLock w => if s.holds w then pure s.writerRelease else pure s
  | .close =>
    if s.writer.isSome then
      .threw (.typeError "Cannot close a stream that already has a writer") s
    else if s.closeQueuedOrInFlight then
      .threw (.typeError "Cannot close an already-closing stream") s
    else s.streamClose env
  | .abort reason =>
    if s.writer.isSome then
      .threw (.typeError "Cannot abort a stream that already has a writer") s
    else s.streamAbort env reason
  | .closeWithErrorPropagation w =>
    if s.holds w then s.writerCloseWithErrorPropagation env else pure s

/-- `ws_start_promise_fulfilled`. -/
def startPromiseFulfilled (env : WritableEnv χ F) (s : WritableStream χ F) :
    WritableOutcome χ F (WritableStream χ F) := do
  check s.isLive
  advanceQueueIfNeeded env (record { s with started := true } .started)

/-- `ws_start_promise_rejected`. -/
def startPromiseRejected (env : WritableEnv χ F) (s : WritableStream χ F) (e : Option JsError) :
    WritableOutcome χ F (WritableStream χ F) := do
  check s.isLive
  dealWithRejection env { s with started := true } e

/-- `ws_write_promise_fulfilled`. -/
def writePromiseFulfilled (env : WritableEnv χ F) (s : WritableStream χ F) :
    WritableOutcome χ F (WritableStream χ F) := do
  let s ← s.finishInFlightWrite
  check s.isLive
  let s ← s.dequeue
  let s ←
    if !s.closeQueuedOrInFlight && s.state = .writable then s.updateBackpressure s.getBackpressure
    else pure s
  s.advanceQueueIfNeeded env

/-- `ws_write_promise_rejected`. -/
def writePromiseRejected (env : WritableEnv χ F) (s : WritableStream χ F) (e : Option JsError) :
    WritableOutcome χ F (WritableStream χ F) :=
  finishInFlightWriteWithError env (if s.state = .writable then s.clearAlgorithms else s) e

/-- `ws_abort_promise_fulfilled` and `ws_abort_promise_rejected`. -/
def abortPromiseSettled (s : WritableStream χ F) (p : ℕ) (o : Settled) :
    WritableOutcome χ F (WritableStream χ F) :=
  rejectCloseAndClosedPromiseIfNeeded
    ((s.settle (.abort p) o).record (.aborted (o = .fulfilled)))

/-- One event; a promise reaction runs once, when its promise was pending. -/
def step (env : WritableEnv χ F) (s : WritableStream χ F) :
    WritableEvent χ → WritableOutcome χ F (WritableStream χ F)
  | .op op => s.perform env op
  | .startFulfilled =>
    if s.startPending then startPromiseFulfilled env { s with startPending := false } else pure s
  | .startRejected e =>
    if s.startPending then startPromiseRejected env { s with startPending := false } e else pure s
  | .writeFulfilled =>
    if s.writePending then writePromiseFulfilled env { s with writePending := false } else pure s
  | .writeRejected e =>
    if s.writePending then writePromiseRejected env { s with writePending := false } e else pure s
  | .closeFulfilled =>
    if s.closePending then finishInFlightClose { s with closePending := false } else pure s
  | .closeRejected e =>
    if s.closePending then finishInFlightCloseWithError env { s with closePending := false } e
    else pure s
  | .abortFulfilled =>
    match s.abortPending with
    | some p => abortPromiseSettled { s with abortPending := none } p .fulfilled
    | none => pure s
  | .abortRejected e =>
    match s.abortPending with
    | some p => abortPromiseSettled { s with abortPending := none } p (.rejected e)
    | none => pure s

end WritableStream

end WebStreams
