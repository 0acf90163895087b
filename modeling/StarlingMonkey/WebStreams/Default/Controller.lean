import StarlingMonkey.WebStreams.Pull
import StarlingMonkey.WebStreams.Queue
import StarlingMonkey.Lib.Run

/-!
# The readable stream with a default controller

The stream, its `ReadableStreamDefaultController` and the default reader that holds the lock, in
one record, and the functions of `readable/algorithms.rs` that act on them. A source name
`readable_stream_default_controller_x` is shortened to `controllerX`, and `readable_stream_x` to
`streamX`.

Chunks are of any type `χ` and their sizes of any type `F` of numbers. Reads are numbered in the
order they are issued. `settled`, `supplied`, `dropped` and `pulls` record how the reads ended,
which chunks came in, which were discarded, and the steps of the pull protocol: no algorithm reads
them.
-/

namespace WebStreams

/-- How a read request ended: by its chunk, close or error steps. -/
inductive ReadResult (χ : Type) where
  | chunk (c : χ)
  | close
  | error (e : JsError)
deriving DecidableEq, Repr

/-- The chunks a result hands out. -/
def ReadResult.chunks {χ : Type} : ReadResult χ → List χ
  | .chunk c => [c]
  | _ => []

/-- A readable stream with its default controller and reader. -/
structure DefaultStream (χ F : Type) extends QueueWithSizes χ F where
  /-- `stream.[[state]]`. -/
  state : StreamState
  /-- `stream.[[storedError]]`. -/
  storedError : Option JsError
  /-- `stream.[[disturbed]]`. -/
  disturbed : Bool
  /-- `stream.[[reader]]`, by its `[[readRequests]]`. -/
  reader : Option (List ℕ)
  /-- The `[[readRequests]]` of the readers that were released, as they were left. -/
  released : List (List ℕ)
  /-- Whether `controller.[[pullAlgorithm]]` and `[[cancelAlgorithm]]` are set. -/
  algorithms : Bool
  /-- Whether `controller.[[strategySizeAlgorithm]]` is set; without it every size is `1`. -/
  sizeAlgorithm : Bool
  /-- `controller.[[closeRequested]]`. -/
  closeRequested : Bool
  /-- `controller.[[pullAgain]]`. -/
  pullAgain : Bool
  /-- `controller.[[pulling]]`. -/
  pulling : Bool
  /-- `controller.[[started]]`. -/
  started : Bool
  /-- `controller.[[strategyHWM]]`. -/
  strategyHwm : F
  /-- The start promise. -/
  startPromise : PromiseState
  /-- The promise of the latest pull is unsettled. -/
  pullPending : Bool
  /-- The steps of the pull protocol. -/
  pulls : List PullStep
  /-- The number of the next read. -/
  nextRequest : ℕ
  /-- How the reads ended, in the order they did. -/
  settled : List (ℕ × ReadResult χ)
  /-- The chunks that came in. -/
  supplied : List χ
  /-- The chunks that were discarded by an error or a cancellation. -/
  dropped : List χ

/-- Why the process aborted. -/
inductive DefaultAbort where
  /-- A `debug_assert!` failed. -/
  | assertion
  /-- An `expect` or an `unwrap` failed. -/
  | expectation
  /-- Author code nested beyond the bound the run is given. -/
  | tooDeep
deriving DecidableEq, Repr

/-- The outcome of an algorithm of the stream. -/
abbrev DefaultOutcome (χ F α : Type) := Outcome DefaultAbort JsError (DefaultStream χ F) α

/-- What an operation meets besides the state. -/
structure DefaultEnv (χ F : Type) where
  /-- Debug assertions are compiled in. -/
  debug : Bool
  /-- The strategy's `size`, with the size it returns or the error it throws. -/
  size : χ → DefaultStream χ F → Except DefaultAbort (Except JsError F × DefaultStream χ F)
  /-- The source's `pull`; a throw of it becomes a rejected promise. -/
  pull : DefaultStream χ F → Except DefaultAbort (DefaultStream χ F)
  /-- The source's `cancel`. -/
  cancel : DefaultStream χ F → Except DefaultAbort (DefaultStream χ F)
  /-- What the chunk steps of a numbered request run. -/
  chunkSteps : ℕ → χ → DefaultStream χ F → Except DefaultAbort (DefaultStream χ F)
  /-- What the close or error steps of a numbered request run. -/
  endSteps : ℕ → DefaultStream χ F → Except DefaultAbort (DefaultStream χ F)

namespace DefaultStream

variable {χ F : Type} [SizeNum F]

/-- Check a debug assertion. -/
def check (env : DefaultEnv χ F) (c : Bool) : DefaultOutcome χ F Unit :=
  if env.debug then Outcome.guard c .assertion else pure ()

/-- Run code that is called out to. -/
def callOut {α : Type} (x : Except DefaultAbort α) : DefaultOutcome χ F α :=
  match x with
  | .ok a => .ok a
  | .error p => .panic p

/-! ### Requests -/

/-- Whether the stream is locked and a read request waits. -/
def hasReadRequests (s : DefaultStream χ F) : Bool := s.reader.any (0 < ·.length)

/-- Perform the chunk, close or error steps of request `r`. -/
def settle (env : DefaultEnv χ F) (s : DefaultStream χ F) (r : ℕ) (o : ReadResult χ) :
    DefaultOutcome χ F (DefaultStream χ F) :=
  let s := { s with settled := s.settled ++ [(r, o)] }
  match o with
  | .chunk c => callOut (env.chunkSteps r c s)
  | _ => callOut (env.endSteps r s)

/-- `settle_request_snapshot`: settle the requests of a snapshot, front to back. -/
def settleRequestSnapshot (env : DefaultEnv χ F) (o : ReadResult χ) :
    DefaultStream χ F → List ℕ → DefaultOutcome χ F (DefaultStream χ F)
  | s, [] => pure s
  | s, r :: rs => do settleRequestSnapshot env o (← s.settle env r o) rs

/-- `readable_stream_add_read_request`. -/
def addReadRequest (s : DefaultStream χ F) (r : ℕ) : DefaultOutcome χ F (DefaultStream χ F) :=
  match s.reader with
  | some rs => pure { s with reader := some (rs ++ [r]) }
  | none => .panic .expectation

/-- `readable_stream_fulfill_read_request`, for a chunk. -/
def fulfillReadRequest (env : DefaultEnv χ F) (s : DefaultStream χ F) (c : χ) :
    DefaultOutcome χ F (DefaultStream χ F) :=
  match s.reader with
  | some (r :: rs) => settle env { s with reader := some rs } r (.chunk c)
  | some [] => do
    check env false
    .panic .expectation
  | none => .panic .expectation

/-- `readable_stream_close`. -/
def streamClose (env : DefaultEnv χ F) (s : DefaultStream χ F) :
    DefaultOutcome χ F (DefaultStream χ F) := do
  check env (s.state = .readable)
  let s := { s with state := .closed }
  match s.reader with
  | none => pure s
  | some rs => settleRequestSnapshot env .close { s with reader := some [] } rs

/-- `readable_stream_error`. -/
def streamError (env : DefaultEnv χ F) (s : DefaultStream χ F) (e : JsError) :
    DefaultOutcome χ F (DefaultStream χ F) := do
  check env (s.state = .readable)
  let s := { s with state := .errored, storedError := some e }
  match s.reader with
  | none => pure s
  | some rs => settleRequestSnapshot env (.error e) { s with reader := some [] } rs

/-! ### Pulling -/

/-- `readable_stream_default_controller_can_close_or_enqueue`. -/
def canCloseOrEnqueue (s : DefaultStream χ F) : Bool := !s.closeRequested && s.state = .readable

/-- `readable_stream_default_controller_get_desired_size`. -/
def getDesiredSize (s : DefaultStream χ F) : Option F :=
  match s.state with
  | .errored => none
  | .closed => some SizeNum.zero
  | .readable => some (SizeNum.sub s.strategyHwm s.queueTotalSize)

/-- `readable_stream_default_controller_should_call_pull`. The desired size of a readable stream
is not null. -/
def shouldCallPull (s : DefaultStream χ F) : Bool :=
  s.canCloseOrEnqueue && s.started &&
    (s.hasReadRequests || s.getDesiredSize.any (SizeNum.lt SizeNum.zero))

/-- `readable_stream_default_controller_call_pull_if_needed`. -/
def callPullIfNeeded (env : DefaultEnv χ F) (s : DefaultStream χ F) :
    DefaultOutcome χ F (DefaultStream χ F) :=
  if !s.shouldCallPull then pure s
  else if s.pulling then pure { s with pullAgain := true, pulls := s.pulls ++ [.deferred] }
  else do
    check env (!s.pullAgain)
    callOut (env.pull { s with
      pulling := true, pullPending := true
      pulls := s.pulls ++ [.call ⟨s.startPromise, s.pullPending, s.closeRequested, s.state⟩] })

/-! ### The operations of the underlying source -/

/-- `readable_stream_default_controller_clear_algorithms`. -/
def clearAlgorithms (s : DefaultStream χ F) : DefaultStream χ F :=
  { s with algorithms := false, sizeAlgorithm := false }

/-- `reset_queue`. -/
def resetQueue (s : DefaultStream χ F) : DefaultStream χ F :=
  { s with toQueueWithSizes := .reset, dropped := s.dropped ++ s.values }

/-- `readable_stream_default_controller_close`. -/
def controllerClose (env : DefaultEnv χ F) (s : DefaultStream χ F) :
    DefaultOutcome χ F (DefaultStream χ F) :=
  if !s.canCloseOrEnqueue then pure s
  else
    let s := { s with closeRequested := true }
    if s.queue.isEmpty then streamClose env s.clearAlgorithms else pure s

/-- `readable_stream_default_controller_error`. -/
def controllerError (env : DefaultEnv χ F) (s : DefaultStream χ F) (e : JsError) :
    DefaultOutcome χ F (DefaultStream χ F) :=
  if s.state ≠ .readable then pure s else streamError env s.resetQueue.clearAlgorithms e

/-- `error_controller_with_pending`: error the controller and throw again. -/
def errorControllerWithPending (env : DefaultEnv χ F) (s : DefaultStream χ F) (e : JsError) :
    DefaultOutcome χ F (DefaultStream χ F) := do
  let s ← s.controllerError env e
  .threw e s

/-- The size of a chunk, from `controller.[[strategySizeAlgorithm]]`. -/
def chunkSize (env : DefaultEnv χ F) (s : DefaultStream χ F) (c : χ) :
    DefaultOutcome χ F (Except JsError F × DefaultStream χ F) :=
  if s.sizeAlgorithm then callOut (env.size c s) else pure (.ok SizeNum.one, s)

/-- Step 4 of `readable_stream_default_controller_enqueue`: put the chunk into the queue. -/
def enqueueChunk (env : DefaultEnv χ F) (s : DefaultStream χ F) (c : χ) :
    DefaultOutcome χ F (DefaultStream χ F) := do
  let (result, s) ← s.chunkSize env c
  match result with
  | .error e => s.errorControllerWithPending env e
  | .ok size =>
    match s.enqueueValueWithSize c size with
    | .error e => s.errorControllerWithPending env e
    | .ok q => pure { s with toQueueWithSizes := q, supplied := s.supplied ++ [c] }

/-- `readable_stream_default_controller_enqueue`. -/
def controllerEnqueue (env : DefaultEnv χ F) (s : DefaultStream χ F) (c : χ) :
    DefaultOutcome χ F (DefaultStream χ F) :=
  if !s.canCloseOrEnqueue then pure s
  else do
    let s ←
      if s.hasReadRequests then fulfillReadRequest env { s with supplied := s.supplied ++ [c] } c
      else s.enqueueChunk env c
    s.callPullIfNeeded env

/-! ### The operations of the consumer -/

/-- `pull_steps`: serve a read from the queue, or append it. -/
def pullSteps (env : DefaultEnv χ F) (s : DefaultStream χ F) (r : ℕ) :
    DefaultOutcome χ F (DefaultStream χ F) :=
  match s.dequeueValue with
  | some (c, q) => do
    let s := { s with toQueueWithSizes := q }
    let s ←
      if s.closeRequested && s.queue.isEmpty then streamClose env s.clearAlgorithms
      else s.callPullIfNeeded env
    s.settle env r (.chunk c)
  | none => do
    let s ← s.addReadRequest r
    s.callPullIfNeeded env

/-- `cancel_steps`. -/
def cancelSteps (env : DefaultEnv χ F) (s : DefaultStream χ F) :
    DefaultOutcome χ F (DefaultStream χ F) := do
  let s := s.resetQueue
  let s ← if s.algorithms then callOut (env.cancel s) else pure s
  pure s.clearAlgorithms

/-- `readable_stream_cancel`. -/
def streamCancel (env : DefaultEnv χ F) (s : DefaultStream χ F) :
    DefaultOutcome χ F (DefaultStream χ F) :=
  let s := { s with disturbed := true }
  if s.state ≠ .readable then pure s
  else do
    let s ← s.streamClose env
    s.cancelSteps env

/-- `readable_stream_default_reader_read`, for the reader that holds the lock. -/
def defaultReaderRead (env : DefaultEnv χ F) (s : DefaultStream χ F) (r : ℕ) :
    DefaultOutcome χ F (DefaultStream χ F) :=
  let s := { s with disturbed := true }
  match s.state with
  | .closed => s.settle env r .close
  | .errored => s.settle env r (.error (s.storedError.getD (.reason 0)))
  | .readable => s.pullSteps env r

/-- `readable_stream_default_reader_release`: the reader lets go of the stream, and its requests
are errored. -/
def readerRelease (env : DefaultEnv χ F) (s : DefaultStream χ F) :
    DefaultOutcome χ F (DefaultStream χ F) :=
  match s.reader with
  | none => pure s
  | some rs =>
    settleRequestSnapshot env (.error (.typeError "Reader was released"))
      { s with reader := none, released := s.released ++ [[]] } rs

end DefaultStream

/-! ### The machine -/

/-- An operation of the JavaScript interfaces of the stream. -/
inductive DefaultOp (χ : Type) where
  /-- `controller.enqueue(chunk)`. -/
  | enqueue (c : χ)
  /-- `controller.close()`. -/
  | close
  /-- `controller.error(e)`. -/
  | error (e : ℕ)
  /-- `read()` of the reader that holds the lock. -/
  | read
  /-- `releaseLock()`. -/
  | releaseLock
  /-- `getReader()`. -/
  | getReader
  /-- `cancel(reason)`, of the stream or of the reader that holds the lock. -/
  | cancel
deriving DecidableEq, Repr

/-- An operation or a promise reaction. -/
inductive DefaultEvent (χ : Type) where
  | op (op : DefaultOp χ)
  | startFulfilled
  | startRejected (e : ℕ)
  | pullFulfilled
  | pullRejected (e : ℕ)
deriving DecidableEq, Repr

namespace DefaultStream

variable {χ F : Type} [SizeNum F]

/-- A stream as `set_up_readable_stream_default_controller` leaves it, before the start promise is
settled. -/
def initial (strategyHwm : F) (sizeAlgorithm : Bool) : DefaultStream χ F where
  toQueueWithSizes := .reset
  state := .readable
  storedError := none
  disturbed := false
  reader := none
  released := []
  algorithms := true
  sizeAlgorithm := sizeAlgorithm
  closeRequested := false
  pullAgain := false
  pulling := false
  started := false
  strategyHwm := strategyHwm
  startPromise := .pending
  pullPending := false
  pulls := []
  nextRequest := 0
  settled := []
  supplied := []
  dropped := []

/-- Take the number of a new read. -/
def issue (s : DefaultStream χ F) : DefaultStream χ F := { s with nextRequest := s.nextRequest + 1 }

/-- Perform an operation. -/
def perform (env : DefaultEnv χ F) (s : DefaultStream χ F) :
    DefaultOp χ → DefaultOutcome χ F (DefaultStream χ F)
  | .enqueue c =>
    if s.canCloseOrEnqueue then s.controllerEnqueue env c
    else .threw (.typeError "The stream is not in a state that permits enqueue") s
  | .close =>
    if s.canCloseOrEnqueue then s.controllerClose env
    else .threw (.typeError "The stream is not in a state that permits close") s
  | .error e => s.controllerError env (.reason e)
  | .read =>
    if s.reader.isSome then s.issue.defaultReaderRead env s.nextRequest
    else .threw (.typeError "Cannot read from a reader that does not have an owner stream") s
  | .releaseLock => s.readerRelease env
  | .getReader =>
    if s.reader.isSome then
      .threw (.typeError
        "This stream has already been locked for exclusive reading by another reader") s
    else pure { s with reader := some [] }
  | .cancel => s.streamCancel env

/-- `start_promise_fulfilled`. -/
def startPromiseFulfilled (env : DefaultEnv χ F) (s : DefaultStream χ F) :
    DefaultOutcome χ F (DefaultStream χ F) := do
  let s := { s with started := true }
  check env (!s.pulling)
  check env (!s.pullAgain)
  s.callPullIfNeeded env

/-- `pull_promise_fulfilled`. -/
def pullPromiseFulfilled (env : DefaultEnv χ F) (s : DefaultStream χ F) :
    DefaultOutcome χ F (DefaultStream χ F) :=
  let s := { s with pulling := false }
  if s.pullAgain then
    callPullIfNeeded env { s with pullAgain := false, pulls := s.pulls ++ [.resumed] }
  else pure s

/-- One event; a promise reaction runs once, when its promise was pending. -/
def step (env : DefaultEnv χ F) (s : DefaultStream χ F) :
    DefaultEvent χ → DefaultOutcome χ F (DefaultStream χ F)
  | .op op => s.perform env op
  | .startFulfilled =>
    if s.startPromise = .pending then
      startPromiseFulfilled env { s with startPromise := .fulfilled }
    else pure s
  | .startRejected e =>
    if s.startPromise = .pending then
      controllerError env { s with startPromise := .rejected } (.reason e)
    else pure s
  | .pullFulfilled =>
    if s.pullPending then pullPromiseFulfilled env { s with pullPending := false }
    else pure s
  | .pullRejected e =>
    if s.pullPending then
      controllerError env { s with pullPending := false } (.reason e)
    else pure s

end DefaultStream

end WebStreams
