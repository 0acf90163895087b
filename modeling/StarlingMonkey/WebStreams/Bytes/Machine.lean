import StarlingMonkey.WebStreams.Bytes.Controller

/-!
# The byte stream as an event machine

What reaches a byte stream from outside: the operations of the JavaScript interfaces
(`ByteOp`), with the argument checks those interfaces make, and the reactions to the promises of
the source's `start` and `pull` (`ByteEvent`). A call on a released reader or an invalidated
`byobRequest` is the same operation with the lock, or the request, gone.

The author shares the buffer behind `byobRequest.view` with the first pending descriptor until
the request is answered: `writeView` is author code writing to that buffer, `detachView` author
code transferring it away (to a worker, or by passing the view to another API).
-/

namespace WebStreams

/-- An operation of the JavaScript interfaces of a byte stream. -/
inductive ByteOp where
  /-- `controller.enqueue(view)`. -/
  | enqueue (view : ArrayBufferView)
  /-- `controller.close()`. -/
  | close
  /-- `controller.error(e)`. -/
  | error (e : ℕ)
  /-- The getter `controller.byobRequest`. -/
  | byobRequest
  /-- The author writes to the buffer behind `byobRequest.view`. -/
  | writeView (data : List UInt8)
  /-- The author transfers the buffer behind `byobRequest.view` away. -/
  | detachView
  /-- `byobRequest.respond(n)`. -/
  | respond (n : ℕ)
  /-- `byobRequest.respondWithNewView(view)`. -/
  | respondWithNewView (view : ArrayBufferView)
  /-- `read()` of a default reader. -/
  | read
  /-- `read(view, { min })` of a BYOB reader. -/
  | readInto (view : ArrayBufferView) (min : ℕ)
  /-- `releaseLock()`. -/
  | releaseLock
  /-- `getReader()`. -/
  | getReader
  /-- `getReader({ mode: "byob" })`. -/
  | getByobReader
  /-- `cancel(reason)`, of the stream or of the reader that holds the lock. -/
  | cancel
deriving DecidableEq

/-- An operation, with whether an allocation it makes succeeds, or a promise reaction. -/
inductive ByteEvent where
  | op (op : ByteOp) (alloc : Bool)
  | startFulfilled
  | startRejected (e : ℕ)
  | pullFulfilled
  | pullRejected (e : ℕ)
deriving DecidableEq

namespace ByteStream

/-- A byte stream as its constructor leaves it, before the start promise is settled. -/
def initial (autoAllocateChunkSize : Option ℕ) (strategyHwm : Option ℚ) : ByteStream where
  state := .readable
  storedError := none
  disturbed := false
  reader := none
  released := []
  autoAllocateChunkSize := autoAllocateChunkSize
  byobRequest := none
  algorithms := true
  closeRequested := false
  pullAgain := false
  pulling := false
  started := false
  pendingPullIntos := []
  queue := []
  queueTotalSize := 0
  strategyHwm := strategyHwm
  startPromise := .pending
  pullPending := false
  pulls := []
  nextBuffer := 0
  nextRequest := 0
  settled := []
  supplied := []

/-- `set_up_readable_byte_stream_controller_from_underlying_source`. -/
def setUp (autoAllocateChunkSize : Option ℕ) (strategyHwm : Option ℚ) : Except JsError ByteStream :=
  if autoAllocateChunkSize = some 0 then
    .error (.typeError "autoAllocateChunkSize cannot be 0")
  else .ok (initial autoAllocateChunkSize strategyHwm)

/-- Take the number of a new read. -/
def issue (s : ByteStream) : ByteStream := { s with nextRequest := s.nextRequest + 1 }

/-- `set_up_readable_stream_default_reader` and `set_up_readable_stream_byob_reader`. -/
def acquire (s : ByteStream) (reader : Reader) : ByteOutcome ByteStream :=
  if s.reader.isSome then
    .threw (.typeError
      "This stream has already been locked for exclusive reading by another reader") s
  else pure { s with reader := some reader }

/-- `ReadableByteStreamController.enqueue`. -/
def jsEnqueue (env : Env) (s : ByteStream) (view : ArrayBufferView) : ByteOutcome ByteStream :=
  if view.byteLength = 0 then .threw (.typeError "enqueue() view has a byte length of 0") s
  else if view.buffer.byteLength = 0 then
    .threw (.typeError "enqueue() view's buffer has a byte length of 0") s
  else if s.closeRequested then
    .threw (.typeError "enqueue() called on a controller that requested close") s
  else if s.state ≠ .readable then
    .threw (.typeError "enqueue() called on a controller whose stream is not readable") s
  else s.controllerEnqueue env view

/-- `ReadableByteStreamController.close`. -/
def jsClose (env : Env) (s : ByteStream) : ByteOutcome ByteStream :=
  if s.closeRequested then
    .threw (.typeError "close() called on a controller that already requested close") s
  else if s.state ≠ .readable then
    .threw (.typeError "close() called on a controller whose stream is not readable") s
  else s.controllerClose env

/-- `ReadableStreamBYOBRequest.respond`. The view of the request is over the buffer of the first
pending descriptor. -/
def jsRespond (env : Env) (s : ByteStream) (n : ℕ) : ByteOutcome ByteStream :=
  match s.byobRequest with
  | none => .threw (.typeError "respond() called on an invalidated BYOB request") s
  | some view =>
    if s.pendingPullIntos.head?.any (·.buffer.detached) then
      .threw (.typeError "respond() called with a detached view buffer") s
    else do
      env.assert (0 < view.byteLength) .byobRequestRespond
      s.controllerRespond env n

/-- `ReadableStreamBYOBRequest.respondWithNewView`. -/
def jsRespondWithNewView (env : Env) (s : ByteStream) (view : ArrayBufferView) :
    ByteOutcome ByteStream :=
  match s.byobRequest with
  | none => .threw (.typeError "respondWithNewView() called on an invalidated BYOB request") s
  | some _ =>
    if view.buffer.detached then
      .threw (.typeError "respondWithNewView() called with a detached view buffer") s
    else s.controllerRespondWithNewView env view

/-- `DefaultReader.read`. -/
def jsRead (env : Env) (s : ByteStream) : ByteOutcome ByteStream :=
  if s.hasDefaultReader then s.issue.defaultReaderRead env s.nextRequest
  else .threw (.typeError "Cannot read from a reader that does not have an owner stream") s

/-- `BYOBReader.read`. -/
def jsReadInto (env : Env) (s : ByteStream) (view : ArrayBufferView) (min : ℕ) :
    ByteOutcome ByteStream :=
  if view.byteLength = 0 then .threw (.typeError "read() view has a byte length of 0") s
  else if view.buffer.byteLength = 0 then
    .threw (.typeError "read() view's buffer has a byte length of 0") s
  else if view.buffer.detached then .threw (.typeError "read() view's buffer is detached") s
  else if min = 0 then .threw (.typeError "read() option min cannot be 0") s
  else if view.viewKind.isTypedArray && view.arrayLength < min then
    .threw (.rangeError "read() option min exceeds the view's length") s
  else if !view.viewKind.isTypedArray && view.byteLength < min then
    .threw (.rangeError "read() option min exceeds the view's byte length") s
  else if s.hasByobReader then s.issue.byobReaderRead env view min s.nextRequest
  else .threw (.typeError "Cannot read from a reader that is not attached to a stream") s

/-- The first pending descriptor, while a `byobRequest` shares its buffer with the author. -/
def sharedHead (s : ByteStream) : Option PullIntoDescriptor :=
  if s.byobRequest.isSome then s.pendingPullIntos.head? else none

/-- Author code changes the shared buffer. -/
def updateHead (s : ByteStream) (f : ArrayBuffer → ArrayBuffer) : ByteStream :=
  match s.pendingPullIntos with
  | [] => s
  | d :: ds => { s with pendingPullIntos := { d with buffer := f d.buffer } :: ds }

/-- Perform an operation. -/
def perform (env : Env) (s : ByteStream) : ByteOp → ByteOutcome ByteStream
  | .enqueue view => s.jsEnqueue env view
  | .close => s.jsClose env
  | .error e => s.controllerError env (.reason e)
  | .byobRequest => s.getByobRequest
  | .writeView data => pure <|
    if s.sharedHead.any fun d => !d.buffer.detached && data.length == d.buffer.data.length then
      s.updateHead ({ · with data := data })
    else s
  | .detachView => pure <|
    if s.sharedHead.isSome then s.updateHead ({ · with detached := true }) else s
  | .respond n => s.jsRespond env n
  | .respondWithNewView view => s.jsRespondWithNewView env view
  | .read => s.jsRead env
  | .readInto view min => s.jsReadInto env view min
  | .releaseLock => s.readerRelease env
  | .getReader => s.acquire (.default [])
  | .getByobReader => s.acquire (.byob [])
  | .cancel => s.streamCancel env

/-- `byte_start_promise_fulfilled`. -/
def startPromiseFulfilled (env : Env) (s : ByteStream) : ByteOutcome ByteStream := do
  let s := { s with started := true }
  env.assert (!s.pulling) .startPromiseFulfilled
  env.assert (!s.pullAgain) .startPromiseFulfilled
  s.callPullIfNeeded env

/-- `byte_pull_promise_fulfilled`. -/
def pullPromiseFulfilled (env : Env) (s : ByteStream) : ByteOutcome ByteStream :=
  let s := { s with pulling := false }
  if s.pullAgain then
    callPullIfNeeded env { s with pullAgain := false, pulls := s.pulls ++ [.resumed] }
  else pure s

/-- One event; a promise reaction runs once, when its promise was pending. -/
def step (env : Bool → Env) (s : ByteStream) : ByteEvent → ByteOutcome ByteStream
  | .op op alloc => s.perform (env alloc) op
  | .startFulfilled =>
    if s.startPromise = .pending then
      startPromiseFulfilled (env true) { s with startPromise := .fulfilled }
    else pure s
  | .startRejected e =>
    if s.startPromise = .pending then
      controllerError (env true) { s with startPromise := .rejected } (.reason e)
    else pure s
  | .pullFulfilled =>
    if s.pullPending then pullPromiseFulfilled (env true) { s with pullPending := false }
    else pure s
  | .pullRejected e =>
    if s.pullPending then
      controllerError (env true) { s with pullPending := false } (.reason e)
    else pure s

end ByteStream

/-- The byte stream, with debug assertions or without, whose author code runs between the
operations. -/
def byteMachine (debug : Bool) : Machine ByteAbort JsError ByteStream ByteEvent :=
  ⟨ByteStream.step (Env.quiet debug)⟩

end WebStreams
