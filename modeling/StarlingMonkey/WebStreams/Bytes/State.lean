import StarlingMonkey.WebStreams.Pull
import StarlingMonkey.WebStreams.Bytes.Buffer
import StarlingMonkey.Lib.Run
import Mathlib.Data.Rat.Defs

/-!
# The state of a readable byte stream

The stream, its `ReadableByteStreamController`, the reader that holds the lock and what the
controller has asked of the underlying byte source, in one record. Reads of either kind are
numbered in the order they are issued; `settled` records how and in which order they ended,
`supplied` the bytes the source has provided, and `pulls` the steps of the pull protocol. They
only record what happened: no algorithm reads them.

`Env` is what an operation meets besides the state: whether debug assertions are compiled in,
whether an allocation succeeds, and the code that runs when the controller calls out (the
source's `pull` and `cancel`, and the steps of a read request).
-/

namespace WebStreams

/-- Which kind of reader a pull-into descriptor will be committed to (`ReaderType`). -/
inductive ReaderType where
  /-- A default `read()` with auto-allocation. -/
  | default
  /-- A BYOB `read(view)`. -/
  | byob
  /-- The reader has been released. -/
  | none
deriving DecidableEq, Repr

/-- A readable byte stream queue entry. -/
structure ByteQueueEntry where
  /-- The buffer backing the entry's bytes. -/
  buffer : ArrayBuffer
  /-- The offset of the entry's region. -/
  byteOffset : ℕ
  /-- The length of the entry's region. -/
  byteLength : ℕ
deriving DecidableEq

/-- A pull-into descriptor: the region a byte source is asked to fill, and how the filled bytes
become a view. -/
structure PullIntoDescriptor where
  /-- The buffer being filled. -/
  buffer : ArrayBuffer
  /-- The byte length of `buffer`. -/
  bufferByteLength : ℕ
  /-- Where the requested region begins. -/
  byteOffset : ℕ
  /-- The length of the requested region. -/
  byteLength : ℕ
  /-- How many bytes of the region are filled. -/
  bytesFilled : ℕ
  /-- How many bytes must be filled before the descriptor is committed. -/
  minimumFill : ℕ
  /-- The element size of the view to construct. -/
  elementSize : ℕ
  /-- The kind of the view to construct. -/
  viewKind : ViewKind
  /-- The reader the descriptor is committed to. -/
  readerType : ReaderType
deriving DecidableEq

/-- The view of a `ReadableStreamBYOBRequest`: a region of the buffer with identity `buffer`. -/
structure ByobView where
  /-- The identity of the viewed buffer. -/
  buffer : ℕ
  /-- The offset of the region. -/
  byteOffset : ℕ
  /-- The length of the region. -/
  byteLength : ℕ
deriving DecidableEq, Repr

/-- The reader that holds the lock, with its list of pending requests. -/
inductive Reader where
  /-- A `DefaultReader` with its `[[readRequests]]`. -/
  | default (readRequests : List ℕ)
  /-- A `BYOBReader` with its `[[readIntoRequests]]`. -/
  | byob (readIntoRequests : List ℕ)
deriving DecidableEq, Repr

/-- The requests that wait, of either kind. -/
def Reader.requests : Reader → List ℕ
  | .default rs | .byob rs => rs

/-- How a read or read-into request ended: by its chunk, close or error steps. -/
inductive Settlement where
  | chunk (view : ArrayBufferView)
  | close (view : Option ArrayBufferView)
  | error (e : JsError)
deriving DecidableEq

/-- A readable byte stream with its controller and reader. -/
structure ByteStream where
  /-- `stream.[[state]]`. -/
  state : StreamState
  /-- `stream.[[storedError]]`. -/
  storedError : Option JsError
  /-- `stream.[[disturbed]]`. -/
  disturbed : Bool
  /-- `stream.[[reader]]`. -/
  reader : Option Reader
  /-- The readers that were released, as they were left. -/
  released : List Reader
  /-- `controller.[[autoAllocateChunkSize]]`. -/
  autoAllocateChunkSize : Option ℕ
  /-- The view of `controller.[[byobRequest]]`. -/
  byobRequest : Option ByobView
  /-- Whether `controller.[[pullAlgorithm]]` and `[[cancelAlgorithm]]` are set. -/
  algorithms : Bool
  /-- `controller.[[closeRequested]]`. -/
  closeRequested : Bool
  /-- `controller.[[pullAgain]]`. -/
  pullAgain : Bool
  /-- `controller.[[pulling]]`. -/
  pulling : Bool
  /-- `controller.[[started]]`. -/
  started : Bool
  /-- `controller.[[pendingPullIntos]]`. -/
  pendingPullIntos : List PullIntoDescriptor
  /-- `controller.[[queue]]`. -/
  queue : List ByteQueueEntry
  /-- `controller.[[queueTotalSize]]`. -/
  queueTotalSize : ℕ
  /-- `controller.[[strategyHWM]]`, `none` for `+∞`. -/
  strategyHwm : Option ℚ
  /-- The start promise. -/
  startPromise : PromiseState
  /-- The promise of the latest pull is unsettled. -/
  pullPending : Bool
  /-- The steps of the pull protocol. -/
  pulls : List PullStep
  /-- The identity of the next buffer. -/
  nextBuffer : ℕ
  /-- The number of the next read. -/
  nextRequest : ℕ
  /-- How the reads ended, in the order they did. -/
  settled : List (ℕ × Settlement)
  /-- The bytes the source supplied. -/
  supplied : List UInt8

/-- The places where an operation can abort the process. -/
inductive ByteSite where
  | bytePullSteps | callPullIfNeeded | commitPullIntoDescriptor | convertPullIntoDescriptor
  | copyDataBlockBytes | enqueue | enqueueDetachedPullIntoToQueue | fillHeadPullIntoDescriptor
  | fillPullIntoDescriptorFromQueue | fillReadRequestFromQueue | fulfillReadIntoRequest
  | fulfillReadRequest | getByobRequest | getNumReadIntoRequests | getNumReadRequests
  | handleQueueDrain | addReadIntoRequest | addReadRequest
  | processPullIntoDescriptorsUsingQueue | processReadRequestsUsingQueue | pullInto | respond
  | respondInClosedState | respondInReadableState | respondInternal | respondWithNewView
  | shiftPendingPullInto | startPromiseFulfilled | streamClose | streamError | byobRequestRespond
deriving DecidableEq, Repr

/-- Why the process aborted. -/
inductive ByteAbort where
  /-- A `debug_assert!` failed. -/
  | assertion (site : ByteSite)
  /-- An `expect`, an `unwrap` or an index failed. -/
  | expectation (site : ByteSite)
  /-- Author code nested or repeated beyond the bound the run is given. -/
  | tooDeep
deriving DecidableEq, Repr

/-- The outcome of an algorithm of the byte stream. -/
abbrev ByteOutcome (α : Type) := Outcome ByteAbort JsError ByteStream α

/-- What an operation meets besides the state. -/
structure Env where
  /-- Debug assertions are compiled in. -/
  debug : Bool
  /-- The allocation the operation makes, if any, succeeds. -/
  alloc : Bool
  /-- How many more rounds a loop may take than it has entries to work on. -/
  rounds : ℕ
  /-- The source's `pull`; a throw of it becomes a rejected promise. -/
  pull : ByteStream → Except ByteAbort ByteStream
  /-- The source's `cancel`. -/
  cancel : ByteStream → Except ByteAbort ByteStream
  /-- What the steps of a numbered request run. -/
  steps : ℕ → ByteStream → Except ByteAbort ByteStream

namespace Env

/-- Check a debug assertion. -/
def assert (env : Env) (c : Bool) (site : ByteSite) : ByteOutcome Unit :=
  if env.debug then Outcome.guard c (.assertion site) else pure ()

/-- The environment in which code that is called out to does nothing to the stream before the
operation is over. -/
def quiet (debug alloc : Bool) : Env := ⟨debug, alloc, 0, .ok, .ok, fun _ => .ok⟩

@[simp] theorem quiet_debug (debug alloc : Bool) : (quiet debug alloc).debug = debug := rfl

@[simp] theorem quiet_alloc (debug alloc : Bool) : (quiet debug alloc).alloc = alloc := rfl

end Env

/-- Run code that is called out to. -/
def callOut (x : Except ByteAbort ByteStream) : ByteOutcome ByteStream :=
  match x with
  | .ok s => .ok s
  | .error p => .panic p

@[simp] theorem callOut_ok (s : ByteStream) : callOut (.ok s) = .ok s := rfl

end WebStreams
