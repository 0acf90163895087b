import Mathlib.Data.List.Basic
import Mathlib.Tactic.Common
import StarlingMonkey.Lib.Protocol
import StarlingMonkey.Lib.Run

/-!
# Transform streams

A `TransformStream` ties a writable to a readable side. A write waits for the promise of the next
change of `backpressure`, which a pull of the readable side makes, and then goes to the transformer.
The sink's close and abort and the source's cancel share one finish promise: the first of them calls
the transformer's `flush` or `cancel`, and its reaction settles the promise.

`Transform` is the controller with the states of both sides. An event is a call that one of the two
streams makes of its algorithms, a change of a side, a call of the controller by the author's code,
the return of a call of the author's code, or a reaction, which runs when nothing is on the stack.

* `Allowed`: which record may follow a log.
* `Sides`: what the two sides, the write in flight and the finish promise know of each other.
* `finishes_of_run`: one finisher, one settlement, chunks in order, and no write that is blocked for
  good.
-/

namespace WebStreams.Transforming

/-- The state of the readable side. -/
inductive ReadableState (ε : Type) where
  | readable
  /-- `close_requested`, while chunks are queued. -/
  | closing
  | closed
  | errored (error : ε)
deriving DecidableEq, Repr

/-- The state of the writable side. -/
inductive WritableState (ε : Type) where
  | writable
  | erroring (error : ε)
  | errored (error : ε)
  | closed
deriving DecidableEq, Repr

/-- The algorithm that made the finish promise. -/
inductive Path (ε : Type) where
  | close
  | abort (reason : ε)
  | cancel (reason : ε)
deriving DecidableEq, Repr

/-- `finish_promise`. -/
inductive Finish (ε : Type) where
  | unset
  /-- `flush` or `cancel` is on the stack. -/
  | running (path : Path ε)
  /-- The promise of `flush` or `cancel` is reacted to. -/
  | waiting (path : Path ε)
  | settled (error : Option ε)
deriving DecidableEq, Repr

/-- What the writable side has in flight. -/
inductive SinkOp where
  /-- A write that reacts to a `backpressure_change_promise`. -/
  | parked (promise : ℕ)
  /-- A write that reacts to the promise of `transform`. -/
  | transforming
  /-- A write whose promise is settled. -/
  | written
  | closing
deriving DecidableEq, Repr

/-- A call of the author's code. -/
inductive Frame where
  | transform
  /-- `flush` or `cancel`. -/
  | finisher
  /-- The size algorithm, in an enqueue. -/
  | enqueue
deriving DecidableEq, Repr

/-- What happened. -/
inductive Record (χ ε : Type) where
  | written (chunk : χ)
  /-- `transform` was called; a chunk that is missing is `undefined`. -/
  | transform (chunk : Option χ)
  /-- There was no `transform` to call. -/
  | skipped (chunk : Option χ)
  /-- A write that waited found the writable side erroring. -/
  | refused (chunk : Option χ)
  | flush
  | cancel (reason : ε)
  | cleared
  | settled (error : Option ε)
deriving DecidableEq, Repr

/-- The assertions. -/
inductive Site where
  | sinkWrite
  | afterBackpressure
  | setBackpressure
  | pull
  | enqueue
deriving DecidableEq, Repr

/-- The controller, the stream and its two sides. -/
structure Transform (χ ε : Type) where
  readable : ReadableState ε
  writable : WritableState ε
  inFlight : Option SinkOp
  backpressure : Bool
  /-- `backpressure_change_promise`; those before it are resolved. -/
  promise : ℕ
  /-- What the last pull returned. -/
  pulled : ℕ
  /-- Whether `transform_algorithm` is set. -/
  transformAlgorithm : Bool
  flushAlgorithm : Bool
  cancelAlgorithm : Bool
  /-- `pending_write_chunk`, or `undefined`. -/
  pendingWriteChunk : Option χ
  finish : Finish ε
  stack : List Frame
  log : List (Record χ ε)

/-- What happens to a transform stream. -/
inductive TransformEvent (χ ε : Type) where
  /-- The writable side processes a write. -/
  | write (chunk : χ)
  /-- The reaction of a write that waited. -/
  | afterBackpressure
  /-- The call on top of the stack returns. An enqueue leaves the queue full or not, or fails. -/
  | returns (full : Bool) (error : Option ε)
  | transformSettles (error : Option ε)
  | writeSettles
  /-- The writable side processes a close. -/
  | close
  | closeSettles
  /-- The abort steps of the writable side. -/
  | abort (reason : ε)
  /-- `writer.abort()`, or an error of the writable side. -/
  | writableErrs (error : ε)
  /-- The writable side finishes erroring. -/
  | writableErrored
  | cancel (reason : ε)
  /-- The queue of a readable side that is closing is empty. -/
  | drains
  | pull
  /-- The promise of `flush` or `cancel` settles. -/
  | finisherSettles (drained : Bool) (error : Option ε)
  /-- `controller.enqueue()`. -/
  | enqueue
  /-- `controller.error()`. -/
  | error (error : ε)
  /-- `controller.terminate()`. -/
  | terminate (drained : Bool)
  /-- The readable side reacts to a rejected start promise, after the writable side did. -/
  | startRejected (error : ε)

variable {χ ε : Type}

namespace ReadableState

/-- Whether chunks can be enqueued. -/
def isReadable : ReadableState ε → Bool
  | readable => true
  | _ => false

def isClosed : ReadableState ε → Bool
  | closed => true
  | _ => false

/-- `readable_stream_default_controller_error`. -/
def error (side : ReadableState ε) (error : ε) : ReadableState ε :=
  match side with
  | readable | closing => errored error
  | _ => side

/-- `readable_stream_default_controller_close`, of a queue that is empty or not. -/
def close (side : ReadableState ε) (drained : Bool) : ReadableState ε :=
  match side with
  | readable => if drained then closed else closing
  | _ => side

variable (side : ReadableState ε)

@[simp] theorem isReadable_error (error : ε) : (side.error error).isReadable = false := by
  cases side <;> rfl

@[simp] theorem isClosed_error (error : ε) : (side.error error).isClosed = side.isClosed := by
  cases side <;> rfl

@[simp] theorem isReadable_close (drained : Bool) : (side.close drained).isReadable = false := by
  cases side <;> cases drained <;> rfl

theorem isReadable_of_isClosed (h : side.isClosed = true) : side.isReadable = false := by
  cases side <;> first | rfl | cases h

theorem isClosed_close (drained : Bool) (h : side.isClosed = true) :
    (side.close drained).isClosed = true := by
  cases side <;> first | rfl | cases h

end ReadableState

namespace WritableState

def isWritable : WritableState ε → Bool
  | writable => true
  | _ => false

def isErrored : WritableState ε → Bool
  | errored _ => true
  | _ => false

/-- Whether an operation can be in flight. -/
def isLive : WritableState ε → Bool
  | writable | erroring _ => true
  | _ => false

/-- `writable_stream_default_controller_error_if_needed`. -/
def errorIfNeeded (side : WritableState ε) (error : ε) : WritableState ε :=
  match side with
  | writable => erroring error
  | _ => side

variable (side : WritableState ε)

@[simp] theorem isWritable_errorIfNeeded (error : ε) :
    (side.errorIfNeeded error).isWritable = false := by
  cases side <;> rfl

@[simp] theorem isErrored_errorIfNeeded (error : ε) :
    (side.errorIfNeeded error).isErrored = side.isErrored := by
  cases side <;> rfl

@[simp] theorem isLive_errorIfNeeded (error : ε) :
    (side.errorIfNeeded error).isLive = side.isLive := by
  cases side <;> rfl

variable {side}

theorem not_isLive_of_isErrored (h : side.isErrored = true) : side.isLive = false := by
  cases side <;> first | rfl | cases h

theorem not_isErrored_of_isWritable (h : side.isWritable = true) : side.isErrored = false := by
  cases side <;> first | rfl | cases h

theorem isLive_of_isWritable (h : side.isWritable = true) : side.isLive = true := by
  cases side <;> first | rfl | cases h

end WritableState

/-- The source's cancel made the promise, and it is not settled. -/
def Finish.isCanceling : Finish ε → Bool
  | running (.cancel _) | waiting (.cancel _) => true
  | _ => false

namespace Transform

/-- How a call ends. -/
abbrev Steps (χ ε : Type) := Outcome Site Empty (Transform χ ε)

/-! ### The code -/

/-- A record is made. -/
def record (s : Transform χ ε) (r : Record χ ε) : Transform χ ε := { s with log := s.log ++ [r] }

/-- A `debug_assert!`, which a release build leaves out. -/
def check (debug c : Bool) (site : Site) : Steps χ ε Unit :=
  Outcome.guard (!debug || c) site

/-- The readable side is errored. -/
def errorReadable (s : Transform χ ε) (error : ε) : Transform χ ε :=
  { s with readable := s.readable.error error }

/-- The readable side is closed. -/
def closeReadable (s : Transform χ ε) (drained : Bool) : Transform χ ε :=
  { s with readable := s.readable.close drained }

/-- The writable side is errored, if it is writable. -/
def errorWritableIfNeeded (s : Transform χ ε) (error : ε) : Transform χ ε :=
  { s with writable := s.writable.errorIfNeeded error }

/-- `transform_stream_set_backpressure`. -/
def setBackpressure (debug : Bool) (s : Transform χ ε) (backpressure : Bool) :
    Steps χ ε (Transform χ ε) := do
  check debug (s.backpressure != backpressure) .setBackpressure
  pure { s with
    promise := s.promise + 1
    backpressure := backpressure }

/-- `transform_stream_unblock_write`. -/
def unblockWrite (debug : Bool) (s : Transform χ ε) : Steps χ ε (Transform χ ε) :=
  if s.backpressure then s.setBackpressure debug false else .ok s

/-- `transform_stream_default_controller_clear_algorithms`. -/
def clearAlgorithms (s : Transform χ ε) : Transform χ ε :=
  { s.record .cleared with
    transformAlgorithm := false
    flushAlgorithm := false
    cancelAlgorithm := false }

/-- `transform_stream_error_writable_and_unblock_write`. -/
def errorWritableAndUnblockWrite (debug : Bool) (s : Transform χ ε) (error : ε) :
    Steps χ ε (Transform χ ε) :=
  (s.clearAlgorithms.errorWritableIfNeeded error).unblockWrite debug

/-- `transform_stream_error`. -/
def error (debug : Bool) (s : Transform χ ε) (error : ε) : Steps χ ε (Transform χ ε) :=
  (s.errorReadable error).errorWritableAndUnblockWrite debug error

/-- `transform_stream_default_controller_perform_transform`. -/
def performTransform (s : Transform χ ε) (chunk : Option χ) : Transform χ ε :=
  if s.transformAlgorithm then
    { s.record (.transform chunk) with
      inFlight := some .transforming
      stack := .transform :: s.stack }
  else { s.record (.skipped chunk) with inFlight := some .written }

/-- `transform_stream_default_sink_write_algorithm`. -/
def sinkWrite (debug : Bool) (s : Transform χ ε) (chunk : χ) : Steps χ ε (Transform χ ε) := do
  check debug s.writable.isWritable .sinkWrite
  let s := s.record (.written chunk)
  if s.backpressure then
    pure { s with
      pendingWriteChunk := some chunk
      inFlight := some (.parked s.promise) }
  else pure (s.performTransform (some chunk))

/-- `ts_sink_write_after_backpressure`. -/
def sinkWriteAfterBackpressure (debug : Bool) (s : Transform χ ε) : Steps χ ε (Transform χ ε) :=
  let chunk := s.pendingWriteChunk
  let s := { s with pendingWriteChunk := none }
  match s.writable with
  | .erroring _ => .ok { s.record (.refused chunk) with inFlight := some .written }
  | _ => do
    check debug s.writable.isWritable .afterBackpressure
    pure (s.performTransform chunk)

/-- Whether the algorithm that a path calls is set. -/
def hasAlgorithm (s : Transform χ ε) : Path ε → Bool
  | .close => s.flushAlgorithm
  | .abort _ | .cancel _ => s.cancelAlgorithm

/-- What a path calls. -/
def call : Path ε → Record χ ε
  | .close => .flush
  | .abort reason | .cancel reason => .cancel reason

/-- The sink's close and abort and the source's cancel, which return the finish promise that is
there, or make it. Without an algorithm to call they go on at once. -/
def finishBy (s : Transform χ ε) (path : Path ε) : Transform χ ε :=
  match s.finish with
  | .unset =>
    if s.hasAlgorithm path then
      { s.record (call path) with
        finish := .running path
        stack := .finisher :: s.stack }
    else { s.clearAlgorithms with finish := .waiting path }
  | _ => s

/-- `transform_stream_default_sink_close_algorithm`. -/
def sinkClose (s : Transform χ ε) : Transform χ ε := s.finishBy .close

/-- `transform_stream_default_sink_abort_algorithm`. -/
def sinkAbort (s : Transform χ ε) (reason : ε) : Transform χ ε := s.finishBy (.abort reason)

/-- `transform_stream_default_source_cancel_algorithm`. -/
def sourceCancel (s : Transform χ ε) (reason : ε) : Transform χ ε := s.finishBy (.cancel reason)

/-- The three algorithms, from the return of `flush` or `cancel`. -/
def finisherReturns (s : Transform χ ε) : Transform χ ε :=
  match s.finish with
  | .running path => { s.clearAlgorithms with finish := .waiting path }
  | _ => s

/-- The finish promise is settled. -/
def settle (s : Transform χ ε) (error : Option ε) : Transform χ ε :=
  { s.record (.settled error) with finish := .settled error }

/-- `ts_sink_close_fulfilled`. -/
def sinkCloseFulfilled (s : Transform χ ε) (drained : Bool) : Transform χ ε :=
  match s.readable with
  | .errored error => s.settle (some error)
  | _ => (s.closeReadable drained).settle none

/-- `ts_sink_close_rejected` and `ts_sink_abort_rejected`. -/
def sinkRejected (s : Transform χ ε) (error : ε) : Transform χ ε :=
  (s.errorReadable error).settle (some error)

/-- `ts_sink_abort_fulfilled`. -/
def sinkAbortFulfilled (s : Transform χ ε) (reason : ε) : Transform χ ε :=
  match s.readable with
  | .errored error => s.settle (some error)
  | _ => (s.errorReadable reason).settle none

/-- `ts_source_cancel_fulfilled`. -/
def sourceCancelFulfilled (debug : Bool) (s : Transform χ ε) (reason : ε) :
    Steps χ ε (Transform χ ε) :=
  match s.writable with
  | .errored error => .ok (s.settle (some error))
  | _ => do
    let s ← (s.errorWritableIfNeeded reason).unblockWrite debug
    pure (s.settle none)

/-- `ts_source_cancel_rejected`. -/
def sourceCancelRejected (debug : Bool) (s : Transform χ ε) (error : ε) :
    Steps χ ε (Transform χ ε) := do
  let s ← (s.errorWritableIfNeeded error).unblockWrite debug
  pure (s.settle (some error))

/-- The reactions to the promise of `flush` or `cancel`. -/
def finisherSettles (debug : Bool) (s : Transform χ ε) (drained : Bool) :
    Path ε → Option ε → Steps χ ε (Transform χ ε)
  | .close, none => .ok (s.sinkCloseFulfilled drained)
  | .abort reason, none => .ok (s.sinkAbortFulfilled reason)
  | .close, some error | .abort _, some error => .ok (s.sinkRejected error)
  | .cancel reason, none => s.sourceCancelFulfilled debug reason
  | .cancel _, some error => s.sourceCancelRejected debug error

/-- `transform_stream_default_controller_enqueue`, up to the call of the size algorithm. It throws
when the readable side takes no chunks. -/
def enqueue (s : Transform χ ε) : Transform χ ε :=
  if s.readable.isReadable then { s with stack := .enqueue :: s.stack } else s

/-- `readable_stream_default_controller_has_backpressure`. -/
def hasBackpressure (s : Transform χ ε) (full : Bool) : Bool := !s.readable.isReadable || full

/-- `transform_stream_default_controller_enqueue`, from the return of the size algorithm. -/
def enqueueReturns (debug : Bool) (s : Transform χ ε) (full : Bool) :
    Option ε → Steps χ ε (Transform χ ε)
  | some error => (s.errorReadable error).errorWritableAndUnblockWrite debug error
  | none =>
    if s.hasBackpressure full != s.backpressure then do
      check debug (s.hasBackpressure full) .enqueue
      s.setBackpressure debug true
    else .ok s

/-- `transform_stream_default_controller_terminate`. -/
def terminate (debug : Bool) (terminated : ε) (s : Transform χ ε) (drained : Bool) :
    Steps χ ε (Transform χ ε) :=
  (s.closeReadable drained).errorWritableAndUnblockWrite debug terminated

/-- `transform_stream_default_source_pull_algorithm`. -/
def sourcePull (debug : Bool) (s : Transform χ ε) : Steps χ ε (Transform χ ε) := do
  check debug s.backpressure .pull
  let s ← s.setBackpressure debug false
  pure { s with pulled := s.promise }

/-- `ts_perform_transform_rejected`, or the fulfilment of the promise of `transform`. -/
def transformSettles (debug : Bool) (s : Transform χ ε) (error : Option ε) :
    Steps χ ε (Transform χ ε) := do
  let s ← error.elim (pure s) (s.error debug)
  pure { s with inFlight := some .written }

/-- `writable_stream_finish_in_flight_close`, or the same with an error. -/
def closeSettles (s : Transform χ ε) (error : Option ε) : Transform χ ε :=
  { s with
    inFlight := none
    writable :=
      match error, s.writable with
      | none, _ => .closed
      | some _, .erroring stored => .errored stored
      | some error, _ => .errored error }

/-- What an event does, if it can happen. -/
def step (debug : Bool) (terminated : ε) (s : Transform χ ε) :
    TransformEvent χ ε → Steps χ ε (Transform χ ε)
  | .write chunk =>
    if s.writable.isWritable && s.inFlight.isNone then s.sinkWrite debug chunk else .ok s
  | .afterBackpressure =>
    match s.stack, s.inFlight with
    | [], some (.parked promise) =>
      if promise < s.promise then s.sinkWriteAfterBackpressure debug else .ok s
    | _, _ => .ok s
  | .returns full error =>
    match s.stack with
    | [] => .ok s
    | .transform :: stack => .ok { s with stack := stack }
    | .finisher :: stack => .ok { s with stack := stack }.finisherReturns
    | .enqueue :: stack => { s with stack := stack }.enqueueReturns debug full error
  | .transformSettles error =>
    match s.stack, s.inFlight with
    | [], some .transforming => s.transformSettles debug error
    | _, _ => .ok s
  | .writeSettles =>
    match s.stack, s.inFlight with
    | [], some .written => .ok { s with inFlight := none }
    | _, _ => .ok s
  | .close =>
    if s.writable.isWritable && s.inFlight.isNone then
      .ok { s with inFlight := some .closing }.sinkClose
    else .ok s
  | .closeSettles =>
    match s.stack, s.inFlight, s.finish with
    | [], some .closing, .settled error => .ok (s.closeSettles error)
    | _, _, _ => .ok s
  | .abort reason => .ok (if s.writable.isErrored then s.sinkAbort reason else s)
  | .writableErrs error => .ok (s.errorWritableIfNeeded error)
  | .writableErrored =>
    match s.writable, s.inFlight with
    | .erroring error, none => .ok { s with writable := .errored error }
    | _, _ => .ok s
  | .cancel reason =>
    match s.readable with
    | .readable | .closing => .ok ({ s with readable := .closed }.sourceCancel reason)
    | _ => .ok s
  | .drains =>
    match s.readable with
    | .closing => .ok { s with readable := .closed }
    | _ => .ok s
  | .pull =>
    if s.readable.isReadable && s.pulled < s.promise then s.sourcePull debug else .ok s
  | .finisherSettles drained error =>
    match s.stack, s.finish with
    | [], .waiting path => s.finisherSettles debug drained path error
    | _, _ => .ok s
  | .enqueue => .ok s.enqueue
  | .error error => s.error debug error
  | .terminate drained => s.terminate debug terminated drained
  | .startRejected error =>
    .ok (if !s.writable.isWritable && s.inFlight.isNone then s.errorReadable error else s)

/-- A transform stream whose transformer has `flush` and `cancel`, or has not. -/
def new (flush cancel : Bool) : Transform χ ε where
  readable := .readable
  writable := .writable
  inFlight := none
  backpressure := true
  promise := 1
  pulled := 0
  transformAlgorithm := true
  flushAlgorithm := flush
  cancelAlgorithm := cancel
  pendingWriteChunk := none
  finish := .unset
  stack := []
  log := []

end Transform

/-- A transform stream as a machine. -/
def machine (χ : Type) (debug : Bool) (terminated : ε) :
    Machine Site Empty (Transform χ ε) (TransformEvent χ ε) :=
  ⟨Transform.step debug terminated⟩

/-! ### What is to hold -/

namespace Record

/-- A call of `flush` or `cancel`. -/
def called? : Record χ ε → Option Unit
  | flush | cancel _ => some ()
  | _ => none

/-- What the finish promise was settled with. -/
def settled? : Record χ ε → Option (Option ε)
  | settled error => some error
  | _ => none

/-- A chunk that was written. -/
def written? : Record χ ε → Option (Option χ)
  | written chunk => some (some chunk)
  | _ => none

/-- A chunk that went to the transformer, or was dropped. -/
def handled? : Record χ ε → Option (Option χ)
  | transform chunk | skipped chunk | refused chunk => some chunk
  | _ => none

end Record

/-- **The protocol of a transformer**: which record may follow a log. -/
def Allowed (l : List (Record χ ε)) : Record χ ε → Prop
  | .flush | .cancel _ =>
    l.filterMap Record.called? = [] ∧ l.filterMap Record.settled? = [] ∧ .cleared ∉ l
  | .transform _ => .cleared ∉ l
  | .skipped _ => .cleared ∈ l
  | .settled _ => .cleared ∈ l ∧ l.filterMap Record.settled? = []
  | _ => True

namespace Transform

/-- A write waits for the backpressure to change. -/
def Blocked (s : Transform χ ε) : Prop := s.inFlight = some (.parked s.promise)

/-- The chunk that waits. -/
def waiting (s : Transform χ ε) : List (Option χ) :=
  match s.inFlight with
  | some (.parked _) => [s.pendingWriteChunk]
  | _ => []

/-- The chunks that were written were handled in order, but for those that wait. -/
def Chunks (l : List (Record χ ε)) (waiting : List (Option χ)) : Prop :=
  l.filterMap Record.written? = l.filterMap Record.handled? ++ waiting

/-- **A transform stream finishes once.** -/
structure Finishes (s : Transform χ ε) : Prop where
  log : Protocol.Kept Allowed s.log
  /-- Each chunk that was written went to the transformer, in order, or was dropped, or waits. -/
  chunks : Chunks s.log s.waiting
  /-- A write waits only as long as a pull can come or the cancel is under way. -/
  blocked : s.Blocked → s.readable.isReadable = true ∨ s.finish.isCanceling = true
  /-- The finish promise settles when neither side can be used any more. -/
  settled : ∀ error, s.finish = .settled error → s.readable.isReadable = false ∧
    (s.writable.isWritable = true → s.inFlight = some .closing) ∧ ¬ s.Blocked

/-- What the record of a chunk says of the state it is made in: a chunk goes to the transformer as
long as the writable side is writable, and is dropped when that is erroring. -/
def Sees (s : Transform χ ε) : Record χ ε → Prop
  | .transform _ | .skipped _ => s.writable.isWritable = true
  | .refused _ => ∃ error, s.writable = .erroring error
  | _ => True

/-- What a step adds to the log. -/
def Adds (s t : Transform χ ε) : Prop := ∃ l, t.log = s.log ++ l ∧ ∀ r ∈ l, s.Sees r

/-! ### The invariant -/

/-- What has become of the sides when a path makes the finish promise. -/
def Reached (s : Transform χ ε) : Path ε → Prop
  | .close => s.inFlight = some .closing
  | .abort _ => s.writable.isErrored = true
  | .cancel _ => s.readable.isClosed = true

/-- What the sides know of each other. -/
structure Sides (s : Transform χ ε) : Prop where
  /-- A write can come as long as a pull can, or a cancel is under way. -/
  usable : s.writable.isWritable = true →
    s.readable.isReadable = true ∨ s.finish.isCanceling = true ∨ s.inFlight = some .closing
  blocked : s.Blocked → s.readable.isReadable = true ∨ s.finish.isCanceling = true
  parked : ∀ promise, s.inFlight = some (.parked promise) → promise ≤ s.promise ∧
    (promise = s.promise → s.backpressure = true)
  live : s.inFlight ≠ none → s.writable.isLive = true
  /-- Without backpressure the last pull is not over. -/
  pulled : s.readable.isReadable = true → s.backpressure = false → s.pulled = s.promise
  path : ∀ path, s.finish = .running path ∨ s.finish = .waiting path → s.Reached path
  settled : ∀ error, s.finish = .settled error → s.readable.isReadable = false

/-- What the log knows of the controller. -/
structure Recorded (s : Transform χ ε) : Prop where
  log : Protocol.Kept Allowed s.log
  cleared : .cleared ∈ s.log ↔ s.transformAlgorithm = false
  algorithms : s.transformAlgorithm = false → ∀ path, s.hasAlgorithm path = false
  called : s.finish = .unset → s.log.filterMap Record.called? = []
  settled : (∀ error, s.finish ≠ .settled error) → s.log.filterMap Record.settled? = []
  finished : ∀ path, s.finish = .waiting path → .cleared ∈ s.log

/-- **The invariant.** -/
structure Inv (s : Transform χ ε) : Prop where
  sides : Sides s
  recorded : Recorded s
  chunks : Chunks s.log s.waiting

variable {s : Transform χ ε} {debug : Bool}

/-! ### Changes of the sides -/

/-- The backpressure is off. -/
def unblocked (s : Transform χ ε) : Transform χ ε :=
  { s with
    promise := if s.backpressure then s.promise + 1 else s.promise
    backpressure := false }

theorem unblockWrite_eq (s : Transform χ ε) : s.unblockWrite debug = .ok s.unblocked := by
  rw [unblockWrite, unblocked]
  split
  · rename_i hb
    simp [setBackpressure, check, hb]
  · rename_i hb
    rw [Bool.not_eq_true] at hb
    rw [← hb]

/-- The writable side is stopped. -/
def stopped (s : Transform χ ε) (error : ε) : Transform χ ε :=
  (s.clearAlgorithms.errorWritableIfNeeded error).unblocked

theorem errorWritableAndUnblockWrite_eq (s : Transform χ ε) (error : ε) :
    s.errorWritableAndUnblockWrite debug error = .ok (s.stopped error) := unblockWrite_eq _

/-- No operation is in flight on a writable side that is errored. -/
theorem Sides.free (h : Sides s) (he : s.writable.isErrored = true) : s.inFlight = none := by
  by_contra hne
  have hlive := h.live hne
  rw [WritableState.not_isLive_of_isErrored he] at hlive
  cases hlive

/-- The readable side takes no chunks any more, and the writable side is errored and unblocked. -/
theorem Sides.stop (h : Sides s) {side : ReadableState ε} (hreadable : side.isReadable = false)
    (hclosed : s.readable.isClosed = true → side.isClosed = true) (error : ε) :
    Sides ({ s with readable := side }.errorWritableIfNeeded error).unblocked where
  usable := by simp [unblocked, errorWritableIfNeeded]
  blocked := by
    intro hb
    have := h.parked _ hb
    grind [unblocked, errorWritableIfNeeded]
  parked := by
    intro promise hp
    have := h.parked promise hp
    grind [unblocked, errorWritableIfNeeded]
  live := by simpa [unblocked, errorWritableIfNeeded] using h.live
  pulled := by simp [unblocked, errorWritableIfNeeded, hreadable]
  path := by
    intro path hp
    have := h.path path hp
    cases path <;> simp_all [unblocked, errorWritableIfNeeded, Reached]
  settled := fun _ _ => hreadable

/-- The write that waited is not blocked after an unblocking. -/
theorem Sides.not_blocked (h : Sides s) : ¬ s.unblocked.Blocked := by
  intro hb
  have := h.parked _ hb
  grind [unblocked]

/-- The promise changes. -/
theorem Sides.change (h : Sides s) {pulled : ℕ} {backpressure : Bool}
    (hpulled : s.readable.isReadable = true → backpressure = false → pulled = s.promise + 1) :
    Sides { s with
      promise := s.promise + 1
      backpressure := backpressure
      pulled := pulled } where
  usable := h.usable
  blocked := by
    intro hb
    exact absurd (h.parked _ hb).1 (Nat.not_succ_le_self _)
  parked := by
    intro promise hp
    have hle := (h.parked promise hp).1
    exact ⟨by simp only; omega, fun heq => by simp only at heq; omega⟩
  live := h.live
  pulled := hpulled
  path := h.path
  settled := h.settled

/-- Another operation than a close or a write that waits is in flight, or none. -/
theorem Sides.fly (h : Sides s) {o : Option SinkOp} (hclosing : s.inFlight ≠ some .closing)
    (ho : ∀ promise, o ≠ some (.parked promise))
    (hlive : o ≠ none → s.writable.isLive = true) : Sides { s with inFlight := o } where
  usable := by
    intro hw
    have := h.usable hw
    tauto
  blocked := fun hb => absurd hb (ho _)
  parked := fun promise hp => absurd hp (ho promise)
  live := hlive
  pulled := h.pulled
  path := by
    intro path hp
    have := h.path path hp
    cases path with
    | close => exact absurd this hclosing
    | abort reason => exact this
    | cancel reason => exact this
  settled := h.settled

/-- A write waits. -/
theorem Sides.park (h : Sides s) (hwritable : s.writable.isWritable = true)
    (hfree : s.inFlight = none) (hb : s.backpressure = true) (chunk : Option χ) :
    Sides { s with
      pendingWriteChunk := chunk
      inFlight := some (.parked s.promise) } where
  usable := by
    intro hw
    have := h.usable hw
    rw [hfree] at this
    tauto
  blocked := by
    intro _
    have := h.usable hwritable
    rw [hfree] at this
    tauto
  parked := by
    intro promise hp
    cases hp
    exact ⟨le_rfl, fun _ => hb⟩
  live := fun _ => WritableState.isLive_of_isWritable hwritable
  pulled := h.pulled
  path := by
    intro path hp
    have := h.path path hp
    cases path with
    | close => exact absurd (hfree.symm.trans this) (by simp)
    | abort reason => exact this
    | cancel reason => exact this
  settled := h.settled

/-- The finish promise is settled. -/
theorem Sides.conclude (h : Sides s) {side : ReadableState ε} (error : Option ε)
    (hreadable : side.isReadable = false)
    (hwritable : s.writable.isWritable = true → s.inFlight = some .closing) (hb : ¬ s.Blocked) :
    Sides ({ s with readable := side }.settle error) where
  usable := fun hw => .inr (.inr (hwritable hw))
  blocked := fun hb' => absurd hb' hb
  parked := h.parked
  live := h.live
  pulled := fun hr => absurd (hreadable.symm.trans hr) (by simp)
  path := by
    rintro path (hp | hp) <;> cases hp
  settled := fun _ _ => hreadable

/-- The finish promise is made, or its reactions wait. -/
theorem Sides.finishing (h : Sides s) {path : Path ε} (hpath : s.Reached path)
    (hunset : s.finish.isCanceling = false ∨ s.finish = .running path) {finish : Finish ε}
    (hfinish : finish = .running path ∨ finish = .waiting path) :
    Sides { s with finish := finish } where
  usable := by
    intro hw
    have := h.usable hw
    cases path <;> grind [Finish.isCanceling]
  blocked := by
    intro hb
    have := h.blocked hb
    cases path <;> grind [Finish.isCanceling]
  parked := h.parked
  live := h.live
  pulled := h.pulled
  path := by
    intro path' hp
    obtain rfl : path' = path := by grind
    cases path' <;> exact hpath
  settled := by
    rintro error rfl
    rcases hfinish with hf | hf <;> cases hf

theorem sides_finishBy (h : Sides s) {path : Path ε} (hpath : s.Reached path) :
    Sides (s.finishBy path) := by
  rw [Transform.finishBy]
  split
  next hunset =>
    have hcanceling : s.finish.isCanceling = false := by rw [hunset]; rfl
    split
    · exact { h.finishing hpath (.inl hcanceling) (.inl rfl) with }
    · exact { h.finishing hpath (.inl hcanceling) (.inr rfl) with }
  next => exact h

theorem sides_finisherReturns (h : Sides s) : Sides s.finisherReturns := by
  rw [finisherReturns]
  split
  next path hrunning =>
    exact { h.finishing (h.path path (.inl hrunning)) (.inr hrunning) (.inr rfl) with }
  next => exact h

/-- The cancel of a readable side makes the finish promise. -/
theorem Sides.canceling (h : Sides s) {reason : ε} {finish : Finish ε}
    (hfinish : finish = .running (.cancel reason) ∨ finish = .waiting (.cancel reason)) :
    Sides { s with
      readable := .closed
      finish := finish } where
  usable := by
    intro _
    rcases hfinish with rfl | rfl <;> exact .inr (.inl rfl)
  blocked := by
    intro _
    rcases hfinish with rfl | rfl <;> exact .inr rfl
  parked := h.parked
  live := h.live
  pulled := by
    intro hr
    cases hr
  path := by
    intro path hp
    obtain rfl : path = .cancel reason := by grind
    rfl
  settled := by
    rintro error rfl
    rcases hfinish with hf | hf <;> cases hf

/-- A finish promise that was made while chunks could be enqueued is that of the sink. -/
theorem Sides.sink (h : Sides s) (hunset : s.finish ≠ .unset) (hopen : s.readable.isClosed = false)
    (hreadable : s.readable.isReadable = true) :
    s.writable.isErrored = true ∨ s.inFlight = some .closing := by
  have hpath : ∀ path, s.Reached path →
      s.writable.isErrored = true ∨ s.inFlight = some .closing := by
    intro path hp
    cases path with
    | close => exact .inr hp
    | abort reason => exact .inl hp
    | cancel reason => exact absurd (hopen.symm.trans hp) (by simp)
  cases hf : s.finish with
  | unset => exact absurd hf hunset
  | running path => exact hpath path (h.path path (.inl hf))
  | waiting path => exact hpath path (h.path path (.inr hf))
  | settled error => exact absurd (hreadable.symm.trans (h.settled error hf)) (by simp)

/-- The cancel of a readable side finds the finish promise made. -/
theorem Sides.close (h : Sides s) (hunset : s.finish ≠ .unset)
    (hopen : s.readable.isClosed = false) : Sides { s with readable := .closed } where
  -- a finish promise made before the readable side was closed is the sink's, which is closing or
  -- errored: what the readable side vouched for no longer rests on it
  usable := by
    intro hw
    rcases h.usable hw with hr | hrest
    · rcases h.sink hunset hopen hr with he | hc
      · rw [WritableState.not_isErrored_of_isWritable hw] at he
        cases he
      · exact .inr (.inr hc)
    · exact .inr hrest
  blocked := by
    intro hb
    rcases h.blocked hb with hr | hrest
    · rcases h.sink hunset hopen hr with he | hc
      · exact absurd (hb.symm.trans (h.free he)) (by simp)
      · exact absurd (hb.symm.trans hc) (by simp)
    · exact .inr hrest
  parked := h.parked
  live := h.live
  pulled := by
    intro hr
    cases hr
  path := by
    intro path hp
    have := h.path path hp
    cases path with
    | close => exact this
    | abort reason => exact this
    | cancel reason => rfl
  settled := fun _ _ => rfl

theorem sides_cancel (h : Sides s) (hopen : s.readable.isClosed = false) (reason : ε) :
    Sides ({ s with readable := .closed }.sourceCancel reason) := by
  rw [sourceCancel, Transform.finishBy]
  split
  next hunset =>
    split
    · exact { h.canceling (.inl rfl) with }
    · exact { h.canceling (.inr rfl) with }
  next hset => exact h.close hset hopen

/-- The close of the writable side is over. -/
theorem sides_closeSettles (h : Sides s) {error : Option ε} (hfinish : s.finish = .settled error) :
    Sides (s.closeSettles error) where
  usable := by
    intro hw
    simp only [closeSettles] at hw
    split at hw <;> cases hw
  blocked := by
    rintro ⟨⟩
  parked := by
    rintro promise ⟨⟩
  live := fun hne => absurd rfl hne
  pulled := h.pulled
  path := by
    rintro path (hp | hp) <;> cases hfinish.symm.trans hp
  settled := h.settled

/-- A change of the writable side that keeps it live, or ends it when nothing is in flight. -/
theorem Sides.setWritable (h : Sides s) {side : WritableState ε} (hw : side.isWritable = false)
    (hlive : s.inFlight ≠ none → side.isLive = true)
    (herrored : s.writable.isErrored = true → side.isErrored = true) :
    Sides { s with writable := side } where
  usable := fun hw' => absurd (hw.symm.trans hw') (by simp)
  blocked := h.blocked
  parked := h.parked
  live := hlive
  pulled := h.pulled
  path := by
    intro path hp
    have := h.path path hp
    cases path with
    | close => exact this
    | abort reason => exact herrored this
    | cancel reason => exact this
  settled := h.settled

/-- The queue of a readable side that was closing is empty. -/
theorem Sides.drain (h : Sides s) (hclosing : s.readable = .closing) :
    Sides { s with readable := .closed } where
  usable := by simpa [hclosing, ReadableState.isReadable] using h.usable
  blocked := by
    intro hb
    have := h.blocked hb
    simpa [hclosing, ReadableState.isReadable] using this
  parked := h.parked
  live := h.live
  pulled := by
    intro hr
    cases hr
  path := by
    intro path hp
    have := h.path path hp
    cases path with
    | close => exact this
    | abort reason => exact this
    | cancel reason => rfl
  settled := fun _ _ => rfl

/-! ### Changes of the log -/

variable {l : List (Record χ ε)} {r : Record χ ε} {waits : List (Option χ)}

theorem Chunks.quiet (h : Chunks l waits) (hwritten : r.written? = none)
    (hhandled : r.handled? = none) : Chunks (l ++ [r]) waits := by
  rw [Chunks] at h
  rw [Chunks, List.filterMap_append, List.filterMap_append, List.filterMap_cons,
    List.filterMap_cons, hwritten, hhandled]
  simpa using h

theorem Chunks.write (h : Chunks l []) (chunk : χ) :
    Chunks (l ++ [.written chunk]) [some chunk] := by
  rw [Chunks, List.append_nil] at h
  rw [Chunks, List.filterMap_append, List.filterMap_append, h]
  simp [Record.written?, Record.handled?]

theorem Chunks.handle {chunk : Option χ} (h : Chunks l [chunk]) (hwritten : r.written? = none)
    (hhandled : r.handled? = some chunk) : Chunks (l ++ [r]) [] := by
  rw [Chunks] at h
  rw [Chunks, List.filterMap_append, List.filterMap_append, h, List.filterMap_cons,
    List.filterMap_cons, hwritten, hhandled]
  simp

/-- A record that is neither a call nor a settlement nor the clearing. -/
theorem Recorded.record (h : Recorded s) (hr : Allowed s.log r) (hcalled : r.called? = none)
    (hsettled : r.settled? = none) (hcleared : r ≠ .cleared) : Recorded (s.record r) where
  log := h.log.concat hr
  cleared := by
    refine Iff.trans ?_ h.cleared
    simp [Transform.record, hcleared.symm]
  algorithms := h.algorithms
  called := by
    intro hf
    simp [Transform.record, h.called hf, hcalled]
  settled := by
    intro hf
    simp [Transform.record, h.settled hf, hsettled]
  finished := fun path hf => List.mem_append_left _ (h.finished path hf)

theorem Recorded.clear (h : Recorded s) : Recorded s.clearAlgorithms where
  log := h.log.concat trivial
  cleared := by simp [clearAlgorithms, Transform.record]
  algorithms := by
    rintro _ (_ | _ | _) <;> rfl
  called := by
    intro hf
    simp [clearAlgorithms, Transform.record, h.called hf, Record.called?]
  settled := by
    intro hf
    simp [clearAlgorithms, Transform.record, h.settled hf, Record.settled?]
  finished := fun path hf => List.mem_append_left _ (h.finished path hf)

/-- The algorithms are cleared when the promise is waited for. -/
theorem Recorded.wait (h : Recorded s) (hf : ∀ error, s.finish ≠ .settled error)
    (path : Path ε) : Recorded { s.clearAlgorithms with finish := .waiting path } where
  log := h.clear.log
  cleared := h.clear.cleared
  algorithms := h.clear.algorithms
  called := by rintro ⟨⟩
  settled := fun _ => h.clear.settled hf
  finished := fun _ _ => h.clear.cleared.mpr rfl

/-- `flush` or `cancel` is called. -/
theorem Recorded.run (h : Recorded s) (hunset : s.finish = .unset) {path : Path ε}
    (hpath : s.hasAlgorithm path = true) :
    Recorded { s.record (call path) with finish := .running path } := by
  have hcleared : .cleared ∉ s.log := by
    intro hc
    rw [h.algorithms (h.cleared.mp hc) path] at hpath
    cases hpath
  have hsettled : s.log.filterMap Record.settled? = [] := h.settled (by simp [hunset])
  have hcall : (call path : Record χ ε) ≠ .cleared := by cases path <;> simp [call]
  exact {
    log := h.log.concat (by cases path <;> exact ⟨h.called hunset, hsettled, hcleared⟩)
    cleared := by
      refine Iff.trans ?_ h.cleared
      simp [Transform.record, hcall.symm]
    algorithms := h.algorithms
    called := by rintro ⟨⟩
    settled := by
      intro _
      cases path <;> simp [Transform.record, hsettled, call, Record.settled?]
    finished := by rintro _ ⟨⟩ }

theorem recorded_settle (h : Recorded s) {path : Path ε} (hwaiting : s.finish = .waiting path)
    (error : Option ε) : Recorded (s.settle error) where
  log := h.log.concat ⟨h.finished path hwaiting, h.settled (by simp [hwaiting])⟩
  cleared := by
    refine Iff.trans ?_ h.cleared
    simp [Transform.settle, Transform.record]
  algorithms := h.algorithms
  called := by rintro ⟨⟩
  settled := fun hf => absurd rfl (hf error)
  finished := by rintro _ ⟨⟩

theorem chunks_call (h : Chunks l waits) (path : Path ε) : Chunks (l ++ [call path]) waits := by
  cases path <;> exact h.quiet rfl rfl

/-! ### Steps -/

theorem recorded_finishBy (h : Recorded s) (path : Path ε) : Recorded (s.finishBy path) := by
  rw [Transform.finishBy]
  split
  next hunset =>
    split
    next hpath => exact { h.run hunset hpath with }
    next => exact h.wait (by simp [hunset]) path
  next => exact h

theorem chunks_finishBy (h : Chunks s.log s.waiting) (path : Path ε) :
    Chunks (s.finishBy path).log (s.finishBy path).waiting := by
  rw [Transform.finishBy]
  split
  · split
    · exact chunks_call h path
    · exact h.quiet rfl rfl
  · exact h

theorem inv_finisherReturns (h : Inv s) : Inv s.finisherReturns := by
  refine ⟨sides_finisherReturns h.sides, ?_, ?_⟩
  · rw [finisherReturns]
    split
    next path hrunning => exact h.recorded.wait (by simp [hrunning]) path
    next => exact h.recorded
  · rw [finisherReturns]
    split
    · exact h.chunks.quiet rfl rfl
    · exact h.chunks

/-- A chunk goes to the transformer. -/
theorem inv_performTransform (hsides : Sides s) (hrecorded : Recorded s) {chunk : Option χ}
    (hchunks : Chunks s.log [chunk]) (hclosing : s.inFlight ≠ some .closing)
    (hlive : s.writable.isLive = true) : Inv (s.performTransform chunk) := by
  rw [performTransform]
  split
  next hset =>
    have hcleared : .cleared ∉ s.log := by
      rw [hrecorded.cleared, hset]
      simp
    exact {
      sides := { hsides.fly (o := some .transforming) hclosing (by simp) (fun _ => hlive) with }
      recorded := { hrecorded.record (r := .transform chunk) hcleared rfl rfl (by simp) with }
      chunks := hchunks.handle rfl rfl }
  next hset =>
    have hcleared : .cleared ∈ s.log := hrecorded.cleared.mpr (by simpa using hset)
    exact {
      sides := { hsides.fly (o := some .written) hclosing (by simp) (fun _ => hlive) with }
      recorded := { hrecorded.record (r := .skipped chunk) hcleared rfl rfl (by simp) with }
      chunks := hchunks.handle rfl rfl }

theorem WritableState.isWritable_of_isLive {side : WritableState ε} (h : side.isLive = true)
    (herroring : ∀ error, side ≠ .erroring error) : side.isWritable = true := by
  cases side with
  | writable => rfl
  | erroring error => exact absurd rfl (herroring error)
  | errored error => cases h
  | closed => cases h

/-- A state that differs in what neither the log nor the writes know of. -/
theorem Inv.of_sides (h : Inv s) {t : Transform χ ε} (hsides : Sides t)
    (hrecorded : Recorded s → Recorded t) (hlog : t.log = s.log)
    (hwaiting : t.waiting = s.waiting) : Inv t :=
  ⟨hsides, hrecorded h.recorded, hlog ▸ hwaiting ▸ h.chunks⟩

theorem waiting_of_free (h : s.inFlight = none) : s.waiting = [] := by
  rw [waiting, h]

theorem inv_sinkWrite (h : Inv s) (hwritable : s.writable.isWritable = true)
    (hfree : s.inFlight = none) (chunk : χ) {E : Site → Prop} :
    (s.sinkWrite debug chunk).Sat Inv Inv E := by
  have hchunks : Chunks s.log [] := waiting_of_free hfree ▸ h.chunks
  have hrecorded : Recorded (s.record (.written chunk)) :=
    h.recorded.record trivial rfl rfl (by simp)
  have hsides : Sides (s.record (.written chunk)) := { h.sides with }
  simp only [sinkWrite, check, hwritable, Bool.or_true, Outcome.guard_true, Outcome.ok_bind]
  split
  next hb =>
    exact {
      sides := hsides.park hwritable hfree hb (some chunk)
      recorded := { hrecorded with }
      chunks := hchunks.write chunk }
  next =>
    refine inv_performTransform hsides hrecorded (hchunks.write chunk) ?_
      (WritableState.isLive_of_isWritable hwritable)
    show s.inFlight ≠ _
    simp [hfree]

theorem inv_sinkWriteAfterBackpressure (h : Inv s) {promise : ℕ}
    (hparked : s.inFlight = some (.parked promise)) {E : Site → Prop} :
    (s.sinkWriteAfterBackpressure debug).Sat Inv Inv E := by
  have hlive : s.writable.isLive = true := h.sides.live (by simp [hparked])
  have hchunks : Chunks s.log [s.pendingWriteChunk] := by
    have hwaiting : s.waiting = [s.pendingWriteChunk] := by rw [waiting, hparked]
    exact hwaiting ▸ h.chunks
  have hsides : Sides { s with pendingWriteChunk := none } := { h.sides with }
  have hrecorded : Recorded { s with pendingWriteChunk := none } := { h.recorded with }
  rw [sinkWriteAfterBackpressure]
  split
  next error herroring =>
    exact {
      sides := { hsides.fly (o := some .written) (by simp [hparked]) (by simp)
        (fun _ => hlive) with }
      recorded := {
        hrecorded.record (r := .refused s.pendingWriteChunk) trivial rfl rfl (by simp) with }
      chunks := hchunks.handle rfl rfl }
  next hother =>
    have hwritable : s.writable.isWritable = true :=
      WritableState.isWritable_of_isLive hlive hother
    simp only [check, hwritable, Bool.or_true, Outcome.guard_true, Outcome.ok_bind]
    exact inv_performTransform hsides hrecorded hchunks (by simp [hparked]) hlive

theorem recorded_stopped (h : Recorded s) (error : ε) : Recorded (s.stopped error) :=
  { h.clear with }

theorem chunks_stopped (h : Chunks s.log s.waiting) (error : ε) :
    Chunks (s.stopped error).log (s.stopped error).waiting := h.quiet rfl rfl

theorem inv_stopped (h : Inv s) {side : ReadableState ε} (hreadable : side.isReadable = false)
    (hclosed : s.readable.isClosed = true → side.isClosed = true) (error : ε) :
    Inv (Transform.stopped { s with readable := side } error) where
  sides := { h.sides.stop hreadable hclosed error with }
  recorded := recorded_stopped (s := { s with readable := side }) { h.recorded with } error
  chunks := chunks_stopped (s := { s with readable := side }) h.chunks error

theorem inv_error (h : Inv s) (error : ε) {E : Site → Prop} :
    (s.error debug error).Sat Inv Inv E := by
  rw [Transform.error, errorWritableAndUnblockWrite_eq]
  exact inv_stopped h (by simp) (by simp) error

theorem inv_terminate (h : Inv s) (terminated : ε) (drained : Bool) {E : Site → Prop} :
    (s.terminate debug terminated drained).Sat Inv Inv E := by
  rw [Transform.terminate, errorWritableAndUnblockWrite_eq]
  exact inv_stopped h (by simp) (fun hc => ReadableState.isClosed_close _ _ hc) terminated

theorem inv_transformSettles (h : Inv s) (hflight : s.inFlight = some .transforming)
    (error : Option ε) {E : Site → Prop} : (s.transformSettles debug error).Sat Inv Inv E := by
  have hland : ∀ t : Transform χ ε, Inv t → t.inFlight = s.inFlight →
      Inv { t with inFlight := some .written } := by
    intro t ht heq
    rw [hflight] at heq
    have hwaiting : t.waiting = [] := by rw [waiting, heq]
    have hlive : t.writable.isLive = true := ht.sides.live (by simp [heq])
    refine ht.of_sides (ht.sides.fly (by simp [heq]) (by simp) fun _ => hlive)
      (fun hr => { hr with }) rfl ?_
    rw [hwaiting]
    rfl
  cases error with
  | none => exact hland s h rfl
  | some error =>
    simp only [Transform.transformSettles, Option.elim, Transform.error,
      errorWritableAndUnblockWrite_eq, Outcome.ok_bind]
    exact hland _ (inv_stopped h (by simp) (by simp) error) rfl

theorem inv_conclude (h : Inv s) {path : Path ε} (hwaiting : s.finish = .waiting path)
    {side : ReadableState ε} (error : Option ε) (hreadable : side.isReadable = false)
    (hwritable : s.writable.isWritable = true → s.inFlight = some .closing) (hb : ¬ s.Blocked) :
    Inv (Transform.settle { s with readable := side } error) where
  sides := h.sides.conclude error hreadable hwritable hb
  recorded := recorded_settle (s := { s with readable := side }) { h.recorded with } hwaiting error
  chunks := h.chunks.quiet rfl rfl

/-- The cancel's promise is settled, and with it the finish promise. -/
theorem inv_unblock_settle (h : Inv s) {reason : ε}
    (hwaiting : s.finish = .waiting (.cancel reason)) (error : ε) (result : Option ε) :
    Inv ((s.errorWritableIfNeeded error).unblocked.settle result) := by
  have hclosed : s.readable.isClosed = true := h.sides.path _ (.inr hwaiting)
  have hreadable := ReadableState.isReadable_of_isClosed _ hclosed
  have hinv : Inv (s.errorWritableIfNeeded error).unblocked :=
    ⟨h.sides.stop hreadable id error, { h.recorded with }, h.chunks⟩
  exact inv_conclude hinv hwaiting result hreadable
    (fun hw => absurd hw (by simp [unblocked, errorWritableIfNeeded])) h.sides.not_blocked

/-- On a path of the sink no write can come or wait. -/
theorem Sides.sunk (h : Sides s) {path : Path ε} (hpath : s.Reached path)
    (hsink : ∀ reason, path ≠ .cancel reason) :
    (s.writable.isWritable = true → s.inFlight = some .closing) ∧ ¬ s.Blocked := by
  cases path with
  | close =>
    refine ⟨fun _ => hpath, fun hb => ?_⟩
    exact absurd (hb.symm.trans hpath) (by simp)
  | abort reason =>
    refine ⟨fun hw => ?_, fun hb => absurd (hb.symm.trans (h.free hpath)) (by simp)⟩
    exact absurd ((WritableState.not_isErrored_of_isWritable hw).symm.trans hpath) (by simp)
  | cancel reason => exact absurd rfl (hsink reason)

theorem isReadable_of_errored {error : ε} (h : s.readable = .errored error) :
    s.readable.isReadable = false := by
  rw [h]
  rfl

theorem inv_finisherSettles (h : Inv s) {path : Path ε} (hwaiting : s.finish = .waiting path)
    (drained : Bool) (error : Option ε) {E : Site → Prop} :
    (s.finisherSettles debug drained path error).Sat Inv Inv E := by
  have hpath := h.sides.path path (.inr hwaiting)
  cases path with
  | close =>
    -- the sink's algorithm was called with no write left, so none waits for a change
    obtain ⟨hwritable, hb⟩ := h.sides.sunk hpath (by simp)
    cases error with
    | none =>
      simp only [Transform.finisherSettles, sinkCloseFulfilled]
      split
      next hr => exact inv_conclude h hwaiting _ (isReadable_of_errored hr) hwritable hb
      next => exact inv_conclude h hwaiting _ (by simp) hwritable hb
    | some error => exact inv_conclude h hwaiting _ (by simp) hwritable hb
  | abort reason =>
    obtain ⟨hwritable, hb⟩ := h.sides.sunk hpath (by simp)
    cases error with
    | none =>
      simp only [Transform.finisherSettles, sinkAbortFulfilled]
      split
      next hr => exact inv_conclude h hwaiting _ (isReadable_of_errored hr) hwritable hb
      next => exact inv_conclude h hwaiting _ (by simp) hwritable hb
    | some error => exact inv_conclude h hwaiting _ (by simp) hwritable hb
  | cancel reason =>
    -- the cancel closed the readable side, and a write may wait: the path ends by unblocking it
    cases error with
    | none =>
      simp only [Transform.finisherSettles, sourceCancelFulfilled]
      split
      next error he =>
        have herrored : s.writable.isErrored = true := by rw [he]; rfl
        refine inv_conclude h hwaiting _ (ReadableState.isReadable_of_isClosed _ hpath) ?_ ?_
        · rw [he]
          rintro ⟨⟩
        · exact fun hb => absurd (hb.symm.trans (h.sides.free herrored)) (by simp)
      next =>
        rw [unblockWrite_eq, Outcome.ok_bind]
        exact inv_unblock_settle h hwaiting _ _
    | some error =>
      simp only [Transform.finisherSettles, sourceCancelRejected, unblockWrite_eq, Outcome.ok_bind]
      exact inv_unblock_settle h hwaiting _ _

/-- The assertion that can fail, in a build that checks it. -/
abbrev Fails (debug : Bool) (site : Site) : Prop := site = .enqueue ∧ debug = true

theorem inv_enqueueReturns (h : Inv s) (full : Bool) (error : Option ε) :
    (s.enqueueReturns debug full error).Sat Inv Inv (Fails debug) := by
  cases error with
  | some error =>
    rw [Transform.enqueueReturns, errorWritableAndUnblockWrite_eq]
    exact inv_stopped h (by simp) (by simp) error
  | none =>
    rw [Transform.enqueueReturns]
    split
    next hchanged =>
      simp only [check, setBackpressure, Outcome.sat_bind, Outcome.sat_guard]
      refine ⟨fun hfull => ⟨fun _ => ?_, fun hb => ?_⟩, fun hfull => ?_⟩
      · exact ⟨h.sides.change (by simp), { h.recorded with }, h.chunks⟩
      · -- The new value was checked, and it is not the old one.
        exfalso
        revert hfull hb hchanged
        generalize s.hasBackpressure full = full'
        cases debug <;> cases s.backpressure <;> cases full' <;> simp
      · exact ⟨rfl, by simpa using (Bool.or_eq_false_iff.mp hfull).1⟩
    next => exact h

theorem inv_sourcePull (h : Inv s) (hreadable : s.readable.isReadable = true)
    (hpulled : s.pulled < s.promise) {E : Site → Prop} :
    (s.sourcePull debug).Sat Inv Inv E := by
  have hb : s.backpressure = true := by
    by_contra hb
    have heq := h.sides.pulled hreadable (by simpa using hb)
    omega
  simp only [sourcePull, setBackpressure, check, hb, Bool.or_true, Outcome.guard_true,
    Outcome.ok_bind, Bool.bne_false]
  exact ⟨h.sides.change fun _ _ => rfl, { h.recorded with }, h.chunks⟩

/-- A close is in flight. -/
theorem Sides.closing (h : Sides s) (hwritable : s.writable.isWritable = true) :
    Sides { s with inFlight := some .closing } where
  usable := fun _ => .inr (.inr rfl)
  blocked := by rintro ⟨⟩
  parked := by rintro _ ⟨⟩
  live := fun _ => WritableState.isLive_of_isWritable hwritable
  pulled := h.pulled
  path := by
    intro path hp
    have := h.path path hp
    cases path with
    | close => rfl
    | abort reason => exact this
    | cancel reason => exact this
  settled := h.settled

theorem inv_close (h : Inv s) (hwritable : s.writable.isWritable = true)
    (hfree : s.inFlight = none) :
    Inv (Transform.sinkClose { s with inFlight := some .closing }) where
  sides := sides_finishBy (h.sides.closing hwritable) rfl
  recorded := recorded_finishBy (s := { s with inFlight := some .closing }) { h.recorded with } _
  chunks := by
    have hchunks : Chunks s.log [] := waiting_of_free hfree ▸ h.chunks
    exact chunks_finishBy (s := { s with inFlight := some .closing }) hchunks _

theorem inv_cancel (h : Inv s) (hopen : s.readable.isClosed = false) (reason : ε) :
    Inv (Transform.sourceCancel { s with readable := .closed } reason) where
  sides := sides_cancel h.sides hopen reason
  recorded := recorded_finishBy (s := { s with readable := .closed }) { h.recorded with } _
  chunks := chunks_finishBy (s := { s with readable := .closed }) h.chunks _

/-- The readable side is errored when no write can come any more. -/
theorem Sides.startRejected (h : Sides s) (hwritable : s.writable.isWritable = false)
    (hfree : s.inFlight = none) (error : ε) : Sides (s.errorReadable error) where
  usable := fun hw => absurd (hwritable.symm.trans hw) (by simp)
  blocked := fun hb => absurd (hfree.symm.trans hb) (by simp)
  parked := h.parked
  live := h.live
  pulled := by simp [errorReadable]
  path := by
    intro path hp
    have := h.path path hp
    cases path with
    | close => exact this
    | abort reason => exact this
    | cancel reason => exact (ReadableState.isClosed_error _ _).trans this
  settled := fun _ _ => ReadableState.isReadable_error _ _

theorem sat_step (h : Inv s) (terminated : ε) (e : TransformEvent χ ε) :
    (s.step debug terminated e).Sat Inv Inv (Fails debug) := by
  cases e with
  -- what the writable side does
  | write chunk =>
    rw [step]
    split
    next hready =>
      rw [Bool.and_eq_true, Option.isNone_iff_eq_none] at hready
      exact inv_sinkWrite h hready.1 hready.2 chunk
    next => exact h
  | afterBackpressure =>
    simp only [step]
    split
    next hparked =>
      split
      · exact inv_sinkWriteAfterBackpressure h hparked
      · exact h
    next => exact h
  | returns full error =>
    -- author code returns to the call on top of the stack
    rw [step]
    split
    · exact h
    next stack _ => exact ⟨{ h.sides with }, { h.recorded with }, h.chunks⟩
    next stack _ =>
      exact inv_finisherReturns (s := { s with stack := stack })
        ⟨{ h.sides with }, { h.recorded with }, h.chunks⟩
    next stack _ =>
      exact inv_enqueueReturns (s := { s with stack := stack })
        ⟨{ h.sides with }, { h.recorded with }, h.chunks⟩ full error
  | transformSettles error =>
    rw [step]
    split
    next hflight => exact inv_transformSettles h hflight error
    next => exact h
  | writeSettles =>
    rw [step]
    split
    next hflight =>
      have hwaiting : s.waiting = [] := by rw [waiting, hflight]
      refine h.of_sides (h.sides.fly (by simp [hflight]) (by simp) (by simp))
        (fun hr => { hr with }) rfl ?_
      rw [hwaiting]
      rfl
    next => exact h
  | close =>
    -- a close, like a write, starts with nothing in flight
    rw [step]
    split
    next hready =>
      rw [Bool.and_eq_true, Option.isNone_iff_eq_none] at hready
      exact inv_close h hready.1 hready.2
    next => exact h
  | closeSettles =>
    rw [step]
    split
    next error _ hflight hfinish =>
      have hwaiting : s.waiting = [] := by rw [waiting, hflight]
      refine h.of_sides (sides_closeSettles h.sides hfinish) (fun hr => { hr with }) rfl ?_
      rw [hwaiting]
      rfl
    next => exact h
  | abort reason =>
    simp only [step]
    split
    next herrored =>
      exact ⟨sides_finishBy h.sides herrored, recorded_finishBy h.recorded _,
        chunks_finishBy h.chunks _⟩
    next => exact h
  | writableErrs error =>
    exact ⟨h.sides.setWritable (by simp) (by simpa using h.sides.live) (by simp),
      { h.recorded with }, h.chunks⟩
  | writableErrored =>
    -- a writable side becomes errored only when no operation of it is in flight
    rw [step]
    split
    next error _ _ hfree =>
      exact ⟨h.sides.setWritable rfl (fun hne => absurd hfree hne) (fun _ => rfl),
        { h.recorded with }, h.chunks⟩
    next => exact h
  -- what the readable side does
  | cancel reason =>
    rw [step]
    split
    next hr => exact inv_cancel h (by rw [hr]; rfl) reason
    next hr => exact inv_cancel h (by rw [hr]; rfl) reason
    next => exact h
  | drains =>
    rw [step]
    split
    next hclosing => exact ⟨h.sides.drain hclosing, { h.recorded with }, h.chunks⟩
    next => exact h
  | pull =>
    rw [step]
    split
    next hready =>
      rw [Bool.and_eq_true, decide_eq_true_eq] at hready
      exact inv_sourcePull h hready.1 hready.2
    next => exact h
  | finisherSettles drained error =>
    rw [step]
    split
    next path _ hwaiting => exact inv_finisherSettles h hwaiting drained error
    next => exact h
  -- the calls of the controller
  | enqueue =>
    simp only [step, Transform.enqueue]
    split
    · exact ⟨{ h.sides with }, { h.recorded with }, h.chunks⟩
    · exact h
  | error error => exact inv_error h error
  | terminate drained => exact inv_terminate h terminated drained
  | startRejected error =>
    simp only [step]
    split
    next hready =>
      rw [Bool.and_eq_true, Bool.not_eq_true', Option.isNone_iff_eq_none] at hready
      exact ⟨h.sides.startRejected hready.1 hready.2 error, { h.recorded with }, h.chunks⟩
    next => exact h

theorem inv_new (flush cancel : Bool) : Inv (.new flush cancel : Transform χ ε) where
  sides := {
    usable := fun _ => .inl rfl
    blocked := by rintro ⟨⟩
    parked := by rintro _ ⟨⟩
    live := fun hne => absurd rfl hne
    pulled := by rintro _ ⟨⟩
    path := by rintro _ (⟨⟨⟩⟩ | ⟨⟨⟩⟩)
    settled := by rintro _ ⟨⟩ }
  recorded := {
    log := Protocol.kept_nil
    cleared := by simp [new]
    algorithms := by rintro ⟨⟩
    called := fun _ => rfl
    settled := fun _ => rfl
    finished := by rintro _ ⟨⟩ }
  chunks := rfl

theorem Inv.finishes (h : Inv s) : s.Finishes where
  log := h.recorded.log
  chunks := h.chunks
  blocked := h.sides.blocked
  settled := by
    intro error hf
    have hreadable := h.sides.settled error hf
    have hcanceling : s.finish.isCanceling = false := by rw [hf]; rfl
    refine ⟨hreadable, fun hw => ?_, fun hb => ?_⟩
    · have := h.sides.usable hw
      rw [hreadable, hcanceling] at this
      simpa using this
    · have := h.sides.blocked hb
      rw [hreadable, hcanceling] at this
      simp at this

/-! ### What a step records -/

/-- No chunk leaves the writable side. -/
def Spares (s t : Transform χ ε) : Prop :=
  ∃ l, t.log = s.log ++ l ∧ ∀ r ∈ l, Record.handled? r = none

theorem Spares.adds {t : Transform χ ε} (h : Spares s t) : Adds s t := by
  obtain ⟨l, hlog, hl⟩ := h
  refine ⟨l, hlog, fun r hr => ?_⟩
  have hnone := hl r hr
  cases r with
  | transform chunk => cases hnone
  | skipped chunk => cases hnone
  | refused chunk => cases hnone
  | _ => trivial

theorem spares_of_log {t : Transform χ ε} (h : t.log = s.log) : Spares s t :=
  ⟨[], by rw [h, List.append_nil], by simp⟩

theorem spares_record {r : Record χ ε} (hr : r.handled? = none) : Spares s (s.record r) :=
  ⟨[r], rfl, by simpa using hr⟩

theorem spares_finishBy (s : Transform χ ε) (path : Path ε) : Spares s (s.finishBy path) := by
  rw [Transform.finishBy]
  split
  · split
    · cases path <;> exact spares_record rfl
    · exact spares_record rfl
  · exact spares_of_log rfl

theorem spares_finisherReturns (s : Transform χ ε) : Spares s s.finisherReturns := by
  rw [finisherReturns]
  split
  · exact spares_record rfl
  · exact spares_of_log rfl

theorem spares_finisherSettles (s : Transform χ ε) (drained : Bool) (path : Path ε)
    (error : Option ε) :
    (s.finisherSettles debug drained path error).Sat (Spares s) (Spares s) fun _ => True := by
  cases path with
  | close =>
    cases error with
    | none =>
      simp only [Transform.finisherSettles, sinkCloseFulfilled]
      split <;> exact spares_record rfl
    | some error => exact spares_record rfl
  | abort reason =>
    cases error with
    | none =>
      simp only [Transform.finisherSettles, sinkAbortFulfilled]
      split <;> exact spares_record rfl
    | some error => exact spares_record rfl
  | cancel reason =>
    cases error with
    | none =>
      simp only [Transform.finisherSettles, sourceCancelFulfilled]
      split
      · exact spares_record rfl
      · rw [unblockWrite_eq, Outcome.ok_bind]
        exact spares_record rfl
    | some error =>
      simp only [Transform.finisherSettles, sourceCancelRejected, unblockWrite_eq, Outcome.ok_bind]
      exact spares_record rfl

theorem spares_setBackpressure (s : Transform χ ε) (backpressure : Bool) :
    (s.setBackpressure debug backpressure).Sat (Spares s) (Spares s) fun _ => True := by
  simp only [setBackpressure, check, Outcome.sat_bind, Outcome.sat_guard]
  exact ⟨fun _ => spares_of_log rfl, fun _ => trivial⟩

theorem spares_enqueueReturns (s : Transform χ ε) (full : Bool) (error : Option ε) :
    (s.enqueueReturns debug full error).Sat (Spares s) (Spares s) fun _ => True := by
  cases error with
  | some error =>
    rw [Transform.enqueueReturns, errorWritableAndUnblockWrite_eq]
    exact spares_record rfl
  | none =>
    rw [Transform.enqueueReturns]
    split
    · simp only [check, Outcome.sat_bind, Outcome.sat_guard]
      exact ⟨fun _ => spares_setBackpressure s true, fun _ => trivial⟩
    · exact spares_of_log rfl

/-- The chunk of a write goes to the transformer at once, or it waits. -/
theorem adds_sinkWrite (hwritable : s.writable.isWritable = true) (chunk : χ) :
    (s.sinkWrite debug chunk).Sat (Adds s) (Adds s) fun _ => True := by
  simp only [sinkWrite, check, hwritable, Bool.or_true, Outcome.guard_true, Outcome.ok_bind]
  split
  · exact Spares.adds (spares_record rfl)
  · rw [performTransform]
    split
    · exact ⟨[.written chunk, .transform (some chunk)], List.append_assoc _ _ _,
        by simp [Sees, hwritable]⟩
    · exact ⟨[.written chunk, .skipped (some chunk)], List.append_assoc _ _ _,
        by simp [Sees, hwritable]⟩

/-- A chunk that waited is dropped if the writable side is erroring, and only then. -/
theorem adds_sinkWriteAfterBackpressure (hlive : s.writable.isLive = true) :
    (s.sinkWriteAfterBackpressure debug).Sat (Adds s) (Adds s) fun _ => True := by
  rw [sinkWriteAfterBackpressure]
  split
  next error herroring =>
    exact ⟨[.refused s.pendingWriteChunk], rfl, by simp [Sees, show s.writable = _ from herroring]⟩
  next hother =>
    have hwritable : s.writable.isWritable = true :=
      WritableState.isWritable_of_isLive hlive hother
    simp only [check, hwritable, Bool.or_true, Outcome.guard_true, Outcome.ok_bind]
    rw [performTransform]
    split
    · exact ⟨[.transform s.pendingWriteChunk], rfl, by simp [Sees, hwritable]⟩
    · exact ⟨[.skipped s.pendingWriteChunk], rfl, by simp [Sees, hwritable]⟩

theorem adds_step (h : Inv s) (terminated : ε) (e : TransformEvent χ ε) :
    (s.step debug terminated e).Sat (Adds s) (Adds s) fun _ => True := by
  have hsame : ∀ t : Transform χ ε, t.log = s.log → Adds s t := fun t ht => (spares_of_log ht).adds
  have hspares : ∀ x : Steps χ ε (Transform χ ε), x.Sat (Spares s) (Spares s) (fun _ => True) →
      x.Sat (Adds s) (Adds s) fun _ => True :=
    fun x hx => hx.mono (fun _ => Spares.adds) (fun _ => Spares.adds) fun _ => id
  cases e with
  -- the two events in which a chunk leaves the writable side
  | write chunk =>
    rw [step]
    split
    next hready => exact adds_sinkWrite (Bool.and_eq_true_iff.mp hready).1 chunk
    next => exact hsame _ rfl
  | afterBackpressure =>
    simp only [step]
    split
    next hparked =>
      split
      · exact adds_sinkWriteAfterBackpressure (h.sides.live (by simp [hparked]))
      · exact hsame _ rfl
    next => exact hsame _ rfl
  -- what the author's code and its promises do
  | returns full error =>
    rw [step]
    split
    · exact hsame _ rfl
    · exact hsame _ rfl
    next stack _ => exact (spares_finisherReturns { s with stack := stack }).adds
    next stack _ => exact hspares _ (spares_enqueueReturns { s with stack := stack } full error)
  | transformSettles error =>
    rw [step]
    split
    · cases error with
      | none => exact hsame _ rfl
      | some error =>
        simp only [Transform.transformSettles, Option.elim, Transform.error,
          errorWritableAndUnblockWrite_eq, Outcome.ok_bind]
        exact Spares.adds (spares_record rfl)
    · exact hsame _ rfl
  | finisherSettles drained error =>
    rw [step]
    split
    · exact hspares _ (spares_finisherSettles s drained _ error)
    · exact hsame _ rfl
  | enqueue =>
    simp only [step, Transform.enqueue]
    split <;> exact hsame _ rfl
  | error error =>
    rw [step, Transform.error, errorWritableAndUnblockWrite_eq]
    exact Spares.adds (spares_record rfl)
  | terminate drained =>
    rw [step, Transform.terminate, errorWritableAndUnblockWrite_eq]
    exact Spares.adds (spares_record rfl)
  -- what the two sides do
  | writeSettles =>
    rw [step]
    split <;> exact hsame _ rfl
  | close =>
    rw [step]
    split
    · exact (spares_finishBy { s with inFlight := some .closing } .close).adds
    · exact hsame _ rfl
  | closeSettles =>
    rw [step]
    split <;> exact hsame _ rfl
  | abort reason =>
    simp only [step]
    split
    · exact (spares_finishBy s (.abort reason)).adds
    · exact hsame _ rfl
  | writableErrs error => exact hsame _ rfl
  | writableErrored =>
    rw [step]
    split <;> exact hsame _ rfl
  | cancel reason =>
    rw [step]
    split
    · exact (spares_finishBy { s with readable := .closed } (.cancel reason)).adds
    · exact (spares_finishBy { s with readable := .closed } (.cancel reason)).adds
    · exact hsame _ rfl
  | drains =>
    rw [step]
    split <;> exact hsame _ rfl
  | pull =>
    rw [step]
    split
    · simp only [sourcePull, setBackpressure, check, Outcome.sat_bind, Outcome.sat_guard]
      exact ⟨fun _ => ⟨fun _ => hsame _ rfl, fun _ => trivial⟩, fun _ => trivial⟩
    · exact hsame _ rfl
  | startRejected error =>
    simp only [step]
    split <;> exact hsame _ rfl

/-! ### Runs -/

/-- **A transform stream**, whatever the two streams and the author's code do with it. A chunk is
dropped only while the writable side is erroring, or without a transform once the algorithms are
cleared. The only assertion that can fail is the one of an enqueue, in a build that checks it. -/
theorem finishes_of_run {terminated : ε} {flush cancel : Bool}
    (hrun : (machine χ debug terminated).Run (.new flush cancel) s) :
    s.Finishes ∧ (∀ e t, s.step debug terminated e = .ok t → s.Adds t) ∧
      ∀ e site, s.step debug terminated e = .panic site → site = .enqueue ∧ debug = true := by
  have hinv : Inv s :=
    hrun.inv_of_sat (inv_new flush cancel) fun _ e hs _ => sat_step hs terminated e
  refine ⟨hinv.finishes, fun e t hstep => ?_, fun e site hpanic => ?_⟩
  · have hadds : (s.step debug terminated e).Sat (Adds s) (Adds s) fun _ => True :=
      adds_step hinv terminated e
    rw [hstep] at hadds
    exact hadds
  · have hsat : (s.step debug terminated e).Sat Inv Inv (Fails debug) :=
      sat_step hinv terminated e
    rw [hpanic] at hsat
    exact hsat

/-- An enqueue after one that changed the backpressure, before the readable side pulls again. -/
example : (machine ℕ true 0).exec (.new false false)
    [.pull, .enqueue, .returns true none, .enqueue, .returns false none] = none := rfl

/-- A write that waits for a pull, a close, and the flush; and a write that waits until the
controller is errored. -/
theorem finishes_of_run_closed :
    (∃ s : Transform ℕ ℕ, s.finish = .settled none ∧ s.writable = .closed ∧
      .transform (some 7) ∈ s.log ∧ s.Finishes) ∧
    ∃ s : Transform ℕ ℕ, s.log = [.written 7, .cleared, .refused (some 7)] ∧ s.Finishes := by
  obtain ⟨s, hrun, hs⟩ := Machine.exists_run_of_exec (M := machine ℕ true 0)
    (s := .new true true)
    [.write 7, .pull, .afterBackpressure, .enqueue, .returns true none, .returns true none,
      .transformSettles none, .writeSettles, .close, .returns true none,
      .finisherSettles true none, .closeSettles]
    (P := fun s => s.finish = .settled none ∧ s.writable = .closed ∧
      .transform (some 7) ∈ s.log) (by rfl)
  obtain ⟨t, hrun', ht⟩ := Machine.exists_run_of_exec (M := machine ℕ true 0)
    (s := .new true true) [.write 7, .error 3, .afterBackpressure]
    (P := fun s => s.log = [.written 7, .cleared, .refused (some 7)]) (by rfl)
  obtain ⟨hfinish, hwritable, htransform⟩ := of_decide_eq_true hs
  exact ⟨⟨s, hfinish, hwritable, htransform, (finishes_of_run hrun).1⟩,
    t, of_decide_eq_true ht, (finishes_of_run hrun').1⟩

end Transform

end WebStreams.Transforming
