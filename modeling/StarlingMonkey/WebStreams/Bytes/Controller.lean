import StarlingMonkey.WebStreams.Bytes.State

/-!
# The algorithms of the readable byte stream controller

The functions of `readable/algorithms.rs` that act on a byte stream, in the order they need each
other. A source name `readable_byte_stream_controller_x` is shortened to `controllerX`, and
`readable_stream_x` to `streamX`. Every function takes the environment and the state and returns
the state it leaves behind; `Err` becomes `Outcome.threw`, a failed `debug_assert!` or `expect`
`Outcome.panic`.
-/

namespace WebStreams

namespace ByteStream

/-! ### Readers and requests -/

/-- `stream_default_reader`: the read requests of a default reader that holds the lock. -/
def readRequests (s : ByteStream) : Option (List ℕ) :=
  match s.reader with
  | some (.default rs) => some rs
  | _ => none

/-- `stream_byob_reader`: the read-into requests of a BYOB reader that holds the lock. -/
def readIntoRequests (s : ByteStream) : Option (List ℕ) :=
  match s.reader with
  | some (.byob rs) => some rs
  | _ => none

/-- `readable_stream_has_default_reader`. -/
def hasDefaultReader (s : ByteStream) : Bool := s.readRequests.isSome

/-- `readable_stream_has_byob_reader`. -/
def hasByobReader (s : ByteStream) : Bool := s.readIntoRequests.isSome

/-- `readable_stream_get_num_read_requests`. -/
def getNumReadRequests (s : ByteStream) : ByteOutcome ℕ :=
  Outcome.expect (s.readRequests.map List.length) (.expectation .getNumReadRequests)

/-- `readable_stream_get_num_read_into_requests`. -/
def getNumReadIntoRequests (s : ByteStream) : ByteOutcome ℕ :=
  Outcome.expect (s.readIntoRequests.map List.length) (.expectation .getNumReadIntoRequests)

/-- Perform the chunk, close or error steps of request `r`. -/
def settle (env : Env) (s : ByteStream) (r : ℕ) (o : Settlement) : ByteOutcome ByteStream :=
  callOut (env.steps r { s with settled := s.settled ++ [(r, o)] })

/-- `settle_request_snapshot`: settle the requests of a snapshot, front to back. -/
def settleRequestSnapshot (env : Env) (o : Settlement) :
    ByteStream → List ℕ → ByteOutcome ByteStream
  | s, [] => pure s
  | s, r :: rs => do settleRequestSnapshot env o (← s.settle env r o) rs

/-- `readable_stream_add_read_request`. -/
def addReadRequest (s : ByteStream) (r : ℕ) : ByteOutcome ByteStream :=
  match s.reader with
  | some (.default rs) => pure { s with reader := some (.default (rs ++ [r])) }
  | _ => .panic (.expectation .addReadRequest)

/-- `readable_stream_add_read_into_request`. -/
def addReadIntoRequest (env : Env) (s : ByteStream) (r : ℕ) : ByteOutcome ByteStream :=
  match s.reader with
  | some (.byob rs) => do
    env.assert (s.state = .readable || s.state = .closed) .addReadIntoRequest
    pure { s with reader := some (.byob (rs ++ [r])) }
  | _ => .panic (.expectation .addReadIntoRequest)

/-- `readable_stream_fulfill_read_request`. -/
def fulfillReadRequest (env : Env) (s : ByteStream) (view : ArrayBufferView) (done : Bool) :
    ByteOutcome ByteStream :=
  match s.reader with
  | some (.default []) => do
    env.assert false .fulfillReadRequest
    .panic (.expectation .fulfillReadRequest)
  | some (.default (r :: rs)) =>
    settle env { s with reader := some (.default rs) } r
      (if done then .close none else .chunk view)
  | _ => .panic (.expectation .fulfillReadRequest)

/-- `readable_stream_fulfill_read_into_request`. -/
def fulfillReadIntoRequest (env : Env) (s : ByteStream) (view : ArrayBufferView) (done : Bool) :
    ByteOutcome ByteStream := do
  env.assert s.hasByobReader .fulfillReadIntoRequest
  match s.reader with
  | some (.byob []) => do
    env.assert false .fulfillReadIntoRequest
    .panic (.expectation .fulfillReadIntoRequest)
  | some (.byob (r :: rs)) =>
    settle env { s with reader := some (.byob rs) } r
      (if done then .close (some view) else .chunk view)
  | _ => .panic (.expectation .fulfillReadIntoRequest)

/-- `readable_stream_close`. -/
def streamClose (env : Env) (s : ByteStream) : ByteOutcome ByteStream := do
  env.assert (s.state = .readable) .streamClose
  let s := { s with state := .closed }
  match s.reader with
  | some (.default rs) =>
    settleRequestSnapshot env (.close none) { s with reader := some (.default []) } rs
  | _ => pure s

/-- `readable_stream_error`: the requests of the reader, of either kind, are errored. -/
def streamError (env : Env) (s : ByteStream) (e : JsError) : ByteOutcome ByteStream := do
  env.assert (s.state = .readable) .streamError
  let s := { s with state := .errored, storedError := some e }
  match s.reader with
  | none => pure s
  | some (.default rs) =>
    settleRequestSnapshot env (.error e) { s with reader := some (.default []) } rs
  | some (.byob rs) =>
    settleRequestSnapshot env (.error e) { s with reader := some (.byob []) } rs

/-! ### Pulling -/

/-- Whether `strategyHWM - queueTotalSize` is positive. -/
def hasCapacity (s : ByteStream) : Bool :=
  match s.strategyHwm with
  | none => true
  | some hwm => (s.queueTotalSize : ℚ) < hwm

/-- `readable_byte_stream_controller_should_call_pull`. -/
def shouldCallPull (s : ByteStream) : Bool :=
  s.state = .readable && !s.closeRequested && s.started &&
    (s.readRequests.any (0 < ·.length) || s.readIntoRequests.any (0 < ·.length) ||
      s.hasCapacity)

/-- `readable_byte_stream_controller_call_pull_if_needed`. -/
def callPullIfNeeded (env : Env) (s : ByteStream) : ByteOutcome ByteStream :=
  if !s.shouldCallPull then pure s
  else if s.pulling then pure { s with pullAgain := true, pulls := s.pulls ++ [.deferred] }
  else do
    env.assert (!s.pullAgain) .callPullIfNeeded
    callOut (env.pull { s with
      pulling := true, pullPending := true
      pulls := s.pulls ++ [.call ⟨s.startPromise, s.pullPending, s.closeRequested, s.state⟩] })

/-! ### Clearing, closing and erroring -/

/-- `readable_byte_stream_controller_clear_algorithms`. -/
def clearAlgorithms (s : ByteStream) : ByteStream := { s with algorithms := false }

/-- `readable_byte_stream_controller_invalidate_byob_request`. -/
def invalidateByobRequest (s : ByteStream) : ByteStream := { s with byobRequest := none }

/-- `readable_byte_stream_controller_clear_pending_pull_intos`. -/
def clearPendingPullIntos (s : ByteStream) : ByteStream :=
  { s.invalidateByobRequest with pendingPullIntos := [] }

/-- `reset_byte_queue`. -/
def resetByteQueue (s : ByteStream) : ByteStream := { s with queue := [], queueTotalSize := 0 }

/-- `readable_byte_stream_controller_error`. -/
def controllerError (env : Env) (s : ByteStream) (e : JsError) : ByteOutcome ByteStream :=
  if s.state ≠ .readable then pure s
  else streamError env s.clearPendingPullIntos.resetByteQueue.clearAlgorithms e

/-- `readable_byte_stream_controller_close`. -/
def controllerClose (env : Env) (s : ByteStream) : ByteOutcome ByteStream :=
  if s.closeRequested || s.state ≠ .readable then pure s
  else if 0 < s.queueTotalSize then pure { s with closeRequested := true }
  else if s.pendingPullIntos.head?.any fun d => d.bytesFilled % d.elementSize ≠ 0 then do
    let e := .typeError "Insufficient bytes to fill the pending pull-into"
    let s ← s.controllerError env e
    .threw e s
  else streamClose env s.clearAlgorithms

/-- `readable_byte_stream_controller_handle_queue_drain`. -/
def handleQueueDrain (env : Env) (s : ByteStream) : ByteOutcome ByteStream := do
  env.assert (s.state = .readable) .handleQueueDrain
  if s.queueTotalSize = 0 ∧ s.closeRequested then streamClose env s.clearAlgorithms
  else s.callPullIfNeeded env

/-! ### The queue -/

/-- `readable_byte_stream_controller_enqueue_chunk_to_queue`. -/
def enqueueChunkToQueue (s : ByteStream) (b : ArrayBuffer) (off len : ℕ) : ByteStream :=
  { s with
    queue := s.queue ++ [⟨b, off, len⟩]
    queueTotalSize := s.queueTotalSize + len }

/-- `readable_byte_stream_controller_enqueue_cloned_chunk_to_queue`. -/
def enqueueClonedChunkToQueue (env : Env) (s : ByteStream) (b : ArrayBuffer) (off len : ℕ) :
    ByteOutcome ByteStream :=
  if env.alloc then
    let cloned := b.cloneRegion s.nextBuffer off len
    pure ({ s with nextBuffer := s.nextBuffer + 1 }.enqueueChunkToQueue cloned 0 len)
  else do
    let s ← s.controllerError env .engine
    .threw .engine s

/-- `readable_byte_stream_controller_shift_pending_pull_into`. -/
def shiftPendingPullInto (env : Env) (s : ByteStream) :
    ByteOutcome (PullIntoDescriptor × ByteStream) := do
  env.assert s.byobRequest.isNone .shiftPendingPullInto
  match s.pendingPullIntos with
  | [] => .panic (.expectation .shiftPendingPullInto)
  | d :: ds => pure (d, { s with pendingPullIntos := ds })

/-- `readable_byte_stream_controller_enqueue_detached_pull_into_to_queue`. -/
def enqueueDetachedPullIntoToQueue (env : Env) (s : ByteStream) : ByteOutcome ByteStream :=
  match s.pendingPullIntos with
  | [] => .panic (.expectation .enqueueDetachedPullIntoToQueue)
  | d :: _ => do
    env.assert (d.readerType = .none) .enqueueDetachedPullIntoToQueue
    let s ←
      if 0 < d.bytesFilled then
        s.enqueueClonedChunkToQueue env d.buffer d.byteOffset d.bytesFilled
      else pure s
    let (_, s) ← s.shiftPendingPullInto env
    pure s

/-- `readable_byte_stream_controller_fill_read_request_from_queue`. -/
def fillReadRequestFromQueue (env : Env) (s : ByteStream) (r : ℕ) : ByteOutcome ByteStream := do
  env.assert (0 < s.queueTotalSize) .fillReadRequestFromQueue
  match s.queue with
  | [] => .panic (.expectation .fillReadRequestFromQueue)
  | entry :: queue => do
    let s := { s with queue := queue, queueTotalSize := s.queueTotalSize - entry.byteLength }
    let s ← s.handleQueueDrain env
    match ArrayBufferView.construct .uint8 entry.buffer entry.byteOffset entry.byteLength with
    | none => .threw .engine s
    | some view => s.settle env r (.chunk view)

/-! ### Filling descriptors -/

/-- `readable_byte_stream_controller_fill_head_pull_into_descriptor`. -/
def fillHeadPullIntoDescriptor (env : Env) (s : ByteStream) (size : ℕ) (d : PullIntoDescriptor) :
    ByteOutcome PullIntoDescriptor := do
  env.assert s.byobRequest.isNone .fillHeadPullIntoDescriptor
  pure { d with bytesFilled := d.bytesFilled + size }

/-- `copy_data_block_bytes`: slice indexing checks both ranges. -/
def copyDataBlockBytes (dest : ArrayBuffer) (destStart : ℕ) (src : ArrayBuffer)
    (srcStart count : ℕ) : ByteOutcome ArrayBuffer :=
  if count = 0 then pure dest
  else if destStart + count ≤ dest.byteLength ∧ srcStart + count ≤ src.byteLength then
    pure (dest.write destStart (src.slice srcStart count))
  else .panic (.expectation .copyDataBlockBytes)

/-- Step 11 of `fill_pull_into_descriptor_from_queue`: copy `remaining` bytes from the queue to
the descriptor. -/
def copyFromQueue (env : Env) :
    List ByteQueueEntry → ByteStream → PullIntoDescriptor → ℕ →
      ByteOutcome (PullIntoDescriptor × ByteStream)
  | _, s, d, 0 => pure (d, s)
  | [], _, _, _ + 1 => .panic (.expectation .fillPullIntoDescriptorFromQueue)
  | head :: queue, s, d, n + 1 => do
    let bytesToCopy := min (n + 1) head.byteLength
    let buffer ← copyDataBlockBytes d.buffer (d.byteOffset + d.bytesFilled) head.buffer
      head.byteOffset bytesToCopy
    if head.byteLength = bytesToCopy then do
      let s := { s with queue := queue, queueTotalSize := s.queueTotalSize - bytesToCopy }
      let d ← s.fillHeadPullIntoDescriptor env bytesToCopy { d with buffer := buffer }
      copyFromQueue env queue s d (n + 1 - bytesToCopy)
    else do
      let head := { head with
        byteOffset := head.byteOffset + bytesToCopy
        byteLength := head.byteLength - bytesToCopy }
      let s := { s with
        queue := head :: queue
        queueTotalSize := s.queueTotalSize - bytesToCopy }
      -- the head outlasts the request, so this was the last round of the loop
      let d ← s.fillHeadPullIntoDescriptor env bytesToCopy { d with buffer := buffer }
      pure (d, s)

/-- `readable_byte_stream_controller_fill_pull_into_descriptor_from_queue`: whether the
descriptor is ready, with the descriptor and the state. -/
def fillPullIntoDescriptorFromQueue (env : Env) (s : ByteStream) (d : PullIntoDescriptor) :
    ByteOutcome (Bool × PullIntoDescriptor × ByteStream) := do
  let maxBytesToCopy := min s.queueTotalSize (d.byteLength - d.bytesFilled)
  let maxBytesFilled := d.bytesFilled + maxBytesToCopy
  env.assert (!d.buffer.detached) .fillPullIntoDescriptorFromQueue
  env.assert (d.bytesFilled < d.minimumFill) .fillPullIntoDescriptorFromQueue
  let remainderBytes := maxBytesFilled % d.elementSize
  let maxAlignedBytes := maxBytesFilled - remainderBytes
  let ready : Bool := d.minimumFill ≤ maxAlignedBytes
  let totalBytesToCopyRemaining :=
    if ready then maxAlignedBytes - d.bytesFilled else maxBytesToCopy
  let (d, s) ← copyFromQueue env s.queue s d totalBytesToCopyRemaining
  if !ready then do
    env.assert (s.queueTotalSize = 0) .fillPullIntoDescriptorFromQueue
    env.assert (0 < d.bytesFilled) .fillPullIntoDescriptorFromQueue
    env.assert (d.bytesFilled < d.minimumFill) .fillPullIntoDescriptorFromQueue
    pure (ready, d, s)
  else pure (ready, d, s)

/-- The loop of `process_pull_into_descriptors_using_queue` over the pending descriptors. -/
def processPullIntos (env : Env) :
    List PullIntoDescriptor → ByteStream → ByteOutcome (List PullIntoDescriptor × ByteStream)
  | [], s => pure ([], s)
  | d :: ds, s => do
    if s.queueTotalSize = 0 then pure ([], s)
    else do
      let (ready, d, s) ←
        fillPullIntoDescriptorFromQueue env { s with pendingPullIntos := ds } d
      if ready then do
        let (filled, s) ← processPullIntos env ds s
        pure (d :: filled, s)
      else do
        -- a descriptor that is not ready has drained the queue, which ends the loop
        Outcome.guard (s.queueTotalSize = 0)
          (.expectation .processPullIntoDescriptorsUsingQueue)
        pure ([], { s with pendingPullIntos := d :: ds })

/-- `readable_byte_stream_controller_process_pull_into_descriptors_using_queue`: the filled
descriptors, with the state. -/
def processPullIntoDescriptorsUsingQueue (env : Env) (s : ByteStream) :
    ByteOutcome (List PullIntoDescriptor × ByteStream) := do
  env.assert (!s.closeRequested) .processPullIntoDescriptorsUsingQueue
  processPullIntos env s.pendingPullIntos s

/-- The requests of the default reader that held the lock when `k` readers had been released. -/
def fetchedReadRequests (s : ByteStream) (k : ℕ) : List ℕ :=
  match s.released[k]? with
  | some reader => reader.requests
  | none => s.readRequests.getD []

/-- That reader is left with the requests `rs`. -/
def setFetchedReadRequests (s : ByteStream) (k : ℕ) (rs : List ℕ) : ByteStream :=
  match s.released[k]? with
  | some _ => { s with released := s.released.set k (.default rs) }
  | none => { s with reader := some (.default rs) }

/-- The loop of `process_read_requests_using_queue`, with a bound on its rounds: over the requests
of the reader fetched before it, which author code may release meanwhile. -/
def processReadRequests (env : Env) (k : ℕ) : ℕ → ByteStream → ByteOutcome ByteStream
  | 0, _ => .panic .tooDeep
  | n + 1, s =>
    match s.fetchedReadRequests k with
    | [] => pure s
    | r :: rs =>
      if s.queueTotalSize = 0 then pure s
      else do
        let s ← fillReadRequestFromQueue env (s.setFetchedReadRequests k rs) r
        processReadRequests env k n s

/-- `readable_byte_stream_controller_process_read_requests_using_queue`. Every round takes an
entry off the queue; `env.rounds` leaves room for those that author code adds meanwhile. -/
def processReadRequestsUsingQueue (env : Env) (s : ByteStream) : ByteOutcome ByteStream :=
  if s.hasDefaultReader then
    processReadRequests env s.released.length (s.queue.length + env.rounds + 1) s
  else .panic (.expectation .processReadRequestsUsingQueue)

/-! ### Committing descriptors -/

/-- `readable_byte_stream_controller_convert_pull_into_descriptor`. -/
def convertPullIntoDescriptor (env : Env) (s : ByteStream) (d : PullIntoDescriptor) :
    ByteOutcome (ArrayBufferView × ByteStream) := do
  env.assert (d.bytesFilled ≤ d.byteLength) .convertPullIntoDescriptor
  env.assert (d.bytesFilled % d.elementSize = 0) .convertPullIntoDescriptor
  match d.buffer.transfer s.nextBuffer with
  | none => .threw .engine s
  | some buffer =>
    let s := { s with nextBuffer := s.nextBuffer + 1 }
    match ArrayBufferView.construct d.viewKind buffer d.byteOffset
      (d.bytesFilled / d.elementSize) with
    | none => .threw .engine s
    | some view => pure (view, s)

/-- `readable_byte_stream_controller_commit_pull_into_descriptor`. -/
def commitPullIntoDescriptor (env : Env) (s : ByteStream) (d : PullIntoDescriptor) :
    ByteOutcome ByteStream := do
  env.assert (s.state ≠ .errored) .commitPullIntoDescriptor
  env.assert (d.readerType ≠ .none) .commitPullIntoDescriptor
  let done : Bool := s.state = .closed
  if done then env.assert (d.bytesFilled % d.elementSize = 0) .commitPullIntoDescriptor
  let (filledView, s) ← s.convertPullIntoDescriptor env d
  if d.readerType = .default then s.fulfillReadRequest env filledView done
  else do
    env.assert (d.readerType = .byob) .commitPullIntoDescriptor
    s.fulfillReadIntoRequest env filledView done

/-- Commit the filled descriptors in order. -/
def commitAll (env : Env) : List PullIntoDescriptor → ByteStream → ByteOutcome ByteStream
  | [], s => pure s
  | d :: ds, s => do commitAll env ds (← s.commitPullIntoDescriptor env d)

/-! ### The operations of the underlying source -/

/-- Step 8 of `readable_byte_stream_controller_enqueue`: the first pending descriptor, if any,
gets a new buffer, and one left behind by a released reader is drained into the queue. -/
def enqueueRefreshHead (env : Env) (s : ByteStream) : ByteOutcome ByteStream :=
  match s.pendingPullIntos with
  | [] => pure s
  | d :: ds =>
    if d.buffer.detached then
      .threw (.typeError "the pending pull-into's buffer is detached") s
    else do
      let s := s.invalidateByobRequest
      match d.buffer.transfer s.nextBuffer with
      | none => .threw .engine s
      | some buffer =>
        let s := { s with
          nextBuffer := s.nextBuffer + 1
          pendingPullIntos := { d with buffer := buffer } :: ds }
        if d.readerType = .none then s.enqueueDetachedPullIntoToQueue env else pure s

/-- Record that the source supplied `bs`. -/
def supply (s : ByteStream) (bs : List UInt8) : ByteStream :=
  { s with supplied := s.supplied ++ bs }

/-- Steps 9 to 11 of `readable_byte_stream_controller_enqueue`: hand the transferred chunk to a
waiting read or queue it. -/
def enqueueDeliver (env : Env) (s : ByteStream) (b : ArrayBuffer) (off len : ℕ) :
    ByteOutcome ByteStream := do
  if s.hasDefaultReader then do
    let s ← s.processReadRequestsUsingQueue env
    let n ← s.getNumReadRequests
    let s := s.supply (b.slice off len)
    if n = 0 then do
      env.assert s.pendingPullIntos.isEmpty .enqueue
      pure (s.enqueueChunkToQueue b off len)
    else do
      env.assert s.queue.isEmpty .enqueue
      let s ←
        match s.pendingPullIntos with
        | [] => pure s
        | d :: _ => do
          env.assert (d.readerType = .default) .enqueue
          let (_, s) ← s.shiftPendingPullInto env
          pure s
      match ArrayBufferView.construct .uint8 b off len with
      | none => .threw .engine s
      | some view => s.fulfillReadRequest env view false
  else if s.hasByobReader then do
    let s := (s.supply (b.slice off len)).enqueueChunkToQueue b off len
    let (filled, s) ← s.processPullIntoDescriptorsUsingQueue env
    commitAll env filled s
  else do
    env.assert s.reader.isNone .enqueue
    pure ((s.supply (b.slice off len)).enqueueChunkToQueue b off len)

/-- `readable_byte_stream_controller_enqueue`. -/
def controllerEnqueue (env : Env) (s : ByteStream) (chunk : ArrayBufferView) :
    ByteOutcome ByteStream :=
  if s.closeRequested || s.state ≠ .readable then pure s
  else if chunk.buffer.detached then
    .threw (.typeError "enqueue() view's buffer is detached") s
  else
    match chunk.buffer.transfer s.nextBuffer with
    | none => .threw .engine s
    | some buffer => do
      let s := { s with nextBuffer := s.nextBuffer + 1 }
      let s ← s.enqueueRefreshHead env
      let s ← s.enqueueDeliver env buffer chunk.byteOffset chunk.byteLength
      s.callPullIfNeeded env

/-- `readable_byte_stream_controller_get_byob_request`. -/
def getByobRequest (s : ByteStream) : ByteOutcome ByteStream :=
  match s.byobRequest, s.pendingPullIntos with
  | none, d :: _ =>
    match ArrayBufferView.construct .uint8 d.buffer (d.byteOffset + d.bytesFilled)
      (d.byteLength - d.bytesFilled) with
    | none => .panic (.expectation .getByobRequest)
    | some view =>
      pure { s with byobRequest := some ⟨view.buffer.id, view.byteOffset, view.byteLength⟩ }
  | _, _ => pure s

/-- `readable_byte_stream_controller_respond_in_closed_state`: shift and commit one descriptor
for each of the `n` pending read-into requests. -/
def commitPending (env : Env) : ℕ → ByteStream → ByteOutcome ByteStream
  | 0, s => pure s
  | n + 1, s => do
    let (d, s) ← s.shiftPendingPullInto env
    commitPending env n (← s.commitPullIntoDescriptor env d)

/-- `readable_byte_stream_controller_respond_in_closed_state`. -/
def respondInClosedState (env : Env) (s : ByteStream) : ByteOutcome ByteStream :=
  match s.pendingPullIntos with
  | [] => .panic (.expectation .respondInClosedState)
  | d :: _ => do
    env.assert (d.bytesFilled % d.elementSize = 0) .respondInClosedState
    let s ←
      if d.readerType = .none then do
        let (_, s) ← s.shiftPendingPullInto env
        pure s
      else pure s
    if s.hasByobReader then do
      let n ← s.getNumReadIntoRequests
      commitPending env n s
    else pure s

/-- `readable_byte_stream_controller_respond_in_readable_state`. -/
def respondInReadableState (env : Env) (s : ByteStream) (bytesWritten : ℕ) :
    ByteOutcome ByteStream :=
  match s.pendingPullIntos with
  | [] => .panic (.expectation .respondInReadableState)
  | d :: ds => do
    let s := { s with pendingPullIntos := ds }
    let s := s.supply (d.buffer.slice (d.byteOffset + d.bytesFilled) bytesWritten)
    env.assert (d.bytesFilled + bytesWritten ≤ d.byteLength) .respondInReadableState
    let d ← s.fillHeadPullIntoDescriptor env bytesWritten d
    if d.readerType = .none then do
      let s ← { s with pendingPullIntos := d :: ds }.enqueueDetachedPullIntoToQueue env
      let (filled, s) ← s.processPullIntoDescriptorsUsingQueue env
      commitAll env filled s
    else if d.bytesFilled < d.minimumFill then pure { s with pendingPullIntos := d :: ds }
    else do
      let remainderSize := d.bytesFilled % d.elementSize
      let s ←
        if 0 < remainderSize then
          s.enqueueClonedChunkToQueue env d.buffer
            (d.byteOffset + d.bytesFilled - remainderSize) remainderSize
        else pure s
      let d := { d with bytesFilled := d.bytesFilled - remainderSize }
      let (filled, s) ← s.processPullIntoDescriptorsUsingQueue env
      let s ← s.commitPullIntoDescriptor env d
      commitAll env filled s

/-- `readable_byte_stream_controller_respond_internal`. -/
def respondInternal (env : Env) (s : ByteStream) (bytesWritten : ℕ) : ByteOutcome ByteStream := do
  let s := s.invalidateByobRequest
  let s ←
    if s.state = .closed then do
      env.assert (bytesWritten = 0) .respondInternal
      s.respondInClosedState env
    else do
      env.assert (s.state = .readable) .respondInternal
      env.assert (0 < bytesWritten) .respondInternal
      s.respondInReadableState env bytesWritten
  s.callPullIfNeeded env

/-- Give the first pending descriptor the buffer `b`. -/
def setHeadBuffer (s : ByteStream) (b : ArrayBuffer) : ByteStream :=
  match s.pendingPullIntos with
  | [] => s
  | d :: ds =>
    { s with
      nextBuffer := s.nextBuffer + 1
      pendingPullIntos := { d with buffer := b } :: ds }

/-- `readable_byte_stream_controller_respond`. -/
def controllerRespond (env : Env) (s : ByteStream) (bytesWritten : ℕ) : ByteOutcome ByteStream :=
  match s.pendingPullIntos with
  | [] => do
    env.assert false .respond
    .panic (.expectation .respond)
  | d :: _ => do
    if s.state = .closed then do
      if bytesWritten ≠ 0 then
        .threw (.typeError "bytesWritten must be 0 for a closed stream") s
      else pure ()
    else do
      env.assert (s.state = .readable) .respond
      if bytesWritten = 0 then
        .threw (.typeError "bytesWritten must not be 0 for a readable stream") s
      else if d.byteLength - d.bytesFilled < bytesWritten then
        .threw (.rangeError "bytesWritten exceeds the requested view's length") s
      else pure ()
    match d.buffer.transfer s.nextBuffer with
    | none => .threw .engine s
    | some b => (s.setHeadBuffer b).respondInternal env bytesWritten

/-- `readable_byte_stream_controller_respond_with_new_view`. -/
def controllerRespondWithNewView (env : Env) (s : ByteStream) (view : ArrayBufferView) :
    ByteOutcome ByteStream :=
  match s.pendingPullIntos with
  | [] => do
    env.assert false .respondWithNewView
    .panic (.expectation .respondWithNewView)
  | d :: _ => do
    env.assert (!view.buffer.detached) .respondWithNewView
    if s.state = .closed then do
      if view.byteLength ≠ 0 then
        .threw (.typeError "view byte length must be 0 for a closed stream") s
      else pure ()
    else do
      env.assert (s.state = .readable) .respondWithNewView
      if view.byteLength = 0 then
        .threw (.typeError "view byte length must not be 0 for a readable stream") s
      else pure ()
    if d.byteOffset + d.bytesFilled ≠ view.byteOffset then
      .threw (.rangeError "the view's byte offset does not match the pending pull-into") s
    else if d.bufferByteLength ≠ view.buffer.byteLength then
      .threw (.rangeError
        "the view's buffer byte length does not match the pending pull-into") s
    else if d.byteLength < d.bytesFilled + view.byteLength then
      .threw (.rangeError "the view's byte length exceeds the pending pull-into") s
    else
      match view.buffer.transfer s.nextBuffer with
      | none => .threw .engine s
      | some b => (s.setHeadBuffer b).respondInternal env view.byteLength

/-! ### The operations of the consumer -/

/-- `byte_pull_steps`: serve a default read from the queue, or append it. -/
def bytePullSteps (env : Env) (s : ByteStream) (r : ℕ) : ByteOutcome ByteStream := do
  env.assert s.hasDefaultReader .bytePullSteps
  if 0 < s.queueTotalSize then do
    if env.debug then do
      let n ← s.getNumReadRequests
      env.assert (n = 0) .bytePullSteps
    (s.fillReadRequestFromQueue env r).infallible (.expectation .bytePullSteps)
  else
    match s.autoAllocateChunkSize with
    | some size =>
      if env.alloc then do
        let d : PullIntoDescriptor :=
          { buffer := .new s.nextBuffer size
            bufferByteLength := size
            byteOffset := 0
            byteLength := size
            bytesFilled := 0
            minimumFill := 1
            elementSize := 1
            viewKind := .uint8
            readerType := .default }
        let s := { s with
          nextBuffer := s.nextBuffer + 1
          pendingPullIntos := s.pendingPullIntos ++ [d] }
        let s ← s.addReadRequest r
        s.callPullIfNeeded env
      else s.settle env r (.error .engine)
    | none => do
      let s ← s.addReadRequest r
      s.callPullIfNeeded env

/-- `byte_release_steps`: the first descriptor loses its reader, the others are dropped. -/
def byteReleaseSteps (s : ByteStream) : ByteStream :=
  match s.pendingPullIntos with
  | [] => s
  | d :: _ => { s with pendingPullIntos := [{ d with readerType := .none }] }

/-- `byte_cancel_steps`. -/
def byteCancelSteps (env : Env) (s : ByteStream) : ByteOutcome ByteStream := do
  let s := s.clearPendingPullIntos.resetByteQueue
  let s ← if s.algorithms then callOut (env.cancel s) else pure s
  pure s.clearAlgorithms

/-- `readable_stream_cancel`. -/
def streamCancel (env : Env) (s : ByteStream) : ByteOutcome ByteStream := do
  let s := { s with disturbed := true }
  if s.state ≠ .readable then pure s
  else do
    let s ← s.streamClose env
    let s ←
      match s.reader with
      | some (.byob rs) =>
        settleRequestSnapshot env (.close none) { s with reader := some (.byob []) } rs
      | _ => pure s
    s.byteCancelSteps env

/-- `readable_stream_default_reader_read`, for the reader that holds the lock. -/
def defaultReaderRead (env : Env) (s : ByteStream) (r : ℕ) : ByteOutcome ByteStream :=
  let s := { s with disturbed := true }
  match s.state with
  | .closed => s.settle env r (.close none)
  | .errored => s.settle env r (.error (s.storedError.getD (.reason 0)))
  | .readable => s.bytePullSteps env r

/-- Append a descriptor and the read-into request it belongs to. -/
def appendPullInto (env : Env) (s : ByteStream) (d : PullIntoDescriptor) (r : ℕ) :
    ByteOutcome ByteStream :=
  addReadIntoRequest env { s with pendingPullIntos := s.pendingPullIntos ++ [d] } r

/-- `readable_byte_stream_controller_pull_into`, from the point where the descriptor is made: it
waits behind the pending ones, or is filled from the queue. -/
def servePullInto (env : Env) (s : ByteStream) (d : PullIntoDescriptor) (r : ℕ) :
    ByteOutcome ByteStream :=
  if !s.pendingPullIntos.isEmpty then s.appendPullInto env d r
  else if s.state = .closed then
    match ArrayBufferView.construct d.viewKind d.buffer d.byteOffset 0 with
    | none => .panic (.expectation .pullInto)
    | some emptyView => s.settle env r (.close (some emptyView))
  else if 0 < s.queueTotalSize then do
    let (ready, d, s) ← s.fillPullIntoDescriptorFromQueue env d
    if ready then do
      let (filledView, s) ←
        (s.convertPullIntoDescriptor env d).infallible (.expectation .pullInto)
      let s ← s.handleQueueDrain env
      s.settle env r (.chunk filledView)
    else if s.closeRequested then do
      let e := .typeError "Insufficient bytes to fill the requested view"
      let s ← s.controllerError env e
      s.settle env r (.error e)
    else do
      let s ← s.appendPullInto env d r
      s.callPullIfNeeded env
  else do
    let s ← s.appendPullInto env d r
    s.callPullIfNeeded env

/-- The descriptor of a BYOB read, over the transferred buffer. -/
def viewDescriptor (view : ArrayBufferView) (buffer : ArrayBuffer) (min : ℕ) :
    PullIntoDescriptor where
  buffer := buffer
  bufferByteLength := buffer.byteLength
  byteOffset := view.byteOffset
  byteLength := view.byteLength
  bytesFilled := 0
  minimumFill := min * view.viewKind.elementSize
  elementSize := view.viewKind.elementSize
  viewKind := view.viewKind
  readerType := .byob

/-- `readable_byte_stream_controller_pull_into`. -/
def controllerPullInto (env : Env) (s : ByteStream) (view : ArrayBufferView) (min r : ℕ) :
    ByteOutcome ByteStream := do
  env.assert (min * view.viewKind.elementSize ≤ view.byteLength) .pullInto
  env.assert (min * view.viewKind.elementSize % view.viewKind.elementSize = 0) .pullInto
  match view.buffer.transfer s.nextBuffer with
  | none => s.settle env r (.error .engine)
  | some buffer =>
    servePullInto env { s with nextBuffer := s.nextBuffer + 1 } (viewDescriptor view buffer min) r

/-- `readable_stream_byob_reader_read`, for the reader that holds the lock. -/
def byobReaderRead (env : Env) (s : ByteStream) (view : ArrayBufferView) (min r : ℕ) :
    ByteOutcome ByteStream :=
  let s := { s with disturbed := true }
  if s.state = .errored then s.settle env r (.error (s.storedError.getD (.reason 0)))
  else s.controllerPullInto env view min r

/-- `readable_stream_default_reader_release` and `readable_stream_byob_reader_release`: the
controller's release steps run, the reader lets go of the stream, and its requests are errored. -/
def readerRelease (env : Env) (s : ByteStream) : ByteOutcome ByteStream :=
  match s.reader with
  | none => pure s
  | some (.default rs) =>
    settleRequestSnapshot env (.error (.typeError "Reader was released"))
      { s.byteReleaseSteps with reader := none, released := s.released ++ [.default []] } rs
  | some (.byob rs) =>
    settleRequestSnapshot env (.error (.typeError "Reader was released"))
      { s.byteReleaseSteps with reader := none, released := s.released ++ [.byob []] } rs

end ByteStream

end WebStreams
