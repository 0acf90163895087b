import StarlingMonkey.Lib.Protocol
import StarlingMonkey.Lib.Run
import StarlingMonkey.WebStreams.Basic

/-!
# Piping

`pipeTo` reads from one stream and writes to another, with one read or write in preparation at a
time. Five triggers may ask for a shutdown; the shutdown waits for the writes, performs an action
and finalizes.

`Pipe` is the state of a pipe with what it sees of the two streams. The events are the pipe's own
reactions and jobs, the answers it gets, and changes of the streams. They come in any order that the
reactions, jobs and calls which are pending allow; a trigger may come at any time, and again.

* `Allowed`: which record may follow a log of what the pipe did.
* `Phase`: how far the shutdown is, and what the log says then.
* `Inv`: where the chunks are, how far the shutdown is, and what the log keeps to; `sat_step` says
  that every event keeps it.
* `shutsDown_of_run`: a pipe shuts down once, whatever asks for it.
* `drained_of_run`: what was read is written before the pipe lets go of a destination that takes
  chunks.
-/

namespace WebStreams.Piping

/-- The state of the destination. -/
inductive DestState where
  | writable | erroring | errored | closed
deriving DecidableEq, Repr

/-- `PipeAction`. -/
inductive PipeAction where
  | none | abortDest | cancelSource | closeWriter | abortAlgorithm
deriving DecidableEq, Repr

/-- `PipeShutdown`. -/
structure PipeShutdown (ε : Type) where
  action : PipeAction
  actionError : Option ε
  originalError : Option ε
  waitingForWrites : Bool
deriving DecidableEq, Repr

/-- Where the read-write loop is. -/
inductive Loop where
  /-- The pipe is being set up. -/
  | starting
  /-- Reactions to the writer's ready promise are pending. -/
  | ready
  /-- The read request waits. -/
  | reading
  /-- The microtask of `pipe_deferred_write` is queued. -/
  | deferred
  /-- The destination's write is on the stack. -/
  | writing
  | stopped
deriving DecidableEq, Repr

/-- The action of the shutdown. -/
inductive Acting where
  | idle
  /-- The abort algorithm's abort of the destination is on the stack. -/
  | aborting
  /-- It is on the stack. -/
  | running
  /-- Reactions to its promise are pending. -/
  | pending
deriving DecidableEq, Repr

/-- What an action does to the streams. -/
inductive Operation (ε : Type) where
  | abortDest (error : Option ε)
  | cancelSource (error : Option ε)
  | closeWriter
deriving DecidableEq, Repr

/-- What happened. -/
inductive Record (χ ε : Type) where
  | read
  | delivered (chunk : χ)
  /-- A chunk was passed to the destination's write. -/
  | written (chunk : Option χ)
  | dropped (chunk : Option χ)
  /-- The promise of a write was settled. -/
  | settled
  /-- The destination is not writable any more, or its close is queued. -/
  | refuses
  | recorded (shutdown : PipeShutdown ε)
  | proceeded
  | performed (operation : Operation ε)
  /-- The promise of the action was settled. -/
  | acted (rejection : Option ε)
  | finalized (error : Option ε)
deriving DecidableEq, Repr

/-- `PipeState`, and the streams. -/
structure Pipe (χ ε : Type) where
  preventClose : Bool
  preventAbort : Bool
  preventCancel : Bool
  shutdown : Option (PipeShutdown ε)
  /-- Whether the abort algorithm is registered on a signal. -/
  listening : Bool
  pendingChunk : Option χ
  pendingWrites : ℕ
  /-- What the promise is settled with. -/
  promise : Option (Option ε)
  loop : Loop
  /-- How many write promises have `pipe_write_settled` as their reaction. -/
  settles : ℕ
  /-- Whether `pipe_shutdown_proceed_deferred` is queued. -/
  proceedQueued : Bool
  acting : Acting
  source : StreamState
  dest : DestState
  /-- `writable_stream_close_queued_or_in_flight`. -/
  closeQueued : Bool
  writerAttached : Bool
  readerAttached : Bool
  log : List (Record χ ε)

/-- Where the program panics. -/
inductive Site where
  /-- "the pipe is shutting down". -/
  | shuttingDown
  /-- `pending_writes > 0`. -/
  | pendingWrites
  | read
  /-- "writer has a stream". -/
  | writerStream
  | releaseWriter
  | releaseReader
  | unreachable
deriving DecidableEq, Repr

/-- What happens to a pipe. -/
inductive PipeEvent (χ ε : Type) where
  /-- `pipe_setup_propagation_and_start` ends. -/
  | start
  /-- The ready promise is settled; the read, if there is one, may be answered at once. -/
  | ready (fulfilled : Bool) (answer : Option χ)
  | chunk (chunk : χ)
  | deferredWrite
  | writeReturns
  | writeSettles
  | fwdError (error : ε)
  | bwdError (error : ε)
  | fwdClose
  /-- The destination was closing or closed from the start. -/
  | destClosed (error : ε)
  | aborts (reason : ε)
  | proceeds
  /-- The abort algorithm's abort of the destination returns. -/
  | abortReturns
  | actionReturns
  | actionSettles (rejection : Option ε)
  | sourceChanges (state : StreamState)
  | destChanges (state : DestState) (closeQueued : Bool)
deriving DecidableEq, Repr

variable {χ ε : Type}

namespace Pipe

/-- How a call ends. -/
abbrev Steps (χ ε : Type) := Outcome Site Empty (Pipe χ ε)

/-! ### The code -/

/-- The destination takes chunks. -/
def accepts (s : Pipe χ ε) : Bool := s.dest = .writable && !s.closeQueued

/-- A record is made. -/
def record (s : Pipe χ ε) (r : Record χ ε) : Pipe χ ε := { s with log := s.log ++ [r] }

/-- The destination changes. -/
def setDest (s : Pipe χ ε) (dest : DestState) (closeQueued : Bool) : Pipe χ ε :=
  let s := { s with
    dest := dest
    closeQueued := closeQueued }
  if s.accepts then s else s.record .refuses

/-- The source changes. If it is not readable any more, the read request is closed or errored. -/
def setSource (s : Pipe χ ε) (source : StreamState) : Pipe χ ε :=
  { s with
    source := source
    loop := if source ≠ .readable && s.loop = .reading then .stopped else s.loop }

/-- `pipe_step`. -/
def pipeStep (s : Pipe χ ε) : Pipe χ ε :=
  { s with loop := if s.shutdown.isSome then .stopped else .ready }

/-- `pipe_read_request_chunk_steps`. -/
def pipeReadRequestChunkSteps (s : Pipe χ ε) (chunk : χ) : Pipe χ ε :=
  { s.record (.delivered chunk) with
    pendingChunk := some chunk
    pendingWrites := s.pendingWrites + 1
    loop := .deferred }

/-- `pipe_ready_fulfilled`. -/
def pipeReadyFulfilled (s : Pipe χ ε) (answer : Option χ) : Steps χ ε (Pipe χ ε) :=
  if s.shutdown.isSome then .ok { s with loop := .stopped }
  else if s.readerAttached then
    let s := s.record .read
    match answer with
    | some chunk => .ok (s.pipeReadRequestChunkSteps chunk)
    | none => .ok { s with loop := if s.source = .readable then .reading else .stopped }
  else .panic .read

/-- `pipe_deferred_write`, up to the call of the destination's write. -/
def pipeDeferredWrite (s : Pipe χ ε) : Steps χ ε (Pipe χ ε) :=
  let chunk := s.pendingChunk
  let s := { s with pendingChunk := none }
  if s.writerAttached then
    .ok { s.record (.written chunk) with loop := .writing }
  else if 0 < s.pendingWrites then
    .ok { s.record (.dropped chunk) with
      pendingWrites := s.pendingWrites - 1
      loop := .stopped }
  else .panic .pendingWrites

/-- The destination's write returns a promise. -/
def writeReturns (s : Pipe χ ε) : Pipe χ ε := { s with settles := s.settles + 1 }.pipeStep

/-- `pipe_action`. -/
def pipeAction (s : Pipe χ ε) : Steps χ ε (PipeShutdown ε) :=
  .expect s.shutdown .shuttingDown

/-- `pipe_wait_for_writes`. -/
def pipeWaitForWrites (s : Pipe χ ε) : Steps χ ε (Pipe χ ε) := do
  let shutdown ← s.pipeAction
  .ok { s with shutdown := some { shutdown with waitingForWrites := true } }

/-- `pipe_stop_waiting_for_writes`. -/
def pipeStopWaitingForWrites (s : Pipe χ ε) : Pipe χ ε × Bool :=
  match s.shutdown with
  | some shutdown =>
    ({ s with shutdown := some { shutdown with waitingForWrites := false } },
      shutdown.waitingForWrites)
  | none => (s, false)

/-- `readable_stream_cancel`. -/
def cancelSource (s : Pipe χ ε) (error : Option ε) : Pipe χ ε :=
  (s.record (.performed (.cancelSource error))).setSource
    (if s.source = .readable then .closed else s.source)

/-- `writable_stream_abort`. -/
def abortDest (s : Pipe χ ε) (error : Option ε) : Pipe χ ε :=
  (s.record (.performed (.abortDest error))).setDest
    (if s.dest = .writable then .erroring else s.dest) s.closeQueued

/-- `writable_stream_default_writer_close_with_error_propagation`. -/
def closeWriter (s : Pipe χ ε) : Steps χ ε (Pipe χ ε) :=
  if s.writerAttached then
    .ok ((s.record (.performed .closeWriter)).setDest s.dest
      (s.closeQueued || s.dest = .writable || s.dest = .erroring))
  else .panic .writerStream

/-- `pipe_build_abort_actions_promise`, from the return of the abort of the destination. -/
def pipeBuildAbortActionsPromiseRest (s : Pipe χ ε) (error : Option ε) : Pipe χ ε :=
  let s := { s with acting := .running }
  if !s.preventCancel && s.source = .readable then s.cancelSource error else s

/-- `pipe_build_abort_actions_promise`, up to the return of the abort of the destination. -/
def pipeBuildAbortActionsPromise (s : Pipe χ ε) (error : Option ε) : Pipe χ ε :=
  if !s.preventAbort && s.dest = .writable then
    { s.abortDest error with acting := .aborting }
  else s.pipeBuildAbortActionsPromiseRest error

/-- `pipe_run_action`, up to the return of the first operation. -/
def pipeRunAction (s : Pipe χ ε) : Steps χ ε (Pipe χ ε) := do
  let shutdown ← s.pipeAction
  let s := { s with acting := .running }
  match shutdown.action with
  | .abortDest => .ok (s.abortDest shutdown.actionError)
  | .cancelSource => .ok (s.cancelSource shutdown.actionError)
  | .closeWriter => s.closeWriter
  | .abortAlgorithm => .ok (s.pipeBuildAbortActionsPromise shutdown.actionError)
  | .none => .panic .unreachable

/-- The abort of the destination returns. -/
def abortReturns (s : Pipe χ ε) : Steps χ ε (Pipe χ ε) := do
  let shutdown ← s.pipeAction
  .ok (s.pipeBuildAbortActionsPromiseRest shutdown.actionError)

/-- `pipe_finalize`. Releasing the reader errors the read request. -/
def pipeFinalize (s : Pipe χ ε) (error : Option ε) : Steps χ ε (Pipe χ ε) :=
  if s.writerAttached then
    if s.readerAttached then
      .ok { s.record (.finalized error) with
        writerAttached := false
        readerAttached := false
        loop := if s.loop = .reading then .stopped else s.loop
        listening := false
        promise := s.promise.or (some error) }
    else .panic .releaseReader
  else .panic .releaseWriter

/-- `pipe_shutdown_do_proceed`, up to the return of the first operation. -/
def pipeShutdownDoProceed (s : Pipe χ ε) : Steps χ ε (Pipe χ ε) := do
  let shutdown ← s.pipeAction
  let s := s.record .proceeded
  if shutdown.action = .none then s.pipeFinalize shutdown.originalError
  else s.pipeRunAction

/-- `pipe_shutdown_wait_then_proceed`. -/
def pipeShutdownWaitThenProceed (s : Pipe χ ε) : Steps χ ε (Pipe χ ε) :=
  if s.accepts then
    if 0 < s.pendingWrites then s.pipeWaitForWrites else .ok { s with proceedQueued := true }
  else s.pipeShutdownDoProceed

/-- `pipe_shutdown_proceed_deferred`. -/
def pipeShutdownProceedDeferred (s : Pipe χ ε) : Steps χ ε (Pipe χ ε) :=
  let s := { s with proceedQueued := false }
  if 0 < s.pendingWrites then s.pipeWaitForWrites else s.pipeShutdownDoProceed

/-- `pipe_write_settled`. -/
def pipeWriteSettled (s : Pipe χ ε) : Steps χ ε (Pipe χ ε) :=
  if 0 < s.pendingWrites then
    let s := { s.record .settled with
      pendingWrites := s.pendingWrites - 1
      settles := s.settles - 1 }
    if s.pendingWrites = 0 then
      let (s, waiting) := s.pipeStopWaitingForWrites
      if waiting then s.pipeShutdownDoProceed else .ok s
    else .ok s
  else .panic .pendingWrites

/-- `pipe_begin_shutdown_with_action`. -/
def pipeBeginShutdownWithAction (s : Pipe χ ε) (action : PipeAction)
    (actionError originalError : Option ε) : Steps χ ε (Pipe χ ε) :=
  if s.shutdown.isSome then .ok s
  else
    let shutdown := ⟨action, actionError, originalError, false⟩
    { s.record (.recorded shutdown) with shutdown := some shutdown }.pipeShutdownWaitThenProceed

/-- `pipe_shutdown`. -/
def pipeShutdown (s : Pipe χ ε) (error : Option ε) : Steps χ ε (Pipe χ ε) :=
  s.pipeBeginShutdownWithAction .none none error

/-- `pipe_fwd_error`. -/
def pipeFwdError (s : Pipe χ ε) (storedError : ε) : Steps χ ε (Pipe χ ε) :=
  if s.preventAbort then s.pipeShutdown (some storedError)
  else s.pipeBeginShutdownWithAction .abortDest (some storedError) (some storedError)

/-- `pipe_bwd_error`, and what `pipe_setup_propagation_and_start` does where the destination is
closing. -/
def pipeBwdError (s : Pipe χ ε) (storedError : ε) : Steps χ ε (Pipe χ ε) :=
  if s.preventCancel then s.pipeShutdown (some storedError)
  else s.pipeBeginShutdownWithAction .cancelSource (some storedError) (some storedError)

/-- `pipe_fwd_close`. -/
def pipeFwdClose (s : Pipe χ ε) : Steps χ ε (Pipe χ ε) :=
  if s.preventClose then s.pipeShutdown none
  else s.pipeBeginShutdownWithAction .closeWriter none none

/-- `pipe_run_abort_algorithm`. -/
def pipeRunAbortAlgorithm (s : Pipe χ ε) (reason : ε) : Steps χ ε (Pipe χ ε) :=
  s.pipeBeginShutdownWithAction .abortAlgorithm (some reason) (some reason)

/-- `pipe_action_fulfilled` and `pipe_action_rejected`. -/
def pipeActionSettled (s : Pipe χ ε) (rejection : Option ε) : Steps χ ε (Pipe χ ε) := do
  let shutdown ← s.pipeAction
  let s := { s.record (.acted rejection) with acting := .idle }
  match rejection with
  | none => s.pipeFinalize shutdown.originalError
  | some error => s.pipeFinalize (some error)

/-- What an event does, if it can happen. -/
def step (s : Pipe χ ε) : PipeEvent χ ε → Steps χ ε (Pipe χ ε)
  | .start => .ok (if s.loop = .starting then s.pipeStep else s)
  | .ready fulfilled answer =>
    if s.loop = .ready then
      if fulfilled then s.pipeReadyFulfilled answer else .ok { s with loop := .stopped }
    else .ok s
  | .chunk chunk => .ok (if s.loop = .reading then s.pipeReadRequestChunkSteps chunk else s)
  | .deferredWrite => if s.loop = .deferred then s.pipeDeferredWrite else .ok s
  | .writeReturns => .ok (if s.loop = .writing then s.writeReturns else s)
  | .writeSettles => if 0 < s.settles then s.pipeWriteSettled else .ok s
  | .fwdError error => s.pipeFwdError error
  | .bwdError error => s.pipeBwdError error
  | .fwdClose => s.pipeFwdClose
  | .destClosed error => s.pipeBwdError error
  | .aborts reason => if s.listening then s.pipeRunAbortAlgorithm reason else .ok s
  | .proceeds => if s.proceedQueued then s.pipeShutdownProceedDeferred else .ok s
  | .abortReturns => if s.acting = .aborting then s.abortReturns else .ok s
  | .actionReturns => .ok (if s.acting = .running then { s with acting := .pending } else s)
  | .actionSettles rejection =>
    if s.acting = .pending then s.pipeActionSettled rejection else .ok s
  | .sourceChanges state => .ok (s.setSource state)
  | .destChanges state closeQueued => .ok (s.setDest state closeQueued)

/-- A pipe between two streams. -/
def new (preventClose preventAbort preventCancel signal : Bool) (source : StreamState)
    (dest : DestState) (closeQueued : Bool) : Pipe χ ε :=
  setDest
    { preventClose := preventClose
      preventAbort := preventAbort
      preventCancel := preventCancel
      shutdown := none
      listening := signal
      pendingChunk := none
      pendingWrites := 0
      promise := none
      loop := .starting
      settles := 0
      proceedQueued := false
      acting := .idle
      source := source
      dest := dest
      closeQueued := closeQueued
      writerAttached := true
      readerAttached := true
      log := [] } dest closeQueued

end Pipe

/-- A pipe as a machine. -/
def machine (χ ε : Type) : Machine Site Empty (Pipe χ ε) (PipeEvent χ ε) := ⟨Pipe.step⟩

/-! ### What is to hold -/

namespace Record

/-- The chunk that was delivered. -/
def delivered? : Record χ ε → Option χ
  | delivered chunk => some chunk
  | _ => none

/-- The chunk that was written. -/
def written? : Record χ ε → Option (Option χ)
  | written chunk => some chunk
  | _ => none

/-- The chunk that was dropped. -/
def dropped? : Record χ ε → Option (Option χ)
  | dropped chunk => some chunk
  | _ => none

/-- The promise of a write that was settled. -/
def settled? : Record χ ε → Option Unit
  | settled => some ()
  | _ => none

/-- The shutdown that was recorded. -/
def recorded? : Record χ ε → Option (PipeShutdown ε)
  | recorded shutdown => some shutdown
  | _ => none

/-- A run of `pipe_shutdown_do_proceed`. -/
def proceeded? : Record χ ε → Option Unit
  | proceeded => some ()
  | _ => none

/-- What `pipe_finalize` was given. -/
def finalized? : Record χ ε → Option (Option ε)
  | finalized error => some error
  | _ => none

end Record

/-- What an action of a shutdown does, at most. -/
def PipeShutdown.Performs (shutdown : PipeShutdown ε) : Operation ε → Prop
  | .abortDest error =>
    (shutdown.action = .abortDest ∨ shutdown.action = .abortAlgorithm) ∧
      error = shutdown.actionError
  | .cancelSource error =>
    (shutdown.action = .cancelSource ∨ shutdown.action = .abortAlgorithm) ∧
      error = shutdown.actionError
  | .closeWriter => shutdown.action = .closeWriter

/-- What was delivered was written, and the writes have settled. -/
def AllWritten (l : List (Record χ ε)) : Prop :=
  l.filterMap Record.written? = (l.filterMap Record.delivered?).map some ∧
    (l.filterMap Record.settled?).length = (l.filterMap Record.written?).length

/-- **The protocol of a pipe**: which record may follow a log. -/
def Allowed (l : List (Record χ ε)) : Record χ ε → Prop
  | .read => l.filterMap Record.recorded? = []
  | .recorded _ => l.filterMap Record.recorded? = []
  | .written _ => l.filterMap Record.finalized? = []
  | .proceeded =>
    l.filterMap Record.proceeded? = [] ∧ (∃ shutdown, l.filterMap Record.recorded? = [shutdown]) ∧
      (.refuses ∉ l → AllWritten l)
  | .performed operation =>
    .performed operation ∉ l ∧ l.filterMap Record.proceeded? = [()] ∧
      l.filterMap Record.finalized? = [] ∧
      ∃ shutdown, l.filterMap Record.recorded? = [shutdown] ∧ shutdown.Performs operation
  | .finalized error =>
    l.filterMap Record.finalized? = [] ∧ l.filterMap Record.proceeded? = [()] ∧
      ∃ shutdown, l.filterMap Record.recorded? = [shutdown] ∧
        (shutdown.action = .none ∧ error = shutdown.originalError ∨
          ∃ rejection, l.getLast? = some (.acted rejection) ∧
            error = rejection.or shutdown.originalError)
  | _ => True

/-- What the options of the pipe forbid. -/
def Pipe.Prevents (s : Pipe χ ε) : Operation ε → Prop
  | .abortDest _ => s.preventAbort = true
  | .cancelSource _ => s.preventCancel = true
  | .closeWriter => s.preventClose = true

/-- **A pipe shuts down once.** -/
structure ShutsDownOnce (s : Pipe χ ε) : Prop where
  log : Protocol.Kept Allowed s.log
  /-- The options are kept to. -/
  prevented : ∀ operation, .performed operation ∈ s.log → ¬ s.Prevents operation
  /-- The promise is settled with what `pipe_finalize` was given. -/
  promise : s.promise.toList = s.log.filterMap Record.finalized?
  /-- The writer and the reader are released by `pipe_finalize`. -/
  released : s.writerAttached = (s.log.filterMap Record.finalized?).isEmpty ∧
    s.readerAttached = s.writerAttached
  /-- The chunk that is parked was taken when the next one arrives. -/
  parked : s.loop = .reading ∨ s.loop = .ready → s.pendingChunk = none
  /-- No event panics. -/
  safe : ∀ e site, s.step e ≠ .panic site

/-- What was delivered before `pipe_finalize` was written, and the writes have settled, where the
destination has taken chunks until then. -/
def Drained (l : List (Record χ ε)) : Record χ ε → Prop
  | .finalized _ => .refuses ∉ l → AllWritten l
  | _ => True

/-- **The chunks are written in order**, each at most once, and none is lost to a destination that
takes chunks. -/
structure WritesAll (s : Pipe χ ε) : Prop where
  order : s.log.filterMap Record.written? <+: (s.log.filterMap Record.delivered?).map some
  drained : Protocol.Kept Drained s.log

/-! ### The invariant -/

/-- A shutdown as it was recorded. -/
def PipeShutdown.plain (shutdown : PipeShutdown ε) : PipeShutdown ε :=
  { shutdown with waitingForWrites := false }

/-- How many chunks are on the stack of the destination's write. -/
def Loop.writing? : Loop → ℕ
  | writing => 1
  | _ => 0

/-- How many chunks are on their way to a write that has not returned. -/
def Loop.unwritten : Loop → ℕ
  | deferred | writing => 1
  | _ => 0

/-- Where the chunks are. -/
structure Flow (s : Pipe χ ε) : Prop where
  pending : s.pendingWrites = s.loop.unwritten + s.settles
  chunk : s.pendingChunk.isSome = true ↔ s.loop = .deferred
  delivered : (s.log.filterMap Record.delivered?).map some =
    s.log.filterMap Record.written? ++ s.log.filterMap Record.dropped? ++
      s.pendingChunk.toList.map some
  dropped : s.log.filterMap Record.dropped? ≠ [] → s.loop = .stopped ∧ s.writerAttached = false
  settled : (s.log.filterMap Record.settled?).length + s.settles + s.loop.writing? =
    (s.log.filterMap Record.written?).length
  attached : s.readerAttached = s.writerAttached
  reading : s.loop = .reading → s.source = .readable ∧ s.writerAttached = true
  refuses : s.accepts = false → .refuses ∈ s.log

/-- What the log says of the shutdown. -/
structure Logged (s : Pipe χ ε) (r : Option (PipeShutdown ε)) (p : Bool)
    (f : Option (Option ε)) : Prop where
  recorded : s.log.filterMap Record.recorded? = r.toList
  proceeded : s.log.filterMap Record.proceeded? = if p then [()] else []
  finalized : s.log.filterMap Record.finalized? = f.toList
  promise : s.promise = f
  attached : s.writerAttached = f.isNone
  shutdown : s.shutdown.map PipeShutdown.plain = r

/-- **How far the shutdown is.** -/
inductive Phase (s : Pipe χ ε) : Prop where
  | running (logged : Logged s none false none) (h : s.shutdown = none)
      (queued : s.proceedQueued = false) (acting : s.acting = .idle)
  | waiting (shutdown : PipeShutdown ε) (logged : Logged s (some shutdown.plain) false none)
      (h : s.shutdown = some shutdown) (queued : s.proceedQueued = !shutdown.waitingForWrites)
      (acting : s.acting = .idle)
  | acting (shutdown : PipeShutdown ε) (logged : Logged s (some shutdown) true none)
      (h : s.shutdown = some shutdown) (queued : s.proceedQueued = false)
      (acting : s.acting ≠ .idle)
      (aborting : s.acting = .aborting → shutdown.action = .abortAlgorithm ∧
        .performed (.cancelSource shutdown.actionError) ∉ s.log ∧ .refuses ∈ s.log)
  | ended (shutdown : PipeShutdown ε) (error : Option ε)
      (logged : Logged s (some shutdown) true (some error)) (h : s.shutdown = some shutdown)
      (queued : s.proceedQueued = false) (acting : s.acting = .idle)

/-- The options are kept to. -/
structure Keeps (s : Pipe χ ε) : Prop where
  recorded : ∀ shutdown ∈ s.shutdown, ∀ operation, shutdown.Performs operation →
    s.Prevents operation → shutdown.action = .abortAlgorithm
  performed : ∀ operation, .performed operation ∈ s.log → ¬ s.Prevents operation

/-- No action can leave the destination and the source as they are. -/
def Pipe.Acts (s : Pipe χ ε) : Prop := ¬ (s.preventAbort = true ∧ s.preventCancel = true)

/-- Nothing is on its way to a destination that takes chunks while the action is performed. -/
structure Drains (s : Pipe χ ε) : Prop where
  acting : s.acting ≠ .idle → .refuses ∉ s.log → s.pendingWrites = 0 ∧ s.loop ≠ .reading
  log : Protocol.Kept Drained s.log

/-- **The invariant.** -/
structure Inv (s : Pipe χ ε) : Prop where
  flow : Flow s
  phase : Phase s
  keeps : Keeps s
  log : Protocol.Kept Allowed s.log
  drains : s.Acts → Drains s

/-! ### Steps of the loop and of the streams -/

/-- Records that say nothing of the shutdown. -/
def Record.Quiet : Record χ ε → Prop
  | recorded _ | proceeded | performed _ | finalized _ => False
  | _ => True

namespace Record

variable {l : List (Record χ ε)}

private theorem filterMap_quiet {β : Type} {f : Record χ ε → Option β}
    (hf : ∀ r, Quiet r → f r = none) (h : ∀ r ∈ l, r.Quiet) : l.filterMap f = [] :=
  List.filterMap_eq_nil_iff.mpr fun r hr => hf r (h r hr)

theorem recorded_quiet (h : ∀ r ∈ l, r.Quiet) : l.filterMap recorded? = [] :=
  filterMap_quiet (fun r hr => by cases r <;> first | rfl | exact hr.elim) h

theorem proceeded_quiet (h : ∀ r ∈ l, r.Quiet) : l.filterMap proceeded? = [] :=
  filterMap_quiet (fun r hr => by cases r <;> first | rfl | exact hr.elim) h

theorem finalized_quiet (h : ∀ r ∈ l, r.Quiet) : l.filterMap finalized? = [] :=
  filterMap_quiet (fun r hr => by cases r <;> first | rfl | exact hr.elim) h

theorem performed_quiet (h : ∀ r ∈ l, r.Quiet) (operation : Operation ε) :
    .performed operation ∉ l :=
  fun hr => h _ hr

theorem drained_quiet (h : ∀ r ∈ l, r.Quiet) : ∀ r ∈ l, ∀ m, Drained m r := by
  intro r hr m
  have := h r hr
  cases r <;> trivial

end Record

/-- What the shutdown consists of is as it was. -/
structure Frame (s t : Pipe χ ε) (l : List (Record χ ε)) : Prop where
  preventClose : t.preventClose = s.preventClose
  preventAbort : t.preventAbort = s.preventAbort
  preventCancel : t.preventCancel = s.preventCancel
  shutdown : t.shutdown = s.shutdown
  promise : t.promise = s.promise
  writer : t.writerAttached = s.writerAttached
  queued : t.proceedQueued = s.proceedQueued
  acting : t.acting = s.acting
  log : t.log = s.log ++ l
  quiet : ∀ r ∈ l, r.Quiet

variable {s t : Pipe χ ε} {l : List (Record χ ε)}

theorem Frame.prevents (hf : Frame s t l) (operation : Operation ε) :
    t.Prevents operation ↔ s.Prevents operation := by
  cases operation <;>
    simp only [Pipe.Prevents, hf.preventAbort, hf.preventCancel, hf.preventClose]

theorem Frame.acts (hf : Frame s t l) : t.Acts ↔ s.Acts := by
  simp only [Pipe.Acts, hf.preventAbort, hf.preventCancel]

theorem Logged.frame {r : Option (PipeShutdown ε)} {p : Bool} {f : Option (Option ε)}
    (h : Logged s r p f) (hf : Frame s t l) : Logged t r p f where
  recorded := by
    rw [hf.log, List.filterMap_append, Record.recorded_quiet hf.quiet, List.append_nil, h.recorded]
  proceeded := by
    rw [hf.log, List.filterMap_append, Record.proceeded_quiet hf.quiet, List.append_nil,
      h.proceeded]
  finalized := by
    rw [hf.log, List.filterMap_append, Record.finalized_quiet hf.quiet, List.append_nil,
      h.finalized]
  promise := hf.promise.trans h.promise
  attached := hf.writer.trans h.attached
  shutdown := (congrArg _ hf.shutdown).trans h.shutdown

theorem Frame.performed (hf : Frame s t l) (operation : Operation ε) :
    .performed operation ∈ t.log ↔ .performed operation ∈ s.log := by
  rw [hf.log, List.mem_append, or_iff_left (Record.performed_quiet hf.quiet operation)]

theorem Phase.frame (h : Phase s) (hf : Frame s t l) : Phase t := by
  cases h with
  | running logged h queued acting =>
    exact .running (logged.frame hf) (hf.shutdown.trans h) (hf.queued.trans queued)
      (hf.acting.trans acting)
  | waiting shutdown logged h queued acting =>
    exact .waiting shutdown (logged.frame hf) (hf.shutdown.trans h) (hf.queued.trans queued)
      (hf.acting.trans acting)
  | acting shutdown logged h queued acting aborting =>
    refine .acting shutdown (logged.frame hf) (hf.shutdown.trans h) (hf.queued.trans queued)
      (by rwa [hf.acting]) fun ha => ?_
    obtain ⟨haction, hp, hr⟩ := aborting (hf.acting ▸ ha)
    rw [hf.performed, hf.log]
    exact ⟨haction, hp, List.mem_append_left _ hr⟩
  | ended shutdown error logged h queued acting =>
    exact .ended shutdown error (logged.frame hf) (hf.shutdown.trans h) (hf.queued.trans queued)
      (hf.acting.trans acting)

theorem Keeps.frame (h : Keeps s) (hf : Frame s t l) : Keeps t where
  recorded := by
    intro shutdown hs operation hp hprev
    exact h.recorded shutdown (hf.shutdown ▸ hs) operation hp ((hf.prevents operation).mp hprev)
  performed := by
    intro operation hp hprev
    exact h.performed operation ((hf.performed operation).mp hp)
      ((hf.prevents operation).mp hprev)

/-- A step that leaves the shutdown alone. -/
theorem Inv.frame (h : Inv s) (hf : Frame s t l) (hflow : Flow t)
    (hallowed : ∀ r ∈ l, ∀ m, (∀ r' ∈ m, r'.Quiet) → Allowed (s.log ++ m) r)
    (hdrain : s.acting ≠ .idle → s.pendingWrites = 0 ∧ s.loop ≠ .reading →
      t.pendingWrites = 0 ∧ t.loop ≠ .reading) : Inv t where
  flow := hflow
  phase := h.phase.frame hf
  keeps := h.keeps.frame hf
  log := by
    rw [hf.log]
    refine h.log.extend fun l₁ r l₂ heq => hallowed r (by simp [heq]) l₁ fun r' hr' => ?_
    exact hf.quiet r' (by simp [heq, hr'])
  drains := by
    intro hacts
    have hd := h.drains (hf.acts.mp hacts)
    refine ⟨fun ha hr => ?_, ?_⟩
    · rw [hf.log] at hr
      exact hdrain (hf.acting ▸ ha)
        (hd.acting (hf.acting ▸ ha) fun hm => hr (List.mem_append_left _ hm))
    · rw [hf.log]
      exact hd.log.append (Record.drained_quiet hf.quiet)

/-- A record that says nothing of the chunks. -/
theorem Flow.record (h : Flow s) {r : Record χ ε} (hdelivered : r.delivered? = none)
    (hwritten : r.written? = none) (hdropped : r.dropped? = none) (hsettled : r.settled? = none) :
    Flow (s.record r) where
  pending := h.pending
  chunk := h.chunk
  delivered := by
    simpa [Pipe.record, List.filterMap_cons, hdelivered, hwritten, hdropped] using h.delivered
  dropped := by simpa [Pipe.record, List.filterMap_cons, hdropped] using h.dropped
  settled := by simpa [Pipe.record, List.filterMap_cons, hsettled, hwritten] using h.settled
  attached := h.attached
  reading := h.reading
  refuses := fun ha => List.mem_append_left _ (h.refuses ha)

attribute [local simp] Record.delivered? Record.written? Record.dropped? Record.settled?
  List.filterMap_cons Pipe.record Record.Quiet Allowed

theorem Loop.idle (loop : Loop) (h : loop.unwritten = 0) :
    loop.writing? = 0 ∧ loop ≠ .deferred := by
  cases loop <;> simp_all [Loop.unwritten, Loop.writing?]

/-- The loop changes while no chunk is on its way. -/
theorem Flow.setLoop (h : Flow s) (loop : Loop) (hs : s.loop.unwritten = 0)
    (hl : loop.unwritten = 0) (hstop : s.loop = .stopped → loop = .stopped)
    (hread : loop = .reading → s.source = .readable ∧ s.writerAttached = true) :
    Flow { s with loop := loop } where
  pending := by rw [h.pending, hs, hl]
  chunk := by simpa [(Loop.idle _ hs).2, (Loop.idle _ hl).2] using h.chunk
  delivered := h.delivered
  dropped := fun hd => ⟨hstop (h.dropped hd).1, (h.dropped hd).2⟩
  settled := by rw [← h.settled, (Loop.idle _ hs).1, (Loop.idle _ hl).1]
  attached := h.attached
  reading := hread
  refuses := h.refuses

theorem frame_setDest (s : Pipe χ ε) (dest : DestState) (closeQueued : Bool) :
    ∃ l, Frame s (s.setDest dest closeQueued) l ∧ ∀ r ∈ l, r = .refuses := by
  rw [Pipe.setDest]
  split
  · exact ⟨[], ⟨rfl, rfl, rfl, rfl, rfl, rfl, rfl, rfl, (List.append_nil _).symm, by simp⟩, by simp⟩
  · exact ⟨[.refuses], ⟨rfl, rfl, rfl, rfl, rfl, rfl, rfl, rfl, rfl, by simp⟩, by simp⟩

theorem flow_setDest (h : Flow s) (dest : DestState) (closeQueued : Bool) :
    Flow (s.setDest dest closeQueued) := by
  rw [Pipe.setDest]
  split
  · exact { h with refuses := by simp_all }
  · exact { h.record (r := .refuses) rfl rfl rfl rfl with refuses := by simp }

theorem pending_setDest (s : Pipe χ ε) (dest : DestState) (closeQueued : Bool) :
    (s.setDest dest closeQueued).pendingWrites = s.pendingWrites ∧
      (s.setDest dest closeQueued).loop = s.loop := by
  rw [Pipe.setDest]
  split <;> exact ⟨rfl, rfl⟩

theorem acting_setDest (s : Pipe χ ε) (dest : DestState) (closeQueued : Bool) :
    (s.setDest dest closeQueued).acting = s.acting := by
  rw [Pipe.setDest]
  split <;> rfl

theorem inv_setDest (h : Inv s) (dest : DestState) (closeQueued : Bool) :
    Inv (s.setDest dest closeQueued) := by
  obtain ⟨l, hf, hl⟩ := frame_setDest s dest closeQueued
  obtain ⟨hp, hloop⟩ := pending_setDest s dest closeQueued
  refine h.frame hf (flow_setDest h.flow dest closeQueued) (fun r hr m _ => ?_) fun _ hd => ?_
  · rw [hl r hr]
    trivial
  · rwa [hp, hloop]

theorem frame_setSource (s : Pipe χ ε) (source : StreamState) :
    Frame s (s.setSource source) [] :=
  ⟨rfl, rfl, rfl, rfl, rfl, rfl, rfl, rfl, (List.append_nil _).symm, by simp⟩

theorem loop_setSource (s : Pipe χ ε) (source : StreamState) :
    (s.setSource source).loop = s.loop ∨
      s.loop = .reading ∧ (s.setSource source).loop = .stopped := by
  by_cases hr : source ≠ .readable ∧ s.loop = .reading
  · exact .inr ⟨hr.2, by simp [Pipe.setSource, hr]⟩
  · exact .inl (if_neg (by simpa using hr))

theorem reading_setSource {source : StreamState} (h : (s.setSource source).loop = .reading) :
    s.loop = .reading ∧ source = .readable := by
  by_cases hr : source ≠ .readable ∧ s.loop = .reading
  · rw [show (s.setSource source).loop = .stopped from if_pos (by simpa using hr)] at h
    exact Loop.noConfusion h
  · rw [show (s.setSource source).loop = s.loop from if_neg (by simpa using hr)] at h
    exact ⟨h, by simpa [h] using hr⟩

theorem flow_setSource (h : Flow s) (source : StreamState) : Flow (s.setSource source) where
  pending := by
    rw [show (s.setSource source).pendingWrites = s.pendingWrites from rfl, h.pending]
    rcases loop_setSource s source with hl | ⟨hs, hl⟩
    · rw [hl]; rfl
    · rw [hl, hs]; rfl
  chunk := by
    rw [show (s.setSource source).pendingChunk = s.pendingChunk from rfl, h.chunk]
    rcases loop_setSource s source with hl | ⟨hs, hl⟩ <;> simp [*]
  delivered := h.delivered
  dropped := by
    intro hd
    refine ⟨?_, (h.dropped hd).2⟩
    rcases loop_setSource s source with hl | ⟨hs, hl⟩
    · rw [hl, (h.dropped hd).1]
    · exact hl
  settled := by
    refine Eq.trans ?_ h.settled
    rcases loop_setSource s source with hl | ⟨hs, hl⟩
    · rw [hl]; rfl
    · rw [hl, hs]; rfl
  attached := h.attached
  reading := by
    intro hr
    obtain ⟨hl, hsource⟩ := reading_setSource hr
    exact ⟨hsource, (h.reading hl).2⟩
  refuses := h.refuses

theorem inv_setSource (h : Inv s) (source : StreamState) : Inv (s.setSource source) := by
  refine h.frame (frame_setSource s source) (flow_setSource h.flow source) (by simp)
    fun _ hd => ⟨hd.1, ?_⟩
  exact fun hr => hd.2 (reading_setSource hr).1

theorem inv_start (h : Inv s) (hl : s.loop = .starting) : Inv s.pipeStep := by
  refine h.frame (l := []) ⟨rfl, rfl, rfl, rfl, rfl, rfl, rfl, rfl, (List.append_nil _).symm,
    by simp⟩ ?_ (by simp) fun _ hd => ⟨hd.1, ?_⟩
  · refine h.flow.setLoop _ (by simp [hl, Loop.unwritten]) ?_ (by simp [hl]) ?_
    · split <;> rfl
    · split <;> simp
  · simp only [Pipe.pipeStep]
    split <;> simp

/-- The loop stops where no chunk is on its way. -/
theorem inv_stop (h : Inv s) (hl : s.loop.unwritten = 0) : Inv { s with loop := .stopped } :=
  h.frame (l := []) ⟨rfl, rfl, rfl, rfl, rfl, rfl, rfl, rfl, (List.append_nil _).symm,
    by simp⟩ (h.flow.setLoop _ hl rfl (fun _ => rfl) (by simp)) (by simp)
    fun _ hd => ⟨hd.1, by simp⟩

theorem Flow.chunkSteps (h : Flow s) (hl : s.loop = .ready ∨ s.loop = .reading) (chunk : χ) :
    Flow (s.pipeReadRequestChunkSteps chunk) where
  pending := by
    have := h.pending
    rcases hl with hl | hl <;>
      simp_all [Pipe.pipeReadRequestChunkSteps, Loop.unwritten, Nat.add_comm]
  chunk := by simp [Pipe.pipeReadRequestChunkSteps]
  delivered := by
    have hchunk : s.pendingChunk = none := by
      have := h.chunk
      rcases hl with hl | hl <;> simpa [hl] using this
    have := h.delivered
    simp_all [Pipe.pipeReadRequestChunkSteps]
  dropped := by
    intro hd
    have := (h.dropped (by simpa [Pipe.pipeReadRequestChunkSteps] using hd)).1
    rcases hl with hl | hl <;> rw [hl] at this <;> exact Loop.noConfusion this
  settled := by
    have := h.settled
    rcases hl with hl | hl <;> simp_all [Pipe.pipeReadRequestChunkSteps, Loop.writing?]
  attached := h.attached
  reading := by simp [Pipe.pipeReadRequestChunkSteps]
  refuses := fun ha => List.mem_append_left _ (h.refuses ha)

theorem inv_chunk (h : Inv s) (hl : s.loop = .reading) (chunk : χ) :
    Inv (s.pipeReadRequestChunkSteps chunk) :=
  h.frame (l := [.delivered chunk]) ⟨rfl, rfl, rfl, rfl, rfl, rfl, rfl, rfl, rfl, by simp⟩
    (h.flow.chunkSteps (.inr hl) chunk) (by simp) fun _ hd => absurd hl hd.2

/-- The reader and the writer are attached until the pipe is finalized. -/
theorem Phase.attached (h : Phase s) (hs : s.shutdown = none) :
    s.writerAttached = true ∧ s.acting = .idle ∧ s.log.filterMap Record.recorded? = [] := by
  cases h with
  | running logged h queued acting => exact ⟨logged.attached, acting, logged.recorded⟩
  | waiting shutdown logged h => rw [hs] at h; cases h
  | acting shutdown logged h => rw [hs] at h; cases h
  | ended shutdown error logged h => rw [hs] at h; cases h

theorem sat_pipeReadyFulfilled (h : Inv s) (hl : s.loop = .ready) (answer : Option χ) :
    (s.pipeReadyFulfilled answer).Sat Inv Inv fun _ => False := by
  have hidle : s.loop.unwritten = 0 := by rw [hl]; rfl
  rw [Pipe.pipeReadyFulfilled]
  split
  · exact inv_stop h hidle
  · rename_i hs
    obtain ⟨hattached, hacting, hrecorded⟩ := h.phase.attached (by simpa using hs)
    rw [if_pos (h.flow.attached.trans hattached)]
    -- no shutdown is recorded, so the log may still grow by a read
    have hflow : Flow (s.record .read) := h.flow.record rfl rfl rfl rfl
    have hallowed : ∀ m : List (Record χ ε), (∀ r ∈ m, r.Quiet) →
        Allowed (s.log ++ m) .read := by
      intro m hm
      simp only [Allowed, List.filterMap_append, hrecorded, Record.recorded_quiet hm,
        List.append_nil]
    cases answer with
    | some chunk =>
      -- the read is answered at once: the chunk waits for its deferred write
      refine h.frame (l := [.read, .delivered chunk]) ⟨rfl, rfl, rfl, rfl, rfl, rfl, rfl, rfl,
        by simp [Pipe.pipeReadRequestChunkSteps], by simp⟩ (hflow.chunkSteps (.inl hl) chunk) ?_
        fun ha => absurd hacting ha
      intro r hr
      rcases List.mem_pair.mp hr with rfl | rfl
      · exact hallowed
      · exact fun m hm => trivial
    | none =>
      -- the read request stays with a readable source, and is closed or errored by another
      refine h.frame (l := [.read]) ⟨rfl, rfl, rfl, rfl, rfl, rfl, rfl, rfl, rfl, by simp⟩ ?_ ?_
        fun ha => absurd hacting ha
      · refine hflow.setLoop _ hidle ?_ (fun h => ?_) ?_
        · split <;> rfl
        · rw [show (s.record .read).loop = s.loop from rfl, hl] at h
          exact Loop.noConfusion h
        · split
          · exact fun _ => ⟨‹_›, hattached⟩
          · simp
      · intro r hr
        rw [List.mem_singleton.mp hr]
        exact hallowed

theorem Phase.not_finalized (h : Phase s) (ha : s.writerAttached = true) :
    s.log.filterMap Record.finalized? = [] := by
  cases h with
  | running logged => exact logged.finalized
  | waiting shutdown logged => exact logged.finalized
  | acting shutdown logged => exact logged.finalized
  | ended shutdown error logged =>
    rw [logged.attached] at ha
    cases ha

/-- The writer is released only when no action is performed any more. -/
theorem Phase.idle (h : Phase s) (ha : s.writerAttached = false) : s.acting = .idle := by
  cases h with
  | running logged h queued acting => exact acting
  | waiting shutdown logged h queued acting => exact acting
  | acting shutdown logged =>
    rw [logged.attached] at ha
    cases ha
  | ended shutdown error logged h queued acting => exact acting

theorem sat_pipeDeferredWrite (h : Inv s) (hl : s.loop = .deferred) :
    s.pipeDeferredWrite.Sat Inv Inv fun _ => False := by
  -- the deferred write is one of the pending ones, and its chunk is there
  have hpending : s.pendingWrites = 1 + s.settles := by rw [h.flow.pending, hl]; rfl
  obtain ⟨chunk, hchunk⟩ := Option.isSome_iff_exists.mp (h.flow.chunk.mpr hl)
  have hdropped : s.log.filterMap Record.dropped? = [] := by
    by_contra hd
    rw [(h.flow.dropped hd).1] at hl
    exact Loop.noConfusion hl
  have hdelivered := h.flow.delivered
  have hsettled := h.flow.settled
  simp only [hdropped, hchunk, hl, Loop.writing?] at hdelivered hsettled
  rw [Pipe.pipeDeferredWrite]
  split
  · -- the chunk that was delivered last is the one written
    rename_i hattached
    refine h.frame (l := [.written s.pendingChunk]) ⟨rfl, rfl, rfl, rfl, rfl, rfl, rfl, rfl, rfl,
      by simp⟩ ?_ ?_ fun _ hd => by omega
    · exact {
        pending := hpending
        chunk := by simp
        delivered := by simpa [hdropped, hchunk] using hdelivered
        dropped := by simp [hdropped]
        settled := by simpa [Loop.writing?] using hsettled
        attached := h.flow.attached
        reading := by simp
        refuses := fun ha => List.mem_append_left _ (h.flow.refuses ha) }
    · intro r hr m hm
      rw [List.mem_singleton.mp hr, Allowed, List.filterMap_append,
        h.phase.not_finalized hattached, Record.finalized_quiet hm, List.append_nil]
  · -- the pipe was finalized meanwhile: the chunk is dropped, and nothing is written any more
    rename_i hattached
    replace hattached : s.writerAttached = false := by simpa using hattached
    rw [if_pos (show 0 < s.pendingWrites by omega)]
    refine h.frame (l := [.dropped s.pendingChunk]) ⟨rfl, rfl, rfl, rfl, rfl, rfl, rfl, rfl, rfl,
      by simp⟩ ?_ (by simp) fun ha => absurd (h.phase.idle hattached) ha
    exact {
      pending := by simp [hpending, Loop.unwritten]
      chunk := by simp
      delivered := by simpa [hdropped, hchunk] using hdelivered
      dropped := fun _ => ⟨rfl, hattached⟩
      settled := by simpa [Loop.writing?] using hsettled
      attached := h.flow.attached
      reading := by simp
      refuses := fun ha => List.mem_append_left _ (h.flow.refuses ha) }

theorem inv_writeReturns (h : Inv s) (hl : s.loop = .writing) : Inv s.writeReturns := by
  have hpending := h.flow.pending
  have hchunk := h.flow.chunk
  have hdropped := h.flow.dropped
  have hsettled := h.flow.settled
  simp only [hl, Loop.unwritten, Loop.writing?] at hpending hchunk hdropped hsettled
  -- the loop goes on, unless a shutdown was recorded while the write ran
  have hloop : s.writeReturns.loop = .stopped ∨ s.writeReturns.loop = .ready := by
    simp only [Pipe.writeReturns, Pipe.pipeStep]
    split <;> simp
  refine h.frame (l := []) ⟨rfl, rfl, rfl, rfl, rfl, rfl, rfl, rfl, (List.append_nil _).symm,
    by simp⟩ ?_ (by simp) fun _ hd => ?_
  · exact {
      -- the write moves from the loop to the promises that are to settle
      pending := by
        rw [show s.writeReturns.settles = s.settles + 1 from rfl,
          show s.writeReturns.pendingWrites = s.pendingWrites from rfl, hpending]
        rcases hloop with hl' | hl' <;> simp [hl', Loop.unwritten, Nat.add_comm]
      chunk := by
        rw [show s.writeReturns.pendingChunk = s.pendingChunk from rfl, hchunk]
        rcases hloop with hl' | hl' <;> simp [hl']
      delivered := h.flow.delivered
      dropped := fun hd => Loop.noConfusion (hdropped hd).1
      settled := by
        refine Eq.trans ?_ hsettled
        rw [show s.writeReturns.settles = s.settles + 1 from rfl]
        rcases hloop with hl' | hl' <;> rw [hl'] <;> rfl
      attached := h.flow.attached
      reading := by
        intro hr
        rcases hloop with hl' | hl' <;> rw [hl'] at hr <;> exact Loop.noConfusion hr
      refuses := h.flow.refuses }
  · omega

/-! ### Steps of the shutdown -/

/-- A shutdown is recorded, and the pipe is not finalized. -/
structure Shutting (s : Pipe χ ε) (shutdown : PipeShutdown ε) (proceeded : Bool) : Prop where
  flow : Flow s
  logged : Logged s (some shutdown) proceeded none
  shutdown : s.shutdown = some shutdown
  queued : s.proceedQueued = false
  keeps : Keeps s
  log : Protocol.Kept Allowed s.log
  drained : s.Acts → Protocol.Kept Drained s.log

/-- Nothing is on its way, and nothing was dropped. -/
theorem Flow.allWritten (h : Flow s) (ha : s.writerAttached = true) (hp : s.pendingWrites = 0) :
    AllWritten s.log := by
  have hpending := h.pending
  have hidle := Loop.idle s.loop (by omega)
  have hdropped : s.log.filterMap Record.dropped? = [] := by
    by_contra hd
    rw [(h.dropped hd).2] at ha
    cases ha
  have hchunk : s.pendingChunk = none := by simpa [hidle.2] using h.chunk
  constructor
  · rw [h.delivered, hdropped, hchunk]
    simp
  · have := h.settled
    omega

/-- Only a chunk that was delivered late is left to a pipe that is finalized. -/
theorem Flow.finalize (h : Flow s) (error : Option ε) :
    Flow { s.record (.finalized error) with
      writerAttached := false
      readerAttached := false
      loop := if s.loop = .reading then .stopped else s.loop
      listening := false
      promise := s.promise.or (some error) } := by
  have hrecord : Flow (s.record (.finalized error)) := h.record rfl rfl rfl rfl
  by_cases hl : s.loop = .reading
  · rw [if_pos hl]
    have hstop := hrecord.setLoop .stopped (by simp [hl, Loop.unwritten]) rfl
      (fun _ => rfl) (by simp)
    exact { hstop with
      dropped := fun hd => ⟨(hstop.dropped hd).1, rfl⟩
      attached := rfl
      reading := by simp }
  · rw [if_neg hl]
    exact { hrecord with
      dropped := fun hd => ⟨(hrecord.dropped hd).1, rfl⟩
      attached := rfl
      reading := fun hr => absurd hr hl }

variable {shutdown : PipeShutdown ε}

theorem Keeps.record (h : Keeps s) {r : Record χ ε}
    (hr : ∀ operation, r = .performed operation → ¬ s.Prevents operation) : Keeps (s.record r) where
  recorded := h.recorded
  performed := by
    intro operation hp
    rcases List.mem_append.mp hp with hp | hp
    · exact h.performed operation hp
    · exact hr operation (List.mem_singleton.mp hp).symm

theorem sat_pipeFinalize (h : Shutting s shutdown true) (hacting : s.acting = .idle)
    {error : Option ε} (herror : shutdown.action = .none ∧ error = shutdown.originalError ∨
      ∃ rejection, s.log.getLast? = some (.acted rejection) ∧
        error = rejection.or shutdown.originalError)
    (hwritten : s.Acts → .refuses ∉ s.log → s.pendingWrites = 0) :
    (s.pipeFinalize error).Sat Inv Inv fun _ => False := by
  have hattached : s.writerAttached = true := h.logged.attached
  have hpromise : s.promise = none := h.logged.promise
  have hkeeps : Keeps (s.record (.finalized error)) := h.keeps.record (by simp)
  rw [Pipe.pipeFinalize, if_pos hattached, if_pos (h.flow.attached.trans hattached)]
  exact {
    flow := h.flow.finalize error
    phase := by
      refine .ended shutdown error ?_ h.shutdown h.queued hacting
      exact {
        recorded := by simpa [Record.recorded?] using h.logged.recorded
        proceeded := by simpa [Record.proceeded?] using h.logged.proceeded
        finalized := by simpa [Record.finalized?] using h.logged.finalized
        promise := by simp [hpromise]
        attached := rfl
        shutdown := h.logged.shutdown }
    keeps := ⟨hkeeps.recorded, hkeeps.performed⟩
    log := h.log.concat ⟨h.logged.finalized, h.logged.proceeded, shutdown, h.logged.recorded,
      herror⟩
    drains := fun hacts => {
      acting := fun ha => absurd hacting ha
      log := (h.drained hacts).concat fun hr =>
        h.flow.allWritten hattached (hwritten hacts hr) } }

theorem Logged.record {r : Option (PipeShutdown ε)} {p : Bool} {f : Option (Option ε)}
    (h : Logged s r p f) {x : Record χ ε} (hrecorded : x.recorded? = none)
    (hproceeded : x.proceeded? = none) (hfinalized : x.finalized? = none) :
    Logged (s.record x) r p f where
  recorded := by simpa [hrecorded] using h.recorded
  proceeded := by simpa [hproceeded] using h.proceeded
  finalized := by simpa [hfinalized] using h.finalized
  promise := h.promise
  attached := h.attached
  shutdown := h.shutdown

/-- An operation of the action. -/
theorem Shutting.perform (h : Shutting s shutdown true) {operation : Operation ε}
    (hnew : .performed operation ∉ s.log) (hp : shutdown.Performs operation)
    (hprevents : ¬ s.Prevents operation) :
    Shutting (s.record (.performed operation)) shutdown true where
  flow := h.flow.record rfl rfl rfl rfl
  logged := h.logged.record rfl rfl rfl
  shutdown := h.shutdown
  queued := h.queued
  keeps := h.keeps.record fun operation' heq => by cases heq; exact hprevents
  log := h.log.concat
    ⟨hnew, h.logged.proceeded, h.logged.finalized, shutdown, h.logged.recorded, hp⟩
  drained := fun hacts => (h.drained hacts).concat trivial

theorem Shutting.frame {p : Bool} (h : Shutting s shutdown p) (hf : Frame s t l) (hflow : Flow t)
    (hallowed : ∀ r ∈ l, ∀ m, Allowed m r) : Shutting t shutdown p where
  flow := hflow
  logged := h.logged.frame hf
  shutdown := hf.shutdown.trans h.shutdown
  queued := hf.queued.trans h.queued
  keeps := h.keeps.frame hf
  log := by
    rw [hf.log]
    exact h.log.append hallowed
  drained := by
    intro hacts
    rw [hf.log]
    exact (h.drained (hf.acts.mp hacts)).append (Record.drained_quiet hf.quiet)

/-- The action is performed. -/
theorem Shutting.inv (h : Shutting s shutdown true) (hacting : s.acting ≠ .idle)
    (haborting : s.acting = .aborting → shutdown.action = .abortAlgorithm ∧
      .performed (.cancelSource shutdown.actionError) ∉ s.log ∧ .refuses ∈ s.log)
    (hdrains : s.Acts → .refuses ∉ s.log → s.pendingWrites = 0 ∧ s.loop ≠ .reading) : Inv s where
  flow := h.flow
  phase := .acting shutdown h.logged h.shutdown h.queued hacting haborting
  keeps := h.keeps
  log := h.log
  drains := fun hacts => ⟨fun _ => hdrains hacts, h.drained hacts⟩

theorem Shutting.setActing {p : Bool} (h : Shutting s shutdown p) (acting : Acting) :
    Shutting { s with acting := acting } shutdown p :=
  { h with
    flow := { h.flow with }
    logged := { h.logged with }
    keeps := ⟨h.keeps.recorded, h.keeps.performed⟩
    drained := h.drained }

theorem Shutting.setDest (h : Shutting s shutdown true) (dest : DestState) (closeQueued : Bool) :
    Shutting (s.setDest dest closeQueued) shutdown true := by
  obtain ⟨l, hf, hl⟩ := frame_setDest s dest closeQueued
  refine h.frame hf (flow_setDest h.flow dest closeQueued) fun r hr m => ?_
  rw [hl r hr]
  trivial

theorem refuses_setDest {dest : DestState} {closeQueued : Bool}
    (h : dest ≠ .writable ∨ closeQueued = true) : .refuses ∈ (s.setDest dest closeQueued).log := by
  rw [Pipe.setDest, if_neg]
  · simp
  · rcases h with h | h <;> simp [Pipe.accepts, h]

/-- The destination is aborted. -/
theorem Shutting.abortDest (h : Shutting s shutdown true)
    (hnew : .performed (.abortDest shutdown.actionError) ∉ s.log)
    (haction : shutdown.action = .abortDest ∨ shutdown.action = .abortAlgorithm)
    (hprevents : s.preventAbort = false) :
    Shutting (s.abortDest shutdown.actionError) shutdown true ∧
      .refuses ∈ (s.abortDest shutdown.actionError).log := by
  refine ⟨(h.perform hnew ⟨haction, rfl⟩ (by simp [Pipe.Prevents, hprevents])).setDest _ _,
    refuses_setDest (.inl ?_)⟩
  split
  · simp
  · assumption

/-- The source is cancelled. -/
theorem Shutting.cancelSource (h : Shutting s shutdown true)
    (hnew : .performed (.cancelSource shutdown.actionError) ∉ s.log)
    (haction : shutdown.action = .cancelSource ∨ shutdown.action = .abortAlgorithm)
    (hprevents : s.preventCancel = false) :
    Shutting (s.cancelSource shutdown.actionError) shutdown true ∧
      (s.cancelSource shutdown.actionError).loop ≠ .reading := by
  have hp := h.perform hnew ⟨haction, rfl⟩ (by simp [Pipe.Prevents, hprevents])
  refine ⟨hp.frame (frame_setSource _ _) (flow_setSource hp.flow _) (by simp), fun hr => ?_⟩
  have hreadable := (reading_setSource hr).2
  split at hreadable
  · cases hreadable
  · contradiction

/-- The writer is closed. It is attached until the pipe is finalized. -/
theorem Shutting.sat_closeWriter (h : Shutting s shutdown true)
    (hnew : .performed .closeWriter ∉ s.log) (haction : shutdown.action = .closeWriter)
    (hprevents : s.preventClose = false) :
    s.closeWriter.Sat
      (fun t => Shutting t shutdown true ∧ .refuses ∈ t.log ∧ t.acting = s.acting)
      Inv fun _ => False := by
  have hattached : s.writerAttached = true := h.logged.attached
  rw [Pipe.closeWriter, if_pos hattached, Outcome.sat_ok]
  refine ⟨(h.perform hnew haction (by simp [Pipe.Prevents, hprevents])).setDest _ _,
    refuses_setDest ?_, acting_setDest _ _ _⟩
  by_cases hd : s.dest = .writable
  · exact .inr (by simp [hd])
  · exact .inl hd

/-- The abort algorithm, from the return of the abort of the destination. -/
theorem Shutting.rest (h : Shutting s shutdown true) (haction : shutdown.action = .abortAlgorithm)
    (hnew : .performed (.cancelSource shutdown.actionError) ∉ s.log)
    (hwritten : .refuses ∉ s.log → s.pendingWrites = 0)
    (haborted : s.preventAbort = false → .refuses ∈ s.log) :
    Inv (s.pipeBuildAbortActionsPromiseRest shutdown.actionError) := by
  have hrunning := h.setActing .running
  simp only [Pipe.pipeBuildAbortActionsPromiseRest]
  split
  · rename_i hc
    simp only [Bool.and_eq_true, Bool.not_eq_true', decide_eq_true_eq] at hc
    obtain ⟨hcancel, hl⟩ := hrunning.cancelSource hnew (.inr haction) hc.1
    refine hcancel.inv (by simp [Pipe.cancelSource, Pipe.setSource]) (fun ha => ?_)
      fun _ hr => ⟨hwritten fun hm => hr (List.mem_append_left _ hm), hl⟩
    exact Acting.noConfusion ha
  · rename_i hc
    refine hrunning.inv (by simp) (by simp) fun hacts hr => ⟨hwritten hr, fun hl => ?_⟩
    have habort : s.preventAbort = true := by
      by_contra ha
      exact hr (haborted (by simpa using ha))
    have hreadable := (h.flow.reading hl).1
    have hprevent : s.preventCancel = true := by simpa [hreadable] using hc
    exact hacts ⟨habort, hprevent⟩

theorem pipeAction_eq (h : s.shutdown = some shutdown) : s.pipeAction = .ok shutdown := by
  rw [Pipe.pipeAction, h]
  rfl

/-- What an action does is not forbidden, unless the action is the abort algorithm's. -/
theorem Shutting.permits {p : Bool} (h : Shutting s shutdown p)
    (haction : shutdown.action ≠ .abortAlgorithm) (operation : Operation ε)
    (hp : shutdown.Performs operation) : ¬ s.Prevents operation :=
  fun hprevents => haction (h.keeps.recorded shutdown h.shutdown operation hp hprevents)

/-- The action starts. -/
theorem sat_pipeRunAction (h : Shutting s shutdown true) (haction : shutdown.action ≠ .none)
    (hnew : ∀ operation, .performed operation ∉ s.log)
    (hwritten : .refuses ∉ s.log → s.pendingWrites = 0) :
    s.pipeRunAction.Sat Inv Inv fun _ => False := by
  have hrunning := h.setActing .running
  rw [Pipe.pipeRunAction, pipeAction_eq h.shutdown, Outcome.ok_bind]
  -- an action that aborts or closes the destination ends its writes, one that cancels the source
  -- comes after they have settled
  cases ha : shutdown.action with
  | none => exact haction ha
  | abortDest =>
    have hprevents := h.permits (by simp [ha]) (.abortDest shutdown.actionError) ⟨.inl ha, rfl⟩
    obtain ⟨habort, hr⟩ := hrunning.abortDest (hnew _) (.inl ha)
      (by simpa [Pipe.Prevents] using hprevents)
    have hacting : (Pipe.abortDest { s with acting := .running } shutdown.actionError).acting =
        .running := acting_setDest _ _ _
    exact habort.inv (by simp [hacting]) (by simp [hacting]) fun _ hr' => absurd hr hr'
  | cancelSource =>
    have hprevents := h.permits (by simp [ha]) (.cancelSource shutdown.actionError) ⟨.inl ha, rfl⟩
    obtain ⟨hcancel, hl⟩ := hrunning.cancelSource (hnew _) (.inl ha)
      (by simpa [Pipe.Prevents] using hprevents)
    exact hcancel.inv Acting.noConfusion Acting.noConfusion
      fun _ hr => ⟨hwritten fun hm => hr (List.mem_append_left _ hm), hl⟩
  | closeWriter =>
    have hprevents := h.permits (by simp [ha]) .closeWriter ha
    refine (hrunning.sat_closeWriter (hnew _) ha
      (by simpa [Pipe.Prevents] using hprevents)).imp fun t ⟨hclose, hr, hacting⟩ => ?_
    exact hclose.inv (by simp [hacting]) (by simp [hacting]) fun _ hr' => absurd hr hr'
  | abortAlgorithm =>
    rw [Outcome.sat_ok, Pipe.pipeBuildAbortActionsPromise]
    split
    · -- the abort of the destination may run author code before the source is cancelled
      rename_i hc
      simp only [Bool.and_eq_true, Bool.not_eq_true', decide_eq_true_eq] at hc
      obtain ⟨habort, hr⟩ := hrunning.abortDest (hnew _) (.inr ha) hc.1
      refine (habort.setActing .aborting).inv (by simp) (fun _ => ⟨ha, ?_, hr⟩)
        fun _ hr' => absurd hr hr'
      obtain ⟨l, hf, hl⟩ := frame_setDest
        (Pipe.record { s with acting := .running } (.performed (.abortDest shutdown.actionError)))
        (if s.dest = .writable then .erroring else s.dest) s.closeQueued
      refine fun hm => hnew (.cancelSource shutdown.actionError) ?_
      have hm' := (hf.performed (.cancelSource shutdown.actionError)).mp hm
      simpa using hm'
    · -- the destination is left alone: it is spared, or it is not writable
      rename_i hc
      refine hrunning.rest ha (hnew _) hwritten fun hp => h.flow.refuses ?_
      simp only [Bool.and_eq_true, Bool.not_eq_true', decide_eq_true_eq, not_and] at hc
      simp [Pipe.accepts, hc hp]

/-- Only a pipe that has proceeded performs operations. -/
theorem not_performed (h : Protocol.Kept Allowed s.log)
    (hp : s.log.filterMap Record.proceeded? = []) (operation : Operation ε) :
    .performed operation ∉ s.log := by
  intro hm
  obtain ⟨l, l', heq⟩ := List.append_of_mem hm
  have hallowed := (h l _ l' heq).2.1
  rw [heq, List.filterMap_append, hallowed] at hp
  simp at hp

theorem sat_pipeShutdownDoProceed (h : Shutting s shutdown false) (hacting : s.acting = .idle)
    (hwritten : .refuses ∉ s.log → s.pendingWrites = 0) :
    s.pipeShutdownDoProceed.Sat Inv Inv fun _ => False := by
  have hnew := not_performed h.log h.logged.proceeded
  have hproceeded : Shutting (s.record .proceeded) shutdown true := {
    flow := h.flow.record rfl rfl rfl rfl
    logged := {
      recorded := by simpa [Record.recorded?] using h.logged.recorded
      proceeded := by
        have := h.logged.proceeded
        simp [Record.proceeded?] at this ⊢
        exact this
      finalized := by simpa [Record.finalized?] using h.logged.finalized
      promise := h.logged.promise
      attached := h.logged.attached
      shutdown := h.logged.shutdown }
    shutdown := h.shutdown
    queued := h.queued
    keeps := h.keeps.record (by simp)
    log := h.log.concat ⟨h.logged.proceeded, ⟨shutdown, h.logged.recorded⟩,
      fun hr => h.flow.allWritten h.logged.attached (hwritten hr)⟩
    drained := fun hacts => (h.drained hacts).concat trivial }
  have hwritten' : .refuses ∉ (s.record .proceeded).log → (s.record .proceeded).pendingWrites = 0 :=
    fun hr => hwritten fun hm => hr (List.mem_append_left _ hm)
  rw [Pipe.pipeShutdownDoProceed, pipeAction_eq h.shutdown, Outcome.ok_bind]
  split
  · exact sat_pipeFinalize hproceeded hacting (.inl ⟨‹_›, rfl⟩) fun _ => hwritten'
  · exact sat_pipeRunAction hproceeded ‹_› (fun operation hm => hnew operation (by simpa using hm))
      hwritten'

theorem Shutting.plain {p : Bool} (h : Shutting s shutdown p) : shutdown.plain = shutdown := by
  have := h.logged.shutdown
  rw [h.shutdown] at this
  exact Option.some.inj this

theorem Flow.setShutdown (h : Flow s) (shutdown : Option (PipeShutdown ε)) (queued : Bool) :
    Flow { s with
      shutdown := shutdown
      proceedQueued := queued } :=
  { h with }

/-- The shutdown waits, for the writes or for its microtask. -/
theorem Shutting.wait (h : Shutting s shutdown false) (hacting : s.acting = .idle)
    (waiting : Bool) :
    Inv { s with
      shutdown := some { shutdown with waitingForWrites := waiting }
      proceedQueued := !waiting } where
  flow := h.flow.setShutdown _ _
  phase := by
    refine .waiting { shutdown with waitingForWrites := waiting } ?_ rfl rfl hacting
    rw [show PipeShutdown.plain { shutdown with waitingForWrites := waiting } = shutdown from
      h.plain]
    exact { h.logged with shutdown := congrArg some h.plain }
  keeps := by
    refine ⟨fun shutdown' hs operation hp hprevents => ?_, h.keeps.performed⟩
    obtain rfl := Option.some.inj hs
    exact h.keeps.recorded shutdown h.shutdown operation (by cases operation <;> exact hp) hprevents
  log := h.log
  drains := fun hacts => ⟨fun ha => absurd hacting ha, h.drained hacts⟩

theorem sat_pipeWaitForWrites (h : Shutting s shutdown false) (hacting : s.acting = .idle) :
    s.pipeWaitForWrites.Sat Inv Inv fun _ => False := by
  rw [Pipe.pipeWaitForWrites, pipeAction_eq h.shutdown, Outcome.ok_bind, Outcome.sat_ok]
  have := h.wait hacting true
  rwa [show (!true) = s.proceedQueued from h.queued.symm] at this

/-- A shutdown that waits may proceed, once what it waits for is gone. -/
theorem Inv.shutting (h : Inv s) (hs : s.shutdown = some shutdown)
    (hlogged : Logged s (some shutdown.plain) false none) :
    Shutting { s with
      shutdown := some shutdown.plain
      proceedQueued := false } shutdown.plain false where
  flow := h.flow.setShutdown _ _
  logged := { hlogged with shutdown := rfl }
  shutdown := rfl
  queued := rfl
  keeps := by
    refine ⟨fun shutdown' hs' operation hp hprevents => ?_, h.keeps.performed⟩
    obtain rfl := Option.some.inj hs'
    exact h.keeps.recorded shutdown hs operation (by cases operation <;> exact hp) hprevents
  log := h.log
  drained := fun hacts => (h.drains hacts).log

theorem Phase.of_waiting (h : Phase s) (hs : s.shutdown = some shutdown)
    (hw : shutdown.waitingForWrites = true) :
    Logged s (some shutdown.plain) false none ∧ s.proceedQueued = false ∧ s.acting = .idle := by
  have hplain : shutdown.plain ≠ shutdown := fun heq => by
    rw [← heq] at hw
    cases hw
  cases h with
  | running logged h => rw [h] at hs; cases hs
  | waiting shutdown' logged h queued acting =>
    obtain rfl := Option.some.inj (hs.symm.trans h)
    exact ⟨logged, by rw [queued, hw]; rfl, acting⟩
  | acting shutdown' logged h =>
    obtain rfl := Option.some.inj (hs.symm.trans h)
    have := logged.shutdown
    rw [hs] at this
    exact absurd (Option.some.inj this) hplain
  | ended shutdown' error logged h =>
    obtain rfl := Option.some.inj (hs.symm.trans h)
    have := logged.shutdown
    rw [hs] at this
    exact absurd (Option.some.inj this) hplain

theorem Phase.of_queued (h : Phase s) (hq : s.proceedQueued = true) :
    ∃ shutdown, s.shutdown = some shutdown ∧ shutdown.plain = shutdown ∧
      Logged s (some shutdown.plain) false none ∧ s.acting = .idle := by
  cases h with
  | running logged h queued => rw [queued] at hq; cases hq
  | waiting shutdown logged h queued acting =>
    refine ⟨shutdown, h, ?_, logged, acting⟩
    have hw : shutdown.waitingForWrites = false := by simpa [hq] using queued
    rw [PipeShutdown.plain, ← hw]
  | acting shutdown logged h queued => rw [queued] at hq; cases hq
  | ended shutdown error logged h queued => rw [queued] at hq; cases hq

theorem sat_pipeShutdownProceedDeferred (h : Inv s) (hq : s.proceedQueued = true) :
    s.pipeShutdownProceedDeferred.Sat Inv Inv fun _ => False := by
  obtain ⟨shutdown, hs, hplain, hlogged, hacting⟩ := h.phase.of_queued hq
  have hshutting := h.shutting hs hlogged
  rw [hplain, ← hs] at hshutting
  simp only [Pipe.pipeShutdownProceedDeferred]
  split
  · exact sat_pipeWaitForWrites hshutting hacting
  · rename_i hp
    exact sat_pipeShutdownDoProceed hshutting hacting fun _ => Nat.eq_zero_of_not_pos hp

theorem inv_settled (h : Inv s) (hs : 0 < s.settles) :
    Inv { s.record .settled with
      pendingWrites := s.pendingWrites - 1
      settles := s.settles - 1 } := by
  have hflow := h.flow
  have hpending := hflow.pending
  have hsettled := hflow.settled
  refine h.frame (l := [.settled]) ⟨rfl, rfl, rfl, rfl, rfl, rfl, rfl, rfl, rfl, by simp⟩ ?_
    (by simp) fun _ hd => ⟨by rw [hd.1], hd.2⟩
  exact {
    pending := by
      rw [hpending]
      exact Nat.add_sub_assoc hs _
    chunk := hflow.chunk
    delivered := by simpa using hflow.delivered
    dropped := by simpa using hflow.dropped
    settled := by
      simp
      omega
    attached := hflow.attached
    reading := hflow.reading
    refuses := fun ha => List.mem_append_left _ (hflow.refuses ha) }

theorem pipeStopWaitingForWrites_cases (h : Inv s) :
    s.pipeStopWaitingForWrites = (s, false) ∨
      ∃ shutdown, s.pipeStopWaitingForWrites = ({ s with shutdown := some shutdown }, true) ∧
        Shutting { s with shutdown := some shutdown } shutdown false ∧ s.acting = .idle := by
  rw [Pipe.pipeStopWaitingForWrites]
  split
  · rename_i shutdown hshutdown
    by_cases hw : shutdown.waitingForWrites = true
    · obtain ⟨hlogged, hq, hacting⟩ := h.phase.of_waiting hshutdown hw
      have heq : { s with shutdown := some shutdown.plain } = { s with
          shutdown := some shutdown.plain
          proceedQueued := false } := by rw [← hq]
      refine .inr ⟨shutdown.plain, by rw [hw]; rfl, ?_, hacting⟩
      rw [heq]
      exact h.shutting hshutdown hlogged
    · have hw' := Bool.eq_false_iff.mpr hw
      left
      rw [hw', ← hw', ← hshutdown]
  · exact .inl rfl

theorem sat_pipeWriteSettled (h : Inv s) (hs : 0 < s.settles) :
    s.pipeWriteSettled.Sat Inv Inv fun _ => False := by
  have hpending := h.flow.pending
  have hinv := inv_settled h hs
  rw [Pipe.pipeWriteSettled, if_pos (by omega)]
  generalize { s.record .settled with
      pendingWrites := s.pendingWrites - 1
      settles := s.settles - 1 } = t at hinv
  by_cases hzero : t.pendingWrites = 0
  · rw [if_pos hzero]
    rcases pipeStopWaitingForWrites_cases hinv with heq | ⟨shutdown, heq, hshutting, hacting⟩
    · simp only [heq]
      exact hinv
    · simp only [heq]
      exact sat_pipeShutdownDoProceed hshutting hacting fun _ => hzero
  · rw [if_neg hzero]
    exact hinv

theorem sat_pipeBeginShutdownWithAction (h : Inv s) {action : PipeAction}
    (haction : ∀ shutdown : PipeShutdown ε, shutdown.action = action → ∀ operation,
      shutdown.Performs operation → s.Prevents operation → action = .abortAlgorithm)
    (actionError originalError : Option ε) :
    (s.pipeBeginShutdownWithAction action actionError originalError).Sat Inv Inv
      fun _ => False := by
  rw [Pipe.pipeBeginShutdownWithAction]
  split
  · exact h
  · rename_i hs
    replace hs : s.shutdown = none := by simpa using hs
    cases h.phase with
    | waiting shutdown logged h => rw [hs] at h; cases h
    | acting shutdown logged h => rw [hs] at h; cases h
    | ended shutdown error logged h => rw [hs] at h; cases h
    | running logged _ queued acting =>
      -- the shutdown is recorded: the first one, as none was
      let shutdown : PipeShutdown ε := ⟨action, actionError, originalError, false⟩
      have hflow : Flow (s.record (.recorded shutdown)) := h.flow.record rfl rfl rfl rfl
      have hkeeps : Keeps (s.record (.recorded shutdown)) := h.keeps.record (by simp)
      have hshutting : Shutting { s.record (.recorded shutdown) with shutdown := some shutdown }
          shutdown false := {
        flow := { hflow with }
        logged := {
          recorded := by
            have := logged.recorded
            simp [Record.recorded?] at this ⊢
            exact this
          proceeded := by simpa [Record.proceeded?] using logged.proceeded
          finalized := by simpa [Record.finalized?] using logged.finalized
          promise := logged.promise
          attached := logged.attached
          shutdown := rfl }
        shutdown := rfl
        queued := queued
        keeps := by
          refine ⟨fun shutdown' hs' operation hp hprevents => ?_, hkeeps.performed⟩
          obtain rfl := Option.some.inj hs'
          exact haction _ rfl operation hp hprevents
        log := h.log.concat logged.recorded
        drained := fun hacts => (h.drains hacts).log.concat trivial }
      simp only [Pipe.pipeShutdownWaitThenProceed]
      split
      · -- a destination that takes chunks is waited for, if only for a microtask
        split
        · exact sat_pipeWaitForWrites hshutting acting
        · exact hshutting.wait acting false
      · rename_i haccepts
        refine sat_pipeShutdownDoProceed hshutting acting fun hr => absurd ?_ hr
        exact hshutting.flow.refuses (by simpa using haccepts)

theorem sat_pipeShutdown (h : Inv s) (error : Option ε) :
    (s.pipeShutdown error).Sat Inv Inv fun _ => False :=
  sat_pipeBeginShutdownWithAction h (fun shutdown ha operation hp _ => by
    cases operation <;> simp [PipeShutdown.Performs, ha] at hp) _ _

theorem sat_pipeFwdError (h : Inv s) (error : ε) :
    (s.pipeFwdError error).Sat Inv Inv fun _ => False := by
  rw [Pipe.pipeFwdError]
  split
  · exact sat_pipeShutdown h _
  · refine sat_pipeBeginShutdownWithAction h (fun shutdown ha operation hp hprevents => ?_) _ _
    cases operation <;> simp_all [PipeShutdown.Performs, Pipe.Prevents]

theorem sat_pipeBwdError (h : Inv s) (error : ε) :
    (s.pipeBwdError error).Sat Inv Inv fun _ => False := by
  rw [Pipe.pipeBwdError]
  split
  · exact sat_pipeShutdown h _
  · refine sat_pipeBeginShutdownWithAction h (fun shutdown ha operation hp hprevents => ?_) _ _
    cases operation <;> simp_all [PipeShutdown.Performs, Pipe.Prevents]

theorem sat_pipeFwdClose (h : Inv s) :
    s.pipeFwdClose.Sat Inv Inv fun _ => False := by
  rw [Pipe.pipeFwdClose]
  split
  · exact sat_pipeShutdown h _
  · refine sat_pipeBeginShutdownWithAction h (fun shutdown ha operation hp hprevents => ?_) _ _
    cases operation <;> simp_all [PipeShutdown.Performs, Pipe.Prevents]

/-- The pipe performs its action. -/
theorem Inv.acting (h : Inv s) (hacting : s.acting ≠ .idle) : ∃ shutdown : PipeShutdown ε,
    Shutting s shutdown true ∧ (s.acting = .aborting → shutdown.action = .abortAlgorithm ∧
      .performed (.cancelSource shutdown.actionError) ∉ s.log ∧ .refuses ∈ s.log) := by
  cases h.phase with
  | running logged h queued acting => exact absurd acting hacting
  | waiting shutdown logged h queued acting => exact absurd acting hacting
  | ended shutdown error logged h queued acting => exact absurd acting hacting
  | acting shutdown logged hs queued _ haborting =>
    exact ⟨shutdown,
      ⟨h.flow, logged, hs, queued, h.keeps, h.log, fun hacts => (h.drains hacts).log⟩, haborting⟩

theorem sat_pipeActionSettled (h : Inv s) (hpending : s.acting = .pending)
    (rejection : Option ε) :
    (s.pipeActionSettled rejection).Sat Inv Inv fun _ => False := by
  have hacting : s.acting ≠ .idle := by simp [hpending]
  obtain ⟨shutdown, hshutting, -⟩ := h.acting hacting
  -- the record of the settlement changes nothing that the shutdown rests on
  have hrecord : Shutting (s.record (.acted rejection)) shutdown true :=
    hshutting.frame (l := [.acted rejection])
      ⟨rfl, rfl, rfl, rfl, rfl, rfl, rfl, rfl, rfl, by simp⟩
      (hshutting.flow.record rfl rfl rfl rfl) (by simp)
  have hwritten : s.Acts → .refuses ∉ (s.record (.acted rejection)).log → s.pendingWrites = 0 :=
    fun hacts hr => ((h.drains hacts).acting hacting fun hm => hr (List.mem_append_left _ hm)).1
  rw [Pipe.pipeActionSettled, pipeAction_eq hshutting.shutdown, Outcome.ok_bind]
  have hidle := hrecord.setActing .idle
  cases rejection with
  | none => exact sat_pipeFinalize hidle rfl (.inr ⟨none, by simp, rfl⟩) hwritten
  | some error => exact sat_pipeFinalize hidle rfl (.inr ⟨some error, by simp, rfl⟩) hwritten

theorem sat_abortReturns (h : Inv s) (haborting : s.acting = .aborting) :
    s.abortReturns.Sat Inv Inv fun _ => False := by
  obtain ⟨shutdown, hshutting, hphase⟩ := h.acting (by simp [haborting])
  obtain ⟨haction, hnew, hr⟩ := hphase haborting
  rw [Pipe.abortReturns, pipeAction_eq hshutting.shutdown, Outcome.ok_bind]
  exact hshutting.rest haction hnew (fun hr' => absurd hr hr') fun _ => hr

theorem inv_actionReturns (h : Inv s) (hrunning : s.acting = .running) :
    Inv { s with acting := .pending } := by
  have hacting : s.acting ≠ .idle := by simp [hrunning]
  obtain ⟨shutdown, hshutting, -⟩ := h.acting hacting
  exact (hshutting.setActing .pending).inv (by simp) (by simp)
    fun hacts hr => (h.drains hacts).acting hacting hr

/-- **Every event keeps the invariant**, and none panics. -/
theorem sat_step (h : Inv s) (e : PipeEvent χ ε) :
    (s.step e).Sat Inv Inv fun _ => False := by
  cases e with
  | start =>
    rw [Pipe.step]
    split
    · exact inv_start h ‹_›
    · exact h
  | ready fulfilled answer =>
    rw [Pipe.step]
    split
    · rename_i hl
      split
      · exact sat_pipeReadyFulfilled h hl answer
      · exact inv_stop h (by rw [hl]; rfl)
    · exact h
  | chunk chunk =>
    rw [Pipe.step]
    split
    · exact inv_chunk h ‹_› chunk
    · exact h
  | deferredWrite =>
    rw [Pipe.step]
    split
    · exact sat_pipeDeferredWrite h ‹_›
    · exact h
  | writeReturns =>
    rw [Pipe.step]
    split
    · exact inv_writeReturns h ‹_›
    · exact h
  | writeSettles =>
    rw [Pipe.step]
    split
    · exact sat_pipeWriteSettled h ‹_›
    · exact h
  | fwdError error => exact sat_pipeFwdError h error
  | bwdError error => exact sat_pipeBwdError h error
  | fwdClose => exact sat_pipeFwdClose h
  | destClosed error => exact sat_pipeBwdError h error
  | aborts reason =>
    rw [Pipe.step]
    split
    · exact sat_pipeBeginShutdownWithAction h (fun _ _ _ _ _ => rfl) _ _
    · exact h
  | proceeds =>
    rw [Pipe.step]
    split
    · exact sat_pipeShutdownProceedDeferred h ‹_›
    · exact h
  | abortReturns =>
    rw [Pipe.step]
    split
    · exact sat_abortReturns h ‹_›
    · exact h
  | actionReturns =>
    rw [Pipe.step]
    split
    · exact inv_actionReturns h ‹_›
    · exact h
  | actionSettles rejection =>
    rw [Pipe.step]
    split
    · exact sat_pipeActionSettled h ‹_› rejection
    · exact h
  | sourceChanges state => exact inv_setSource h state
  | destChanges state closeQueued => exact inv_setDest h state closeQueued

theorem inv_new (preventClose preventAbort preventCancel signal : Bool) (source : StreamState)
    (dest : DestState) (closeQueued : Bool) :
    Inv (Pipe.new preventClose preventAbort preventCancel signal source dest closeQueued :
      Pipe χ ε) := by
  refine inv_setDest (s := { (Pipe.new preventClose preventAbort preventCancel signal source
    .writable false) with }) ?_ dest closeQueued
  exact {
    flow := {
      pending := rfl
      chunk := by simp [Pipe.new, Pipe.setDest, Pipe.accepts]
      delivered := rfl
      dropped := fun hd => absurd rfl hd
      settled := rfl
      attached := rfl
      reading := Loop.noConfusion
      refuses := Bool.noConfusion }
    phase := .running ⟨rfl, rfl, rfl, rfl, rfl, rfl⟩ rfl rfl rfl
    keeps := ⟨fun _ hs => absurd hs (by simp [Pipe.new, Pipe.setDest, Pipe.accepts]),
      fun _ hp => absurd hp List.not_mem_nil⟩
    log := Protocol.kept_nil
    drains := fun _ => ⟨fun ha => absurd rfl ha, Protocol.kept_nil⟩ }

theorem inv_of_run {preventClose preventAbort preventCancel signal : Bool} {source : StreamState}
    {dest : DestState} {closeQueued : Bool}
    (hrun : (machine χ ε).Run (.new preventClose preventAbort preventCancel signal source dest
      closeQueued) s) : Inv s :=
  hrun.inv_of_sat (inv_new _ _ _ _ _ _ _) fun _ e h _ => sat_step h e

theorem Phase.logged (h : Phase s) : ∃ r p f, Logged s r p f := by
  cases h with
  | running logged => exact ⟨_, _, _, logged⟩
  | waiting shutdown logged => exact ⟨_, _, _, logged⟩
  | acting shutdown logged => exact ⟨_, _, _, logged⟩
  | ended shutdown error logged => exact ⟨_, _, _, logged⟩

/-! ### Results -/

/-- **A pipe shuts down once**, whatever the options, the order of the triggers and what happens to
the two streams: the log keeps to the protocol, the promise is settled when the pipe is finalized,
and no event panics. -/
theorem shutsDown_of_run {preventClose preventAbort preventCancel signal : Bool}
    {source : StreamState} {dest : DestState} {closeQueued : Bool}
    (hrun : (machine χ ε).Run (.new preventClose preventAbort preventCancel signal source dest
      closeQueued) s) : ShutsDownOnce s := by
  have h := inv_of_run hrun
  have hchunk := h.flow.chunk
  obtain ⟨r, p, f, hlogged⟩ := h.phase.logged
  exact {
    log := h.log
    prevented := h.keeps.performed
    promise := by rw [hlogged.promise, hlogged.finalized]
    released := by
      refine ⟨?_, h.flow.attached⟩
      rw [hlogged.attached, hlogged.finalized]
      cases f <;> rfl
    parked := by
      rintro (hl | hl) <;> simpa [hl] using hchunk
    safe := by
      intro e site heq
      have := sat_step h e
      rw [heq] at this
      exact this }

/-- The signal aborts a pipe that waits for its write. -/
theorem shutsDown_of_run_aborted : ∃ s : Pipe ℕ ℕ,
    (machine ℕ ℕ).Run (.new false true true true .readable .writable false) s ∧
      s.promise = some (some 1) ∧ ShutsDownOnce s := by
  obtain ⟨s, hrun, hs⟩ := Machine.exists_run_of_exec (M := machine ℕ ℕ)
    (s := .new false true true true .readable .writable false)
    [.start, .ready true none, .chunk 7, .aborts 1, .deferredWrite, .writeReturns, .proceeds,
      .writeSettles, .proceeds, .actionReturns, .actionSettles none]
    (P := fun s => s.promise = some (some 1)) (by decide)
  exact ⟨s, hrun, of_decide_eq_true hs, shutsDown_of_run hrun⟩

/-- **The chunks are written in order**, where not both an abort of the destination and a cancel of
the source are prevented: each chunk that was delivered is written at most once, and all of them
have been written and have settled when the pipe lets go of a destination that took chunks until
then. -/
theorem drained_of_run {preventClose preventAbort preventCancel signal : Bool}
    {source : StreamState} {dest : DestState} {closeQueued : Bool}
    (hrun : (machine χ ε).Run (.new preventClose preventAbort preventCancel signal source dest
      closeQueued) s) (hacts : ¬ (s.preventAbort = true ∧ s.preventCancel = true)) :
    WritesAll s := by
  have h := inv_of_run hrun
  exact ⟨⟨_, (h.flow.delivered.trans (List.append_assoc _ _ _)).symm⟩, (h.drains hacts).log⟩

/-- One chunk, and the source closes while its write is on its way. -/
theorem drained_of_run_chunk : ∃ s : Pipe ℕ ℕ,
    (machine ℕ ℕ).Run (.new false false false false .readable .writable false) s ∧
      s.promise = some none ∧ WritesAll s := by
  obtain ⟨s, hrun, hs⟩ := Machine.exists_run_of_exec (M := machine ℕ ℕ)
    (s := .new false false false false .readable .writable false)
    [.start, .ready true none, .chunk 7, .sourceChanges .closed, .fwdClose, .deferredWrite,
      .writeReturns, .writeSettles, .actionReturns, .actionSettles none]
    (P := fun s => s.promise = some none ∧ s.preventAbort = false) (by decide)
  obtain ⟨hpromise, habort⟩ := of_decide_eq_true hs
  exact ⟨s, hrun, hpromise, drained_of_run hrun (by simp [habort])⟩

/-- With both prevented, an abort can finalize the pipe before a chunk that was delivered is
written. -/
example : ((machine ℕ ℕ).exec (.new false true true true .readable .writable false)
    [.start, .ready true none, .aborts 1, .proceeds, .chunk 7, .actionReturns,
      .actionSettles none, .deferredWrite]).any
    (fun s => s.log.filterMap Record.dropped? = [some 7] ∧ .refuses ∉ s.log) = true := by decide

end WebStreams.Piping
