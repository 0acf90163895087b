import StarlingMonkey.Lib.Run
import StarlingMonkey.WebStreams.Basic
import Mathlib.Data.List.Basic
import Mathlib.Logic.Function.Basic

/-!
# The async iterator of a stream

`next` and `return` of the iterator are to run one after another: a call is chained on the promise
of the one before it, which `ongoing_promise` holds. The reactions of `next` clear that slot, also
when later calls are chained already.

`Iter` is the iterator with the stream that it reads. Calls are numbered as they are made. What the
jobs of a call do is a sequence of events of that call; jobs of different calls run in any order,
and events of the author's happen between them or, where the stream calls the author's code, inside
the steps of a call.

* `Orderly`: a call is made when the slot is set, or when no earlier call is still open.
* `Live`: what the one call is at that has begun and is still open. All calls before it are settled,
  all calls after it wait for the one before them.
* `serial_of_run`: what follows for runs whose calls are orderly.
-/

namespace WebStreams.AsyncIterator

/-- A chunk: a thenable, or another value. -/
inductive Chunk where
  | value (v : ℕ)
  | thenable (t : ℕ)
deriving DecidableEq, Repr

/-- What a promise that is resolved with the chunk may be fulfilled with. -/
def Chunk.Yields : Chunk → ℕ → Prop
  | value v, w => v = w
  | thenable _, _ => True

/-- The state of the stream, with its stored error. -/
inductive Source where
  | readable
  | closed
  | errored (e : JsError)
deriving DecidableEq, Repr

/-- What the promise of the next iteration result is settled with. -/
inductive NextOutcome where
  | chunk (v : ℕ)
  | endOfIteration
  | rejected (e : JsError)
deriving DecidableEq, Repr

/-- The promise of the next iteration result. -/
inductive NextPromise where
  | pending
  /-- It was resolved with a thenable. -/
  | locked
  | settled (outcome : NextOutcome)
deriving DecidableEq, Repr

/-- What the promise of a call is settled with: an iterator result, or an error. -/
inductive CallResult where
  | value (v : ℕ)
  | done
  | error (e : JsError)
deriving DecidableEq, Repr

/-- A method of the iterator. -/
inductive Kind where
  | next
  | return_
deriving DecidableEq, Repr

/-- How far a call is. -/
inductive Stage where
  /-- Its steps have not begun. -/
  | waiting
  /-- The steps of `next` have read, and react to this promise. -/
  | reading (promise : NextPromise)
  /-- The steps of `return` have called the author's cancel algorithm. -/
  | returning
  /-- They have returned; what that algorithm returned is pending. -/
  | cancelling
  /-- The promise of its steps is settled; the one that it was chained with follows. -/
  | adopting (result : CallResult)
  /-- The promise that `ongoing_promise` held is settled. -/
  | done (result : CallResult)
deriving DecidableEq, Repr

/-- A call of `next` or `return`. -/
structure Call where
  kind : Kind
  /-- The call on whose promise it was chained. -/
  chainedOn : Option ℕ
  stage : Stage
  /-- Whether the promise that `return` returned is settled. It reacts to the other one. -/
  returned : Bool
  /-- Whether the steps have read from the stream. -/
  reads : Bool
deriving DecidableEq, Repr

/-- The promise that the call returned is settled. -/
def Call.settled (c : Call) : Bool :=
  match c.stage with
  | .done _ => c.kind = .next || c.returned
  | _ => false

/-- What the promise of the steps of the call is settled with. -/
def Call.result (c : Call) : Option CallResult :=
  match c.stage with
  | .adopting result => some result
  | .done result => some result
  | _ => none

/-- No such call was made. -/
def noCall : Call := ⟨.next, none, .waiting, false, false⟩

/-- Steps on the stack, while the author's pull or cancel algorithm runs: whose they are, and the
chunk from the queue that is to answer the read. -/
structure Frame where
  call : ℕ
  chunk : Option Chunk
deriving DecidableEq, Repr

/-- The iterator, the stream, and what has happened. -/
structure Iter where
  /-- `[[state]]` of the stream. -/
  source : Source
  /-- `[[queue]]`. -/
  queue : List Chunk
  /-- `[[closeRequested]]`. -/
  closeRequested : Bool
  /-- Whether the reader has a stream. -/
  attached : Bool
  /-- The calls whose requests wait in `[[readRequests]]`. -/
  readRequests : List ℕ
  /-- `prevent_cancel`. -/
  preventCancel : Bool
  /-- `is_finished`. -/
  isFinished : Bool
  /-- `ongoing_promise`: the call whose promise it is. -/
  ongoingPromise : Option ℕ
  /-- How many calls were made. -/
  calls : ℕ
  /-- The calls. -/
  call : ℕ → Call
  /-- The steps on the stack. -/
  frames : List Frame
  /-- The chunks that the stream was given. -/
  enqueued : List Chunk
  /-- The chunks that were taken, by the calls that took them. -/
  taken : List (ℕ × Chunk)
  /-- How often the reader was released. -/
  releases : ℕ

/-- Where the program panics: "reader has a stream". -/
inductive Site where
  | genericRelease
  | genericCancel
  | read
deriving DecidableEq, Repr

/-- How steps end. -/
abbrev Steps := Outcome Site JsError Iter Iter

/-- What happens: a call is made; the author's algorithm returns to the innermost steps; the stream
is given a chunk, closes or errors; a thenable or the result of the cancel algorithm settles; a job
of call `n` runs. A read of a byte stream may be refused, for want of a buffer. -/
inductive IterEvent where
  | call (kind : Kind) (refusal : Option JsError)
  | returns
  | enqueues (c : Chunk)
  | closes
  | errors (e : JsError)
  | thenableSettles (n : ℕ) (outcome : Except JsError ℕ)
  | cancelSettles (n : ℕ) (outcome : Except JsError Unit)
  /-- `next_fulfilled` or `next_rejected`. -/
  | reacts (n : ℕ)
  /-- The promise of a chained call follows the one of its steps. -/
  | adopts (n : ℕ)
  /-- `return_fulfilled`, or the rejection that passes it. -/
  | returned (n : ℕ)
  /-- `after_ongoing_next` or `after_ongoing_return`. -/
  | after (n : ℕ) (refusal : Option JsError)
deriving DecidableEq

namespace Iter

/-! ### The code -/

/-- A call gets further. -/
def setCall (s : Iter) (n : ℕ) (c : Call) : Iter := { s with call := Function.update s.call n c }

/-- A call reaches a stage. -/
def setStage (s : Iter) (n : ℕ) (stage : Stage) : Iter :=
  s.setCall n { s.call n with stage := stage }

/-- The promise of the steps of call `n` is settled. If the call was chained, a promise follows. -/
def resolve (s : Iter) (n : ℕ) (result : CallResult) : Iter :=
  s.setStage n (if (s.call n).chainedOn.isSome then .adopting result else .done result)

/-- The steps of call `n` have returned their promise. A call that was not chained stores it. -/
def finish (s : Iter) (n : ℕ) : Iter :=
  if (s.call n).chainedOn.isSome then s else { s with ongoingPromise := some n }

/-- `readable_stream_default_reader_release`. The requests that wait are errored then, and their
steps release the reader again. -/
def release (s : Iter) : Steps :=
  if s.attached && s.readRequests.isEmpty then
    .ok { s with attached := false, releases := s.releases + 1 }
  else .panic .genericRelease

/-- `async_iter_chunk_steps`. -/
def chunkSteps (s : Iter) (n : ℕ) (c : Chunk) : Iter :=
  match c with
  | .value v => s.setStage n (.reading (.settled (.chunk v)))
  | .thenable _ => s.setStage n (.reading .locked)

/-- `async_iter_close_steps`. -/
def closeSteps (s : Iter) (n : ℕ) : Steps := do
  let s ← s.release
  .ok (s.setStage n (.reading (.settled .endOfIteration)))

/-- `async_iter_error_steps`. -/
def errorSteps (s : Iter) (n : ℕ) (e : JsError) : Steps := do
  let s ← s.release
  .ok (s.setStage n (.reading (.settled (.rejected e))))

/-- The requests that waited are answered in turn. -/
def answerAll (answer : Iter → ℕ → Steps) : List ℕ → Iter → Steps
  | [], s => .ok s
  | n :: requests, s => do
    let s ← answer s n
    answerAll answer requests s

/-- `readable_stream_close`. -/
def streamClose (s : Iter) : Steps :=
  answerAll closeSteps s.readRequests { s with source := .closed, readRequests := [] }

/-- `readable_stream_error`. -/
def streamError (s : Iter) (e : JsError) : Steps :=
  answerAll (fun s n => s.errorSteps n e) s.readRequests
    { s with source := .errored e, readRequests := [] }

/-- `pull_steps` or `byte_pull_steps`, for call `n`. -/
def pullSteps (s : Iter) (n : ℕ) (refusal : Option JsError) : Steps :=
  match s.queue, refusal with
  | c :: queue, _ =>
    let s := { s with queue := queue, taken := s.taken ++ [(n, c)] }
    if queue.isEmpty && s.closeRequested then do
      let s ← s.streamClose
      .ok ((s.chunkSteps n c).finish n)
    else .ok { s with frames := ⟨n, some c⟩ :: s.frames }
  | [], some e => do
    let s ← s.errorSteps n e
    .ok (s.finish n)
  | [], none =>
    .ok { s with readRequests := s.readRequests ++ [n], frames := ⟨n, none⟩ :: s.frames }

/-- `run_next_steps`. -/
def runNextSteps (s : Iter) (n : ℕ) (refusal : Option JsError) : Steps :=
  if s.isFinished then .ok ((s.resolve n .done).finish n)
  else if s.attached then
    let s := s.setCall n { s.call n with stage := .reading .pending, reads := true }
    match s.source with
    | .closed => do
      let s ← s.closeSteps n
      .ok (s.finish n)
    | .errored e => do
      let s ← s.errorSteps n e
      .ok (s.finish n)
    | .readable => s.pullSteps n refusal
  else .panic .read

/-- `asynchronous_iterator_return`. -/
def asynchronousIteratorReturn (s : Iter) (n : ℕ) : Steps :=
  if s.preventCancel then do
    let s ← s.release
    .ok ((s.resolve n .done).finish n)
  else if s.attached then
    match s.source with
    | .closed => do
      let s ← s.release
      .ok ((s.resolve n .done).finish n)
    | .errored e => do
      let s ← s.release
      .ok ((s.resolve n (.error e)).finish n)
    | .readable => do
      let s ← s.streamClose
      let s := { s with queue := [], frames := ⟨n, none⟩ :: s.frames }
      .ok (s.setStage n .returning)
  else .panic .genericCancel

/-- `run_return_steps`. -/
def runReturnSteps (s : Iter) (n : ℕ) : Steps :=
  if s.isFinished then .ok ((s.resolve n .done).finish n)
  else { s with isFinished := true }.asynchronousIteratorReturn n

/-- The steps of a call. -/
def runSteps (s : Iter) (n : ℕ) (refusal : Option JsError) : Steps :=
  match (s.call n).kind with
  | .next => s.runNextSteps n refusal
  | .return_ => s.runReturnSteps n

/-- `next` or `iterator_return`. -/
def makeCall (s : Iter) (kind : Kind) (refusal : Option JsError) : Steps :=
  let n := s.calls
  match s.ongoingPromise with
  | some ongoing =>
    .ok
      { s with
        calls := n + 1
        call := Function.update s.call n ⟨kind, some ongoing, .waiting, false, false⟩
        ongoingPromise := some n }
  | none =>
    { s with
      calls := n + 1
      call := Function.update s.call n ⟨kind, none, .waiting, false, false⟩ }.runSteps n refusal

/-- The author's algorithm returns: a chunk from the queue is delivered, or the reader is
released. -/
def algorithmReturns (s : Iter) : Steps :=
  match s.frames with
  | [] => .ok s
  | ⟨n, chunk⟩ :: frames =>
    let s := { s with frames := frames }
    match (s.call n).kind with
    | .next =>
      match chunk with
      | some c => .ok ((s.chunkSteps n c).finish n)
      | none => .ok (s.finish n)
    | .return_ => do
      let s ← s.release
      .ok ((s.setStage n .cancelling).finish n)

/-- The stream is given a chunk. -/
def enqueue (s : Iter) (c : Chunk) : Iter :=
  if s.source = .readable ∧ s.closeRequested = false then
    let s := { s with enqueued := s.enqueued ++ [c] }
    match s.readRequests with
    | n :: requests =>
      { s with readRequests := requests, taken := s.taken ++ [(n, c)] }.chunkSteps n c
    | [] => { s with queue := s.queue ++ [c] }
  else s

/-- The stream is to close. -/
def close (s : Iter) : Steps :=
  if s.source = .readable ∧ s.closeRequested = false then
    let s := { s with closeRequested := true }
    if s.queue.isEmpty then s.streamClose else .ok s
  else .ok s

/-- The stream errors. -/
def error (s : Iter) (e : JsError) : Steps :=
  if s.source = .readable then { s with queue := [] }.streamError e else .ok s

/-- The thenable that a promise was resolved with settles it. -/
def thenableSettles (s : Iter) (n : ℕ) (outcome : Except JsError ℕ) : Iter :=
  if (s.call n).stage = .reading .locked then
    match outcome with
    | .ok v => s.setStage n (.reading (.settled (.chunk v)))
    | .error e => s.setStage n (.reading (.settled (.rejected e)))
  else s

/-- What the cancel algorithm returned settles. -/
def cancelSettles (s : Iter) (n : ℕ) (outcome : Except JsError Unit) : Iter :=
  if (s.call n).stage = .cancelling then
    match outcome with
    | .ok () => s.resolve n .done
    | .error e => s.resolve n (.error e)
  else s

/-- `next_fulfilled` and `next_rejected`. -/
def react (s : Iter) (n : ℕ) : Iter :=
  match (s.call n).stage with
  | .reading (.settled outcome) =>
    let s := { s with ongoingPromise := none }
    match outcome with
    | .chunk v => s.resolve n (.value v)
    | .endOfIteration => { s with isFinished := true }.resolve n .done
    | .rejected e => { s with isFinished := true }.resolve n (.error e)
  | _ => s

/-- A promise follows the one that it was resolved with. -/
def adopt (s : Iter) (n : ℕ) : Iter :=
  match (s.call n).stage with
  | .adopting result => s.setStage n (.done result)
  | _ => s

/-- The promise that `return` returned is settled. -/
def returnSettles (s : Iter) (n : ℕ) : Iter :=
  match (s.call n).kind, (s.call n).stage with
  | .return_, .done _ => s.setCall n { s.call n with returned := true }
  | _, _ => s

/-- The reactions to the promise that call `n` was chained on run, in the order in which they were
added. -/
def runAfter (s : Iter) (n : ℕ) (refusal : Option JsError) : Steps :=
  match (s.call n).stage, (s.call n).chainedOn with
  | .waiting, some m => if (s.call m).settled then s.runSteps n refusal else .ok s
  | _, _ => .ok s

/-- A job runs when the stack is empty. -/
def job (s : Iter) (f : Iter → Steps) : Steps := if s.frames.isEmpty then f s else .ok s

/-- What an event does. -/
def step (s : Iter) : IterEvent → Steps
  | .call kind refusal => s.makeCall kind refusal
  | .returns => s.algorithmReturns
  | .enqueues c => .ok (s.enqueue c)
  | .closes => s.close
  | .errors e => s.error e
  | .thenableSettles n outcome => .ok (s.thenableSettles n outcome)
  | .cancelSettles n outcome => .ok (s.cancelSettles n outcome)
  | .reacts n => s.job fun s => .ok (s.react n)
  | .adopts n => s.job fun s => .ok (s.adopt n)
  | .returned n => s.job fun s => .ok (s.returnSettles n)
  | .after n refusal => s.job fun s => s.runAfter n refusal

/-- A new iterator, of a stream that may hold chunks, be closing, closed or errored. -/
def new (source : Source) (queue : List Chunk) (closeRequested preventCancel : Bool) : Iter where
  source := source
  queue := queue
  closeRequested := closeRequested
  attached := true
  readRequests := []
  preventCancel := preventCancel
  isFinished := false
  ongoingPromise := none
  calls := 0
  call := fun _ => noCall
  frames := []
  enqueued := queue
  taken := []
  releases := 0

end Iter

/-- The async iterator as a machine. -/
def machine : Machine Site JsError Iter IterEvent := ⟨Iter.step⟩

/-! ### What is to hold -/

/-- A call is made while `ongoing_promise` is set, or when every call before it is settled; and no
chunk is a thenable that rejects. -/
def Orderly (s : Iter) : IterEvent → Prop
  | .call _ _ => s.ongoingPromise ≠ none ∨ ∀ m < s.calls, (s.call m).settled = true
  | .thenableSettles n outcome => (s.call n).stage = .reading .locked → ∃ v, outcome = .ok v
  | _ => True

/-- The call has found the end of the iteration or an error, or is a `return` whose steps have
begun. -/
def Call.Ended (c : Call) : Prop :=
  (c.kind = .return_ ∧ c.stage ≠ .waiting) ∨ ∃ r, c.result = some r ∧ ∀ v, r ≠ .value v

/-- The call has not read and has not called the author's cancel algorithm, and if it is one of
`next`, all it may resolve with is `done`. -/
def Call.Late (c : Call) : Prop :=
  c.reads = false ∧ (c.stage ≠ .returning ∧ c.stage ≠ .cancelling) ∧
    ∀ r, c.kind = .next → c.result = some r → r = .done

/-- Call `n` waits for what is not a job: its request for the stream, its promise for a thenable, or
its steps for what the author's cancel algorithm returned. -/
def Iter.Outside (s : Iter) (n : ℕ) : Prop :=
  ((s.call n).stage = .reading .pending ∧ s.readRequests = [n] ∧ s.source = .readable) ∨
    (s.call n).stage = .reading .locked ∨ (s.call n).stage = .cancelling

/-- No steps are on the stack, and no job of a call is left. -/
structure Rest (s : Iter) : Prop where
  frames : s.frames = []
  reacts : ∀ n, s.step (.reacts n) = .ok s
  adopts : ∀ n, s.step (.adopts n) = .ok s
  returned : ∀ n, s.step (.returned n) = .ok s
  after : ∀ n refusal, s.step (.after n refusal) = .ok s

/-- The call took no chunk, or resolves with the one that it took. -/
def Sound (s : Iter) (n : ℕ) (r : CallResult) : Prop :=
  (∃ v c, r = .value v ∧ (n, c) ∈ s.taken ∧ c.Yields v) ∨
    ((∀ v, r ≠ .value v) ∧ ∀ c, (n, c) ∉ s.taken)

/-- **The calls are serialized.** -/
structure Serial (s : Iter) : Prop where
  /-- The steps of a call begin when the calls before it are settled. -/
  serialized : ∀ m n, m < n → n < s.calls → (s.call n).stage ≠ .waiting →
    (s.call m).settled = true
  /-- Later calls take later chunks. -/
  inOrder : (s.taken.Pairwise fun x y => x.1 < y.1) ∧ s.taken.map Prod.snd <+: s.enqueued
  /-- A call resolves with the chunk that it took. -/
  sound : ∀ n < s.calls, ∀ r, (s.call n).result = some r → Sound s n r
  /-- After a call that found the end or an error, or returned, no call reads. -/
  finished : ∀ m n, m < n → n < s.calls → (s.call m).Ended → (s.call n).Late
  /-- Where no job is left, a call is settled, unless it or one before it waits for the stream or
  the author. -/
  settles : Rest s → ∀ n < s.calls, (s.call n).settled = true ∨ ∃ m ≤ n, s.Outside m
  /-- Then also all calls after one that is settled and has ended: those of `next` with `done`. -/
  resolves : Rest s → ∀ m n, m < n → n < s.calls → (s.call m).Ended →
    (s.call m).settled = true →
      (s.call n).settled = true ∧ ((s.call n).kind = .next → (s.call n).result = some .done)
  /-- The reader is released once, when there is such a call. -/
  released : s.releases ≤ 1 ∧ ∀ m < s.calls, (s.call m).Ended → s.frames = [] → s.releases = 1
  /-- No orderly event finds the reader without a stream. -/
  safe : ∀ e, Orderly s e → ∀ p, s.step e ≠ .panic p

/-! ### The invariant -/

/-- No steps are on the stack and no request waits; the reader was released if the iterator is
finished. -/
structure Quiet (s : Iter) : Prop where
  frames : s.frames = []
  readRequests : s.readRequests = []
  attached : s.attached = !s.isFinished
  releases : s.releases = if s.isFinished then 1 else 0

/-- The reader was not released. -/
structure Open (s : Iter) : Prop where
  attached : s.attached = true
  isFinished : s.isFinished = false
  releases : s.releases = 0

/-- Call `n` took no chunk. -/
def Untaken (s : Iter) (n : ℕ) : Prop := ∀ c, (n, c) ∉ s.taken

/-- A call that was not chained, and whose steps are on the stack, is the last one. -/
def Direct (s : Iter) (a : ℕ) (on : Option ℕ) : Prop :=
  on = none → s.ongoingPromise = none ∧ a + 1 = s.calls

/-- How the read of call `a` was answered, if it was. -/
def Answer (s : Iter) (a : ℕ) : NextPromise → Prop
  | .pending => s.readRequests = [a] ∧ s.source = .readable ∧ Open s ∧ Untaken s a
  | .locked => s.readRequests = [] ∧ Open s ∧ ∃ t, (a, Chunk.thenable t) ∈ s.taken
  | .settled (.chunk v) => s.readRequests = [] ∧ Open s ∧ ∃ c, (a, c) ∈ s.taken ∧ c.Yields v
  | .settled _ => s.readRequests = [] ∧ s.attached = false ∧ s.isFinished = false ∧
      s.releases = 1 ∧ Untaken s a

/-- What holds of call `a` when its steps have settled with `r`. -/
structure Closing (s : Iter) (a : ℕ) (kind : Kind) (r : CallResult) : Prop where
  sound : Sound s a r
  ended : (∀ v, r ≠ .value v) → s.isFinished = true
  returned : kind = .return_ → ∀ v, r ≠ .value v

/-- **What the first open call is at**, or what holds when there is none. -/
inductive Live (s : Iter) (a : ℕ) : Prop where
  | idle (h : a = s.calls) (quiet : Quiet s) (untaken : Untaken s a)
  | waiting (h : a < s.calls) (kind : Kind) (hpos : 0 < a)
      (hcall : s.call a = ⟨kind, some (a - 1), .waiting, false, false⟩) (quiet : Quiet s)
      (untaken : Untaken s a)
  | reading (h : a < s.calls) (on : Option ℕ) (p : NextPromise)
      (hcall : s.call a = ⟨.next, on, .reading p, false, true⟩)
      (hframes : s.frames = [] ∨ s.frames = [⟨a, none⟩] ∧ Direct s a on) (answer : Answer s a p)
  | holding (h : a < s.calls) (on : Option ℕ) (c : Chunk)
      (hcall : s.call a = ⟨.next, on, .reading .pending, false, true⟩)
      (hframes : s.frames = [⟨a, some c⟩]) (direct : Direct s a on) (isOpen : Open s)
      (hrequests : s.readRequests = []) (htaken : (a, c) ∈ s.taken)
  | returning (h : a < s.calls) (on : Option ℕ)
      (hcall : s.call a = ⟨.return_, on, .returning, false, false⟩)
      (hframes : s.frames = [⟨a, none⟩]) (direct : Direct s a on)
      (hattached : s.attached = true) (hfinished : s.isFinished = true)
      (hreleases : s.releases = 0) (hrequests : s.readRequests = [])
      (hsource : s.source ≠ .readable) (untaken : Untaken s a)
  | cancelling (h : a < s.calls) (on : Option ℕ)
      (hcall : s.call a = ⟨.return_, on, .cancelling, false, false⟩) (quiet : Quiet s)
      (hfinished : s.isFinished = true) (untaken : Untaken s a)
  | adopting (h : a < s.calls) (kind : Kind) (on : Option ℕ) (r : CallResult) (reads : Bool)
      (hcall : s.call a = ⟨kind, on, .adopting r, false, reads⟩) (quiet : Quiet s)
      (closing : Closing s a kind r)
  | returned (h : a < s.calls) (on : Option ℕ) (r : CallResult) (reads : Bool)
      (hcall : s.call a = ⟨.return_, on, .done r, false, reads⟩) (quiet : Quiet s)
      (closing : Closing s a .return_ r)

/-- What holds of the calls before the first open one, and of that one because of them. -/
structure Past (s : Iter) (a : ℕ) : Prop where
  settled : ∀ m < a, (s.call m).settled = true
  ended : ∀ m < a, (s.call m).Ended → s.isFinished = true
  sound : ∀ m < a, ∀ r, (s.call m).result = some r → Sound s m r
  late : ∀ m n, m < n → n ≤ a → (s.call m).Ended → (s.call n).Late

/-- The calls after the first open one wait for the one before them, and the stream's chunks are
taken in order. -/
structure Chain (s : Iter) (a : ℕ) : Prop where
  le : a ≤ s.calls
  later : ∀ m, a < m → m < s.calls →
    ∃ kind, s.call m = ⟨kind, some (m - 1), .waiting, false, false⟩
  fresh : ∀ m, s.calls ≤ m → s.call m = noCall
  slot : ∀ n, s.ongoingPromise = some n → n + 1 = s.calls
  ids : ∀ x ∈ s.taken, x.1 ≤ a
  order : s.taken.Pairwise fun x y => x.1 < y.1
  chunks : s.taken.map Prod.snd <+: s.enqueued
  queue : s.source = .readable →
    s.taken.map Prod.snd ++ s.queue = s.enqueued ∧ (s.readRequests = [] ∨ s.queue = [])

/-- **The invariant.** -/
def Inv (s : Iter) : Prop := ∃ a, Chain s a ∧ Past s a ∧ Live s a

variable {s t : Iter} {a : ℕ}

@[simp] theorem setCall_call_self (s : Iter) (n : ℕ) (c : Call) : (s.setCall n c).call n = c := by
  simp [Iter.setCall]

theorem setCall_call_of_ne {n m : ℕ} (h : m ≠ n) (s : Iter) (c : Call) :
    (s.setCall n c).call m = s.call m := by
  simp [Iter.setCall, h]

theorem finish_eq (s : Iter) (n : ℕ) :
    s.finish n = { s with
      ongoingPromise := if (s.call n).chainedOn.isSome then s.ongoingPromise else some n } := by
  rw [Iter.finish]
  split_ifs <;> rfl

/-! ### The calls before and after -/

theorem Call.exists_of_settled {c : Call} (h : c.settled = true) :
    ∃ r, c.stage = .done r ∧ (c.kind = .return_ → c.returned = true) := by
  obtain ⟨kind, on, stage, returned, reads⟩ := c
  cases stage with
  | done r =>
    refine ⟨r, rfl, ?_⟩
    rintro rfl
    simpa [Call.settled] using h
  | waiting | reading | returning | cancelling | adopting => exact absurd h (by simp [Call.settled])

/-- The first open call is not settled. -/
theorem Live.settled_eq_false (h : Live s a) (ha : a < s.calls) : (s.call a).settled = false := by
  cases h with
  | idle h => omega
  | waiting _ _ _ hcall => rw [hcall]; rfl
  | reading _ _ _ hcall => rw [hcall]; rfl
  | holding _ _ _ hcall => rw [hcall]; rfl
  | returning _ _ hcall => rw [hcall]; rfl
  | cancelling _ _ hcall => rw [hcall]; rfl
  | adopting _ _ _ _ _ hcall => rw [hcall]; rfl
  | returned _ _ _ _ hcall => rw [hcall]; rfl

/-- A call after the first open one waits. -/
theorem Chain.stage_of_lt (h : Chain s a) {n : ℕ} (hn : a < n) :
    (s.call n).stage = .waiting ∧ (s.call n).reads = false := by
  by_cases hlt : n < s.calls
  · obtain ⟨kind, hcall⟩ := h.later n hn hlt
    rw [hcall]
    exact ⟨rfl, rfl⟩
  · rw [h.fresh n (by omega)]
    exact ⟨rfl, rfl⟩

theorem Call.late_of_waiting {c : Call} (h : c.stage = .waiting) (hreads : c.reads = false) :
    c.Late := by
  refine ⟨hreads, ⟨?_, ?_⟩, fun r _ hr => ?_⟩
  · rw [h]
    exact Stage.noConfusion
  · rw [h]
    exact Stage.noConfusion
  · rw [Call.result, h] at hr
    cases hr

theorem Chain.late_of_lt (h : Chain s a) {n : ℕ} (hn : a < n) : (s.call n).Late :=
  Call.late_of_waiting (h.stage_of_lt hn).1 (h.stage_of_lt hn).2

/-- Nothing has ended where the iterator is not finished. -/
theorem Past.not_ended (h : Past s a) (hf : s.isFinished = false) :
    ¬ ∃ m < a, (s.call m).Ended := by
  rintro ⟨m, hm, hended⟩
  rw [h.ended m hm hended] at hf
  cases hf

/-- What holds of the earlier calls stays so. -/
theorem Past.mono (h : Past s a) (hcall : ∀ m < a, t.call m = s.call m)
    (htaken : ∀ n < a, ∀ c, (n, c) ∈ t.taken ↔ (n, c) ∈ s.taken)
    (hfinished : s.isFinished = true → t.isFinished = true)
    (hlate : (∃ m < a, (s.call m).Ended) → (t.call a).Late) : Past t a where
  settled m hm := by rw [hcall m hm]; exact h.settled m hm
  ended m hm hended := by
    rw [hcall m hm] at hended
    exact hfinished (h.ended m hm hended)
  sound m hm r hr := by
    rw [hcall m hm] at hr
    rcases h.sound m hm r hr with ⟨v, c, rfl, hc, hv⟩ | ⟨hr', hc⟩
    · exact .inl ⟨v, c, rfl, (htaken m hm c).mpr hc, hv⟩
    · exact .inr ⟨hr', fun c hmem => hc c ((htaken m hm c).mp hmem)⟩
  late m n hmn hn hended := by
    rw [hcall m (by omega)] at hended
    rcases Nat.lt_or_eq_of_le hn with hlt | rfl
    · rw [hcall n hlt]
      exact h.late m n hmn hn hended
    · exact hlate ⟨m, hmn, hended⟩

theorem Chain.congr (h : Chain s a) (hcalls : t.calls = s.calls)
    (hcall : ∀ m, a < m → t.call m = s.call m) (hfresh : s.calls ≤ a → t.call a = s.call a)
    (hslot : ∀ n, t.ongoingPromise = some n → n + 1 = s.calls) (htaken : t.taken = s.taken)
    (henqueued : t.enqueued = s.enqueued)
    (hqueue : t.source = .readable → s.source = .readable ∧ t.queue = s.queue ∧
      t.readRequests = s.readRequests) : Chain t a where
  le := by rw [hcalls]; exact h.le
  later m hm hlt := by rw [hcall m hm]; exact h.later m hm (by omega)
  fresh m hm := by
    rw [hcalls] at hm
    have hle := h.le
    rcases Nat.lt_or_eq_of_le (hle.trans hm) with hlt | rfl
    · rw [hcall m hlt]
      exact h.fresh m hm
    · rw [hfresh hm]
      exact h.fresh _ hm
  slot n hn := by rw [hcalls]; exact hslot n hn
  ids := by rw [htaken]; exact h.ids
  order := by rw [htaken]; exact h.order
  chunks := by rw [htaken, henqueued]; exact h.chunks
  queue hreadable := by
    obtain ⟨hsource, hqueue, hrequests⟩ := hqueue hreadable
    rw [htaken, henqueued, hqueue, hrequests]
    exact h.queue hsource

/-- Call `a` changes. -/
theorem Chain.setCall (h : Chain s a) (ha : a < s.calls) (c : Call) {x : Option ℕ}
    (hx : ∀ n, x = some n → n + 1 = s.calls) :
    Chain { s.setCall a c with ongoingPromise := x } a :=
  h.congr rfl (fun m hm => setCall_call_of_ne (by omega) s c) (fun hle => by omega) hx rfl rfl
    fun hreadable => ⟨hreadable, rfl, rfl⟩

theorem Past.setCall (h : Past s a) (c : Call) {x : Option ℕ}
    (hlate : (∃ m < a, (s.call m).Ended) → c.Late) :
    Past { s.setCall a c with ongoingPromise := x } a :=
  h.mono (fun m hm => setCall_call_of_ne (by omega) s c) (fun _ _ _ => Iff.rfl) id fun hended => by
    rw [show ({ s.setCall a c with ongoingPromise := x } : Iter).call a = c from
      setCall_call_self s a c]
    exact hlate hended

theorem Chain.slot_finish (h : Chain s a) {on : Option ℕ} (hon : (s.call a).chainedOn = on)
    (direct : Direct s a on) :
    ∀ n, (if (s.call a).chainedOn.isSome then s.ongoingPromise else some a) = some n →
      n + 1 = s.calls := by
  intro n hn
  split_ifs at hn with hsome
  · exact h.slot n hn
  · cases hn
    rw [hon, Option.not_isSome_iff_eq_none] at hsome
    exact (direct hsome).2

/-! ### A call that is settled -/

/-- **The next call** is the first open one when a call is settled. -/
theorem inv_of_settled (hchain : Chain s a) (hpast : Past s a) (ha : a < s.calls) (hq : Quiet s)
    {kind : Kind} {on : Option ℕ} {r : CallResult} {returned reads : Bool}
    (hcall : s.call a = ⟨kind, on, .done r, returned, reads⟩)
    (hsettled : (s.call a).settled = true) (hclosing : Closing s a kind r) : Inv s := by
  have huntaken : Untaken s (a + 1) := by
    intro c hc
    have hid := hchain.ids _ hc
    simp only at hid
    omega
  refine ⟨a + 1, ?_, ⟨?_, ?_, ?_, ?_⟩, ?_⟩
  · refine { hchain with le := ha, later := fun m hm => hchain.later m (by omega), ids := ?_ }
    exact fun x hx => (hchain.ids x hx).trans (Nat.le_succ a)
  · intro m hm
    rcases Nat.lt_or_eq_of_le (Nat.lt_succ_iff.mp hm) with hlt | rfl
    · exact hpast.settled m hlt
    · exact hsettled
  · intro m hm hended
    rcases Nat.lt_or_eq_of_le (Nat.lt_succ_iff.mp hm) with hlt | rfl
    · exact hpast.ended m hlt hended
    · rw [hcall] at hended
      rcases hended with ⟨hkind, -⟩ | ⟨r', hr', hv⟩
      · exact hclosing.ended (hclosing.returned hkind)
      · cases hr'
        exact hclosing.ended hv
  · intro m hm r' hr'
    rcases Nat.lt_or_eq_of_le (Nat.lt_succ_iff.mp hm) with hlt | rfl
    · exact hpast.sound m hlt r' hr'
    · rw [hcall] at hr'
      cases hr'
      exact hclosing.sound
  · intro m n hmn hn hended
    rcases Nat.lt_or_eq_of_le hn with hlt | rfl
    · exact hpast.late m n hmn (Nat.lt_succ_iff.mp hlt) hended
    · exact hchain.late_of_lt (Nat.lt_succ_self a)
  · rcases Nat.lt_or_eq_of_le (Nat.succ_le_of_lt ha) with hlt | heq
    · obtain ⟨kind', hcall'⟩ := hchain.later (a + 1) (Nat.lt_succ_self a) hlt
      exact .waiting hlt kind' (Nat.succ_pos a) hcall' hq huntaken
    · exact .idle heq hq huntaken

/-- **The promise of the steps of the first open call is settled.** -/
theorem inv_of_resolve (hchain : Chain s a) (hpast : Past s a) (ha : a < s.calls) (hq : Quiet s)
    {kind : Kind} {on : Option ℕ} {stage : Stage} {reads : Bool}
    (hcall : s.call a = ⟨kind, on, stage, false, reads⟩) {r : CallResult}
    (hclosing : Closing s a kind r)
    (hlate : (∃ m < a, (s.call m).Ended) → reads = false ∧ (kind = .next → r = .done))
    {x : Option ℕ} (hx : ∀ n, x = some n → n + 1 = s.calls) :
    Inv { s.resolve a r with ongoingPromise := x } := by
  have hresolve (stage' : Stage) (hresult : (⟨kind, on, stage', false, reads⟩ : Call).result =
      some r) (hstage : stage' ≠ .returning ∧ stage' ≠ .cancelling) :
      Past { s.setCall a ⟨kind, on, stage', false, reads⟩ with ongoingPromise := x } a := by
    refine hpast.setCall _ fun hended => ⟨(hlate hended).1, hstage, fun r' hkind hr' => ?_⟩
    rw [hresult] at hr'
    cases hr'
    exact (hlate hended).2 hkind
  have hself (c : Call) : ({ s.setCall a c with ongoingPromise := x } : Iter).call a = c :=
    setCall_call_self s a c
  have hq' (c : Call) : Quiet { s.setCall a c with ongoingPromise := x } :=
    ⟨hq.frames, hq.readRequests, hq.attached, hq.releases⟩
  cases on with
  | some m =>
    have heq : s.resolve a r = s.setCall a ⟨kind, some m, .adopting r, false, reads⟩ := by
      rw [Iter.resolve, Iter.setStage, hcall]
      rfl
    rw [heq]
    refine ⟨a, hchain.setCall ha _ hx, hresolve _ rfl ⟨Stage.noConfusion, Stage.noConfusion⟩, ?_⟩
    exact .adopting ha kind (some m) r reads (hself _) (hq' _)
      ⟨hclosing.sound, hclosing.ended, hclosing.returned⟩
  | none =>
    have heq : s.resolve a r = s.setCall a ⟨kind, none, .done r, false, reads⟩ := by
      rw [Iter.resolve, Iter.setStage, hcall]
      rfl
    rw [heq]
    have hpast' := hresolve (.done r) rfl ⟨Stage.noConfusion, Stage.noConfusion⟩
    cases kind with
    | next =>
      exact inv_of_settled (hchain.setCall ha _ hx) hpast' ha (hq' _) (hself _)
        (by rw [hself]; rfl) ⟨hclosing.sound, hclosing.ended, hclosing.returned⟩
    | return_ =>
      exact ⟨a, hchain.setCall ha _ hx, hpast', .returned ha none r reads (hself _) (hq' _)
        ⟨hclosing.sound, hclosing.ended, hclosing.returned⟩⟩

/-! ### The steps of a call -/

/-- `t` differs from `s` in the stream, the iterator and call `a` only. -/
structure Local (s t : Iter) (a : ℕ) : Prop where
  calls : t.calls = s.calls
  call : ∀ m, m ≠ a → t.call m = s.call m
  slot : ∀ n, t.ongoingPromise = some n → n + 1 = s.calls
  taken : t.taken = s.taken ∨ ∃ c, t.taken = s.taken ++ [(a, c)] ∧ Untaken s a
  chunks : t.taken.map Prod.snd <+: t.enqueued
  queue : t.source = .readable →
    t.taken.map Prod.snd ++ t.queue = t.enqueued ∧ (t.readRequests = [] ∨ t.queue = [])
  finished : s.isFinished = true → t.isFinished = true

/-- **The invariant after a change of the first open call**, if there is one. -/
theorem Local.inv (h : Local s t a) (hchain : Chain s a) (hpast : Past s a)
    (hfresh : s.calls ≤ a → t.call a = s.call a)
    (hlate : (∃ m < a, (s.call m).Ended) → (t.call a).Late) (hlive : Live t a) : Inv t := by
  have htaken (n : ℕ) (hn : n < a) (c : Chunk) : (n, c) ∈ t.taken ↔ (n, c) ∈ s.taken := by
    rcases h.taken with heq | ⟨c', heq, -⟩
    · rw [heq]
    · rw [heq, List.mem_append, List.mem_singleton, Prod.mk.injEq]
      exact or_iff_left fun hn' => by omega
  refine ⟨a, ?_, hpast.mono (fun m hm => h.call m (by omega)) htaken h.finished hlate, hlive⟩
  refine ⟨h.calls.symm ▸ hchain.le, fun m hm hlt => ?_, fun m hm => ?_, fun n hn => ?_, ?_, ?_,
    h.chunks, h.queue⟩
  · rw [h.call m (by omega)]
    exact hchain.later m hm (h.calls ▸ hlt)
  · rw [h.calls] at hm
    by_cases hma : m = a
    · subst hma
      rw [hfresh hm]
      exact hchain.fresh m hm
    · rw [h.call m hma]
      exact hchain.fresh m hm
  · rw [h.calls]
    exact h.slot n hn
  · rcases h.taken with heq | ⟨c', heq, -⟩
    · rw [heq]
      exact hchain.ids
    · rw [heq]
      intro x hx
      rcases List.mem_append.mp hx with hx | hx
      · exact hchain.ids x hx
      · rw [List.mem_singleton] at hx
        rw [hx]
  · rcases h.taken with heq | ⟨c', heq, huntaken⟩
    · rw [heq]
      exact hchain.order
    · rw [heq, List.pairwise_append]
      refine ⟨hchain.order, List.pairwise_singleton _ _, fun x hx y hy => ?_⟩
      rw [List.mem_singleton] at hy
      subst hy
      have hle := hchain.ids x hx
      rcases Nat.lt_or_eq_of_le hle with hlt | heq'
      · exact hlt
      · obtain ⟨n, c⟩ := x
        simp only at heq'
        subst heq'
        exact absurd hx (huntaken c)

theorem finish_resolve (s : Iter) (n : ℕ) (r : CallResult) :
    (s.resolve n r).finish n = { s.resolve n r with
      ongoingPromise := if (s.call n).chainedOn.isSome then s.ongoingPromise else some n } := by
  rw [finish_eq]
  simp [Iter.resolve, Iter.setStage, Iter.setCall]

theorem release_eq (hattached : s.attached = true) (hrequests : s.readRequests = []) :
    s.release = .ok { s with attached := false, releases := s.releases + 1 } := by
  simp [Iter.release, hattached, hrequests]

/-- A stream without requests closes. -/
theorem streamClose_eq (hrequests : s.readRequests = []) :
    s.streamClose = .ok { s with source := .closed, readRequests := [] } := by
  rw [Iter.streamClose, hrequests]
  rfl

/-- A quiet iterator that is not finished holds its reader. -/
theorem Quiet.isOpen (h : Quiet s) (hf : s.isFinished = false) : Open s := by
  refine ⟨?_, hf, ?_⟩
  · rw [h.attached, hf]
    rfl
  · rw [h.releases, hf]
    rfl

theorem setCall_setCall (s : Iter) (n : ℕ) (c c' : Call) :
    (s.setCall n c).setCall n c' = s.setCall n c' := by
  simp [Iter.setCall]

theorem closeSteps_eq (hattached : s.attached = true) (hrequests : s.readRequests = []) (n : ℕ) :
    s.closeSteps n = .ok
      { s.setCall n { s.call n with stage := .reading (.settled .endOfIteration) } with
        attached := false
        releases := s.releases + 1 } := by
  rw [Iter.closeSteps, release_eq hattached hrequests]
  rfl

theorem errorSteps_eq (hattached : s.attached = true) (hrequests : s.readRequests = []) (n : ℕ)
    (e : JsError) :
    s.errorSteps n e = .ok
      { s.setCall n { s.call n with stage := .reading (.settled (.rejected e)) } with
        attached := false
        releases := s.releases + 1 } := by
  rw [Iter.errorSteps, release_eq hattached hrequests]
  rfl

/-- What a chunk makes of the promise that is resolved with it. -/
def Chunk.promise : Chunk → NextPromise
  | value v => .settled (.chunk v)
  | thenable _ => .locked

theorem chunkSteps_eq (s : Iter) (n : ℕ) (c : Chunk) :
    s.chunkSteps n c = s.setCall n { s.call n with stage := .reading c.promise } := by
  cases c <;> rfl

/-- The read of call `a` was answered with the chunk. -/
theorem answer_promise {c : Chunk} (hrequests : s.readRequests = []) (hopen : Open s)
    (htaken : (a, c) ∈ s.taken) : Answer s a c.promise := by
  cases c with
  | value v => exact ⟨hrequests, hopen, .value v, htaken, rfl⟩
  | thenable t => exact ⟨hrequests, hopen, t, htaken⟩

theorem pullSteps_closes {c : Chunk} {queue : List Chunk} (hqueue : s.queue = c :: queue)
    (hcloses : (queue.isEmpty && s.closeRequested) = true) (hrequests : s.readRequests = []) (n : ℕ)
    (refusal : Option JsError) :
    s.pullSteps n refusal = .ok
      (({ s with
          source := .closed
          queue := queue
          readRequests := []
          taken := s.taken ++ [(n, c)] }.chunkSteps n c).finish n) := by
  have hclose := streamClose_eq (s := { s with
    queue := queue
    taken := s.taken ++ [(n, c)] }) hrequests
  simp only [Iter.pullSteps, hqueue]
  rw [if_pos hcloses, hclose]
  rfl

theorem pullSteps_dequeues {c : Chunk} {queue : List Chunk} (hqueue : s.queue = c :: queue)
    (hcloses : ¬ (queue.isEmpty && s.closeRequested) = true) (n : ℕ) (refusal : Option JsError) :
    s.pullSteps n refusal = .ok
      { s with
        queue := queue
        taken := s.taken ++ [(n, c)]
        frames := ⟨n, some c⟩ :: s.frames } := by
  simp only [Iter.pullSteps, hqueue]
  rw [if_neg hcloses]

theorem pullSteps_refused (hqueue : s.queue = []) (hattached : s.attached = true)
    (hrequests : s.readRequests = []) (n : ℕ) (e : JsError) :
    s.pullSteps n (some e) = .ok
      ({ s.setCall n { s.call n with stage := .reading (.settled (.rejected e)) } with
        attached := false
        releases := s.releases + 1 }.finish n) := by
  have hsteps := errorSteps_eq hattached hrequests n e
  simp only [Iter.pullSteps, hqueue]
  rw [hsteps]
  rfl

theorem pullSteps_waits (hqueue : s.queue = []) (n : ℕ) :
    s.pullSteps n none = .ok
      { s with
        readRequests := s.readRequests ++ [n]
        frames := ⟨n, none⟩ :: s.frames } := by
  simp only [Iter.pullSteps, hqueue]

@[simp] theorem finish_call (s : Iter) (n : ℕ) : (s.finish n).call = s.call := by
  rw [finish_eq]

/-- A call whose promise is resolved has begun. -/
theorem resolve_begun (s : Iter) (n : ℕ) (r : CallResult) :
    ((s.resolve n r).call n).stage ≠ .waiting := by
  rw [Iter.resolve, Iter.setStage, setCall_call_self]
  split_ifs
  · exact Stage.noConfusion
  · exact Stage.noConfusion

theorem chunkSteps_begun (s : Iter) (n : ℕ) (c : Chunk) :
    ((s.chunkSteps n c).call n).stage ≠ .waiting := by
  rw [chunkSteps_eq, setCall_call_self]
  exact Stage.noConfusion

theorem closeSteps_begun {n : ℕ} (h : s.closeSteps n = .ok t) :
    (t.call n).stage ≠ .waiting := by
  obtain ⟨u, -, hu⟩ := Outcome.bind_eq_ok h
  cases hu
  rw [Iter.setStage, setCall_call_self]
  exact Stage.noConfusion

theorem errorSteps_begun {n : ℕ} {e : JsError} (h : s.errorSteps n e = .ok t) :
    (t.call n).stage ≠ .waiting := by
  obtain ⟨u, -, hu⟩ := Outcome.bind_eq_ok h
  cases hu
  rw [Iter.setStage, setCall_call_self]
  exact Stage.noConfusion

theorem pullSteps_begun {n : ℕ} {refusal : Option JsError} (hs : (s.call n).stage ≠ .waiting)
    (h : s.pullSteps n refusal = .ok t) : (t.call n).stage ≠ .waiting := by
  rw [Iter.pullSteps.eq_def] at h
  split at h
  · simp only at h
    split_ifs at h
    · obtain ⟨u, -, hu⟩ := Outcome.bind_eq_ok h
      cases hu
      rw [finish_call]
      exact chunkSteps_begun _ _ _
    · cases h
      exact hs
  · obtain ⟨u, hu, ht⟩ := Outcome.bind_eq_ok h
    cases ht
    rw [finish_call]
    exact errorSteps_begun hu
  · cases h
    exact hs

theorem runNextSteps_begun {n : ℕ} {refusal : Option JsError}
    (h : s.runNextSteps n refusal = .ok t) : (t.call n).stage ≠ .waiting := by
  rw [Iter.runNextSteps] at h
  split_ifs at h
  · cases h
    rw [finish_call]
    exact resolve_begun _ _ _
  · simp only at h
    split at h
    · obtain ⟨u, hu, ht⟩ := Outcome.bind_eq_ok h
      cases ht
      rw [finish_call]
      exact closeSteps_begun hu
    · obtain ⟨u, hu, ht⟩ := Outcome.bind_eq_ok h
      cases ht
      rw [finish_call]
      exact errorSteps_begun hu
    · refine pullSteps_begun ?_ h
      rw [setCall_call_self]
      exact Stage.noConfusion

theorem runReturnSteps_begun {n : ℕ} (h : s.runReturnSteps n = .ok t) :
    (t.call n).stage ≠ .waiting := by
  have hdone {u v : Iter} {r : CallResult}
      (hv : (do let u ← Iter.release u; .ok ((u.resolve n r).finish n) : Steps) = .ok v) :
      (v.call n).stage ≠ .waiting := by
    obtain ⟨w, -, hw⟩ := Outcome.bind_eq_ok hv
    cases hw
    rw [finish_call]
    exact resolve_begun _ _ _
  rw [Iter.runReturnSteps] at h
  split_ifs at h
  · cases h
    rw [finish_call]
    exact resolve_begun _ _ _
  · rw [Iter.asynchronousIteratorReturn] at h
    split_ifs at h
    · exact hdone h
    · simp only at h
      split at h
      · exact hdone h
      · exact hdone h
      · obtain ⟨u, -, hu⟩ := Outcome.bind_eq_ok h
        cases hu
        rw [Iter.setStage, setCall_call_self]
        exact Stage.noConfusion

/-- **A call whose steps have run has begun.** -/
theorem runSteps_begun {n : ℕ} {refusal : Option JsError} (h : s.runSteps n refusal = .ok t) :
    (t.call n).stage ≠ .waiting := by
  rw [Iter.runSteps] at h
  split at h
  · exact runNextSteps_begun h
  · exact runReturnSteps_begun h

section Steps

variable {kind : Kind} {on : Option ℕ}

/-- The state after a read that was answered at once, without a chunk. -/
private theorem inv_of_refused (hchain : Chain s a) (hpast : Past s a) (ha : a < s.calls)
    (hq : Quiet s) (hopen : Open s) (huntaken : Untaken s a)
    (hcall : s.call a = ⟨.next, on, .waiting, false, false⟩) (hdirect : Direct s a on)
    (outcome : NextOutcome) (houtcome : ∀ v, outcome ≠ .chunk v) :
    Inv ({ s.setCall a ⟨.next, on, .reading (.settled outcome), false, true⟩ with
      attached := false
      releases := s.releases + 1 }.finish a) := by
  have hlate := hpast.not_ended hopen.isFinished
  have hself : (s.setCall a ⟨.next, on, .reading (.settled outcome), false, true⟩).call a =
      ⟨.next, on, .reading (.settled outcome), false, true⟩ := setCall_call_self _ _ _
  rw [finish_eq]
  have hslot := hchain.slot_finish (congrArg Call.chainedOn hcall) hdirect
  rw [hcall] at hslot
  refine Local.inv (s := s) (a := a)
    ⟨rfl, fun m hm => setCall_call_of_ne hm s _, ?_, .inl rfl, hchain.chunks, hchain.queue, id⟩
    hchain hpast (fun hle => by omega) (fun hended => absurd hended hlate) ?_
  · simp only [hself]
    exact hslot
  · refine .reading ha on (.settled outcome) hself (.inl hq.frames) ?_
    cases outcome with
    | chunk v => exact absurd rfl (houtcome v)
    | endOfIteration =>
      exact ⟨hq.readRequests, rfl, hopen.isFinished, by simp [hopen.releases], huntaken⟩
    | rejected e =>
      exact ⟨hq.readRequests, rfl, hopen.isFinished, by simp [hopen.releases], huntaken⟩

/-- **The pull steps** of the first open call. -/
private theorem inv_pullSteps (hchain : Chain s a) (hpast : Past s a) (ha : a < s.calls)
    (hq : Quiet s) (hopen : Open s) (huntaken : Untaken s a)
    (hcall : s.call a = ⟨.next, on, .waiting, false, false⟩) (hdirect : Direct s a on)
    (hsource : s.source = .readable) (refusal : Option JsError) :
    ∃ t, (s.setCall a ⟨.next, on, .reading .pending, false, true⟩).pullSteps a refusal = .ok t ∧
      Inv t := by
  have hlate := hpast.not_ended hopen.isFinished
  have hself (stage : Stage) : (s.setCall a ⟨.next, on, stage, false, true⟩).call a =
      ⟨.next, on, stage, false, true⟩ := setCall_call_self _ _ _
  have hslot := hchain.slot_finish (congrArg Call.chainedOn hcall) hdirect
  rw [hcall] at hslot
  cases hqueue : s.queue with
  -- a chunk is queued: the read answers at once
  | cons c queue =>
    have htaken : s.taken.map Prod.snd ++ c :: queue = s.enqueued :=
      hqueue ▸ (hchain.queue hsource).1
    have hchunks : (s.taken ++ [(a, c)]).map Prod.snd <+: s.enqueued := by
      rw [← htaken, List.map_append]
      exact ⟨queue, by simp⟩
    by_cases hcloses : (queue.isEmpty && s.closeRequested) = true
    -- it was the last chunk, so the source closes
    · refine ⟨_, pullSteps_closes (s := s.setCall a ⟨.next, on, .reading .pending, false, true⟩)
        hqueue hcloses hq.readRequests a refusal, ?_⟩
      rw [chunkSteps_eq, finish_eq]
      refine Local.inv (s := s) (a := a) ⟨rfl, fun m hm => ?_, ?_, .inr ⟨c, rfl, huntaken⟩, hchunks,
        fun hreadable => Source.noConfusion hreadable, id⟩ hchain hpast (fun hle => by omega)
        (fun hended => absurd hended hlate) ?_
      · simp [Iter.setCall, hm]
      · simpa [Iter.setCall] using hslot
      · refine .reading ha on c.promise (by simp [Iter.setCall]) (.inl hq.frames) ?_
        exact answer_promise rfl ⟨hopen.attached, hopen.isFinished, hopen.releases⟩
          (List.mem_append_right _ (List.mem_singleton_self _))
    -- the source is asked for more before the chunk is given, and its code may run
    · refine ⟨_, pullSteps_dequeues (s := s.setCall a ⟨.next, on, .reading .pending, false, true⟩)
        hqueue hcloses a refusal, ?_⟩
      refine Local.inv (s := s) (a := a) ⟨rfl, fun m hm => setCall_call_of_ne hm s _, hchain.slot,
        .inr ⟨c, rfl, huntaken⟩, hchunks, fun _ => ?_, id⟩ hchain hpast (fun hle => by omega)
        (fun hended => absurd hended hlate) ?_
      · refine ⟨?_, .inl hq.readRequests⟩
        simp only [Iter.setCall]
        rw [← htaken]
        simp
      · refine .holding ha on c (hself _) ?_ hdirect
          ⟨hopen.attached, hopen.isFinished, hopen.releases⟩ hq.readRequests
          (List.mem_append_right _ (List.mem_singleton_self _))
        exact congrArg (List.cons _) hq.frames
  | nil =>
    cases refusal with
    -- the pull threw: the read is rejected and the reader released
    | some e =>
      refine ⟨_, pullSteps_refused (s := s.setCall a ⟨.next, on, .reading .pending, false, true⟩)
        hqueue hopen.attached hq.readRequests a e, ?_⟩
      rw [setCall_setCall, hself]
      exact inv_of_refused hchain hpast ha hq hopen huntaken hcall hdirect (.rejected e)
        fun v h => NextOutcome.noConfusion h
    -- the read waits in the source
    | none =>
      refine ⟨_, pullSteps_waits (s := s.setCall a ⟨.next, on, .reading .pending, false, true⟩)
        hqueue a, ?_⟩
      refine Local.inv (s := s) (a := a) ⟨rfl, fun m hm => setCall_call_of_ne hm s _, hchain.slot,
        .inl rfl, hchain.chunks, fun h => ⟨(hchain.queue h).1, .inr hqueue⟩, id⟩ hchain hpast
        (fun hle => by omega) (fun hended => absurd hended hlate) ?_
      refine .reading ha on .pending (hself _) (.inr ⟨congrArg (List.cons _) hq.frames, hdirect⟩) ?_
      exact ⟨congrArg (· ++ [a]) hq.readRequests, hsource,
        ⟨hopen.attached, hopen.isFinished, hopen.releases⟩, huntaken⟩

/-- **The steps of `next`**, for the first open call. -/
private theorem inv_runNextSteps (hchain : Chain s a) (hpast : Past s a) (ha : a < s.calls)
    (hq : Quiet s) (huntaken : Untaken s a)
    (hcall : s.call a = ⟨.next, on, .waiting, false, false⟩) (hdirect : Direct s a on)
    (refusal : Option JsError) : ∃ t, s.runNextSteps a refusal = .ok t ∧ Inv t := by
  have hslot := hchain.slot_finish (congrArg Call.chainedOn hcall) hdirect
  cases hfinished : s.isFinished with
  -- the iterator is finished: the call is done without a read
  | true =>
    refine ⟨_, by rw [Iter.runNextSteps, if_pos hfinished], ?_⟩
    rw [finish_resolve]
    refine inv_of_resolve hchain hpast ha hq hcall ⟨.inr ⟨fun v h => CallResult.noConfusion h,
      huntaken⟩, fun _ => hfinished, fun h => Kind.noConfusion h⟩ (fun _ => ⟨rfl, fun _ => rfl⟩)
      hslot
  | false =>
    have hopen := hq.isOpen hfinished
    have hattached := hopen.attached
    have hself : (s.setCall a ⟨.next, on, .reading .pending, false, true⟩).call a =
        ⟨.next, on, .reading .pending, false, true⟩ := setCall_call_self _ _ _
    -- the source was not read to its end by the iterator: its state decides
    cases hsource : s.source with
    | readable =>
      obtain ⟨t, ht, hinv⟩ := inv_pullSteps hchain hpast ha hq hopen huntaken hcall hdirect hsource
        refusal
      refine ⟨t, ?_, hinv⟩
      rw [← ht]
      simp [Iter.runNextSteps, hfinished, hattached, hcall, hsource, Iter.setCall]
    | closed =>
      refine ⟨_, ?_, inv_of_refused hchain hpast ha hq hopen huntaken hcall hdirect
        .endOfIteration fun v h => NextOutcome.noConfusion h⟩
      have hsteps := closeSteps_eq (s := s.setCall a ⟨.next, on, .reading .pending, false, true⟩)
        hattached hq.readRequests a
      rw [setCall_setCall, hself] at hsteps
      rw [Iter.runNextSteps, hcall, if_neg (by simp [hfinished]), if_pos hattached]
      simp only [Iter.setCall, hsource] at hsteps ⊢
      rw [hsteps]
      rfl
    | errored e =>
      refine ⟨_, ?_, inv_of_refused hchain hpast ha hq hopen huntaken hcall hdirect
        (.rejected e) fun v h => NextOutcome.noConfusion h⟩
      have hsteps := errorSteps_eq (s := s.setCall a ⟨.next, on, .reading .pending, false, true⟩)
        hattached hq.readRequests a e
      rw [setCall_setCall, hself] at hsteps
      rw [Iter.runNextSteps, hcall, if_neg (by simp [hfinished]), if_pos hattached]
      simp only [Iter.setCall, hsource] at hsteps ⊢
      rw [hsteps]
      rfl

/-- The iterator is finished and its reader released, at the first `return`. -/
private theorem inv_of_released (hchain : Chain s a) (hpast : Past s a) (ha : a < s.calls)
    (hq : Quiet s) (hopen : Open s) (huntaken : Untaken s a)
    (hcall : s.call a = ⟨.return_, on, .waiting, false, false⟩) (hdirect : Direct s a on)
    {r : CallResult} (hr : ∀ v, r ≠ .value v) :
    Inv (({ s with
      isFinished := true
      attached := false
      releases := s.releases + 1 }.resolve a r).finish a) := by
  have hslot := hchain.slot_finish (congrArg Call.chainedOn hcall) hdirect
  have hlate := hpast.not_ended hopen.isFinished
  rw [finish_resolve]
  refine inv_of_resolve (s := { s with
    isFinished := true
    attached := false
    releases := s.releases + 1 }) (a := a)
    (hchain.congr rfl (fun _ _ => rfl) (fun _ => rfl) hchain.slot rfl rfl fun h => ⟨h, rfl, rfl⟩)
    (hpast.mono (fun _ _ => rfl) (fun _ _ _ => Iff.rfl) (fun _ => rfl)
      fun hended => absurd hended hlate)
    ha ⟨hq.frames, hq.readRequests, rfl, by simp [hopen.releases]⟩ hcall
    ⟨.inr ⟨hr, huntaken⟩, fun _ => rfl, fun _ => hr⟩ (fun hended => absurd hended hlate) hslot

/-- **The steps of `return`**, for the first open call. -/
private theorem inv_runReturnSteps (hchain : Chain s a) (hpast : Past s a) (ha : a < s.calls)
    (hq : Quiet s) (huntaken : Untaken s a)
    (hcall : s.call a = ⟨.return_, on, .waiting, false, false⟩) (hdirect : Direct s a on) :
    ∃ t, s.runReturnSteps a = .ok t ∧ Inv t := by
  have hslot := hchain.slot_finish (congrArg Call.chainedOn hcall) hdirect
  have hdone (v : ℕ) : CallResult.done ≠ .value v := fun h => CallResult.noConfusion h
  cases hfinished : s.isFinished with
  | true =>
    refine ⟨_, by rw [Iter.runReturnSteps, if_pos hfinished], ?_⟩
    rw [finish_resolve]
    exact inv_of_resolve hchain hpast ha hq hcall ⟨.inr ⟨hdone, huntaken⟩, fun _ => hfinished,
      fun _ => hdone⟩ (fun _ => ⟨rfl, fun _ => rfl⟩) hslot
  | false =>
    have hopen := hq.isOpen hfinished
    have hattached := hopen.attached
    have hlate := hpast.not_ended hfinished
    have hrelease := release_eq (s := { s with isFinished := true }) hattached hq.readRequests
    have hsteps : s.runReturnSteps a = ({ s with
        isFinished := true } : Iter).asynchronousIteratorReturn a := by
      rw [Iter.runReturnSteps, if_neg (by simp [hfinished])]
    have hinv {r : CallResult} (hr : ∀ v, r ≠ .value v) :=
      inv_of_released hchain hpast ha hq hopen huntaken hcall hdirect hr
    rw [hsteps, Iter.asynchronousIteratorReturn]
    -- the source is not cancelled: the reader is released at once
    by_cases hprevent : s.preventCancel = true
    · refine ⟨_, ?_, hinv hdone⟩
      rw [if_pos hprevent, hrelease]
      rfl
    · rw [if_neg hprevent, if_pos hattached]
      cases hsource : s.source with
      | closed =>
        refine ⟨_, ?_, hinv hdone⟩
        simp only
        rw [← hsource, hrelease]
        rfl
      | errored e =>
        refine ⟨_, ?_, hinv (r := .error e) fun v h => CallResult.noConfusion h⟩
        simp only
        rw [← hsource, hrelease]
        rfl
      -- its cancel algorithm runs before the reader is released
      | readable =>
        have hclose := streamClose_eq (s := { s with isFinished := true }) hq.readRequests
        simp only
        rw [← hsource, hclose]
        refine ⟨_, rfl, ?_⟩
        refine Local.inv (s := s) (a := a) ⟨rfl, fun m hm => ?_, hchain.slot, .inl rfl,
          hchain.chunks, fun h => Source.noConfusion h, fun _ => rfl⟩ hchain hpast
          (fun hle => by omega) (fun hended => absurd hended hlate) ?_
        · simp [Iter.setStage, Iter.setCall, hm]
        · exact .returning ha on (by simp [Iter.setStage, Iter.setCall, hcall])
            (congrArg (List.cons _) hq.frames) hdirect hattached rfl hopen.releases rfl
            (fun h => Source.noConfusion h) huntaken

/-- **The steps of a call**, for the first open call. -/
theorem inv_runSteps (hchain : Chain s a) (hpast : Past s a) (ha : a < s.calls) (hq : Quiet s)
    (huntaken : Untaken s a) (hcall : s.call a = ⟨kind, on, .waiting, false, false⟩)
    (hdirect : Direct s a on) (refusal : Option JsError) :
    ∃ t, s.runSteps a refusal = .ok t ∧ Inv t := by
  rw [Iter.runSteps, hcall]
  cases kind with
  | next => exact inv_runNextSteps hchain hpast ha hq huntaken hcall hdirect refusal
  | return_ => exact inv_runReturnSteps hchain hpast ha hq huntaken hcall hdirect

end Steps

/-! ### The events -/

/-- Where the first open call is does not depend on the queue, and on the later calls only where it
was not chained. -/
theorem Live.congr (h : Live s a) (ha : a < s.calls) (hcalls : s.calls ≤ t.calls)
    (hcall : t.call a = s.call a) (hframes : t.frames = s.frames)
    (hrequests : t.readRequests = s.readRequests) (hattached : t.attached = s.attached)
    (hfinished : t.isFinished = s.isFinished) (hreleases : t.releases = s.releases)
    (htaken : t.taken = s.taken)
    (hsource : t.source = s.source ∨ t.source ≠ .readable ∧ s.readRequests = [])
    (hdirect : ∀ on, Direct s a on → Direct t a on) : Live t a := by
  have hlt : a < t.calls := ha.trans_le hcalls
  have hquiet (hq : Quiet s) : Quiet t :=
    ⟨hframes ▸ hq.frames, hrequests ▸ hq.readRequests, by rw [hattached, hfinished, hq.attached],
      by rw [hreleases, hfinished, hq.releases]⟩
  have hopen (ho : Open s) : Open t :=
    ⟨hattached ▸ ho.attached, hfinished ▸ ho.isFinished, hreleases ▸ ho.releases⟩
  have huntaken (hu : Untaken s a) : Untaken t a := fun c hc => hu c (htaken ▸ hc)
  have hclosing {kind : Kind} {r : CallResult} (hc : Closing s a kind r) : Closing t a kind r :=
    ⟨by rw [Sound, htaken]; exact hc.sound, fun hv => hfinished ▸ hc.ended hv, hc.returned⟩
  cases h with
  | idle h => omega
  | waiting _ kind hpos hc hq hu =>
    exact .waiting hlt kind hpos (hcall.trans hc) (hquiet hq) (huntaken hu)
  | reading _ on p hc hf answer =>
    refine .reading hlt on p (hcall.trans hc) (by rw [hframes]; exact hf.imp_right fun hf =>
      ⟨hf.1, hdirect on hf.2⟩) ?_
    cases p with
    | pending =>
      obtain ⟨hr, hs, ho, hu⟩ := answer
      refine ⟨hrequests ▸ hr, ?_, hopen ho, huntaken hu⟩
      rcases hsource with heq | ⟨-, hnil⟩
      · rw [heq]
        exact hs
      · rw [hr] at hnil
        cases hnil
    | locked =>
      obtain ⟨hr, ho, c, hc⟩ := answer
      exact ⟨hrequests ▸ hr, hopen ho, c, htaken ▸ hc⟩
    | settled outcome =>
      cases outcome with
      | chunk v =>
        obtain ⟨hr, ho, c, hc⟩ := answer
        exact ⟨hrequests ▸ hr, hopen ho, c, htaken ▸ hc⟩
      | endOfIteration | rejected =>
        obtain ⟨hr, hat, hfin, hrel, hu⟩ := answer
        exact ⟨hrequests ▸ hr, hattached ▸ hat, hfinished ▸ hfin, hreleases ▸ hrel, huntaken hu⟩
  | holding _ on c hc hf direct ho hr htk =>
    exact .holding hlt on c (hcall.trans hc) (hframes ▸ hf) (hdirect on direct) (hopen ho)
      (hrequests ▸ hr) (htaken ▸ htk)
  | returning _ on hc hf direct hat hfin hrel hr hs hu =>
    refine .returning hlt on (hcall.trans hc) (hframes ▸ hf) (hdirect on direct) (hattached ▸ hat)
      (hfinished ▸ hfin) (hreleases ▸ hrel) (hrequests ▸ hr) ?_ (huntaken hu)
    rcases hsource with heq | ⟨hne, -⟩
    · rw [heq]
      exact hs
    · exact hne
  | cancelling _ on hc hq hfin hu =>
    exact .cancelling hlt on (hcall.trans hc) (hquiet hq) (hfinished ▸ hfin) (huntaken hu)
  | adopting _ kind on r reads hc hq closing =>
    exact .adopting hlt kind on r reads (hcall.trans hc) (hquiet hq) (hclosing closing)
  | returned _ on r reads hc hq closing =>
    exact .returned hlt on r reads (hcall.trans hc) (hquiet hq) (hclosing closing)

/-- A call that is neither waiting nor settled is the first open one. -/
theorem Chain.eq_of_stage (hchain : Chain s a) (hpast : Past s a) {n : ℕ}
    (hwaiting : (s.call n).stage ≠ .waiting) (hdone : ∀ r, (s.call n).stage ≠ .done r) :
    n = a := by
  rcases Nat.lt_trichotomy n a with hlt | heq | hgt
  · obtain ⟨r, hr, -⟩ := Call.exists_of_settled (hpast.settled n hlt)
    exact absurd hr (hdone r)
  · exact heq
  · exact absurd (hchain.stage_of_lt hgt).1 hwaiting

/-- **A call is made.** -/
theorem Inv.makeCall (h : Inv s) (kind : Kind) (refusal : Option JsError)
    (horderly : Orderly s (.call kind refusal)) :
    ∃ t, s.makeCall kind refusal = .ok t ∧ Inv t := by
  obtain ⟨a, hchain, hpast, hlive⟩ := h
  cases hongoing : s.ongoingPromise with
  -- the call waits behind the last one
  | some p =>
    have hp := hchain.slot p hongoing
    have hne {m : ℕ} (hm : m < s.calls) (c : Call) :
        Function.update s.call s.calls c m = s.call m := Function.update_of_ne hm.ne c s.call
    simp only [Iter.makeCall, hongoing]
    refine ⟨_, rfl, a, ?_, ?_, ?_⟩
    · refine { hchain with
        le := hchain.le.trans (Nat.le_succ _)
        later := fun m hm hlt => ?_
        fresh := fun m hm => ?_
        slot := fun n hn => ?_ }
      · simp only at hlt ⊢
        rcases Nat.lt_or_eq_of_le (Nat.lt_succ_iff.mp hlt) with hlt | rfl
        · rw [hne hlt]
          exact hchain.later m hm hlt
        · refine ⟨kind, ?_⟩
          rw [Function.update_self, ← hp, Nat.add_sub_cancel]
      · simp only at hm ⊢
        rw [Function.update_of_ne (by omega)]
        exact hchain.fresh m (by omega)
      · cases hn
        rfl
    · refine hpast.mono (fun m hm => hne (hm.trans_le hchain.le) _) (fun _ _ _ => Iff.rfl) id ?_
      rintro ⟨m, hm, hended⟩
      rcases Nat.lt_or_eq_of_le hchain.le with hlt | rfl
      · simp only [hne hlt]
        exact hpast.late m a hm le_rfl hended
      · simp only [Function.update_self]
        exact Call.late_of_waiting rfl rfl
    -- the call that runs is the same, unless none did
    · rcases Nat.lt_or_eq_of_le hchain.le with hlt | rfl
      · refine hlive.congr hlt (Nat.le_succ _) (hne hlt _) rfl rfl rfl rfl rfl rfl (.inl rfl) ?_
        intro on hdirect hon
        rw [(hdirect hon).1] at hongoing
        cases hongoing
      · cases hlive with
        | idle _ hq hu =>
          refine .waiting (Nat.lt_succ_self _) kind (by omega) ?_
            ⟨hq.frames, hq.readRequests, hq.attached, hq.releases⟩ hu
          simp only [Function.update_self]
          rw [← hp, Nat.add_sub_cancel]
        | waiting h | reading h | holding h | returning h | cancelling h | adopting h
        | returned h => exact absurd h (lt_irrefl _)
  -- nothing is under way, so every call before has settled
  | none =>
    have hall := horderly.resolve_left fun hne => hne hongoing
    rcases Nat.lt_or_eq_of_le hchain.le with hlt | rfl
    · exact absurd (hall a hlt) (by simp [hlive.settled_eq_false hlt])
    · cases hlive with
      | idle _ hq hu =>
        have hne {m : ℕ} (hm : m ≠ s.calls) (c : Call) :
            Function.update s.call s.calls c m = s.call m := Function.update_of_ne hm c s.call
        simp only [Iter.makeCall, hongoing]
        refine inv_runSteps (s := { s with
          ongoingPromise := none
          calls := s.calls + 1
          call := Function.update s.call s.calls ⟨kind, none, .waiting, false, false⟩ })
          (a := s.calls) ?_ ?_ (Nat.lt_succ_self _)
          ⟨hq.frames, hq.readRequests, hq.attached, hq.releases⟩ hu (Function.update_self ..)
          (fun _ => ⟨rfl, rfl⟩) refusal
        · refine { hchain with
            le := Nat.le_succ _
            later := fun m hm hlt => by simp only at hlt; omega
            fresh := fun m hm => ?_
            slot := fun n hn => ?_ }
          · simp only at hm ⊢
            rw [hne (by omega)]
            exact hchain.fresh m (by omega)
          · cases hn
        · refine hpast.mono (fun m hm => hne hm.ne _) (fun _ _ _ => Iff.rfl) id fun _ => ?_
          simp only [Function.update_self]
          exact Call.late_of_waiting rfl rfl
      | waiting h | reading h | holding h | returning h | cancelling h | adopting h
      | returned h => exact absurd h (lt_irrefl _)

/-- **The author's algorithm returns.** -/
theorem Inv.algorithmReturns (h : Inv s) : ∃ t, s.algorithmReturns = .ok t ∧ Inv t := by
  obtain ⟨a, hchain, hpast, hlive⟩ := h
  have hlate (hf : s.isFinished = false) := hpast.not_ended hf
  have hnil (hf : s.frames = []) : ∃ t, s.algorithmReturns = .ok t ∧ Inv t :=
    ⟨s, by rw [Iter.algorithmReturns, hf], a, hchain, hpast, hlive⟩
  cases hlive with
  | idle _ hq | waiting _ _ _ _ hq | cancelling _ _ _ hq | adopting _ _ _ _ _ _ hq
  | returned _ _ _ _ _ hq => exact hnil hq.frames
  | reading ha on p hcall hframes answer =>
    rcases hframes with hf | ⟨hf, direct⟩
    · exact hnil hf
    · have hslot := hchain.slot_finish (congrArg Call.chainedOn hcall) direct
      have hsteps : s.algorithmReturns = .ok ({ s with frames := [] }.finish a) := by
        simp only [Iter.algorithmReturns, hf, hcall]
      refine ⟨_, hsteps, ?_⟩
      rw [finish_eq]
      refine Local.inv (s := s) (a := a) ⟨rfl, fun _ _ => rfl, hslot, .inl rfl, hchain.chunks,
        hchain.queue, id⟩ hchain hpast (fun _ => rfl) ?_ ?_
      · rintro ⟨m, hm, hended⟩
        exact hpast.late m a hm le_rfl hended
      · refine .reading ha on p hcall (.inl rfl) ?_
        cases p with
        | pending => exact ⟨answer.1, answer.2.1, ⟨answer.2.2.1.1, answer.2.2.1.2, answer.2.2.1.3⟩,
            answer.2.2.2⟩
        | locked => exact ⟨answer.1, ⟨answer.2.1.1, answer.2.1.2, answer.2.1.3⟩, answer.2.2⟩
        | settled outcome =>
          cases outcome with
          | chunk v => exact ⟨answer.1, ⟨answer.2.1.1, answer.2.1.2, answer.2.1.3⟩, answer.2.2⟩
          | endOfIteration | rejected => exact answer
  -- author code gave way to the chunk that was held
  | holding ha on c hcall hframes direct isOpen hrequests htaken =>
    have hslot := hchain.slot_finish (congrArg Call.chainedOn hcall) direct
    rw [hcall] at hslot
    have hsteps : s.algorithmReturns = .ok (({ s with frames := [] }.chunkSteps a c).finish a) := by
      simp only [Iter.algorithmReturns, hframes, hcall]
    refine ⟨_, hsteps, ?_⟩
    rw [chunkSteps_eq, finish_eq]
    refine Local.inv (s := s) (a := a) ⟨rfl, fun m hm => ?_, ?_, .inl rfl, hchain.chunks,
      hchain.queue, id⟩ hchain hpast (fun hle => by omega)
      (fun hended => absurd hended (hlate isOpen.isFinished)) ?_
    · simp [Iter.setCall, hm]
    · simpa [Iter.setCall, hcall] using hslot
    · refine .reading ha on c.promise (by simp [Iter.setCall, hcall]) (.inl rfl) ?_
      exact answer_promise hrequests ⟨isOpen.attached, isOpen.isFinished, isOpen.releases⟩ htaken
  | returning ha on hcall hframes direct hattached hfinished hreleases hrequests hsource untaken =>
    have hslot := hchain.slot_finish (congrArg Call.chainedOn hcall) direct
    rw [hcall] at hslot
    have hrelease := release_eq (s := { s with frames := [] }) hattached hrequests
    have hsteps : s.algorithmReturns = .ok (({ s with
        frames := []
        attached := false
        releases := s.releases + 1 }.setStage a .cancelling).finish a) := by
      simp only [Iter.algorithmReturns, hframes, hcall]
      rw [hrelease]
      rfl
    refine ⟨_, hsteps, ?_⟩
    rw [finish_eq]
    refine Local.inv (s := s) (a := a) ⟨rfl, fun m hm => ?_, ?_, .inl rfl, hchain.chunks,
      fun hreadable => absurd hreadable hsource, id⟩ hchain hpast (fun hle => by omega) ?_ ?_
    · simp [Iter.setStage, Iter.setCall, hm]
    · simpa [Iter.setStage, Iter.setCall, hcall] using hslot
    · -- A `return` after a call that has ended does not get here.
      rintro ⟨m, hm, hended⟩
      have hnot := (hpast.late m a hm le_rfl hended).2.1.1
      rw [hcall] at hnot
      exact absurd rfl hnot
    · refine .cancelling ha on (by simp [Iter.setStage, Iter.setCall, hcall])
        ⟨rfl, hrequests, ?_, ?_⟩ hfinished untaken
      · exact (congrArg not hfinished).symm
      · change s.releases + 1 = if s.isFinished = true then 1 else 0
        rw [hreleases, if_pos hfinished]

/-- Where no request waits, none of the fields that `Live` looks at depends on the queue. -/
private theorem Inv.of_stream (hchain : Chain s a) (hpast : Past s a) (hlive : Live s a)
    {source : Source} {queue enqueued : List Chunk} (closeRequested : Bool)
    (hsource : source = s.source ∨ source ≠ .readable ∧ s.readRequests = [])
    (hchunks : s.taken.map Prod.snd <+: enqueued)
    (hqueue : source = .readable →
      s.taken.map Prod.snd ++ queue = enqueued ∧ (s.readRequests = [] ∨ queue = [])) :
    Inv { s with
      source := source
      queue := queue
      closeRequested := closeRequested
      enqueued := enqueued } := by
  refine ⟨a, { hchain with chunks := hchunks, queue := hqueue }, ?_, ?_⟩
  · exact hpast.mono (fun _ _ => rfl) (fun _ _ _ => Iff.rfl) id fun ⟨m, hm, hended⟩ =>
      hpast.late m a hm le_rfl hended
  · rcases Nat.lt_or_eq_of_le hchain.le with hlt | heq
    · exact hlive.congr hlt le_rfl rfl rfl rfl rfl rfl rfl rfl hsource fun _ => id
    · cases hlive with
      | idle h hq hu => exact .idle h ⟨hq.frames, hq.readRequests, hq.attached, hq.releases⟩ hu
      | waiting h | reading h | holding h | returning h | cancelling h | adopting h
      | returned h => omega

/-- **A request waits** only where the first open call has read. -/
theorem Live.requests (h : Live s a) :
    s.readRequests = [] ∨ ∃ on, s.call a = ⟨.next, on, .reading .pending, false, true⟩ ∧
      a < s.calls ∧ (s.frames = [] ∨ s.frames = [⟨a, none⟩] ∧ Direct s a on) ∧
      s.readRequests = [a] ∧ Open s ∧ Untaken s a := by
  cases h with
  | idle _ hq | waiting _ _ _ _ hq | cancelling _ _ _ hq | adopting _ _ _ _ _ _ hq
  | returned _ _ _ _ _ hq => exact .inl hq.readRequests
  | holding _ _ _ _ _ _ _ hr | returning _ _ _ _ _ _ _ _ hr => exact .inl hr
  | reading ha on p hcall hframes answer =>
    cases p with
    | pending => exact .inr ⟨on, hcall, ha, hframes, answer.1, answer.2.2.1, answer.2.2.2⟩
    | locked => exact .inl answer.1
    | settled outcome =>
      cases outcome with
      | chunk v => exact .inl answer.1
      | endOfIteration | rejected => exact .inl answer.1

/-- **The stream is given a chunk.** -/
theorem Inv.enqueue (h : Inv s) (c : Chunk) : Inv (s.enqueue c) := by
  obtain ⟨a, hchain, hpast, hlive⟩ := h
  rw [Iter.enqueue]
  split_ifs with hif
  · have hqueue := hchain.queue hif.1
    rcases hlive.requests with hnil | ⟨on, hcall, ha, hframes, hrequests, hopen, huntaken⟩
    · simp only [hnil]
      rw [← hnil]
      refine Inv.of_stream hchain hpast hlive s.closeRequested (.inl rfl) ?_
        fun _ => ⟨?_, .inl hnil⟩
      · exact hchain.chunks.trans (List.prefix_append _ _)
      · rw [← hqueue.1, List.append_assoc]
    · have hempty : s.queue = [] := hqueue.2.resolve_left (by simp [hrequests])
      have htaken : s.taken.map Prod.snd = s.enqueued := by
        rw [← hqueue.1, hempty, List.append_nil]
      have hmap : (s.taken ++ [(a, c)]).map Prod.snd = s.enqueued ++ [c] := by
        rw [List.map_append, htaken]
        rfl
      simp only [hrequests]
      rw [chunkSteps_eq]
      refine Local.inv (s := s) (a := a) ⟨rfl, fun m hm => ?_, hchain.slot, .inr ⟨c, rfl, huntaken⟩,
        ?_, fun _ => ⟨?_, .inl rfl⟩, id⟩ hchain hpast (fun hle => by omega)
        (fun hended => absurd hended (hpast.not_ended hopen.isFinished)) ?_
      · simp [Iter.setCall, hm]
      · exact hmap ▸ List.prefix_refl _
      · simp only [Iter.setCall]
        rw [hmap, hempty, List.append_nil]
      · refine .reading ha on c.promise (by simp [Iter.setCall, hcall]) hframes ?_
        exact answer_promise rfl ⟨hopen.attached, hopen.isFinished, hopen.releases⟩
          (List.mem_append_right _ (List.mem_singleton_self _))
  · exact ⟨a, hchain, hpast, hlive⟩

/-- **The stream closes or errors**: the request that waits is answered, and releases the reader. -/
private theorem Inv.of_ends (hchain : Chain s a) (hpast : Past s a) (hlive : Live s a)
    (source : Source) (hsource : source ≠ .readable) (queue : List Chunk) (closeRequested : Bool)
    (outcome : NextOutcome) (houtcome : ∀ v, outcome ≠ .chunk v) {answer : Iter → ℕ → Steps}
    (hanswer : ∀ u : Iter, u.attached = true → u.readRequests = [] → ∀ n, answer u n = .ok
      { u.setCall n { u.call n with stage := .reading (.settled outcome) } with
        attached := false
        releases := u.releases + 1 }) :
    ∃ t, Iter.answerAll answer s.readRequests { s with
      source := source
      queue := queue
      closeRequested := closeRequested
      readRequests := [] } = .ok t ∧ Inv t := by
  rcases hlive.requests with hnil | ⟨on, hcall, ha, hframes, hrequests, hopen, huntaken⟩
  · rw [hnil]
    refine ⟨_, rfl, ?_⟩
    rw [← hnil]
    exact Inv.of_stream hchain hpast hlive closeRequested (.inr ⟨hsource, hnil⟩) hchain.chunks
      fun h => absurd h hsource
  · have hsteps := hanswer { s with
      source := source
      queue := queue
      closeRequested := closeRequested
      readRequests := [] } hopen.attached rfl a
    rw [hrequests, Iter.answerAll, hsteps]
    refine ⟨_, rfl, ?_⟩
    refine Local.inv (s := s) (a := a) ⟨rfl, fun m hm => ?_, hchain.slot, .inl rfl, hchain.chunks,
      fun h => absurd h hsource, id⟩ hchain hpast (fun hle => by omega)
      (fun hended => absurd hended (hpast.not_ended hopen.isFinished)) ?_
    · simp [Iter.setCall, hm]
    · refine .reading ha on (.settled outcome) (by simp [Iter.setCall, hcall]) hframes ?_
      have hreleases : s.releases + 1 = 1 := by rw [hopen.releases]
      cases outcome with
      | chunk v => exact absurd rfl (houtcome v)
      | endOfIteration | rejected => exact ⟨rfl, rfl, hopen.isFinished, hreleases, huntaken⟩

/-- **The stream is to close.** -/
theorem Inv.close (h : Inv s) : ∃ t, s.close = .ok t ∧ Inv t := by
  obtain ⟨a, hchain, hpast, hlive⟩ := h
  rw [Iter.close]
  by_cases hif : s.source = .readable ∧ s.closeRequested = false
  · rw [if_pos hif]
    simp only
    by_cases hempty : s.queue.isEmpty = true
    · rw [if_pos hempty]
      exact Inv.of_ends hchain hpast hlive .closed (fun h => Source.noConfusion h) s.queue true
        .endOfIteration (fun v h => NextOutcome.noConfusion h)
        fun u hattached hrequests n => closeSteps_eq hattached hrequests n
    · rw [if_neg hempty]
      exact ⟨_, rfl, Inv.of_stream hchain hpast hlive true (.inl rfl) hchain.chunks hchain.queue⟩
  · rw [if_neg hif]
    exact ⟨s, rfl, a, hchain, hpast, hlive⟩

/-- **The stream errors.** -/
theorem Inv.error (h : Inv s) (e : JsError) : ∃ t, s.error e = .ok t ∧ Inv t := by
  obtain ⟨a, hchain, hpast, hlive⟩ := h
  rw [Iter.error]
  by_cases hif : s.source = .readable
  · rw [if_pos hif]
    exact Inv.of_ends hchain hpast hlive (.errored e) (fun h => Source.noConfusion h) []
      s.closeRequested (.rejected e) (fun v h => NextOutcome.noConfusion h)
      fun u hattached hrequests n => errorSteps_eq hattached hrequests n e
  · rw [if_neg hif]
    exact ⟨s, rfl, a, hchain, hpast, hlive⟩

/-- **A thenable fulfills a promise.** -/
theorem Inv.thenableSettles (h : Inv s) (n : ℕ) (outcome : Except JsError ℕ)
    (horderly : Orderly s (.thenableSettles n outcome)) : Inv (s.thenableSettles n outcome) := by
  obtain ⟨a, hchain, hpast, hlive⟩ := h
  unfold Iter.thenableSettles
  split_ifs with hlocked
  · obtain ⟨v, rfl⟩ := horderly hlocked
    obtain rfl := hchain.eq_of_stage hpast (n := n) (by rw [hlocked]; exact Stage.noConfusion)
      (by rw [hlocked]; exact fun _ => Stage.noConfusion)
    cases hlive with
    | reading ha on p hcall hframes answer =>
      rw [hcall] at hlocked
      cases hlocked
      obtain ⟨hrequests, hopen, c, hc⟩ := answer
      refine Local.inv (s := s) (a := n) ⟨rfl, fun m hm => setCall_call_of_ne hm s _, hchain.slot,
        .inl rfl, hchain.chunks, hchain.queue, id⟩ hchain hpast (fun hle => by omega)
        (fun hended => absurd hended (hpast.not_ended hopen.isFinished)) ?_
      refine .reading ha on (.settled (.chunk v)) ?_ hframes
        ⟨hrequests, ⟨hopen.attached, hopen.isFinished, hopen.releases⟩, .thenable c, hc, trivial⟩
      simp [Iter.setStage, Iter.setCall, hcall]
    | idle h => rw [hchain.fresh n h.ge] at hlocked; cases hlocked
    | waiting _ _ _ hcall | holding _ _ _ hcall | returning _ _ hcall | cancelling _ _ hcall
    | adopting _ _ _ _ _ hcall | returned _ _ _ _ hcall => rw [hcall] at hlocked; cases hlocked
  · exact ⟨a, hchain, hpast, hlive⟩

/-- **What the cancel algorithm returned settles.** -/
theorem Inv.cancelSettles (h : Inv s) (n : ℕ) (outcome : Except JsError Unit) :
    Inv (s.cancelSettles n outcome) := by
  obtain ⟨a, hchain, hpast, hlive⟩ := h
  unfold Iter.cancelSettles
  split_ifs with hstage
  · obtain rfl := hchain.eq_of_stage hpast (n := n) (by rw [hstage]; exact Stage.noConfusion)
      (by rw [hstage]; exact fun _ => Stage.noConfusion)
    cases hlive with
    | cancelling ha on hcall hq hfinished huntaken =>
      have hinv {r : CallResult} (hr : ∀ v, r ≠ .value v) : Inv (s.resolve n r) :=
        inv_of_resolve hchain hpast ha hq hcall ⟨.inr ⟨hr, huntaken⟩, fun _ => hfinished,
          fun _ => hr⟩ (fun _ => ⟨rfl, fun h => Kind.noConfusion h⟩) hchain.slot
      cases outcome with
      | ok => exact hinv fun v h => CallResult.noConfusion h
      | error e => exact hinv fun v h => CallResult.noConfusion h
    | idle h => rw [hchain.fresh n h.ge] at hstage; cases hstage
    | waiting _ _ _ hcall | reading _ _ _ hcall | holding _ _ _ hcall | returning _ _ hcall
    | adopting _ _ _ _ _ hcall | returned _ _ _ _ hcall => rw [hcall] at hstage; cases hstage
  · exact ⟨a, hchain, hpast, hlive⟩

/-- **`next_fulfilled` and `next_rejected`.** -/
theorem Inv.react (h : Inv s) (hframes : s.frames = []) (n : ℕ) : Inv (s.react n) := by
  obtain ⟨a, hchain, hpast, hlive⟩ := h
  -- a reaction is due only to a read that was answered, and that is the call that runs
  by_cases hstage : ∃ outcome, (s.call n).stage = .reading (.settled outcome)
  · obtain ⟨outcome, hstage⟩ := hstage
    obtain rfl := hchain.eq_of_stage hpast (n := n) (by rw [hstage]; exact Stage.noConfusion)
      (by rw [hstage]; exact fun _ => Stage.noConfusion)
    cases hlive with
    | reading ha on p hcall _ answer =>
      rw [hcall] at hstage
      cases hstage
      have hslot (m : ℕ) (hm : (none : Option ℕ) = some m) : m + 1 = s.calls := by cases hm
      -- the end and an error finish the iterator, which had given back its reader
      have hends {r : CallResult} (hr : ∀ v, r ≠ .value v) (hrequests : s.readRequests = [])
          (hattached : s.attached = false) (hfin : s.isFinished = false) (hrel : s.releases = 1)
          (huntaken : Untaken s n) :
          Inv { ({ s with isFinished := true } : Iter).resolve n r with
            ongoingPromise := none } := by
        have hlate := hpast.not_ended hfin
        exact inv_of_resolve (s := { s with isFinished := true }) (a := n)
          (hchain.congr rfl (fun _ _ => rfl) (fun _ => rfl) hchain.slot rfl rfl
            fun h => ⟨h, rfl, rfl⟩)
          (hpast.mono (fun _ _ => rfl) (fun _ _ _ => Iff.rfl) (fun _ => rfl)
            fun hended => absurd hended hlate)
          ha ⟨hframes, hrequests, hattached, by simp [hrel]⟩ hcall
          ⟨.inr ⟨hr, huntaken⟩, fun _ => rfl, fun _ => hr⟩ (fun hended => absurd hended hlate) hslot
      cases outcome with
      | chunk v =>
        obtain ⟨hrequests, hopen, c, hc, hv⟩ := answer
        have hstep : s.react n = { s.resolve n (.value v) with ongoingPromise := none } := by
          simp only [Iter.react, hcall]
          rfl
        rw [hstep]
        exact inv_of_resolve hchain hpast ha
          ⟨hframes, hrequests, by rw [hopen.attached, hopen.isFinished]; rfl,
            by rw [hopen.releases, hopen.isFinished]; rfl⟩ hcall
          ⟨.inl ⟨v, c, rfl, hc, hv⟩, fun h => absurd rfl (h v), fun h => Kind.noConfusion h⟩
          (fun hended => absurd hended (hpast.not_ended hopen.isFinished)) hslot
      | endOfIteration =>
        obtain ⟨hrequests, hattached, hfin, hrel, huntaken⟩ := answer
        have hstep : s.react n = { ({ s with isFinished := true } : Iter).resolve n .done with
            ongoingPromise := none } := by
          simp only [Iter.react, hcall]
          rfl
        rw [hstep]
        exact hends (fun v h => CallResult.noConfusion h) hrequests hattached hfin hrel huntaken
      | rejected e =>
        obtain ⟨hrequests, hattached, hfin, hrel, huntaken⟩ := answer
        have hstep : s.react n = { ({ s with isFinished := true } : Iter).resolve n (.error e) with
            ongoingPromise := none } := by
          simp only [Iter.react, hcall]
          rfl
        rw [hstep]
        exact hends (fun v h => CallResult.noConfusion h) hrequests hattached hfin hrel huntaken
    | idle h => rw [hchain.fresh n h.ge] at hstage; cases hstage
    | waiting _ _ _ hcall | holding _ _ _ hcall | returning _ _ hcall | cancelling _ _ hcall
    | adopting _ _ _ _ _ hcall | returned _ _ _ _ hcall => rw [hcall] at hstage; cases hstage
  · have hstep : s.react n = s := by
      rw [Iter.react.eq_def]
      split
      · next outcome heq => exact absurd ⟨outcome, heq⟩ hstage
      · rfl
    rw [hstep]
    exact ⟨a, hchain, hpast, hlive⟩

/-- **A promise follows the one of the steps.** -/
theorem Inv.adopt (h : Inv s) (n : ℕ) : Inv (s.adopt n) := by
  obtain ⟨a, hchain, hpast, hlive⟩ := h
  by_cases hstage : ∃ r, (s.call n).stage = .adopting r
  · obtain ⟨r, hstage⟩ := hstage
    obtain rfl := hchain.eq_of_stage hpast (n := n) (by rw [hstage]; exact Stage.noConfusion)
      (by rw [hstage]; exact fun _ => Stage.noConfusion)
    cases hlive with
    | adopting ha kind on r' reads hcall hq closing =>
      have hstep : s.adopt n = s.setCall n ⟨kind, on, .done r', false, reads⟩ := by
        simp only [Iter.adopt, hcall, Iter.setStage]
      have hself : (s.setCall n ⟨kind, on, .done r', false, reads⟩).call n =
          ⟨kind, on, .done r', false, reads⟩ := setCall_call_self _ _ _
      have hchain' := hchain.setCall ha ⟨kind, on, .done r', false, reads⟩ hchain.slot
      have hpast' : Past (s.setCall n ⟨kind, on, .done r', false, reads⟩) n := by
        refine hpast.setCall (x := s.ongoingPromise) _ fun ⟨m, hm, hended⟩ => ?_
        obtain ⟨hreads, -, hresult⟩ := hpast.late m n hm le_rfl hended
        rw [hcall] at hreads hresult
        exact ⟨hreads, ⟨Stage.noConfusion, Stage.noConfusion⟩, hresult⟩
      rw [hstep]
      cases kind with
      | next =>
        exact inv_of_settled hchain' hpast' ha ⟨hq.frames, hq.readRequests, hq.attached,
          hq.releases⟩ hself (by rw [hself]; rfl) ⟨closing.sound, closing.ended, closing.returned⟩
      | return_ =>
        exact ⟨n, hchain', hpast', .returned ha on r' reads hself ⟨hq.frames, hq.readRequests,
          hq.attached, hq.releases⟩ ⟨closing.sound, closing.ended, closing.returned⟩⟩
    | idle h => rw [hchain.fresh n h.ge] at hstage; cases hstage
    | waiting _ _ _ hcall | reading _ _ _ hcall | holding _ _ _ hcall | returning _ _ hcall
    | cancelling _ _ hcall | returned _ _ _ _ hcall => rw [hcall] at hstage; cases hstage
  · have hstep : s.adopt n = s := by
      rw [Iter.adopt.eq_def]
      split
      · next r heq => exact absurd ⟨r, heq⟩ hstage
      · rfl
    rw [hstep]
    exact ⟨a, hchain, hpast, hlive⟩

/-- **The promise that `return` returned is settled.** -/
theorem Inv.returnSettles (h : Inv s) (n : ℕ) : Inv (s.returnSettles n) := by
  obtain ⟨a, hchain, hpast, hlive⟩ := h
  by_cases hdone : (s.call n).kind = .return_ ∧ ∃ r, (s.call n).stage = .done r
  · obtain ⟨hkind, r, hr⟩ := hdone
    have hstep : s.returnSettles n = s.setCall n { s.call n with returned := true } := by
      simp only [Iter.returnSettles, hkind, hr]
    rw [hstep]
    rcases Nat.lt_trichotomy n a with hlt | rfl | hgt
    · obtain ⟨r', -, hreturned⟩ := Call.exists_of_settled (hpast.settled n hlt)
      have heq : ({ s.call n with returned := true } : Call) = s.call n := by
        rw [← hreturned hkind]
      have hsame : s.setCall n (s.call n) = s := by
        rw [Iter.setCall, Function.update_eq_self]
      rw [heq, hsame]
      exact ⟨a, hchain, hpast, hlive⟩
    · cases hlive with
      | returned ha on r' reads hcall hq closing =>
        rw [hcall]
        have hself : (s.setCall n ⟨.return_, on, .done r', true, reads⟩).call n =
            ⟨.return_, on, .done r', true, reads⟩ := setCall_call_self _ _ _
        have hpast' : Past (s.setCall n ⟨.return_, on, .done r', true, reads⟩) n := by
          refine hpast.setCall (x := s.ongoingPromise) _ fun ⟨m, hm, hended⟩ => ?_
          have hlate := hpast.late m n hm le_rfl hended
          rw [hcall] at hlate
          exact hlate
        exact inv_of_settled (hchain.setCall ha _ hchain.slot) hpast' ha
          ⟨hq.frames, hq.readRequests, hq.attached, hq.releases⟩ hself (by rw [hself]; rfl)
          ⟨closing.sound, closing.ended, closing.returned⟩
      | idle h => rw [hchain.fresh n h.ge] at hr; cases hr
      | waiting _ _ _ hcall | reading _ _ _ hcall | holding _ _ _ hcall | returning _ _ hcall
      | cancelling _ _ hcall | adopting _ _ _ _ _ hcall => rw [hcall] at hr; cases hr
    · rw [(hchain.stage_of_lt hgt).1] at hr
      cases hr
  · have hstep : s.returnSettles n = s := by
      rw [Iter.returnSettles.eq_def]
      split
      · next r hk hs => exact absurd ⟨hk, r, hs⟩ hdone
      · rfl
    rw [hstep]
    exact ⟨a, hchain, hpast, hlive⟩

/-- **The reactions to the promise that a call was chained on.** -/
theorem Inv.runAfter (h : Inv s) (n : ℕ) (refusal : Option JsError) :
    ∃ t, s.runAfter n refusal = .ok t ∧ Inv t := by
  obtain ⟨a, hchain, hpast, hlive⟩ := h
  by_cases hready : (s.call n).stage = .waiting ∧
      ∃ m, (s.call n).chainedOn = some m ∧ (s.call m).settled = true
  · obtain ⟨hwaiting, m, hon, hsettled⟩ := hready
    have hsteps : s.runAfter n refusal = s.runSteps n refusal := by
      simp only [Iter.runAfter, hwaiting, hon]
      rw [if_pos hsettled]
    rw [hsteps]
    have hlt : n < s.calls := by
      by_contra hge
      rw [hchain.fresh n (by omega)] at hon
      cases hon
    rcases Nat.lt_trichotomy n a with hn | rfl | hn
    · obtain ⟨r, hr, -⟩ := Call.exists_of_settled (hpast.settled n hn)
      rw [hwaiting] at hr
      cases hr
    · cases hlive with
      | waiting ha kind hpos hcall hq huntaken =>
        exact inv_runSteps hchain hpast ha hq huntaken hcall (fun hnone => by cases hnone) refusal
      | idle h => omega
      | reading _ _ _ hcall | holding _ _ _ hcall | returning _ _ hcall | cancelling _ _ hcall
      | adopting _ _ _ _ _ hcall | returned _ _ _ _ hcall => rw [hcall] at hwaiting; cases hwaiting
    · -- The call before it is the first open one, or waits itself.
      obtain ⟨kind, hcall⟩ := hchain.later n hn hlt
      rw [hcall] at hon
      cases hon
      rcases Nat.lt_or_eq_of_le (Nat.le_sub_one_of_lt hn) with hgt | heq
      · obtain ⟨r, hr, -⟩ := Call.exists_of_settled hsettled
        rw [(hchain.stage_of_lt hgt).1] at hr
        cases hr
      · rw [← heq, hlive.settled_eq_false (by omega)] at hsettled
        cases hsettled
  · have hsteps : s.runAfter n refusal = .ok s := by
      rw [Iter.runAfter.eq_def]
      split
      · next m hw hon => rw [if_neg fun hsettled => hready ⟨hw, m, hon, hsettled⟩]
      · rfl
    exact ⟨s, hsteps, a, hchain, hpast, hlive⟩

theorem Inv.job (h : Inv s) (f : Iter → Steps)
    (hf : s.frames = [] → ∃ t, f s = .ok t ∧ Inv t) : ∃ t, s.job f = .ok t ∧ Inv t := by
  rw [Iter.job]
  split_ifs with hempty
  · exact hf (List.isEmpty_iff.mp hempty)
  · exact ⟨s, rfl, h⟩

/-- **The step lemma**: an orderly event panics nowhere, and keeps the invariant. -/
theorem Inv.step (h : Inv s) {e : IterEvent} (horderly : Orderly s e) :
    ∃ t, s.step e = .ok t ∧ Inv t := by
  cases e with
  | call kind refusal => exact h.makeCall kind refusal horderly
  | returns => exact h.algorithmReturns
  | enqueues c => exact ⟨_, rfl, h.enqueue c⟩
  | closes => exact h.close
  | errors e => exact h.error e
  | thenableSettles n outcome => exact ⟨_, rfl, h.thenableSettles n outcome horderly⟩
  | cancelSettles n outcome => exact ⟨_, rfl, h.cancelSettles n outcome⟩
  | reacts n => exact h.job (fun s => .ok (s.react n)) fun hframes => ⟨_, rfl, h.react hframes n⟩
  | adopts n => exact h.job (fun s => .ok (s.adopt n)) fun _ => ⟨_, rfl, h.adopt n⟩
  | returned n =>
    exact h.job (fun s => .ok (s.returnSettles n)) fun _ => ⟨_, rfl, h.returnSettles n⟩
  | after n refusal => exact h.job (fun s => s.runAfter n refusal) fun _ => h.runAfter n refusal

theorem inv_new (source : Source) (queue : List Chunk) (closeRequested preventCancel : Bool) :
    Inv (.new source queue closeRequested preventCancel) := by
  refine ⟨0, ⟨le_rfl, fun m _ hm => absurd hm (Nat.not_lt_zero m), fun _ _ => rfl, fun n hn => ?_,
    fun x hx => absurd hx List.not_mem_nil, List.Pairwise.nil, List.nil_prefix,
    fun _ => ⟨rfl, .inl rfl⟩⟩, ⟨?_, ?_, ?_, ?_⟩, .idle rfl ⟨rfl, rfl, rfl, rfl⟩ fun c => ?_⟩
  · cases hn
  · exact fun m hm => absurd hm (Nat.not_lt_zero m)
  · exact fun m hm => absurd hm (Nat.not_lt_zero m)
  · exact fun m hm => absurd hm (Nat.not_lt_zero m)
  · exact fun m n hmn hn => absurd hmn (by omega)
  · exact List.not_mem_nil

/-! ### The calls are serialized -/

/-- The reader is released at most once, and was when the first open call has ended. -/
theorem Live.released (h : Live s a) : s.releases ≤ 1 ∧
    (s.frames = [] → s.isFinished = true ∨ a < s.calls ∧ (s.call a).Ended → s.releases = 1) := by
  have hquiet (hq : Quiet s) : s.releases ≤ 1 ∧ (s.isFinished = true → s.releases = 1) := by
    rw [hq.releases]
    cases s.isFinished with
    | true => exact ⟨le_rfl, fun _ => rfl⟩
    | false => exact ⟨Nat.zero_le 1, fun h => Bool.noConfusion h⟩
  -- A call that has not settled has ended only if it is a `return` whose steps have begun.
  have hopen {c : Call} (hresult : c.result = none) (hkind : c.kind = .next ∨ c.stage = .waiting) :
      ¬ c.Ended := by
    rintro (⟨hreturn, hstage⟩ | ⟨r, hr, -⟩)
    · rcases hkind with hnext | hwaiting
      · rw [hnext] at hreturn
        cases hreturn
      · exact hstage hwaiting
    · rw [hresult] at hr
      cases hr
  cases h with
  | idle h hq =>
    exact ⟨(hquiet hq).1, fun _ hended => (hquiet hq).2 (hended.resolve_right fun h' => by omega)⟩
  | waiting _ kind _ hcall hq =>
    refine ⟨(hquiet hq).1, fun _ hended => (hquiet hq).2 (hended.resolve_right fun h' => ?_)⟩
    rw [hcall] at h'
    exact hopen rfl (.inr rfl) h'.2
  | reading _ on p hcall _ answer =>
    have hnot : ¬ (s.call a).Ended := by
      rw [hcall]
      exact hopen rfl (.inl rfl)
    have hfinished : s.releases ≤ 1 ∧ s.isFinished = false := by
      have ho (ho : Open s) : s.releases ≤ 1 ∧ s.isFinished = false :=
        ⟨by rw [ho.releases]; exact Nat.zero_le 1, ho.isFinished⟩
      cases p with
      | pending => exact ho answer.2.2.1
      | locked => exact ho answer.2.1
      | settled outcome =>
        cases outcome with
        | chunk v => exact ho answer.2.1
        | endOfIteration | rejected => exact ⟨answer.2.2.2.1.le, answer.2.2.1⟩
    refine ⟨hfinished.1, fun _ hended => ?_⟩
    rcases hended with hf | ⟨-, hended⟩
    · rw [hfinished.2] at hf
      cases hf
    · exact absurd hended hnot
  | holding _ _ _ _ hframes _ isOpen =>
    refine ⟨by rw [isOpen.releases]; exact Nat.zero_le 1, fun hnil => ?_⟩
    rw [hframes] at hnil
    cases hnil
  | returning _ _ _ hframes _ _ _ hreleases =>
    refine ⟨by rw [hreleases]; exact Nat.zero_le 1, fun hnil => ?_⟩
    rw [hframes] at hnil
    cases hnil
  | cancelling _ _ _ hq hfinished => exact ⟨(hquiet hq).1, fun _ _ => (hquiet hq).2 hfinished⟩
  | adopting _ kind _ r _ hcall hq closing =>
    refine ⟨(hquiet hq).1, fun _ hended => (hquiet hq).2 (hended.elim id fun h' => ?_)⟩
    rw [hcall] at h'
    rcases h'.2 with ⟨hkind, -⟩ | ⟨r', hr', hv⟩
    · exact closing.ended (closing.returned hkind)
    · cases hr'
      exact closing.ended hv
  | returned _ _ r _ _ hq closing =>
    exact ⟨(hquiet hq).1, fun _ _ => (hquiet hq).2 (closing.ended (closing.returned rfl))⟩

/-- What the first open call resolves with is the chunk that it took. -/
theorem Live.sound (h : Live s a) {r : CallResult} (hr : (s.call a).result = some r)
    (ha : a < s.calls) : Sound s a r := by
  cases h with
  | idle h => omega
  | adopting _ _ _ _ _ hcall _ closing | returned _ _ _ _ hcall _ closing =>
    rw [hcall] at hr
    cases hr
    exact closing.sound
  | waiting _ _ _ hcall | reading _ _ _ hcall | holding _ _ _ hcall | returning _ _ hcall
  | cancelling _ _ hcall => rw [hcall] at hr; cases hr

theorem job_of_nil (hframes : s.frames = []) (f : Iter → Steps) : s.job f = f s := by
  rw [Iter.job, hframes]
  rfl

/-- **Where no job is left**, the first open call waits for the stream or the author. -/
theorem Live.outside (hlive : Live s a) (hpast : Past s a) (hrest : Rest s) (ha : a < s.calls) :
    s.Outside a := by
  cases hlive with
  | idle h => omega
  | waiting _ kind hpos hcall =>
    -- The call before it is settled, so its own steps would run.
    have hafter : s.job (fun s => s.runAfter a none) = .ok s := hrest.after a none
    rw [job_of_nil hrest.frames] at hafter
    simp only [Iter.runAfter, hcall] at hafter
    rw [if_pos (hpast.settled (a - 1) (by omega))] at hafter
    have hbegun := runSteps_begun hafter
    rw [hcall] at hbegun
    exact absurd rfl hbegun
  | reading _ on p hcall _ answer =>
    cases p with
    | pending => exact .inl ⟨by rw [hcall], answer.1, answer.2.1⟩
    | locked => exact .inr (.inl (by rw [hcall]))
    | settled outcome =>
      have hreact : s.job (fun s => .ok (s.react a)) = .ok s := hrest.reacts a
      rw [job_of_nil hrest.frames] at hreact
      have hstage (r : CallResult) (u : Iter) (hu : u.resolve a r = s) : False := by
        have hresolved := congrArg (fun s : Iter => (s.call a).stage) hu
        simp only [Iter.resolve, Iter.setStage, setCall_call_self, hcall] at hresolved
        split_ifs at hresolved
      simp only [Iter.react, hcall] at hreact
      cases outcome with
      | chunk | endOfIteration | rejected => exact (hstage _ _ (Outcome.ok.inj hreact)).elim
  | holding _ _ _ _ hframes => exact absurd (hframes.symm.trans hrest.frames) (List.cons_ne_nil _ _)
  | returning _ _ _ hframes => exact absurd (hframes.symm.trans hrest.frames) (List.cons_ne_nil _ _)
  | cancelling _ _ hcall => exact .inr (.inr (by rw [hcall]))
  | adopting _ kind on r reads hcall =>
    have hadopt : s.job (fun s => .ok (s.adopt a)) = .ok s := hrest.adopts a
    rw [job_of_nil hrest.frames] at hadopt
    have hstage := congrArg (fun s : Iter => (s.call a).stage) (Outcome.ok.inj hadopt)
    simp only [Iter.adopt, hcall, Iter.setStage, setCall_call_self] at hstage
    cases hstage
  | returned _ on r reads hcall =>
    have hreturn : s.job (fun s => .ok (s.returnSettles a)) = .ok s := hrest.returned a
    rw [job_of_nil hrest.frames] at hreturn
    have hreturned := congrArg (fun s : Iter => (s.call a).returned) (Outcome.ok.inj hreturn)
    simp only [Iter.returnSettles, hcall, setCall_call_self] at hreturned
    cases hreturned

/-- The first open call does not wait for anything after a call that has ended. -/
theorem Live.not_outside (hlive : Live s a) (hpast : Past s a) (ha : a < s.calls) {m : ℕ}
    (hm : m < a) (hended : (s.call m).Ended) : ¬ s.Outside a := by
  have hfinished := hpast.ended m hm hended
  have hlate := hpast.late m a hm le_rfl hended
  rintro (⟨hstage, hrequests, -⟩ | hstage | hstage)
  · rcases hlive.requests with hnil | ⟨_, _, _, _, _, hopen, _⟩
    · rw [hrequests] at hnil
      cases hnil
    · rw [hopen.isFinished] at hfinished
      cases hfinished
  · cases hlive with
    | reading _ _ p hcall _ answer =>
      rw [hcall] at hstage
      cases hstage
      rw [answer.2.1.isFinished] at hfinished
      cases hfinished
    | idle h => omega
    | waiting _ _ _ hcall | holding _ _ _ hcall | returning _ _ hcall | cancelling _ _ hcall
    | adopting _ _ _ _ _ hcall | returned _ _ _ _ hcall => rw [hcall] at hstage; cases hstage
  · exact hlate.2.1.2 hstage

/-- What a settled call that comes after one that has ended resolves with. -/
theorem Call.Late.result_of_settled {c : Call} (h : c.Late) (hsettled : c.settled = true)
    (hkind : c.kind = .next) : c.result = some .done := by
  obtain ⟨r, hr, -⟩ := Call.exists_of_settled hsettled
  have hresult : c.result = some r := by rw [Call.result, hr]
  rw [hresult, h.2.2 r hkind hresult]

theorem Inv.serial (h : Inv s) : Serial s := by
  have hsafe (e : IterEvent) (he : Orderly s e) (p : Site) : s.step e ≠ .panic p := by
    obtain ⟨t, ht, -⟩ := h.step he
    rw [ht]
    intro hpanic
    cases hpanic
  obtain ⟨a, hchain, hpast, hlive⟩ := h
  -- A call after the first open one waits, so it has neither begun nor ended.
  have hwaits {n : ℕ} (hn : a < n) : (s.call n).result = none := by
    rw [Call.result, (hchain.stage_of_lt hn).1]
  refine ⟨fun m n hmn hn hstage => ?_, ⟨hchain.order, hchain.chunks⟩, fun n hn r hr => ?_,
    fun m n hmn hn hended => ?_, fun hrest n hn => ?_, fun hrest m n hmn hn hended hsettled => ?_,
    ⟨hlive.released.1, fun m hm hended hframes => ?_⟩, hsafe⟩
  · by_cases hle : n ≤ a
    · exact hpast.settled m (by omega)
    · exact absurd (hchain.stage_of_lt (by omega)).1 hstage
  · rcases Nat.lt_trichotomy n a with hlt | rfl | hgt
    · exact hpast.sound n hlt r hr
    · exact hlive.sound hr hn
    · rw [hwaits hgt] at hr
      cases hr
  · by_cases hle : n ≤ a
    · exact hpast.late m n hmn hle hended
    · exact hchain.late_of_lt (by omega)
  · by_cases hlt : n < a
    · exact .inl (hpast.settled n hlt)
    · exact .inr ⟨a, by omega, hlive.outside hpast hrest (by omega)⟩
  · by_cases hlt : n < a
    · exact ⟨hpast.settled n hlt,
        (hpast.late m n hmn hlt.le hended).result_of_settled (hpast.settled n hlt)⟩
    · -- The first open call would wait for the stream or the author.
      have hm : m < a := by
        by_contra hle
        rcases Nat.lt_or_eq_of_le (Nat.le_of_not_lt hle) with hgt | rfl
        · obtain ⟨r, hr, -⟩ := Call.exists_of_settled hsettled
          rw [(hchain.stage_of_lt hgt).1] at hr
          cases hr
        · rw [hlive.settled_eq_false (by omega)] at hsettled
          cases hsettled
      exact absurd (hlive.outside hpast hrest (by omega))
        (hlive.not_outside hpast (by omega) hm hended)
  · refine hlive.released.2 hframes ?_
    rcases Nat.lt_trichotomy m a with hlt | rfl | hgt
    · exact .inl (hpast.ended m hlt hended)
    · exact .inr ⟨hm, hended⟩
    · rcases hended with ⟨-, hstage⟩ | ⟨r, hr, -⟩
      · exact absurd (hchain.stage_of_lt hgt).1 hstage
      · rw [hwaits hgt] at hr
        cases hr

/-- The run lemma. -/
theorem inv_of_run {source : Source} {queue : List Chunk} {closeRequested preventCancel : Bool}
    (hrun : machine.RunWhere Orderly (.new source queue closeRequested preventCancel) s) : Inv s :=
  hrun.inv (inv_new source queue closeRequested preventCancel) fun s e t hs hok ht => by
    obtain ⟨u, hu, hinv⟩ := hs.step hok
    change (s.step e).state? = some t at ht
    rw [hu] at ht
    cases ht
    exact hinv

/-- **The calls of the iterator are serialized**, in every run in which each call is made while
`ongoing_promise` is set or no earlier call is open, and no chunk is a thenable that rejects. -/
theorem serial_of_run {source : Source} {queue : List Chunk} {closeRequested preventCancel : Bool}
    (hrun : machine.RunWhere Orderly (.new source queue closeRequested preventCancel) s) :
    Serial s :=
  (inv_of_run hrun).serial

instance (s : Iter) : ∀ e, Decidable (Orderly s e)
  | .call _ _ => inferInstanceAs (Decidable (_ ∨ _))
  | .thenableSettles _ (.ok v) => .isTrue fun _ => ⟨v, rfl⟩
  | .thenableSettles n (.error _) =>
    if h : (s.call n).stage = .reading .locked then
      .isFalse fun horderly => by
        obtain ⟨v, hv⟩ := horderly h
        cases hv
    else .isTrue fun hlocked => absurd hlocked h
  | .returns | .enqueues _ | .closes | .errors _ | .cancelSettles _ _ | .reacts _ | .adopts _
  | .returned _ | .after _ _ => .isTrue trivial

/-- Two calls of `next` are made at once; two more, when the first two are settled, and the stream
has closed by then. -/
def readTwice : List IterEvent :=
  [.call .next none, .returns, .call .next none, .reacts 0, .after 1 none, .returns,
    .enqueues (.value 8), .reacts 1, .adopts 1, .closes, .call .next none, .call .next none,
    .reacts 2, .after 3 none, .adopts 3]

theorem serial_of_run_closed : ∃ s,
    machine.RunWhere Orderly (.new .readable [.value 7] false false) s ∧ Serial s ∧
      s.taken = [(0, .value 7), (1, .value 8)] ∧
      (s.call 2).result = some .done ∧
      (s.call 3).settled = true ∧ (s.call 3).result = some .done ∧ s.releases = 1 := by
  obtain ⟨s, hs, hP⟩ := (Option.any_eq_true
    (fun s : Iter => decide (s.taken = [(0, .value 7), (1, .value 8)] ∧
      (s.call 2).result = some .done ∧
      (s.call 3).settled = true ∧ (s.call 3).result = some .done ∧ s.releases = 1))
    (machine.exec (.new .readable [.value 7] false false) readTwice)).mp (by decide)
  have hrun : machine.RunWhere Orderly (.new .readable [.value 7] false false) s :=
    Machine.runWhere_of_exec (by decide) hs
  exact ⟨s, hrun, serial_of_run hrun, of_decide_eq_true hP⟩

/-- Two calls of `next` are made at once; the third, after the reaction of the first one and before
the second one begins. -/
def overtaken : List IterEvent :=
  [.call .next none, .returns, .call .next none, .reacts 0, .call .next none]

/-- The third call reads the second chunk while the second call waits. Where the first chunk was the
last one, the third call releases the reader, and the second one reads without a stream. A chunk
whose thenable rejects finishes the iterator and leaves the reader locked. -/
theorem calls_overlap :
    (∃ s, machine.Run (.new .readable [.value 1, .value 2, .value 3] false false) s ∧
      ¬ Serial s ∧ s.taken = [(0, .value 1), (2, .value 2)] ∧ (s.call 1).stage = .waiting) ∧
    (∃ s, machine.Run (.new .readable [.value 1] true false) s ∧
      s.step (.after 1 none) = .panic .read) ∧
    ∃ s e, machine.Run (.new .readable [.thenable 0] false false) s ∧ ¬ Serial s ∧
      (s.call 0).stage = .done (.error e) ∧ s.releases = 0 := by
  refine ⟨?_, ?_, ?_⟩
  · obtain ⟨s, hrun, hP⟩ := Machine.exists_run_of_exec (M := machine) overtaken
      (P := fun s => decide (s.taken = [(0, .value 1), (2, .value 2)] ∧
        (s.call 1).stage = .waiting ∧ s.calls = 3 ∧ (s.call 2).stage ≠ .waiting))
      (s := .new .readable [.value 1, .value 2, .value 3] false false) (by decide)
    obtain ⟨htaken, hwaiting, hcalls, hbegun⟩ := of_decide_eq_true hP
    refine ⟨s, hrun, fun hserial => ?_, htaken, hwaiting⟩
    have hsettled := hserial.serialized 1 2 (by omega) (by omega) hbegun
    rw [Call.settled, hwaiting] at hsettled
    cases hsettled
  · obtain ⟨s, hs⟩ : ∃ s, machine.exec (.new .readable [.value 1] true false) overtaken = some s :=
      ⟨_, rfl⟩
    refine ⟨s, Machine.run_of_exec hs, ?_⟩
    cases hs
    rfl
  · obtain ⟨s, hrun, hP⟩ := Machine.exists_run_of_exec (M := machine)
      [.call .next none, .returns, .thenableSettles 0 (.error (.reason 9)), .reacts 0]
      (P := fun s => decide ((s.call 0).stage = .done (.error (.reason 9)) ∧ s.releases = 0 ∧
        s.calls = 1 ∧ s.frames = []))
      (s := .new .readable [.thenable 0] false false) (by decide)
    obtain ⟨hstage, hreleases, hcalls, hframes⟩ := of_decide_eq_true hP
    refine ⟨s, .reason 9, hrun, fun hserial => ?_, hstage, hreleases⟩
    have hended : (s.call 0).Ended := .inr ⟨.error (.reason 9), by rw [Call.result, hstage],
      fun v h => CallResult.noConfusion h⟩
    rw [hserial.released.2 0 (by omega) hended hframes] at hreleases
    cases hreleases

end WebStreams.AsyncIterator
