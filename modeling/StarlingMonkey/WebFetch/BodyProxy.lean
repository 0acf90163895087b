import Mathlib.Data.List.Basic
import Mathlib.Data.List.Range
import Mathlib.Logic.Function.Iterate
import StarlingMonkey.Lib.Run
import StarlingMonkey.WebStreams.ReadAllBytes

/-!
# Body proxies

`proxy_body_stream` makes a stream whose pull algorithm makes one internal read of another stream,
the original. `Proxy` is both streams, the `BodyProxySource`, and what is on the stack: the code of
the streams calls the author's code, which may do anything to either of them before it returns. A
`Frame` is what is left to do then.

The original is any stream: which chunk answers a read, and when it closes or errors, is up to the
events. The proxy's controller has the high water mark 0, and a chunk the size 1.

* `Live`: how far the pull in flight has got, while the proxy can still be fed.
* `Proxied`: the invariant. `of_run` shows it for every run, in which no assertion fails.
* `forwards`: what the proxy makes of the original.
-/

namespace WebFetch.BodyProxy

open WebStreams (StreamState JsError)
open WebStreams.ReadAllBytes (Source)

/-- What is left to do when the author's code returns. -/
inductive Frame (χ : Type) where
  /-- In the read of the original: hand over the chunk that was taken from its queue. -/
  | held (chunk : χ)
  /-- In `enqueue`, when a read request has the chunk: pull if needed, then settle the pull. -/
  | enqueued
  /-- Settle the pull. -/
  | settling
  /-- In `readable_stream_cancel`: perform the `[[CancelSteps]]`. -/
  | cancelSteps (reason : JsError)
  /-- In `proxy_cancel`: settle the pull. Then clear the algorithms. -/
  | cancelled
deriving DecidableEq, Repr

/-- What the original does with a read while it is readable. -/
inductive Reply (χ : Type) where
  /-- A chunk is taken from the queue. The stream closes if it was the last one of a stream that is
  closing, and pulls otherwise. -/
  | dequeued (chunk : χ) (closes : Bool)
  /-- The request waits in `[[readRequests]]`. -/
  | waits
  /-- The buffer for the read cannot be allocated. -/
  | refused (e : JsError)
deriving DecidableEq, Repr

/-- What the proxy is fed. -/
inductive Output (χ : Type) where
  | enqueued (chunk : χ)
  | closed
  | errored (e : JsError)
deriving DecidableEq, Repr

/-- A reaction job of the proxy's controller. -/
inductive Job where
  /-- The start promise is fulfilled. -/
  | started
  /-- The pull promise is fulfilled. -/
  | pullFulfilled
deriving DecidableEq, Repr

/-- An assertion of the streams. -/
inductive Assertion where
  /-- `readable_stream_close`: the stream is readable. -/
  | close
  /-- `readable_stream_error`: the stream is readable. -/
  | error
  /-- `readable_stream_default_controller_call_pull_if_needed`: `pull_again` is false. -/
  | pullAgain
deriving DecidableEq, Repr

/-- The original stream, the proxy and its source, and what has happened. -/
structure Proxy (χ : Type) where
  source : Source
  /-- How many requests of the internal reader wait. -/
  waiting : ℕ
  /-- The reasons the original was cancelled with. -/
  cancels : List JsError
  /-- The chunks that answered reads. -/
  answered : List χ
  /-- The errors of reads that failed without the original. -/
  refusals : List JsError
  state : StreamState
  closeRequested : Bool
  started : Bool
  pulling : Bool
  pullAgain : Bool
  /-- Whether the controller still has its algorithms. -/
  algorithms : Bool
  /-- How many read requests of the proxy are pending. -/
  requests : ℕ
  queue : List χ
  output : List (Output χ)
  /-- The reason the proxy was cancelled with. -/
  cancelled : Option JsError
  /-- `current_pull`, by the number of the pull. -/
  currentPull : Option ℕ
  pulls : ℕ
  /-- The pulls whose promises were settled. -/
  settled : List ℕ
  jobs : List Job
  frames : List (Frame χ)
  /-- Whether an exception is pending. -/
  exception : Bool
deriving DecidableEq

/-- What happens: the author reads from the proxy, lets go of its reader, or cancels; the author's
code returns; the original answers a request that waits, closes or errors; the next job runs. -/
inductive Event (χ : Type) where
  | read (reply : Reply χ)
  | release
  | cancel (reason : JsError)
  | returns (reply : Reply χ)
  | delivers (chunk : χ)
  | closes
  | errors (e : JsError)
  | job (reply : Reply χ)
deriving DecidableEq, Repr

variable {χ : Type}

namespace Proxy

/-- A call that may throw `ε`. -/
abbrev Call (χ ε : Type) := Outcome Assertion ε (Proxy χ)

/-! ### The controller of the proxy -/

/-- `readable_stream_default_controller_can_close_or_enqueue`. -/
def canCloseOrEnqueue (s : Proxy χ) : Bool := !s.closeRequested && s.state = .readable

/-- `readable_stream_default_controller_should_call_pull`. -/
def shouldCallPull (s : Proxy χ) : Bool :=
  s.canCloseOrEnqueue && s.started && 0 < s.requests

/-- `throw_type_error`. -/
def throwTypeError (s : Proxy χ) (message : String) : Call χ JsError (Proxy χ) :=
  .threw (.typeError message) { s with exception := true }

/-- `if result.is_err() { js::exception::clear(scope) }`. -/
def clearing (result : Call χ JsError (Proxy χ)) : Call χ Empty (Proxy χ) :=
  match result with
  | .ok s => .ok s
  | .threw _ s => .ok { s with exception := false }
  | .panic p => .panic p

/-- `readable_stream_close`, up to the close steps of the requests, which run the author's code. -/
def streamClose {ε : Type} (s : Proxy χ) : Call χ ε (Proxy χ) := do
  Outcome.guard (s.state = .readable) .close
  pure { s with state := .closed, requests := 0 }

/-- `close` of the controller. -/
def controllerClose (s : Proxy χ) : Call χ JsError (Proxy χ) :=
  if !s.canCloseOrEnqueue then
    s.throwTypeError "The stream is not in a state that permits close"
  else
    let s := { s with closeRequested := true, output := s.output ++ [Output.closed] }
    if s.queue.isEmpty then { s with algorithms := false }.streamClose else pure s

/-- `error` of the controller. -/
def controllerError (s : Proxy χ) (e : JsError) : Call χ JsError (Proxy χ) :=
  if s.state ≠ .readable then pure s
  else do
    let s := { s with queue := [], algorithms := false, output := s.output ++ [Output.errored e] }
    Outcome.guard (s.state = .readable) .error
    pure { s with state := .errored, requests := 0 }

/-- `enqueue` of the controller, up to where it pulls if needed. -/
def controllerEnqueue (s : Proxy χ) (chunk : χ) : Call χ JsError (Proxy χ) :=
  if !s.canCloseOrEnqueue then
    s.throwTypeError "The stream is not in a state that permits enqueue"
  else
    let s := { s with output := s.output ++ [Output.enqueued chunk] }
    let s := if 0 < s.requests then { s with requests := s.requests - 1 }
      else { s with queue := s.queue ++ [chunk] }
    pure { s with frames := .enqueued :: s.frames }

/-! ### The source of the proxy -/

/-- `settle_pull`. -/
def settlePull (s : Proxy χ) : Proxy χ :=
  match s.currentPull with
  | none => s
  | some pull => { s with
      currentPull := none, settled := s.settled ++ [pull], jobs := s.jobs ++ [.pullFulfilled] }

/-- `proxy_chunk_step`. An `enqueue` that succeeds settles the pull when it has pulled. -/
def chunkStep (s : Proxy χ) (chunk : χ) : Call χ Empty (Proxy χ) :=
  let s := { s with answered := s.answered ++ [chunk] }
  if s.canCloseOrEnqueue then clearing (s.controllerEnqueue chunk)
  else do
    let s ← clearing (s.controllerEnqueue chunk)
    pure s.settlePull

/-- `proxy_close_step`. A `close` that succeeds settles the pull when the author's code returns. -/
def closeStep (s : Proxy χ) : Call χ Empty (Proxy χ) :=
  if s.canCloseOrEnqueue then do
    let s ← clearing s.controllerClose
    pure { s with frames := .settling :: s.frames }
  else do
    let s ← clearing s.controllerClose
    pure s.settlePull

/-- `proxy_error_step`. -/
def errorStep (s : Proxy χ) (e : JsError) : Call χ Empty (Proxy χ) := do
  let s ← clearing (s.controllerError e)
  pure s.settlePull

/-- The original closes, which performs the close step of each request that waits. -/
def sourceClose (s : Proxy χ) : Call χ Empty (Proxy χ) :=
  (fun s : Call χ Empty (Proxy χ) => s >>= closeStep)^[s.waiting]
    (pure { s with source := .closed, waiting := 0 })

/-- The original errors, which performs the error step of each request that waits. -/
def sourceError (s : Proxy χ) (e : JsError) : Call χ Empty (Proxy χ) :=
  (fun s : Call χ Empty (Proxy χ) => s >>= fun s => s.errorStep e)^[s.waiting]
    (pure { s with source := .errored e, waiting := 0 })

/-- `native_reader_read`: the original answers at once, or the request waits. -/
def nativeReaderRead (s : Proxy χ) (reply : Reply χ) : Call χ Empty (Proxy χ) :=
  match s.source with
  | .closed => s.closeStep
  | .errored e => s.errorStep e
  | .readable =>
    match reply with
    | .dequeued chunk closes =>
      let s := { s with frames := .held chunk :: s.frames }
      if closes then s.sourceClose else pure s
    | .waits => pure { s with waiting := s.waiting + 1 }
    | .refused e => { s with refusals := s.refusals ++ [e] }.errorStep e

/-- `proxy_pull`. -/
def proxyPull (s : Proxy χ) (reply : Reply χ) : Call χ Empty (Proxy χ) :=
  { s with currentPull := some s.pulls, pulls := s.pulls + 1 }.nativeReaderRead reply

/-- `readable_stream_default_controller_call_pull_if_needed`. An absent algorithm has a promise that
is fulfilled. -/
def callPullIfNeeded (s : Proxy χ) (reply : Reply χ) : Call χ Empty (Proxy χ) :=
  if !s.shouldCallPull then pure s
  else if s.pulling then pure { s with pullAgain := true }
  else do
    Outcome.guard (!s.pullAgain) .pullAgain
    let s := { s with pulling := true }
    if s.algorithms then s.proxyPull reply
    else pure { s with jobs := s.jobs ++ [.pullFulfilled] }

/-- `proxy_cancel`, up to the original's cancel algorithm: `native_reader_cancel`. -/
def proxyCancel (s : Proxy χ) (reason : JsError) : Call χ Empty (Proxy χ) := do
  let s := { s with cancels := s.cancels ++ [reason] }
  let s ← match s.source with
    | .readable => s.sourceClose
    | _ => pure s
  pure { s with frames := .cancelled :: s.frames }

/-- `[[CancelSteps]]` of the proxy's controller. -/
def cancelSteps (s : Proxy χ) (reason : JsError) : Call χ Empty (Proxy χ) :=
  let s := { s with queue := [] }
  if s.algorithms then s.proxyCancel reason else pure s

/-! ### The machine -/

/-- `read` of the proxy's reader. -/
def read (s : Proxy χ) (reply : Reply χ) : Call χ Empty (Proxy χ) :=
  match s.state, s.queue with
  | .readable, [] => { s with requests := s.requests + 1 }.callPullIfNeeded reply
  | .readable, _ :: queue =>
    if s.closeRequested && queue.isEmpty then { s with queue, algorithms := false }.streamClose
    else { s with queue }.callPullIfNeeded reply
  | _, _ => pure s

/-- `readable_stream_cancel` of the proxy, up to the close steps of the requests. -/
def cancel (s : Proxy χ) (reason : JsError) : Call χ Empty (Proxy χ) :=
  if s.state = .readable then do
    let s ← s.streamClose
    pure { s with cancelled := some reason, frames := .cancelSteps reason :: s.frames }
  else pure s

/-- The author's code returns to the innermost frame. -/
def returns (s : Proxy χ) (reply : Reply χ) : Call χ Empty (Proxy χ) :=
  match s.frames with
  | [] => pure s
  | .held chunk :: frames => { s with frames }.chunkStep chunk
  | .enqueued :: frames => { s with frames := .settling :: frames }.callPullIfNeeded reply
  | .settling :: frames => pure { s with frames }.settlePull
  | .cancelSteps reason :: frames => { s with frames }.cancelSteps reason
  | .cancelled :: frames => pure { { s with frames }.settlePull with algorithms := false }

/-- A job runs. -/
def run (s : Proxy χ) (reply : Reply χ) : Job → Call χ Empty (Proxy χ)
  | .started => { s with started := true }.callPullIfNeeded reply
  | .pullFulfilled =>
    let s := { s with pulling := false }
    if s.pullAgain then { s with pullAgain := false }.callPullIfNeeded reply else pure s

/-- What happens at an event. An event that cannot happen now changes nothing. -/
def step (s : Proxy χ) : Event χ → Call χ Empty (Proxy χ)
  | .read reply => s.read reply
  | .release => pure { s with requests := 0 }
  | .cancel reason => s.cancel reason
  | .returns reply => s.returns reply
  | .delivers chunk =>
    if s.source = .readable && 0 < s.waiting then
      { s with waiting := s.waiting - 1 }.chunkStep chunk
    else pure s
  | .closes => if s.source = .readable then s.sourceClose else pure s
  | .errors e => if s.source = .readable then s.sourceError e else pure s
  | .job reply =>
    match s.jobs with
    | [] => pure s
    | job :: jobs => { s with jobs }.run reply job

/-- `proxy_body_stream` has made the proxy. -/
def initial (source : Source) : Proxy χ where
  source
  waiting := 0
  cancels := []
  answered := []
  refusals := []
  state := .readable
  closeRequested := false
  started := false
  pulling := false
  pullAgain := false
  algorithms := true
  requests := 0
  queue := []
  output := []
  cancelled := none
  currentPull := none
  pulls := 0
  settled := []
  jobs := [.started]
  frames := []
  exception := false

end Proxy

/-- The machine of a body proxy. -/
def proxyMachine (χ : Type) : Machine Assertion Empty (Proxy χ) (Event χ) := ⟨Proxy.step⟩

/-! ### The steps of a read -/

/-- The chunk that a frame is about to hand over. -/
def Frame.chunk : Frame χ → Option χ
  | .held chunk => some chunk
  | _ => none

/-- The reason that a frame is about to cancel the original with. -/
def Frame.reason : Frame χ → Option JsError
  | .cancelSteps reason => some reason
  | _ => none

namespace Proxy

variable {s t : Proxy χ}

/-- A throw that is cleared leaves no trace. -/
theorem clearing_throw (hexception : s.exception = false) (message : String) :
    clearing (s.throwTypeError message) = .ok s := by
  obtain ⟨⟩ := s
  cases hexception
  rfl

theorem settlePull_some {pull : ℕ} (h : s.currentPull = some pull) : s.settlePull = { s with
    currentPull := none, settled := s.settled ++ [pull], jobs := s.jobs ++ [.pullFulfilled] } := by
  obtain ⟨⟩ := s
  cases h
  rfl

/-- A chunk for a proxy that cannot be fed is dropped. -/
theorem chunkStep_dead (hdead : s.canCloseOrEnqueue = false) (hexception : s.exception = false)
    (chunk : χ) :
    s.chunkStep chunk = .ok { s with answered := s.answered ++ [chunk] }.settlePull := by
  have hdead' :
      ({ s with answered := s.answered ++ [chunk] } : Proxy χ).canCloseOrEnqueue = false :=
    hdead
  rw [chunkStep]
  simp only [hdead', controllerEnqueue, Bool.not_false, Bool.false_eq_true, if_true, if_false]
  rw [clearing_throw (s := { s with answered := s.answered ++ [chunk] }) hexception]
  rfl

/-- A chunk is enqueued, and the author's code may run. -/
theorem chunkStep_live (hlive : s.canCloseOrEnqueue = true) (chunk : χ) :
    ∃ requests queue, s.chunkStep chunk = .ok { s with
      answered := s.answered ++ [chunk], output := s.output ++ [Output.enqueued chunk], requests,
      queue, frames := .enqueued :: s.frames } := by
  have hlive' : ({ s with answered := s.answered ++ [chunk] } : Proxy χ).canCloseOrEnqueue = true :=
    hlive
  rw [chunkStep]
  simp only [hlive', controllerEnqueue, Bool.not_true, Bool.false_eq_true, if_true, if_false]
  by_cases hrequests : 0 < s.requests
  · rw [if_pos hrequests]
    exact ⟨_, _, rfl⟩
  · rw [if_neg hrequests]
    exact ⟨_, _, rfl⟩

/-- The close of a proxy that cannot be fed is ignored. -/
theorem closeStep_dead (hdead : s.canCloseOrEnqueue = false) (hexception : s.exception = false) :
    s.closeStep = .ok s.settlePull := by
  rw [closeStep]
  simp only [hdead, controllerClose, Bool.not_false, Bool.false_eq_true, if_true, if_false]
  rw [clearing_throw hexception]
  rfl

/-- The proxy is closed, at once if its queue is empty. -/
theorem closeStep_live (hlive : s.canCloseOrEnqueue = true) :
    ∃ state requests algorithms, s.closeStep = .ok { s with
      closeRequested := true, output := s.output ++ [Output.closed], state, requests, algorithms,
      frames := .settling :: s.frames } ∧ s.state = .readable ∧
      (state = .readable → algorithms = s.algorithms) ∧ (s.queue = [] → state = .closed) := by
  have hstate : s.state = .readable := by
    rw [canCloseOrEnqueue, Bool.and_eq_true, decide_eq_true_eq] at hlive
    exact hlive.2
  rw [closeStep]
  simp only [hlive, controllerClose, Bool.not_true, Bool.false_eq_true, if_true, if_false]
  by_cases hqueue : s.queue.isEmpty = true
  · refine ⟨.closed, 0, false, ?_, hstate, StreamState.noConfusion, fun _ => rfl⟩
    simp only [hqueue, if_true, streamClose, hstate, decide_true, Outcome.guard_true,
      Outcome.ok_bind, Outcome.pure_eq_ok, clearing]
  · refine ⟨s.state, s.requests, s.algorithms, ?_, hstate, fun _ => rfl,
      fun hnil => absurd (List.isEmpty_iff.mpr hnil) hqueue⟩
    simp only [hqueue, if_false, Outcome.ok_bind, Outcome.pure_eq_ok, clearing, Bool.false_eq_true]

/-- The proxy is errored. -/
theorem errorStep_readable (hstate : s.state = .readable) (e : JsError) :
    s.errorStep e = .ok { s with
      queue := [], algorithms := false, output := s.output ++ [Output.errored e], state := .errored,
      requests := 0 }.settlePull := by
  rw [errorStep, controllerError, if_neg (not_not_intro hstate)]
  simp only [hstate, decide_true, Outcome.guard_true, Outcome.ok_bind, Outcome.pure_eq_ok, clearing]

theorem errorStep_dead (hstate : s.state ≠ .readable) (e : JsError) :
    s.errorStep e = .ok s.settlePull := by
  rw [errorStep, controllerError, if_pos hstate]
  rfl

end Proxy

/-! ### The invariant -/

/-- What the proxy was fed: chunks of the original, all of them as long as it can be fed, and the
end of the original. -/
structure Forwarded (s : Proxy χ) (given dropped : List χ) (ending : List (Output χ)) : Prop where
  answered : s.answered = given ++ dropped
  output : s.output = given.map .enqueued ++ ending
  live : s.canCloseOrEnqueue = true → dropped = [] ∧ ending = []
  ending : ending = [] ∨ ending = [.closed] ∧ s.source = .closed ∨
    ∃ e, ending = [.errored e] ∧ (s.source = .errored e ∨ e ∈ s.refusals)

/-- What holds wherever the pull in flight has got to. -/
structure Kept (s : Proxy χ) : Prop where
  exception : s.exception = false
  settled : s.settled ++ s.currentPull.toList = List.range s.pulls
  cancels : s.cancels ++ s.frames.filterMap Frame.reason = s.cancelled.toList
  uncancelled : s.state = .readable → s.cancelled = none
  oneRead : s.waiting + (s.frames.filterMap Frame.chunk).length ≤ 1
  owed : 0 < s.waiting → s.source = .readable
  closing : s.closeRequested = true → s.source = .closed
  pullAgain : s.pullAgain = true → s.pulling = true
  /-- The original can be cancelled as long as it may have to be. -/
  algorithms : s.state = .readable ∨ s.frames.filterMap Frame.reason ≠ [] → s.algorithms = true
  /-- A cancel that is under way has cancelled the original. -/
  cancelling : .cancelled ∈ s.frames → s.cancels ≠ []
  forwarded : ∃ given dropped ending, Forwarded s given dropped ending

/-- The pull in flight may be answered. -/
structure Ready (s : Proxy χ) : Prop where
  live : s.canCloseOrEnqueue = true
  algorithms : s.algorithms = true
  frames : s.frames = []
  waiting : s.waiting = 0
  pulling : s.pulling = true
  currentPull : s.currentPull ≠ none
  jobs : s.jobs.count .pullFulfilled = 0

/-- No read is in flight. -/
structure Unread (s : Proxy χ) : Prop where
  live : s.canCloseOrEnqueue = true
  algorithms : s.algorithms = true
  frames : s.frames = []
  waiting : s.waiting = 0
  currentPull : s.currentPull = none

/-- How far the pull in flight has got, while the proxy can be fed. -/
inductive Live (s : Proxy χ) : Prop where
  | idle (unread : Unread s) (pulling : s.pulling = false) (jobs : s.jobs.count .pullFulfilled = 0)
  /-- The original owes the answer to the read. -/
  | waiting (one : s.waiting = 1) (ready : Ready { s with waiting := 0 })
  /-- The read of the original hands over the chunk. -/
  | holding (chunk : χ) (frames : s.frames = [.held chunk]) (ready : Ready { s with frames := [] })
  /-- The chunk is enqueued. -/
  | enqueuing (frames : s.frames = [.enqueued] ∨ s.frames = [.settling])
      (ready : Ready { s with frames := [] })
  /-- The promise of the pull is settled, and its reaction has not run. -/
  | settled (unread : Unread s) (pulling : s.pulling = true)
      (jobs : s.jobs.count .pullFulfilled = 1)

/-- The proxy cannot be fed any more. A pull in flight is settled by what is on the stack. -/
structure Ended (s : Proxy χ) : Prop where
  dead : s.canCloseOrEnqueue = false
  pull : s.currentPull = none ∨ s.frames ≠ []

/-- **The invariant.** -/
structure Proxied (s : Proxy χ) : Prop where
  kept : Kept s
  phase : Live s ∨ Ended s

/-- A call returns, and in a state that satisfies `P`. -/
def Ends (call : Proxy.Call χ Empty (Proxy χ)) (P : Proxy χ → Prop) : Prop :=
  ∃ t, call = .ok t ∧ P t

variable {s t : Proxy χ}

/-! ### What is kept -/

namespace Kept

/-- The pull in flight is settled once. -/
theorem settlePull (h : Kept s) : Kept s.settlePull := by
  rw [Proxy.settlePull]
  cases hpull : s.currentPull with
  | none => exact h
  | some pull =>
    refine ⟨h.exception, ?_, h.cancels, h.uncancelled, h.oneRead, h.owed, h.closing, h.pullAgain,
      h.algorithms, h.cancelling, ?_⟩
    · have hsettled := h.settled
      rw [hpull] at hsettled
      exact (List.append_nil _).trans hsettled
    · obtain ⟨given, dropped, ending, hf⟩ := h.forwarded
      exact ⟨given, dropped, ending, hf.answered, hf.output, hf.live, hf.ending⟩

/-- A chunk is dropped. -/
theorem drop (h : Kept s) (hdead : s.canCloseOrEnqueue = false) (chunk : χ) :
    Kept { s with answered := s.answered ++ [chunk] } := by
  refine ⟨h.exception, h.settled, h.cancels, h.uncancelled, h.oneRead, h.owed, h.closing,
    h.pullAgain, h.algorithms, h.cancelling, ?_⟩
  obtain ⟨given, dropped, ending, hf⟩ := h.forwarded
  refine ⟨given, dropped ++ [chunk], ending, ?_, hf.output, fun hlive => ?_, hf.ending⟩
  · change s.answered ++ [chunk] = _
    rw [hf.answered, List.append_assoc]
  · exact absurd (hdead.symm.trans hlive) Bool.false_ne_true

/-- A readable proxy has not been cancelled, and is not about to be. -/
theorem not_cancelling (h : Kept s) (hstate : s.state = .readable) :
    s.cancels = [] ∧ s.frames.filterMap Frame.reason = [] := by
  have hcancels := h.cancels
  rw [h.uncancelled hstate] at hcancels
  exact List.append_eq_nil_iff.mp hcancels

/-- Another frame is pushed. -/
theorem cancelling_cons (h : Kept s) {f : Frame χ} (hf : f ≠ .cancelled) :
    .cancelled ∈ f :: s.frames → s.cancels ≠ [] := fun hmem =>
  h.cancelling ((List.mem_cons.mp hmem).resolve_left hf.symm)

/-- While the proxy can be fed, it was fed all the chunks and nothing else. -/
theorem output_eq (h : Kept s) (hlive : s.canCloseOrEnqueue = true) :
    s.output = s.answered.map .enqueued := by
  obtain ⟨given, dropped, ending, hf⟩ := h.forwarded
  obtain ⟨rfl, rfl⟩ := hf.live hlive
  rw [hf.output, hf.answered, List.append_nil, List.append_nil]

/-- The end of the original is passed on. -/
theorem forwarded_end (h : Kept s) (hlive : s.canCloseOrEnqueue = true)
    (hdead : t.canCloseOrEnqueue = false) (hanswered : t.answered = s.answered)
    {ending : Output χ} (houtput : t.output = s.output ++ [ending])
    (hending : ending = .closed ∧ t.source = .closed ∨
      ∃ e, ending = .errored e ∧ (t.source = .errored e ∨ e ∈ t.refusals)) :
    ∃ given dropped ending, Forwarded t given dropped ending := by
  refine ⟨s.answered, [], [ending], ?_, ?_, fun hlive => ?_, .inr ?_⟩
  · rw [hanswered, List.append_nil]
  · rw [houtput, h.output_eq hlive]
  · exact absurd (hdead.symm.trans hlive) Bool.false_ne_true
  · rcases hending with ⟨rfl, hsource⟩ | ⟨e, rfl, hsource⟩
    · exact .inl ⟨rfl, hsource⟩
    · exact .inr ⟨e, rfl, hsource⟩

end Kept

/-! ### The pull in flight is answered -/

theorem ended_settlePull (hdead : s.canCloseOrEnqueue = false) : Ended s.settlePull := by
  rw [Proxy.settlePull]
  cases hpull : s.currentPull with
  | none => exact ⟨hdead, .inl hpull⟩
  | some pull => exact ⟨hdead, .inl rfl⟩

/-- Settling the pull of a proxy that cannot be fed. -/
theorem Kept.ended (h : Kept s) (hdead : s.canCloseOrEnqueue = false) : Proxied s.settlePull :=
  ⟨h.settlePull, .inr (ended_settlePull hdead)⟩

/-- The chunk step. -/
theorem Kept.chunkStep (h : Kept s) (hphase : Ready s ∨ s.canCloseOrEnqueue = false) (chunk : χ) :
    Ends (s.chunkStep chunk) Proxied := by
  rcases hphase with hready | hdead
  · obtain ⟨requests, queue, hstep⟩ := Proxy.chunkStep_live hready.live chunk
    refine ⟨_, hstep, ⟨h.exception, h.settled, h.cancels, h.uncancelled, h.oneRead, h.owed,
      h.closing, h.pullAgain, h.algorithms, h.cancelling_cons (by rintro ⟨⟩), ?_⟩,
      .inl (.enqueuing (.inl ?_) ?_)⟩
    · refine ⟨s.answered ++ [chunk], [], [], (List.append_nil _).symm, ?_, fun _ => ⟨rfl, rfl⟩,
        .inl rfl⟩
      change s.output ++ [Output.enqueued chunk] = _
      rw [h.output_eq hready.live, List.map_append, List.append_nil]
      rfl
    · exact congrArg (Frame.enqueued :: ·) hready.frames
    · exact ⟨hready.live, hready.algorithms, rfl, hready.waiting, hready.pulling,
        hready.currentPull, hready.jobs⟩
  · exact ⟨_, Proxy.chunkStep_dead hdead h.exception chunk, (h.drop hdead chunk).ended hdead⟩

/-- The close step. -/
theorem Kept.closeStep (h : Kept s) (hsource : s.source = .closed) : Ends s.closeStep Proxied := by
  cases hlive : s.canCloseOrEnqueue with
  | true =>
    obtain ⟨state, requests, algorithms, hstep, hstate, hkeeps, -⟩ := Proxy.closeStep_live hlive
    refine ⟨_, hstep, ⟨h.exception, h.settled, h.cancels, fun _ => h.uncancelled hstate, h.oneRead,
      h.owed, fun _ => hsource, h.pullAgain, ?_, h.cancelling_cons (by rintro ⟨⟩), ?_⟩,
      .inr ⟨rfl, .inr (List.cons_ne_nil _ _)⟩⟩
    · rintro (hs | hreason)
      · exact (hkeeps hs).trans (h.algorithms (.inl hstate))
      · exact absurd (h.not_cancelling hstate).2 hreason
    · exact h.forwarded_end hlive rfl rfl rfl (.inl ⟨rfl, hsource⟩)
  | false => exact ⟨_, Proxy.closeStep_dead hlive h.exception, h.ended hlive⟩

/-- The error step. -/
theorem Kept.errorStep (h : Kept s) {e : JsError}
    (hsource : s.source = .errored e ∨ e ∈ s.refusals) (hphase : s.state = .readable →
      s.canCloseOrEnqueue = true) : Ends (s.errorStep e) Proxied := by
  by_cases hstate : s.state = .readable
  · have hlive := hphase hstate
    refine ⟨_, Proxy.errorStep_readable hstate e, Kept.ended ⟨h.exception, h.settled, h.cancels,
      StreamState.noConfusion, h.oneRead, h.owed, h.closing, h.pullAgain, ?_, h.cancelling, ?_⟩ ?_⟩
    · rintro (hs | hreason)
      · cases hs
      · exact absurd (h.not_cancelling hstate).2 hreason
    · exact h.forwarded_end hlive (Bool.and_false _) rfl rfl (.inr ⟨e, rfl, hsource⟩)
    · exact Bool.and_false _
  · refine ⟨_, Proxy.errorStep_dead hstate e, h.ended ?_⟩
    rw [Proxy.canCloseOrEnqueue, decide_eq_false hstate, Bool.and_false]

/-- An error step for a request of a readable original. -/
theorem Kept.live_of_readable (h : Kept s) (hsource : s.source = .readable)
    (hstate : s.state = .readable) : s.canCloseOrEnqueue = true := by
  cases hclosing : s.closeRequested with
  | true =>
    rw [h.closing hclosing] at hsource
    cases hsource
  | false => rw [Proxy.canCloseOrEnqueue, hclosing, hstate]; rfl

/-- The original is not readable any more. -/
theorem Kept.ends (h : Kept s) (hsource : s.source = .readable) (source : Source) :
    Kept { s with source, waiting := 0 } := by
  obtain ⟨hexception, hsettled, hcancels, huncancelled, hone, -, hclosing, hagain, halgorithms,
    hcancelling, given, dropped, ending, hf⟩ := h
  refine ⟨hexception, hsettled, hcancels, huncancelled, (Nat.zero_add _).trans_le
    ((Nat.le_add_left _ _).trans hone), fun hw => absurd hw (Nat.lt_irrefl 0), fun hc => ?_, hagain,
    halgorithms, hcancelling, given, dropped, ending, hf.answered, hf.output, hf.live, ?_⟩
  · rw [hclosing hc] at hsource
    cases hsource
  · rcases hf.ending with hnone | ⟨-, hclosed⟩ | ⟨e, hend, herrored | hrefused⟩
    · exact .inl hnone
    · rw [hsource] at hclosed; cases hclosed
    · rw [hsource] at herrored; cases herrored
    · exact .inr (.inr ⟨e, hend, .inr hrefused⟩)

/-- The original closes or errors, and has the steps performed for the request that waits. -/
theorem Proxied.sourceEnds (h : Proxied s) (hsource : s.source = .readable) (source : Source)
    (steps : Proxy χ → Proxy.Call χ Empty (Proxy χ))
    (hsteps : Kept { s with source, waiting := 0 } →
      Ends (steps { s with source, waiting := 0 }) Proxied) :
    Ends ((fun s : Proxy.Call χ Empty (Proxy χ) => s >>= steps)^[s.waiting]
      (pure { s with source, waiting := 0 })) Proxied := by
  have hkept := h.kept.ends hsource source
  by_cases hwaiting : s.waiting = 0
  · rw [hwaiting]
    refine ⟨_, rfl, hkept, ?_⟩
    rcases h.phase with hlive | hended
    · left
      cases hlive with
      | idle unread pulling jobs =>
        exact .idle ⟨unread.live, unread.algorithms, unread.frames, rfl, unread.currentPull⟩ pulling
          jobs
      | waiting one => rw [one] at hwaiting; cases hwaiting
      | holding chunk frames ready =>
        exact .holding chunk frames ⟨ready.live, ready.algorithms, rfl, rfl, ready.pulling,
          ready.currentPull, ready.jobs⟩
      | enqueuing frames ready =>
        exact .enqueuing frames ⟨ready.live, ready.algorithms, rfl, rfl, ready.pulling,
          ready.currentPull, ready.jobs⟩
      | settled unread pulling jobs =>
        exact .settled ⟨unread.live, unread.algorithms, unread.frames, rfl, unread.currentPull⟩
          pulling jobs
    · exact .inr ⟨hended.dead, hended.pull⟩
  · have hone : s.waiting = 1 := by
      have := h.kept.oneRead
      omega
    rw [hone]
    exact hsteps hkept

theorem Proxied.sourceClose (h : Proxied s) (hsource : s.source = .readable) :
    Ends s.sourceClose Proxied :=
  h.sourceEnds hsource .closed Proxy.closeStep fun hkept => hkept.closeStep rfl

theorem Proxied.sourceError (h : Proxied s) (hsource : s.source = .readable) (e : JsError) :
    Ends (s.sourceError e) Proxied :=
  h.sourceEnds hsource (.errored e) (fun s => s.errorStep e) fun hkept =>
    hkept.errorStep (.inl rfl) fun hstate => h.kept.live_of_readable hsource hstate

/-! ### The pull -/

private theorem nativeReaderRead_closed (h : s.source = .closed) (reply : Reply χ) :
    s.nativeReaderRead reply = s.closeStep := by
  obtain ⟨⟩ := s
  cases h
  rfl

private theorem nativeReaderRead_errored {e : JsError} (h : s.source = .errored e)
    (reply : Reply χ) : s.nativeReaderRead reply = s.errorStep e := by
  obtain ⟨⟩ := s
  cases h
  rfl

private theorem nativeReaderRead_dequeued (h : s.source = .readable) (chunk : χ) (closes : Bool) :
    s.nativeReaderRead (.dequeued chunk closes) =
      if closes then { s with frames := .held chunk :: s.frames }.sourceClose
      else .ok { s with frames := .held chunk :: s.frames } := by
  obtain ⟨⟩ := s
  cases h
  rfl

private theorem nativeReaderRead_waits (h : s.source = .readable) :
    s.nativeReaderRead .waits = .ok { s with waiting := s.waiting + 1 } := by
  obtain ⟨⟩ := s
  cases h
  rfl

private theorem nativeReaderRead_refused (h : s.source = .readable) (e : JsError) :
    s.nativeReaderRead (.refused e) = { s with refusals := s.refusals ++ [e] }.errorStep e := by
  obtain ⟨⟩ := s
  cases h
  rfl

/-- A read that is made while the pull in flight may be answered. -/
theorem Kept.nativeReaderRead (h : Kept s) (hready : Ready s) (reply : Reply χ) :
    Ends (s.nativeReaderRead reply) Proxied := by
  obtain ⟨given, dropped, ending, hf⟩ := h.forwarded
  have hframes : s.frames.filterMap Frame.chunk = [] := by rw [hready.frames]; rfl
  -- a source that has ended answers the read itself
  cases hsource : s.source with
  | closed =>
    rw [nativeReaderRead_closed hsource]
    exact h.closeStep hsource
  | errored e =>
    rw [nativeReaderRead_errored hsource]
    exact h.errorStep (.inl hsource) fun _ => hready.live
  | readable =>
    cases reply with
    -- what is dequeued is held while the source pulls, and closes the source if it was the last
    | dequeued chunk closes =>
      have hheld : Proxied { s with frames := .held chunk :: s.frames } := by
        refine ⟨⟨h.exception, h.settled, h.cancels, h.uncancelled, ?_, h.owed, h.closing,
          h.pullAgain,
          h.algorithms, h.cancelling_cons (by rintro ⟨⟩), given, dropped, ending, hf.answered,
          hf.output, hf.live, hf.ending⟩, .inl (.holding chunk
            (congrArg (Frame.held chunk :: ·) hready.frames) ⟨hready.live, hready.algorithms, rfl,
              hready.waiting, hready.pulling, hready.currentPull, hready.jobs⟩)⟩
        change s.waiting + (chunk :: s.frames.filterMap Frame.chunk).length ≤ 1
        rw [hready.waiting, hframes]
        exact Nat.le_refl 1
      rw [nativeReaderRead_dequeued hsource]
      cases closes with
      | false => exact ⟨_, rfl, hheld⟩
      | true => exact hheld.sourceClose hsource
    | waits =>
      rw [nativeReaderRead_waits hsource]
      refine ⟨_, rfl, ⟨h.exception, h.settled, h.cancels, h.uncancelled, ?_, fun _ => hsource,
        h.closing, h.pullAgain, h.algorithms, h.cancelling, given, dropped, ending, hf.answered,
        hf.output, hf.live, hf.ending⟩, .inl (.waiting (congrArg (· + 1) hready.waiting)
          ⟨hready.live, hready.algorithms, hready.frames, rfl, hready.pulling, hready.currentPull,
            hready.jobs⟩)⟩
      change s.waiting + 1 + (s.frames.filterMap Frame.chunk).length ≤ 1
      rw [hready.waiting, hframes]
      exact Nat.le_refl 1
    -- the source's pull threw: the proxy errors, for the reason it refused with
    | refused e =>
      rw [nativeReaderRead_refused hsource]
      refine Kept.errorStep (s := { s with refusals := s.refusals ++ [e] }) ⟨h.exception, h.settled,
        h.cancels, h.uncancelled, h.oneRead, h.owed, h.closing, h.pullAgain, h.algorithms,
        h.cancelling, given, dropped, ending, hf.answered, hf.output, hf.live, ?_⟩
        (.inr (List.mem_append_right _ (List.mem_singleton_self e))) fun _ => hready.live
      rcases hf.ending with hnone | hclosed | ⟨e', hend, herrored | hrefused⟩
      · exact .inl hnone
      · exact .inr (.inl hclosed)
      · exact .inr (.inr ⟨e', hend, .inl herrored⟩)
      · exact .inr (.inr ⟨e', hend, .inr (List.mem_append_left _ hrefused)⟩)

/-- The queue, the requests, whether to pull again and whether the controller has started may
change. -/
theorem Proxied.same (h : Proxied s) {requests : ℕ} {queue : List χ} {pullAgain started : Bool}
    (hagain : pullAgain = true → s.pulling = true) :
    Proxied { s with requests, queue, pullAgain, started } := by
  obtain ⟨hexception, hsettled, hcancels, huncancelled, hone, howed, hclosing, -, halgorithms,
    hcancelling, given, dropped, ending, hf⟩ := h.kept
  refine ⟨⟨hexception, hsettled, hcancels, huncancelled, hone, howed, hclosing, hagain, halgorithms,
    hcancelling, given, dropped, ending, hf.answered, hf.output, hf.live, hf.ending⟩, ?_⟩
  rcases h.phase with hlive | hended
  · left
    have hready {s' : Proxy χ} (hr : Ready s') :
        Ready { s' with requests, queue, pullAgain, started } :=
      ⟨hr.live, hr.algorithms, hr.frames, hr.waiting, hr.pulling, hr.currentPull, hr.jobs⟩
    have hunread (hu : Unread s) : Unread { s with requests, queue, pullAgain, started } :=
      ⟨hu.live, hu.algorithms, hu.frames, hu.waiting, hu.currentPull⟩
    cases hlive with
    | idle unread pulling jobs => exact .idle (hunread unread) pulling jobs
    | waiting one ready => exact .waiting one (hready ready)
    | holding chunk frames ready => exact .holding chunk frames (hready ready)
    | enqueuing frames ready => exact .enqueuing frames (hready ready)
    | settled unread pulling jobs => exact .settled (hunread unread) pulling jobs
  · exact .inr ⟨hended.dead, hended.pull⟩

/-- The controller pulls if a pull is wanted and none is in flight. -/
theorem Proxied.callPullIfNeeded (h : Proxied s) (reply : Reply χ) :
    Ends (s.callPullIfNeeded reply) Proxied := by
  rw [Proxy.callPullIfNeeded]
  split
  next => exact ⟨_, rfl, h⟩
  next hwanted =>
    have hwanted : s.shouldCallPull = true := by simpa using hwanted
    rw [Proxy.shouldCallPull, Bool.and_eq_true, Bool.and_eq_true] at hwanted
    obtain ⟨⟨hlive, -⟩, -⟩ := hwanted
    split
    next hpulling => exact ⟨_, rfl, h.same fun _ => hpulling⟩
    -- no pull is under way, so none was asked for again
    next hidle =>
      have hagain : s.pullAgain = false := by
        cases hagain : s.pullAgain with
        | true => exact absurd (h.kept.pullAgain hagain) hidle
        | false => rfl
      rcases h.phase with hphase | hended
      · cases hphase with
        | idle unread pulling jobs =>
          have hguard : (Outcome.guard (!s.pullAgain) .pullAgain : Proxy.Call χ Empty Unit) =
              .ok () := by
            rw [hagain]
            rfl
          rw [hguard, Outcome.ok_bind]
          dsimp only
          rw [if_pos unread.algorithms]
          have hk := h.kept
          refine Kept.nativeReaderRead (s := { s with
            pulling := true, currentPull := some s.pulls, pulls := s.pulls + 1 }) ⟨hk.exception, ?_,
            hk.cancels, hk.uncancelled, hk.oneRead, hk.owed, hk.closing, fun _ => rfl,
            hk.algorithms,
            hk.cancelling, ?_⟩ ⟨unread.live, unread.algorithms, unread.frames, unread.waiting, rfl,
            Option.some_ne_none _, jobs⟩ reply
          · have hsettled := hk.settled
            rw [unread.currentPull, Option.toList_none, List.append_nil] at hsettled
            change s.settled ++ [s.pulls] = _
            rw [hsettled, List.range_succ]
          · obtain ⟨given, dropped, ending, hf⟩ := hk.forwarded
            exact ⟨given, dropped, ending, hf.answered, hf.output, hf.live, hf.ending⟩
        -- in the other phases one is
        | waiting one ready => exact absurd ready.pulling hidle
        | holding chunk frames ready => exact absurd ready.pulling hidle
        | enqueuing frames ready => exact absurd ready.pulling hidle
        | settled unread pulling => exact absurd pulling hidle
      · exact absurd (hended.dead.symm.trans hlive) Bool.false_ne_true

/-! ### The other steps -/

/-- A stream that is closing is closed with its last chunk. -/
theorem Proxied.streamClose (h : Proxied s) (hstate : s.state = .readable)
    (hdead : s.canCloseOrEnqueue = false) {queue : List χ} {algorithms : Bool} :
    Ends ({ s with queue, algorithms }.streamClose) Proxied := by
  obtain ⟨hexception, hsettled, hcancels, -, hone, howed, hclosing, hagain, -, hcancelling, given,
    dropped, ending, hf⟩ := h.kept
  have hclosed : ({ s with queue, algorithms, state := .closed, requests := 0 } :
      Proxy χ).canCloseOrEnqueue = false := Bool.and_false _
  refine ⟨{ s with queue, algorithms, state := .closed, requests := 0 }, ?_, ⟨hexception, hsettled,
    hcancels, StreamState.noConfusion, hone, howed, hclosing, hagain, ?_, hcancelling, given,
    dropped, ending, hf.answered, hf.output,
    fun hlive => absurd (hclosed.symm.trans hlive) Bool.false_ne_true, hf.ending⟩,
    .inr ⟨hclosed, ?_⟩⟩
  · simp only [Proxy.streamClose, hstate, decide_true, Outcome.guard_true, Outcome.ok_bind,
      Outcome.pure_eq_ok]
  · rintro (hs | hreason)
    · cases hs
    · exact absurd (h.kept.not_cancelling hstate).2 hreason
  · rcases h.phase with hlive | hended
    · cases hlive with
      | idle unread => exact absurd (hdead.symm.trans unread.live) Bool.false_ne_true
      | waiting one ready => exact absurd (hdead.symm.trans ready.live) Bool.false_ne_true
      | holding chunk frames ready => exact absurd (hdead.symm.trans ready.live) Bool.false_ne_true
      | enqueuing frames ready => exact absurd (hdead.symm.trans ready.live) Bool.false_ne_true
      | settled unread => exact absurd (hdead.symm.trans unread.live) Bool.false_ne_true
    · exact hended.pull

/-- The author reads. -/
theorem Proxied.read (h : Proxied s) (reply : Reply χ) : Ends (s.read reply) Proxied := by
  rw [Proxy.read.eq_def]
  split
  next => exact (h.same h.kept.pullAgain).callPullIfNeeded reply
  next chunk queue hstate hqueue =>
    split
    next hclosing =>
      rw [Bool.and_eq_true] at hclosing
      refine h.streamClose hstate ?_
      rw [Proxy.canCloseOrEnqueue, hclosing.1]
      rfl
    next => exact (h.same h.kept.pullAgain).callPullIfNeeded reply
  next => exact ⟨_, rfl, h⟩

/-- The author cancels. -/
theorem Proxied.cancel (h : Proxied s) (reason : JsError) : Ends (s.cancel reason) Proxied := by
  rw [Proxy.cancel]
  split
  next hstate =>
    have hidle := h.kept.not_cancelling hstate
    have hcons := h.kept.cancelling_cons (f := .cancelSteps reason) (by rintro ⟨⟩)
    obtain ⟨hexception, hsettled, -, -, hone, howed, hclosing, hagain, halgorithms, -, given,
      dropped, ending, hf⟩ := h.kept
    have hclosed : ({ s with
        state := .closed
        requests := 0
        cancelled := some reason
        frames := .cancelSteps reason :: s.frames } : Proxy χ).canCloseOrEnqueue = false :=
      Bool.and_false _
    refine ⟨{ s with
        state := .closed
        requests := 0
        cancelled := some reason
        frames := .cancelSteps reason :: s.frames }, ?_, ⟨hexception, hsettled, ?_,
      StreamState.noConfusion, hone, howed, hclosing, hagain, fun _ => halgorithms (.inl hstate),
      hcons, given, dropped, ending, hf.answered, hf.output,
      fun hlive => absurd (hclosed.symm.trans hlive) Bool.false_ne_true, hf.ending⟩,
      .inr ⟨hclosed, .inr (List.cons_ne_nil _ _)⟩⟩
    · simp only [Proxy.streamClose, hstate, decide_true, Outcome.guard_true, Outcome.ok_bind,
        Outcome.pure_eq_ok]
    · change s.cancels ++ reason :: s.frames.filterMap Frame.reason = [reason]
      rw [hidle.1, hidle.2]
      rfl
  next => exact ⟨_, rfl, h⟩

/-- A frame that has nothing to do with the cancel returns. -/
theorem Kept.pop (h : Kept s) {f : Frame χ} {frames : List (Frame χ)}
    (hframes : s.frames = f :: frames) (hreason : f.reason = none) : Kept { s with frames } := by
  obtain ⟨hexception, hsettled, hcancels, huncancelled, hone, howed, hclosing, hagain, halgorithms,
    hcancelling, given, dropped, ending, hf⟩ := h
  rw [hframes, List.filterMap_cons_none hreason] at hcancels halgorithms
  refine ⟨hexception, hsettled, hcancels, huncancelled, le_trans ?_ hone, howed, hclosing, hagain,
    halgorithms, fun hmem => hcancelling ?_, given, dropped, ending, hf.answered, hf.output,
    hf.live, hf.ending⟩
  · rw [hframes]
    refine Nat.add_le_add_left ?_ _
    cases hchunk : f.chunk with
    | none => rw [List.filterMap_cons_none hchunk]
    | some chunk =>
      rw [List.filterMap_cons_some hchunk]
      exact Nat.le_succ _
  · rw [hframes]
    exact List.mem_cons_of_mem _ hmem

/-- The read of the original hands over its chunk. -/
theorem Proxied.returns_held (h : Proxied s) {chunk : χ} {frames : List (Frame χ)}
    (hframes : s.frames = .held chunk :: frames) :
    Ends ({ s with frames }.chunkStep chunk) Proxied := by
  refine (h.kept.pop hframes rfl).chunkStep ?_ chunk
  rcases h.phase with hlive | hended
  · left
    cases hlive with
    | holding chunk' frames' ready =>
      rw [hframes] at frames'
      cases frames'
      exact ready
    | idle unread => rw [unread.frames] at hframes; cases hframes
    | waiting one ready => rw [show s.frames = [] from ready.frames] at hframes; cases hframes
    | enqueuing frames' ready => rcases frames' with h' | h' <;> rw [hframes] at h' <;> cases h'
    | settled unread => rw [unread.frames] at hframes; cases hframes
  · exact .inr hended.dead

/-- The chunk is with a reader: the pull is settled after the next one is asked for. -/
theorem Proxied.returns_enqueued (h : Proxied s) {frames : List (Frame χ)}
    (hframes : s.frames = .enqueued :: frames) :
    Proxied { s with frames := .settling :: frames } := by
  have hkept := h.kept.pop hframes rfl
  refine ⟨⟨hkept.exception, hkept.settled, hkept.cancels, hkept.uncancelled, hkept.oneRead,
    hkept.owed,
    hkept.closing, hkept.pullAgain, hkept.algorithms, hkept.cancelling_cons (by rintro ⟨⟩),
    ?_⟩, ?_⟩
  · obtain ⟨given, dropped, ending, hf⟩ := hkept.forwarded
    exact ⟨given, dropped, ending, hf.answered, hf.output, hf.live, hf.ending⟩
  · rcases h.phase with hlive | hended
    · left
      cases hlive with
      | enqueuing frames' ready =>
        rcases frames' with h' | h'
        · rw [hframes] at h'
          cases h'
          exact .enqueuing (.inr rfl) ⟨ready.live, ready.algorithms, rfl, ready.waiting,
            ready.pulling, ready.currentPull, ready.jobs⟩
        · rw [hframes] at h'
          cases h'
      | idle unread => rw [unread.frames] at hframes; cases hframes
      | waiting one ready => rw [show s.frames = [] from ready.frames] at hframes; cases hframes
      | holding chunk frames' => rw [hframes] at frames'; cases frames'
      | settled unread => rw [unread.frames] at hframes; cases hframes
    · exact .inr ⟨hended.dead, .inr (List.cons_ne_nil _ _)⟩

/-- The pull is settled. -/
theorem Proxied.returns_settling (h : Proxied s) {frames : List (Frame χ)}
    (hframes : s.frames = .settling :: frames) : Proxied { s with frames }.settlePull := by
  have hkept := h.kept.pop hframes rfl
  rcases h.phase with hlive | hended
  · refine ⟨hkept.settlePull, .inl ?_⟩
    cases hlive with
    | enqueuing frames' ready =>
      rcases frames' with h' | h'
      · rw [hframes] at h'
        cases h'
      · rw [hframes] at h'
        cases h'
        obtain ⟨pull, hpull⟩ := Option.ne_none_iff_exists'.mp ready.currentPull
        rw [Proxy.settlePull_some hpull]
        refine .settled ⟨ready.live, ready.algorithms, rfl, ready.waiting, rfl⟩ ready.pulling ?_
        change (s.jobs ++ [Job.pullFulfilled]).count .pullFulfilled = 1
        rw [List.count_append, show s.jobs.count .pullFulfilled = 0 from ready.jobs]
        rfl
    | idle unread => rw [unread.frames] at hframes; cases hframes
    | waiting one ready => rw [show s.frames = [] from ready.frames] at hframes; cases hframes
    | holding chunk frames' => rw [hframes] at frames'; cases frames'
    | settled unread => rw [unread.frames] at hframes; cases hframes
  · exact hkept.ended hended.dead

/-- Only a proxy that has ended is being cancelled. -/
theorem Proxied.ended_of_reason (h : Proxied s) {f : Frame χ} {frames : List (Frame χ)}
    (hframes : s.frames = f :: frames) (hf : f = .cancelled ∨ f.reason ≠ none) : Ended s := by
  rcases h.phase with hlive | hended
  · cases hlive with
    | enqueuing frames' ready =>
      rcases frames' with h' | h' <;> rw [hframes] at h' <;> cases h' <;>
        rcases hf with hf | hf <;> first | cases hf | exact absurd rfl hf
    | holding chunk frames' =>
      rw [hframes] at frames'
      cases frames'
      rcases hf with hf | hf
      · cases hf
      · exact absurd rfl hf
    | idle unread => rw [unread.frames] at hframes; cases hframes
    | waiting one ready => rw [show s.frames = [] from ready.frames] at hframes; cases hframes
    | settled unread => rw [unread.frames] at hframes; cases hframes
  · exact hended

/-- A readable original of a proxy that cannot be fed closes. -/
theorem Kept.sourceClose_dead (h : Kept s) (hsource : s.source = .readable)
    (hdead : s.canCloseOrEnqueue = false) :
    Ends s.sourceClose fun t => Kept t ∧ t.canCloseOrEnqueue = false ∧ t.cancels = s.cancels := by
  have hkept := h.ends hsource .closed
  rw [Proxy.sourceClose]
  by_cases hwaiting : s.waiting = 0
  · rw [hwaiting]
    exact ⟨_, rfl, hkept, hdead, rfl⟩
  · have hone : s.waiting = 1 := by
      have := h.oneRead
      omega
    rw [hone]
    refine ⟨_, Proxy.closeStep_dead hdead hkept.exception, hkept.settlePull, ?_, ?_⟩ <;>
      rw [Proxy.settlePull.eq_def] <;> split
    · exact hdead
    · exact hdead
    · rfl
    · rfl

private theorem cancelSteps_readable (hsource : s.source = .readable)
    (halgorithms : s.algorithms = true) (reason : JsError) : s.cancelSteps reason =
      { s with queue := [], cancels := s.cancels ++ [reason] }.sourceClose >>= fun t =>
        .ok { t with frames := .cancelled :: t.frames } := by
  obtain ⟨⟩ := s
  cases hsource
  cases halgorithms
  rfl

private theorem cancelSteps_ended (hsource : s.source ≠ .readable)
    (halgorithms : s.algorithms = true) (reason : JsError) : s.cancelSteps reason = .ok { s with
      queue := []
      cancels := s.cancels ++ [reason]
      frames := .cancelled :: s.frames } := by
  obtain ⟨source⟩ := s
  cases halgorithms
  cases source with
  | readable => exact absurd rfl hsource
  | closed => rfl
  | errored e => rfl

/-- The original is cancelled. Its request that waits has its close step performed, which is
ignored. -/
theorem Proxied.returns_cancelSteps (h : Proxied s) {reason : JsError} {frames : List (Frame χ)}
    (hframes : s.frames = .cancelSteps reason :: frames) :
    Ends ({ s with frames }.cancelSteps reason) Proxied := by
  have hended := h.ended_of_reason hframes (.inr (Option.some_ne_none reason))
  have halgorithms : s.algorithms = true :=
    h.kept.algorithms (.inr (by rw [hframes]; exact List.cons_ne_nil _ _))
  obtain ⟨hexception, hsettled, hcancels, huncancelled, hone, howed, hclosing, hagain, -,
    hcancelling, given, dropped, ending, hf⟩ := h.kept
  rw [hframes] at hcancels hone
  have hcancelled :
      s.cancels ++ [reason] ++ frames.filterMap Frame.reason = s.cancelled.toList := by
    rw [List.append_assoc]
    exact hcancels
  have hkept : Kept { s with frames, queue := [], cancels := s.cancels ++ [reason] } := by
    refine ⟨hexception, hsettled, hcancelled, huncancelled, hone, howed, hclosing, hagain,
      fun _ => halgorithms, fun _ => ?_, given, dropped, ending, hf.answered, hf.output, hf.live,
      hf.ending⟩
    exact List.append_ne_nil_of_right_ne_nil _ (List.cons_ne_nil _ _)
  have hpush {t : Proxy χ} (ht : Kept t) (hdead : t.canCloseOrEnqueue = false)
      (hcancels : t.cancels ≠ []) : Proxied { t with frames := .cancelled :: t.frames } := by
    obtain ⟨given, dropped, ending, hf⟩ := ht.forwarded
    exact ⟨⟨ht.exception, ht.settled, ht.cancels, ht.uncancelled, ht.oneRead, ht.owed, ht.closing,
      ht.pullAgain, ht.algorithms, fun _ => hcancels, given, dropped, ending, hf.answered,
      hf.output, hf.live, hf.ending⟩, .inr ⟨hdead, .inr (List.cons_ne_nil _ _)⟩⟩
  have hsome : s.cancels ++ [reason] ≠ [] :=
    List.append_ne_nil_of_right_ne_nil _ (List.cons_ne_nil _ _)
  by_cases hsource : s.source = .readable
  · obtain ⟨t, hclose, ht, hdead, hkeeps⟩ := hkept.sourceClose_dead hsource hended.dead
    rw [cancelSteps_readable (s := { s with frames }) hsource halgorithms, hclose]
    exact ⟨_, rfl, hpush ht hdead (by rw [hkeeps]; exact hsome)⟩
  · rw [cancelSteps_ended (s := { s with frames }) hsource halgorithms]
    exact ⟨_, rfl, hpush hkept hended.dead hsome⟩

/-- The cancel of the original has returned. -/
theorem Proxied.returns_cancelled (h : Proxied s) {frames : List (Frame χ)}
    (hframes : s.frames = .cancelled :: frames) :
    Proxied { { s with frames }.settlePull with algorithms := false } := by
  have hended := h.ended_of_reason hframes (.inl rfl)
  have hkept := h.kept.pop hframes rfl
  have hcancels : s.cancels ≠ [] := h.kept.cancelling (by rw [hframes]; exact List.mem_cons_self)
  -- The one reason there is has been used, and the proxy is closed.
  have hnone : s.state ≠ .readable ∧ frames.filterMap Frame.reason = [] := by
    refine ⟨fun hstate => hcancels (h.kept.not_cancelling hstate).1, ?_⟩
    have hone : (s.cancels ++ frames.filterMap Frame.reason).length ≤ 1 := by
      rw [show s.cancels ++ frames.filterMap Frame.reason = s.cancelled.toList from hkept.cancels]
      cases s.cancelled <;> simp
    rw [List.length_append] at hone
    have hpos := List.length_pos_iff.mpr hcancels
    exact List.eq_nil_of_length_eq_zero (by omega)
  have hkept := hkept.settlePull
  obtain ⟨hdead, hpull⟩ := ended_settlePull (s := { s with frames }) hended.dead
  have hsame : ({ s with frames } : Proxy χ).settlePull.state = s.state ∧
      ({ s with frames } : Proxy χ).settlePull.frames = frames := by
    rw [Proxy.settlePull.eq_def]
    split <;> exact ⟨rfl, rfl⟩
  obtain ⟨given, dropped, ending, hf⟩ := hkept.forwarded
  refine ⟨⟨hkept.exception, hkept.settled, hkept.cancels, hkept.uncancelled, hkept.oneRead,
    hkept.owed,
    hkept.closing, hkept.pullAgain, ?_, hkept.cancelling, given, dropped, ending, hf.answered,
    hf.output, hf.live, hf.ending⟩, ?_⟩
  · rintro (hstate | hreason)
    · exact absurd (hsame.1.symm.trans hstate) hnone.1
    · exact absurd ((congrArg _ hsame.2).trans hnone.2) hreason
  · exact .inr ⟨hdead, hpull⟩

/-- The author's code returns. -/
theorem Proxied.returns (h : Proxied s) (reply : Reply χ) : Ends (s.returns reply) Proxied := by
  rw [Proxy.returns.eq_def]
  split
  next => exact ⟨_, rfl, h⟩
  next chunk frames hframes => exact h.returns_held hframes
  next frames hframes => exact (h.returns_enqueued hframes).callPullIfNeeded reply
  next frames hframes => exact ⟨_, rfl, h.returns_settling hframes⟩
  next reason frames hframes => exact h.returns_cancelSteps hframes
  next frames hframes => exact ⟨_, rfl, h.returns_cancelled hframes⟩

/-- A request that waits is answered with a chunk. -/
theorem Proxied.delivers (h : Proxied s) (hwaiting : 0 < s.waiting) (chunk : χ) :
    Ends ({ s with waiting := s.waiting - 1 }.chunkStep chunk) Proxied := by
  have hone : s.waiting = 1 := by
    have := h.kept.oneRead
    omega
  obtain ⟨hexception, hsettled, hcancels, huncancelled, hreads, howed, hclosing, hagain,
    halgorithms, hcancelling, given, dropped, ending, hf⟩ := h.kept
  refine Kept.chunkStep (s := { s with waiting := s.waiting - 1 }) ⟨hexception, hsettled, hcancels,
    huncancelled, ?_, fun _ => howed hwaiting, hclosing, hagain, halgorithms, hcancelling, given,
    dropped, ending, hf.answered, hf.output, hf.live, hf.ending⟩ ?_ chunk
  · exact (Nat.add_le_add_right (Nat.sub_le _ _) _).trans hreads
  · rcases h.phase with hlive | hended
    · left
      cases hlive with
      | waiting _ ready =>
        rw [hone]
        exact ready
      | idle unread => exact absurd unread.waiting hwaiting.ne'
      | holding chunk frames ready => exact absurd ready.waiting hwaiting.ne'
      | enqueuing frames ready => exact absurd ready.waiting hwaiting.ne'
      | settled unread => exact absurd unread.waiting hwaiting.ne'
    · exact .inr hended.dead

/-- The controller has started. -/
theorem Proxied.started (h : Proxied s) {jobs : List Job} (hjobs : s.jobs = .started :: jobs) :
    Proxied { s with jobs, started := true } := by
  obtain ⟨hexception, hsettled, hcancels, huncancelled, hone, howed, hclosing, hagain, halgorithms,
    hcancelling, given, dropped, ending, hf⟩ := h.kept
  refine ⟨⟨hexception, hsettled, hcancels, huncancelled, hone, howed, hclosing, hagain, halgorithms,
    hcancelling, given, dropped, ending, hf.answered, hf.output, hf.live, hf.ending⟩, ?_⟩
  have hcount {n : ℕ} (hn : s.jobs.count .pullFulfilled = n) : jobs.count .pullFulfilled = n := by
    rw [← hn, hjobs]
    rfl
  have hready {s' : Proxy χ} (hr : Ready s') (hs : s'.jobs = s.jobs) :
      Ready { s' with jobs, started := true } :=
    ⟨hr.live, hr.algorithms, hr.frames, hr.waiting, hr.pulling, hr.currentPull,
      hcount (hs ▸ hr.jobs)⟩
  have hunread (hu : Unread s) : Unread { s with jobs, started := true } :=
    ⟨hu.live, hu.algorithms, hu.frames, hu.waiting, hu.currentPull⟩
  rcases h.phase with hlive | hended
  · left
    cases hlive with
    | idle unread pulling hj => exact .idle (hunread unread) pulling (hcount hj)
    | waiting one ready => exact .waiting one (hready ready rfl)
    | holding chunk frames ready => exact .holding chunk frames (hready ready rfl)
    | enqueuing frames ready => exact .enqueuing frames (hready ready rfl)
    | settled unread pulling hj => exact .settled (hunread unread) pulling (hcount hj)
  · exact .inr ⟨hended.dead, hended.pull⟩

/-- The pull is over. -/
theorem Proxied.pulled (h : Proxied s) {jobs : List Job} (hjobs : s.jobs = .pullFulfilled :: jobs)
    {pullAgain : Bool} (hagain : pullAgain = false) :
    Proxied { s with jobs, pulling := false, pullAgain } := by
  obtain ⟨hexception, hsettled, hcancels, huncancelled, hone, howed, hclosing, -, halgorithms,
    hcancelling, given, dropped, ending, hf⟩ := h.kept
  refine ⟨⟨hexception, hsettled, hcancels, huncancelled, hone, howed, hclosing,
    fun ha => absurd (hagain.symm.trans ha) Bool.false_ne_true, halgorithms, hcancelling, given,
    dropped, ending, hf.answered, hf.output, hf.live, hf.ending⟩, ?_⟩
  have hcount : s.jobs.count .pullFulfilled = jobs.count .pullFulfilled + 1 := by
    rw [hjobs, List.count_cons_self]
  rcases h.phase with hlive | hended
  · left
    cases hlive with
    | settled unread pulling hj =>
      refine .idle ⟨unread.live, unread.algorithms, unread.frames, unread.waiting,
        unread.currentPull⟩ rfl ?_
      change jobs.count .pullFulfilled = 0
      omega
    | idle unread pulling hj => exact absurd (hcount.symm.trans hj) (Nat.succ_ne_zero _)
    | waiting one ready => exact absurd (hcount.symm.trans ready.jobs) (Nat.succ_ne_zero _)
    | holding chunk frames ready =>
      exact absurd (hcount.symm.trans ready.jobs) (Nat.succ_ne_zero _)
    | enqueuing frames ready => exact absurd (hcount.symm.trans ready.jobs) (Nat.succ_ne_zero _)
  · exact .inr ⟨hended.dead, hended.pull⟩

/-- A job runs. -/
theorem Proxied.run (h : Proxied s) {job : Job} {jobs : List Job} (hjobs : s.jobs = job :: jobs)
    (reply : Reply χ) : Ends ({ s with jobs }.run reply job) Proxied := by
  cases job with
  | started => exact (h.started hjobs).callPullIfNeeded reply
  | pullFulfilled =>
    rw [Proxy.run]
    dsimp only
    split
    next => exact (h.pulled hjobs rfl).callPullIfNeeded reply
    next hagain => exact ⟨_, rfl, h.pulled hjobs (Bool.eq_false_iff.mpr hagain)⟩

/-- **A step of the proxy or of the original.** No assertion fails in it. -/
theorem Proxied.step (h : Proxied s) (ev : Event χ) : Ends (s.step ev) Proxied := by
  cases ev with
  | read reply => exact h.read reply
  | release => exact ⟨_, rfl, h.same h.kept.pullAgain⟩
  | cancel reason => exact h.cancel reason
  | returns reply => exact h.returns reply
  | delivers chunk =>
    rw [Proxy.step]
    split
    next hdelivers =>
      rw [Bool.and_eq_true, decide_eq_true_eq, decide_eq_true_eq] at hdelivers
      exact h.delivers hdelivers.2 chunk
    next => exact ⟨_, rfl, h⟩
  | closes =>
    rw [Proxy.step]
    split
    next hsource => exact h.sourceClose hsource
    next => exact ⟨_, rfl, h⟩
  | errors e =>
    rw [Proxy.step]
    split
    next hsource => exact h.sourceError hsource e
    next => exact ⟨_, rfl, h⟩
  | job reply =>
    rw [Proxy.step.eq_def]
    rcases hjobs : s.jobs with _ | ⟨job, jobs⟩
    · exact ⟨_, rfl, h⟩
    · exact h.run hjobs reply

/-- The invariant holds in every run. -/
theorem of_run {source : Source} (hrun : (proxyMachine χ).Run (.initial source) s) : Proxied s := by
  refine hrun.inv ?_ fun s ev t hs _ ht => ?_
  · exact ⟨⟨rfl, rfl, rfl, fun _ => rfl, Nat.zero_le _, fun hw => absurd hw (Nat.lt_irrefl 0),
      fun hc => Bool.noConfusion hc, fun ha => Bool.noConfusion ha, fun _ => rfl,
      fun hmem => absurd hmem List.not_mem_nil,
      ⟨[], [], [], rfl, rfl, fun _ => ⟨rfl, rfl⟩, .inl rfl⟩⟩,
      .inl (.idle ⟨rfl, rfl, rfl, rfl, rfl⟩ rfl rfl)⟩
  · obtain ⟨u, hstep, hu⟩ := hs.step ev
    obtain rfl : u = t := by
      have hstate : (s.step ev).state? = some t := ht
      rw [hstep] at hstate
      exact Option.some.inj hstate
    exact hu

/-! ### What a step feeds to the proxy -/

/-- What a call that makes no pull leaves as it is. -/
structure SamePulls (s t : Proxy χ) : Prop where
  pulls : t.pulls = s.pulls
  /-- A proxy that cannot be fed is fed nothing. -/
  dead : s.canCloseOrEnqueue = false → t.canCloseOrEnqueue = false ∧ t.output = s.output

/-- The proxy is closed, or is closing if chunks are queued, or is errored as the original is. -/
def PassesOn (s t : Proxy χ) : Source → Prop
  | .readable => True
  | .closed => t.output = s.output ++ [.closed] ∧ t.closeRequested = true ∧
    (t.queue = [] → t.state = .closed)
  | .errored e => t.output = s.output ++ [.errored e] ∧ t.state = .errored

/-- What a step does: a pull that it makes passes on the end of an original that has ended. -/
structure Stepped (s t : Proxy χ) : Prop where
  pulls : t.pulls = s.pulls ∨ PassesOn s t s.source
  dead : s.canCloseOrEnqueue = false → t.canCloseOrEnqueue = false ∧ t.output = s.output

theorem SamePulls.stepped (h : SamePulls s t) : Stepped s t := ⟨.inl h.pulls, h.dead⟩

theorem SamePulls.refl (s : Proxy χ) : SamePulls s s := ⟨rfl, fun hdead => ⟨hdead, rfl⟩⟩

theorem SamePulls.trans {u : Proxy χ} (h : SamePulls s t) (h' : SamePulls t u) : SamePulls s u :=
  ⟨h'.pulls.trans h.pulls, fun hdead =>
    ⟨(h'.dead (h.dead hdead).1).1, (h'.dead (h.dead hdead).1).2.trans (h.dead hdead).2⟩⟩

theorem samePulls_settlePull (s : Proxy χ) : SamePulls s s.settlePull := by
  rw [Proxy.settlePull.eq_def]
  split <;> exact ⟨rfl, fun hdead => ⟨hdead, rfl⟩⟩

theorem samePulls_chunkStep (hexception : s.exception = false) (chunk : χ) :
    Ends (s.chunkStep chunk) (SamePulls s) := by
  cases hlive : s.canCloseOrEnqueue with
  | true =>
    obtain ⟨requests, queue, hstep⟩ := Proxy.chunkStep_live hlive chunk
    exact ⟨_, hstep, rfl, fun hdead => absurd (hdead.symm.trans hlive) Bool.false_ne_true⟩
  | false =>
    have hdrop : SamePulls s { s with answered := s.answered ++ [chunk] } :=
      ⟨rfl, fun hdead => ⟨hdead, rfl⟩⟩
    exact ⟨_, Proxy.chunkStep_dead hlive hexception chunk, hdrop.trans (samePulls_settlePull _)⟩

theorem samePulls_closeStep (hexception : s.exception = false) :
    Ends s.closeStep (SamePulls s) := by
  cases hlive : s.canCloseOrEnqueue with
  | true =>
    obtain ⟨state, requests, algorithms, hstep, -⟩ := Proxy.closeStep_live hlive
    exact ⟨_, hstep, rfl, fun hdead => absurd (hdead.symm.trans hlive) Bool.false_ne_true⟩
  | false => exact ⟨_, Proxy.closeStep_dead hlive hexception, samePulls_settlePull s⟩

theorem samePulls_errorStep (hlive : s.state = .readable → s.canCloseOrEnqueue = true)
    (e : JsError) : Ends (s.errorStep e) (SamePulls s) := by
  by_cases hstate : s.state = .readable
  · refine ⟨_, Proxy.errorStep_readable hstate e, (samePulls_settlePull _).pulls, fun hdead => ?_⟩
    exact absurd (hdead.symm.trans (hlive hstate)) Bool.false_ne_true
  · exact ⟨_, Proxy.errorStep_dead hstate e, samePulls_settlePull s⟩

/-- The steps for the request that waits when the original closes or errors. -/
theorem samePulls_ends (steps : Proxy χ → Proxy.Call χ Empty (Proxy χ)) {n : ℕ} (hn : n ≤ 1)
    (hst : SamePulls s t) (hsteps : Ends (steps t) (SamePulls t)) :
    Ends ((fun s : Proxy.Call χ Empty (Proxy χ) => s >>= steps)^[n] (pure t)) (SamePulls s) := by
  rcases Nat.le_one_iff_eq_zero_or_eq_one.mp hn with rfl | rfl
  · exact ⟨t, rfl, hst⟩
  · obtain ⟨u, hu, hsame⟩ := hsteps
    exact ⟨u, hu, hst.trans hsame⟩

theorem samePulls_sourceClose (hwaiting : s.waiting ≤ 1) (hexception : s.exception = false) :
    Ends s.sourceClose (SamePulls s) :=
  samePulls_ends Proxy.closeStep hwaiting (t := { s with source := .closed, waiting := 0 })
    ⟨rfl, fun hdead => ⟨hdead, rfl⟩⟩ (samePulls_closeStep hexception)

theorem samePulls_sourceError (h : Kept s) (hsource : s.source = .readable) (e : JsError) :
    Ends (s.sourceError e) (SamePulls s) :=
  samePulls_ends (fun s => s.errorStep e) ((Nat.le_add_right _ _).trans h.oneRead)
    (t := { s with source := .errored e, waiting := 0 }) ⟨rfl, fun hdead => ⟨hdead, rfl⟩⟩
    (samePulls_errorStep (s := { s with source := .errored e, waiting := 0 })
      (fun hstate => h.live_of_readable hsource hstate) e)

theorem Ends.of_ok {call : Proxy.Call χ Empty (Proxy χ)} {P : Proxy χ → Prop} (h : Ends call P)
    (ht : call = .ok t) : P t := by
  obtain ⟨u, hu, hP⟩ := h
  obtain rfl := Outcome.ok.inj (hu.symm.trans ht)
  exact hP

theorem PassesOn.congr {u : Proxy χ} {source : Source} (h : PassesOn u t source)
    (houtput : u.output = s.output) : PassesOn s t source := by
  cases source with
  | readable => trivial
  | closed => exact ⟨houtput ▸ h.1, h.2⟩
  | errored e => exact ⟨houtput ▸ h.1, h.2⟩

theorem passesOn_settlePull {source : Source} (h : PassesOn s t source) :
    PassesOn s t.settlePull source := by
  rw [Proxy.settlePull]
  cases t.currentPull with
  | none => exact h
  | some pull => cases source <;> exact h

/-- The close step of a request of a proxy that can be fed. -/
theorem passesOn_closeStep (hlive : s.canCloseOrEnqueue = true) (ht : s.closeStep = .ok t) :
    PassesOn s t .closed ∧ t.source = s.source := by
  obtain ⟨state, requests, algorithms, hstep, -, -, hclosed⟩ := Proxy.closeStep_live hlive
  rw [hstep] at ht
  cases ht
  exact ⟨⟨rfl, rfl, hclosed⟩, rfl⟩

/-- The error step of one. -/
theorem passesOn_errorStep (hlive : s.canCloseOrEnqueue = true) {e : JsError}
    (ht : s.errorStep e = .ok t) : PassesOn s t (.errored e) ∧ t.source = s.source := by
  have hstate : s.state = .readable := by
    rw [Proxy.canCloseOrEnqueue, Bool.and_eq_true, decide_eq_true_eq] at hlive
    exact hlive.2
  rw [Proxy.errorStep_readable hstate] at ht
  cases ht
  refine ⟨passesOn_settlePull ⟨rfl, rfl⟩, ?_⟩
  rw [Proxy.settlePull]
  cases s.currentPull <;> rfl

/-- The end of the original is passed on by a pull. -/
theorem stepped_proxyPull (hlive : s.canCloseOrEnqueue = true) {reply : Reply χ}
    (ht : s.proxyPull reply = .ok t) : PassesOn s t s.source := by
  rw [Proxy.proxyPull] at ht
  cases hsource : s.source with
  | readable => trivial
  | closed =>
    rw [nativeReaderRead_closed (s := { s with currentPull := some s.pulls, pulls := s.pulls + 1 })
      hsource] at ht
    exact (passesOn_closeStep (s := { s with currentPull := some s.pulls, pulls := s.pulls + 1 })
      hlive ht).1.congr rfl
  | errored e =>
    rw [nativeReaderRead_errored (s := { s with currentPull := some s.pulls, pulls := s.pulls + 1 })
      hsource] at ht
    exact (passesOn_errorStep (s := { s with currentPull := some s.pulls, pulls := s.pulls + 1 })
      hlive ht).1.congr rfl

/-- The pull that a step makes. -/
theorem stepped_callPullIfNeeded {reply : Reply χ} (ht : s.callPullIfNeeded reply = .ok t) :
    Stepped s t := by
  rw [Proxy.callPullIfNeeded] at ht
  split at ht
  next => cases ht; exact (SamePulls.refl s).stepped
  next hwanted =>
    have hwanted : s.shouldCallPull = true := by simpa using hwanted
    rw [Proxy.shouldCallPull, Bool.and_eq_true, Bool.and_eq_true] at hwanted
    obtain ⟨⟨hlive, -⟩, -⟩ := hwanted
    refine ⟨?_, fun hdead => absurd (hdead.symm.trans hlive) Bool.false_ne_true⟩
    split at ht
    next => cases ht; exact .inl rfl
    next =>
      cases hagain : s.pullAgain with
      | true => rw [hagain] at ht; cases ht
      | false =>
        have hguard : (Outcome.guard (!s.pullAgain) .pullAgain : Proxy.Call χ Empty Unit) =
            .ok () := by
          rw [hagain]
          rfl
        rw [hguard, Outcome.ok_bind] at ht
        dsimp only at ht
        split at ht
        next =>
          exact .inr ((stepped_proxyPull (s := { s with pulling := true }) hlive ht).congr rfl)
        next => cases ht; exact .inl rfl

/-- What changes before the pull that a step makes. -/
theorem Stepped.after {u : Proxy χ} (hu : Stepped u t) (hpulls : u.pulls = s.pulls)
    (hsource : u.source = s.source) (houtput : u.output = s.output)
    (hdead : s.canCloseOrEnqueue = false → u.canCloseOrEnqueue = false) : Stepped s t := by
  refine ⟨?_, fun hs => ?_⟩
  · rw [← hpulls, ← hsource]
    exact hu.pulls.imp_right fun hends => hends.congr houtput
  · rw [← houtput]
    exact hu.dead (hdead hs)

/-- **What a step feeds to the proxy.** -/
theorem Proxied.stepped (h : Proxied s) {ev : Event χ} (ht : s.step ev = .ok t) : Stepped s t := by
  have hwaiting : s.waiting ≤ 1 := (Nat.le_add_right _ _).trans h.kept.oneRead
  cases ev with
  -- only a read may make the proxy pull, and only while it lives
  | read reply =>
    rw [Proxy.step, Proxy.read.eq_def] at ht
    split at ht
    next => exact (stepped_callPullIfNeeded ht).after rfl rfl rfl id
    next chunk queue hstate hqueue =>
      split at ht
      next =>
        simp only [Proxy.streamClose, hstate, decide_true, Outcome.guard_true, Outcome.ok_bind,
          Outcome.pure_eq_ok] at ht
        cases ht
        exact ⟨.inl rfl, fun _ => ⟨Bool.and_false _, rfl⟩⟩
      next => exact (stepped_callPullIfNeeded ht).after rfl rfl rfl id
    next => cases ht; exact (SamePulls.refl s).stepped
  | release => cases ht; exact ⟨.inl rfl, fun hdead => ⟨hdead, rfl⟩⟩
  | cancel reason =>
    rw [Proxy.step, Proxy.cancel] at ht
    split at ht
    next hstate =>
      simp only [Proxy.streamClose, hstate, decide_true, Outcome.guard_true, Outcome.ok_bind,
        Outcome.pure_eq_ok] at ht
      cases ht
      exact ⟨.inl rfl, fun _ => ⟨Bool.and_false _, rfl⟩⟩
    next => cases ht; exact (SamePulls.refl s).stepped
  | returns reply =>
    rw [Proxy.step, Proxy.returns.eq_def] at ht
    split at ht
    next => cases ht; exact (SamePulls.refl s).stepped
    next chunk frames hframes =>
      exact ((samePulls_chunkStep (s := { s with frames }) h.kept.exception chunk).of_ok ht
        |>.stepped).after rfl rfl rfl id
    next frames hframes => exact (stepped_callPullIfNeeded ht).after rfl rfl rfl id
    next frames hframes =>
      cases ht
      exact (samePulls_settlePull { s with frames }).stepped.after rfl rfl rfl id
    -- a cancel ends the source, which may settle the read under way
    next reason frames hframes =>
      have halgorithms : s.algorithms = true :=
        h.kept.algorithms (.inr (by rw [hframes]; exact List.cons_ne_nil _ _))
      by_cases hsource : s.source = .readable
      · obtain ⟨u, hu, hsame⟩ := samePulls_sourceClose (s := { s with
          frames, queue := [], cancels := s.cancels ++ [reason] }) hwaiting h.kept.exception
        rw [cancelSteps_readable (s := { s with frames }) hsource halgorithms, hu] at ht
        cases ht
        exact ⟨.inl hsame.pulls, hsame.dead⟩
      · rw [cancelSteps_ended (s := { s with frames }) hsource halgorithms] at ht
        cases ht
        exact ⟨.inl rfl, fun hdead => ⟨hdead, rfl⟩⟩
    next frames hframes =>
      cases ht
      have hsame := samePulls_settlePull { s with frames }
      exact ⟨.inl hsame.pulls, hsame.dead⟩
  | delivers chunk =>
    rw [Proxy.step] at ht
    split at ht
    next =>
      exact ((samePulls_chunkStep (s := { s with waiting := s.waiting - 1 }) h.kept.exception
        chunk).of_ok ht |>.stepped).after rfl rfl rfl id
    next => cases ht; exact (SamePulls.refl s).stepped
  | closes =>
    rw [Proxy.step] at ht
    split at ht
    next => exact ((samePulls_sourceClose hwaiting h.kept.exception).of_ok ht).stepped
    next => cases ht; exact (SamePulls.refl s).stepped
  | errors e =>
    rw [Proxy.step] at ht
    split at ht
    next hsource => exact ((samePulls_sourceError h.kept hsource e).of_ok ht).stepped
    next => cases ht; exact (SamePulls.refl s).stepped
  -- a reaction of a pull may pull again
  | job reply =>
    rw [Proxy.step.eq_def] at ht
    rcases hjobs : s.jobs with _ | ⟨_ | _, jobs⟩
    · rw [hjobs] at ht
      cases ht
      exact (SamePulls.refl s).stepped
    · rw [hjobs] at ht
      exact (stepped_callPullIfNeeded ht).after rfl rfl rfl id
    · rw [hjobs] at ht
      dsimp only [Proxy.run] at ht
      split at ht
      next => exact (stepped_callPullIfNeeded ht).after rfl rfl rfl id
      next => cases ht; exact ⟨.inl rfl, fun hdead => ⟨hdead, rfl⟩⟩

/-- A pull that is in flight leaves the original alone. -/
private theorem callPullIfNeeded_pulling (hpulling : s.pulling = true) {reply : Reply χ}
    (ht : s.callPullIfNeeded reply = .ok t) : t.source = s.source := by
  rw [Proxy.callPullIfNeeded, if_pos hpulling] at ht
  split at ht <;> cases ht <;> rfl

/-- **What answers the read that waits**: an original that ends in a step has its end passed on. -/
theorem Proxied.answers (h : Proxied s) (hwaiting : s.waiting = 1)
    (hlive : s.canCloseOrEnqueue = true) {ev : Event χ} (ht : s.step ev = .ok t) :
    PassesOn s t t.source := by
  have hsource : s.source = .readable := h.kept.owed (by omega)
  have ready : Ready { s with waiting := 0 } := by
    rcases h.phase with hphase | hended
    · cases hphase with
      | waiting one ready => exact ready
      | idle unread => exact absurd (unread.waiting.symm.trans hwaiting) Nat.zero_ne_one
      | holding chunk frames ready =>
        exact absurd (ready.waiting.symm.trans hwaiting) Nat.zero_ne_one
      | enqueuing frames ready => exact absurd (ready.waiting.symm.trans hwaiting) Nat.zero_ne_one
      | settled unread => exact absurd (unread.waiting.symm.trans hwaiting) Nat.zero_ne_one
    · exact absurd (hended.dead.symm.trans hlive) Bool.false_ne_true
  have hpulling : s.pulling = true := ready.pulling
  -- Every event but the end of the original leaves it readable.
  have hsame (hs : t.source = s.source) : PassesOn s t t.source := by
    rw [hs, hsource]
    trivial
  cases ev with
  | read reply =>
    rw [Proxy.step, Proxy.read.eq_def] at ht
    split at ht
    next => exact hsame (callPullIfNeeded_pulling (s := { s with requests := s.requests + 1 })
      hpulling ht)
    next chunk queue hstate hqueue =>
      split at ht
      next hclosing =>
        rw [Proxy.canCloseOrEnqueue, (Bool.and_eq_true _ _).mp hclosing |>.1] at hlive
        cases hlive
      next => exact hsame (callPullIfNeeded_pulling (s := { s with queue }) hpulling ht)
    next => cases ht; exact hsame rfl
  | release => cases ht; exact hsame rfl
  | cancel reason =>
    rw [Proxy.step, Proxy.cancel] at ht
    split at ht
    next hstate =>
      simp only [Proxy.streamClose, hstate, decide_true, Outcome.guard_true, Outcome.ok_bind,
        Outcome.pure_eq_ok] at ht
      cases ht
      exact hsame rfl
    next => cases ht; exact hsame rfl
  | returns reply =>
    have hframes : s.frames = [] := ready.frames
    rw [Proxy.step, Proxy.returns.eq_def, hframes] at ht
    cases ht
    exact hsame rfl
  | delivers chunk =>
    rw [Proxy.step] at ht
    split at ht
    next =>
      obtain ⟨requests, queue, hstep⟩ :=
        Proxy.chunkStep_live (s := { s with waiting := s.waiting - 1 }) hlive chunk
      rw [hstep] at ht
      cases ht
      exact hsame rfl
    next => cases ht; exact hsame rfl
  | closes =>
    rw [Proxy.step, if_pos hsource, Proxy.sourceClose, hwaiting] at ht
    obtain ⟨hends, hs⟩ :=
      passesOn_closeStep (s := { s with source := .closed, waiting := 0 }) hlive ht
    rw [hs]
    exact hends.congr rfl
  | errors e =>
    rw [Proxy.step, if_pos hsource, Proxy.sourceError, hwaiting] at ht
    obtain ⟨hends, hs⟩ :=
      passesOn_errorStep (s := { s with source := .errored e, waiting := 0 }) hlive ht
    rw [hs]
    exact hends.congr rfl
  | job reply =>
    rw [Proxy.step.eq_def] at ht
    rcases hjobs : s.jobs with _ | ⟨_ | _, jobs⟩
    · rw [hjobs] at ht
      cases ht
      exact hsame rfl
    · rw [hjobs] at ht
      exact hsame (callPullIfNeeded_pulling (s := { s with jobs, started := true }) hpulling ht)
    · -- The promise of the pull is pending, so that its reaction is not queued.
      have hcount : s.jobs.count .pullFulfilled = 0 := ready.jobs
      rw [hjobs, List.count_cons_self] at hcount
      cases hcount

/-! ### What comes of it -/

/-- The chunk that the proxy is fed. -/
def Output.chunk : Output χ → Option χ
  | .enqueued chunk => some chunk
  | _ => none

/-- How many reads of the original are outstanding: requests that wait, and chunks about to be
handed over. -/
def Proxy.outstanding (s : Proxy χ) : ℕ := s.waiting + (s.frames.filterMap Frame.chunk).length

/-- **The proxy forwards the original.** -/
structure Forwards (s : Proxy χ) : Prop where
  /-- The chunks are the original's, in order and once each, and as long as the proxy can be fed,
  none is missing. -/
  chunks : ∃ dropped, s.answered = s.output.filterMap Output.chunk ++ dropped ∧
    (s.canCloseOrEnqueue = true → dropped = [])
  one_read : s.outstanding ≤ 1
  /-- A pull that is made when the original has ended passes on its end. -/
  ends : ∀ ev t, s.step ev = .ok t → t.pulls ≠ s.pulls → PassesOn s t s.source
  /-- An original that ends while it owes the answer to a read has its end passed on as well. -/
  answers : ∀ ev t, s.step ev = .ok t → s.waiting = 1 → s.canCloseOrEnqueue = true →
    PassesOn s t t.source
  /-- A cancel of the proxy is noted. -/
  noted : ∀ reason t, s.state = .readable → s.step (.cancel reason) = .ok t →
    t.cancelled = some reason
  /-- The original is cancelled once, with that reason. -/
  cancels : s.cancels.length ≤ 1 ∧ (∀ reason ∈ s.cancels, s.cancelled = some reason) ∧
    (s.frames = [] → s.cancels = s.cancelled.toList)
  /-- After the cancel the proxy is fed nothing. -/
  silent : s.cancelled ≠ none → ∀ t, (proxyMachine χ).Run s t → t.output = s.output
  /-- The promise of each pull is settled once. The last one's is pending only while the original
  owes the answer to a read. -/
  settled : s.settled ++ s.currentPull.toList = List.range s.pulls ∧
    (s.frames = [] → s.currentPull ≠ none → s.waiting = 1 ∧ s.source = .readable)
  /-- No assertion fails, and no exception is left pending. -/
  safe : ∀ ev, ∃ t, s.step ev = .ok t ∧ t.exception = false

/-- A proxy that cannot be fed is fed nothing in any run. -/
theorem Proxied.silent (h : Proxied s) (hdead : s.canCloseOrEnqueue = false)
    (hrun : (proxyMachine χ).Run s t) : t.output = s.output := by
  have hkept := hrun.inv (I := fun u => Proxied u ∧ u.canCloseOrEnqueue = false ∧
    u.output = s.output) ⟨h, hdead, rfl⟩ fun u ev v hu _ hv => ?_
  · exact hkept.2.2
  · obtain ⟨hproxied, hdead, houtput⟩ := hu
    obtain ⟨w, hstep, hw⟩ := hproxied.step ev
    obtain rfl : w = v := by
      have hstate : (u.step ev).state? = some v := hv
      rw [hstep] at hstate
      exact Option.some.inj hstate
    obtain ⟨hdead', houtput'⟩ := (hproxied.stepped hstep).dead hdead
    exact ⟨hw, hdead', houtput'.trans houtput⟩

/-- **Every proxy forwards its original.** -/
theorem forwards {source : Source} (hrun : (proxyMachine χ).Run (.initial source) s) :
    Forwards s := by
  have h := of_run hrun
  obtain ⟨given, dropped, ending, hf⟩ := h.kept.forwarded
  have hcancelled (hs : s.cancelled ≠ none) : s.canCloseOrEnqueue = false := by
    have hstate : s.state ≠ .readable := fun hstate => hs (h.kept.uncancelled hstate)
    rw [Proxy.canCloseOrEnqueue, decide_eq_false hstate, Bool.and_false]
  refine ⟨⟨dropped, ?_, fun hlive => (hf.live hlive).1⟩, h.kept.oneRead, ?_,
    fun ev t ht hwaiting hlive => h.answers hwaiting hlive ht, ?_, ?_,
    fun hs t => h.silent (hcancelled hs), ⟨h.kept.settled, ?_⟩, fun ev => ?_⟩
  -- what came out is what was given, and then at most one end
  · have hgiven : s.output.filterMap Output.chunk = given := by
      have hchunks : (given.map Output.enqueued).filterMap Output.chunk = given := by
        rw [List.filterMap_map]
        exact List.filterMap_some
      rw [hf.output, List.filterMap_append, hchunks]
      rcases hf.ending with rfl | ⟨rfl, -⟩ | ⟨e, rfl, -⟩ <;> exact List.append_nil _
    rw [hgiven, hf.answered]
  · intro ev t ht hpulls
    exact (h.stepped ht).pulls.resolve_left hpulls
  · intro reason t hstate ht
    simp only [Proxy.step, Proxy.cancel, hstate, if_true, Proxy.streamClose, decide_true,
      Outcome.guard_true, Outcome.ok_bind, Outcome.pure_eq_ok] at ht
    cases ht
    rfl
  -- the source is cancelled at most once, for the reason given
  · have hcancels := h.kept.cancels
    cases hreason : s.cancelled with
    | none =>
      rw [hreason] at hcancels
      obtain ⟨hnone, -⟩ := List.append_eq_nil_iff.mp hcancels
      rw [hnone]
      exact ⟨Nat.zero_le _, fun _ hmem => absurd hmem List.not_mem_nil, fun _ => rfl⟩
    | some reason =>
      rw [hreason] at hcancels
      have hsublist : s.cancels <+: [reason] := ⟨_, hcancels⟩
      refine ⟨hsublist.length_le, fun reason' hmem => ?_, fun hframes => ?_⟩
      · rw [List.mem_singleton.mp (hsublist.subset hmem)]
      · rw [hframes] at hcancels
        exact (List.append_nil _).symm.trans hcancels
  -- a pull under way outside any call is a read the source owes
  · intro hframes hpull
    rcases h.phase with hlive | hended
    · cases hlive with
      | waiting one ready => exact ⟨one, h.kept.owed (by omega)⟩
      | idle unread => exact absurd unread.currentPull hpull
      | holding chunk frames => rw [hframes] at frames; cases frames
      | enqueuing frames => rcases frames with h' | h' <;> rw [hframes] at h' <;> cases h'
      | settled unread => exact absurd unread.currentPull hpull
    · exact absurd hframes (hended.pull.resolve_left hpull)
  · obtain ⟨t, ht, hproxied⟩ := h.step ev
    exact ⟨t, ht, hproxied.kept.exception⟩

/-- A proxy that has forwarded a chunk is cancelled during the next read, whose close step is
ignored. Another one is errored by its original during its second read, and one whose original
closes there is closed. -/
theorem forwards_cancelled :
    (∃ s : Proxy ℕ, Forwards s ∧ s.cancels = [.reason 7] ∧ s.output = [.enqueued 3] ∧
      s.settled = [0, 1]) ∧
    ∃ s : Proxy ℕ, Forwards s ∧ s.output = [.enqueued 3] ∧ s.waiting = 1 ∧
      (∀ t, s.step .closes = .ok t → PassesOn s t .closed) ∧
      ∀ e t, s.step (.errors e) = .ok t → PassesOn s t (.errored e) := by
  constructor
  · obtain ⟨s, hrun, hs⟩ := Machine.exists_run_of_exec (M := proxyMachine ℕ)
      (s := .initial .readable)
      [.job .waits, .read (.dequeued 3 false), .returns .waits, .returns .waits, .returns .waits,
        .job .waits, .read .waits, .cancel (.reason 7), .returns .waits, .returns .waits]
      (P := fun s => s.cancels = [.reason 7] && s.output = [.enqueued 3] && s.settled = [0, 1])
      (by decide)
    rw [Bool.and_eq_true, Bool.and_eq_true, decide_eq_true_eq, decide_eq_true_eq,
      decide_eq_true_eq] at hs
    exact ⟨s, forwards hrun, hs.1.1, hs.1.2, hs.2⟩
  · obtain ⟨s, hrun, hs⟩ := Machine.exists_run_of_exec (M := proxyMachine ℕ)
      (s := .initial .readable)
      [.job .waits, .read (.dequeued 3 false), .returns .waits, .returns .waits, .returns .waits,
        .job .waits, .read .waits]
      (P := fun s => decide (s.output = [.enqueued 3] ∧ s.waiting = 1 ∧
        s.canCloseOrEnqueue = true ∧ s.source = .readable)) (by decide)
    obtain ⟨houtput, hwaiting, hlive, hsource⟩ := of_decide_eq_true hs
    have h := forwards hrun
    refine ⟨s, h, houtput, hwaiting, fun t ht => ?_, fun e t ht => ?_⟩
    · have hends := h.answers .closes t ht hwaiting hlive
      rw [Proxy.step, if_pos hsource, Proxy.sourceClose, hwaiting] at ht
      rwa [(passesOn_closeStep (s := { s with source := .closed, waiting := 0 }) hlive
        ht).2] at hends
    · have hends := h.answers (.errors e) t ht hwaiting hlive
      rw [Proxy.step, if_pos hsource, Proxy.sourceError, hwaiting] at ht
      rwa [(passesOn_errorStep (s := { s with source := .errored e, waiting := 0 }) hlive ht).2]
        at hends

end WebFetch.BodyProxy
