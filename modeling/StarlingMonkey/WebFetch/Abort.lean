import Mathlib.Data.List.Basic
import Mathlib.Tactic.Common
import StarlingMonkey.Lib.Protocol
import StarlingMonkey.Lib.Run

/-!
# Aborting a fetch

`fetch` adds an abort algorithm to the request's signal. The algorithm drops the transport's future,
rejects the promise, cancels the body of the request and stops the body of a response that was
delivered; it is removed when an abort can do nothing any more, or when the body is consumed.

`Fetch` is one call with its promise, its future and the body of its response. The signal aborts in
three steps: it gets its reason, with the signal it depends on, it takes its algorithms, and it runs
them one by one. The code of others may run in between. The cancel of the request's body runs the
author's code, too. The future completes, and the promise is settled with it, when nothing of an
abort is on the stack. A clone of the response has streams of its own, and is not part of the model.

* `Allowed`: which record may follow a log.
* `Inv`: what the algorithm holds and who waits for it, and what the log knows.
* `aborts_of_run`: an abort reaches a promise that is pending, cancels what is sent, and leaves
  nothing to read of a response that the promise got, and nothing registered.
-/

namespace WebFetch.Aborting

/-- A body's stream. -/
inductive StreamState (ε : Type) where
  | readable
  | closed
  | errored (error : ε)
deriving DecidableEq, Repr

/-- A response's body that comes from the host. -/
structure Body (ε : Type) where
  /-- Whether the host's body is unread. -/
  host : Bool
  stream : Option (StreamState ε)
deriving DecidableEq, Repr

/-- How the promise was settled. -/
inductive Settlement (ε : Type) where
  | fulfilled
  /-- With a `TypeError`, or what the construction of the response threw. -/
  | failed
  | aborted (reason : ε)
deriving DecidableEq, Repr

/-- The future of `send_following_redirects`. -/
inductive Transport where
  | flying
  /-- It completed, with a response or an error, and the event loop has not settled the promise. -/
  | completed (response : Bool)
  /-- There is none, or not any more. -/
  | over
deriving DecidableEq, Repr

/-- Who cancels the body of the request. -/
inductive Frame (ε : Type) where
  /-- `fetch`, with a signal that had aborted. -/
  | starting
  /-- `on_abort`, with the response it found. -/
  | aborting (response : Bool) (reason : ε)
deriving DecidableEq, Repr

/-- What happened. -/
inductive Record (ε : Type) where
  | added
  | removed
  | aborted (reason : ε)
  | settled (settlement : Settlement ε)
deriving DecidableEq, Repr

/-- The assertion of `deliver`. -/
inductive Site where
  | delivered
deriving DecidableEq, Repr

/-- One call of `fetch`. -/
structure Fetch (ε : Type) where
  /-- The signal's abort reason. -/
  aborted : Option ε
  /-- Whether the signal has its reason and has yet to take its algorithms. -/
  marked : Bool
  /-- Whether the algorithm is among those of the signal. -/
  registered : Bool
  /-- Whether the signal took the algorithm and has yet to run it. -/
  taken : Bool
  promise : Option (Settlement ε)
  transport : Transport
  /-- Whether `AbortFetchState` holds the signal and its callback. -/
  signal : Bool
  /-- Whether it holds the request. -/
  request : Bool
  /-- Whether it holds the response. -/
  response : Bool
  /-- Whether the response holds it: `abort_state`. -/
  abortState : Bool
  body : Option (Body ε)
  /-- Whether a consume method of the response was called. -/
  consumed : Bool
  requestBody : Option (StreamState ε)
  /-- `source_disturbed` of the request. -/
  disturbed : Bool
  frame : Option (Frame ε)
  log : List (Record ε)

/-- What `algorithms::fetch` makes of the request, when it does not throw. -/
inductive FetchOutcome where
  /-- A response whose body is in memory. -/
  | response
  | networkError
  | network
deriving DecidableEq, Repr

/-- What happens to a fetch. -/
inductive FetchEvent (ε : Type) where
  /-- The signal gets its reason. -/
  | aborts (reason : ε)
  /-- The signal takes its algorithms. -/
  | takes
  /-- The signal runs the algorithm. -/
  | runs
  /-- The cancel of the request's body returns. -/
  | cancelReturns
  | completes (response : Bool)
  /-- The event loop settles the promise, with a response that has a body, or has none, or with an
  error of its construction. -/
  | settles (hasBody : Option Bool)
  /-- The stream of the body is asked for. -/
  | materializes
  /-- `text()` and the like. -/
  | consumes
  /-- The stream of the body ends. -/
  | ends (stream : StreamState ε)

variable {ε : Type}

/-- `stream.is_readable()`. -/
def StreamState.isReadable : StreamState ε → Bool
  | readable => true
  | _ => false

/-- A change of a stream that is readable. -/
def StreamState.endWith (stream next : StreamState ε) : StreamState ε :=
  if stream.isReadable then next else stream

/-- The promise is fulfilled. -/
def Settlement.isFulfilled : Settlement ε → Bool
  | fulfilled => true
  | _ => false

/-- `response_body_is_abortable`. -/
def responseBodyIsAbortable : Option (Body ε) → Bool
  | none => false
  | some body => body.host || body.stream.any (·.isReadable)

/-- The host's body moves into a stream. -/
def Body.materialize (body : Body ε) : Body ε :=
  if body.host then ⟨false, some .readable⟩ else body

/-- The host's body is dropped, and the stream is errored. -/
def Body.abort (body : Body ε) (reason : ε) : Body ε :=
  ⟨false, body.stream.map (·.endWith (.errored reason))⟩

/-- The host's body is read without a stream. -/
def Body.take (body : Body ε) : Body ε := { body with host := false }

/-- The stream ends. -/
def Body.endWith (body : Body ε) (stream : StreamState ε) : Body ε :=
  { body with stream := body.stream.map (·.endWith stream) }

namespace Fetch

/-! ### The code -/

/-- How a call ends. -/
abbrev Steps (ε : Type) := Outcome Site Empty (Fetch ε)

/-- A record is made. -/
def record (s : Fetch ε) (r : Record ε) : Fetch ε := { s with log := s.log ++ [r] }

/-- The promise is resolved or rejected, if it is pending. -/
def settle (s : Fetch ε) (settlement : Settlement ε) : Fetch ε :=
  if s.promise.isNone then
    { s.record (.settled settlement) with promise := some settlement }
  else s

/-- `detach`. -/
def detach (s : Fetch ε) : Fetch ε :=
  let s := { s with
    request := false
    response := false }
  if s.signal then
    { s.record .removed with
      signal := false
      registered := false }
  else s

/-- `deliver`. -/
def deliver (s : Fetch ε) (body : Option (Body ε)) : Steps ε (Fetch ε) :=
  if responseBodyIsAbortable body then do
    Outcome.guard (!s.response) .delivered
    pure { s with
      response := true
      abortState := true
      body := body }
  else pure { s.detach with body := body }

/-- `register_fetch_abort`. -/
def registerFetchAbort (s : Fetch ε) : Fetch ε :=
  { s.record .added with
    signal := true
    request := true
    registered := true }

/-- `abort_body`. -/
def abortBody (s : Fetch ε) (reason : ε) : Fetch ε :=
  { s with body := s.body.map fun body => body.abort reason }

/-- `abort_fetch`, up to the return of the cancel. Without a body to cancel it goes on as if one had
returned. -/
def abortFetch (s : Fetch ε) (reason : ε) (frame : Frame ε) : Fetch ε :=
  { s.settle (.aborted reason) with
    requestBody := s.requestBody.map (·.endWith .closed)
    frame := some frame }

/-- `cancel_pending_future`. -/
def cancelPendingFuture (s : Fetch ε) : Fetch ε :=
  { s with transport := if s.transport = .flying then .over else s.transport }

/-- `on_abort`, up to the return of the cancel. -/
def onAbort (s : Fetch ε) (reason : ε) : Fetch ε :=
  let s := s.cancelPendingFuture
  if s.request then s.abortFetch reason (.aborting s.response reason) else s.detach

/-- `abort_fetch` and `on_abort`, from the return of the cancel. -/
def abortReturns (s : Fetch ε) (frame : Frame ε) : Fetch ε :=
  let s := { s with
    disturbed := true
    frame := none }
  match frame with
  | .starting => s
  | .aborting true reason => (s.abortBody reason).detach
  | .aborting false _ => s.detach

/-- `detach_abort_state`. -/
def detachAbortState (s : Fetch ε) : Fetch ε :=
  if s.abortState then { s with abortState := false }.detach else s

/-- `consume`, up to the read. The abort is detached whether or not the body can be read. -/
def consume (s : Fetch ε) : Fetch ε :=
  { s with
    body := s.body.map Body.take
    consumed := true }.detachAbortState

/-- The promise is settled with what the transport gave. -/
def settles (s : Fetch ε) (response : Bool) (hasBody : Option Bool) : Steps ε (Fetch ε) :=
  let s := { s with transport := .over }
  match response, hasBody with
  | true, some hasBody => do
    let s ← s.deliver (if hasBody then some ⟨true, none⟩ else none)
    pure (s.settle .fulfilled)
  | _, _ => pure (s.detach.settle .failed)

/-- Nothing of an abort is on the stack. -/
def isIdle (s : Fetch ε) : Bool := !s.marked && !s.taken && s.frame.isNone

/-- What an event does, if it can happen. -/
def step (s : Fetch ε) : FetchEvent ε → Steps ε (Fetch ε)
  | .aborts reason =>
    pure (if s.aborted.isNone then
      { s.record (.aborted reason) with
        aborted := some reason
        marked := true }
    else s)
  | .takes =>
    pure (if s.marked then
      { s with
        marked := false
        taken := s.registered
        registered := false }
    else s)
  | .runs =>
    match s.taken, s.aborted with
    | true, some reason => pure ({ s with taken := false }.onAbort reason)
    | _, _ => pure s
  | .cancelReturns =>
    match s.frame with
    | some frame => pure (s.abortReturns frame)
    | none => pure s
  | .completes response =>
    pure (if s.isIdle && s.transport = .flying then
      { s with transport := .completed response }
    else s)
  | .settles hasBody =>
    match s.isIdle, s.transport with
    | true, .completed response => s.settles response hasBody
    | _, _ => pure s
  | .materializes =>
    pure (if s.promise.any (·.isFulfilled) then
      { s with body := s.body.map Body.materialize }
    else s)
  | .consumes => pure (if s.promise.any (·.isFulfilled) then s.consume else s)
  | .ends stream =>
    pure { s with body := s.body.map fun body => body.endWith stream }

/-- A call whose request was made. -/
def new (aborted : Option ε) (requestBody : Option (StreamState ε)) : Fetch ε where
  aborted := aborted
  marked := false
  registered := false
  taken := false
  promise := none
  transport := .over
  signal := false
  request := false
  response := false
  abortState := false
  body := none
  consumed := false
  requestBody := requestBody
  disturbed := false
  frame := none
  log := aborted.toList.map .aborted

/-- `fetch`. -/
def fetch (aborted : Option ε) (requestBody : Option (StreamState ε)) (outcome : FetchOutcome) :
    Steps ε (Fetch ε) :=
  match aborted with
  | some reason => pure ((new aborted requestBody).abortFetch reason .starting)
  | none =>
    let s := (new none requestBody).registerFetchAbort
    match outcome with
    | .response => do
      let s ← s.deliver none
      pure (s.settle .fulfilled)
    | .networkError => pure (s.detach.settle .failed)
    | .network => pure { s with transport := .flying }

end Fetch

/-- A fetch as a machine. -/
def machine (ε : Type) : Machine Site Empty (Fetch ε) (FetchEvent ε) := ⟨Fetch.step⟩

/-! ### What is to hold -/

/-- A settlement. -/
def Record.settled? : Record ε → Option (Settlement ε)
  | settled settlement => some settlement
  | _ => none

/-- The abort of the signal. -/
def Record.aborted? : Record ε → Option ε
  | aborted reason => some reason
  | _ => none

/-- **The protocol of a fetch**: which record may follow a log. -/
def Allowed (l : List (Record ε)) : Record ε → Prop
  | .added => .added ∉ l ∧ l.filterMap Record.aborted? = []
  | .removed => .added ∈ l ∧ .removed ∉ l
  | .aborted _ => l.filterMap Record.aborted? = []
  | .settled settlement => l.filterMap Record.settled? = [] ∧
    ∀ reason ∈ l.filterMap Record.aborted?, settlement = .aborted reason

namespace Fetch

/-- **A fetch can be aborted.** -/
structure Aborts (s : Fetch ε) : Prop where
  log : Protocol.Kept Allowed s.log
  /-- The log has the abort, and how the promise was settled. -/
  reason : s.log.filterMap Record.aborted? = s.aborted.toList
  settled : s.log.filterMap Record.settled? = s.promise.toList
  /-- The algorithm stays registered only while the promise is pending or its response holds it. -/
  registered : s.registered = true →
    (s.aborted = none ∨ s.marked = true) ∧ (s.promise = none ∨ s.abortState = true)
  /-- An abort reaches a promise that is pending. -/
  pending : s.promise = none → s.registered = true ∨ s.taken = true
  /-- A fetch that was aborted has cancelled the body of its request. -/
  cancelled : ∀ reason, s.promise = some (.aborted reason) →
    s.requestBody.any (·.isReadable) = false ∧ (s.isIdle = true → s.disturbed = true)
  /-- After an abort nothing is left to complete, to read or to remove. A response is held only if
  it came after the promise was rejected, from a transport that had completed before. -/
  aborted : s.aborted.isSome = true → s.isIdle = true →
    s.promise ≠ none ∧ s.transport ≠ .flying ∧ s.signal = false ∧ s.request = false ∧
      (s.response = true → ∃ reason, s.promise = some (.aborted reason)) ∧
      (s.promise = some .fulfilled → s.consumed = true ∨ responseBodyIsAbortable s.body = false)

/-! ### The invariant -/

/-- The algorithm of a response that can be aborted is in place, or its body was consumed. -/
def Covered (s : Fetch ε) : Prop :=
  s.consumed = true ∨ responseBodyIsAbortable s.body = false ∨
    (s.signal = true ∧ s.response = true)

/-- What the algorithm holds, and who waits for it. -/
structure Holds (s : Fetch ε) : Prop where
  request : s.request = s.signal
  registered : s.registered = (s.signal && (s.aborted.isNone || s.marked))
  marked : s.marked = true → s.aborted.isSome = true ∧ s.taken = false
  taken : s.taken = true → s.aborted.isSome = true
  /-- The algorithm that is held after the abort is to be run, or is running. -/
  held : s.signal = true → s.aborted.isSome = true →
    s.marked = true ∨ s.taken = true ∨ ∃ response reason, s.frame = some (.aborting response reason)
  /-- A promise that is pending is one that the algorithm rejects. -/
  pending : s.promise = none →
    s.signal = true ∧ (s.aborted.isSome = true → s.marked = true ∨ s.taken = true)
  frame : s.frame.isSome = true → s.marked = false ∧ s.taken = false ∧ s.aborted.isSome = true
  found : ∀ response reason, s.frame = some (.aborting response reason) →
    s.response = true → response = true
  abortState : s.signal = true → s.promise.isSome = true →
    s.aborted = none ∨ s.marked = true → s.abortState = true
  unsettled : s.abortState = true → s.promise.isSome = true
  response : s.response = true → s.transport = .over
  /-- A response is held for a promise that got it, as long as the algorithm is, or for one that was
  rejected by an abort. -/
  kept : s.response = true → s.promise ≠ none ∧ s.promise ≠ some .failed ∧
    (s.promise = some .fulfilled → s.signal = true)
  transport : s.transport ≠ .over → s.promise ≠ some .fulfilled ∧ s.promise ≠ some .failed ∧
    (s.aborted = none ∨ s.marked = true → s.promise = none)
  flying : s.transport = .flying → s.aborted.isSome = true → s.marked = true ∨ s.taken = true
  covered : s.promise = some .fulfilled → s.Covered ∨
    ∃ reason, s.frame = some (.aborting true reason)
  cancelled : ∀ reason, s.promise = some (.aborted reason) →
    s.requestBody.any (·.isReadable) = false ∧ (s.frame = none → s.disturbed = true)

/-- What the log knows. -/
structure Logged (s : Fetch ε) : Prop where
  log : Protocol.Kept Allowed s.log
  added : s.signal = true → .added ∈ s.log ∧ .removed ∉ s.log
  aborted : s.log.filterMap Record.aborted? = s.aborted.toList
  settled : s.log.filterMap Record.settled? = s.promise.toList

variable {s : Fetch ε}

theorem abortable_materialize {body : Option (Body ε)}
    (h : responseBodyIsAbortable body = false) :
    responseBodyIsAbortable (body.map Body.materialize) = false := by
  cases body with
  | none => rfl
  | some body =>
    simp only [responseBodyIsAbortable, Bool.or_eq_false_iff] at h
    simp [responseBodyIsAbortable, Body.materialize, h.1, h.2]

theorem endWith_not_readable {stream next : StreamState ε} (h : next.isReadable = false) :
    (stream.endWith next).isReadable = false := by
  rw [StreamState.endWith]
  split
  · exact h
  · rename_i hs
    simpa using hs

theorem abortable_abort (body : Option (Body ε)) (reason : ε) :
    responseBodyIsAbortable (body.map fun body => body.abort reason) = false := by
  cases body with
  | none => rfl
  | some body =>
    cases hs : body.stream with
    | none => simp [responseBodyIsAbortable, Body.abort, hs]
    | some stream =>
      have hended : (stream.endWith (.errored reason)).isReadable = false :=
        endWith_not_readable rfl
      simp [responseBodyIsAbortable, Body.abort, hs, hended]

theorem any_isReadable_closed (stream : Option (StreamState ε)) :
    (stream.map (·.endWith .closed)).any (·.isReadable) = false := by
  cases stream with
  | none => rfl
  | some stream => exact endWith_not_readable rfl

theorem abortable_endWith {body : Option (Body ε)} (stream : StreamState ε)
    (h : responseBodyIsAbortable body = false) :
    responseBodyIsAbortable (body.map fun body => body.endWith stream) = false := by
  cases body with
  | none => rfl
  | some body =>
    simp only [responseBodyIsAbortable, Bool.or_eq_false_iff] at h
    cases hs : body.stream with
    | none => simp [responseBodyIsAbortable, Body.endWith, h.1, hs]
    | some old =>
      have hold : old.isReadable = false := by simpa [hs] using h.2
      simp [responseBodyIsAbortable, Body.endWith, h.1, hs, StreamState.endWith, hold]

/-! ### Steps -/

theorem detach_eq (s : Fetch ε) : s.detach =
    { s with
      registered := s.registered && !s.signal
      signal := false
      request := false
      response := false
      log := if s.signal then s.log ++ [.removed] else s.log } := by
  cases hsignal : s.signal <;> simp [detach, record, hsignal]

theorem settle_eq (s : Fetch ε) (settlement : Settlement ε) : s.settle settlement =
    { s with
      promise := if s.promise.isNone then some settlement else s.promise
      log := if s.promise.isNone then s.log ++ [.settled settlement] else s.log } := by
  rw [settle]
  split
  next => simp [record]
  next => simp

theorem holds_aborts (h : Holds s) (hnone : s.aborted = none) (reason : ε) :
    Holds { s.record (.aborted reason) with
      aborted := some reason
      marked := true } := by
  obtain ⟨h1, h2, h3, h4, h5, h6, h7, h8, h9, h10, h11, h12, h13, h14, h15, h16⟩ := h
  constructor <;> simp only [record] <;> grind [Covered]

theorem holds_takes (h : Holds s) (hmarked : s.marked = true) :
    Holds { s with
      marked := false
      taken := s.registered
      registered := false } := by
  obtain ⟨h1, h2, h3, h4, h5, h6, h7, h8, h9, h10, h11, h12, h13, h14, h15, h16⟩ := h
  obtain ⟨reason, haborted⟩ := Option.isSome_iff_exists.mp (h3 hmarked).1
  -- The promise of a future in flight is pending, so the algorithm is among those taken.
  constructor <;> simp only <;> grind [Covered]

theorem holds_runs (h : Holds s) {reason : ε} (htaken : s.taken = true)
    (haborted : s.aborted = some reason) : Holds (onAbort { s with taken := false } reason) := by
  obtain ⟨h1, h2, h3, h4, h5, h6, h7, h8, h9, h10, h11, h12, h13, h14, h15, h16⟩ := h
  have hcancelled := any_isReadable_closed s.requestBody
  simp only [onAbort, cancelPendingFuture]
  split
  next =>
    -- The promise is settled now. What was delivered before is the response in the frame.
    simp only [abortFetch, settle_eq]
    constructor <;> simp only <;> grind [Covered]
  next hrequest =>
    -- The algorithm was detached after the signal took it.
    rw [detach_eq]
    constructor <;> simp only <;> grind [Covered]

theorem holds_abortReturns (h : Holds s) {frame : Frame ε} (hframe : s.frame = some frame) :
    Holds (s.abortReturns frame) := by
  obtain ⟨h1, h2, h3, h4, h5, h6, h7, h8, h9, h10, h11, h12, h13, h14, h15, h16⟩ := h
  cases frame with
  | starting =>
    simp only [abortReturns]
    constructor <;> simp only <;> grind [Covered]
  | aborting response reason =>
    have habort := abortable_abort s.body reason
    cases response with
    | true =>
      -- The body is errored, so it is no loss that the algorithm goes.
      simp only [abortReturns, abortBody, detach_eq]
      constructor <;> simp only <;> grind [Covered]
    | false =>
      -- No response was delivered while the cancel ran: the future was gone.
      simp only [abortReturns, detach_eq]
      constructor <;> simp only <;> grind [Covered]

theorem holds_consume (h : Holds s) (hfulfilled : s.promise = some .fulfilled) :
    Holds s.consume := by
  obtain ⟨h1, h2, h3, h4, h5, h6, h7, h8, h9, h10, h11, h12, h13, h14, h15, h16⟩ := h
  simp only [consume, detachAbortState]
  split
  · simp only [detach_eq]
    constructor <;> simp only <;> grind [Covered]
  · constructor <;> simp only <;> grind [Covered]

theorem holds_body (h : Holds s) {body : Option (Body ε)}
    (hbody : responseBodyIsAbortable s.body = false → responseBodyIsAbortable body = false) :
    Holds { s with body := body } := by
  obtain ⟨h1, h2, h3, h4, h5, h6, h7, h8, h9, h10, h11, h12, h13, h14, h15, h16⟩ := h
  constructor <;> simp only <;> grind [Covered]

theorem holds_completes (h : Holds s) (hflying : s.transport = .flying) (response : Bool) :
    Holds { s with transport := .completed response } := by
  obtain ⟨h1, h2, h3, h4, h5, h6, h7, h8, h9, h10, h11, h12, h13, h14, h15, h16⟩ := h
  constructor <;> simp only <;> grind [Covered]

/-- The promise is settled without a response that can be aborted. -/
theorem holds_settles_detached (h : Holds s) (hidle : s.isIdle = true)
    (hpromise : s.promise ≠ some .fulfilled) {settlement : Settlement ε}
    (hsettlement : ∀ reason, settlement ≠ .aborted reason) {body : Option (Body ε)}
    (hbody : settlement = .fulfilled → responseBodyIsAbortable body = false) :
    Holds (Fetch.settle { detach { s with transport := .over } with body := body } settlement) := by
  obtain ⟨h1, h2, h3, h4, h5, h6, h7, h8, h9, h10, h11, h12, h13, h14, h15, h16⟩ := h
  rw [isIdle, Bool.and_eq_true, Bool.and_eq_true, Bool.not_eq_true', Bool.not_eq_true'] at hidle
  -- Nothing of an abort is running, so a promise that is pending was not aborted.
  simp only [detach_eq, settle_eq]
  constructor <;> simp only <;> grind [Covered]

/-- A response that can be aborted is delivered. -/
theorem holds_delivered (h : Holds s) (hidle : s.isIdle = true) {response : Bool}
    (hcompleted : s.transport = .completed response) (body : Option (Body ε)) :
    Holds (Fetch.settle { s with
      transport := .over
      response := true
      abortState := true
      body := body } .fulfilled) := by
  obtain ⟨h1, h2, h3, h4, h5, h6, h7, h8, h9, h10, h11, h12, h13, h14, h15, h16⟩ := h
  rw [isIdle, Bool.and_eq_true, Bool.and_eq_true, Bool.not_eq_true', Bool.not_eq_true'] at hidle
  simp only [settle_eq]
  cases hpromise : s.promise with
  | none => constructor <;> simp only [Covered] <;> grind
  | some settlement => constructor <;> simp only [Covered] <;> grind

/-! ### The log -/

/-- What the log does not speak of changes. -/
theorem Logged.of_eq {t : Fetch ε} (h : Logged s) (hlog : t.log = s.log)
    (hsignal : t.signal = s.signal) (haborted : t.aborted = s.aborted)
    (hpromise : t.promise = s.promise) : Logged t := by
  obtain ⟨h1, h2, h3, h4⟩ := h
  constructor
  · rwa [hlog]
  · rwa [hlog, hsignal]
  · rwa [hlog, haborted]
  · rwa [hlog, hpromise]

theorem filterMap_concat_none {α : Type} {f : Record ε → Option α} {r : Record ε} (h : f r = none)
    (l : List (Record ε)) : (l ++ [r]).filterMap f = l.filterMap f := by
  simp [h]

theorem filterMap_concat_some {α : Type} {f : Record ε → Option α} {r : Record ε} {a : α}
    (h : f r = some a) (l : List (Record ε)) : (l ++ [r]).filterMap f = l.filterMap f ++ [a] := by
  simp [h]

theorem logged_detach (h : Logged s) : Logged s.detach := by
  rw [detach_eq]
  cases hsignal : s.signal with
  | false => exact h.of_eq (by simp) hsignal.symm rfl rfl
  | true =>
    constructor
    · exact h.log.concat (h.added hsignal)
    · rintro ⟨⟩
    · exact (filterMap_concat_none rfl s.log).trans h.aborted
    · exact (filterMap_concat_none rfl s.log).trans h.settled

theorem logged_settle (h : Logged s) {settlement : Settlement ε}
    (hreason : s.promise = none → ∀ reason, s.aborted = some reason →
      settlement = .aborted reason) : Logged (s.settle settlement) := by
  rw [settle_eq]
  cases hpromise : s.promise with
  | some old => exact h.of_eq (by simp) rfl rfl (by simp [hpromise])
  | none =>
    have hpending : s.log.filterMap Record.settled? = [] := by rw [h.settled, hpromise]; rfl
    constructor
    · refine h.log.concat ⟨hpending, fun reason hmem => ?_⟩
      rw [h.aborted, Option.mem_toList] at hmem
      exact hreason hpromise reason hmem
    · intro hsignal
      simpa using h.added hsignal
    · exact (filterMap_concat_none rfl s.log).trans h.aborted
    · refine (filterMap_concat_some (f := Record.settled?) rfl s.log).trans ?_
      rw [hpending]
      rfl

theorem logged_aborts (h : Logged s) (hnone : s.aborted = none) (reason : ε) :
    Logged { s.record (.aborted reason) with
      aborted := some reason
      marked := true } := by
  have hfree : s.log.filterMap Record.aborted? = [] := by rw [h.aborted, hnone]; rfl
  constructor
  · exact h.log.concat hfree
  · intro hsignal
    simpa [record] using h.added hsignal
  · refine (filterMap_concat_some (f := Record.aborted?) rfl s.log).trans ?_
    rw [hfree]
    rfl
  · exact (filterMap_concat_none rfl s.log).trans h.settled

theorem logged_runs (h : Logged s) {reason : ε} (haborted : s.aborted = some reason) :
    Logged (onAbort { s with taken := false } reason) := by
  have hcancelled : Logged (cancelPendingFuture { s with taken := false }) :=
    h.of_eq rfl rfl rfl rfl
  simp only [onAbort]
  split
  · have hsettled : Logged ((cancelPendingFuture { s with taken := false }).settle
        (.aborted reason)) := by
      refine logged_settle hcancelled fun _ reason' haborted' => ?_
      rw [Option.some.inj (haborted.symm.trans haborted')]
    exact hsettled.of_eq rfl rfl rfl rfl
  · exact logged_detach hcancelled

theorem logged_abortReturns (h : Logged s) (frame : Frame ε) : Logged (s.abortReturns frame) := by
  cases frame with
  | starting => exact h.of_eq rfl rfl rfl rfl
  | aborting response reason =>
    cases response with
    | true => exact logged_detach (h.of_eq rfl rfl rfl rfl)
    | false => exact logged_detach (h.of_eq rfl rfl rfl rfl)

theorem logged_consume (h : Logged s) : Logged s.consume := by
  simp only [consume, detachAbortState]
  split
  · exact logged_detach (h.of_eq rfl rfl rfl rfl)
  · exact h.of_eq rfl rfl rfl rfl

/-! ### Every step -/

/-- **The invariant.** -/
structure Inv (s : Fetch ε) : Prop where
  holds : Holds s
  logged : Logged s

/-- A promise that waits for the transport was not aborted. -/
theorem Inv.not_aborted (h : Inv s) (hidle : s.isIdle = true) (hpending : s.promise = none)
    (reason : ε) : s.aborted ≠ some reason := by
  intro haborted
  rcases (h.holds.pending hpending).2 (by rw [haborted]; rfl) with hmarked | htaken
  · simp [isIdle, hmarked] at hidle
  · simp [isIdle, htaken] at hidle

/-- The promise is settled without a response that can be aborted. -/
theorem inv_settles_detached (h : Inv s) (hidle : s.isIdle = true)
    (hpromise : s.promise ≠ some .fulfilled) (settlement : Settlement ε)
    (hsettlement : ∀ reason, settlement ≠ .aborted reason) (body : Option (Body ε))
    (hbody : settlement = .fulfilled → responseBodyIsAbortable body = false) :
    Inv (Fetch.settle { detach { s with transport := .over } with body := body } settlement) := by
  have hover : Logged { s with transport := .over } := h.logged.of_eq rfl rfl rfl rfl
  have hlogged : Logged { detach { s with transport := .over } with body := body } :=
    (logged_detach hover).of_eq rfl rfl rfl rfl
  refine ⟨holds_settles_detached h.holds hidle hpromise hsettlement hbody, ?_⟩
  refine logged_settle hlogged fun hpending reason hreason => ?_
  rw [detach_eq] at hpending hreason
  exact absurd hreason (h.not_aborted hidle hpending reason)

theorem sat_settles (h : Inv s) (hidle : s.isIdle = true) {response : Bool}
    (hcompleted : s.transport = .completed response) (hasBody : Option Bool) :
    (s.settles response hasBody).Sat Inv Inv fun _ => False := by
  have hpromise : s.promise ≠ some .fulfilled :=
    (h.holds.transport (by rw [hcompleted]; rintro ⟨⟩)).1
  have hdelivered : Inv (Fetch.settle { s with
      transport := .over
      response := true
      abortState := true
      body := some ⟨true, none⟩ } .fulfilled) := by
    have hlogged : Logged { s with
        transport := .over
        response := true
        abortState := true
        body := some ⟨true, none⟩ } := h.logged.of_eq rfl rfl rfl rfl
    refine ⟨holds_delivered h.holds hidle hcompleted _, ?_⟩
    refine logged_settle hlogged fun hpending reason hreason => ?_
    exact absurd hreason (h.not_aborted hidle hpending reason)
  have hresponse : s.response = false := by
    have := h.holds.response
    rw [hcompleted] at this
    simpa using this
  simp only [settles]
  split
  next hasBody =>
    cases hasBody with
    | false => exact inv_settles_detached h hidle hpromise .fulfilled (by simp) none fun _ => rfl
    | true => simpa [deliver, responseBodyIsAbortable, hresponse] using hdelivered
  next =>
    have hfailed := inv_settles_detached h hidle hpromise .failed (by simp) s.body (by rintro ⟨⟩)
    change Inv (Fetch.settle (detach { s with transport := .over }) .failed)
    simpa only [detach_eq] using hfailed

theorem sat_step (h : Inv s) (e : FetchEvent ε) :
    (s.step e).Sat Inv Inv fun _ => False := by
  cases e with
  | aborts reason =>
    simp only [step]
    split
    next hnone =>
      rw [Option.isNone_iff_eq_none] at hnone
      exact ⟨holds_aborts h.holds hnone reason, logged_aborts h.logged hnone reason⟩
    next => exact h
  | takes =>
    simp only [step]
    split
    next hmarked => exact ⟨holds_takes h.holds hmarked, h.logged.of_eq rfl rfl rfl rfl⟩
    next => exact h
  | runs =>
    rw [step]
    split
    next reason htaken haborted =>
      exact ⟨holds_runs h.holds htaken haborted, logged_runs h.logged haborted⟩
    next => exact h
  | cancelReturns =>
    rw [step]
    split
    next frame hframe =>
      exact ⟨holds_abortReturns h.holds hframe, logged_abortReturns h.logged frame⟩
    next => exact h
  | completes response =>
    simp only [step]
    split
    next hready =>
      rw [Bool.and_eq_true, decide_eq_true_eq] at hready
      exact ⟨holds_completes h.holds hready.2 response, h.logged.of_eq rfl rfl rfl rfl⟩
    next => exact h
  | settles hasBody =>
    rw [step]
    split
    next response hidle hcompleted => exact sat_settles h hidle hcompleted hasBody
    next => exact h
  | materializes =>
    simp only [step]
    split
    · exact ⟨holds_body h.holds abortable_materialize, h.logged.of_eq rfl rfl rfl rfl⟩
    · exact h
  | consumes =>
    simp only [step]
    split
    next hfulfilled =>
      have hpromise : s.promise = some .fulfilled := by
        cases hs : s.promise with
        | none => simp [hs] at hfulfilled
        | some settlement => cases settlement <;> simp_all [Settlement.isFulfilled]
      exact ⟨holds_consume h.holds hpromise, logged_consume h.logged⟩
    next => exact h
  | ends stream =>
    exact ⟨holds_body h.holds (abortable_endWith stream), h.logged.of_eq rfl rfl rfl rfl⟩

theorem logged_new (aborted : Option ε) (requestBody : Option (StreamState ε)) :
    Logged (new aborted requestBody) := by
  cases aborted with
  | none => exact ⟨Protocol.kept_nil, by rintro ⟨⟩, rfl, rfl⟩
  | some reason => exact ⟨Protocol.kept_nil.concat rfl, by rintro ⟨⟩, rfl, rfl⟩

theorem inv_registerFetchAbort (requestBody : Option (StreamState ε)) :
    Inv (new none requestBody : Fetch ε).registerFetchAbort where
  holds := by constructor <;> simp [registerFetchAbort, new, record]
  logged := by
    refine ⟨Protocol.kept_nil.concat ?_, fun _ => ?_, rfl, rfl⟩
    · exact ⟨by simp, rfl⟩
    · simp [registerFetchAbort, new, record]

theorem sat_fetch (aborted : Option ε) (requestBody : Option (StreamState ε))
    (outcome : FetchOutcome) : (fetch aborted requestBody outcome).Sat Inv Inv fun _ => False := by
  cases aborted with
  | some reason =>
    constructor
    · simp only [abortFetch, settle_eq, new]
      have hcancelled := any_isReadable_closed requestBody
      constructor <;> simp [hcancelled]
    · have hlogged : Logged ((new (some reason) requestBody).settle (.aborted reason)) :=
        logged_settle (logged_new _ _) fun _ reason' hreason => by
          rw [Option.some.inj hreason]
      exact hlogged.of_eq rfl rfl rfl rfl
  | none =>
    have hinv := inv_registerFetchAbort requestBody
    cases outcome with
    | response =>
      exact inv_settles_detached hinv rfl (by rintro ⟨⟩) .fulfilled (by simp) none fun _ => rfl
    | networkError =>
      exact inv_settles_detached hinv rfl (by rintro ⟨⟩) .failed (by simp) none fun _ => rfl
    | network =>
      refine ⟨?_, hinv.logged.of_eq rfl rfl rfl rfl⟩
      constructor <;> simp [registerFetchAbort, new, record]

theorem Inv.aborts (h : Inv s) : s.Aborts where
  log := h.logged.log
  reason := h.logged.aborted
  settled := h.logged.settled
  registered := by
    intro hregistered
    rw [h.holds.registered, Bool.and_eq_true, Bool.or_eq_true, Option.isNone_iff_eq_none]
      at hregistered
    obtain ⟨hsignal, haborted⟩ := hregistered
    refine ⟨haborted, ?_⟩
    cases hpromise : s.promise with
    | none => exact .inl rfl
    | some settlement =>
      exact .inr (h.holds.abortState hsignal (by rw [hpromise]; rfl) haborted)
  pending := by
    intro hpending
    obtain ⟨hsignal, hwaiting⟩ := h.holds.pending hpending
    rw [h.holds.registered, hsignal, Bool.true_and, Bool.or_eq_true]
    cases haborted : s.aborted with
    | none => exact .inl (.inl rfl)
    | some reason =>
      rcases hwaiting (by rw [haborted]; rfl) with hmarked | htaken
      · exact .inl (.inr hmarked)
      · exact .inr htaken
  cancelled := by
    intro reason hpromise
    obtain ⟨hrequest, hdisturbed⟩ := h.holds.cancelled reason hpromise
    refine ⟨hrequest, fun hidle => hdisturbed ?_⟩
    rw [isIdle, Bool.and_eq_true, Option.isNone_iff_eq_none] at hidle
    exact hidle.2
  aborted := by
    intro haborted hidle
    rw [isIdle, Bool.and_eq_true, Bool.and_eq_true, Bool.not_eq_true', Bool.not_eq_true',
      Option.isNone_iff_eq_none] at hidle
    obtain ⟨⟨hmarked, htaken⟩, hframe⟩ := hidle
    have hsignal : s.signal = false := by
      have := h.holds.held
      simpa [haborted, hmarked, htaken, hframe] using this
    refine ⟨fun hpending => ?_, fun hflying => ?_, hsignal, h.holds.request.trans hsignal,
      fun hresponse => ?_, fun hfulfilled => ?_⟩
    · have := (h.holds.pending hpending).2 haborted
      simp [hmarked, htaken] at this
    · have := h.holds.flying hflying haborted
      simp [hmarked, htaken] at this
    · obtain ⟨hsettled, hfailed, hfulfilled⟩ := h.holds.kept hresponse
      rw [hsignal] at hfulfilled
      cases hpromise : s.promise with
      | none => exact absurd hpromise hsettled
      | some settlement =>
        cases settlement with
        | fulfilled => cases hfulfilled hpromise
        | failed => exact absurd hpromise hfailed
        | aborted reason => exact ⟨reason, rfl⟩
    · have := h.holds.covered hfulfilled
      simpa [Covered, hsignal, hframe] using this

/-! ### The end of an abort -/

theorem exists_takes (s : Fetch ε) : ∃ t, s.step .takes = .ok t ∧ t.marked = false := by
  cases hmarked : s.marked with
  | true => exact ⟨_, by simp only [step, hmarked]; rfl, rfl⟩
  | false => exact ⟨s, by simp [step, hmarked], hmarked⟩

theorem exists_runs (h : Inv s) :
    ∃ t, s.step .runs = .ok t ∧ t.marked = s.marked ∧ t.taken = false := by
  cases htaken : s.taken with
  | false => exact ⟨s, by simp [step, htaken], rfl, htaken⟩
  | true =>
    obtain ⟨reason, haborted⟩ := Option.isSome_iff_exists.mp (h.holds.taken htaken)
    refine ⟨onAbort { s with taken := false } reason, by simp [step, htaken, haborted], ?_⟩
    simp only [onAbort, cancelPendingFuture, abortFetch, settle_eq, detach_eq]
    split
    · exact ⟨rfl, rfl⟩
    · exact ⟨rfl, rfl⟩

theorem exists_cancelReturns (s : Fetch ε) : ∃ t, s.step .cancelReturns = .ok t ∧
    t.marked = s.marked ∧ t.taken = s.taken ∧ t.frame = none := by
  cases hframe : s.frame with
  | none => exact ⟨s, by simp [step, hframe], rfl, rfl, hframe⟩
  | some frame =>
    refine ⟨s.abortReturns frame, by simp [step, hframe], ?_⟩
    cases frame with
    | starting => exact ⟨rfl, rfl, rfl⟩
    | aborting response reason =>
      cases response with
      | true => simp [abortReturns, abortBody, detach_eq]
      | false => simp [abortReturns, detach_eq]

theorem exec_cons {t : Fetch ε} {e : FetchEvent ε} (h : s.step e = .ok t)
    (es : List (FetchEvent ε)) : (machine ε).exec s (e :: es) = (machine ε).exec t es := by
  rw [Machine.exec]
  simp only [machine, h]
  rfl

/-- An abort that is under way comes to its end. -/
theorem exists_idle (h : Inv s) :
    ∃ t, (machine ε).exec s [.takes, .runs, .cancelReturns] = some t ∧ t.isIdle = true := by
  obtain ⟨t, ht, hmarked⟩ := exists_takes s
  have hinv : Inv t := by
    have hsat := sat_step h (.takes : FetchEvent ε)
    rwa [ht] at hsat
  obtain ⟨u, hu, humarked, hutaken⟩ := exists_runs hinv
  obtain ⟨v, hv, hvmarked, hvtaken, hvframe⟩ := exists_cancelReturns u
  refine ⟨v, ?_, ?_⟩
  · rw [exec_cons ht, exec_cons hu, exec_cons hv]
    rfl
  · rw [isIdle, hvmarked, humarked, hmarked, hvtaken, hutaken, hvframe]
    rfl

/-! ### Runs -/

/-- **A fetch that can be aborted**, whatever the signal, the host and the author's code do. The
assertion of `deliver` holds, and an abort that is under way comes to its end. -/
theorem aborts_of_run {aborted : Option ε} {requestBody : Option (StreamState ε)}
    {outcome : FetchOutcome} {start : Fetch ε}
    (hfetch : fetch aborted requestBody outcome = .ok start) (hrun : (machine ε).Run start s) :
    s.Aborts ∧ (∀ e site, s.step e ≠ .panic site) ∧
      ∃ t, (machine ε).exec s [.takes, .runs, .cancelReturns] = some t ∧ t.isIdle = true := by
  have hstart : Inv start := by
    have hsat := sat_fetch aborted requestBody outcome
    rwa [hfetch] at hsat
  have hinv : Inv s := hrun.inv_of_sat hstart fun _ e hs _ => sat_step hs e
  refine ⟨hinv.aborts, fun e site hpanic => ?_, exists_idle hinv⟩
  have hsat := sat_step hinv e
  rw [hpanic] at hsat
  exact hsat

/-- A body whose stream was asked for is errored; and a response that comes after the abort is held
for a promise that was rejected. -/
theorem aborts_of_run_errored :
    (∃ s : Fetch ℕ, s.body = some ⟨false, some (.errored 7)⟩ ∧ s.registered = false ∧
      s.Aborts) ∧
    ∃ s : Fetch ℕ, s.promise = some (.aborted 7) ∧ s.response = true ∧ s.isIdle = true ∧
      s.Aborts := by
  obtain ⟨s, hrun, hs⟩ := Machine.exists_run_of_exec (M := machine ℕ)
    (s := { (new none none).registerFetchAbort with transport := .flying })
    [.completes true, .settles (some true), .materializes, .aborts 7, .takes, .runs,
      .cancelReturns]
    (P := fun s => s.body = some ⟨false, some (.errored 7)⟩ ∧ s.registered = false) (by rfl)
  obtain ⟨t, hrun', ht⟩ := Machine.exists_run_of_exec (M := machine ℕ)
    (s := { (new none none).registerFetchAbort with transport := .flying })
    [.completes true, .aborts 7, .takes, .runs, .cancelReturns, .settles (some true)]
    (P := fun s => s.promise = some (.aborted 7) ∧ s.response = true ∧ s.isIdle = true) (by rfl)
  obtain ⟨hbody, hregistered⟩ := of_decide_eq_true hs
  obtain ⟨hpromise, hresponse, hidle⟩ := of_decide_eq_true ht
  have hfetch : fetch none none .network = .ok
      { (new none none : Fetch ℕ).registerFetchAbort with transport := .flying } := rfl
  exact ⟨⟨s, hbody, hregistered, (aborts_of_run hfetch hrun).1⟩,
    t, hpromise, hresponse, hidle, (aborts_of_run hfetch hrun').1⟩

end Fetch

end WebFetch.Aborting
