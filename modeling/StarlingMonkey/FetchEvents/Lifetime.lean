import StarlingMonkey.Lib.Run
import StarlingMonkey.WebGlobals.Events

/-!
# The lifetime of a fetch event

A `FetchEvent` with its lifetime promises, as `fetch_event.rs` and `extendable_event.rs` keep them,
and the event loops whose interest the promises hold (`interest.rs`). Promises and loops are known
by numbers. A loop is active while it is on top of `active`, the stack of the calls of
`with_event_loop`.

A reaction runs at some time after its promise has settled, and no loop need be active, or another
one. A promise that never settles may become unreachable, and with it the payload of its reaction.
The reaction to the promise of `respondWith` finds the response as author code has left it, which
is why it comes with the reaction.

The allocation of promises, functions and payloads succeeds.
-/

namespace FetchEvents

open WebGlobals (Event)

/-- What became of a promise. -/
inductive Settlement where
  | pending
  | fulfilled
  | rejected
  /-- It is garbage, and will never settle. -/
  | unreachable
deriving DecidableEq, Repr

/-- A lifetime promise that was accepted. -/
inductive Ticket where
  | waitUntil (payload : ℕ)
  | respondWith
deriving DecidableEq, Repr

/-- What happened. -/
inductive LifetimeRecord where
  | entered (loop : ℕ)
  | left
  /-- `FetchEvent::dispatch` began. -/
  | dispatched
  /-- Author code dispatches the event again. -/
  | redispatched
  /-- The dispatch is over. -/
  | finished
  | accepted (k : Ticket) (loop : ℕ)
  /-- The reaction to a lifetime promise ran. -/
  | reacted (k : Ticket)
  | abandoned
  /-- The payload of the reaction was collected. -/
  | collected (k : Ticket)
  /-- The interest that was held for the promise was released. -/
  | released (k : Ticket) (loop : ℕ)
  /-- The response was set, with its headers. -/
  | responded (response : ℕ) (headers : List (String × String))
  | taken
deriving DecidableEq, Repr

/-- A `ReadableStream`, as far as reserving it goes. -/
structure BodyStream where
  disturbed : Bool
  locked : Bool
deriving DecidableEq, Repr

/-- A `Response`: whether the record of its body, if it has one, says that its source is disturbed,
and the stream, once there is one. -/
structure Response where
  id : ℕ
  sourceDisturbed : Option Bool
  stream : Option BodyStream
  headers : List (String × String)
deriving DecidableEq, Repr

/-- `LifetimePromisePayload`, and whether the reaction that it belongs to has yet to run. -/
structure LifetimePromisePayload where
  promise : ℕ
  handle : Option ℕ
  waiting : Bool
deriving DecidableEq, Repr

/-- `ExtendableEvent`. -/
structure ExtendableEvent extends Event where
  trusted : Bool
  pendingPromisesCount : ℕ
deriving DecidableEq, Repr

/-- `FetchEvent`, with what its lifetime depends on. -/
structure FetchEvent extends ExtendableEvent where
  potentialResponse : Option ℕ
  potentialResponseHeaders : Option (List (String × String))
  respondInterest : Option ℕ
  respondWithEntered : Bool
  waitToRespond : Bool
  respondWithError : Bool
deriving DecidableEq, Repr

/-- The exceptions thrown at author code. -/
inductive LifetimeError where
  | domException (name message : String)
  /-- `throw_no_event_loop`. -/
  | noEventLoop (what : String)
  /-- The stream is locked. -/
  | typeError
deriving DecidableEq, Repr

/-- A failed assertion. -/
inductive LifetimeAbort where
  /-- `acquire_handle`: interest count overflow. -/
  | interestOverflow
  /-- `InterestHandle` outlived its tracker's count. -/
  | handleOutlived
  /-- `respond_with`: event loop is active. -/
  | noActiveLoop
  /-- `note_lifetime_promise_settled`: the count is zero. -/
  | countUnderflow
  /-- A potential response is set with its headers. -/
  | noHeaders
deriving DecidableEq, Repr

/-- The event, the promises, and the loops. -/
structure Lifetime where
  event : FetchEvent
  /-- `FetchEvent::dispatch` was called. -/
  created : Bool
  /-- The event was collected. -/
  collected : Bool
  promises : ℕ → Settlement
  payloads : ℕ → LifetimePromisePayload
  nextPayload : ℕ
  /-- The promise to which the reactions of `respondWith` have yet to run. -/
  respondReaction : Option ℕ
  active : List ℕ
  /-- How many calls of `with_event_loop` the dispatch in progress is under. -/
  floor : ℕ
  /-- The interest count of each loop. -/
  interest : ℕ → ℕ
  /-- The handles of each loop that others hold. -/
  others : ℕ → ℕ
  log : List LifetimeRecord

/-- What happens next. -/
inductive LifetimeAction where
  | enter (loop : ℕ)
  | leave
  | dispatch
  | dispatchEvent
  | finish
  | waitUntil (promise : ℕ)
  | respondWith (promise : ℕ)
  | settle (promise : ℕ) (fulfilled : Bool)
  | forget (promise : ℕ)
  | lifetimePromiseSettled (payload : ℕ)
  | respondFulfilled (response : Response)
  | respondRejected
  | collect (payload : ℕ)
  | collectEvent
  | abandonRespond
  | takeResponse
  | acquire
  | release (loop : ℕ)
deriving DecidableEq, Repr

namespace Response

/-- `is_unusable`. -/
def isBodyUnusable (r : Response) : Bool :=
  match r.sourceDisturbed with
  | none => false
  | some true => true
  | some false =>
    match r.stream with
    | some stream => stream.disturbed || stream.locked
    | none => false

/-- `acquire_native_reader`. -/
def acquireNativeReader (stream : BodyStream) : Except LifetimeError BodyStream :=
  if stream.locked then .error .typeError else .ok { stream with locked := true }

/-- `reserve_body_for_sending`. -/
def reserveBodyForSending (r : Response) : Except LifetimeError Response :=
  let r := { r with sourceDisturbed := r.sourceDisturbed.map fun _ => true }
  match r.stream with
  | some stream =>
    if !stream.locked then do
      let stream ← acquireNativeReader stream
      pure { r with stream := some stream }
    else pure r
  | none => pure r

/-- Reserving the body does not throw. -/
theorem reserveBodyForSending_ok (r : Response) :
    ∃ r', r.reserveBodyForSending = .ok r' ∧ r'.id = r.id ∧ r'.headers = r.headers := by
  obtain ⟨id, disturbed, _ | ⟨d, _ | _⟩, headers⟩ := r <;> exact ⟨_, rfl, rfl, rfl⟩

end Response

namespace FetchEvent

/-- `create_for_request`. -/
def createForRequest : FetchEvent where
  toEvent := .new "fetch" true
  trusted := true
  pendingPromisesCount := 0
  potentialResponse := none
  potentialResponseHeaders := none
  respondInterest := none
  respondWithEntered := false
  waitToRespond := false
  respondWithError := false

/-- `is_active`. -/
def isActive (e : FetchEvent) : Bool := 0 < e.pendingPromisesCount || e.dispatch

end FetchEvent

namespace Lifetime

/-- The event was not created yet. -/
def initial : Lifetime where
  event := .createForRequest
  created := false
  collected := false
  promises _ := .pending
  payloads _ := ⟨0, none, false⟩
  nextPayload := 0
  respondReaction := none
  active := []
  floor := 0
  interest _ := 0
  others _ := 0
  log := []

/-- Record what happened. -/
def record (s : Lifetime) (r : LifetimeRecord) : Lifetime := { s with log := s.log ++ [r] }

/-- `acquire_handle`. -/
def acquireHandle (s : Lifetime) (loop : ℕ) :
    Outcome LifetimeAbort LifetimeError Lifetime Lifetime :=
  Outcome.guard (s.interest loop + 1 < 2 ^ 32) .interestOverflow >>= fun _ =>
  pure { s with interest := Function.update s.interest loop (s.interest loop + 1) }

/-- A handle is dropped, if there is one, that was held for a lifetime promise. -/
def dropHandle (s : Lifetime) (k : Ticket) :
    Option ℕ → Outcome LifetimeAbort LifetimeError Lifetime Lifetime
  | none => pure s
  | some loop =>
    Outcome.guard (0 < s.interest loop) .handleOutlived >>= fun _ =>
    pure (record { s with interest := Function.update s.interest loop (s.interest loop - 1) }
      (.released k loop))

/-- `check_can_extend_lifetime`. -/
def checkCanExtendLifetime (s : Lifetime) (caller : String) :
    Outcome LifetimeAbort LifetimeError Lifetime Unit :=
  if !s.event.trusted then
    .threw (.domException "InvalidStateError"
      (caller ++ " can only be called on a trusted event, " ++
      "not on one constructed and dispatched by script")) s
  else if !s.event.isActive then
    .threw (.domException "InvalidStateError" (caller ++ " must be called while the event is " ++
      "active: during its dispatch, or while an earlier lifetime promise is still pending")) s
  else pure ()

/-- `note_lifetime_promise_pending`. -/
def noteLifetimePromisePending (s : Lifetime) : Lifetime :=
  { s with event.pendingPromisesCount := s.event.pendingPromisesCount + 1 }

/-- `note_lifetime_promise_settled`. -/
def noteLifetimePromiseSettled (s : Lifetime) :
    Outcome LifetimeAbort LifetimeError Lifetime Lifetime :=
  Outcome.guard (0 < s.event.pendingPromisesCount) .countUnderflow >>= fun _ =>
  pure { s with event.pendingPromisesCount := s.event.pendingPromisesCount - 1 }

/-- `add_lifetime_promise`, for `waitUntil`. -/
def addLifetimePromise (s : Lifetime) (promise : ℕ) (caller : String) :
    Outcome LifetimeAbort LifetimeError Lifetime Lifetime :=
  s.checkCanExtendLifetime caller >>= fun _ =>
  match s.active.head? with
  | none => .threw (.noEventLoop caller) s
  | some loop =>
    s.acquireHandle loop >>= fun s =>
    pure (noteLifetimePromisePending (record { s with
      payloads := Function.update s.payloads s.nextPayload ⟨promise, some loop, true⟩
      nextPayload := s.nextPayload + 1 } (.accepted (.waitUntil s.nextPayload) loop)))

/-- `respond_with`. -/
def respondWith (s : Lifetime) (promise : ℕ) :
    Outcome LifetimeAbort LifetimeError Lifetime Lifetime :=
  if !s.event.dispatch then
    .threw (.domException "InvalidStateError"
      "respondWith must be called during fetch event dispatch") s
  else if s.event.respondWithEntered then
    .threw (.domException "InvalidStateError"
      "respondWith has already been called on this FetchEvent") s
  else
    s.checkCanExtendLifetime "respondWith" >>= fun _ =>
    Outcome.expect s.active.head? .noActiveLoop >>= fun loop =>
    acquireHandle { s with respondReaction := some promise } loop >>= fun s =>
    s.dropHandle .respondWith s.event.respondInterest >>= fun s =>
    let s := noteLifetimePromisePending (record { s with event.respondInterest := some loop }
      (.accepted .respondWith loop))
    pure { s with
      event.stopPropagation := true
      event.stopImmediatePropagation := true
      event.respondWithEntered := true
      event.waitToRespond := true }

/-- `lifetime_promise_settled_cb`. -/
def lifetimePromiseSettledCb (s : Lifetime) (i : ℕ) :
    Outcome LifetimeAbort LifetimeError Lifetime Lifetime :=
  s.noteLifetimePromiseSettled >>= fun s =>
  let payload := { s.payloads i with handle := none, waiting := false }
  dropHandle { s with payloads := Function.update s.payloads i payload } (.waitUntil i)
    (s.payloads i).handle

/-- What the reactions of `respondWith` end with: the flags, the interest and the count. -/
def respondSettled (s : Lifetime) : Outcome LifetimeAbort LifetimeError Lifetime Lifetime :=
  dropHandle { s with event.waitToRespond := false, event.respondInterest := none } .respondWith
    s.event.respondInterest >>= fun s =>
  s.noteLifetimePromiseSettled

/-- `on_respond_fulfilled`. -/
def onRespondFulfilled (s : Lifetime) (response : Response) :
    Outcome LifetimeAbort LifetimeError Lifetime Lifetime :=
  if response.isBodyUnusable then respondSettled { s with event.respondWithError := true }
  else
    match response.reserveBodyForSending with
    | .error e => .threw e s
    | .ok response =>
      respondSettled (record { s with
        event.potentialResponseHeaders := some response.headers
        event.potentialResponse := some response.id } (.responded response.id response.headers))

/-- `on_respond_rejected`. -/
def onRespondRejected (s : Lifetime) : Outcome LifetimeAbort LifetimeError Lifetime Lifetime :=
  respondSettled { s with event.respondWithError := true }

/-- `abandon_respond`. -/
def abandonRespond (s : Lifetime) : Outcome LifetimeAbort LifetimeError Lifetime Lifetime :=
  dropHandle { s with event.respondInterest := none } .respondWith s.event.respondInterest

/-- The serve path reads the response and takes its headers. -/
def takeResponse (s : Lifetime) : Outcome LifetimeAbort LifetimeError Lifetime Lifetime :=
  match s.event.potentialResponse with
  | none => pure s
  | some _ =>
    Outcome.expect s.event.potentialResponseHeaders .noHeaders >>= fun _ =>
    pure (record { s with event.potentialResponseHeaders := none } .taken)

/-- No reaction to a lifetime promise will run any more, and the event is not dispatched. -/
def isUnreachable (s : Lifetime) : Bool :=
  !s.event.dispatch && s.respondReaction.all (fun p => s.promises p = .unreachable) &&
    (List.range s.nextPayload).all fun i =>
      !(s.payloads i).waiting || s.promises (s.payloads i).promise = .unreachable

/-- One step. -/
def step (s : Lifetime) : LifetimeAction → Outcome LifetimeAbort LifetimeError Lifetime Lifetime
  | .enter loop => pure (record { s with active := loop :: s.active } (.entered loop))
  | .leave =>
    if s.floor < s.active.length then pure (record { s with active := s.active.tail } .left)
    else pure s
  | .dispatch =>
    if !s.created && !s.active.isEmpty then
      pure (record { s with created := true, event.dispatch := true, floor := s.active.length }
        .dispatched)
    else pure s
  | .dispatchEvent =>
    -- the event is being dispatched already: an `InvalidStateError`
    if s.created && !s.collected && !s.event.dispatch then
      pure (record
        { s with event.trusted := false, event.dispatch := true, floor := s.active.length }
        .redispatched)
    else pure s
  | .finish =>
    if s.event.dispatch then
      pure (record { s with event.toEvent := s.event.stopDispatching, floor := 0 } .finished)
    else pure s
  | .waitUntil promise =>
    if s.created && !s.collected && s.promises promise ≠ .unreachable then
      s.addLifetimePromise promise "waitUntil"
    else pure s
  | .respondWith promise =>
    if s.created && !s.collected && s.promises promise ≠ .unreachable then s.respondWith promise
    else pure s
  | .settle promise fulfilled =>
    if s.promises promise = .pending then
      let settlement := if fulfilled then Settlement.fulfilled else .rejected
      pure { s with promises := Function.update s.promises promise settlement }
    else pure s
  | .forget promise =>
    if s.promises promise = .pending then
      pure { s with promises := Function.update s.promises promise .unreachable }
    else pure s
  | .lifetimePromiseSettled i =>
    if (s.payloads i).waiting && (s.promises (s.payloads i).promise = .fulfilled ||
        s.promises (s.payloads i).promise = .rejected) then
      (s.record (.reacted (.waitUntil i))).lifetimePromiseSettledCb i
    else pure s
  | .respondFulfilled response =>
    if s.respondReaction.any (fun p => s.promises p = .fulfilled) then
      (record { s with respondReaction := none }
        (.reacted .respondWith)).onRespondFulfilled response
    else pure s
  | .respondRejected =>
    if s.respondReaction.any (fun p => s.promises p = .rejected) then
      (record { s with respondReaction := none } (.reacted .respondWith)).onRespondRejected
    else pure s
  | .collect i =>
    if i < s.nextPayload &&
        (!(s.payloads i).waiting || s.promises (s.payloads i).promise = .unreachable) then
      let payload := { s.payloads i with handle := none }
      dropHandle (record { s with payloads := Function.update s.payloads i payload }
        (.collected (.waitUntil i))) (.waitUntil i) (s.payloads i).handle
    else pure s
  | .collectEvent =>
    if s.created && s.isUnreachable then
      dropHandle (record { s with collected := true, event.respondInterest := none }
        (.collected .respondWith)) .respondWith s.event.respondInterest
    else pure s
  | .abandonRespond =>
    if s.created && !s.collected then (s.record .abandoned).abandonRespond else pure s
  | .takeResponse =>
    if s.created && !s.collected && .taken ∉ s.log then s.takeResponse else pure s
  | .acquire =>
    match s.active.head? with
    | none => pure s
    | some loop => s.acquireHandle loop >>= fun s =>
      pure { s with others := Function.update s.others loop (s.others loop + 1) }
  | .release loop =>
    if 0 < s.others loop then
      Outcome.guard (0 < s.interest loop) .handleOutlived >>= fun _ =>
      pure { s with
        interest := Function.update s.interest loop (s.interest loop - 1)
        others := Function.update s.others loop (s.others loop - 1) }
    else pure s

end Lifetime

/-- A fetch event as a machine. -/
def lifetimeMachine : Machine LifetimeAbort LifetimeError Lifetime LifetimeAction := ⟨Lifetime.step⟩

end FetchEvents
