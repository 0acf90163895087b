import StarlingMonkey.Lib.Run
import StarlingMonkey.Lib.Protocol
import StarlingMonkey.Lib.Ledger

/-!
# The registry of pending futures

The futures that settle promises, as `promise.rs` keeps them: a list of those that were spawned, a
list of those a loop has adopted, and what a poll turn and the settlement of its completions hold
in local variables while they run.

A poll, a resolve callback and a promise that is resolved can run JS, which calls into the registry
in turn, so that turns and settlements nest: `frames` is the stack of those in progress, and the
operations of the registry may come at any moment. A future is known by the number in which it was
spawned; `log` records what happened to it, and no function of the registry reads it.
-/

namespace Js

/-- `PendingPromise`: a future with the loop that owns it and the promise it is to settle. -/
structure PendingPromise where
  id : ℕ
  owner : ℕ
  promise : ℕ
  /-- The outcome that the poll of `spawn_polled` returned: `some true` is to resolve. -/
  ready : Option Bool
deriving DecidableEq, Repr

/-- `CompletedFuture`: a future that completed, and whether it is to resolve its promise. -/
structure CompletedFuture where
  future : PendingPromise
  resolves : Bool
deriving DecidableEq, Repr

/-- What is in progress. -/
inductive Frame where
  /-- `with_event_loop`. -/
  | scope (owner : ℕ)
  /-- The first poll of `spawn_polled`. -/
  | spawning (f : PendingPromise)
  /-- `poll_pending_futures`: the future that is polled, those to come, those that are still
  pending, and those that completed. -/
  | polling (owner : ℕ) (current : Option PendingPromise)
      (futures stillPending : List PendingPromise) (completed : List CompletedFuture)
  /-- `settle_completed_futures`: the future whose promise is settled, and those to come. -/
  | settling (current : Option CompletedFuture) (completed : List CompletedFuture)
deriving DecidableEq, Repr

/-- What happened. -/
inductive FutureRecord where
  | created (id owner promise : ℕ)
  /-- A future was polled, in a turn of the loop. -/
  | polled (owner id : ℕ)
  | completed (id : ℕ)
  /-- The resolve callback of a future was called. -/
  | resolving (id : ℕ)
  /-- The promise was settled by the future. -/
  | settled (id : ℕ)
  /-- A cancellation dropped a future that was queued, completed or not. -/
  | dropped (id : ℕ) (completed : Bool)
  /-- `cancel_pending_future` returned. -/
  | cancelled (promise : ℕ)
  /-- `has_pending_futures` returned. -/
  | asked (owner : ℕ) (answer : Bool)
  /-- The task that polls was woken, to adopt what was spawned meanwhile. -/
  | woke (owner : ℕ)
deriving DecidableEq, Repr

/-- `PromiseTls`, and what is in progress. -/
structure Futures where
  /-- Futures waiting for an event loop to adopt them. -/
  pending : List PendingPromise
  /-- The futures an event loop has adopted. -/
  active : List PendingPromise
  frames : List Frame
  /-- The number of the next future. -/
  next : ℕ
  log : List FutureRecord
deriving DecidableEq, Repr

/-- Why the process aborted. -/
inductive FutureAbort where
  /-- The unowned futures were cancelled as if a loop owned them. -/
  | unowned
deriving DecidableEq, Repr

/-- What happens next. -/
inductive FutureEvent where
  /-- `with_event_loop` is entered, and left. -/
  | enter (owner : ℕ)
  | leave
  | spawn (promise : ℕ)
  /-- `spawn_polled` is called, and its poll returns. -/
  | spawnPolled (promise : ℕ)
  | firstPolled (outcome : Option Bool)
  /-- `poll_pending_futures` is called; it goes on to the next future; the poll returns; it
  returns and the completions are settled. -/
  | turn (owner : ℕ)
  | poll
  | ready (resolves : Bool)
  | notReady
  | endTurn
  /-- The next promise is settled, was settled; there is none left. -/
  | settle
  | settled
  | endSettle
  | cancelPendingFuture (promise : ℕ)
  | cancelPendingFuturesFor (owner : ℕ)
  | cancelAllPendingFutures
  | hasPendingFutures (owner : ℕ)
deriving DecidableEq, Repr

namespace PendingPromise

/-- `owned_by`. -/
def ownedBy (f : PendingPromise) (owner : ℕ) : Bool := f.owner = owner || f.owner = 0

end PendingPromise

namespace Frame

/-- The futures a frame holds that are running or queued. -/
def unsettled : Frame → List PendingPromise
  | .scope _ | .settling .. => []
  | .spawning f => [f]
  | .polling _ current futures stillPending _ => current.toList ++ futures ++ stillPending

/-- The futures a frame holds that completed. -/
def completed : Frame → List CompletedFuture
  | .scope _ | .spawning _ => []
  | .polling _ _ _ _ completed => completed
  | .settling current completed => current.toList ++ completed

/-- The futures a frame holds. -/
def futures (fr : Frame) : List PendingPromise :=
  fr.unsettled ++ fr.completed.map CompletedFuture.future

end Frame

namespace Futures

/-- Nothing was spawned yet. -/
def initial : Futures where
  pending := []
  active := []
  frames := []
  next := 0
  log := []

/-- `current_future_owner`: the loop that is active, `0` if none is. -/
def currentOwner (s : Futures) : ℕ :=
  (s.frames.findSome? fun | .scope owner => some owner | _ => none).getD 0

/-- Record what happened. -/
def record (s : Futures) (r : FutureRecord) : Futures := { s with log := s.log ++ [r] }

/-- Drop the futures of the two lists that match. -/
def dropMatching (s : Futures) (p : PendingPromise → Bool) : Futures :=
  { s with
    pending := s.pending.filter fun f => !p f
    active := s.active.filter fun f => !p f
    log := s.log ++ ((s.pending ++ s.active).filter p).map
      fun f => .dropped f.id f.ready.isSome }

/-- `has_pending_futures`. -/
def hasPendingFutures (s : Futures) (owner : ℕ) : Bool :=
  s.active.any (·.ownedBy owner) || s.pending.any (·.ownedBy owner)

/-- One event. An event that does not fit what is in progress does nothing. -/
def step (s : Futures) : FutureEvent → Outcome FutureAbort Empty Futures Futures
  | .enter owner => pure { s with frames := .scope owner :: s.frames }
  | .leave =>
    match s.frames with
    | .scope _ :: frames => pure { s with frames }
    | _ => pure s
  | .spawn promise =>
    pure (record { s with
      pending := s.pending ++ [⟨s.next, s.currentOwner, promise, none⟩]
      next := s.next + 1 } (.created s.next s.currentOwner promise))
  | .spawnPolled promise =>
    let s' := record { s with
      frames := .spawning ⟨s.next, s.currentOwner, promise, none⟩ :: s.frames
      next := s.next + 1 } (.created s.next s.currentOwner promise)
    pure (s'.record (.polled s.currentOwner s.next))
  | .firstPolled outcome =>
    match s.frames with
    | .spawning f :: frames =>
      let s := { s with frames, pending := s.pending ++ [{ f with ready := outcome }] }
      pure (if outcome.isSome then s.record (.completed f.id) else s)
    | _ => pure s
  | .turn owner =>
    pure { s with
      frames := .polling owner none (s.active ++ s.pending) [] [] :: s.frames
      active := []
      pending := [] }
  | .poll =>
    match s.frames with
    | .polling owner none (f :: futures) stillPending completed :: frames =>
      if !f.ownedBy owner then
        pure { s with
          frames := .polling owner none futures (stillPending ++ [f]) completed :: frames }
      else
        match f.ready with
        | some resolves =>
          -- the future of `spawn_polled` that its first poll has completed
          pure { s with
            frames :=
              .polling owner none futures stillPending (completed ++ [⟨f, resolves⟩]) :: frames }
        | none =>
          pure (record { s with
            frames := .polling owner (some f) futures stillPending completed :: frames }
            (.polled owner f.id))
    | _ => pure s
  | .ready resolves =>
    match s.frames with
    | .polling owner (some f) futures stillPending completed :: frames =>
      pure (record { s with
        frames := .polling owner none futures stillPending (completed ++ [⟨f, resolves⟩]) ::
          frames }
        (.completed f.id))
    | _ => pure s
  | .notReady =>
    match s.frames with
    | .polling owner (some f) futures stillPending completed :: frames =>
      pure { s with
        frames := .polling owner none futures (stillPending ++ [f]) completed :: frames }
    | _ => pure s
  | .endTurn =>
    match s.frames with
    | .polling owner none [] stillPending completed :: frames =>
      let s := { s with
        active := s.active ++ stillPending
        frames := .settling none completed :: frames }
      pure (if s.pending.isEmpty then s else s.record (.woke owner))
    | _ => pure s
  | .settle =>
    match s.frames with
    | .settling none (c :: completed) :: frames =>
      let s := { s with frames := .settling (some c) completed :: frames }
      pure (if c.resolves then s.record (.resolving c.future.id) else s)
    | _ => pure s
  | .settled =>
    match s.frames with
    | .settling (some c) completed :: frames =>
      pure (record { s with frames := .settling none completed :: frames } (.settled c.future.id))
    | _ => pure s
  | .endSettle =>
    match s.frames with
    | .settling none [] :: frames => pure { s with frames }
    | _ => pure s
  | .cancelPendingFuture promise =>
    pure ((s.dropMatching fun f => f.promise = promise).record (.cancelled promise))
  | .cancelPendingFuturesFor owner =>
    if owner = 0 then .panic .unowned else pure (s.dropMatching fun f => f.owner = owner)
  | .cancelAllPendingFutures => pure (s.dropMatching fun _ => true)
  | .hasPendingFutures owner => pure (s.record (.asked owner (s.hasPendingFutures owner)))

end Futures

/-- The registry as a machine. -/
def futuresMachine : Machine FutureAbort Empty Futures FutureEvent := ⟨Futures.step⟩

end Js
