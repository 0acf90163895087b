import StarlingMonkey.Lib.Run
import StarlingMonkey.WebGlobals.Signals

/-!
# Dispatching events and aborting signals

Listeners and abort algorithms are JS, which may call back into all of this: dispatches and aborts
nest. `frames` is the stack of those in progress. While a frame calls out, or none is in progress,
JS performs actions in any order; `advance` lets the frame on top go on to where it next calls out
or ends, and `return_` ends a call, whether it returned or threw. The microtasks that run before
an algorithm goes on are part of the call.

The allocation of events and exceptions succeeds.
-/

namespace WebGlobals

/-- What is in progress. -/
inductive Frame where
  /-- `invoke_listeners`: the listener that is called, and those to come. -/
  | dispatching (dispatch event : ℕ) (target : Target) (current : Option ListenerSnapshot)
      (snapshots : List ListenerSnapshot)
  /-- `signal_abort`, running the abort steps of a signal: whether an algorithm is called, those to
  come, whether the event was fired, and the dependent signals that come next. -/
  | aborting (signal : ℕ) (calling : Bool) (pending : List AbortAlgorithm) (fired : Bool)
      (dependents : List ℕ)
deriving DecidableEq, Repr

/-- The targets, the signals, and what is in progress. -/
structure Dom where
  ev : Listening
  sig : Signalling
  frames : List Frame

/-- What JS does, or what goes on. -/
inductive Action where
  | newEvent (eventType : String) (cancelable : Bool)
  | initEvent (event : ℕ) (eventType : String) (cancelable : Bool)
  | preventDefault (event : ℕ)
  | stopPropagation (event : ℕ)
  | stopImmediatePropagation (event : ℕ)
  | addEventListener (target : Target) (eventType : String) (callback : ℕ) (capture : Bool)
      (passive : Option Bool) (once : Bool) (signal : Option ℕ)
  | removeEventListener (target : Target) (eventType : String) (callback : ℕ) (capture : Bool)
  | dispatchEvent (event : ℕ) (target : Target)
  /-- `new AbortController()` or `AbortSignal.timeout()`. -/
  | newSignal
  | abortedSignal (reason : Option ℕ)
  | any (signals : List ℕ)
  | addAbortAlgorithm (signal callback : ℕ)
  | removeAbortAlgorithm (signal callback : ℕ)
  /-- The controller of the signal aborts it, or its timeout expires. -/
  | abort (signal : ℕ) (reason : Option ℕ)
  | advance
  | return_
deriving DecidableEq, Repr

/-- A debug assertion that fails. -/
inductive DomAbort where
  /-- `start_dispatching`: the event is dispatched, or its propagation was stopped. -/
  | startDispatching
  /-- `set_in_passive_listener`: the event is not dispatched. -/
  | setInPassiveListener
deriving DecidableEq, Repr

namespace Dom

/-- Nothing has happened yet. -/
def initial : Dom where
  ev := .initial
  sig := .initial
  frames := []

/-- JS runs: a frame calls out, or none is in progress. -/
def calls (s : Dom) : Bool :=
  match s.frames with
  | [] => true
  | .dispatching _ _ _ current _ :: _ => current.isSome
  | .aborting _ calling _ _ _ :: _ => calling

/-- `add_an_event_listener`. -/
def addAnEventListener (s : Dom) (target : Target) (eventType : String) (callback : ℕ)
    (capture : Bool) (passive : Option Bool) (once : Bool) : Option ℕ → Dom
  | none => { s with ev := (s.ev.append target eventType callback capture passive once).1 }
  | some signal =>
    if (s.sig.signals signal).aborted then s
    else
      let (ev, id) := s.ev.append target eventType callback capture passive once
      { s with
        ev := ev.record (.linked signal target id)
        sig := s.sig.add signal (.removeListener target id) }

variable (debug : Bool)

/-- `dispatch`, up to the first listener. -/
def dispatch (s : Dom) (event : ℕ) (target : Target) : Outcome DomAbort Empty Dom Dom :=
  let e := s.ev.events event
  Outcome.guard (!debug || !(e.dispatch || e.stopPropagation || e.stopImmediatePropagation))
    .startDispatching >>= fun _ =>
  pure { s with
    ev := s.ev.start event target
    frames := .dispatching s.ev.nextDispatch event target none (s.ev.snapshots event target) ::
      s.frames }

/-- `fire_an_event`. -/
def fireAnEvent (s : Dom) (name : String) (target : Target) : Outcome DomAbort Empty Dom Dom :=
  dispatch debug { s with ev := s.ev.newEvent name false } s.ev.nextEvent target

/-- `signal_abort`, up to where it next calls out or ends: the abort steps of the signal. -/
def signalAbort (s : Dom) (signal : ℕ) (reason : Option ℕ) : Dom :=
  match s.sig.signalAbort signal reason with
  | none => s
  | some (sig, dependents) =>
    { s with
      sig := sig.begin signal
      frames := .aborting signal false (sig.signals signal).abortAlgorithms false dependents ::
        s.frames }

/-- What JS does. -/
def act (s : Dom) : Action → Outcome DomAbort Empty Dom Dom
  | .newEvent eventType cancelable => pure { s with ev := s.ev.newEvent eventType cancelable }
  | .initEvent event eventType cancelable =>
    if event < s.ev.nextEvent then
      pure { s with ev := s.ev.initEvent event eventType cancelable } else pure s
  | .preventDefault event =>
    if event < s.ev.nextEvent then
      pure { s with ev := (s.ev.preventDefault event).record (.prevented event) }
    else pure s
  | .stopPropagation event =>
    if event < s.ev.nextEvent then
      pure { s with ev := (s.ev.stopPropagation event).record (.stopped event false) }
    else pure s
  | .stopImmediatePropagation event =>
    if event < s.ev.nextEvent then
      pure { s with ev := (s.ev.stopImmediatePropagation event).record (.stopped event true) }
    else pure s
  | .addEventListener target eventType callback capture passive once signal =>
    if signal.all (· < s.sig.nextSignal) then
      pure (s.addAnEventListener target eventType callback capture passive once signal)
    else pure s
  | .removeEventListener target eventType callback capture =>
    pure { s with ev := s.ev.removeAnEventListener target eventType callback capture }
  | .dispatchEvent event target =>
    -- the event is being dispatched already: an `InvalidStateError`
    if event < s.ev.nextEvent && !(s.ev.events event).dispatch && (s.ev.events event).initialized
    then dispatch debug s event target else pure s
  | .newSignal => pure { s with sig := s.sig.create .new }
  | .abortedSignal reason => pure { s with sig := s.sig.abortedSignal reason }
  | .any signals =>
    if signals.all (· < s.sig.nextSignal) then
      pure { s with sig := s.sig.createDependentAbortSignal signals } else pure s
  | .addAbortAlgorithm signal callback =>
    if signal < s.sig.nextSignal then
      pure { s with sig := s.sig.add signal (.runSteps callback) } else pure s
  | .removeAbortAlgorithm signal callback =>
    if signal < s.sig.nextSignal then
      pure { s with sig := s.sig.removeAbortAlgorithm signal callback } else pure s
  | .abort signal reason =>
    -- the signal of a controller or a timeout depends on none
    if signal < s.sig.nextSignal && !(s.sig.signals signal).dependent then
      pure (s.signalAbort signal reason) else pure s
  | .advance | .return_ => pure s

/-- The frame on top goes on. -/
def advance (s : Dom) : Outcome DomAbort Empty Dom Dom :=
  match s.frames with
  | .dispatching d event target none (snap :: snapshots) :: frames =>
    Outcome.guard (!debug || snap.passive ≠ some true || (s.ev.events event).dispatch)
      .setInPassiveListener >>= fun _ =>
    let (ev, called) := s.ev.visit d event target snap
    pure { s with
      ev
      frames := .dispatching d event target (if called then some snap else none) snapshots ::
        frames }
  | .dispatching d event _ none [] :: frames => pure { s with ev := s.ev.finish d event, frames }
  | .aborting signal false (.removeListener held id :: pending) fired dependents :: frames =>
    pure { s with
      ev := (s.ev.record (.severed signal held id)).removeAnEventListenerById held id
      sig := s.sig.record (.ran signal (.removeListener held id))
      frames := .aborting signal false pending fired dependents :: frames }
  | .aborting signal false (.runSteps callback :: pending) fired dependents :: frames =>
    pure { s with
      sig := s.sig.record (.ran signal (.runSteps callback))
      frames := .aborting signal true pending fired dependents :: frames }
  | .aborting signal false [] false dependents :: frames =>
    fireAnEvent debug { s with
      sig := s.sig.record (.fired signal)
      frames := .aborting signal false [] true dependents :: frames } "abort" (.signal signal)
  | .aborting _ false [] true (dependent :: dependents) :: frames =>
    pure { s with
      sig := s.sig.begin dependent
      frames := .aborting dependent false (s.sig.signals dependent).abortAlgorithms false
        dependents :: frames }
  | .aborting _ false [] true [] :: frames => pure { s with frames }
  | _ => pure s

/-- The call of the frame on top ends. -/
def return_ (s : Dom) : Outcome DomAbort Empty Dom Dom :=
  match s.frames with
  | .dispatching d event target (some _) snapshots :: frames =>
    Outcome.guard (!debug || (s.ev.events event).dispatch) .setInPassiveListener >>= fun _ =>
    pure { s with
      ev := s.ev.return_ d event
      frames := .dispatching d event target none
        (if (s.ev.events event).stopImmediatePropagation then [] else snapshots) :: frames }
  | .aborting signal true pending fired dependents :: frames =>
    pure { s with frames := .aborting signal false pending fired dependents :: frames }
  | _ => pure s

/-- One step. JS acts only where it is called. -/
def step (s : Dom) : Action → Outcome DomAbort Empty Dom Dom
  | .advance => s.advance debug
  | .return_ => s.return_ debug
  | a => if s.calls then s.act debug a else pure s

end Dom

/-- Events and signals as a machine, in a debug or a release build. -/
def domMachine (debug : Bool) : Machine DomAbort Empty Dom Action := ⟨Dom.step debug⟩

end WebGlobals
