import Mathlib.Algebra.Order.Ring.Int
import Mathlib.Tactic.Common

/-!
# Events and event listeners

The listener lists of event targets and the flags of events, as `events/algorithms.rs`,
`events/event.rs` and `events/event_target.rs` keep them. A target is an ordinary object or an abort
signal; events, listeners and dispatches are numbered as they are made, and a callback is known by a
number that stands for its identity.

`log` records what happened, and nothing reads it.
-/

namespace WebGlobals

/-- `EventTarget`: an object of its own, or the base of an `AbortSignal`. -/
inductive Target where
  | object (n : ℕ)
  | signal (n : ℕ)
deriving DecidableEq, Repr

/-- `EventListener`. -/
structure EventListener where
  id : ℕ
  eventType : String
  callback : ℕ
  capture : Bool
  passive : Option Bool
  once : Bool
deriving DecidableEq, Repr

/-- `Event`, with the flags that the algorithms read. -/
structure Event where
  eventType : String
  target : Option Target
  stopPropagation : Bool
  stopImmediatePropagation : Bool
  canceled : Bool
  inPassiveListener : Bool
  dispatch : Bool
  initialized : Bool
  cancelable : Bool
deriving DecidableEq, Repr

/-- `ListenerSnapshot`. -/
structure ListenerSnapshot where
  id : ℕ
  passive : Option Bool
  once : Bool
deriving DecidableEq, Repr

/-- What happened. -/
inductive EventRecord where
  /-- An event was created, or initialized again. -/
  | initialized (event : ℕ) (eventType : String) (cancelable : Bool)
  /-- `stopPropagation()` or `stopImmediatePropagation()` was called. -/
  | stopped (event : ℕ) (immediate : Bool)
  /-- `preventDefault()` was called. -/
  | prevented (event : ℕ)
  | added (target : Target) (listener : EventListener)
  /-- A listener left the list. -/
  | removed (target : Target) (id : ℕ)
  /-- `addEventListener` was called for the listener with a signal. -/
  | linked (signal : ℕ) (target : Target) (id : ℕ)
  /-- The abort of the signal removes the listener. -/
  | severed (signal : ℕ) (target : Target) (id : ℕ)
  /-- A dispatch began, with the listeners it is to invoke. -/
  | started (dispatch event : ℕ) (target : Target) (ids : List ℕ)
  /-- The turn of a listener came that was no longer in the list. -/
  | skipped (dispatch id : ℕ)
  /-- The turn of a listener came and it was called. -/
  | called (dispatch event id : ℕ) (passive : Bool)
  | returned (dispatch event : ℕ)
  | finished (dispatch event : ℕ) (result : Bool)
deriving DecidableEq, Repr

/-- The targets and the events. -/
structure Listening where
  /-- `event_listener_list`. -/
  listeners : Target → List EventListener
  events : ℕ → Event
  nextEvent : ℕ
  /-- `NEXT_LISTENER_ID`. -/
  nextListener : ℕ
  nextDispatch : ℕ
  log : List EventRecord

namespace Event

/-- `Event::new_untrusted`. -/
def new (eventType : String) (cancelable : Bool) : Event where
  eventType := eventType
  target := none
  stopPropagation := false
  stopImmediatePropagation := false
  canceled := false
  inPassiveListener := false
  dispatch := false
  initialized := true
  cancelable := cancelable

/-- `Event::cancel`. -/
def cancel (e : Event) : Event :=
  if e.cancelable && !e.inPassiveListener then { e with canceled := true } else e

/-- `EventImpl::initialize`. -/
def reinit (e : Event) (type : String) (cancelable : Bool) : Event :=
  { e with
    initialized := true
    stopPropagation := false
    stopImmediatePropagation := false
    canceled := false
    target := none
    eventType := type
    cancelable }

/-- `stop_dispatching`. -/
def stopDispatching (e : Event) : Event :=
  { e with dispatch := false, stopPropagation := false, stopImmediatePropagation := false }

end Event

namespace Listening

/-- Nothing has happened yet. -/
def initial : Listening where
  listeners _ := []
  events _ := .new "" false
  nextEvent := 0
  nextListener := 0
  nextDispatch := 0
  log := []

/-- Record what happened. -/
def record (s : Listening) (r : EventRecord) : Listening := { s with log := s.log ++ [r] }

/-- Change an event. -/
def modifyEvent (s : Listening) (event : ℕ) (f : Event → Event) : Listening :=
  { s with events := Function.update s.events event (f (s.events event)) }

/-- Create an event. -/
def newEvent (s : Listening) (eventType : String) (cancelable : Bool) : Listening :=
  { s with
    events := Function.update s.events s.nextEvent (.new eventType cancelable)
    nextEvent := s.nextEvent + 1
    log := s.log ++ [.initialized s.nextEvent eventType cancelable] }

/-- `init_event`. -/
def initEvent (s : Listening) (event : ℕ) (eventType : String) (cancelable : Bool) : Listening :=
  if (s.events event).dispatch then s
  else (s.modifyEvent event (·.reinit eventType cancelable)).record
    (.initialized event eventType cancelable)

/-- `prevent_default`. -/
def preventDefault (s : Listening) (event : ℕ) : Listening := s.modifyEvent event Event.cancel

/-- `stop_propagation`. -/
def stopPropagation (s : Listening) (event : ℕ) : Listening :=
  s.modifyEvent event fun e => { e with stopPropagation := true }

/-- `stop_immediate_propagation`. -/
def stopImmediatePropagation (s : Listening) (event : ℕ) : Listening :=
  s.modifyEvent event fun e => { e with stopPropagation := true, stopImmediatePropagation := true }

/-- Keep the listeners of a target that satisfy `p`. -/
def retain (s : Listening) (target : Target) (p : EventListener → Bool) : Listening :=
  { s with
    listeners := Function.update s.listeners target ((s.listeners target).filter p)
    log := s.log ++ ((s.listeners target).filter fun l => !p l).map (.removed target ·.id) }

/-- Steps 5 of `add_an_event_listener`: the listener is appended unless the list has one like it;
its id, or that of the one it has. -/
def append (s : Listening) (target : Target) (eventType : String) (callback : ℕ) (capture : Bool)
    (passive : Option Bool) (once : Bool) : Listening × ℕ :=
  match (s.listeners target).find? fun l =>
      l.eventType = eventType && l.capture = capture && l.callback = callback with
  | some l => (s, l.id)
  | none =>
    let l : EventListener := ⟨s.nextListener, eventType, callback, capture, passive, once⟩
    ({ s with
      listeners := Function.update s.listeners target (s.listeners target ++ [l])
      nextListener := s.nextListener + 1
      log := s.log ++ [.added target l] }, l.id)

/-- `remove_an_event_listener`. -/
def removeAnEventListener (s : Listening) (target : Target) (eventType : String) (callback : ℕ)
    (capture : Bool) : Listening :=
  s.retain target fun l =>
    !(l.eventType = eventType && l.capture = capture && l.callback = callback)

/-- `remove_an_event_listener_by_id`. -/
def removeAnEventListenerById (s : Listening) (target : Target) (id : ℕ) : Listening :=
  s.retain target fun l => l.id ≠ id

/-- The snapshot `invoke_listeners` takes: none if propagation was stopped. -/
def snapshots (s : Listening) (event : ℕ) (target : Target) : List ListenerSnapshot :=
  if (s.events event).stopPropagation then []
  else ((s.listeners target).filter fun l => l.eventType = (s.events event).eventType).map
    fun l => ⟨l.id, l.passive, l.once⟩

/-- The turn of a listener in a dispatch: what it finds in the list, and whether it is called. -/
def visit (s : Listening) (d event : ℕ) (target : Target) (snap : ListenerSnapshot) :
    Listening × Bool :=
  if (s.listeners target).any (·.id = snap.id) then
    let s := if snap.once then s.retain target fun l => l.id ≠ snap.id else s
    let s := if snap.passive = some true then
      s.modifyEvent event fun e => { e with inPassiveListener := true } else s
    (s.record (.called d event snap.id (snap.passive = some true)), true)
  else (s.record (.skipped d snap.id), false)

/-- A dispatch begins. -/
def start (s : Listening) (event : ℕ) (target : Target) : Listening :=
  { s.modifyEvent event fun e => { e with dispatch := true, target := some target } with
    nextDispatch := s.nextDispatch + 1
    log := s.log ++
      [.started s.nextDispatch event target ((s.snapshots event target).map (·.id))] }

/-- A listener has returned. -/
def return_ (s : Listening) (d event : ℕ) : Listening :=
  (s.modifyEvent event fun e => { e with inPassiveListener := false }).record (.returned d event)

/-- A dispatch ends, with its result. -/
def finish (s : Listening) (d event : ℕ) : Listening :=
  (s.modifyEvent event Event.stopDispatching).record (.finished d event !(s.events event).canceled)

end Listening

end WebGlobals
