import StarlingMonkey.WebGlobals.Events

/-!
# Abort signals

The abort signals of `signals/abort_signal.rs` and the parts of `signals/algorithms.rs` that run no
JS. `log` records what happened, and nothing reads it.
-/

namespace WebGlobals

/-- An abort reason: a value that was given, or an `AbortError` exception that was made for it. -/
inductive Reason where
  | value (v : ℕ)
  | abortError (n : ℕ)
deriving DecidableEq, Repr

/-- `AbortAlgorithm`. -/
inductive AbortAlgorithm where
  | removeListener (held : Target) (listenerId : ℕ)
  | runSteps (callback : ℕ)
deriving DecidableEq, Repr

/-- `AbortSignal`, without the listeners it has as a target. -/
structure AbortSignal where
  abortReason : Option Reason
  dependent : Bool
  sourceSignals : List ℕ
  dependentSignals : List ℕ
  abortAlgorithms : List AbortAlgorithm
deriving DecidableEq, Repr

/-- What happened. -/
inductive SignalRecord where
  /-- A signal was created. One that was aborted from the start has a reason. -/
  | created (signal : ℕ) (reason : Option Reason) (dependent : Bool) (sources : List ℕ)
  | registered (signal : ℕ) (a : AbortAlgorithm)
  /-- `remove_abort_algorithm` was called. -/
  | unregistered (signal : ℕ) (callback : ℕ)
  /-- The signal was given its reason by `signal_abort`. -/
  | aborted (signal : ℕ) (reason : Reason)
  /-- `run_the_abort_steps` began for the signal. -/
  | began (signal : ℕ)
  | ran (signal : ℕ) (a : AbortAlgorithm)
  /-- The `abort` event was fired at the signal. -/
  | fired (signal : ℕ)
deriving DecidableEq, Repr

/-- The signals. -/
structure Signalling where
  signals : ℕ → AbortSignal
  nextSignal : ℕ
  nextError : ℕ
  log : List SignalRecord

namespace AbortSignal

/-- `AbortSignal::new`. -/
def new : AbortSignal where
  abortReason := none
  dependent := false
  sourceSignals := []
  dependentSignals := []
  abortAlgorithms := []

/-- `aborted`. -/
def aborted (s : AbortSignal) : Bool := s.abortReason.isSome

end AbortSignal

namespace Signalling

/-- There are no signals yet. -/
def initial : Signalling where
  signals _ := .new
  nextSignal := 0
  nextError := 0
  log := []

/-- Record what happened. -/
def record (s : Signalling) (r : SignalRecord) : Signalling := { s with log := s.log ++ [r] }

/-- Change a signal. -/
def modify (s : Signalling) (signal : ℕ) (f : AbortSignal → AbortSignal) : Signalling :=
  { s with signals := Function.update s.signals signal (f (s.signals signal)) }

/-- A new signal with the fields of `sig`. -/
def create (s : Signalling) (sig : AbortSignal) : Signalling :=
  { s with
    signals := Function.update s.signals s.nextSignal sig
    nextSignal := s.nextSignal + 1
    log := s.log ++ [.created s.nextSignal sig.abortReason sig.dependent sig.sourceSignals] }

@[simp] theorem create_self (s : Signalling) (sig : AbortSignal) :
    (s.create sig).signals s.nextSignal = sig := Function.update_self ..

theorem create_of_ne (s : Signalling) (sig : AbortSignal) {x : ℕ} (hx : x ≠ s.nextSignal) :
    (s.create sig).signals x = s.signals x := Function.update_of_ne hx ..

/-- The reason that is given, or a new `AbortError`. -/
def reasonOf (s : Signalling) : Option ℕ → Reason × Signalling
  | some v => (.value v, s)
  | none => (.abortError s.nextError, { s with nextError := s.nextError + 1 })

/-- `AbortSignal::abort`. -/
def abortedSignal (s : Signalling) (reason : Option ℕ) : Signalling :=
  (s.reasonOf reason).2.create { AbortSignal.new with abortReason := some (s.reasonOf reason).1 }

/-- The sources that step 4 of `create_dependent_abort_signal` collects: those it has, and those of
the remaining `signals`. Each is a signal that depends on none, or a source of one that does. -/
def collectSources (s : Signalling) : List ℕ → List ℕ → List ℕ
  | sources, [] => sources
  | sources, signal :: signals =>
    if !(s.signals signal).dependent then s.collectSources (sources ++ [signal]) signals
    else
      s.collectSources
        ((s.signals signal).sourceSignals.foldl (fun sources source =>
          if sources.contains source then sources else sources ++ [source]) sources) signals

/-- Append `result` to the dependent signals of each source, once for each time it is there. -/
def linkSources (s : Signalling) (result : ℕ) (sources : List ℕ) : Signalling :=
  sources.foldl (fun s source =>
    s.modify source fun sig => { sig with dependentSignals := sig.dependentSignals ++ [result] }) s

/-- `create_dependent_abort_signal`. -/
def createDependentAbortSignal (s : Signalling) (signals : List ℕ) : Signalling :=
  match signals.findSome? fun signal => (s.signals signal).abortReason with
  | some reason => s.create { AbortSignal.new with abortReason := some reason }
  | none =>
    let sources := s.collectSources [] signals
    (s.create { AbortSignal.new with dependent := true, sourceSignals := sources }).linkSources
      s.nextSignal sources

/-- `add_abort_algorithm` and `add_listener_removal_algorithm`. -/
def add (s : Signalling) (signal : ℕ) (a : AbortAlgorithm) : Signalling :=
  if (s.signals signal).aborted then s
  else (s.modify signal fun sig =>
    { sig with abortAlgorithms := sig.abortAlgorithms ++ [a] }).record (.registered signal a)

/-- `remove_abort_algorithm`. -/
def removeAbortAlgorithm (s : Signalling) (signal : ℕ) (callback : ℕ) : Signalling :=
  (s.modify signal fun sig =>
    { sig with abortAlgorithms := sig.abortAlgorithms.filter (· ≠ .runSteps callback) }).record
    (.unregistered signal callback)

/-- Steps 2 of `signal_abort` for one signal. -/
def setReason (s : Signalling) (signal : ℕ) (reason : Reason) : Signalling :=
  (s.modify signal fun sig => { sig with abortReason := some reason }).record
    (.aborted signal reason)

/-- Step 4 of `signal_abort`: the dependent signals that are not aborted get the reason; they are to
be aborted. -/
def abortDependents (s : Signalling) (reason : Reason) : List ℕ → Signalling × List ℕ
  | [] => (s, [])
  | dependent :: dependents =>
    if (s.signals dependent).aborted then s.abortDependents reason dependents
    else
      let (s', toAbort) := (s.setReason dependent reason).abortDependents reason dependents
      (s', dependent :: toAbort)

/-- Steps 1 to 4 of `signal_abort`: nothing for a signal that is aborted, else the dependent signals
to abort. -/
def signalAbort (s : Signalling) (signal : ℕ) (reason : Option ℕ) : Option (Signalling × List ℕ) :=
  if (s.signals signal).aborted then none
  else
    let (reason, s) := s.reasonOf reason
    let s := s.setReason signal reason
    some (s.abortDependents reason (s.signals signal).dependentSignals)

/-- `run_the_abort_steps` takes the algorithms of the signal. -/
def begin (s : Signalling) (signal : ℕ) : Signalling :=
  (s.modify signal fun sig => { sig with abortAlgorithms := [] }).record (.began signal)

end Signalling

end WebGlobals
