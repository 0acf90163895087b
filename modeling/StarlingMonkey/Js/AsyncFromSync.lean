import Mathlib.Algebra.Order.Ring.Int
import Mathlib.Tactic.Common

/-!
# Async iteration over a sync iterator

`get_async_iterator` wraps an iterable that is only sync: the `[[NextMethod]]` of its record is
`afs_next`, which calls the sync iterator's `next` and awaits the value. A value that is primitive
is parked on the record, for a continuation that is chained on a promise all iterations share.

* `SyncNext` and `ReturnMethod`: what author code does when `next` is called, and when the iterator
  is closed. `YieldedObject` has what the engine finds in an object that is yielded. A promise's
  `constructor` is read twice; the second time it is asked for the species, the constructor of the
  promise that `next` returns.
* `afsNext`, `afsWrapParked`, `afsValueFulfilled` and `afsValueRejected` are the code.
  `afsAlone` puts them together for a call whose continuation runs before the next call.
* `specNext`: what `%AsyncFromSyncIteratorPrototype%` has `next` come to.
* `afsAlone_eq_specNext_iff`: the two agree on a call unless the engine throws while the value is
  wrapped, or the object that `next` returns is the author's (`Diverges`).
-/

namespace Js

/-- What is thrown, or what a promise is rejected with: an error that the code makes, or a value of
the author's. -/
inductive Failure (V : Type) where
  | typeError (msg : String)
  | value (v : V)
deriving DecidableEq, Repr

/-- How a promise settles, if it ever does. -/
inductive Settling (V : Type) where
  | fulfils (v : V)
  | rejects (e : Failure V)
  | never
deriving DecidableEq, Repr

/-- What `create_iter_result` creates. -/
structure IteratorResult (V : Type) where
  value : V
  done : Bool
deriving DecidableEq, Repr

/-- What `SpeciesConstructor` comes to when `then` makes the derived promise. -/
inductive Species (V : Type) where
  /-- `%Promise%`. -/
  | intrinsic
  /-- A read throws, or no promise can be made with what was read. -/
  | throws (e : Failure V)
  /-- A constructor of the author's. It makes an object, which need not settle as its functions
  are called; what the pull finds in it, if it ever settles. -/
  | foreign (outcome : Option (Except (Failure V) (IteratorResult V)))
deriving DecidableEq

/-- An object that is yielded, by what the engine finds in it. -/
inductive YieldedObject (V : Type) where
  /-- It has no callable `then`. -/
  | plain (v : V)
  /-- A promise whose `constructor` is `%Promise%` when `PromiseResolve` reads it. That property may
  be an accessor: the read may throw, and `then` reads it once more, for the species. -/
  | promise (resolveRead : Option (Failure V)) (species : Species V) (settling : Settling V)
  /-- It has a callable `then`, and is no promise of `%Promise%`. -/
  | thenable (settling : Settling V)
  /-- Its `then` is an accessor that throws. -/
  | thenThrows (e : Failure V)
deriving DecidableEq

/-- A value that is yielded. -/
inductive Yielded (V : Type) where
  | primitive (v : V)
  | object (o : YieldedObject V)
deriving DecidableEq

/-- An object that is an iterator result, by what its properties give: each may be an accessor. -/
structure IterResult (V : Type) where
  done : Except (Failure V) Bool
  value : Except (Failure V) (Yielded V)
deriving DecidableEq

/-- What a call of the sync iterator's `next` does: it throws, returns what is no object, or returns
an object. -/
abbrev SyncNext (V : Type) := Except (Failure V) (Option (IterResult V))

/-- What the sync iterator's `return` is when it is looked up, and what a call of it does: it
throws, or returns, an object or not. -/
inductive ReturnMethod (V : Type) where
  | throws (e : Failure V)
  | missing
  | notCallable
  | callable (outcome : Except (Failure V) Bool)
deriving DecidableEq

/-- `is_callable`. -/
def ReturnMethod.isCallable {V : Type} : ReturnMethod V → Bool
  | .callable _ => true
  | _ => false

/-- What a call of the async `next` comes to: how its promise is settled, if it ever is, and whether
the sync iterator's `return` was called. -/
structure NextOutcome (V : Type) where
  settles : Option (Except (Failure V) (IteratorResult V))
  closed : Bool
deriving DecidableEq

variable {V : Type}

/-! ### The code -/

/-- The slot of an `AsyncIteratorRecord` for a primitive value. -/
structure AsyncIteratorRecord (V : Type) where
  pendingValue : V
  pendingDone : Bool
deriving DecidableEq, Repr

/-- A promise that wraps a value: its species, when `then` asks for it, and how it settles. -/
structure ValueWrapper (V : Type) where
  species : Species V
  settling : Settling V
deriving DecidableEq

/-- The promise that `afs_next` returns: rejected already, or derived, from the shared trigger or
from a wrapper with the continuations for a `done` flag. Where the species is the author's, it is
the object that the author's constructor made. -/
inductive NextPromise (V : Type) where
  | rejected (e : Failure V)
  | wrapping
  | reacting (settling : Settling V) (done : Bool)
  | foreign (outcome : Option (Except (Failure V) (IteratorResult V))) (settling : Settling V)
      (done : Bool)
deriving DecidableEq

/-- `Promise::call_original_resolve`, on an object. -/
def callOriginalResolve : YieldedObject V → Except (Failure V) (ValueWrapper V)
  | .plain v => .ok ⟨.intrinsic, .fulfils v⟩
  | .promise (some e) _ _ => .error e
  | .promise none species settling => .ok ⟨species, settling⟩
  | .thenable settling => .ok ⟨.intrinsic, settling⟩
  | .thenThrows e => .ok ⟨.intrinsic, .rejects e⟩

/-- `Promise::then`, with the continuations for a `done` flag: `CallOriginalPromiseThen`, which
makes the derived promise with the species constructor. -/
def ValueWrapper.chain (w : ValueWrapper V) (done : Bool) : Except (Failure V) (NextPromise V) :=
  match w.species with
  | .intrinsic => .ok (.reacting w.settling done)
  | .throws e => .error e
  | .foreign outcome => .ok (.foreign outcome w.settling done)

/-- `iter_result_object`. -/
def iterResultObject : Option (IterResult V) → Except (Failure V) (IterResult V)
  | some result => .ok result
  | none => .error (.typeError "iterator result is not an object")

/-- `afs_next_sync`. -/
def afsNextSync (record : AsyncIteratorRecord V) (next : SyncNext V) :
    Except (Failure V) (AsyncIteratorRecord V × NextPromise V) := do
  let result ← next
  let resultObj ← iterResultObject result
  let done ← resultObj.done
  let value ← resultObj.value
  match value with
  | .primitive v => .ok (⟨v, done⟩, .wrapping)
  | .object o =>
    let wrapper ← callOriginalResolve o
    let promise ← wrapper.chain done
    .ok (record, promise)

/-- `afs_next`. -/
def afsNext (record : AsyncIteratorRecord V) (next : SyncNext V) :
    AsyncIteratorRecord V × NextPromise V :=
  match afsNextSync record next with
  | .ok result => result
  | .error e => (record, .rejected e)

/-- `afs_wrap_parked`: take the parked value, which leaves `undefined` in the slot. -/
def afsWrapParked [Inhabited V] (record : AsyncIteratorRecord V) :
    AsyncIteratorRecord V × IteratorResult V :=
  ({ record with pendingValue := default }, ⟨record.pendingValue, record.pendingDone⟩)

/-- `afs_value_fulfilled_done` and `afs_value_fulfilled_not_done`. -/
def afsValueFulfilled (done : Bool) (v : V) : IteratorResult V := ⟨v, done⟩

/-- What an attempt to close the sync iterator leaves: whether `return` was called, and the engine's
pending exception. -/
structure CloseAttempt (V : Type) where
  called : Bool
  pending : Option (Failure V)
deriving DecidableEq, Repr

/-- `afs_value_rejected`, up to the throw. -/
def closeAttempt : ReturnMethod V → CloseAttempt V
  | .throws e => ⟨false, some e⟩
  | .missing | .notCallable => ⟨false, none⟩
  | .callable (.error e) => ⟨true, some e⟩
  | .callable (.ok _) => ⟨true, none⟩

/-- `set_pending`, which replaces what is pending. -/
def CloseAttempt.setPending (a : CloseAttempt V) (e : Failure V) : CloseAttempt V :=
  { a with pending := some e }

/-- `afs_value_rejected`. The exception that is pending rejects the derived promise. -/
def afsValueRejected (m : ReturnMethod V) (error : Failure V) : CloseAttempt V :=
  (closeAttempt m).setPending error

/-- The reaction to the settling of a value's wrapper. A value that is done has no rejection
continuation. -/
def afsReaction (m : ReturnMethod V) (done : Bool) : Settling V → NextOutcome V
  | .fulfils v => ⟨some (.ok (afsValueFulfilled done v)), false⟩
  | .rejects e =>
    if done then ⟨some (.error e), false⟩
    else
      let attempt := afsValueRejected m e
      ⟨attempt.pending.map .error, attempt.called⟩
  | .never => ⟨none, false⟩

/-- A call of `afs_next` whose continuation runs before the next call. Where the author's object is
returned, what the continuation returns goes to functions of the author's. -/
def afsAlone [Inhabited V] (record : AsyncIteratorRecord V) (next : SyncNext V)
    (m : ReturnMethod V) : NextOutcome V :=
  let (record, promise) := afsNext record next
  match promise with
  | .rejected e => ⟨some (.error e), false⟩
  | .wrapping => ⟨some (.ok (afsWrapParked record).2), false⟩
  | .reacting settling done => afsReaction m done settling
  | .foreign outcome settling done => ⟨outcome, (afsReaction m done settling).closed⟩

/-! ### The specification -/

/-- `IteratorClose`, with whether `return` is called. -/
def iteratorClose {α : Type} (completion : Except (Failure V) α) :
    ReturnMethod V → Except (Failure V) α × Bool
  | .missing => (completion, false)
  | .throws e => (completion.bind fun _ => .error e, false)
  | .notCallable => (completion.bind fun _ => .error (.typeError "return is not callable"), false)
  | .callable (.error e) => (completion.bind fun _ => .error e, true)
  | .callable (.ok true) => (completion, true)
  | .callable (.ok false) =>
    (completion.bind fun _ => .error (.typeError "result is not an object"), true)

/-- `PromiseResolve(%Promise%, value)`: how the wrapper settles. -/
def promiseResolve : Yielded V → Except (Failure V) (Settling V)
  | .primitive v => .ok (.fulfils v)
  | .object o => (callOriginalResolve o).map ValueWrapper.settling

/-- A rejection that closes the sync iterator unless it is done. -/
def specRejected (m : ReturnMethod V) (done : Bool) (e : Failure V) : NextOutcome V :=
  if done then ⟨some (.error e), false⟩
  else
    let (completion, closed) := iteratorClose (.error e) m
    ⟨some completion, closed⟩

/-- The reactions to the wrapper. -/
def specReaction (m : ReturnMethod V) (done : Bool) : Settling V → NextOutcome V
  | .fulfils v => ⟨some (.ok ⟨v, done⟩), false⟩
  | .rejects e => specRejected m done e
  | .never => ⟨none, false⟩

/-- `AsyncFromSyncIteratorContinuation`, with `closeIterator`. -/
def specContinuation (m : ReturnMethod V) (done : Bool) (value : Yielded V) : NextOutcome V :=
  match promiseResolve value with
  | .error e => specRejected m done e
  | .ok settling => specReaction m done settling

/-- `%AsyncFromSyncIteratorPrototype%.next`. -/
def specNext (next : SyncNext V) (m : ReturnMethod V) : NextOutcome V :=
  match next with
  | .error e => ⟨some (.error e), false⟩
  | .ok none => ⟨some (.error (.typeError "iterator result is not an object")), false⟩
  | .ok (some ⟨.error e, _⟩) => ⟨some (.error e), false⟩
  | .ok (some ⟨.ok _, .error e⟩) => ⟨some (.error e), false⟩
  | .ok (some ⟨.ok done, .ok value⟩) => specContinuation m done value

/-- The error of the completion wins over whatever `return` does. -/
@[simp] theorem iteratorClose_error {α : Type} (e : Failure V) (m : ReturnMethod V) :
    iteratorClose (α := α) (.error e) m = (.error e, m.isCallable) := by
  rcases m with e' | _ | _ | (e' | (_ | _)) <;> rfl

/-- A rejection keeps its error. -/
theorem specRejected_eq (m : ReturnMethod V) (done : Bool) (e : Failure V) :
    specRejected m done e = ⟨some (.error e), !done && m.isCallable⟩ := by
  cases done <;> simp [specRejected]

/-! ### Where they differ -/

/-- The value is a promise that the author's constructor is to derive the promise of `next` from. -/
def Foreign : SyncNext V → Prop
  | .ok (some ⟨.ok _, .ok (.object (.promise none (.foreign _) _))⟩) => True
  | _ => False

/-- The engine throws while the value is wrapped, and the specification closes the iterator or does
not see the exception at all; or the author's object does not settle as the wrapper has it. -/
def Diverges : SyncNext V → ReturnMethod V → Prop
  | .ok (some ⟨.ok done, .ok (.object (.promise (some _) _ _))⟩), m =>
    done = false ∧ m.isCallable = true
  | .ok (some ⟨.ok done, .ok (.object (.promise none (.throws e) settling))⟩), m =>
    ¬ (settling = .rejects e ∧ (done = true ∨ m.isCallable = false))
  | .ok (some ⟨.ok done, .ok (.object (.promise none (.foreign outcome) settling))⟩), m =>
    outcome ≠ (afsReaction m done settling).settles
  | _, _ => False

/-- What is parked is the value of the call, with its flag. -/
theorem afsNext_wrapping {record record' : AsyncIteratorRecord V} {next : SyncNext V}
    (h : afsNext record next = (record', .wrapping)) :
    next = .ok (some ⟨.ok record'.pendingDone, .ok (.primitive record'.pendingValue)⟩) := by
  rcases next with e | _ | ⟨e | done, e' | v | o⟩
  case ok.some.ok.ok.primitive =>
    cases h
    rfl
  case ok.some.ok.ok.object =>
    have hne : (afsNext record (.ok (some ⟨.ok done, .ok (.object o)⟩))).2 ≠ .wrapping := by
      rcases o with v | ⟨_ | e, _ | e' | outcome, settling⟩ | settling | e <;>
        exact fun h => by cases h
    exact absurd (congrArg Prod.snd h) hne
  all_goals cases h

/-- The author's object is returned only where the value asks for it. -/
theorem foreign_of_afsNext {record record' : AsyncIteratorRecord V} {next : SyncNext V}
    {outcome : Option (Except (Failure V) (IteratorResult V))} {settling : Settling V} {done : Bool}
    (h : afsNext record next = (record', .foreign outcome settling done)) : Foreign next := by
  rcases next with e | _ | ⟨e | done', e' | v | v | ⟨_ | e, _ | e' | outcome', settling'⟩ |
    settling' | e⟩
  case ok.some.ok.ok.object.promise.none.foreign => exact trivial
  all_goals cases h

/-- What a call comes to does not depend on what is in the slot. -/
theorem afsAlone_record [Inhabited V] (record record' : AsyncIteratorRecord V) (next : SyncNext V)
    (m : ReturnMethod V) : afsAlone record next m = afsAlone record' next m := by
  rcases next with e | _ | ⟨e | done,
    e' | v | v | ⟨_ | e, _ | e' | outcome, settling⟩ | settling | e⟩ <;> rfl

/-- The reactions to a wrapper are those of the specification: the error of the value replaces what
the attempt to close the iterator left pending. -/
theorem afsReaction_eq (m : ReturnMethod V) (done : Bool) (settling : Settling V) :
    afsReaction m done settling = specReaction m done settling := by
  rcases settling with v | e | _
  · rfl
  · cases done with
    | true => rfl
    | false =>
      simp only [afsReaction, specReaction, specRejected, iteratorClose_error]
      rcases m with e' | _ | _ | (e' | _) <;> rfl
  · rfl

/-- The promise of `next` is settled when the wrapper is. -/
theorem afsReaction_settles (m : ReturnMethod V) (done : Bool) {settling : Settling V}
    (h : settling ≠ .never) : ∃ outcome, (afsReaction m done settling).settles = some outcome := by
  rcases settling with v | e | _
  · exact ⟨_, rfl⟩
  · cases done <;> exact ⟨_, rfl⟩
  · exact absurd rfl h

/-- The specification has a wrapper come to a rejection, and leaves the iterator open. -/
private theorem specReaction_eq_iff (m : ReturnMethod V) (done : Bool) (settling : Settling V)
    (e : Failure V) : specReaction m done settling = ⟨some (.error e), false⟩ ↔
      settling = .rejects e ∧ (done = true ∨ m.isCallable = false) := by
  rcases settling with v | e' | _
  · simp [specReaction]
  · rw [specReaction, specRejected_eq]
    cases done <;> cases m.isCallable <;> simp
  · simp [specReaction]

/-- **A call agrees with the specification** unless it diverges. -/
theorem afsAlone_eq_specNext_iff [Inhabited V] (record : AsyncIteratorRecord V) (next : SyncNext V)
    (m : ReturnMethod V) : afsAlone record next m = specNext next m ↔ ¬ Diverges next m := by
  rcases next with e | _ | ⟨e | done, e' | value⟩
  all_goals try exact ⟨fun _ => id, fun _ => rfl⟩
  rcases value with v | v | ⟨_ | e, read, settling⟩ | settling | e
  · exact ⟨fun _ => id, fun _ => rfl⟩
  · exact ⟨fun _ => id, fun _ => afsReaction_eq m done (.fulfils v)⟩
  · cases read with
    | intrinsic => exact ⟨fun _ => id, fun _ => afsReaction_eq m done settling⟩
    | throws e =>
      refine Iff.trans ?_ not_not.symm
      exact eq_comm.trans (specReaction_eq_iff m done settling e)
    | foreign outcome =>
      -- The iterator is closed as it should be; the rest is up to the author's object.
      have hspec : specNext (.ok (some ⟨.ok done, .ok (.object (.promise none (.foreign outcome)
          settling))⟩)) m = afsReaction m done settling := (afsReaction_eq m done settling).symm
      refine Iff.trans ?_ not_not.symm
      rw [hspec]
      exact ⟨fun h => congrArg NextOutcome.settles h,
        fun h => congrArg (NextOutcome.mk · (afsReaction m done settling).closed) h⟩
  · -- The code has the exception of `PromiseResolve` reject the promise, and closes nothing.
    have hspec : specRejected m done e = ⟨some (.error e), false⟩ ↔
        ¬ (done = false ∧ m.isCallable = true) := by
      rw [specRejected_eq]
      cases done <;> cases m.isCallable <;> simp
    exact eq_comm.trans hspec
  · exact ⟨fun _ => id, fun _ => afsReaction_eq m done settling⟩
  · exact ⟨fun _ => id, fun _ => afsReaction_eq m done (.rejects e)⟩

end Js
