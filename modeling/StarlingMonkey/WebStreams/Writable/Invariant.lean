import StarlingMonkey.WebStreams.Writable.Discipline
import StarlingMonkey.Lib.Ledger
import Mathlib.Data.List.Chain

/-!
# What a writable stream keeps true

`Core` holds in every state, and `Flowing` in those whose state is "writable": there the queue, the
requests and the log of the sink agree. Author code that is called in the middle of an operation
finds a state that is `Sound`, both together, and leaves one. What it leaves alone besides, such as
the requests that are in flight, is `Steady`.

Every algorithm is shown to lead from a state with a `Core` to a sound one that is steady with it,
without an abort, as soon as the code it calls out to does.
-/

namespace WebStreams

open Ledger

/-- Which state may follow another. -/
def WritableStreamState.Next : WritableStreamState → WritableStreamState → Prop
  | .writable, .erroring | .erroring, .errored | .writable, .closed | .erroring, .closed => True
  | _, _ => False

/-- The number of a promise. -/
def WritePromise.number : WritePromise → ℕ
  | .write p | .close p | .abort p => p

/-- Whether a value of the queue is a chunk. -/
def QueueValue.isChunk {χ : Type} : QueueValue χ → Bool
  | .chunk _ => true
  | .closeSentinel => false

namespace WritableStream

variable {χ F : Type} {s t u : WritableStream χ F}

/-- The promises that are not settled. -/
def outstanding (s : WritableStream χ F) : List ℕ :=
  s.writeRequests ++ s.inFlightWriteRequest.toList ++ s.closeRequest.toList ++
    s.inFlightCloseRequest.toList ++ (s.pendingAbortRequest.map (·.promise)).toList ++
    s.abortPending.toList ++ s.hand

/-- The promises that were settled or are outstanding, compared with those that were made. -/
def ledger (s : WritableStream χ F) : ℕ → ℤ :=
  balance s.nextPromise (s.settled.map (·.1.number)) + bill s.outstanding

/-- The requests, the operations in flight and the queue agree. -/
structure Requests (s : WritableStream χ F) : Prop where
  single : ¬ (s.inFlightWriteRequest.isSome ∧ s.inFlightCloseRequest.isSome)
  /-- A chunk is queued for every request, and for the write in flight. -/
  chunks : s.state = .writable → s.values.countP QueueValue.isChunk =
    s.writeRequests.length + s.inFlightWriteRequest.toList.length
  /-- The close sentinel is the last value, if a close is requested, and nowhere else. -/
  sentinel : s.state = .writable →
    s.closeRequest.isSome = s.values.getLast?.any (fun v => !v.isChunk) ∧
      ∀ v ∈ s.values.dropLast, v.isChunk = true
  /-- A stream that is closed or errored has nothing left to do. -/
  ended : s.state = .closed ∨ s.state = .errored → s.writeRequests = [] ∧
    s.inFlightWriteRequest = none ∧ s.inFlightCloseRequest = none ∧ s.pendingAbortRequest = none
  /-- A close request outlives the stream while the sink's abort is unsettled. -/
  close : s.state = .closed ∨ s.state = .errored ∧ s.abortPending = none ∧ s.hand = [] →
    s.closeRequest = none

/-- What a stream keeps true, whatever its state. -/
structure Core (s : WritableStream χ F) : Prop where
  single : s.inFlightWriteRequest = none ∨ s.inFlightCloseRequest = none
  flightWrite : s.inFlightWriteRequest ≠ none → s.started = true ∧ s.isLive = true ∧
    ∃ c vs, s.values = .chunk c :: vs
  flightClose : s.inFlightCloseRequest ≠ none → s.started = true ∧ s.isLive = true ∧
    s.closeRequest = none ∧ s.writeRequests = [] ∧ s.values = []
  ended : s.isLive = false → s.started = true ∧ s.writeRequests = [] ∧ s.values = [] ∧
    s.pendingAbortRequest = none
  closed : s.state = .closed → s.closeRequest = none ∧ .closed true ∈ s.log
  errored : s.state = .errored → s.abortPending = none → s.hand = [] → s.closeRequest = none
  start : s.startPending = !s.started
  writePending : s.writePending = true → s.inFlightWriteRequest ≠ none
  closePending : s.closePending = true → s.inFlightCloseRequest ≠ none
  abortPending : s.abortPending ≠ none → s.state = .errored ∧ s.hand = []
  hand : s.hand ≠ [] → s.state = .errored
  ledger : s.ledger = 0
  history : s.history.IsChain WritableStreamState.Next ∧ s.history.getLast? = some s.state
  stored : s.state = .writable → s.storedError = none
  disciplined : Disciplined s.log
  unsettled : s.state ≠ .errored → unsettled s.log =
    s.inFlightWriteRequest.toList.length + s.inFlightCloseRequest.toList.length
  aborted : .abort ∈ s.log → s.state = .errored
  requested : ∀ p ∈ s.requested, p ∈ s.writeRequests ∨ s.inFlightWriteRequest = some p ∨
    (∃ ok, .wrote p ok ∈ s.log) ∨
    s.state = .errored ∧ (.write p, .rejected s.storedError) ∈ s.settled
  fulfilled : ∀ p, (.write p, .fulfilled) ∈ s.settled → .wrote p true ∈ s.log
  /-- Chunks are accepted under different promises. -/
  numbers : ((acceptedOf s.log).map Prod.fst).Pairwise (· < ·) ∧
    ∀ p ∈ (acceptedOf s.log).map Prod.fst, p < s.nextPromise
  /-- As long as no write is called from inside `size`, chunks are accepted in the order of the
  calls, and the last call is the one that is measured. -/
  calls : s.overtaken = false → s.measuring ≤ 1 ∧
    ((acceptedOf s.log).map Prod.snd).Sublist (s.calls.take (s.calls.length - s.measuring))

/-- What a writable stream keeps true besides. -/
structure Flowing (s : WritableStream χ F) : Prop where
  abort : s.pendingAbortRequest = none
  algorithms : s.algorithms = true ∨ s.inFlightCloseRequest ≠ none
  started : s.started = true → .started ∈ s.log
  /-- The chunks that wait are those that were accepted and not given to the sink, and there is a
  request for each. -/
  queue : ∃ rest : List χ, s.writeRequests.length = rest.length ∧
    acceptedOf s.log = writesOf s.log ++ s.writeRequests.zip rest ∧
    s.values.drop s.inFlightWriteRequest.toList.length =
      rest.map .chunk ++ if s.closeRequest = none then [] else [.closeSentinel]
  wrote : ∀ p c, .write p c ∈ s.log → .wrote p true ∈ s.log ∨ s.inFlightWriteRequest = some p
  close : .close ∈ s.log → s.inFlightCloseRequest ≠ none

/-- What author code finds and leaves. -/
structure Sound (s : WritableStream χ F) : Prop where
  core : s.Core
  flowing : s.state = .writable → s.Flowing

/-- What author code leaves alone. -/
structure Steady (s t : WritableStream χ F) : Prop where
  write : s.inFlightWriteRequest ≠ none → t.inFlightWriteRequest = s.inFlightWriteRequest ∧
    t.writePending = s.writePending
  close : s.inFlightCloseRequest ≠ none → t.inFlightCloseRequest = s.inFlightCloseRequest ∧
    t.closePending = s.closePending
  errored : s.state = .errored → t.state = .errored ∧ t.abortPending = s.abortPending
  stopped : s.state ≠ .writable → t.state ≠ .writable
  hand : t.hand = s.hand
  measuring : t.measuring = s.measuring
  calls : t.overtaken = false → s.overtaken = false ∧ (s.measuring ≠ 0 → t.calls = s.calls)

theorem Steady.refl (s : WritableStream χ F) : Steady s s :=
  ⟨fun _ => ⟨rfl, rfl⟩, fun _ => ⟨rfl, rfl⟩, fun h => ⟨h, rfl⟩, id, rfl, rfl,
    fun h => ⟨h, fun _ => rfl⟩⟩

theorem Steady.trans (h : Steady s t) (h' : Steady t u) : Steady s u where
  write := fun hs => by
    obtain ⟨h₁, h₂⟩ := h.write hs
    obtain ⟨h₃, h₄⟩ := h'.write (by rwa [h₁])
    exact ⟨h₃.trans h₁, h₄.trans h₂⟩
  close := fun hs => by
    obtain ⟨h₁, h₂⟩ := h.close hs
    obtain ⟨h₃, h₄⟩ := h'.close (by rwa [h₁])
    exact ⟨h₃.trans h₁, h₄.trans h₂⟩
  errored := fun hs => by
    obtain ⟨h₁, h₂⟩ := h.errored hs
    obtain ⟨h₃, h₄⟩ := h'.errored h₁
    exact ⟨h₃, h₄.trans h₂⟩
  stopped := fun hs => h'.stopped (h.stopped hs)
  hand := h'.hand.trans h.hand
  measuring := h'.measuring.trans h.measuring
  calls := fun hu => by
    obtain ⟨ht, h₁⟩ := h'.calls hu
    obtain ⟨hs, h₂⟩ := h.calls ht
    exact ⟨hs, fun hm => (h₁ (by rwa [h.measuring])).trans (h₂ hm)⟩

/-- What an algorithm leads to: a sound state that is steady with `s`. -/
def Reaches (s t : WritableStream χ F) : Prop := t.Sound ∧ Steady s t

theorem Reaches.trans (h : Steady s t) (h' : Reaches t u) : Reaches s u := ⟨h'.1, h.trans h'.2⟩

/-- Code that is called out to. -/
abbrev Obedient (env : WritableEnv χ F) : Prop :=
  CallingOut.Obeys (fun s : WritableStream χ F => s.Sound) Steady env

end WritableStream

end WebStreams
