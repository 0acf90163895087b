import Mathlib.Data.List.Nodup
import StarlingMonkey.Lib.Run

/-!
# The source of a host-backed body

A host-backed `.body` stream pulls from a `HostBodySource`, which holds the host body and moves it
into one future a read. The body leaves the source through a hand-over to the transport, and is
dropped by a cancel, an abort, the end of the body or a read error.

The source is modelled with what it shares with its surroundings: the `.body` stream as far as the
source can tell, the promise of the pull the stream waits for, and the futures that carry a host
read, each of which owns the body from the moment it is spawned until its result is delivered. The
event loop polls a future to completion at one point and delivers its result at a later one.

* `host_body_owned`: the host body has one owner in every run in which no chunk is delivered after
  a cancel or an abort, and no read of a deferred pull is aborted.
-/

namespace WebFetch

/-- What a read of the host body yields. -/
inductive ReadResult (β : Type) where
  | chunk (bytes : β)
  | endOfBody
  | failure
deriving DecidableEq, Repr

/-- A future that reads the host body for a pull. It owns the body. -/
structure HostRead (β : Type) where
  /-- The promise of the pull. -/
  promise : ℕ
  /-- What the host answered, once the future has completed. -/
  result : Option (ReadResult β)
deriving DecidableEq, Repr

/-- The `.body` stream: readable, readable with a close requested, or closed or errored. -/
inductive BodyStream where
  | readable
  | closing
  | done
deriving DecidableEq, Repr

/-- Whether settling a deferred pull also closes the stream. -/
inductive CloseStream where
  | yes
  | no
deriving DecidableEq, Repr

/-- The source of a host-backed body, with its stream and its reads. -/
structure HostBodySource (β : Type) where
  hostBody : Bool
  /-- The promise of the read that an abort cancels. -/
  currentPull : Option ℕ
  pulled : Bool
  deferredPull : Option ℕ
  deferredController : Bool
  /-- The stream the source backs. -/
  stream : BodyStream
  /-- The pull the stream waits for. -/
  pulling : Option ℕ
  /-- The next promise. -/
  nextPull : ℕ
  /-- The pull promises that were settled, in order. -/
  settled : List ℕ
  /-- Those of them that were rejected. -/
  rejected : List ℕ
  /-- The futures that read the host body. -/
  reads : List (HostRead β)
  /-- How often the body was handed over, and how often it was dropped. -/
  handedOver : ℕ
  dropped : ℕ
  /-- The number of reads that were started. -/
  started : ℕ
  /-- Whether the source was cancelled or aborted, or its body came to an end or an error. -/
  torn : Bool
  /-- The chunks the host produced, in order, and those that were enqueued. -/
  host : List β
  enqueued : List β
  /-- The pulls that were deferred. -/
  deferred : List ℕ
deriving DecidableEq, Repr

variable {β : Type}

namespace HostBodySource

/-- A new source of a host body. -/
def initial : HostBodySource β where
  hostBody := true
  currentPull := none
  pulled := false
  deferredPull := none
  deferredController := false
  stream := .readable
  pulling := none
  nextPull := 0
  settled := []
  rejected := []
  reads := []
  handedOver := 0
  dropped := 0
  started := 0
  torn := false
  host := []
  enqueued := []
  deferred := []

/-- Resolve a pull promise. -/
def resolve (s : HostBodySource β) (p : ℕ) : HostBodySource β :=
  { s with settled := s.settled ++ [p] }

/-- Reject a pull promise. -/
def reject (s : HostBodySource β) (p : ℕ) : HostBodySource β :=
  { s with settled := s.settled ++ [p], rejected := s.rejected ++ [p] }

/-- Drop the host body if the source holds it. -/
def dropHostBody (s : HostBodySource β) : HostBodySource β :=
  { s with hostBody := false, dropped := s.dropped + s.hostBody.toNat }

/-- Close the stream, if it can be closed. -/
def closeStream (s : HostBodySource β) : HostBodySource β :=
  if s.stream = .readable then { s with stream := .closing } else s

/-- Settle a deferred pull, if there is one. -/
def settleDeferredPull (s : HostBodySource β) (close : CloseStream) : HostBodySource β :=
  match s.deferredPull with
  | none => s
  | some p =>
    let t := { s with deferredPull := none, deferredController := false }
    if close = .yes ∧ s.deferredController = true then t.closeStream.resolve p else t.resolve p

/-- Take the host body if it has not started being read. -/
def takeHostBody (s : HostBodySource β) : HostBodySource β :=
  if s.pulled || s.currentPull.isSome then s
  else if s.hostBody then
    { s with hostBody := false, handedOver := s.handedOver + 1 }.settleDeferredPull .yes
  else s

/-- Cancel the host read that is in flight, and drop an idle body. The caller errors the stream. -/
def abort (s : HostBodySource β) : HostBodySource β :=
  let cancels (r : HostRead β) : Bool := r.result.isNone && s.currentPull == some r.promise
  let t := { s with
    currentPull := none
    -- a future that has completed is no longer found among the pending ones
    reads := s.reads.filter fun r => !cancels r
    dropped := s.dropped + s.reads.countP cancels }
  { (t.settleDeferredPull .no).dropHostBody with stream := .done }

/-- Read the next host chunk for the pull `p`. -/
def startHostRead (s : HostBodySource β) (p : ℕ) : HostBodySource β :=
  if s.hostBody then
    { s with
      pulled := true
      hostBody := false
      currentPull := some p
      reads := s.reads ++ [⟨p, none⟩]
      started := s.started + 1 }
  else if s.stream = .readable then { s with pulled := true }.closeStream.resolve p
  -- the close throws, and the promise stays as it is
  else { s with pulled := true }

/-- The underlying source's `pull`. `demand` says whether the pull is deferred until there is
demand, and `active` whether an event loop is active. -/
def hostPull (s : HostBodySource β) (demand active : Bool) : HostBodySource β :=
  let p := s.nextPull
  let t := { s with nextPull := p + 1, pulling := some p }
  if !active then t.reject p
  else if demand then { t with deferredPull := some p, deferredController := true }
  else t.startHostRead p

/-- Demand arrived for a deferred pull. -/
def hostPullResume (s : HostBodySource β) (active : Bool) : HostBodySource β :=
  let t := { s with deferredPull := none, deferredController := false }
  match s.deferredController, s.deferredPull with
  | true, some p => if active then t.startHostRead p else t.reject p
  | _, _ => t

/-- Deliver what the read of the pull `p` yielded, and settle the promise. -/
def deliverChunk (s : HostBodySource β) (p : ℕ) (result : ReadResult β) : HostBodySource β :=
  let t := { s with currentPull := none, reads := s.reads.filter fun r => r.promise != p }
  match result with
  | .chunk bytes =>
    let t := { t with hostBody := true }
    if s.stream = .readable then { t with enqueued := s.enqueued ++ [bytes] }.resolve p
    else t.reject p
  | .endOfBody =>
    let t := { t with dropped := s.dropped + 1 }
    if s.stream = .readable then t.closeStream.resolve p else t.reject p
  | .failure => { t with dropped := s.dropped + 1, stream := .done }.resolve p

/-- The underlying source's `cancel`. -/
def hostCancel (s : HostBodySource β) : HostBodySource β :=
  s.dropHostBody.settleDeferredPull .no

end HostBodySource

namespace ReadResult

/-- The chunk of a read result. -/
def bytes : ReadResult β → List β
  | chunk bytes => [bytes]
  | _ => []

/-- The host body is at its end, or failed. -/
def isLast : ReadResult β → Bool
  | chunk _ => false
  | _ => true

end ReadResult

/-- What happens next: the stream pulls, demand arrives for a deferred pull, a host read completes,
its result is delivered, the stream learns that its pull was settled, its queue is read out after a
close, it is cancelled, the fetch is aborted, the transport asks for the body. -/
inductive BodyEvent (β : Type) where
  | pull (demand active : Bool)
  | resume (active : Bool)
  | complete (p : ℕ) (result : ReadResult β)
  | deliver (p : ℕ)
  | react
  | drain
  | cancel
  | abort
  | take
deriving DecidableEq, Repr

namespace HostBodySource

/-- What happens at an event, and its records: the host's chunks, the pulls that are deferred and
the source's end. An event that cannot happen now changes nothing. -/
def step (s : HostBodySource β) : BodyEvent β → HostBodySource β
  | .pull demand active =>
    if s.pulling = none ∧ s.stream = .readable then
      { s.hostPull demand active with
        deferred := if active && demand then s.deferred ++ [s.nextPull] else s.deferred }
    else s
  | .resume active => s.hostPullResume active
  | .complete p result =>
    if s.reads.any fun r => r.promise == p && r.result.isNone then
      { s with
        reads := s.reads.map fun r => if r.promise = p then ⟨p, some result⟩ else r
        host := s.host ++ result.bytes }
    else s
  | .deliver p =>
    match s.reads.find? fun r => r.promise == p with
    | some ⟨_, some result⟩ =>
      { s.deliverChunk p result with torn := s.torn || result.isLast }
    | _ => s
  | .react =>
    match s.pulling with
    | some p =>
      if p ∈ s.settled then
        { s with pulling := none, stream := if p ∈ s.rejected then .done else s.stream }
      else s
    | none => s
  | .drain => if s.stream = .closing then { s with stream := .done } else s
  | .cancel =>
    if s.stream = .done then s else { { s with stream := .done }.hostCancel with torn := true }
  | .abort => { s.abort with torn := true }
  | .take => s.takeHostBody

end HostBodySource

/-- The machine of a host-backed body. -/
def hostBodyMachine (β : Type) : Machine Empty Empty (HostBodySource β) (BodyEvent β) :=
  ⟨fun s e => .ok (s.step e)⟩

/-- Whether the read has completed with a chunk. -/
def HostRead.yieldedChunk (r : HostRead β) : Bool :=
  match r.result with
  | some (.chunk _) => true
  | _ => false

namespace HostBodySource

/-- The chunks of the reads that have completed and are not delivered. -/
def undelivered (s : HostBodySource β) : List β :=
  s.reads.flatMap fun r => (r.result.map ReadResult.bytes).getD []

/-- The number of places that hold the promise of a pull: the slot of a deferred pull, the read it
became, the promises that were settled. -/
def occurrences (s : HostBodySource β) (p : ℕ) : ℕ :=
  (if s.deferredPull = some p then 1 else 0) + s.reads.countP (fun r => r.promise == p) +
    s.settled.count p

/-- The host body has one owner. -/
structure SingleOwner (s : HostBodySource β) : Prop where
  /-- The body is idle, inside a read, handed over or dropped. -/
  place : s.hostBody.toNat + s.reads.length + s.handedOver + s.dropped = 1
  /-- A body that was handed over was never read. -/
  handed : s.handedOver ≠ 0 → s.started = 0
  torn : s.torn = true → s.hostBody = false
  reads : s.reads.length ≤ 1
  /-- The promise of a deferred pull waits, or is settled once. -/
  deferred : ∀ p ∈ s.deferred, s.occurrences p = 1
  /-- The chunks enqueued are the host's, in order. -/
  chunks : s.enqueued ++ s.undelivered = s.host

/-- No chunk is delivered to a source that was cancelled or aborted, and no abort cancels the read
of a pull that was deferred. -/
def Orderly (s : HostBodySource β) : BodyEvent β → Prop
  | .deliver p => s.torn = true → ∀ r ∈ s.reads, r.promise = p → r.yieldedChunk = false
  | .abort => ∀ r ∈ s.reads, r.result = none → r.promise ∉ s.deferred
  | _ => True

instance (s : HostBodySource β) : (e : BodyEvent β) → Decidable (s.Orderly e)
  | .deliver p => inferInstanceAs (Decidable (s.torn = true → ∀ r ∈ s.reads, r.promise = p →
      r.yieldedChunk = false))
  | .abort => inferInstanceAs (Decidable (∀ r ∈ s.reads, r.result = none → r.promise ∉ s.deferred))
  | .pull .. | .resume _ | .complete .. | .react | .drain | .cancel | .take =>
    inferInstanceAs (Decidable True)

/-! ### What the operations leave alone -/

@[simp] theorem closeStream_torn (s : HostBodySource β) : s.closeStream.torn = s.torn := by
  rw [closeStream]
  split <;> rfl

@[simp] theorem closeStream_started (s : HostBodySource β) : s.closeStream.started = s.started := by
  rw [closeStream]
  split <;> rfl

@[simp] theorem closeStream_deferred (s : HostBodySource β) :
    s.closeStream.deferred = s.deferred := by
  rw [closeStream]
  split <;> rfl

/-- Settling a deferred pull leaves the rest of the source alone. -/
theorem settleDeferredPull_frame (s : HostBodySource β) (close : CloseStream) :
    (s.settleDeferredPull close).torn = s.torn ∧
      (s.settleDeferredPull close).started = s.started ∧
      (s.settleDeferredPull close).deferred = s.deferred := by
  rw [settleDeferredPull]
  split
  · exact ⟨rfl, rfl, rfl⟩
  · dsimp only
    split <;> simp [HostBodySource.resolve]

theorem startHostRead_deferred (s : HostBodySource β) (p : ℕ) :
    (s.startHostRead p).deferred = s.deferred := by
  rw [startHostRead]
  split
  · rfl
  split
  · exact closeStream_deferred _
  · rfl

/-! ### The invariant -/

/-- What holds of a source between any two of its steps, with the promise `hand` taken out of its
place and about to be settled or to be given to a read. -/
structure Owned (hand : Option ℕ) (s : HostBodySource β) : Prop where
  place : s.hostBody.toNat + s.reads.length + s.handedOver + s.dropped = 1
  handed : s.handedOver ≠ 0 → s.started = 0
  pulled : s.pulled = false → s.started = 0
  torn : s.torn = true → s.hostBody = false ∧ s.stream ≠ .readable ∧ s.deferredPull = none
  inHand : ∀ p, hand = some p → s.pulling = some p ∧ p ∉ s.settled ∧ s.reads = [] ∧
    s.deferredPull = none
  /-- A deferred pull is the one the stream waits for, and there is no read. -/
  slot : ∀ p, s.deferredPull = some p → s.pulling = some p ∧ p ∉ s.settled ∧ s.reads = [] ∧
    s.deferredController = true ∧ s.stream = .readable
  /-- The read is for the pull the stream waits for, and an abort finds it while it is pending. -/
  read : ∀ r ∈ s.reads, s.pulling = some r.promise ∧ r.promise ∉ s.settled ∧
    (r.result = none → s.currentPull = some r.promise)
  live : s.reads ≠ [] → s.torn = false → s.stream = .readable
  fresh : ∀ p ∈ s.settled, p < s.nextPull
  pulling : ∀ p, s.pulling = some p → p < s.nextPull
  once : s.settled.Nodup
  deferred : ∀ p ∈ s.deferred, hand = some p ∨ p ∈ s.settled ∨ s.deferredPull = some p ∨
    ∃ r ∈ s.reads, r.promise = p
  chunks : s.enqueued ++ s.undelivered = s.host

theorem owned_initial : (initial : HostBodySource β).Owned none where
  place := rfl
  handed := nofun
  pulled := fun _ => rfl
  torn := nofun
  inHand := nofun
  slot := nofun
  read := nofun
  live := nofun
  fresh := nofun
  pulling := nofun
  once := List.nodup_nil
  deferred := nofun
  chunks := rfl

variable {s : HostBodySource β} {hand : Option ℕ} {p : ℕ}

/-- There is at most one read, and while there is one the body is nowhere else. -/
theorem Owned.reads_cases (h : s.Owned hand) : s.reads = [] ∨
    ∃ r, s.reads = [r] ∧ s.hostBody = false ∧ s.handedOver = 0 ∧ s.dropped = 0 := by
  have hplace := h.place
  match hreads : s.reads with
  | [] => exact .inl rfl
  | [r] =>
    rw [hreads] at hplace
    refine .inr ⟨r, rfl, ?_, ?_, ?_⟩
    · cases hb : s.hostBody with
      | false => rfl
      | true =>
        simp only [hb, Bool.toNat_true, List.length_cons, List.length_nil] at hplace
        omega
    · simp only [List.length_cons, List.length_nil] at hplace; omega
    · simp only [List.length_cons, List.length_nil] at hplace; omega
  | _ :: _ :: _ => rw [hreads] at hplace; simp only [List.length_cons] at hplace; omega

/-- A body that is idle is in no read, was not handed over and was not dropped. -/
theorem Owned.idle (h : s.Owned hand) (hbody : s.hostBody = true) :
    s.reads = [] ∧ s.handedOver = 0 ∧ s.dropped = 0 := by
  have hplace := h.place
  rw [hbody, Bool.toNat_true] at hplace
  refine ⟨List.length_eq_zero_iff.mp ?_, ?_, ?_⟩ <;> omega

/-! ### Settling a promise -/

/-- The promise in hand is settled. -/
theorem Owned.settle (h : s.Owned (some p)) (rejected : List ℕ) :
    Owned none { s with settled := s.settled ++ [p], rejected } := by
  obtain ⟨hpulling, hnot, hreads, hslot⟩ := h.inHand p rfl
  refine { h with inHand := nofun, slot := ?_, read := ?_, fresh := ?_, once := ?_, deferred := ?_ }
  · intro q hq
    rw [show s.deferredPull = some q from hq] at hslot
    cases hslot
  · intro r hr
    rw [show s.reads = [] from hreads] at hr
    cases hr
  · intro q hq
    rcases List.mem_append.mp hq with hq | hq
    · exact h.fresh q hq
    · rw [List.mem_singleton.mp hq]
      exact h.pulling p hpulling
  · exact List.nodup_append.mpr ⟨h.once, List.nodup_singleton p, fun a ha b hb hab =>
      hnot (List.mem_singleton.mp hb ▸ hab ▸ ha)⟩
  · intro q hq
    right
    rcases h.deferred q hq with heq | hq' | hq'
    · left
      rw [← Option.some.inj heq]
      exact List.mem_append_right _ (List.mem_singleton_self p)
    · exact .inl (List.mem_append_left _ hq')
    · exact .inr hq'

theorem Owned.resolve (h : s.Owned (some p)) : (s.resolve p).Owned none := h.settle s.rejected

theorem Owned.reject (h : s.Owned (some p)) : (s.reject p).Owned none :=
  h.settle (s.rejected ++ [p])

/-- Closing the stream disturbs no read, as the promise of the pull is in hand. -/
theorem Owned.closeStream (h : s.Owned (some p)) : s.closeStream.Owned (some p) := by
  obtain ⟨-, -, hreads, hslot⟩ := h.inHand p rfl
  rw [HostBodySource.closeStream]
  split
  · refine { h with torn := ?_, slot := ?_, live := ?_ }
    · intro ht
      exact ⟨(h.torn ht).1, nofun, hslot⟩
    · intro q hq
      rw [show s.deferredPull = some q from hq] at hslot
      cases hslot
    · intro hne
      exact absurd hreads hne
  · exact h

/-- A deferred pull leaves its slot. -/
theorem Owned.leaveSlot (h : s.Owned none) (hslot : s.deferredPull = some p) :
    Owned (some p) { s with deferredPull := none, deferredController := false } := by
  obtain ⟨hpulling, hnot, hreads, -⟩ := h.slot p hslot
  refine { h with torn := ?_, inHand := ?_, slot := nofun, deferred := ?_ }
  · intro ht
    exact ⟨(h.torn ht).1, (h.torn ht).2.1, rfl⟩
  · intro q hq
    obtain rfl := Option.some.inj hq
    exact ⟨hpulling, hnot, hreads, rfl⟩
  · intro q hq
    rcases h.deferred q hq with hnone | hq' | hq' | hq'
    · cases hnone
    · exact .inr (.inl hq')
    · exact .inl (hslot.symm.trans hq')
    · exact .inr (.inr (.inr hq'))

/-- An empty slot is cleared. -/
theorem Owned.clearSlot (h : s.Owned none) (hslot : s.deferredPull = none) :
    Owned none { s with deferredPull := none, deferredController := false } := by
  refine { h with torn := ?_, inHand := nofun, slot := nofun, deferred := ?_ }
  · intro ht
    exact ⟨(h.torn ht).1, (h.torn ht).2.1, rfl⟩
  · intro q hq
    have hq := h.deferred q hq
    rw [hslot] at hq
    exact hq

theorem Owned.settleDeferredPull (h : s.Owned none) (close : CloseStream) :
    (s.settleDeferredPull close).Owned none ∧ (s.settleDeferredPull close).deferredPull = none := by
  rw [HostBodySource.settleDeferredPull]
  match hslot : s.deferredPull with
  | none => exact ⟨h, hslot⟩
  | some p =>
    have hp := h.leaveSlot hslot
    dsimp only
    split
    · refine ⟨hp.closeStream.resolve, ?_⟩
      simp only [HostBodySource.resolve, HostBodySource.closeStream]
      split <;> rfl
    · exact ⟨hp.resolve, rfl⟩

/-- A step that defers nothing leaves the record as it was. -/
theorem Owned.setDeferred (h : s.Owned none) {deferred : List ℕ} (heq : deferred = s.deferred) :
    Owned none { s with deferred } := heq ▸ h

/-! ### The steps -/

/-- The source is torn down, after its deferred pull was settled. -/
theorem Owned.tearDown (h : s.Owned none) (hslot : s.deferredPull = none) :
    Owned none { s.dropHostBody with stream := .done, torn := true } := by
  refine { h with place := ?_, torn := ?_, inHand := nofun, slot := ?_, live := nofun }
  · have hplace := h.place
    simp only [dropHostBody, Bool.toNat_false]
    omega
  · intro _
    exact ⟨rfl, nofun, hslot⟩
  · intro q hq
    rw [show s.deferredPull = some q from hq] at hslot
    cases hslot

theorem Owned.hostCancel (h : s.Owned none) :
    Owned none { { s with stream := .done }.hostCancel with torn := true } := by
  have heq : { { s with stream := .done }.hostCancel with torn := true } =
      { (s.settleDeferredPull .no).dropHostBody with stream := .done, torn := true } := by
    cases hslot : s.deferredPull <;>
      simp [HostBodySource.hostCancel, HostBodySource.settleDeferredPull, dropHostBody, hslot,
        HostBodySource.resolve]
  rw [heq]
  obtain ⟨hs, hslot⟩ := h.settleDeferredPull .no
  exact hs.tearDown hslot

/-- A read starts, for the promise in hand. -/
theorem Owned.startHostRead (h : s.Owned (some p)) (hstream : s.stream = .readable) :
    (s.startHostRead p).Owned none := by
  obtain ⟨hpulling, hnot, hreads, hslot⟩ := h.inHand p rfl
  rw [HostBodySource.startHostRead]
  split
  next hbody =>
    obtain ⟨-, hhanded, hdropped⟩ := h.idle hbody
    refine { h with
      place := ?_, handed := ?_, pulled := nofun, torn := ?_, inHand := nofun, slot := ?_,
      read := ?_, live := fun _ _ => hstream, deferred := ?_, chunks := ?_ }
    · simp [hreads, hhanded, hdropped]
    · intro hne
      exact absurd hhanded hne
    · intro ht
      exact absurd hbody (by rw [(h.torn ht).1]; nofun)
    · intro q hq
      rw [show s.deferredPull = some q from hq] at hslot
      cases hslot
    · intro r hr
      rw [show s.reads ++ [⟨p, none⟩] = [⟨p, none⟩] by rw [hreads]; rfl] at hr
      cases List.mem_singleton.mp hr
      exact ⟨hpulling, hnot, fun _ => rfl⟩
    · intro q hq
      rcases h.deferred q hq with heq | hq' | hq' | ⟨r, hr, -⟩
      · exact .inr (.inr (.inr ⟨_, List.mem_append_right _ (List.mem_singleton_self _),
          Option.some.inj heq⟩))
      · exact .inr (.inl hq')
      · exact .inr (.inr (.inl hq'))
      · rw [hreads] at hr
        cases hr
    · have hchunks := h.chunks
      simp only [undelivered, hreads] at hchunks ⊢
      exact hchunks
  next hbody =>
    exact Owned.resolve (Owned.closeStream { h with pulled := nofun })

theorem Owned.hostPull (h : s.Owned none) (hpulling : s.pulling = none)
    (hstream : s.stream = .readable) (demand active : Bool) :
    Owned none { s.hostPull demand active with
      deferred := if active && demand then s.deferred ++ [s.nextPull] else s.deferred } := by
  have hreads : s.reads = [] := by
    refine List.eq_nil_iff_forall_not_mem.mpr fun r hr => ?_
    rw [(h.read r hr).1] at hpulling
    cases hpulling
  have hslot : s.deferredPull = none := by
    refine Option.eq_none_iff_forall_not_mem.mpr fun q hq => ?_
    rw [(h.slot q hq).1] at hpulling
    cases hpulling
  have hnew : s.nextPull ∉ s.settled := fun hmem => Nat.lt_irrefl _ (h.fresh _ hmem)
  -- the new promise is in hand until the pull is rejected, deferred or given to a read
  have hp : Owned (some s.nextPull)
      { s with nextPull := s.nextPull + 1, pulling := some s.nextPull } := by
    refine { h with
      inHand := ?_, slot := ?_, read := ?_, fresh := ?_, pulling := ?_, deferred := ?_ }
    · intro q hq
      exact ⟨hq, Option.some.inj hq ▸ hnew, hreads, hslot⟩
    · intro q hq
      rw [show s.deferredPull = some q from hq] at hslot
      cases hslot
    · intro r hr
      rw [show s.reads = [] from hreads] at hr
      cases hr
    · exact fun q hq => Nat.lt_succ_of_lt (h.fresh q hq)
    · intro q hq
      rw [← Option.some.inj hq]
      exact Nat.lt_succ_self _
    · exact fun q hq => .inr ((h.deferred q hq).resolve_left nofun)
  rw [HostBodySource.hostPull]
  cases active with
  | false => exact hp.reject
  | true =>
    cases demand with
    | false =>
      refine (hp.startHostRead hstream).setDeferred ?_
      rw [startHostRead_deferred]
      rfl
    | true =>
      refine { hp with torn := ?_, inHand := nofun, slot := ?_, deferred := ?_ }
      · intro ht
        exact absurd hstream (h.torn ht).2.1
      · intro q hq
        obtain rfl := Option.some.inj hq
        exact ⟨rfl, hnew, hreads, rfl, hstream⟩
      · intro q hq
        rcases List.mem_append.mp hq with hq | hq
        · rcases h.deferred q hq with hnone | hq' | hq' | hq'
          · cases hnone
          · exact .inr (.inl hq')
          · exact absurd (hslot.symm.trans hq') nofun
          · exact .inr (.inr (.inr hq'))
        · rw [List.mem_singleton.mp hq]
          exact .inr (.inr (.inl rfl))

theorem Owned.hostPullResume (h : s.Owned none) (active : Bool) :
    (s.hostPullResume active).Owned none := by
  rw [HostBodySource.hostPullResume]
  match hslot : s.deferredPull with
  | none =>
    split
    next heq => cases heq
    next => exact h.clearSlot hslot
  | some p =>
    obtain ⟨-, -, -, hcontroller, hstream⟩ := h.slot p hslot
    have hp := h.leaveSlot hslot
    rw [hcontroller]
    cases active with
    | true => exact hp.startHostRead hstream
    | false => exact hp.reject

theorem Owned.complete (h : s.Owned none) (p : ℕ) (result : ReadResult β) :
    (s.step (.complete p result)).Owned none := by
  simp only [step]
  split
  swap
  · exact h
  next hany =>
    obtain ⟨r, hmem, hr⟩ := List.any_eq_true.mp hany
    rcases h.reads_cases with hreads | ⟨r', hreads, -⟩
    · rw [hreads] at hmem
      cases hmem
    obtain rfl : r = r' := by
      rw [hreads] at hmem
      exact List.mem_singleton.mp hmem
    obtain ⟨hp, hnone⟩ : r.promise = p ∧ r.result = none := by
      simpa using hr
    have hmap : s.reads.map (fun r => if r.promise = p then ⟨p, some result⟩ else r) =
        [⟨p, some result⟩] := by
      -- the read completes where it is
      rw [hreads, List.map_singleton, if_pos hp]
    obtain ⟨hpulling, hnot, -⟩ := h.read r hmem
    rw [hmap]
    refine { h with place := ?_, inHand := nofun, slot := ?_, read := ?_, live := ?_,
                    deferred := ?_, chunks := ?_ }
    · have hplace := h.place
      rw [hreads] at hplace
      exact hplace
    · intro q hq
      have hnil := (h.slot q hq).2.2.1
      rw [hreads] at hnil
      cases hnil
    · intro r' hr'
      cases List.mem_singleton.mp hr'
      exact ⟨hp ▸ hpulling, hp ▸ hnot, nofun⟩
    · intro _ ht
      exact h.live (by rw [hreads]; exact List.cons_ne_nil _ _) ht
    · intro q hq
      rcases h.deferred q hq with hnone' | hq' | hq' | ⟨r', hr', hq'⟩
      · cases hnone'
      · exact .inr (.inl hq')
      · exact .inr (.inr (.inl hq'))
      · rw [hreads] at hr'
        cases List.mem_singleton.mp hr'
        exact .inr (.inr (.inr ⟨_, List.mem_singleton_self _, hp.symm.trans hq'⟩))
    · have hchunks := h.chunks
      simp only [undelivered, hreads, List.flatMap_singleton, hnone, Option.map_none,
        Option.getD_none, List.append_nil] at hchunks
      simp only [undelivered, List.flatMap_singleton, Option.map_some, Option.getD_some, hchunks]

/-- A read that has completed is gone, its promise in hand: the body went back to the source or was
dropped, and the chunk was enqueued. -/
theorem Owned.endRead (h : s.Owned none) {result : ReadResult β}
    (hreads : s.reads = [⟨p, some result⟩]) {body torn : Bool} {stream : BodyStream}
    {enqueued : List β} {dropped : ℕ} (hplace : body.toNat + dropped = 1)
    (htorn : torn = true → body = false ∧ stream ≠ .readable) (hnew : enqueued = s.host) :
    Owned (some p) { s with
      currentPull := none
      reads := s.reads.filter fun r => r.promise != p
      hostBody := body, dropped, torn, stream, enqueued } := by
  have hfilter : s.reads.filter (fun r => r.promise != p) = [] := by
    rw [hreads]
    simp
  obtain ⟨hpulling, hnot, -⟩ := h.read _ (by rw [hreads]; exact List.mem_singleton_self _)
  -- a read in flight keeps the deferred slot empty and the body away
  have hslot : s.deferredPull = none := by
    refine Option.eq_none_iff_forall_not_mem.mpr fun q hq => ?_
    have hnil := (h.slot q hq).2.2.1
    rw [hreads] at hnil
    cases hnil
  have hhanded : s.handedOver = 0 := by
    rcases h.reads_cases with hnil | ⟨-, -, -, hhanded, -⟩
    · rw [hreads] at hnil
      cases hnil
    · exact hhanded
  rw [hfilter]
  refine { h with
    place := ?_, torn := ?_, inHand := ?_, slot := ?_, read := nofun
    live := fun hne => absurd rfl hne, deferred := ?_, chunks := ?_ }
  · rw [hhanded]
    exact hplace
  · intro ht
    exact ⟨(htorn ht).1, (htorn ht).2, hslot⟩
  · intro q hq
    obtain rfl := Option.some.inj hq
    exact ⟨hpulling, hnot, rfl, hslot⟩
  · intro q hq
    rw [show s.deferredPull = some q from hq] at hslot
    cases hslot
  · intro q hq
    rcases h.deferred q hq with hnone | hq' | hq' | ⟨r, hr, hq'⟩
    · cases hnone
    · exact .inr (.inl hq')
    · exact .inr (.inr (.inl hq'))
    · rw [hreads] at hr
      cases List.mem_singleton.mp hr
      exact .inl (congrArg some hq')
  · rw [hnew]
    exact List.append_nil _

/-- The result of a read is delivered. A chunk goes back to a source that is not torn down. -/
theorem Owned.deliverChunk (h : s.Owned none) {result : ReadResult β}
    (hreads : s.reads = [⟨p, some result⟩])
    (hok : s.torn = true → ∀ bytes, result ≠ .chunk bytes) :
    Owned none { s.deliverChunk p result with torn := s.torn || result.isLast } := by
  obtain ⟨hbody, hdropped⟩ : s.hostBody = false ∧ s.dropped = 0 := by
    rcases h.reads_cases with hnil | ⟨-, -, hbody, -, hdropped⟩
    · rw [hreads] at hnil
      cases hnil
    · exact ⟨hbody, hdropped⟩
  have hchunks : s.enqueued ++ result.bytes = s.host := by
    simpa only [undelivered, hreads, List.flatMap_singleton, Option.map_some, Option.getD_some]
      using h.chunks
  have hlive := h.live (by rw [hreads]; exact List.cons_ne_nil _ _)
  cases result with
  -- a chunk puts the body back, so it was not torn down
  | chunk bytes =>
    have htorn : s.torn = false := by
      cases ht : s.torn with
      | false => rfl
      | true => exact absurd rfl (hok ht bytes)
    simp only [HostBodySource.deliverChunk, if_pos (hlive htorn), ReadResult.isLast, Bool.or_false]
    refine Owned.resolve (h.endRead hreads ?_ ?_ hchunks)
    · rw [hdropped]
      rfl
    · intro ht
      rw [htorn] at ht
      cases ht
  | endOfBody =>
    have hnew : s.enqueued = s.host := by
      rw [← hchunks]
      exact (List.append_nil _).symm
    simp only [HostBodySource.deliverChunk, ReadResult.isLast, Bool.or_true]
    split
    next hstream =>
      simp only [HostBodySource.closeStream, if_pos hstream, HostBodySource.resolve]
      refine Owned.resolve (h.endRead hreads ?_ (fun _ => ⟨hbody, ?_⟩) hnew)
      · rw [hbody, hdropped]
        rfl
      · nofun
    -- the stream was cancelled meanwhile: the close fails, and the pull is rejected
    next hstream =>
      simp only [HostBodySource.reject]
      refine Owned.reject (h.endRead hreads ?_ (fun _ => ⟨hbody, hstream⟩) hnew)
      rw [hbody, hdropped]
      rfl
  | failure =>
    have hnew : s.enqueued = s.host := by
      rw [← hchunks]
      exact (List.append_nil _).symm
    simp only [HostBodySource.deliverChunk, HostBodySource.resolve, ReadResult.isLast,
      Bool.or_true]
    refine Owned.resolve (h.endRead hreads ?_ (fun _ => ⟨hbody, ?_⟩) hnew)
    · rw [hbody, hdropped]
      rfl
    · nofun

/-- The stream learns that its pull was settled. -/
theorem Owned.react (h : s.Owned none) : (s.step .react).Owned none := by
  simp only [step]
  split
  swap
  · exact h
  next p hpulling =>
    split
    swap
    · exact h
    next hmem =>
      have hreads : s.reads = [] := by
        refine List.eq_nil_iff_forall_not_mem.mpr fun r hr => ?_
        obtain ⟨hp, hnot, -⟩ := h.read r hr
        rw [hpulling] at hp
        exact hnot (Option.some.inj hp ▸ hmem)
      have hslot (q : ℕ) : s.deferredPull ≠ some q := by
        intro hq
        obtain ⟨hp, hnot, -⟩ := h.slot q hq
        rw [hpulling] at hp
        exact hnot (Option.some.inj hp ▸ hmem)
      refine { h with
        torn := ?_, inHand := nofun, slot := ?_, read := ?_, live := ?_, pulling := nofun }
      · intro ht
        refine ⟨(h.torn ht).1, ?_, (h.torn ht).2.2⟩
        dsimp only
        split
        · nofun
        · exact (h.torn ht).2.1
      · intro q hq
        exact absurd hq (hslot q)
      · intro r hr
        rw [show s.reads = [] from hreads] at hr
        cases hr
      · intro hne
        exact absurd hreads hne

/-- The stream is read out after a close. -/
theorem Owned.drain (h : s.Owned none) : (s.step .drain).Owned none := by
  simp only [step]
  split
  swap
  · exact h
  next hstream =>
    refine { h with torn := ?_, inHand := nofun, slot := ?_, live := ?_ }
    · intro ht
      exact ⟨(h.torn ht).1, nofun, (h.torn ht).2.2⟩
    · intro q hq
      have hreadable := (h.slot q hq).2.2.2.2
      rw [hstream] at hreadable
      cases hreadable
    · intro hne ht
      have hreadable := h.live hne ht
      rw [hstream] at hreadable
      cases hreadable

/-- The read in flight is cancelled, which drops the body. -/
theorem Owned.cancelRead (h : s.Owned none) (hok : s.Orderly .abort) {cancels : HostRead β → Bool}
    (hcancels : ∀ r, cancels r = (r.result.isNone && s.currentPull == some r.promise)) :
    Owned none { s with
      currentPull := none
      reads := s.reads.filter fun r => !cancels r
      dropped := s.dropped + s.reads.countP cancels } := by
  rcases h.reads_cases with hreads | ⟨r, hreads, hbody, hhanded, hdropped⟩
  · rw [hreads]
    exact { h with
      place := by have hplace := h.place; rw [hreads] at hplace; exact hplace
      read := nofun
      inHand := nofun
      slot := fun q hq => by
        have hslot := h.slot q hq
        rw [hreads] at hslot
        exact hslot
      live := fun hne => absurd rfl hne
      deferred := fun q hq => by
        have hq := h.deferred q hq
        rw [hreads] at hq
        exact hq
      chunks := by have hchunks := h.chunks; rw [undelivered, hreads] at hchunks; exact hchunks }
  have hmem : r ∈ s.reads := by rw [hreads]; exact List.mem_singleton_self r
  obtain ⟨hpulling, hnot, hcurrent⟩ := h.read r hmem
  have hslot (q : ℕ) : s.deferredPull ≠ some q := by
    intro hq
    have hnil := (h.slot q hq).2.2.1
    rw [hreads] at hnil
    cases hnil
  -- only a read that has no result can still be cancelled
  cases hresult : r.result with
  | none =>
    have hr : cancels r = true := by rw [hcancels, hresult, hcurrent hresult]; simp
    have hfilter : s.reads.filter (fun r => !cancels r) = [] := by simp [hreads, hr]
    have hcount : s.reads.countP cancels = 1 := by simp [hreads, hr]
    rw [hfilter, hcount]
    refine { h with
      place := ?_, read := nofun, inHand := nofun, slot := fun q hq => absurd hq (hslot q)
      live := fun hne => absurd rfl hne, deferred := ?_, chunks := ?_ }
    · simp [hbody, hhanded, hdropped]
    · intro q hq
      rcases h.deferred q hq with hnone | hq' | hq' | ⟨r', hr', rfl⟩
      · cases hnone
      · exact .inr (.inl hq')
      · exact .inr (.inr (.inl hq'))
      · rw [hreads] at hr'
        cases List.mem_singleton.mp hr'
        exact absurd hq (hok r hmem hresult)
    · have hchunks := h.chunks
      rw [undelivered, hreads, List.flatMap_singleton, hresult] at hchunks
      exact hchunks
  | some result =>
    have hr : cancels r = false := by rw [hcancels, hresult]; rfl
    have hfilter : s.reads.filter (fun r => !cancels r) = s.reads := by simp [hreads, hr]
    have hcount : s.reads.countP cancels = 0 := by simp [hreads, hr]
    rw [hfilter, hcount]
    refine { h with inHand := nofun, read := ?_ }
    intro r' hr'
    obtain rfl : r' = r := by
      rw [show s.reads = [r] from hreads] at hr'
      exact List.mem_singleton.mp hr'
    refine ⟨hpulling, hnot, fun hnone => ?_⟩
    rw [hresult] at hnone
    cases hnone

theorem Owned.abort (h : s.Owned none) (hok : s.Orderly .abort) :
    Owned none { s.abort with torn := true } := by
  obtain ⟨hs, hslot⟩ := (h.cancelRead hok fun _ => rfl).settleDeferredPull .no
  exact hs.tearDown hslot

/-- The body is handed over, to a transport that asks for it before it was read. -/
theorem Owned.takeHostBody (h : s.Owned none) : s.takeHostBody.Owned none := by
  rw [HostBodySource.takeHostBody]
  split
  · exact h
  split
  swap
  · exact h
  next hpulled hbody =>
    obtain ⟨hreads, hhanded, hdropped⟩ := h.idle hbody
    have hstarted : s.started = 0 := by
      refine h.pulled ?_
      cases hp : s.pulled with
      | false => rfl
      | true => simp [hp] at hpulled
    have hover : Owned none { s with hostBody := false, handedOver := s.handedOver + 1 } := by
      refine { h with place := ?_, handed := fun _ => hstarted, torn := ?_, inHand := nofun }
      · simp [hreads, hhanded, hdropped]
      · intro ht
        exact ⟨rfl, (h.torn ht).2⟩
    exact (hover.settleDeferredPull .yes).1

/-- **The invariant is kept** by every step that meets the condition. -/
theorem Owned.step (h : s.Owned none) (e : BodyEvent β) (hok : s.Orderly e) :
    (s.step e).Owned none := by
  cases e with
  | pull demand active =>
    simp only [HostBodySource.step]
    split
    next hguard => exact h.hostPull hguard.1 hguard.2 demand active
    · exact h
  | resume active => exact h.hostPullResume active
  | complete p result => exact h.complete p result
  | deliver p =>
    simp only [HostBodySource.step]
    split
    swap
    · exact h
    next q result hfind =>
      have hmem := List.mem_of_find?_eq_some hfind
      obtain rfl : q = p := by simpa using List.find?_some hfind
      have hreads : s.reads = [⟨q, some result⟩] := by
        rcases h.reads_cases with hreads | ⟨r, hreads, -⟩
        · rw [hreads] at hmem
          cases hmem
        · rw [hreads] at hmem ⊢
          rw [List.mem_singleton.mp hmem]
      refine h.deliverChunk hreads fun ht bytes heq => ?_
      have hno := hok ht _ hmem rfl
      rw [heq] at hno
      cases hno
  | react => exact h.react
  | drain => exact h.drain
  | cancel =>
    simp only [HostBodySource.step]
    split
    · exact h
    · exact h.hostCancel
  | abort => exact h.abort hok
  | take => exact h.takeHostBody

/-! ### The claims of ownership -/

/-- A source that was torn down stays so, and starts no read. -/
theorem Owned.step_torn (h : s.Owned none) (ht : s.torn = true) (e : BodyEvent β) :
    (s.step e).torn = true ∧ (s.step e).started = s.started := by
  obtain ⟨hbody, hstream, hslot⟩ := h.torn ht
  cases e with
  -- a pull asks for a readable stream, and a torn one is not
  | pull demand active =>
    rw [HostBodySource.step, if_neg fun hguard => hstream hguard.2]
    exact ⟨ht, rfl⟩
  | resume active =>
    have heq : s.hostPullResume active =
        { s with deferredPull := none, deferredController := false } := by
      rw [HostBodySource.hostPullResume, hslot]
      split
      next heq => cases heq
      next => rfl
    rw [HostBodySource.step, heq]
    exact ⟨ht, rfl⟩
  | complete p result =>
    simp only [HostBodySource.step]
    split <;> exact ⟨ht, rfl⟩
  -- nothing sets a torn body back, and nothing starts a read of it
  | deliver p =>
    simp only [HostBodySource.step]
    split
    swap
    · exact ⟨ht, rfl⟩
    next q result _ =>
      cases result with
      | chunk bytes =>
        simp only [HostBodySource.deliverChunk, if_neg hstream, ht, Bool.true_or]
        exact ⟨trivial, rfl⟩
      | endOfBody =>
        simp only [HostBodySource.deliverChunk, if_neg hstream, ht, Bool.true_or]
        exact ⟨trivial, rfl⟩
      | failure =>
        simp only [HostBodySource.deliverChunk, ht, Bool.true_or]
        exact ⟨trivial, rfl⟩
  | react =>
    simp only [HostBodySource.step]
    split
    · split <;> exact ⟨ht, rfl⟩
    · exact ⟨ht, rfl⟩
  | drain =>
    simp only [HostBodySource.step]
    split <;> exact ⟨ht, rfl⟩
  | cancel =>
    simp only [HostBodySource.step]
    split
    · exact ⟨ht, rfl⟩
    · exact ⟨rfl, (settleDeferredPull_frame _ .no).2.1⟩
  | abort =>
    refine ⟨rfl, ?_⟩
    simp only [HostBodySource.step, HostBodySource.abort, dropHostBody,
      (settleDeferredPull_frame _ _).2.1]
  | take =>
    simp only [HostBodySource.step, HostBodySource.takeHostBody, hbody]
    split <;> exact ⟨ht, rfl⟩

/-- What the invariant says of a source between two events. -/
theorem Owned.single (h : s.Owned none) : s.SingleOwner where
  place := h.place
  handed := h.handed
  torn := fun ht => (h.torn ht).1
  reads := by
    have hplace := h.place
    omega
  chunks := h.chunks
  deferred := by
    intro p hp
    have hcount : s.settled.count p = if p ∈ s.settled then 1 else 0 := h.once.count
    rw [occurrences, hcount]
    rcases h.reads_cases with hreads | ⟨r, hreads, -⟩
    · rw [hreads, List.countP_nil]
      rcases h.deferred p hp with hnone | hp | hp | ⟨r, hr, -⟩
      · cases hnone
      · rw [if_neg fun hslot => (h.slot p hslot).2.1 hp, if_pos hp]
      · rw [if_pos hp, if_neg (h.slot p hp).2.1]
      · rw [hreads] at hr
        cases hr
    · have hmem : r ∈ s.reads := by rw [hreads]; exact List.mem_singleton_self r
      have hslot : s.deferredPull ≠ some p := by
        intro hslot
        rw [(h.slot p hslot).2.2.1] at hreads
        cases hreads
      rw [if_neg hslot, hreads, List.countP_singleton]
      rcases h.deferred p hp with hnone | hp | hp | ⟨r', hr', rfl⟩
      · cases hnone
      · rw [if_pos hp, if_neg]
        intro heq
        exact (h.read r hmem).2.1 (beq_iff_eq.mp heq ▸ hp)
      · exact absurd hp hslot
      · obtain rfl : r' = r := List.mem_singleton.mp (hreads ▸ hr')
        rw [if_pos (beq_self_eq_true _), if_neg (h.read r' hmem).2.1]

theorem owned_of_run {t : HostBodySource β} (h : s.Owned none)
    (hrun : (hostBodyMachine β).RunWhere Orderly s t) : t.Owned none :=
  hrun.inv h fun _ e _ hs hok ht => Option.some.inj ht ▸ hs.step e hok

/-- A chunk that is delivered to a source that was torn down makes it hold the body again. -/
theorem Owned.astray_deliver (h : s.Owned none) (ht : s.torn = true) {r : HostRead β}
    (hmem : r ∈ s.reads) (hyielded : r.yieldedChunk = true) :
    (s.step (.deliver r.promise)).torn = true ∧ (s.step (.deliver r.promise)).hostBody = true := by
  obtain ⟨-, hstream, -⟩ := h.torn ht
  obtain ⟨promise, result⟩ := r
  obtain ⟨bytes, rfl⟩ : ∃ bytes, result = some (.chunk bytes) := by
    simp only [HostRead.yieldedChunk] at hyielded
    split at hyielded
    next bytes => exact ⟨bytes, rfl⟩
    · cases hyielded
  have hreads : s.reads = [⟨promise, some (.chunk bytes)⟩] := by
    rcases h.reads_cases with hreads | ⟨r, hreads, -⟩
    · rw [hreads] at hmem
      cases hmem
    · rw [hreads] at hmem ⊢
      rw [List.mem_singleton.mp hmem]
  have hfind : s.reads.find? (fun r => r.promise == promise) =
      some ⟨promise, some (.chunk bytes)⟩ := by
    rw [hreads]
    simp
  simp only [HostBodySource.step, hfind, HostBodySource.deliverChunk, if_neg hstream, ht,
    Bool.true_or]
  exact ⟨trivial, rfl⟩

/-- The promise of a deferred pull whose read is aborted is in no place any more. -/
theorem Owned.astray_abort (h : s.Owned none) {r : HostRead β} (hmem : r ∈ s.reads)
    (hresult : r.result = none) : (s.step .abort).occurrences r.promise = 0 := by
  obtain ⟨-, hnot, hcurrent⟩ := h.read r hmem
  have hreads : s.reads = [r] := by
    rcases h.reads_cases with hreads | ⟨r', hreads, -⟩
    · rw [hreads] at hmem
      cases hmem
    · rw [hreads] at hmem ⊢
      rw [List.mem_singleton.mp hmem]
  have hslot : s.deferredPull = none := by
    refine Option.eq_none_iff_forall_not_mem.mpr fun q hq => ?_
    rw [(h.slot q hq).2.2.1] at hreads
    cases hreads
  have hfilter : s.reads.filter (fun r => !(r.result.isNone && s.currentPull == some r.promise)) =
      [] := by
    rw [hreads, hcurrent hresult]
    simp [hresult]
  simp only [HostBodySource.step, HostBodySource.abort, HostBodySource.settleDeferredPull, hslot,
    dropHostBody, occurrences, hfilter]
  simpa using List.count_eq_zero_of_not_mem hnot

/-- A step that does not meet the condition leaves the body or a promise astray. -/
theorem Owned.astray (h : s.Owned none) {e : BodyEvent β} (hnot : ¬ s.Orderly e) :
    ¬ (s.step e).SingleOwner := by
  intro hsingle
  cases e with
  | deliver p =>
    refine hnot fun ht r hmem hp => Bool.eq_false_iff.mpr fun hyielded => ?_
    subst hp
    obtain ⟨htorn, hbody⟩ := h.astray_deliver ht hmem hyielded
    exact absurd hbody (by rw [hsingle.torn htorn]; nofun)
  | abort =>
    refine hnot fun r hmem hresult hdeferred => ?_
    have hdeferred' : r.promise ∈ (s.step .abort).deferred := by
      simp only [HostBodySource.step, HostBodySource.abort, dropHostBody,
        (settleDeferredPull_frame _ _).2.2]
      exact hdeferred
    have hone := hsingle.deferred _ hdeferred'
    rw [h.astray_abort hmem hresult] at hone
    cases hone
  | _ => exact hnot trivial

/-- **The host body has one owner** in every run in which no chunk is delivered to a source that
was torn down and no read of a deferred pull is aborted; a source that was torn down starts no
read. The first step of a run that does not meet the condition leaves the body or a promise
astray. -/
theorem host_body_owned {s : HostBodySource β}
    (hrun : (hostBodyMachine β).RunWhere Orderly initial s) :
    s.SingleOwner ∧
    (s.torn = true → ∀ t, (hostBodyMachine β).RunWhere Orderly s t →
      t.hostBody = false ∧ t.started = s.started) ∧
    ∀ e, ¬ s.Orderly e → ¬ (s.step e).SingleOwner := by
  have h := owned_of_run owned_initial hrun
  refine ⟨h.single, ?_, fun e => h.astray⟩
  intro ht t ht'
  have hstep : t.Owned none ∧ t.torn = true ∧ t.started = s.started := by
    refine ht'.inv (I := fun t => t.Owned none ∧ t.torn = true ∧ t.started = s.started)
      ⟨h, ht, rfl⟩ ?_
    rintro u e v ⟨hu, htorn, hstarted⟩ hok hv
    obtain rfl := Option.some.inj hv
    obtain ⟨htorn', hstarted'⟩ := hu.step_torn htorn e
    exact ⟨hu.step e hok, htorn', hstarted'.trans hstarted⟩
  obtain ⟨hown, htorn, hstarted⟩ := hstep
  exact ⟨(hown.torn htorn).1, hstarted⟩

/-- A deferred pull resumes and reads a chunk, and an idle source is cancelled. -/
def readThenCancel : List (BodyEvent ℕ) :=
  [.pull true true, .resume true, .complete 0 (.chunk 7), .deliver 0, .react, .cancel]

theorem host_body_owned_cancelled : ∃ s, (hostBodyMachine ℕ).RunWhere Orderly initial s ∧
    s.deferred = [0] ∧ s.occurrences 0 = 1 ∧ s.torn = true ∧ s.hostBody = false := by
  obtain ⟨s, hs, hP⟩ := (Option.any_eq_true
    (fun s : HostBodySource ℕ => decide (s.deferred = [0] ∧ s.torn = true))
    ((hostBodyMachine ℕ).exec initial readThenCancel)).mp (by decide)
  have hrun : (hostBodyMachine ℕ).RunWhere Orderly initial s :=
    Machine.runWhere_of_exec (by decide) hs
  obtain ⟨hdeferred, htorn⟩ := of_decide_eq_true hP
  obtain ⟨hsingle, -⟩ := host_body_owned hrun
  refine ⟨s, hrun, hdeferred, hsingle.deferred 0 ?_, htorn, hsingle.torn htorn⟩
  rw [hdeferred]
  exact List.mem_singleton_self 0

/-- A source is cancelled while its read is in flight, and the read then yields a chunk. -/
def cancelledInFlight : List (BodyEvent ℕ) :=
  [.pull false true, .cancel, .complete 0 (.chunk 7), .deliver 0]

/-- The source that was cancelled holds the host body again. -/
theorem cancelled_holds_body : ∃ s, (hostBodyMachine ℕ).Run initial s ∧
    s.torn = true ∧ s.hostBody = true ∧ ¬ s.SingleOwner := by
  obtain ⟨s, hrun, hs⟩ := Machine.exists_run_of_exec cancelledInFlight (M := hostBodyMachine ℕ)
    (s := initial) (P := fun s => decide (s.torn = true ∧ s.hostBody = true)) (by decide)
  obtain ⟨htorn, hbody⟩ := of_decide_eq_true hs
  exact ⟨s, hrun, htorn, hbody, fun h => absurd hbody (by rw [h.torn htorn]; nofun)⟩

end HostBodySource

end WebFetch
