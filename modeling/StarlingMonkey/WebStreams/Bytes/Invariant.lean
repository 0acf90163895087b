import StarlingMonkey.WebStreams.Bytes.Machine
import Mathlib.Algebra.BigOperators.Group.List.Basic

/-!
# What a byte stream keeps true

The invariant of the byte stream is stated field by field, each part over the fields it is about,
so that an operation that leaves those fields alone keeps the part as it is.

* `ByteQueueEntry.Ok`, `PullIntoDescriptor.Ok`, `PullIntoDescriptor.Pending`: one entry, one
  descriptor.
* `PendingOk`: the list of pending descriptors. Only the first can be partly filled, have lost
  its reader or be detached.
* `ViewOk`: a `byobRequest` is the unfilled region of the first descriptor.
* `ReaderOk`: the descriptors and the requests of the reader match.
* `PhaseOk`: what a closing, closed or errored stream has left.
* `PullOk` (from `WebStreams.Pull`): the flags of the pull protocol.
-/

namespace WebStreams

namespace ByteQueueEntry

/-- The bytes of an entry. -/
def bytes (e : ByteQueueEntry) : List UInt8 := e.buffer.slice e.byteOffset e.byteLength

/-- An entry has bytes, inside a buffer that is not detached. -/
structure Ok (e : ByteQueueEntry) : Prop where
  pos : 0 < e.byteLength
  bound : e.byteOffset + e.byteLength ≤ e.buffer.data.length
  live : e.buffer.detached = false

end ByteQueueEntry

/-- The bytes in a queue. -/
def queueBytes (q : List ByteQueueEntry) : List UInt8 := q.flatMap ByteQueueEntry.bytes

/-- The number of bytes in a queue. -/
def queueSize (q : List ByteQueueEntry) : ℕ := (q.map ByteQueueEntry.byteLength).sum

@[simp] theorem queueBytes_nil : queueBytes [] = [] := rfl

@[simp] theorem queueSize_nil : queueSize [] = 0 := rfl

@[simp] theorem queueBytes_cons (e : ByteQueueEntry) (q : List ByteQueueEntry) :
    queueBytes (e :: q) = e.bytes ++ queueBytes q := rfl

@[simp] theorem queueSize_cons (e : ByteQueueEntry) (q : List ByteQueueEntry) :
    queueSize (e :: q) = e.byteLength + queueSize q := by
  simp [queueSize]

@[simp] theorem queueBytes_append (q q' : List ByteQueueEntry) :
    queueBytes (q ++ q') = queueBytes q ++ queueBytes q' := by
  simp [queueBytes]

@[simp] theorem queueSize_append (q q' : List ByteQueueEntry) :
    queueSize (q ++ q') = queueSize q + queueSize q' := by
  simp [queueSize]

/-- A queue of proper entries is empty exactly when its size is `0`. -/
theorem queueSize_eq_zero {q : List ByteQueueEntry} (h : ∀ e ∈ q, e.Ok) :
    queueSize q = 0 ↔ q = [] := by
  cases q with
  | nil => simp
  | cons e q =>
    have := (h e (by simp)).pos
    simp only [queueSize_cons, reduceCtorEq, iff_false]
    omega

namespace PullIntoDescriptor

/-- The bytes filled so far. -/
def filled (d : PullIntoDescriptor) : List UInt8 := d.buffer.slice d.byteOffset d.bytesFilled

/-- The shape of a descriptor, which nothing changes once it is made. -/
structure Ok (d : PullIntoDescriptor) : Prop where
  elementSize : d.elementSize = d.viewKind.elementSize
  aligned : d.byteOffset % d.elementSize = 0
  length_mod : d.byteLength % d.elementSize = 0
  fill_mod : d.minimumFill % d.elementSize = 0
  fill_pos : 0 < d.minimumFill
  fill_le : d.minimumFill ≤ d.byteLength
  bound : d.byteOffset + d.byteLength ≤ d.bufferByteLength
  buffer_length : d.buffer.data.length = d.bufferByteLength
  detachable : d.buffer.detachable = true
  single : d.readerType = .default → d.minimumFill = 1

/-- A descriptor that waits for more bytes. -/
structure Pending (d : PullIntoDescriptor) : Prop extends Ok d where
  short : d.bytesFilled < d.minimumFill

/-- A descriptor nothing has been written to. -/
structure Fresh (d : PullIntoDescriptor) : Prop where
  unfilled : d.bytesFilled = 0
  live : d.buffer.detached = false
  reader : d.readerType ≠ .none

/-- A descriptor that is ready to be committed. -/
structure Ready (d : PullIntoDescriptor) : Prop extends Ok d where
  live : d.buffer.detached = false
  filled_le : d.bytesFilled ≤ d.byteLength
  filled_mod : d.bytesFilled % d.elementSize = 0

variable {d : PullIntoDescriptor}

theorem Ok.elementSize_pos (h : d.Ok) : 0 < d.elementSize := by
  rw [h.elementSize]
  exact d.viewKind.elementSize_pos

theorem Pending.lt_length (h : d.Pending) : d.bytesFilled < d.byteLength :=
  h.short.trans_le h.fill_le

/-- A descriptor of an automatically allocated buffer is committed as soon as it is written to. -/
theorem Pending.unfilled (h : d.Pending) (ht : d.readerType = .default) : d.bytesFilled = 0 := by
  have := h.single ht
  have := h.short
  omega

theorem Ok.region_le (h : d.Ok) : d.byteOffset + d.byteLength ≤ d.buffer.data.length := by
  rw [h.buffer_length]
  exact h.bound

/-- The shape does not depend on how much is filled, on the reader, or on the bytes. -/
theorem Ok.congr {d' : PullIntoDescriptor} (h : d.Ok) (h1 : d'.elementSize = d.elementSize)
    (h2 : d'.viewKind = d.viewKind) (h3 : d'.byteOffset = d.byteOffset)
    (h4 : d'.byteLength = d.byteLength) (h5 : d'.minimumFill = d.minimumFill)
    (h6 : d'.bufferByteLength = d.bufferByteLength)
    (h7 : d'.buffer.data.length = d.buffer.data.length)
    (h8 : d'.buffer.detachable = true)
    (h9 : d'.readerType = .default → d.readerType = .default) : d'.Ok where
  elementSize := by rw [h1, h2, h.elementSize]
  aligned := by rw [h1, h3, h.aligned]
  length_mod := by rw [h1, h4, h.length_mod]
  fill_mod := by rw [h1, h5, h.fill_mod]
  fill_pos := by rw [h5]; exact h.fill_pos
  fill_le := by rw [h4, h5]; exact h.fill_le
  bound := by rw [h3, h4, h6]; exact h.bound
  buffer_length := by rw [h6, h7, h.buffer_length]
  detachable := h8
  single := fun h' => by rw [h5]; exact h.single (h9 h')

end PullIntoDescriptor

/-- The bytes filled into a list of descriptors. -/
def filledBytes (ds : List PullIntoDescriptor) : List UInt8 :=
  ds.flatMap PullIntoDescriptor.filled

@[simp] theorem filledBytes_nil : filledBytes [] = [] := rfl

@[simp] theorem filledBytes_cons (d : PullIntoDescriptor) (ds : List PullIntoDescriptor) :
    filledBytes (d :: ds) = d.filled ++ filledBytes ds := rfl

@[simp] theorem filledBytes_append (ds ds' : List PullIntoDescriptor) :
    filledBytes (ds ++ ds') = filledBytes ds ++ filledBytes ds' := by
  simp [filledBytes]

/-- Nothing is filled into fresh descriptors. -/
theorem filledBytes_fresh {ds : List PullIntoDescriptor} (h : ∀ d ∈ ds, d.Fresh) :
    filledBytes ds = [] := by
  induction ds with
  | nil => rfl
  | cons d ds ih =>
    have hd := h d (by simp)
    rw [filledBytes_cons, ih fun e he => h e (by simp [he])]
    simp [PullIntoDescriptor.filled, hd.unfilled]

/-- The queue holds proper entries, and the total counts their bytes. -/
structure QueueOk (q : List ByteQueueEntry) (total : ℕ) : Prop where
  entries : ∀ e ∈ q, e.Ok
  total : total = queueSize q

/-- The pending descriptors: those behind the first are fresh. -/
structure PendingOk (ds : List PullIntoDescriptor) : Prop where
  pending : ∀ d ∈ ds, d.Pending
  tail : ∀ d ∈ ds.tail, d.Fresh

/-- A `byobRequest` is the unfilled region of the first descriptor, and only the author, through
it, can detach a pending buffer. -/
structure ViewOk (view : Option ByobView) (ds : List PullIntoDescriptor) : Prop where
  region : ∀ v, view = some v → ∃ d, ds.head? = some d ∧
    v = ⟨d.buffer.id, d.byteOffset + d.bytesFilled, d.byteLength - d.bytesFilled⟩
  detached : ∀ d, ds.head? = some d → d.buffer.detached = true → view ≠ none

/-- How many descriptors will be committed to a reader of kind `t`. -/
def countType (t : ReaderType) (ds : List PullIntoDescriptor) : ℕ :=
  ds.countP fun d => d.readerType = t

@[simp] theorem countType_nil (t : ReaderType) : countType t [] = 0 := rfl

@[simp] theorem countType_cons (t : ReaderType) (d : PullIntoDescriptor)
    (ds : List PullIntoDescriptor) :
    countType t (d :: ds) = countType t ds + if d.readerType = t then 1 else 0 := by
  simp [countType, List.countP_cons]

@[simp] theorem countType_append (t : ReaderType) (ds ds' : List PullIntoDescriptor) :
    countType t (ds ++ ds') = countType t ds + countType t ds' := by
  simp [countType]

/-- The descriptors match the requests of the reader. -/
def ReaderOk (state : StreamState) (auto : Option ℕ) (reader : Option Reader)
    (ds : List PullIntoDescriptor) : Prop :=
  match reader with
  | none => ∀ d ∈ ds, d.readerType = .none
  | some (.default rs) =>
    (∀ d ∈ ds, d.readerType ≠ .byob) ∧
      (state = .readable → countType .default ds = if auto.isSome then rs.length else 0) ∧
      (state ≠ .readable → rs = [])
  | some (.byob rs) =>
    (∀ d ∈ ds, d.readerType ≠ .default) ∧ (state ≠ .errored → countType .byob ds = rs.length) ∧
      (state = .errored → rs = [])

/-- What the phases of the stream leave in the queue and in the descriptors. -/
structure PhaseOk (state : StreamState) (closeRequested : Bool) (total : ℕ)
    (ds : List PullIntoDescriptor) : Prop where
  idle : ds ≠ [] → total = 0
  closing : state = .readable → closeRequested = true → 0 < total
  ended : state ≠ .readable → total = 0
  closed : state = .closed → ∀ d ∈ ds, d.bytesFilled % d.elementSize = 0
  errored : state = .errored → ds = []

/-- **The invariant of a byte stream.** -/
structure ByteInv (s : ByteStream) : Prop where
  queue : QueueOk s.queue s.queueTotalSize
  pending : PendingOk s.pendingPullIntos
  view : ViewOk s.byobRequest s.pendingPullIntos
  reader : ReaderOk s.state s.autoAllocateChunkSize s.reader s.pendingPullIntos
  phase : PhaseOk s.state s.closeRequested s.queueTotalSize s.pendingPullIntos
  pull : PullOk s.startPromise s.started s.pulling s.pullAgain s.pullPending
  auto : ∀ n, s.autoAllocateChunkSize = some n → 0 < n

/-- No default read waits while bytes are queued. -/
def NoStall (s : ByteStream) : Prop :=
  ∀ rs, s.reader = some (.default rs) → rs ≠ [] → s.queueTotalSize = 0

/-! ### Parts -/

theorem PendingOk.nil : PendingOk [] := ⟨by simp, by simp⟩

theorem ViewOk.none_of_live {ds : List PullIntoDescriptor}
    (h : ∀ d, ds.head? = some d → d.buffer.detached = false) : ViewOk none ds :=
  ⟨by simp, fun d hd hdet => by simp [h d hd] at hdet⟩

theorem ViewOk.nil : ViewOk none [] := ⟨by simp, by simp⟩

theorem QueueOk.nil : QueueOk [] 0 := ⟨by simp, rfl⟩

theorem PendingOk.cons {d : PullIntoDescriptor} {ds : List PullIntoDescriptor} (hd : d.Pending)
    (hp : ∀ e ∈ ds, e.Pending) (hf : ∀ e ∈ ds, e.Fresh) : PendingOk (d :: ds) :=
  ⟨by simpa using ⟨hd, hp⟩, by simpa using hf⟩

theorem PendingOk.of_cons {d : PullIntoDescriptor} {ds : List PullIntoDescriptor}
    (h : PendingOk (d :: ds)) : d.Pending ∧ (∀ e ∈ ds, e.Pending) ∧ ∀ e ∈ ds, e.Fresh :=
  ⟨h.pending d (by simp), fun e he => h.pending e (by simp [he]), fun e he => h.tail e (by simpa)⟩

theorem PendingOk.append {ds : List PullIntoDescriptor} {d : PullIntoDescriptor}
    (h : PendingOk ds) (hd : d.Pending) (hf : d.Fresh) : PendingOk (ds ++ [d]) := by
  refine ⟨fun e he => ?_, fun e he => ?_⟩
  · rcases List.mem_append.mp he with he | he
    · exact h.pending e he
    · rw [List.mem_singleton.mp he]; exact hd
  · cases ds with
    | nil => simp at he
    | cons c cs =>
      simp only [List.cons_append, List.tail_cons, List.mem_append, List.mem_singleton] at he
      rcases he with he | rfl
      · exact h.tail e he
      · exact hf

theorem QueueOk.append {q : List ByteQueueEntry} {total : ℕ} {e : ByteQueueEntry}
    (h : QueueOk q total) (he : e.Ok) : QueueOk (q ++ [e]) (total + e.byteLength) := by
  refine ⟨fun x hx => ?_, by simp [h.total]⟩
  rcases List.mem_append.mp hx with hx | hx
  · exact h.entries x hx
  · rw [List.mem_singleton.mp hx]; exact he

/-- The bytes filled are those of the first descriptor. -/
theorem PendingOk.filledBytes_cons {d : PullIntoDescriptor} {ds : List PullIntoDescriptor}
    (h : PendingOk (d :: ds)) : filledBytes (d :: ds) = d.filled := by
  simp [filledBytes_fresh h.of_cons.2.2]

/-- A stream that is set up starts out as `initial`. -/
theorem ByteStream.setUp_eq_ok {auto : Option ℕ} {hwm : Option ℚ} {s : ByteStream}
    (h : setUp auto hwm = .ok s) : auto ≠ some 0 ∧ s = initial auto hwm := by
  unfold setUp at h
  split at h
  · simp at h
  · rename_i hauto
    exact ⟨hauto, (Except.ok.inj h).symm⟩

/-- A stream starts out with its invariant. -/
theorem byteInv_setUp {auto : Option ℕ} {hwm : Option ℚ} {s : ByteStream}
    (h : ByteStream.setUp auto hwm = .ok s) : ByteInv s := by
  obtain ⟨hauto, rfl⟩ := ByteStream.setUp_eq_ok h
  refine ⟨.nil, .nil, .nil, fun d hd => by simp [ByteStream.initial] at hd,
    ⟨fun _ => rfl, fun _ hc => by simp [ByteStream.initial] at hc, fun _ => rfl,
      fun _ d hd => by simp [ByteStream.initial] at hd, fun _ => rfl⟩,
    ⟨id, fun hc => by simp [ByteStream.initial] at hc,
      fun hc => by simp [ByteStream.initial] at hc,
      fun hc => by simp [ByteStream.initial] at hc⟩, fun n hn => ?_⟩
  rcases Nat.eq_zero_or_pos n with rfl | hpos
  · exact absurd hn hauto
  · exact hpos

theorem noStall_setUp {auto : Option ℕ} {hwm : Option ℚ} {s : ByteStream}
    (h : ByteStream.setUp auto hwm = .ok s) : NoStall s := by
  obtain ⟨-, rfl⟩ := ByteStream.setUp_eq_ok h
  exact fun _ _ _ => rfl

end WebStreams
