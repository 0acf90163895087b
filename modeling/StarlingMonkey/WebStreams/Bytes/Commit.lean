import StarlingMonkey.WebStreams.Bytes.Fill
import StarlingMonkey.Lib.Channel

/-!
# Settling requests

The functions that end a request, in the environment where author code runs between operations:
committing descriptors, serving a read from the queue, closing and erroring. They are specified
through `ByteStream.channel`, the stream seen as a first-in first-out channel of bytes.
-/

namespace WebStreams

open ByteStream Relation

/-- The reader a descriptor of the given type is committed to, with its requests. -/
def ReaderType.reader : ReaderType → List ℕ → Option Reader
  | .default, rs => some (.default rs)
  | .byob, rs => some (.byob rs)
  | .none, _ => Option.none

/-- The bytes a settlement hands to its request, if it hands it any. -/
def Settlement.bytes? : Settlement → Option (List UInt8)
  | .chunk v => some v.bytes
  | _ => none

/-- The requests that were given bytes. -/
def chunkLog (l : List (ℕ × Settlement)) : List (ℕ × List UInt8) :=
  l.filterMap fun p => p.2.bytes?.map (p.1, ·)

@[simp] theorem chunkLog_append (l l' : List (ℕ × Settlement)) :
    chunkLog (l ++ l') = chunkLog l ++ chunkLog l' := by
  simp [chunkLog]

@[simp] theorem chunkLog_chunk (r : ℕ) (v : ArrayBufferView) :
    chunkLog [(r, .chunk v)] = [(r, v.bytes)] := rfl

@[simp] theorem chunkLog_error (rs : List ℕ) (e : JsError) :
    chunkLog (rs.map (·, .error e)) = [] := by
  simp [chunkLog, Settlement.bytes?]

/-- A byte stream seen as a channel: what is filled into pending descriptors comes before what is
queued. -/
def ByteStream.channel (s : ByteStream) : Channel UInt8 where
  log := chunkLog s.settled
  waiting := (s.reader.map Reader.requests).getD []
  content := filledBytes s.pendingPullIntos ++ queueBytes s.queue
  supplied := s.supplied
  next := s.nextRequest

/-- The channel of a stream some of whose bytes are in the hands of a running operation. -/
def ByteStream.channelWith (s : ByteStream) (bs : List UInt8) : Channel UInt8 :=
  { s.channel with content := bs ++ s.channel.content }

variable {debug alloc : Bool} {s : ByteStream}

/-! ### The quiet environment -/

@[simp] theorem settle_quiet (r : ℕ) (o : Settlement) :
    s.settle (.quiet debug alloc) r o = .ok { s with settled := s.settled ++ [(r, o)] } := rfl

theorem settleRequestSnapshot_quiet (o : Settlement) (rs : List ℕ) :
    settleRequestSnapshot (.quiet debug alloc) o s rs
      = .ok { s with settled := s.settled ++ rs.map (·, o) } := by
  induction rs generalizing s with
  | nil => simp [settleRequestSnapshot]
  | cons r rs ih => simp [settleRequestSnapshot, ih]

variable (debug alloc) in
/-- Pulling changes the flags of the pull protocol and nothing else. -/
theorem callPullIfNeeded_quiet
    (h : PullOk s.startPromise s.started s.pulling s.pullAgain s.pullPending) :
    ∃ a b c n, s.callPullIfNeeded (.quiet debug alloc) =
        .ok { s with pullAgain := a, pulling := b, pullPending := c, pulls := n } ∧
      PullOk s.startPromise s.started b a c := by
  unfold callPullIfNeeded
  split_ifs with h1 h2
  · exact ⟨s.pullAgain, s.pulling, s.pullPending, s.pulls, rfl, h⟩
  · exact ⟨true, s.pulling, s.pullPending, s.pulls ++ [.deferred], rfl,
      ⟨fun _ => h2, h.afterStart, h.afterPromise, h.pending⟩⟩
  · have hagain : s.pullAgain = false := by
      by_contra hc
      exact h2 (h.again (by simpa using hc))
    have hstarted : s.started = true := by
      simp only [shouldCallPull, Bool.not_eq_true, Bool.not_eq_false', Bool.and_eq_true] at h1
      simpa using h1.1.2
    refine ⟨s.pullAgain, true, true,
      s.pulls ++ [.call ⟨s.startPromise, s.pullPending, s.closeRequested, s.state⟩], ?_,
      ⟨by simp [hagain], fun _ => hstarted, h.afterPromise, fun _ => rfl⟩⟩
    rw [Env.assert_of (by simp [hagain])]
    rfl

variable (debug alloc) in
/-- Closing a readable stream. -/
theorem streamClose_quiet (h : s.state = .readable) :
    ∃ l, s.streamClose (.quiet debug alloc) = .ok { s with
      state := .closed
      reader := match s.reader with
        | some (.default _) => some (.default [])
        | reader => reader
      settled := s.settled ++ l } := by
  rw [streamClose, Env.assert_of (by simp [h]), Outcome.ok_bind]
  rcases hr : s.reader with _ | rs | rs
  · exact ⟨[], by simp⟩
  · exact ⟨rs.map (·, .close none), by simp [settleRequestSnapshot_quiet]⟩
  · exact ⟨[], by simp⟩

variable (debug alloc) in
/-- **Erroring the controller.** Whatever the queue and the descriptors look like, the stream ends
up errored, with nothing pending. -/
theorem controllerError_quiet (e : JsError) (h : s.state = .readable)
    (hpull : PullOk s.startPromise s.started s.pulling s.pullAgain s.pullPending)
    (hauto : ∀ n, s.autoAllocateChunkSize = some n → 0 < n) :
    ∃ t, s.controllerError (.quiet debug alloc) e = .ok t ∧ ByteInv t ∧ t.state = .errored ∧
      t.startPromise = s.startPromise ∧ t.pullPending = s.pullPending := by
  rw [controllerError, if_neg (by simp [h]), streamError, Env.assert_of (by simp [h,
    clearPendingPullIntos, invalidateByobRequest, resetByteQueue, clearAlgorithms]),
    Outcome.ok_bind]
  rcases hr : s.reader with _ | rs | rs <;>
    simp only [clearAlgorithms, resetByteQueue, clearPendingPullIntos, invalidateByobRequest, hr,
      settleRequestSnapshot_quiet, Outcome.pure_eq_ok] <;>
    exact ⟨_, rfl, ⟨.nil, .nil, .nil, by simp [ReaderOk],
      ⟨by simp, by simp, by simp, by simp, by simp⟩, hpull, hauto⟩, rfl, rfl, rfl⟩

/-- An errored stream has no read waiting. -/
theorem noStall_of_not_readable (h : ByteInv s) (hs : s.state ≠ .readable) : NoStall s :=
  fun _ _ _ => h.phase.ended hs

/-- Taking the first descriptor, once no `byobRequest` shares it. -/
theorem shiftPendingPullInto_eq (env : Env) {d : PullIntoDescriptor}
    {ds : List PullIntoDescriptor} (hp : s.pendingPullIntos = d :: ds)
    (hview : s.byobRequest = none) :
    s.shiftPendingPullInto env = .ok (d, { s with pendingPullIntos := ds }) := by
  rw [shiftPendingPullInto, Env.assert_of (by simp [hview]), Outcome.ok_bind]
  simp [hp]

/-! ### Committing descriptors -/

/-- Converting a ready descriptor gives the view of its filled bytes. -/
theorem convertPullIntoDescriptor_spec (env : Env) {d : PullIntoDescriptor} (hd : d.Ready) :
    ∃ v : ArrayBufferView, s.convertPullIntoDescriptor env d =
        .ok (v, { s with nextBuffer := s.nextBuffer + 1 }) ∧
      v.bytes = d.filled := by
  have hes := hd.elementSize
  have hlen := hd.buffer_length
  have hbound := hd.bound
  have hle := hd.filled_le
  have hmul : d.bytesFilled / d.elementSize * d.elementSize = d.bytesFilled :=
    Nat.div_mul_cancel (Nat.dvd_of_mod_eq_zero hd.filled_mod)
  have hal : d.byteOffset % d.viewKind.elementSize = 0 := hes ▸ hd.aligned
  have hfit : d.byteOffset + d.bytesFilled / d.elementSize * d.viewKind.elementSize
      ≤ ArrayBuffer.byteLength ⟨s.nextBuffer, d.buffer.data, false, true⟩ := by
    rw [← hes, hmul]
    simp only [ArrayBuffer.byteLength, Bool.false_eq_true, if_false]
    omega
  refine ⟨⟨d.viewKind, ⟨s.nextBuffer, d.buffer.data, false, true⟩, d.byteOffset,
    d.bytesFilled / d.elementSize, hal, hfit⟩, ?_, ?_⟩
  · rw [convertPullIntoDescriptor, Env.assert_of (by simpa using hle), Outcome.ok_bind,
      Env.assert_of (by simpa using hd.filled_mod), Outcome.ok_bind,
      ArrayBuffer.transfer_of_live ⟨hd.live, hd.detachable⟩]
    simp only [ArrayBufferView.construct_eq_some _ _ _ rfl hal hfit, Outcome.pure_eq_ok]
  · simp only [ArrayBufferView.bytes, ArrayBufferView.byteLength, ← hes, hmul]
    rfl

variable (debug alloc) in
/-- **Committing a descriptor** gives its bytes to the oldest request of its reader. -/
theorem commitPullIntoDescriptor_spec (rs : List ℕ) {d : PullIntoDescriptor} {r : ℕ}
    (hd : d.Ready) (hs : s.state ≠ .errored) (ht : d.readerType ≠ .none)
    (hr : s.reader = d.readerType.reader (r :: rs)) :
    ∃ o, s.commitPullIntoDescriptor (.quiet debug alloc) d = .ok { s with
        nextBuffer := s.nextBuffer + 1
        reader := d.readerType.reader rs
        settled := s.settled ++ [(r, o)] } ∧
      (s.state = .readable → o.bytes? = some d.filled) := by
  obtain ⟨v, hv, hbytes⟩ := convertPullIntoDescriptor_spec (.quiet debug alloc) hd (s := s)
  rw [commitPullIntoDescriptor, Env.assert_of (by simpa using hs), Outcome.ok_bind,
    Env.assert_of (by simpa using ht), Outcome.ok_bind]
  simp only [hv]
  cases hty : d.readerType with
  | none => exact absurd hty ht
  | default =>
    rw [hty] at hr
    refine ⟨if s.state = .closed then .close none else .chunk v, ?_, fun h => ?_⟩
    · simp [fulfillReadRequest, hr, ReaderType.reader, hd.filled_mod]
    · simp [h, Settlement.bytes?, hbytes]
  | byob =>
    rw [hty] at hr
    refine ⟨if s.state = .closed then .close (some v) else .chunk v, ?_, fun h => ?_⟩
    · simp [fulfillReadIntoRequest, hr, ReaderType.reader, hasByobReader, readIntoRequests,
        hd.filled_mod]
    · simp [h, Settlement.bytes?, hbytes]

@[simp] theorem ReaderType.requests_reader {t : ReaderType} (ht : t ≠ .none) (rs : List ℕ) :
    ((t.reader rs).map Reader.requests).getD [] = rs := by
  cases t <;> simp_all [ReaderType.reader, Reader.requests]

/-- Giving the bytes in hand to the oldest request is a step of the channel. -/
private theorem channel_deliver {t : ReaderType} {r n : ℕ} {rs : List ℕ} {o : Settlement}
    {bs : List UInt8} (more : List UInt8) (ht : t ≠ .none) (hr : s.reader = t.reader (r :: rs))
    (ho : o.bytes? = some bs) :
    Channel.Step (s.channelWith (bs ++ more))
      ({ s with
        nextBuffer := n, reader := t.reader rs
        settled := s.settled ++ [(r, o)] }.channelWith more) := by
  have hstep := @Channel.Step.deliver _ (s.channelWith (bs ++ more)) r rs bs
    (more ++ s.channel.content) (by simp [channelWith, channel, hr, ht]) (by simp [channelWith])
  have hlog : chunkLog [(r, o)] = [(r, bs)] := by simp [chunkLog, ho]
  simpa [channelWith, channel, ht, hlog] using hstep

/-- **Committing a list of descriptors** serves the oldest requests of their reader, in order. -/
theorem commitAll_spec {fs : List PullIntoDescriptor} {t : ReaderType} {rs : List ℕ}
    (hf : ∀ f ∈ fs, f.Ready) (hft : ∀ f ∈ fs, f.readerType = t) (ht : t ≠ .none)
    (hs : s.state ≠ .errored) (hr : s.reader = t.reader rs) (hlen : fs.length ≤ rs.length) :
    ∃ l n, commitAll (.quiet debug alloc) fs s = .ok { s with
        nextBuffer := n
        reader := t.reader (rs.drop fs.length)
        settled := s.settled ++ l } ∧
      (s.state = .readable → Channel.Steps (s.channelWith (filledBytes fs))
        { s with
          nextBuffer := n
          reader := t.reader (rs.drop fs.length)
          settled := s.settled ++ l }.channel) := by
  induction fs generalizing s rs with
  | nil =>
    refine ⟨[], s.nextBuffer, ?_, fun _ => ?_⟩
    · simp [commitAll, ← hr]
    · simp only [List.length_nil, List.drop_zero, ← hr, List.append_nil]
      exact .refl
  | cons f fs ih =>
    obtain ⟨r, rs, rfl⟩ := List.exists_cons_of_length_pos (Nat.zero_lt_of_lt hlen)
    have hty := hft f (by simp)
    rw [← hty] at hr ht
    obtain ⟨o, heq, ho⟩ := commitPullIntoDescriptor_spec debug alloc rs
      (hf f (by simp)) hs ht hr
    obtain ⟨l, n, heq', hsteps⟩ := ih (s := { s with
        nextBuffer := s.nextBuffer + 1
        reader := f.readerType.reader rs
        settled := s.settled ++ [(r, o)] }) (fun g hg => hf g (by simp [hg]))
      (fun g hg => hft g (by simp [hg])) hs (by rw [hty])
      (by simpa using hlen)
    refine ⟨(r, o) :: l, n, ?_, fun h => ?_⟩
    · simp only [commitAll, heq, Outcome.ok_bind, heq', List.append_assoc, List.cons_append,
        List.nil_append, List.length_cons, List.drop_succ_cons]
    · have hfirst := channel_deliver (filledBytes fs) (n := s.nextBuffer + 1) ht hr (ho h)
      have hrest := hsteps h
      simp only [List.append_assoc, List.cons_append, List.nil_append] at hrest
      exact .head hfirst (by simpa using hrest)

variable (debug alloc) in
/-- Committing the pending descriptors of a closed stream, one for each waiting request. -/
theorem commitPending_spec {ds : List PullIntoDescriptor} {rs : List ℕ}
    (hd : ∀ d ∈ ds, d.Ready) (hdt : ∀ d ∈ ds, d.readerType = .byob)
    (hs : s.state ≠ .errored) (hbyob : s.byobRequest = none) (hp : s.pendingPullIntos = ds)
    (hr : s.reader = some (.byob rs)) (hlen : ds.length = rs.length) :
    ∃ l n, commitPending (.quiet debug alloc) rs.length s = .ok { s with
        nextBuffer := n
        reader := some (.byob [])
        pendingPullIntos := []
        settled := s.settled ++ l } := by
  induction ds generalizing s rs with
  | nil =>
    obtain rfl : rs = [] := List.length_eq_zero_iff.mp hlen.symm
    exact ⟨[], s.nextBuffer, by simp [commitPending, ← hr, ← hp]⟩
  | cons d ds ih =>
    obtain ⟨r, rs, rfl⟩ := List.exists_cons_of_length_pos (l := rs) (by simp [← hlen])
    have hty := hdt d (by simp)
    obtain ⟨o, heq, -⟩ := commitPullIntoDescriptor_spec debug alloc
      rs (s := { s with pendingPullIntos := ds }) (r := r) (hd d (by simp)) hs
      (by simp [hty]) (by simp [hty, hr, ReaderType.reader])
    obtain ⟨l, n, heq'⟩ := @ih { s with
        pendingPullIntos := ds
        nextBuffer := s.nextBuffer + 1
        reader := d.readerType.reader rs
        settled := s.settled ++ [(r, o)] } rs (fun g hg => hd g (by simp [hg]))
      (fun g hg => hdt g (by simp [hg])) hs hbyob rfl (by simp [hty, ReaderType.reader])
      (by simpa using hlen)
    refine ⟨(r, o) :: l, n, ?_⟩
    simp only [List.length_cons, commitPending, shiftPendingPullInto_eq _ hp hbyob,
      Outcome.ok_bind, heq, heq', List.append_assoc, List.cons_append, List.nil_append]

/-! ### Serving reads from the queue -/

/-- The view handed to a read that is served from the queue. -/
theorem construct_entry {e : ByteQueueEntry} (he : e.Ok) :
    ∃ v : ArrayBufferView, ArrayBufferView.construct .uint8 e.buffer e.byteOffset e.byteLength
        = some v ∧ v.bytes = e.bytes := by
  have hfit : e.byteOffset + e.byteLength * ViewKind.uint8.elementSize ≤ e.buffer.byteLength := by
    have := he.bound
    simp only [ViewKind.elementSize, ArrayBuffer.byteLength, he.live, Bool.false_eq_true, if_false]
    omega
  refine ⟨_, ArrayBufferView.construct_eq_some _ _ _ he.live (Nat.mod_one _) hfit, ?_⟩
  simp [ArrayBufferView.bytes, ArrayBufferView.byteLength, ByteQueueEntry.bytes,
    ViewKind.elementSize]

variable (debug alloc) in
/-- Serving a read from the queue, when that does not end a closing stream. -/
theorem fillReadRequestFromQueue_open {e : ByteQueueEntry} {q : List ByteQueueEntry} {r : ℕ}
    (hs : s.state = .readable) (hqs : s.queue = e :: q)
    (hopen : ¬ (queueSize q = 0 ∧ s.closeRequested = true))
    (hq : QueueOk s.queue s.queueTotalSize)
    (hpull : PullOk s.startPromise s.started s.pulling s.pullAgain s.pullPending) :
    ∃ a b c n v, s.fillReadRequestFromQueue (.quiet debug alloc) r = .ok { s with
        queue := q, queueTotalSize := queueSize q
        pullAgain := a, pulling := b, pullPending := c, pulls := n
        settled := s.settled ++ [(r, .chunk v)] } ∧
      v.bytes = e.bytes ∧ PullOk s.startPromise s.started b a c := by
  have he := hq.entries e (by simp [hqs])
  have htot : s.queueTotalSize = e.byteLength + queueSize q := by rw [hq.total, hqs]; simp
  have hpos := he.pos
  have hsub : s.queueTotalSize - e.byteLength = queueSize q := by omega
  obtain ⟨v, hv, hbytes⟩ := construct_entry he
  obtain ⟨a, b, c, n, heq, hpull'⟩ := callPullIfNeeded_quiet debug alloc
    (s := { s with queue := q, queueTotalSize := queueSize q }) hpull
  refine ⟨a, b, c, n, v, ?_, hbytes, hpull'⟩
  rw [fillReadRequestFromQueue, Env.assert_of (by simp; omega)]
  simp only [Outcome.ok_bind, hqs, hsub, handleQueueDrain, if_neg hopen, heq]
  rw [Env.assert_of (by simpa using hs)]
  simp only [Outcome.ok_bind, hv, settle_quiet]

/-- Serving the last bytes of a closing stream closes it. -/
theorem fillReadRequestFromQueue_closing {e : ByteQueueEntry} {r : ℕ}
    (hs : s.state = .readable) (hqs : s.queue = [e]) (hclose : s.closeRequested = true)
    (hq : QueueOk s.queue s.queueTotalSize) :
    ∃ l, s.fillReadRequestFromQueue (.quiet debug alloc) r = .ok { s with
        queue := [], queueTotalSize := 0, algorithms := false, state := .closed
        reader := match s.reader with
          | some (.default _) => some (.default [])
          | reader => reader
        settled := s.settled ++ l } := by
  have he := hq.entries e (by simp [hqs])
  have htot : s.queueTotalSize = e.byteLength := by rw [hq.total, hqs]; simp
  have hpos := he.pos
  obtain ⟨v, hv, -⟩ := construct_entry he
  obtain ⟨l, heq⟩ := streamClose_quiet debug alloc
    (s := clearAlgorithms { s with queue := [], queueTotalSize := 0 }) hs
  refine ⟨l ++ [(r, .chunk v)], ?_⟩
  rw [fillReadRequestFromQueue, Env.assert_of (by simp; omega)]
  simp only [Outcome.ok_bind, hqs, htot, Nat.sub_self, handleQueueDrain, hclose, and_self, if_true]
  rw [Env.assert_of (by simpa using hs), Outcome.ok_bind]
  simp only [clearAlgorithms, hclose] at heq ⊢
  simp only [heq, Outcome.ok_bind, hv, settle_quiet, List.append_assoc]

/-- What serving the waiting reads `rs` leaves: the reads or the queue have run out. -/
structure ServePost (s t : ByteStream) (rs : List ℕ) : Prop where
  frame : t = { s with
    reader := t.reader, queue := t.queue, queueTotalSize := t.queueTotalSize
    pullAgain := t.pullAgain, pulling := t.pulling, pullPending := t.pullPending
    pulls := t.pulls, settled := t.settled }
  reader : ∃ rs', t.reader = some (.default rs') ∧ (rs' = [] ∨ t.queue = []) ∧
    (rs' = rs ∨ s.pendingPullIntos = []) ∧ rs'.length ≤ rs.length
  queue : QueueOk t.queue t.queueTotalSize
  size : t.queueTotalSize ≤ s.queueTotalSize
  pull : PullOk s.startPromise s.started t.pulling t.pullAgain t.pullPending
  steps : Channel.Steps s.channel t.channel

/-- **Serving the waiting reads.** Reads are served in order until they or the queue run out. -/
theorem processReadRequests_spec (fuel : ℕ) {k : ℕ} {rs : List ℕ} (hs : s.state = .readable)
    (hk : s.released.length ≤ k) (hclose : s.closeRequested = false)
    (hr : s.reader = some (.default rs)) (hq : QueueOk s.queue s.queueTotalSize)
    (hpend : s.pendingPullIntos = [] ∨ s.queueTotalSize = 0)
    (hpull : PullOk s.startPromise s.started s.pulling s.pullAgain s.pullPending)
    (hfuel : s.queue.length < fuel) :
    ∃ t, processReadRequests (.quiet debug alloc) k fuel s = .ok t ∧ ServePost s t rs := by
  induction fuel generalizing s rs with
  | zero => omega
  | succ fuel ih =>
    have hlive : s.released[k]? = none := List.getElem?_eq_none hk
    have hstop (h : rs = [] ∨ s.queue = []) : ServePost s s rs :=
      ⟨rfl, ⟨rs, hr, h, .inl rfl, le_rfl⟩, hq, le_rfl, hpull, .refl⟩
    cases rs with
    | nil =>
      refine ⟨s, ?_, hstop (.inl rfl)⟩
      simp [processReadRequests, fetchedReadRequests, hlive, readRequests, hr]
    | cons r rs =>
      rcases hqs : s.queue with _ | ⟨e, q⟩
      · have hzero : s.queueTotalSize = 0 := by rw [hq.total, hqs]; rfl
        refine ⟨s, ?_, hstop (.inr hqs)⟩
        simp [processReadRequests, fetchedReadRequests, hlive, readRequests, hr, hzero]
      · -- the oldest read takes the first entry, and the loop goes on
        have hpos : s.queueTotalSize ≠ 0 := by
          have := (hq.entries e (by simp [hqs])).pos
          rw [hq.total, hqs, queueSize_cons]
          omega
        have hp := hpend.resolve_right hpos
        obtain ⟨a, b, c, n, v, heq, hv, hpull'⟩ :=
          fillReadRequestFromQueue_open debug alloc (r := r)
            (s := { s with reader := some (.default rs) }) hs hqs (by simp [hclose]) hq hpull
        set u : ByteStream := { s with
          reader := some (.default rs), queue := q, queueTotalSize := queueSize q
          pullAgain := a, pulling := b, pullPending := c, pulls := n
          settled := s.settled ++ [(r, .chunk v)] } with hu
        have hqu : QueueOk u.queue u.queueTotalSize :=
          ⟨fun x hx => hq.entries x (by simp [hqs, show x ∈ q from hx]), rfl⟩
        obtain ⟨t, heq', hpost⟩ := ih (s := u) hs hk hclose rfl hqu (.inl hp) hpull'
          (by rw [hqs] at hfuel; simpa [hu] using hfuel)
        obtain ⟨rs', hr', hdone, -, hle⟩ := hpost.reader
        refine ⟨t, ?_, hpost.frame, ⟨rs', hr', hdone, .inr hp, hle.trans (by simp)⟩,
          hpost.queue, ?_, hpost.pull, ?_⟩
        · simp only [processReadRequests, fetchedReadRequests, setFetchedReadRequests, hlive,
            readRequests, hr, Option.getD_some, if_neg hpos, heq, Outcome.ok_bind, heq']
        · refine hpost.size.trans ?_
          rw [hq.total, hqs]
          simp [hu]
        · have hdeliver := @Channel.Step.deliver _ s.channel r rs e.bytes (queueBytes q)
            (by simp [channel, hr, Reader.requests])
            (by simp [channel, hp, hqs])
          refine .head ?_ hpost.steps
          simpa [channel, hu, hr, hp, hv, Reader.requests] using hdeliver

end WebStreams
