import StarlingMonkey.WebStreams.Bytes.Commit

/-!
# Enqueueing a chunk

`Keeps s calm fair t` collects what an operation that leads from `s` to `t` is to guarantee: the
invariant, no stalled read (under the condition `calm` on the operation), and no byte lost or
reordered as long as the stream stays readable (under the condition `fair`). This module proves
it of `enqueue`, which hands the chunk to a waiting read, fills waiting views, or queues it.
-/

namespace WebStreams

open ByteStream

/-- What an operation guarantees of the state `t` it leads to. -/
structure Keeps (s : ByteStream) (calm fair : Prop) (t : ByteStream) : Prop where
  inv : ByteInv t
  stall : calm → NoStall s → NoStall t
  flow : fair → t.state = .readable → Channel.Steps s.channel t.channel
  alive : t.state = .readable → s.state = .readable

variable {debug alloc : Bool} {s t : ByteStream} {calm fair : Prop}
  {Q : ByteStream → Prop} {E : ByteAbort → Prop}

theorem Keeps.refl (h : ByteInv s) : Keeps s calm fair s := ⟨h, fun _ => id, fun _ _ => .refl, id⟩

/-- Ending the stream keeps everything. -/
theorem Keeps.of_ended (h : ByteInv t) (ht : t.state ≠ .readable) : Keeps s calm fair t :=
  ⟨h, fun _ _ => noStall_of_not_readable h ht, fun _ h' => absurd h' ht, fun h' => absurd h' ht⟩

/-- Pulling at the end of an operation keeps everything. -/
theorem Keeps.pull (h : Keeps s calm fair t) :
    (t.callPullIfNeeded (.quiet debug alloc)).Sat (Keeps s calm fair) Q E := by
  obtain ⟨a, b, c, n, heq, hpull⟩ := callPullIfNeeded_quiet _ _
    h.inv.pull
  rw [heq]
  exact ⟨⟨h.inv.queue, h.inv.pending, h.inv.view, h.inv.reader, h.inv.phase, hpull, h.inv.auto⟩,
    h.stall, h.flow, h.alive⟩

/-- An allocation failure in the middle of an operation errors the stream. -/
theorem enqueueCloned_failed {b : ArrayBuffer} {off len : ℕ} (h : s.state = .readable)
    (hpull : PullOk s.startPromise s.started s.pulling s.pullAgain s.pullPending)
    (hauto : ∀ n, s.autoAllocateChunkSize = some n → 0 < n) {u : ByteStream} :
    ∃ t, s.enqueueClonedChunkToQueue (.quiet debug false) b off len = .threw .engine t ∧
      Keeps u calm fair t := by
  obtain ⟨t, heq, hinv, ht, -⟩ := controllerError_quiet debug false .engine h
    hpull hauto
  refine ⟨t, ?_, .of_ended hinv (by simp [ht])⟩
  simp only [enqueueClonedChunkToQueue, Env.quiet, Bool.false_eq_true, if_false] at heq ⊢
  simp only [heq, Outcome.ok_bind]

/-- A clone of filled bytes is a proper entry that holds them. -/
theorem cloneRegion_entry (off : ℕ) {b : ArrayBuffer} {id n : ℕ} (hn : 0 < n)
    (h : off + n ≤ b.data.length) :
    (ByteQueueEntry.mk (b.cloneRegion id off n) 0 n).Ok ∧
      (ByteQueueEntry.mk (b.cloneRegion id off n) 0 n).bytes = b.slice off n := by
  have hlen : (b.slice off n).length = n := ArrayBuffer.length_slice h
  refine ⟨⟨hn, by simp [ArrayBuffer.cloneRegion, hlen], rfl⟩, ?_⟩
  simp only [ByteQueueEntry.bytes, ArrayBuffer.slice, ArrayBuffer.cloneRegion, List.drop_zero,
    List.take_take, Nat.min_self]

/-! ### The first pending descriptor -/

/-- What refreshing the first descriptor leaves: every descriptor has a live buffer and a
reader, and the filled bytes of a descriptor without a reader are queued. -/
structure RefreshPost (alloc : Bool) (s t : ByteStream) : Prop where
  frame : t = { s with
    byobRequest := none, nextBuffer := t.nextBuffer
    pendingPullIntos := t.pendingPullIntos, queue := t.queue
    queueTotalSize := t.queueTotalSize }
  queue : QueueOk t.queue t.queueTotalSize
  pending : PendingOk t.pendingPullIntos
  live : ∀ d ∈ t.pendingPullIntos, d.buffer.detached = false
  reader : ∀ d ∈ t.pendingPullIntos, d.readerType ≠ .none
  types : ∀ ty, (∀ d ∈ s.pendingPullIntos, d.readerType ≠ ty) →
    ∀ d ∈ t.pendingPullIntos, d.readerType ≠ ty
  count : ∀ ty, ty ≠ .none → countType ty t.pendingPullIntos = countType ty s.pendingPullIntos
  content : filledBytes t.pendingPullIntos ++ queueBytes t.queue
    = filledBytes s.pendingPullIntos ++ queueBytes s.queue
  idle : t.queueTotalSize = 0 ∨ t.pendingPullIntos = s.pendingPullIntos.tail
  stale : t.pendingPullIntos ≠ [] → t.queueTotalSize ≠ 0 →
    ∃ d ds, s.pendingPullIntos = d :: ds ∧ d.readerType = .none ∧ 0 < d.bytesFilled ∧
      d.buffer.detached = false ∧ alloc = true

/-- What draining the first descriptor into the queue leaves. -/
structure DrainPost (alloc : Bool) (s t : ByteStream) (d : PullIntoDescriptor)
    (ds : List PullIntoDescriptor) : Prop where
  frame : t = { s with
    nextBuffer := t.nextBuffer, pendingPullIntos := ds, queue := t.queue
    queueTotalSize := t.queueTotalSize }
  queue : QueueOk t.queue t.queueTotalSize
  bytes : queueBytes t.queue = queueBytes s.queue ++ d.filled
  size : t.queueTotalSize = s.queueTotalSize + d.bytesFilled
  cloned : 0 < d.bytesFilled → alloc = true

/-- **Draining a descriptor whose reader was released.** -/
theorem enqueueDetached_spec {d : PullIntoDescriptor} {ds : List PullIntoDescriptor}
    {u : ByteStream} (hs : s.state = .readable) (hp : s.pendingPullIntos = d :: ds) (hd : d.Ok)
    (hle : d.bytesFilled ≤ d.byteLength) (ht : d.readerType = .none)
    (hbyob : s.byobRequest = none) (hq : QueueOk s.queue s.queueTotalSize)
    (hpull : PullOk s.startPromise s.started s.pulling s.pullAgain s.pullPending)
    (hauto : ∀ n, s.autoAllocateChunkSize = some n → 0 < n) :
    (s.enqueueDetachedPullIntoToQueue (.quiet debug alloc)).Sat (DrainPost alloc s · d ds)
      (Keeps u calm fair) E := by
  simp only [enqueueDetachedPullIntoToQueue, hp,
    Env.assert_of (c := decide (d.readerType = .none)) (by simp [ht]), Outcome.ok_bind]
  by_cases hpos : 0 < d.bytesFilled
  · rw [if_pos hpos]
    cases alloc with
    | false =>
      obtain ⟨t, heq, hkeep⟩ := enqueueCloned_failed
        (b := d.buffer) hs hpull hauto (u := u)
      rw [heq]
      exact hkeep
    | true =>
      obtain ⟨hentry, hbytes⟩ := cloneRegion_entry d.byteOffset (b := d.buffer)
        (n := d.bytesFilled) hpos (by have := hd.region_le; omega)
      simp only [enqueueClonedChunkToQueue, Env.quiet, if_true, Outcome.pure_eq_ok,
        Outcome.ok_bind, enqueueChunkToQueue]
      rw [shiftPendingPullInto_eq _ (by exact hp) (by exact hbyob)]
      refine ⟨rfl, hq.append hentry, ?_, rfl, fun _ => rfl⟩
      simp only [queueBytes_append, queueBytes_cons, queueBytes_nil, List.append_nil, hbytes]
      rfl
  · rw [if_neg hpos]
    have hzero : d.bytesFilled = 0 := by omega
    simp only [Outcome.pure_eq_ok, Outcome.ok_bind, shiftPendingPullInto_eq _ hp hbyob]
    refine ⟨rfl, hq, ?_, by simp [hzero], fun h => absurd h hpos⟩
    simp [PullIntoDescriptor.filled, hzero]

/-- **Refreshing the first descriptor** (step 8 of `enqueue`). -/
theorem enqueueRefreshHead_spec (h : ByteInv s) (hs : s.state = .readable) {u : ByteStream}
    (hsame : Keeps u calm fair s) :
    (s.enqueueRefreshHead (.quiet debug alloc)).Sat (RefreshPost alloc s)
      (Keeps u calm fair) E := by
  unfold enqueueRefreshHead
  rcases hp : s.pendingPullIntos with _ | ⟨d, ds⟩
  · have hnone : s.byobRequest = none := by
      cases hv : s.byobRequest with
      | none => rfl
      | some v =>
        obtain ⟨d, hd, -⟩ := h.view.region v hv
        simp [hp] at hd
    refine ⟨by rw [← hnone], h.queue, h.pending, ?_, ?_, fun _ => id, fun _ _ => rfl, rfl,
      .inr (by simp [hp]), fun hne => absurd hp hne⟩ <;> simp [hp]
  · have hok := h.pending
    rw [hp] at hok
    obtain ⟨hd, hps, hfs⟩ := hok.of_cons
    have hzero : s.queueTotalSize = 0 := h.phase.idle (by simp [hp])
    have hempty : s.queue = [] := (queueSize_eq_zero h.queue.entries).mp (h.queue.total ▸ hzero)
    by_cases hdet : d.buffer.detached = true
    · simp only [hdet, if_true]
      exact hsame
    · rw [Bool.not_eq_true] at hdet
      simp only [hdet, Bool.false_eq_true, if_false,
        ArrayBuffer.transfer_of_live ⟨hdet, hd.detachable⟩]
      set b : ArrayBuffer := ⟨s.invalidateByobRequest.nextBuffer, d.buffer.data, false, true⟩
        with hb
      have hd' : PullIntoDescriptor.Pending { d with buffer := b } :=
        ⟨hd.toOk.congr rfl rfl rfl rfl rfl rfl rfl rfl id, hd.short⟩
      by_cases hty : d.readerType = .none
      · rw [if_pos hty]
        refine Outcome.Sat.imp (enqueueDetached_spec (d := { d with buffer := b })
          (u := u) hs rfl hd'.toOk hd'.lt_length.le hty rfl h.queue h.pull h.auto) fun t ht => ?_
        have hframe := ht.frame
        have hpend : t.pendingPullIntos = ds := by rw [hframe]
        have hcount (ty : ReaderType) (hne : ty ≠ .none) :
            countType ty ds = countType ty (d :: ds) := by
          simp [hty, Ne.symm hne]
        refine ⟨?_, ht.queue, ⟨?_, ?_⟩, ?_, ?_, ?_, ?_, ?_, ?_, fun _ hne => ?_⟩
        · rw [hpend]
          exact hframe
        · rw [hpend]; exact hps
        · rw [hpend]; exact fun e he => hfs e (List.mem_of_mem_tail he)
        · rw [hpend]; exact fun e he => (hfs e he).live
        · rw [hpend]; exact fun e he => (hfs e he).reader
        · rw [hpend, hp]; exact fun ty hty' e he => hty' e (by simp [he])
        · rw [hpend, hp]; exact hcount
        · rw [hpend, hp, ht.bytes, filledBytes_fresh hfs, filledBytes_cons, filledBytes_fresh hfs]
          simp only [invalidateByobRequest, hempty, queueBytes_nil, List.nil_append,
            List.append_nil]
          rfl
        · exact .inr (by rw [hpend, hp]; rfl)
        · have hsize := ht.size
          simp only [invalidateByobRequest, hzero] at hsize
          have hpos : 0 < d.bytesFilled := by omega
          exact ⟨d, ds, hp, hty, hpos, hdet, ht.cloned hpos⟩
      · rw [if_neg hty]
        refine ⟨rfl, h.queue, .cons hd' hps hfs, ?_, ?_, ?_, ?_, ?_, .inl hzero,
          fun _ hne => absurd hzero hne⟩
        · intro e he
          rcases List.mem_cons.mp he with rfl | he
          · rfl
          · exact (hfs e he).live
        · intro e he
          rcases List.mem_cons.mp he with rfl | he
          · exact hty
          · exact (hfs e he).reader
        · intro ty hty' e he
          rw [hp] at hty'
          rcases List.mem_cons.mp he with rfl | he
          · exact hty' d (by simp)
          · exact hty' e (by simp [he])
        · intro ty _
          simp [hp]
        · simp only [hp, filledBytes_cons]
          rfl

/-! ### Delivering the chunk -/

/-- A readable stream in the middle of an operation of its source: no `byobRequest` shares a
buffer, and the descriptors and the queue may both hold bytes. -/
structure Busy (s : ByteStream) : Prop where
  readable : s.state = .readable
  notClosing : s.closeRequested = false
  view : s.byobRequest = none
  queue : QueueOk s.queue s.queueTotalSize
  pending : PendingOk s.pendingPullIntos
  live : ∀ d ∈ s.pendingPullIntos, d.buffer.detached = false
  pull : PullOk s.startPromise s.started s.pulling s.pullAgain s.pullPending
  auto : ∀ n, s.autoAllocateChunkSize = some n → 0 < n

/-- Once the first descriptor is refreshed, the descriptors are those of the reader. -/
structure Refreshed (s : ByteStream) : Prop extends Busy s where
  types : ∀ d ∈ s.pendingPullIntos, d.readerType ≠ .none
  reader : ReaderOk .readable s.autoAllocateChunkSize s.reader s.pendingPullIntos

/-- Refreshing the first descriptor puts the stream in this state. -/
theorem RefreshPost.refreshed (h : ByteInv s) (hs : s.state = .readable)
    (hclose : s.closeRequested = false) (ht : RefreshPost alloc s t) : Refreshed t := by
  have hreader : ReaderOk .readable s.autoAllocateChunkSize s.reader t.pendingPullIntos := by
    have hr := h.reader
    rw [hs] at hr
    rcases hrs : s.reader with _ | rs | rs <;> rw [hrs] at hr
    · intro d hd
      have hdefault := ht.types .default (fun e he => by simp [hr e he]) d hd
      have hbyob := ht.types .byob (fun e he => by simp [hr e he]) d hd
      cases hty : d.readerType <;> simp_all
    · obtain ⟨htypes, hcount, hend⟩ := hr
      exact ⟨ht.types _ htypes, fun h' => by rw [ht.count _ (by simp)]; exact hcount h', hend⟩
    · obtain ⟨htypes, hcount, hend⟩ := hr
      exact ⟨ht.types _ htypes, fun h' => by rw [ht.count _ (by simp)]; exact hcount h', hend⟩
  have hf := ht.frame
  refine ⟨⟨?_, ?_, ?_, ht.queue, ht.pending, ht.live, ?_, ?_⟩, ht.reader, ?_⟩
  · rw [hf]; exact hs
  · rw [hf]; exact hclose
  · rw [hf]
  · rw [hf]; exact h.pull
  · rw [hf]; exact h.auto
  · rw [hf]; exact hreader

/-- A descriptor in the list is counted. -/
theorem countType_eq_length {ty : ReaderType} {ds : List PullIntoDescriptor}
    (h : ∀ d ∈ ds, d.readerType = ty) : countType ty ds = ds.length := by
  simp only [countType, List.countP_eq_length, decide_eq_true_eq]
  exact h

/-- Without a reader, nothing is pending once the first descriptor is refreshed. -/
theorem Refreshed.pending_eq_nil (h : Refreshed s) (hr : s.reader = none) :
    s.pendingPullIntos = [] := by
  have hreader := h.reader
  rw [hr] at hreader
  exact List.eq_nil_iff_forall_not_mem.mpr fun d hd => h.types d hd (hreader d hd)

/-- With a default reader, the pending descriptors are those of its reads. -/
theorem Refreshed.default_types {rs : List ℕ} (h : Refreshed s)
    (hr : s.reader = some (.default rs)) :
    (∀ d ∈ s.pendingPullIntos, d.readerType = .default) ∧
      s.pendingPullIntos.length = if s.autoAllocateChunkSize.isSome then rs.length else 0 := by
  have hreader := h.reader
  rw [hr] at hreader
  obtain ⟨htypes, hcount, -⟩ := hreader
  have hall : ∀ d ∈ s.pendingPullIntos, d.readerType = .default := by
    intro d hd
    have h1 := htypes d hd
    have h2 := h.types d hd
    cases hty : d.readerType <;> simp_all
  exact ⟨hall, by rw [← countType_eq_length hall]; exact hcount rfl⟩

/-- With a BYOB reader, the pending descriptors are those of its reads. -/
theorem Refreshed.byob_types {rs : List ℕ} (h : Refreshed s) (hr : s.reader = some (.byob rs)) :
    (∀ d ∈ s.pendingPullIntos, d.readerType = .byob) ∧ s.pendingPullIntos.length = rs.length := by
  have hreader := h.reader
  rw [hr] at hreader
  obtain ⟨htypes, hcount, -⟩ := hreader
  have hall : ∀ d ∈ s.pendingPullIntos, d.readerType = .byob := by
    intro d hd
    have h1 := htypes d hd
    have h2 := h.types d hd
    cases hty : d.readerType <;> simp_all
  exact ⟨hall, by rw [← countType_eq_length hall]; exact hcount (by simp)⟩

/-- Queueing the chunk of a stream with nothing pending. -/
theorem Refreshed.queue_chunk {b : ArrayBuffer} {off len : ℕ} (h : Refreshed s)
    (hp : s.pendingPullIntos = []) (hr : s.reader = none ∨ s.reader = some (.default []))
    (hc : (ByteQueueEntry.mk b off len).Ok) :
    Keeps s True True ((s.supply (b.slice off len)).enqueueChunkToQueue b off len) := by
  refine ⟨⟨h.queue.append hc, ?_, ?_, ?_, ?_, h.pull, h.auto⟩, fun _ _ => ?_, fun _ _ => ?_, id⟩
  · exact h.pending
  · change ViewOk s.byobRequest s.pendingPullIntos
    rw [hp, h.view]
    exact .nil
  · have hreader := h.reader
    change ReaderOk s.state s.autoAllocateChunkSize s.reader s.pendingPullIntos
    rw [h.readable]
    exact hreader
  · change PhaseOk s.state s.closeRequested (s.queueTotalSize + len) s.pendingPullIntos
    have hstate := h.readable
    have hpos := hc.pos
    refine ⟨fun hne => absurd hp hne, fun _ _ => Nat.add_pos_right _ hpos,
      fun hne => absurd hstate hne, ?_, ?_⟩ <;> simp [hstate]
  · intro rs hrs hne
    change s.reader = some (.default rs) at hrs
    rcases hr with hr | hr <;> rw [hr] at hrs
    · simp at hrs
    · simp only [Option.some.injEq, Reader.default.injEq] at hrs
      exact absurd hrs.symm hne
  · have hstep := Channel.Step.supply s.channel (b.slice off len)
    refine .single ?_
    simpa [channel, supply, enqueueChunkToQueue, ByteQueueEntry.bytes] using hstep

/-- Handing the chunk to the oldest read, when nothing is queued. -/
theorem Refreshed.hand_chunk {r : ℕ} {rs : List ℕ} {v : ArrayBufferView} {bs : List UInt8}
    (h : Refreshed s) (hr : s.reader = some (.default (r :: rs))) (hq : s.queue = [])
    (hv : v.bytes = bs) :
    Keeps s True True { s.supply bs with
      pendingPullIntos := s.pendingPullIntos.tail, reader := some (.default rs)
      settled := s.settled ++ [(r, .chunk v)] } := by
  obtain ⟨htypes, hlen⟩ := h.default_types hr
  have hzero : s.queueTotalSize = 0 := by rw [h.queue.total, hq]; rfl
  have hstate := h.readable
  have htail : ∀ d ∈ s.pendingPullIntos.tail, d ∈ s.pendingPullIntos :=
    fun d hd => List.mem_of_mem_tail hd
  have hunfilled : filledBytes s.pendingPullIntos = [] := by
    rcases hp : s.pendingPullIntos with _ | ⟨d, ds⟩
    · rfl
    · have hpend := h.pending
      rw [hp] at hpend htypes
      rw [hpend.filledBytes_cons, PullIntoDescriptor.filled,
        hpend.of_cons.1.unfilled (htypes d (by simp)), ArrayBuffer.slice_zero]
  refine ⟨⟨h.queue, ⟨fun d hd => h.pending.pending d (htail d hd),
    fun d hd => h.pending.tail d (List.mem_of_mem_tail hd)⟩, ?_, ?_, ?_, h.pull, h.auto⟩,
    fun _ _ _ _ _ => hzero, fun _ _ => ?_, id⟩
  · change ViewOk s.byobRequest s.pendingPullIntos.tail
    rw [h.view]
    exact .none_of_live fun d hd => h.live d (htail d (List.mem_of_mem_head? hd))
  · refine ⟨fun d hd => ?_, fun _ => ?_, fun hne => absurd hstate hne⟩
    · simp [htypes d (htail d hd)]
    · change countType .default s.pendingPullIntos.tail
        = if s.autoAllocateChunkSize.isSome then rs.length else 0
      rw [countType_eq_length fun d hd => htypes d (htail d hd), List.length_tail, hlen]
      split <;> simp
  · refine ⟨fun _ => hzero, fun _ hc => ?_, fun hne => absurd hstate hne, ?_, ?_⟩
    · simp [supply, h.notClosing] at hc
    · simp [supply, hstate]
    · simp [supply, hstate]
  · have hsupply := Channel.Step.supply s.channel bs
    have hdeliver := @Channel.Step.deliver _
      { s.channel with content := s.channel.content ++ bs, supplied := s.channel.supplied ++ bs }
      r rs bs []
      (by simp [channel, hr, Reader.requests]) (by simp [channel, hq, hunfilled])
    refine .tail (.single hsupply) ?_
    have hrest : filledBytes s.pendingPullIntos.tail = [] := filledBytes_fresh h.pending.tail
    simpa [channel, supply, hq, hr, hrest, hv, Reader.requests] using hdeliver

/-- What leads to a state that keeps things, through steps of the channel, keeps them. -/
theorem Keeps.of_steps (hs : s.state = .readable) (hsteps : Channel.Steps s.channel t.channel)
    {u : ByteStream} (hstall : NoStall u) (h : Keeps t True True u) : Keeps s calm fair u :=
  ⟨h.inv, fun _ _ => hstall, fun _ hr => hsteps.trans (h.flow trivial hr), fun _ => hs⟩

/-- **Delivering a chunk to a stream with a default reader.** -/
theorem enqueueDeliver_default {b : ArrayBuffer} {off len : ℕ} {rs : List ℕ} (h : Refreshed s)
    (hr : s.reader = some (.default rs))
    (hidle : s.pendingPullIntos ≠ [] → s.queueTotalSize = 0)
    (hc : (ByteQueueEntry.mk b off len).Ok) :
    (s.enqueueDeliver (.quiet debug alloc) b off len).Sat
      (fun u => Keeps s True True u ∧ NoStall u) Q E := by
  obtain ⟨t, heq, hpost⟩ := processReadRequests_spec
    (s.queue.length + 0 + 1) h.readable le_rfl h.notClosing hr h.queue
    (by by_cases hp : s.pendingPullIntos = []
        · exact .inl hp
        · exact .inr (hidle hp)) h.pull (by omega)
  have hf := hpost.frame
  obtain ⟨rs', hr', hdone, hsame, hshorter⟩ := hpost.reader
  have hpend : t.pendingPullIntos = s.pendingPullIntos := by rw [hf]
  have hstate : t.state = .readable := by rw [hf]; exact h.readable
  have hauto : t.autoAllocateChunkSize = s.autoAllocateChunkSize := by rw [hf]
  obtain ⟨htypes, hlen⟩ := h.default_types hr
  have hempty : rs' = [] → s.pendingPullIntos = [] := by
    rintro rfl
    rcases hsame with rfl | hp
    · exact List.length_eq_zero_iff.mp (by simpa using hlen)
    · exact hp
  have ht : Refreshed t := by
    refine ⟨⟨hstate, by rw [hf]; exact h.notClosing, by rw [hf]; exact h.view, hpost.queue,
      by rw [hpend]; exact h.pending, by rw [hpend]; exact h.live,
      by rw [hf]; exact hpost.pull, by rw [hauto]; exact h.auto⟩, by rw [hpend]; exact h.types, ?_⟩
    rw [hr', hpend, hauto]
    refine ⟨fun d hd => by simp [htypes d hd], fun _ => ?_, by simp⟩
    rw [countType_eq_length htypes, hlen]
    rcases hsame with rfl | hp
    · rfl
    · -- some reads were served, so nothing is pending and nothing is allocated for reads
      rw [hp, List.length_nil] at hlen
      split_ifs at hlen ⊢ <;> omega
  have hprocess : s.processReadRequestsUsingQueue (.quiet debug alloc) = .ok t := by
    rw [processReadRequestsUsingQueue, if_pos (by simp [hasDefaultReader, readRequests, hr])]
    exact heq
  have hnum : t.getNumReadRequests = .ok rs'.length := by
    simp [getNumReadRequests, readRequests, hr']
  have hstall : NoStall t := by
    intro rs₀ hrs₀ hne
    rw [hr'] at hrs₀
    obtain rfl : rs' = rs₀ := by simpa using hrs₀
    rw [hpost.queue.total, hdone.resolve_left hne, queueSize_nil]
  have hkeep {u : ByteStream} (hu : Keeps t True True u) : Keeps s True True u ∧ NoStall u :=
    ⟨.of_steps h.readable hpost.steps (hu.stall trivial hstall) hu, hu.stall trivial hstall⟩
  rw [enqueueDeliver, if_pos (by simp [hasDefaultReader, readRequests, hr]), hprocess]
  simp only [Outcome.ok_bind, hnum]
  cases rs' with
  | nil =>
    -- no read waits: the chunk is queued
    have hnil : t.pendingPullIntos = [] := hpend.trans (hempty rfl)
    rw [if_pos List.length_nil, Env.assert_of (by simp [supply, hnil])]
    exact hkeep (ht.queue_chunk hnil (.inr hr') hc)
  | cons r rs' =>
    -- the oldest read takes the chunk, and the descriptor allocated for it goes away
    have hq : t.queue = [] := hdone.resolve_left (by simp)
    obtain ⟨v, hv, hbytes⟩ := construct_entry hc
    simp only at hv
    rw [if_neg (by simp), Env.assert_of (by simp [supply, hq])]
    have hhand := hkeep (ht.hand_chunk hr' hq hbytes)
    rcases hp : t.pendingPullIntos with _ | ⟨d, ds⟩
    · rw [hp] at hhand
      simp only [supply, hp, Outcome.pure_eq_ok, Outcome.ok_bind, hv, fulfillReadRequest, hr',
        settle_quiet, Bool.false_eq_true, if_false, Outcome.sat_ok]
      exact hhand
    · have hdt : d.readerType = .default := htypes d (by simp [← hpend, hp])
      rw [hp] at hhand
      have hshift := shiftPendingPullInto_eq (.quiet debug alloc)
        (s := t.supply (b.slice off len)) (d := d) hp ht.view
      rw [show (t.supply (b.slice off len)).pendingPullIntos = d :: ds from hp]
      simp only [hdt, decide_true, Env.assert_true, Outcome.ok_bind, hshift, Outcome.pure_eq_ok,
        hv]
      simp only [supply, fulfillReadRequest, hr', settle_quiet, Bool.false_eq_true, if_false,
        Outcome.sat_ok]
      exact hhand

/-! ### Filling the waiting views -/

/-- What filling and committing the pending descriptors leaves, after the ready descriptors `pre`
are committed: the descriptors or the queue have run out. -/
structure FlushPost (s t : ByteStream) (ty : ReaderType) (rs : List ℕ)
    (pre : List PullIntoDescriptor) : Prop where
  frame : t = { s with
    nextBuffer := t.nextBuffer, reader := t.reader, pendingPullIntos := t.pendingPullIntos
    queue := t.queue, queueTotalSize := t.queueTotalSize, settled := t.settled }
  queue : QueueOk t.queue t.queueTotalSize
  pending : PendingOk t.pendingPullIntos
  live : ∀ d ∈ t.pendingPullIntos, d.buffer.detached = false
  types : ∀ d ∈ t.pendingPullIntos, d.readerType = ty
  reader : ∃ k, t.reader = ty.reader (rs.drop k) ∧
    t.pendingPullIntos.length + k = pre.length + s.pendingPullIntos.length
  done : t.pendingPullIntos = [] ∨ t.queueTotalSize = 0
  steps : Channel.Steps (s.channelWith (filledBytes pre)) t.channel

variable (debug alloc) in
/-- **Filling and committing the pending descriptors**, all of which belong to the reader. -/
theorem flush_spec (pre : List PullIntoDescriptor) {ty : ReaderType} {rs : List ℕ} (h : Busy s)
    (hty : ty ≠ .none) (htypes : ∀ d ∈ s.pendingPullIntos, d.readerType = ty)
    (hpre : ∀ f ∈ pre, f.Ready) (hpret : ∀ f ∈ pre, f.readerType = ty)
    (hr : s.reader = ty.reader rs) (hlen : pre.length + s.pendingPullIntos.length ≤ rs.length) :
    ∃ fs u t, s.processPullIntoDescriptorsUsingQueue (.quiet debug alloc) = .ok (fs, u) ∧
      commitAll (.quiet debug alloc) (pre ++ fs) u = .ok t ∧ FlushPost s t ty rs pre := by
  obtain ⟨fs, ds, q, hprocess, hpost⟩ := processPullIntoDescriptorsUsingQueue_spec
    h.pending h.live h.queue h.view h.notClosing
  have hall : ∀ x ∈ fs.map (·.readerType) ++ ds.map (·.readerType), x = ty := by
    rw [hpost.types]
    simpa using htypes
  have hfs : ∀ f ∈ fs, f.readerType = ty := fun f hf =>
    hall _ (List.mem_append_left _ (List.mem_map_of_mem hf))
  have hds : ∀ d ∈ ds, d.readerType = ty := fun d hd =>
    hall _ (List.mem_append_right _ (List.mem_map_of_mem hd))
  have hsum : fs.length + ds.length = s.pendingPullIntos.length := by
    simpa using congrArg List.length hpost.types
  obtain ⟨l, n, hcommit, hsteps⟩ := commitAll_spec
    (s := { s with pendingPullIntos := ds, queue := q, queueTotalSize := queueSize q })
    (t := ty)
    (fun f hf => (List.mem_append.mp hf).elim (hpre f) (hpost.areReady f))
    (fun f hf => (List.mem_append.mp hf).elim (hpret f) (hfs f)) hty (by simp [h.readable]) hr
    (by rw [List.length_append]; omega)
  refine ⟨fs, _, _, hprocess, hcommit, rfl, ⟨hpost.entries, rfl⟩, hpost.left, hpost.live, hds,
    ⟨(pre ++ fs).length, rfl, ?_⟩, hpost.done, ?_⟩
  · change ds.length + (pre ++ fs).length = _
    rw [List.length_append]
    omega
  · have hcontent : s.channelWith (filledBytes pre) = channelWith
        { s with pendingPullIntos := ds, queue := q, queueTotalSize := queueSize q }
        (filledBytes (pre ++ fs)) := by
      simp only [channelWith, channel, filledBytes, List.flatMap_append, List.append_assoc]
      congr 2
      exact hpost.bytes.symm
    rw [hcontent]
    exact hsteps h.readable

/-- After filling and committing, the stream is as it should be. -/
theorem FlushPost.keeps {ty : ReaderType} {rs : List ℕ} {pre : List PullIntoDescriptor}
    (h : Busy s) (hty : ty ≠ .none)
    (hreader : ∀ k, t.pendingPullIntos.length + k = pre.length + s.pendingPullIntos.length →
      ReaderOk .readable s.autoAllocateChunkSize (ty.reader (rs.drop k)) t.pendingPullIntos)
    (hpost : FlushPost s t ty rs pre) :
    ByteInv t ∧ ((ty = .default → s.autoAllocateChunkSize.isSome ∨ rs = []) → NoStall t) ∧
      Channel.Steps (s.channelWith (filledBytes pre)) t.channel := by
  have hf := hpost.frame
  obtain ⟨k, hr, hk⟩ := hpost.reader
  have hstate : t.state = .readable := by rw [hf]; exact h.readable
  have hclose : t.closeRequested = false := by rw [hf]; exact h.notClosing
  have hview : t.byobRequest = none := by rw [hf]; exact h.view
  have hauto : t.autoAllocateChunkSize = s.autoAllocateChunkSize := by rw [hf]
  refine ⟨⟨hpost.queue, hpost.pending, ?_, ?_, ?_, by rw [hf]; exact h.pull,
    by rw [hauto]; exact h.auto⟩, fun hstall rs' hrs' hne => ?_, hpost.steps⟩
  · rw [hview]
    exact .none_of_live fun d hd => hpost.live d (List.mem_of_mem_head? hd)
  · rw [hstate, hauto, hr]
    exact hreader k hk
  · refine ⟨fun hne => hpost.done.resolve_left hne, fun _ hc => ?_, fun hne => absurd hstate hne,
      ?_, ?_⟩
    · simp [hclose] at hc
    · simp [hstate]
    · simp [hstate]
  · -- a default read that still waits has a descriptor, so the queue has run out
    have hok := hreader k hk
    rw [hr] at hrs'
    cases ty with
    | none => exact absurd rfl hty
    | byob => simp [ReaderType.reader] at hrs'
    | default =>
      simp only [ReaderType.reader, Option.some.injEq, Reader.default.injEq] at hrs'
      subst hrs'
      refine hpost.done.resolve_left fun hnil => hne ?_
      rcases hstall rfl with hsome | hnil'
      · have hcount := hok.2.1 rfl
        rw [hnil, if_pos hsome] at hcount
        exact List.length_eq_zero_iff.mp hcount.symm
      · simp [hnil']

/-- **Delivering a chunk to a stream with a BYOB reader.** -/
theorem enqueueDeliver_byob {b : ArrayBuffer} {off len : ℕ} {rs : List ℕ} (h : Refreshed s)
    (hr : s.reader = some (.byob rs)) (hc : (ByteQueueEntry.mk b off len).Ok) :
    (s.enqueueDeliver (.quiet debug alloc) b off len).Sat (Keeps s True True) Q E := by
  obtain ⟨htypes, hlen⟩ := h.byob_types hr
  set u := (s.supply (b.slice off len)).enqueueChunkToQueue b off len with hu
  have h' : Busy u := ⟨h.readable, h.notClosing, h.view, h.queue.append hc, h.pending, h.live,
    h.pull, h.auto⟩
  obtain ⟨fs, v, t, hprocess, hcommit, hpost⟩ := flush_spec debug alloc []
    (s := u) h' (by simp) htypes (by simp) (by simp) hr
    (by rw [List.length_nil, Nat.zero_add]; exact hlen.le)
  rw [enqueueDeliver, if_neg (by simp [hasDefaultReader, readRequests, hr]),
    if_pos (by simp [hasByobReader, readIntoRequests, hr])]
  rw [List.nil_append] at hcommit
  simp only [← hu, hprocess, Outcome.ok_bind, hcommit]
  obtain ⟨hinv, hstall, hsteps⟩ := hpost.keeps h' (by simp) (fun k hk => by
    refine ⟨fun d hd => by simp [hpost.types d hd], fun _ => ?_, by simp⟩
    rw [countType_eq_length hpost.types, List.length_drop]
    change t.pendingPullIntos.length + k = 0 + s.pendingPullIntos.length at hk
    omega)
  refine ⟨hinv, fun _ _ => hstall (by simp), fun _ _ => .head ?_ hsteps, fun _ => h.readable⟩
  have hstep := Channel.Step.supply s.channel (b.slice off len)
  simpa [channel, channelWith, hu, supply, enqueueChunkToQueue, ByteQueueEntry.bytes] using hstep

/-! ### The operation -/

/-- A released reader left bytes in the first descriptor, and a default read waits behind it with
a descriptor of its own. -/
def ByteStream.staleHead (s : ByteStream) : Bool :=
  match s.pendingPullIntos with
  | d :: d' :: _ =>
    s.state = .readable && d.readerType = .none && 0 < d.bytesFilled && !d.buffer.detached &&
      d'.readerType = .default
  | _ => false

/-- The chunk, once its buffer is transferred, is a proper entry with the bytes of the view. -/
private theorem chunk_entry {view : ArrayBufferView} (hpos : 0 < view.byteLength) (id : ℕ) :
    (ByteQueueEntry.mk ⟨id, view.buffer.data, false, true⟩ view.byteOffset view.byteLength).Ok :=
  ⟨hpos, view.bound_data hpos, rfl⟩

/-- With no stale descriptor in front of a default read, refreshing leaves the queue empty or
nothing pending. -/
private theorem RefreshPost.idle_default {rs : List ℕ} (hs : s.state = .readable)
    (ht : RefreshPost alloc s t) (ht' : Refreshed t) (hr : t.reader = some (.default rs))
    (hstale : alloc = true → s.staleHead = false) :
    t.pendingPullIntos ≠ [] → t.queueTotalSize = 0 := by
  intro hne
  by_contra htotal
  obtain ⟨d, ds, hp, hty, hpos, hdet, halloc⟩ := ht.stale hne htotal
  have htail : t.pendingPullIntos = ds := by
    rw [ht.idle.resolve_left htotal, hp, List.tail_cons]
  rcases hds : ds with _ | ⟨d', ds'⟩
  · exact hne (htail.trans hds)
  · have hty' := (ht'.default_types hr).1 d' (by simp [htail, hds])
    have := hstale halloc
    simp [staleHead, hp, hds, hs, hty, hpos, hdet, hty'] at this

/-- **Enqueueing keeps the stream as it should be**, unless it meets a stale descriptor. -/
theorem jsEnqueue_keeps {view : ArrayBufferView} (h : ByteInv s)
    (hstale : 0 < view.byteLength → view.buffer.detachable = true → alloc = true →
      s.staleHead = false) :
    (s.jsEnqueue (.quiet debug alloc) view).Sat (Keeps s True True) (Keeps s True True) E := by
  unfold jsEnqueue
  split_ifs with h1 h2 h3 h4
  · exact .refl h
  · exact .refl h
  · exact .refl h
  · exact .refl h
  have hs : s.state = .readable := by simpa using h4
  have hclose : s.closeRequested = false := by simpa using h3
  have hpos : 0 < view.byteLength := Nat.pos_of_ne_zero h1
  have hdet := view.not_detached hpos
  rw [controllerEnqueue, if_neg (by simp [hs, hclose]), if_neg (by simp [hdet])]
  cases htr : view.buffer.transfer s.nextBuffer with
  | none => exact Keeps.refl h
  | some b =>
    obtain ⟨⟨-, hable⟩, rfl⟩ := ArrayBuffer.transfer_eq_some htr
    set s₁ : ByteStream := { s with nextBuffer := s.nextBuffer + 1 } with hs₁
    have h₁ : ByteInv s₁ := ⟨h.queue, h.pending, h.view, h.reader, h.phase, h.pull, h.auto⟩
    have hkeep₁ : Keeps s True True s₁ := ⟨h₁, fun _ => id, fun _ _ => .refl, id⟩
    refine (enqueueRefreshHead_spec h₁ hs hkeep₁).bind fun t ht => ?_
    have ht' := ht.refreshed h₁ hs hclose
    have hsteps : Channel.Steps s.channel t.channel := by
      have hf := ht.frame
      have hcontent := ht.content
      rw [hf] at hcontent ⊢
      simp only [channel, hcontent, hs₁]
      exact .refl
    have hentry := chunk_entry hpos s.nextBuffer
    have hdeliver : (t.enqueueDeliver (.quiet debug alloc) ⟨s.nextBuffer, view.buffer.data, false,
        true⟩ view.byteOffset view.byteLength).Sat (Keeps s True True) (Keeps s True True) E := by
      rcases hr : t.reader with _ | rs | rs
      · have hstall : NoStall t := fun rs' hrs' => by simp [hr] at hrs'
        have hu := ht'.queue_chunk (ht'.pending_eq_nil hr) (.inl hr) hentry
        rw [enqueueDeliver, if_neg (by simp [hasDefaultReader, readRequests, hr]),
          if_neg (by simp [hasByobReader, readIntoRequests, hr]),
          Env.assert_of (by simp [hr]), Outcome.ok_bind]
        exact .of_steps hs hsteps (hu.stall trivial hstall) hu
      · have hidle := ht.idle_default (s := s₁) hs ht' hr (hstale hpos hable)
        exact (enqueueDeliver_default ht' hr hidle hentry).imp fun u hu =>
          .of_steps hs hsteps hu.2 hu.1
      · have hstall : NoStall t := fun rs' hrs' => by simp [hr] at hrs'
        exact (enqueueDeliver_byob ht' hr hentry).imp fun u hu =>
          .of_steps hs hsteps (hu.stall trivial hstall) hu
    exact Outcome.Sat.bind hdeliver fun u hu => hu.pull

end WebStreams
