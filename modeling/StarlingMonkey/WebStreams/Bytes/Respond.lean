import StarlingMonkey.WebStreams.Bytes.Enqueue

/-!
# Answering a `byobRequest`

`respond` and `respondWithNewView` give the first pending descriptor a new buffer and count more
of it as filled. Three things can follow: the descriptor still waits, it is committed (and a
remainder that does not make a whole element is queued for the next one), or, when its reader was
released, its bytes are queued.

A descriptor left behind by a released reader is `stranded` when a default read waits and no
descriptor was allocated for that read: the answer then queues bytes that the read does not get.
-/

namespace WebStreams

open ByteStream

/-- The only pending descriptor was left behind by a released reader, and default reads wait. -/
def ByteStream.stranded (s : ByteStream) : Bool :=
  match s.pendingPullIntos with
  | [d] => s.state = .readable && d.readerType = .none && s.readRequests.any (!·.isEmpty)
  | _ => false

variable {debug alloc : Bool} {s t : ByteStream} {calm fair : Prop} {Q : ByteStream → Prop}
  {E : ByteAbort → Prop} {d : PullIntoDescriptor} {ds : List PullIntoDescriptor}
  {b : ArrayBuffer} {n : ℕ}

/-- The stream is readable, and `n` bytes behind the filled ones of its first descriptor `d`,
whose buffer is now `b`, are to count as filled. -/
structure Answer (s : ByteStream) (d : PullIntoDescriptor) (ds : List PullIntoDescriptor)
    (b : ArrayBuffer) (n : ℕ) : Prop where
  inv : ByteInv s
  readable : s.state = .readable
  pending : s.pendingPullIntos = d :: ds
  live : b.Live
  length : b.data.length = d.buffer.data.length
  pos : 0 < n
  fits : d.bytesFilled + n ≤ d.byteLength

namespace Answer

/-- The descriptor with `n` more bytes filled. -/
abbrev filledHead (d : PullIntoDescriptor) (b : ArrayBuffer) (n : ℕ) : PullIntoDescriptor :=
  { d with buffer := b, bytesFilled := d.bytesFilled + n }

/-- The stream while the first descriptor is in the hands of the operation. -/
abbrev headless (s : ByteStream) (d : PullIntoDescriptor) (ds : List PullIntoDescriptor)
    (b : ArrayBuffer) (n : ℕ) : ByteStream :=
  { s with
    nextBuffer := s.nextBuffer + 1, byobRequest := none, pendingPullIntos := ds
    supplied := s.supplied ++ b.slice (d.byteOffset + d.bytesFilled) n }

/-- The requests that are left match the descriptors that are left. -/
private theorem readerOk_left {ty : ReaderType} {rs : List ℕ} {auto : Option ℕ} {m k : ℕ}
    {es : List PullIntoDescriptor} (hty : ty ≠ .none) (hes : ∀ e ∈ es, e.readerType = ty)
    (hm : m = if ty = .default ∧ auto = none then 0 else rs.length) (hk : es.length + k = m) :
    ReaderOk .readable auto (ty.reader (rs.drop k)) es := by
  have hcount := countType_eq_length hes
  cases ty with
  | none => exact absurd rfl hty
  | default =>
    refine ⟨fun e he => by simp [hes e he], fun _ => ?_, by simp⟩
    rw [hcount, List.length_drop]
    cases auto with
    | none =>
      simp only [and_self, if_true, Option.isSome_none, Bool.false_eq_true, if_false] at hm ⊢
      omega
    | some a =>
      simp only [reduceCtorEq, and_false, if_false, Option.isSome_some, if_true] at hm ⊢
      omega
  | byob =>
    refine ⟨fun e he => by simp [hes e he], fun _ => ?_, by simp⟩
    rw [hcount, List.length_drop]
    simp only [reduceCtorEq, false_and, if_false] at hm
    omega

variable (h : Answer s d ds b n)
include h

theorem pendingOk : d.Pending ∧ (∀ e ∈ ds, e.Pending) ∧ ∀ e ∈ ds, e.Fresh := by
  have hp := h.inv.pending
  rw [h.pending] at hp
  exact hp.of_cons

theorem headOk : (filledHead d b n).Ok :=
  h.pendingOk.1.toOk.congr rfl rfl rfl rfl rfl rfl h.length h.live.2 id

theorem queue_nil : s.queue = [] ∧ s.queueTotalSize = 0 := by
  have hzero := h.inv.phase.idle (by simp [h.pending])
  exact ⟨(queueSize_eq_zero h.inv.queue.entries).mp (h.inv.queue.total ▸ hzero), hzero⟩

theorem busy : Busy (headless s d ds b n) := by
  obtain ⟨-, hps, hfs⟩ := h.pendingOk
  refine ⟨h.readable, ?_, rfl, h.inv.queue, ⟨hps, fun e he => hfs e (List.mem_of_mem_tail he)⟩,
    fun e he => (hfs e he).live, h.inv.pull, h.inv.auto⟩
  by_contra hc
  have hpos := h.inv.phase.closing h.readable (by simpa using hc)
  have hzero := h.queue_nil.2
  omega

/-- The answer supplies the bytes that are now filled, if those filled before are still there. -/
theorem supplies (hfair : b.slice d.byteOffset d.bytesFilled = d.filled) :
    Channel.Step s.channel ((headless s d ds b n).channelWith (filledHead d b n).filled) := by
  have hstep := Channel.Step.supply s.channel (b.slice (d.byteOffset + d.bytesFilled) n)
  have hfilled : (filledHead d b n).filled
      = d.filled ++ b.slice (d.byteOffset + d.bytesFilled) n := by
    rw [← hfair]
    exact b.slice_add _ _ _
  rw [hfilled]
  obtain ⟨-, -, hfs⟩ := h.pendingOk
  simpa [channel, channelWith, h.pending, h.queue_nil.1, filledBytes_fresh hfs] using hstep

/-- The descriptors belong to the reader, except that the first may have lost its own. -/
theorem owners : (s.reader = none ∧ ds = [] ∧ d.readerType = .none) ∨
    ∃ ty rs, ty ≠ .none ∧ s.reader = ReaderType.reader ty rs ∧ (∀ e ∈ ds, e.readerType = ty) ∧
      (d.readerType = ty ∨ d.readerType = .none) ∧
      (if d.readerType = ty then 1 else 0) + ds.length
        = if ty = .default ∧ s.autoAllocateChunkSize = none then 0 else rs.length := by
  obtain ⟨-, -, hfs⟩ := h.pendingOk
  have hreader := h.inv.reader
  rw [h.readable, h.pending] at hreader
  rcases hr : s.reader with _ | rs | rs <;> rw [hr] at hreader
  · refine .inl ⟨rfl, ?_, hreader d (by simp)⟩
    exact List.eq_nil_iff_forall_not_mem.mpr fun e he =>
      (hfs e he).reader (hreader e (by simp [he]))
  · obtain ⟨htypes, hcount, -⟩ := hreader
    have hds : ∀ e ∈ ds, e.readerType = .default := by
      intro e he
      have h1 := htypes e (by simp [he])
      have h2 := (hfs e he).reader
      cases hty : e.readerType <;> simp_all
    have hcount' := hcount rfl
    rw [countType_cons, countType_eq_length hds] at hcount'
    refine .inr ⟨.default, rs, by simp, rfl, hds, ?_, ?_⟩
    · have h1 := htypes d (by simp)
      cases hty : d.readerType <;> simp_all
    · rw [Nat.add_comm, hcount']
      cases s.autoAllocateChunkSize <;> simp
  · obtain ⟨htypes, hcount, -⟩ := hreader
    have hds : ∀ e ∈ ds, e.readerType = .byob := by
      intro e he
      have h1 := htypes e (by simp [he])
      have h2 := (hfs e he).reader
      cases hty : e.readerType <;> simp_all
    have hcount' := hcount (by simp)
    rw [countType_cons, countType_eq_length hds] at hcount'
    refine .inr ⟨.byob, rs, by simp, rfl, hds, ?_, ?_⟩
    · have h1 := htypes d (by simp)
      cases hty : d.readerType <;> simp_all
    · rw [Nat.add_comm, hcount']
      simp

/-- What an answer guarantees: no stall unless the descriptor was stranded, and no byte lost if
the buffer still holds the bytes filled before. -/
abbrev Post (alloc : Bool) (s : ByteStream) (d : PullIntoDescriptor) (b : ArrayBuffer) :
    ByteStream → Prop :=
  Keeps s (alloc = true → s.stranded = false) (b.slice d.byteOffset d.bytesFilled = d.filled)

/-- The descriptor still waits. -/
theorem wait (hshort : d.bytesFilled + n < d.minimumFill) :
    Post alloc s d b { headless s d ds b n with pendingPullIntos := filledHead d b n :: ds } := by
  obtain ⟨-, hps, hfs⟩ := h.pendingOk
  have hzero := h.queue_nil.2
  refine ⟨⟨h.inv.queue, .cons ⟨h.headOk, hshort⟩ hps hfs, ?_, ?_, ?_, h.inv.pull, h.inv.auto⟩,
    fun _ _ _ _ _ => hzero, fun hfair _ => ?_, id⟩
  · refine .none_of_live fun e he => ?_
    obtain rfl : filledHead d b n = e := by simpa using he
    exact h.live.1
  · have hreader := h.inv.reader
    rw [h.pending] at hreader
    rcases hr : s.reader with _ | rs | rs <;> simp only [hr] at hreader ⊢
    · simpa [ReaderOk] using hreader
    · simpa [ReaderOk] using hreader
    · simpa [ReaderOk] using hreader
  · have hstate := h.readable
    have hclose : s.closeRequested = false := h.busy.notClosing
    refine ⟨fun _ => hzero, fun _ hc => ?_, fun hne => absurd hstate hne, ?_, ?_⟩
    · change s.closeRequested = true at hc
      simp [hclose] at hc
    · simp [hstate]
    · simp [hstate]
  · have hstep := h.supplies hfair
    refine .single ?_
    simpa [channel, channelWith] using hstep

/-- The bytes of a descriptor without a reader are queued, and go to the views that wait. -/
theorem drain (hty : d.readerType = .none) :
    (enqueueDetachedPullIntoToQueue (.quiet debug alloc)
        { headless s d ds b n with pendingPullIntos := filledHead d b n :: ds } >>= fun t =>
      t.processPullIntoDescriptorsUsingQueue (.quiet debug alloc) >>= fun p =>
        commitAll (.quiet debug alloc) p.1 p.2).Sat (Post alloc s d b) (Post alloc s d b) E := by
  have hbusy := h.busy
  refine Outcome.Sat.bind (enqueueDetached_spec (s := { headless s d ds b n with
    pendingPullIntos := filledHead d b n :: ds }) h.readable rfl h.headOk h.fits hty rfl
    h.inv.queue h.inv.pull h.inv.auto) fun t ht => ?_
  have hf := ht.frame
  have hpend : t.pendingPullIntos = ds := by rw [hf]
  have hreader : t.reader = s.reader := by rw [hf]
  have hauto : t.autoAllocateChunkSize = s.autoAllocateChunkSize := by rw [hf]
  have ht' : Busy t := by
    refine ⟨by rw [hf]; exact h.readable, by rw [hf]; exact hbusy.notClosing, by rw [hf], ht.queue,
      by rw [hpend]; exact hbusy.pending, by rw [hpend]; exact hbusy.live,
      by rw [hf]; exact h.inv.pull, by rw [hf]; exact h.inv.auto⟩
  have hsteps (hfair : b.slice d.byteOffset d.bytesFilled = d.filled) :
      Channel.Steps s.channel t.channel := by
    have hbytes := ht.bytes
    refine .single ?_
    have hch : t.channel = (headless s d ds b n).channelWith (filledHead d b n).filled := by
      rw [hf] at hbytes ⊢
      simp only [channel, channelWith, hbytes, h.queue_nil.1, queueBytes_nil, List.nil_append,
        List.append_nil, filledBytes_fresh h.pendingOk.2.2]
    rw [hch]
    exact h.supplies hfair
  rcases h.owners with ⟨hr, hds, -⟩ | ⟨ty, rs, hne, hr, hdst, -, hlen⟩
  · -- no reader: the bytes stay in the queue
    have hnil : t.pendingPullIntos = [] := hpend.trans hds
    have hr' : t.reader = none := hreader.trans hr
    have hprocess : t.processPullIntoDescriptorsUsingQueue (.quiet debug alloc) = .ok ([], t) := by
      rw [processPullIntoDescriptorsUsingQueue, Env.assert_of (by simp [ht'.notClosing]),
        Outcome.ok_bind, hnil]
      rfl
    rw [hprocess]
    refine ⟨⟨ht.queue, ht'.pending, ?_, ?_, ?_, ht'.pull, ht'.auto⟩, fun _ _ rs hrs => ?_,
      fun hfair _ => hsteps hfair, fun _ => h.readable⟩
    · rw [hnil, ht'.view]
      exact .nil
    · rw [hr', hnil]
      simp [ReaderOk]
    · have hstate := ht'.readable
      have hclose := ht'.notClosing
      refine ⟨fun hne => absurd hnil hne, by simp [hclose], fun hne => absurd hstate hne,
        ?_, ?_⟩ <;>
        simp [hstate]
    · simp [hr'] at hrs
  · rw [if_neg (by rw [hty]; exact fun he => hne he.symm), Nat.zero_add] at hlen
    obtain ⟨fs, u, v, hprocess, hcommit, hpost⟩ := flush_spec _ _ []
      (s := t) ht' hne (by rw [hpend]; exact hdst) (by simp)
      (by simp) (hreader.trans hr) (by
        rw [hpend, List.length_nil, Nat.zero_add, hlen]
        split <;> simp)
    obtain ⟨hinv, hstall, hflow⟩ := hpost.keeps ht' hne fun k hk => by
      rw [hpend, List.length_nil, Nat.zero_add] at hk
      rw [hauto]
      exact readerOk_left hne hpost.types hlen hk
    rw [List.nil_append] at hcommit
    rw [hprocess, Outcome.ok_bind, hcommit]
    refine ⟨hinv, fun hcalm _ => hstall fun hdefault => ?_,
      fun hfair _ => (hsteps hfair).trans hflow, fun _ => h.readable⟩
    -- a stranded descriptor is the one case in which a read is left waiting
    subst hdefault
    rw [hauto]
    rcases hds : ds with _ | ⟨d', ds'⟩
    · right
      have hstranded := hcalm (ht.cloned (Nat.add_pos_right _ h.pos))
      simp only [stranded, h.pending, hds, h.readable, hty, readRequests, hr,
        ReaderType.reader] at hstranded
      simpa using hstranded
    · left
      rw [hds] at hlen
      cases hauto' : s.autoAllocateChunkSize with
      | none => simp [hauto'] at hlen
      | some a => rfl

/-- The descriptor cut back to whole elements. -/
abbrev wholeHead (d : PullIntoDescriptor) (b : ArrayBuffer) (n : ℕ) : PullIntoDescriptor :=
  { filledHead d b n with
    bytesFilled := d.bytesFilled + n - (d.bytesFilled + n) % d.elementSize }

omit h in
/-- The remainder behind the whole elements is what is cut off. -/
theorem wholeHead_bytes : (filledHead d b n).filled = (wholeHead d b n).filled ++
    b.slice (d.byteOffset + (d.bytesFilled + n) - (d.bytesFilled + n) % d.elementSize)
      ((d.bytesFilled + n) % d.elementSize) := by
  have hle := Nat.mod_le (d.bytesFilled + n) d.elementSize
  have hsum := b.slice_add d.byteOffset
    (d.bytesFilled + n - (d.bytesFilled + n) % d.elementSize) ((d.bytesFilled + n) % d.elementSize)
  rw [Nat.sub_add_cancel hle] at hsum
  rw [← Nat.add_sub_assoc hle] at hsum
  exact hsum

theorem wholeHead_ready : (wholeHead d b n).Ready := by
  refine ⟨h.headOk.congr rfl rfl rfl rfl rfl rfl rfl h.live.2 id, h.live.1,
    (Nat.sub_le _ _).trans h.fits, Nat.sub_mod_eq_zero_of_mod_eq (by simp)⟩

/-- Queueing the remainder. -/
private theorem queue_remainder :
    (if 0 < (d.bytesFilled + n) % d.elementSize then
        (headless s d ds b n).enqueueClonedChunkToQueue (.quiet debug alloc) b
          (d.byteOffset + (d.bytesFilled + n) - (d.bytesFilled + n) % d.elementSize)
          ((d.bytesFilled + n) % d.elementSize)
      else pure (headless s d ds b n)).Sat
      (fun t => Busy t ∧ t.pendingPullIntos = ds ∧ t.reader = s.reader ∧
        t.autoAllocateChunkSize = s.autoAllocateChunkSize ∧
        (headless s d ds b n).channelWith (filledHead d b n).filled
          = t.channelWith (wholeHead d b n).filled) (Post alloc s d b) E := by
  have hbusy := h.busy
  have hnil := h.queue_nil.1
  have hfresh := filledBytes_fresh h.pendingOk.2.2
  split_ifs with hpos
  · cases alloc with
    | false =>
      obtain ⟨t, heq, hkeep⟩ := enqueueCloned_failed

        (b := b)
        hbusy.readable hbusy.pull hbusy.auto (u := s)
      rw [heq]
      exact hkeep
    | true =>
      have hle := Nat.mod_le (d.bytesFilled + n) d.elementSize
      have hfits : d.byteOffset + (d.bytesFilled + n) ≤ b.data.length := by
        have := h.pendingOk.1.region_le
        have := h.fits
        rw [h.length]
        omega
      obtain ⟨hentry, hbytes⟩ := cloneRegion_entry
        (d.byteOffset + (d.bytesFilled + n) - (d.bytesFilled + n) % d.elementSize) (b := b)
        (n := (d.bytesFilled + n) % d.elementSize) hpos (by omega)
      simp only [enqueueClonedChunkToQueue, Env.quiet, if_true, enqueueChunkToQueue,
        Outcome.pure_eq_ok, Outcome.sat_ok]
      refine ⟨⟨hbusy.readable, hbusy.notClosing, rfl, hbusy.queue.append hentry, hbusy.pending,
        hbusy.live, hbusy.pull, hbusy.auto⟩, trivial, trivial, trivial, ?_⟩
      simp only [channelWith, channel, hfresh, hnil, List.nil_append, queueBytes_nil,
        queueBytes_cons, List.append_nil, hbytes, wholeHead_bytes]
  · have hzero : (d.bytesFilled + n) % d.elementSize = 0 := by omega
    have hbytes := wholeHead_bytes (d := d) (b := b) (n := n)
    rw [hzero, ArrayBuffer.slice_zero, List.append_nil] at hbytes
    exact ⟨hbusy, rfl, rfl, rfl, by rw [hbytes]⟩

variable (debug alloc) in
/-- The descriptor is committed, and the views behind it take what they can. -/
theorem commit (hty : d.readerType ≠ .none) :
    ((if 0 < (d.bytesFilled + n) % d.elementSize then
        (headless s d ds b n).enqueueClonedChunkToQueue (.quiet debug alloc) b
          (d.byteOffset + (d.bytesFilled + n) - (d.bytesFilled + n) % d.elementSize)
          ((d.bytesFilled + n) % d.elementSize)
      else pure (headless s d ds b n)) >>= fun t =>
      t.processPullIntoDescriptorsUsingQueue (.quiet debug alloc) >>= fun p =>
        commitAll (.quiet debug alloc) (wholeHead d b n :: p.1) p.2).Sat
      (Post alloc s d b) (Post alloc s d b) E := by
  refine Outcome.Sat.bind h.queue_remainder fun t ⟨ht, hpend, hreader, hauto, hch⟩ => ?_
  rcases h.owners with ⟨-, -, hnone⟩ | ⟨ty, rs, hne, hr, hds, howner, hlen⟩
  · exact absurd hnone hty
  · have hdt : d.readerType = ty := howner.resolve_right hty
    rw [if_pos hdt] at hlen
    have hauto' : ty = .default → s.autoAllocateChunkSize ≠ none := fun hd hn => by
      simp [hd, hn] at hlen
    have hlen' : 1 + ds.length = rs.length := by
      rw [if_neg fun hc => hauto' hc.1 hc.2] at hlen
      exact hlen
    obtain ⟨fs, u, v, hprocess, hcommit, hpost⟩ := flush_spec _ _ [wholeHead d b n]
      (s := t) ht hne (by rw [hpend]; exact hds)
      (by simpa using h.wholeHead_ready) (by simpa using hdt) (hreader.trans hr)
      (by rw [hpend]; simpa using hlen'.le)
    obtain ⟨hinv, hstall, hflow⟩ := hpost.keeps ht hne fun k hk => by
      rw [hpend] at hk
      rw [hauto]
      exact readerOk_left hne hpost.types hlen (by simpa using hk)
    rw [hprocess, Outcome.ok_bind]
    rw [List.cons_append, List.nil_append] at hcommit
    rw [hcommit]
    refine ⟨hinv, fun _ _ => hstall fun hd => .inl ?_, fun hfair _ => ?_, fun _ => h.readable⟩
    · rw [hauto]
      exact Option.isSome_iff_ne_none.mpr (hauto' hd)
    · rw [filledBytes_cons, filledBytes_nil, List.append_nil, ← hch] at hflow
      exact .head (h.supplies hfair) hflow

/-- **Answering in the readable state.** -/
theorem respondInReadableState_keeps :
    (respondInReadableState (.quiet debug alloc)
      { s with
        nextBuffer := s.nextBuffer + 1, byobRequest := none
        pendingPullIntos := { d with buffer := b } :: ds } n).Sat (Post alloc s d b)
          (Post alloc s d b) E := by
  rw [respondInReadableState]
  simp only [supply, Env.assert_of (c := decide (d.bytesFilled + n ≤ d.byteLength))
    (by simpa using h.fits), Outcome.ok_bind,
    fillHeadPullIntoDescriptor_eq (s := headless s d ds b n) rfl]
  by_cases hnone : d.readerType = .none
  · rw [if_pos hnone]
    exact h.drain hnone
  · rw [if_neg hnone]
    by_cases hshort : d.bytesFilled + n < d.minimumFill
    · rw [if_pos hshort]
      exact h.wait hshort
    · rw [if_neg hshort]
      have hcommit := h.commit debug alloc (E := E) hnone
      simp only [commitAll] at hcommit
      split_ifs at hcommit ⊢ with hrem
      · exact hcommit
      · exact hcommit

end Answer

/-! ### Answering in the closed state -/

/-- The pending descriptors of a closed stream are ready, once the first has a live buffer. -/
private theorem ready_of_closed (h : ByteInv s) (hs : s.state = .closed)
    (hp : s.pendingPullIntos = d :: ds) (hb : b.Live)
    (hlen : b.data.length = d.buffer.data.length) :
    PullIntoDescriptor.Ready { d with buffer := b } ∧ ∀ e ∈ ds, e.Ready := by
  have hok := h.pending
  rw [hp] at hok
  obtain ⟨hd, hps, hfs⟩ := hok.of_cons
  have hmod := h.phase.closed hs
  rw [hp] at hmod
  refine ⟨⟨hd.toOk.congr rfl rfl rfl rfl rfl rfl hlen hb.2 id, hb.1, hd.lt_length.le,
    hmod d (by simp)⟩, fun e he => ?_⟩
  have hpe := hps e he
  exact ⟨hpe.toOk, (hfs e he).live, hpe.lt_length.le, hmod e (by simp [he])⟩

variable (debug alloc calm fair) in
/-- **Answering in the closed state**: the waiting views are given back. -/
theorem respondInClosedState_keeps (h : ByteInv s) (hs : s.state = .closed)
    (hp : s.pendingPullIntos = d :: ds) (hb : b.Live)
    (hlen : b.data.length = d.buffer.data.length) :
    (respondInClosedState (.quiet debug alloc)
      { s with
        nextBuffer := s.nextBuffer + 1, byobRequest := none
        pendingPullIntos := { d with buffer := b } :: ds }).Sat (Keeps s calm fair) Q E := by
  obtain ⟨hready, hrest⟩ := ready_of_closed h hs hp hb hlen
  have hok := h.pending
  rw [hp] at hok
  obtain ⟨hd, hps, hfs⟩ := hok.of_cons
  have hend : s.state ≠ .readable := by simp [hs]
  have hphase {ds' : List PullIntoDescriptor}
      (hds' : ∀ e ∈ ds', e.bytesFilled % e.elementSize = 0) :
      PhaseOk s.state s.closeRequested s.queueTotalSize ds' :=
    ⟨fun _ => h.phase.ended hend, fun hr => absurd hr hend, h.phase.ended, fun _ => hds',
      fun he => by simp [hs] at he⟩
  -- what stays pending after the step has live buffers and whole elements
  have hkeep {ds' : List PullIntoDescriptor} {reader : Option Reader} {n : ℕ}
      {l : List (ℕ × Settlement)} (hpend : PendingOk ds') (hready' : ∀ e ∈ ds', e.Ready)
      (hreader : ReaderOk s.state s.autoAllocateChunkSize reader ds') :
      Keeps s calm fair { s with
        nextBuffer := n, byobRequest := none, pendingPullIntos := ds', reader := reader
        settled := l } :=
    .of_ended ⟨h.queue, hpend,
      .none_of_live fun e he => (hready' e (List.mem_of_mem_head? he)).live, hreader,
      hphase fun e he => (hready' e he).filled_mod, h.pull, h.auto⟩ hend
  have hpendAll : PendingOk ({ d with buffer := b } :: ds) :=
    .cons ⟨hready.toOk, hd.short⟩ hps hfs
  have hpendTail : PendingOk ds := ⟨hps, fun e he => hfs e (List.mem_of_mem_tail he)⟩
  have hreadyAll : ∀ e ∈ { d with buffer := b } :: ds, e.Ready := by simpa using ⟨hready, hrest⟩
  have hreader := h.reader
  rw [hp] at hreader
  have hshift := shiftPendingPullInto_eq (.quiet debug alloc)
    (s := { s with
      nextBuffer := s.nextBuffer + 1, byobRequest := none
      pendingPullIntos := { d with buffer := b } :: ds }) rfl rfl
  simp only [respondInClosedState, Env.assert_of (c := decide (d.bytesFilled % d.elementSize = 0))
    (by simpa using hready.filled_mod), Outcome.ok_bind]
  rcases hr : s.reader with _ | rs | rs <;> rw [hr] at hreader hshift
  · -- no reader: the only descriptor has lost its own
    have hty : d.readerType = .none := hreader d (by simp)
    have hnil : ds = [] := List.eq_nil_iff_forall_not_mem.mpr fun e he =>
      (hfs e he).reader (hreader e (by simp [he]))
    subst hnil
    rw [if_pos hty, hshift]
    simp only [Outcome.ok_bind, Outcome.pure_eq_ok,
      hasByobReader, readIntoRequests, Option.isSome_none, Bool.false_eq_true, if_false]
    exact hkeep .nil (by simp) (by simp [ReaderOk])
  · -- a default reader: its requests are settled, and its descriptors stay
    obtain ⟨htypes, -, hend'⟩ := hreader
    have hreaderOk {ds' : List PullIntoDescriptor} (hds' : ∀ e ∈ ds', e.readerType ≠ .byob) :
        ReaderOk s.state s.autoAllocateChunkSize (some (.default rs)) ds' :=
      ⟨hds', fun h' => absurd h' hend, hend'⟩
    by_cases hty : d.readerType = .none
    · rw [if_pos hty, hshift]
      simp only [Outcome.ok_bind, Outcome.pure_eq_ok,
        hasByobReader, readIntoRequests, Option.isSome_none, Bool.false_eq_true, if_false]
      exact hkeep hpendTail hrest (hreaderOk fun e he => htypes e (by simp [he]))
    · simp only [if_neg hty, Outcome.ok_bind, Outcome.pure_eq_ok,
        hasByobReader, readIntoRequests, Option.isSome_none, Bool.false_eq_true]
      exact hkeep hpendAll hreadyAll (hreaderOk (by simpa using htypes))
  · -- a BYOB reader: one descriptor for each request
    obtain ⟨htypes, hcount, -⟩ := hreader
    have hds : ∀ e ∈ ds, e.readerType = .byob := by
      intro e he
      have h1 := htypes e (by simp [he])
      have h2 := (hfs e he).reader
      cases hty : e.readerType <;> simp_all
    have hcount' := hcount (by simp [hs])
    rw [countType_cons, countType_eq_length hds] at hcount'
    have hnone {n : ℕ} {l : List (ℕ × Settlement)} := @hkeep [] (some (.byob [])) n l
      .nil (by simp) ⟨by simp, by simp, by simp⟩
    by_cases hty : d.readerType = .none
    · rw [hty, if_neg (by simp), Nat.add_zero] at hcount'
      obtain ⟨l, n, heq⟩ := commitPending_spec debug alloc
        (s := { s with
          nextBuffer := s.nextBuffer + 1, byobRequest := none, pendingPullIntos := ds })
        hrest hds (by simp [hs]) rfl rfl hr hcount'
      simp only [hr] at heq
      rw [if_pos hty, hshift]
      simp only [Outcome.ok_bind, Outcome.pure_eq_ok,
        hasByobReader, getNumReadIntoRequests, readIntoRequests, Option.isSome_some, if_true,
        Option.map_some, Outcome.expect_some, heq]
      exact hnone
    · have hdt : d.readerType = .byob := by
        have h1 := htypes d (by simp)
        cases hty' : d.readerType <;> simp_all
      rw [hdt, if_pos rfl] at hcount'
      obtain ⟨l, n, heq⟩ := commitPending_spec debug alloc
        (s := { s with
          nextBuffer := s.nextBuffer + 1, byobRequest := none
          pendingPullIntos := { d with buffer := b } :: ds })
        hreadyAll (by simpa using ⟨hdt, hds⟩) (by simp [hs]) rfl rfl hr (by simpa using hcount')
      simp only [hr] at heq
      simp only [if_neg hty, Outcome.ok_bind, Outcome.pure_eq_ok,
        hasByobReader, getNumReadIntoRequests, readIntoRequests, Option.isSome_some, if_true,
        Option.map_some, Outcome.expect_some, heq]
      exact hnone

/-! ### The operations -/

variable (debug alloc) in
/-- **Answering** with the buffer `b`, which holds `n` more bytes. -/
theorem respondInternal_keeps (h : ByteInv s) (hp : s.pendingPullIntos = d :: ds) (hb : b.Live)
    (hlen : b.data.length = d.buffer.data.length)
    (hn : s.state = .closed ∧ n = 0 ∨
      s.state = .readable ∧ 0 < n ∧ d.bytesFilled + n ≤ d.byteLength) :
    ((s.setHeadBuffer b).respondInternal (.quiet debug alloc) n).Sat
      (Answer.Post alloc s d b) (Answer.Post alloc s d b) E := by
  have hset : (s.setHeadBuffer b).invalidateByobRequest = { s with
      nextBuffer := s.nextBuffer + 1, byobRequest := none
      pendingPullIntos := { d with buffer := b } :: ds } := by
    simp only [setHeadBuffer, hp, invalidateByobRequest]
  simp only [respondInternal, hset]
  rcases hn with ⟨hs, rfl⟩ | ⟨hs, hpos, hfits⟩
  · rw [if_pos hs, Env.assert_of (by simp), Outcome.ok_bind]
    have hkeep := respondInClosedState_keeps debug alloc (alloc = true → s.stranded = false)
      (b.slice d.byteOffset d.bytesFilled = d.filled) (Q := Answer.Post alloc s d b) (E := E)
      h hs hp hb hlen
    exact hkeep.bind fun t ht => ht.pull
  · rw [if_neg (by simp [hs]), Env.assert_of (by simpa using hs), Outcome.ok_bind,
      Env.assert_of (by simpa using hpos), Outcome.ok_bind]
    have hanswer : Answer s d ds b n := ⟨h, hs, hp, hb, hlen, hpos, hfits⟩
    exact hanswer.respondInReadableState_keeps.bind fun t ht => ht.pull

/-- The author's `respond(n)` passes the checks. -/
def ByteStream.acceptsRespond (s : ByteStream) (n : ℕ) : Bool :=
  s.byobRequest.isSome && s.pendingPullIntos.head?.any fun d =>
    !d.buffer.detached && 0 < n && n ≤ d.byteLength - d.bytesFilled

/-- The author's `respondWithNewView(view)` passes the checks. -/
def ByteStream.acceptsNewView (s : ByteStream) (view : ArrayBufferView) : Bool :=
  s.byobRequest.isSome && 0 < view.byteLength && view.buffer.detachable &&
    s.pendingPullIntos.head?.any fun d =>
      d.byteOffset + d.bytesFilled = view.byteOffset &&
        d.bufferByteLength = view.buffer.byteLength &&
        d.bytesFilled + view.byteLength ≤ d.byteLength

/-- The author's `respondWithNewView(view)` puts the buffer of the view into the first descriptor:
it passes the checks, or the stream is closed and the view is empty. -/
def ByteStream.takesNewView (s : ByteStream) (view : ArrayBufferView) : Bool :=
  s.byobRequest.isSome && (view.byteLength = 0) = (s.state = .closed) && view.buffer.detachable &&
    s.pendingPullIntos.head?.any fun d =>
      d.byteOffset + d.bytesFilled = view.byteOffset &&
        d.bufferByteLength = view.buffer.byteLength &&
        d.bytesFilled + view.byteLength ≤ d.byteLength

/-- **`respond` keeps the stream as it should be**, unless the descriptor is stranded. -/
theorem jsRespond_keeps (h : ByteInv s) (n : ℕ) :
    (s.jsRespond (.quiet debug alloc) n).Sat
      (Keeps s (s.acceptsRespond n = true → alloc = true → s.stranded = false) True)
      (Keeps s (s.acceptsRespond n = true → alloc = true → s.stranded = false) True) E := by
  unfold jsRespond
  cases hv : s.byobRequest with
  | none => exact .refl h
  | some view =>
    obtain ⟨d, hhead, hview⟩ := h.view.region view hv
    obtain ⟨ds, hp⟩ : ∃ ds, s.pendingPullIntos = d :: ds := List.head?_eq_some_iff.mp hhead
    have hok := h.pending
    rw [hp] at hok
    have hd := hok.of_cons.1
    have hlt := hd.lt_length
    by_cases hdet : d.buffer.detached = true
    · simp only [hhead, Option.any_some, hdet, if_true]
      exact .refl h
    · rw [Bool.not_eq_true] at hdet
      have hpos : 0 < view.byteLength := by rw [hview]; exact Nat.sub_pos_of_lt hlt
      simp only [hp, List.head?_cons, Option.any_some, hdet, Bool.false_eq_true, if_false,
        Env.assert_of (c := decide (0 < view.byteLength)) (by simpa using hpos), Outcome.ok_bind,
        controllerRespond]
      have hanswer (hn : s.state = .closed ∧ n = 0 ∨
          s.state = .readable ∧ 0 < n ∧ d.bytesFilled + n ≤ d.byteLength) :=
        respondInternal_keeps debug alloc (E := E) h hp
          (b := ⟨s.nextBuffer, d.buffer.data, false, true⟩) ⟨rfl, rfl⟩ rfl hn
      have hkeep (hcalm : s.state = .readable → s.acceptsRespond n = true) {t : ByteStream}
          (ht : Answer.Post alloc s d ⟨s.nextBuffer, d.buffer.data, false, true⟩ t) :
          Keeps s (s.acceptsRespond n = true → alloc = true → s.stranded = false) True t :=
        ⟨ht.inv, fun h' hstall => by
          by_cases hs : s.state = .readable
          · exact ht.stall (h' (hcalm hs)) hstall
          · exact noStall_of_not_readable ht.inv fun htr => hs (ht.alive htr),
          fun _ => ht.flow rfl, ht.alive⟩
      rw [ArrayBuffer.transfer_of_live ⟨hdet, hd.detachable⟩]
      by_cases hs : s.state = .closed
      · rw [if_pos hs]
        split_ifs with hn
        · exact .refl h
        · have hkeep' {t : ByteStream} := hkeep (fun hst => by simp [hs] at hst) (t := t)
          exact (hanswer (.inl ⟨hs, by simpa using hn⟩)).mono (fun _ => hkeep') (fun _ => hkeep')
            fun _ => id
      · have hread : s.state = .readable := by
          cases hst : s.state with
          | readable => rfl
          | closed => exact absurd hst hs
          | errored => simp [h.phase.errored hst] at hp
        rw [if_neg hs, Env.assert_of (by simpa using hread), Outcome.ok_bind]
        split_ifs with hn hfits
        · exact .refl h
        · exact .refl h
        · have haccepts : s.acceptsRespond n = true := by
            simp [acceptsRespond, hv, hp, hdet, Nat.pos_of_ne_zero hn]
            omega
          have hkeep' {t : ByteStream} := hkeep (fun _ => haccepts) (t := t)
          exact (hanswer (.inr ⟨hread, by omega, by omega⟩)).mono (fun _ => hkeep')
            (fun _ => hkeep') fun _ => id

/-- A buffer with the bytes `data` holds what is already filled into the first descriptor. -/
def ByteStream.keepsFilled (s : ByteStream) (data : List UInt8) : Bool :=
  s.pendingPullIntos.head?.all fun d => (data.drop d.byteOffset).take d.bytesFilled = d.filled

/-- **`respondWithNewView` keeps the stream as it should be**, unless the descriptor is stranded;
bytes are kept if a buffer that it takes holds those filled before. -/
theorem jsRespondWithNewView_keeps (h : ByteInv s) (view : ArrayBufferView) :
    (s.jsRespondWithNewView (.quiet debug alloc) view).Sat
      (Keeps s (s.acceptsNewView view = true → alloc = true → s.stranded = false)
        (s.takesNewView view = true → s.keepsFilled view.buffer.data = true))
      (Keeps s (s.acceptsNewView view = true → alloc = true → s.stranded = false)
        (s.takesNewView view = true → s.keepsFilled view.buffer.data = true)) E := by
  unfold jsRespondWithNewView
  cases hv : s.byobRequest with
  | none => exact .refl h
  | some v =>
    obtain ⟨d, hhead, -⟩ := h.view.region v hv
    obtain ⟨ds, hp⟩ : ∃ ds, s.pendingPullIntos = d :: ds := List.head?_eq_some_iff.mp hhead
    have hok := h.pending
    rw [hp] at hok
    have hd := hok.of_cons.1
    by_cases hdet : view.buffer.detached = true
    · simp only [hdet, if_true]
      exact .refl h
    rw [Bool.not_eq_true] at hdet
    simp only [hdet, Bool.false_eq_true, if_false, controllerRespondWithNewView, hp]
    rw [Env.assert_of (by simp), Outcome.ok_bind]
    -- the checks of the view, before the answer `x`
    have hchecks {x : ByteOutcome ByteStream} {P : ByteStream → Prop} (hP : P s)
        (hx : d.byteOffset + d.bytesFilled = view.byteOffset →
          d.bufferByteLength = view.buffer.byteLength →
          d.bytesFilled + view.byteLength ≤ d.byteLength → x.Sat P P E) :
        (if d.byteOffset + d.bytesFilled ≠ view.byteOffset then
          .threw (.rangeError "the view's byte offset does not match the pending pull-into") s
        else if d.bufferByteLength ≠ view.buffer.byteLength then
          .threw (.rangeError
            "the view's buffer byte length does not match the pending pull-into") s
        else if d.byteLength < d.bytesFilled + view.byteLength then
          .threw (.rangeError "the view's byte length exceeds the pending pull-into") s
        else x : ByteOutcome ByteStream).Sat P P E := by
      split_ifs with h1 h2 h3
      · exact hP
      · exact hP
      · exact hP
      · exact hx (not_not.mp h1) (not_not.mp h2) (by omega)
    have hfinish (hn : s.state = .closed ∧ view.byteLength = 0 ∨
        s.state = .readable ∧ 0 < view.byteLength) {b : ArrayBuffer}
        (htr : view.buffer.transfer s.nextBuffer = some b)
        (h1 : d.byteOffset + d.bytesFilled = view.byteOffset)
        (h2 : d.bufferByteLength = view.buffer.byteLength)
        (h3 : d.bytesFilled + view.byteLength ≤ d.byteLength) :
        ((s.setHeadBuffer b).respondInternal (.quiet debug alloc) view.byteLength).Sat
          (Keeps s (s.acceptsNewView view = true → alloc = true → s.stranded = false)
            (s.takesNewView view = true → s.keepsFilled view.buffer.data = true))
          (Keeps s (s.acceptsNewView view = true → alloc = true → s.stranded = false)
            (s.takesNewView view = true → s.keepsFilled view.buffer.data = true)) E := by
      obtain ⟨⟨-, hable⟩, rfl⟩ := ArrayBuffer.transfer_eq_some htr
      have hlen : view.buffer.data.length = d.buffer.data.length := by
        rw [hd.buffer_length, h2]
        simp [ArrayBuffer.byteLength, hdet]
      have hkeep {t : ByteStream}
          (ht : Answer.Post alloc s d ⟨s.nextBuffer, view.buffer.data, false, true⟩ t) :
          Keeps s (s.acceptsNewView view = true → alloc = true → s.stranded = false)
            (s.takesNewView view = true → s.keepsFilled view.buffer.data = true) t := by
        have haccepts (hpos : 0 < view.byteLength) : s.acceptsNewView view = true := by
          simp [acceptsNewView, hv, hp, hable, hpos, h1, h2]
          omega
        -- a view of the right region is taken: the length fits the state
        have htakes : s.takesNewView view = true := by
          have hstate : (view.byteLength = 0) = (s.state = .closed) := by
            rcases hn with ⟨hs, hzero⟩ | ⟨hs, hpos⟩
            · simp [hs, hzero]
            · simp [hs, hpos.ne']
          simp [takesNewView, hv, hp, hable, hstate, h1, h2]
          omega
        refine ⟨ht.inv, fun h' hstall => ?_, fun hfair => ht.flow ?_, ht.alive⟩
        · rcases hn with ⟨hs, -⟩ | ⟨-, hpos⟩
          · refine noStall_of_not_readable ht.inv fun htr => ?_
            have := ht.alive htr
            simp [hs] at this
          · exact ht.stall (h' (haccepts hpos)) hstall
        · change (view.buffer.data.drop d.byteOffset).take d.bytesFilled = d.filled
          simpa [keepsFilled, hp] using hfair htakes
      have hlength := hn.imp_right fun hn => And.intro hn.1 (And.intro hn.2 h3)
      exact (respondInternal_keeps _ _ (E := E) h hp
        (b := ⟨s.nextBuffer, view.buffer.data, false, true⟩) ⟨rfl, rfl⟩ hlen hlength).mono
        (fun _ => hkeep) (fun _ => hkeep) fun _ => id
    -- a closed stream takes an empty view only, a readable one a view with bytes
    by_cases hs : s.state = .closed
    · rw [if_pos hs]
      by_cases hn : view.byteLength = 0
      · rw [if_neg (by simpa using hn)]
        refine hchecks (.refl h) fun h1 h2 h3 => ?_
        rcases htr : view.buffer.transfer s.nextBuffer with _ | b
        · exact .refl h
        · exact hfinish (.inl ⟨hs, hn⟩) htr h1 h2 h3
      · rw [if_pos hn]
        exact .refl h
    · have hread : s.state = .readable := by
        cases hst : s.state with
        | readable => rfl
        | closed => exact absurd hst hs
        | errored => simp [h.phase.errored hst] at hp
      rw [if_neg hs, Env.assert_of (by simpa using hread), Outcome.ok_bind]
      by_cases hn : view.byteLength = 0
      · rw [if_pos hn]
        exact .refl h
      · rw [if_neg hn]
        refine hchecks (.refl h) fun h1 h2 h3 => ?_
        rcases htr : view.buffer.transfer s.nextBuffer with _ | b
        · exact .refl h
        · exact hfinish (.inr ⟨hread, Nat.pos_of_ne_zero hn⟩) htr h1 h2 h3

end WebStreams
