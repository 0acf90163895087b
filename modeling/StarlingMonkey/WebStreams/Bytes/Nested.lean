import StarlingMonkey.WebStreams.Bytes.Reentry
import StarlingMonkey.WebStreams.Bytes.Machine

/-!
# The operations of a byte stream are legal

The remaining algorithms of the controller, one lemma for each, up to the operations of the
JavaScript interfaces. They use what `WebStreams.Bytes.Reentry` says of the requests and of
pulling, erroring and closing; here it is the queue and the descriptors that change hands.
-/

namespace WebStreams

open ByteStream Ledger

variable {env : Env} {s t u : ByteStream} {δ δ' : ℕ → ℤ} {Q : ByteStream → Prop}
  {E : ByteAbort → Prop}

/-! ### The queue -/

/-- Queueing bytes that lie inside their buffer. -/
theorem enqueueChunk_legal (h : Sound s) {b : ArrayBuffer} {off len : ℕ} (hpos : 0 < len)
    (hb : off + len ≤ b.data.length) (hlive : b.detached = false) :
    Legal 0 s (s.enqueueChunkToQueue b off len) := by
  refine h.store (fun e he => ?_) h.fits
  rcases List.mem_append.mp he with he | he
  · exact h.entries e he
  · obtain rfl := List.mem_singleton.mp he
    exact ⟨hpos, hb, hlive⟩

theorem enqueueClonedChunk_legal (henv : env.Within Obeys) (h : Sound s) {b : ArrayBuffer}
    {off len : ℕ} (hpos : 0 < len) (hb : off + len ≤ b.data.length) :
    (s.enqueueClonedChunkToQueue env b off len).Sat (Legal 0 s) (Legal 0 s) fun _ => True := by
  unfold enqueueClonedChunkToQueue
  split_ifs
  · have hbuf : Legal 0 s { s with nextBuffer := s.nextBuffer + 1 } := h.store h.entries h.fits
    have hlen : (b.slice off len).length = len := ArrayBuffer.length_slice hb
    refine hbuf.trans_eq (enqueueChunk_legal hbuf.sound hpos ?_ rfl) (add_zero 0)
    rw [Nat.zero_add]
    exact hlen.ge
  · exact (controllerError_legal henv h _).mayThrow.bind fun t ht => ht

theorem shiftPendingPullInto_legal (h : Sound s) :
    (s.shiftPendingPullInto env).Sat (fun p => Legal 0 s p.2) (fun _ => False) fun _ => True := by
  unfold shiftPendingPullInto
  refine assert_then ?_
  rcases hp : s.pendingPullIntos with _ | ⟨d, ds⟩
  · trivial
  · exact h.store h.entries fun e he => h.fits e (by simp [hp, show e ∈ ds from he])

theorem enqueueDetached_legal (henv : env.Within Obeys) (h : Sound s) :
    (s.enqueueDetachedPullIntoToQueue env).Sat (Legal 0 s) (Legal 0 s) fun _ => True := by
  unfold enqueueDetachedPullIntoToQueue
  rcases hp : s.pendingPullIntos with _ | ⟨d, ds⟩
  · trivial
  refine assert_then ?_
  have hd := h.fits d (by simp [hp])
  have hshift : ∀ t, Legal 0 s t → (t.shiftPendingPullInto env >>= fun p => pure p.2).Sat
      (Legal 0 s) (Legal 0 s) fun _ => True := fun t ht =>
    (shiftPendingPullInto_legal ht.sound).mayThrow.bind fun p hp => ht.trans_eq hp (add_zero 0)
  dsimp only
  split_ifs with hpos
  · refine (enqueueClonedChunk_legal henv h hpos ?_).bind hshift
    have := hd.filled
    have := hd.bound
    rw [hd.buffer]
    omega
  · exact hshift s (.refl h)

/-- **Serving a read from the queue** accounts for it. The entry is inside its buffer, so the view
can be made. -/
theorem fillReadRequestFromQueue_legal (henv : env.Within Obeys) (h : Sound s) (r : ℕ) :
    (s.fillReadRequestFromQueue env r).Sat (Legal (bill [r]) s) (fun _ => False)
      fun _ => True := by
  unfold fillReadRequestFromQueue
  refine assert_then ?_
  rcases hq : s.queue with _ | ⟨e, q⟩
  · trivial
  obtain ⟨v, hv, -⟩ := construct_entry (h.entries e (by simp [hq]))
  have htake : Legal 0 s { s with
      queue := q, queueTotalSize := s.queueTotalSize - e.byteLength } :=
    h.store (fun x hx => h.entries x (by simp [hq, hx])) h.fits
  refine (handleQueueDrain_legal henv htake.sound).bind fun t ht => ?_
  simp only [hv]
  exact (htake.trans_eq ht (add_zero 0)).then (settle_legal henv ht.sound r _) (zero_add _)

/-- **The fetched reader.** One with requests left has not been released. -/
theorem fetched_cons (h : Sound s) {k r : ℕ} {rs : List ℕ}
    (hf : s.fetchedReadRequests k = r :: rs) :
    s.released[k]? = none ∧ s.reader = some (.default (r :: rs)) := by
  unfold fetchedReadRequests at hf
  rcases hk : s.released[k]? with _ | rd
  · refine ⟨rfl, ?_⟩
    rcases hr : s.reader with _ | rs' | rs' <;> simp [hk, readRequests, hr] at hf
    rw [hf]
  · have hempty := h.released rd (List.mem_of_getElem? hk)
    rw [hk] at hf
    exact absurd (hempty.symm.trans hf) (List.cons_ne_nil r rs).symm

/-- **The loop over the waiting reads.** -/
theorem processReadRequests_legal (henv : env.Within Obeys) (k fuel : ℕ) (h : Sound s) :
    (processReadRequests env k fuel s).Sat (Legal 0 s) (fun _ => False) fun _ => True := by
  induction fuel generalizing s with
  | zero => trivial
  | succ fuel ih =>
    rw [processReadRequests]
    rcases hf : s.fetchedReadRequests k with _ | ⟨r, rs⟩
    · exact Legal.refl h
    obtain ⟨hk, hr⟩ := fetched_cons h hf
    simp only [setFetchedReadRequests, hk]
    split_ifs
    · exact .refl h
    · -- the read leaves the reader before it is served
      have htake := take_requests [r] (some (.default rs)) h
        (e := s.storedError) (by simp [waiting, hr, Reader.requests]) rfl
        (fun hs => absurd (idle_default h hs hr) (List.cons_ne_nil r rs)) h.pull
      refine (fillReadRequestFromQueue_legal henv htake.sound r).bind fun t ht => ?_
      exact (htake.trans_eq ht (by abel)).then (ih ht.sound) (add_zero 0)

theorem processReadRequestsUsingQueue_legal (henv : env.Within Obeys) (h : Sound s) :
    (s.processReadRequestsUsingQueue env).Sat (Legal 0 s) (fun _ => False) fun _ => True := by
  unfold processReadRequestsUsingQueue
  split_ifs
  · exact processReadRequests_legal henv _ _ h
  · trivial

/-! ### Filling descriptors -/

/-- Counting the bytes filled into a descriptor. -/
theorem fillHead_then {α : Type} {d : PullIntoDescriptor} {n : ℕ} {P : α → Prop}
    {f : PullIntoDescriptor → ByteOutcome α}
    (hf : (f { d with bytesFilled := d.bytesFilled + n }).Sat P Q fun _ => True) :
    (s.fillHeadPullIntoDescriptor env n d >>= f).Sat P Q fun _ => True := by
  unfold fillHeadPullIntoDescriptor
  simp [hf]

/-- Copying from the queue stays inside the descriptor. -/
theorem copyFromQueue_legal {q : List ByteQueueEntry} {d : PullIntoDescriptor} {n : ℕ}
    (h : Sound s) (hq : ∀ e ∈ q, e.Ok) (hd : d.Fits) (hn : d.bytesFilled + n ≤ d.byteLength) :
    (copyFromQueue env q s d n).Sat (fun p => p.1.Fits ∧ Legal 0 s p.2) (fun _ => False)
      fun _ => True := by
  induction q generalizing s d n with
  | nil =>
    cases n with
    | zero => exact ⟨hd, .refl h⟩
    | succ n => trivial
  | cons e q ih =>
    cases n with
    | zero => exact ⟨hd, .refl h⟩
    | succ n =>
      have he := hq e (by simp)
      have hq' : ∀ x ∈ q, x.Ok := fun x hx => hq x (by simp [hx])
      simp only [copyFromQueue]
      set k := min (n + 1) e.byteLength with hk
      have hkn : k ≤ n + 1 := min_le_left ..
      have hcopy : (copyDataBlockBytes d.buffer (d.byteOffset + d.bytesFilled) e.buffer
          e.byteOffset k).Sat (fun b => b.data.length = d.bufferByteLength) (fun _ => False)
          fun _ => True := by
        unfold copyDataBlockBytes
        split_ifs with h0 hin
        · exact hd.buffer
        · have hfit : d.byteOffset + d.bytesFilled + k ≤ d.buffer.data.length := by
            refine hin.1.trans ?_
            unfold ArrayBuffer.byteLength
            split <;> simp
          have hle : k ≤ e.byteLength := min_le_right ..
          have hsrc : (e.buffer.slice e.byteOffset k).length = k :=
            ArrayBuffer.length_slice (by have := he.bound; omega)
          refine (ArrayBuffer.length_write ?_).trans hd.buffer
          rw [hsrc]
          exact hfit
        · trivial
      refine hcopy.bind fun b hb => ?_
      have hfilled : PullIntoDescriptor.Fits
          { d with buffer := b, bytesFilled := d.bytesFilled + k } :=
        ⟨by change d.bytesFilled + k ≤ d.byteLength; omega, hd.bound, hb⟩
      split_ifs with hall
      · -- the entry is used up, and the loop goes on with the rest
        have hnext : Legal 0 s { s with
            queue := q, queueTotalSize := s.queueTotalSize - k } := h.store hq' h.fits
        refine fillHead_then ?_
        refine (ih hnext.sound hq' hfilled ?_).imp fun p hp =>
          ⟨hp.1, hnext.trans_eq hp.2 (add_zero 0)⟩
        change d.bytesFilled + k + (n + 1 - k) ≤ d.byteLength
        omega
      · refine fillHead_then (show _ ∧ _ from ⟨hfilled, h.store (fun x hx => ?_) h.fits⟩)
        rcases List.mem_cons.mp hx with rfl | hx
        · have := he.bound
          have hlt : k < e.byteLength := lt_of_le_of_ne (min_le_right ..) (Ne.symm hall)
          exact ⟨by change 0 < e.byteLength - k; omega,
            by change e.byteOffset + k + (e.byteLength - k) ≤ e.buffer.data.length; omega, he.live⟩
        · exact hq' x hx

theorem fillPullInto_legal {d : PullIntoDescriptor} (h : Sound s) (hd : d.Fits) :
    (s.fillPullIntoDescriptorFromQueue env d).Sat (fun p => p.2.1.Fits ∧ Legal 0 s p.2.2)
      (fun _ => False) fun _ => True := by
  have hfilled := hd.filled
  unfold fillPullIntoDescriptorFromQueue
  refine assert_then (assert_then ?_)
  refine (copyFromQueue_legal h h.entries hd ?_).bind fun p hp => ?_
  · split_ifs <;> omega
  · split_ifs
    · exact assert_then (assert_then (assert_then hp))
    · exact hp

/-- The loop over the pending descriptors. -/
theorem processPullIntos_legal {ds : List PullIntoDescriptor} (h : Sound s)
    (hd : ∀ d ∈ ds, d.Fits) :
    (processPullIntos env ds s).Sat (fun p => Legal 0 s p.2) (fun _ => False) fun _ => True := by
  induction ds generalizing s with
  | nil => exact Legal.refl h
  | cons d ds ih =>
    have hds : ∀ e ∈ ds, e.Fits := fun e he => hd e (by simp [he])
    simp only [processPullIntos]
    split_ifs
    · exact .refl h
    have htake : Legal 0 s { s with pendingPullIntos := ds } := h.store h.entries hds
    refine Outcome.Sat.bind (P := fun p => p.2.1.Fits ∧ Legal 0 s p.2.2)
      ((fillPullInto_legal htake.sound (hd d (by simp))).imp
        fun p hp => ⟨hp.1, htake.trans_eq hp.2 (add_zero 0)⟩) fun p hp => ?_
    obtain ⟨ready, d', t⟩ := p
    obtain ⟨hd', ht⟩ := hp
    change (if ready = true then _ else _ : ByteOutcome _).Sat _ _ _
    split_ifs
    · exact Outcome.Sat.bind (P := fun p => Legal 0 s p.2) ((ih ht.sound hds).imp
        fun p hp => ht.trans_eq hp (add_zero 0)) fun p hp => show Legal 0 s p.2 from hp
    · simp only [Outcome.sat_bind, Outcome.sat_guard, implies_true, and_true]
      refine fun _ => ht.trans_eq (ht.sound.store ht.sound.entries fun e he => ?_) (add_zero 0)
      rcases List.mem_cons.mp he with rfl | he
      · exact hd'
      · exact hds e he

theorem processPullIntosUsingQueue_legal (h : Sound s) :
    (s.processPullIntoDescriptorsUsingQueue env).Sat (fun p => Legal 0 s p.2) (fun _ => False)
      fun _ => True :=
  assert_then (processPullIntos_legal h h.fits)

/-! ### Committing descriptors -/

theorem convertPullInto_legal (h : Sound s) (d : PullIntoDescriptor) :
    (s.convertPullIntoDescriptor env d).Sat (fun p => Legal 0 s p.2) (Legal 0 s)
      fun _ => True := by
  unfold convertPullIntoDescriptor
  refine assert_then (assert_then ?_)
  have hbuf : Legal 0 s { s with nextBuffer := s.nextBuffer + 1 } := h.store h.entries h.fits
  rcases d.buffer.transfer s.nextBuffer with _ | b
  · exact .refl h
  · dsimp only
    rcases ArrayBufferView.construct d.viewKind b d.byteOffset (d.bytesFilled / d.elementSize)
      with _ | v
    · exact hbuf
    · exact hbuf

/-- Committing a descriptor moves a read from its reader to the settled ones. -/
theorem commitPullInto_legal (henv : env.Within Obeys) (h : Sound s) (d : PullIntoDescriptor) :
    (s.commitPullIntoDescriptor env d).Sat (Legal 0 s) (Legal 0 s) fun _ => True := by
  have hread (done : Bool) : (s.convertPullIntoDescriptor env d >>= fun p =>
      p.2.fulfillReadRequest env p.1 done).Sat (Legal 0 s) (Legal 0 s) fun _ => True :=
    (convertPullInto_legal h d).bind fun p hp =>
      (hp.then (fulfillReadRequest_legal henv hp.sound p.1 done) (add_zero 0)).mayThrow
  have hreadInto (done : Bool) : (s.convertPullIntoDescriptor env d >>= fun p =>
      env.assert (d.readerType = .byob) .commitPullIntoDescriptor >>= fun _ =>
        p.2.fulfillReadIntoRequest env p.1 done).Sat (Legal 0 s) (Legal 0 s) fun _ => True :=
    (convertPullInto_legal h d).bind fun p hp => assert_then
      (hp.then (fulfillReadIntoRequest_legal henv hp.sound p.1 done) (add_zero 0)).mayThrow
  unfold commitPullIntoDescriptor
  refine assert_then (assert_then ?_)
  dsimp only
  split_ifs
  · exact assert_then (hread _)
  · exact assert_then (hreadInto _)
  · exact hread _
  · exact hreadInto _

theorem commitAll_legal (henv : env.Within Obeys) (ds : List PullIntoDescriptor) (h : Sound s) :
    (commitAll env ds s).Sat (Legal 0 s) (Legal 0 s) fun _ => True := by
  induction ds generalizing s with
  | nil => exact .refl h
  | cons d ds ih =>
    exact (commitPullInto_legal henv h d).bind fun t ht => ht.thenThrow (ih ht.sound)

theorem commitPending_legal (henv : env.Within Obeys) (n : ℕ) (h : Sound s) :
    (commitPending env n s).Sat (Legal 0 s) (Legal 0 s) fun _ => True := by
  induction n generalizing s with
  | zero => exact .refl h
  | succ n ih =>
    refine (shiftPendingPullInto_legal h).mayThrow.bind fun p hp => ?_
    refine Outcome.Sat.bind (hp.thenThrow (commitPullInto_legal henv hp.sound p.1)) fun t ht => ?_
    exact ht.thenThrow (ih ht.sound)

/-! ### The operations of the underlying source -/

theorem enqueueRefreshHead_legal (henv : env.Within Obeys) (h : Sound s) :
    (s.enqueueRefreshHead env).Sat (Legal 0 s) (Legal 0 s) fun _ => True := by
  unfold enqueueRefreshHead
  rcases hp : s.pendingPullIntos with _ | ⟨d, ds⟩
  · exact .refl h
  have hinv : Legal 0 s s.invalidateByobRequest := h.store h.entries h.fits
  have hds : ∀ b, d.buffer.transfer s.nextBuffer = some b → ∀ e ∈ { d with buffer := b } :: ds,
      e.Fits := fun b hb e he => by
    rcases List.mem_cons.mp he with rfl | he
    · have hd := h.fits d (by simp [hp])
      obtain ⟨-, rfl⟩ := ArrayBuffer.transfer_eq_some hb
      exact ⟨hd.filled, hd.bound, hd.buffer⟩
    · exact h.fits e (by simp [hp, he])
  dsimp only
  split_ifs with hdet hty
  · exact .refl h
  all_goals
    rcases hb : d.buffer.transfer s.invalidateByobRequest.nextBuffer with _ | b
    · exact hinv
  · have hnew : Legal 0 s { s.invalidateByobRequest with
        nextBuffer := s.nextBuffer + 1, pendingPullIntos := { d with buffer := b } :: ds } :=
      h.store h.entries (hds b hb)
    exact hnew.thenThrow (enqueueDetached_legal henv hnew.sound)
  · exact h.store h.entries (hds b hb)

/-- **Delivering a chunk**: to a waiting read, to the pending descriptors, or to the queue. -/
theorem enqueueDeliver_legal (henv : env.Within Obeys) (h : Sound s) {b : ArrayBuffer}
    {off len : ℕ} (hpos : 0 < len) (hb : off + len ≤ b.data.length) (hlive : b.detached = false) :
    (s.enqueueDeliver env b off len).Sat (Legal 0 s) (Legal 0 s) fun _ => True := by
  have hsupply {t : ByteStream} (ht : Sound t) : Legal 0 t (t.supply (b.slice off len)) :=
    ht.store ht.entries ht.fits
  have hqueue {t : ByteStream} (ht : Sound t) :
      Legal 0 t ((t.supply (b.slice off len)).enqueueChunkToQueue b off len) :=
    (hsupply ht).trans_eq (enqueueChunk_legal (hsupply ht).sound hpos hb hlive) (add_zero 0)
  -- a read takes the chunk at once
  have hserve {t : ByteStream} (ht : Legal 0 s t) (v : ArrayBufferView) :
      (t.fulfillReadRequest env v false).Sat (Legal 0 s) (Legal 0 s) fun _ => True :=
    (ht.then (fulfillReadRequest_legal henv ht.sound v false) (add_zero 0)).mayThrow
  unfold enqueueDeliver
  split_ifs
  · refine (processReadRequestsUsingQueue_legal henv h).mayThrow.bind fun t ht => ?_
    simp only [getNumReadRequests, Outcome.sat_bind, Outcome.sat_expect, implies_true, and_true]
    intro n _
    split_ifs
    · exact assert_then (ht.trans_eq (hqueue ht.sound) (add_zero 0))
    · have hsup := ht.trans_eq (hsupply ht.sound) (add_zero 0)
      refine assert_then ?_
      rcases ArrayBufferView.construct .uint8 b off len with _ | v
      · rcases (t.supply (b.slice off len)).pendingPullIntos with _ | ⟨d, ds⟩
        · exact hsup
        · refine assert_then ((shiftPendingPullInto_legal hsup.sound).mayThrow.bind fun p hp => ?_)
          exact hsup.trans_eq hp (add_zero 0)
      · rcases (t.supply (b.slice off len)).pendingPullIntos with _ | ⟨d, ds⟩
        · exact hserve hsup v
        · refine assert_then ((shiftPendingPullInto_legal hsup.sound).mayThrow.bind fun p hp => ?_)
          exact hserve (hsup.trans_eq hp (add_zero 0)) v
  · have hin := hqueue h
    refine Outcome.Sat.bind (P := fun p => Legal 0 s p.2)
      ((processPullIntosUsingQueue_legal hin.sound).imp
        fun _ hp => hin.trans_eq hp (add_zero 0)).mayThrow fun p hp => ?_
    exact hp.thenThrow (commitAll_legal henv p.1 hp.sound)
  · exact assert_then (hqueue h)

/-- **Enqueueing a chunk.** -/
theorem controllerEnqueue_legal (henv : env.Within Obeys) (h : Sound s) {v : ArrayBufferView}
    (hpos : 0 < v.byteLength) :
    (s.controllerEnqueue env v).Sat (Legal 0 s) (Legal 0 s) fun _ => True := by
  unfold controllerEnqueue
  split_ifs
  · exact .refl h
  · exact .refl h
  · rcases hb : v.buffer.transfer s.nextBuffer with _ | b
    · exact .refl h
    obtain ⟨-, rfl⟩ := ArrayBuffer.transfer_eq_some hb
    have hbuf : Legal 0 s { s with nextBuffer := s.nextBuffer + 1 } := h.store h.entries h.fits
    refine Outcome.Sat.bind (hbuf.thenThrow (enqueueRefreshHead_legal henv hbuf.sound))
      fun t ht => ?_
    refine Outcome.Sat.bind (ht.thenThrow
      (enqueueDeliver_legal henv ht.sound hpos (v.bound_data hpos) rfl)) fun u hu => ?_
    exact (hu.then (callPull_legal henv hu.sound) (add_zero 0)).mayThrow

theorem getByobRequest_legal (h : Sound s) :
    s.getByobRequest.Sat (Legal 0 s) (Legal 0 s) fun _ => True := by
  unfold getByobRequest
  split
  · split
    · trivial
    · exact h.store h.entries h.fits
  · exact .refl h

theorem respondInClosedState_legal (henv : env.Within Obeys) (h : Sound s) :
    (s.respondInClosedState env).Sat (Legal 0 s) (Legal 0 s) fun _ => True := by
  have hcommit {t : ByteStream} (ht : Legal 0 s t) :
      (if t.hasByobReader then t.getNumReadIntoRequests >>= fun n => commitPending env n t
        else pure t).Sat (Legal 0 s) (Legal 0 s) fun _ => True := by
    split_ifs
    · simp only [getNumReadIntoRequests, Outcome.sat_bind, Outcome.sat_expect, implies_true,
        and_true]
      exact fun n _ => ht.thenThrow (commitPending_legal henv n ht.sound)
    · exact ht
  unfold respondInClosedState
  rcases hp : s.pendingPullIntos with _ | ⟨d, ds⟩
  · trivial
  · refine assert_then ?_
    dsimp only
    by_cases hty : d.readerType = .none
    · rw [if_pos hty]
      exact (shiftPendingPullInto_legal h).mayThrow.bind fun p hp => hcommit hp
    · rw [if_neg hty]
      exact hcommit (.refl h)

/-- **Answering a `byobRequest` of a readable stream** with bytes that fit the descriptor. -/
theorem respondInReadableState_legal (henv : env.Within Obeys) (h : Sound s) {n : ℕ}
    (hn : ∀ d, s.pendingPullIntos.head? = some d → d.bytesFilled + n ≤ d.byteLength) :
    (s.respondInReadableState env n).Sat (Legal 0 s) (Legal 0 s) fun _ => True := by
  unfold respondInReadableState
  rcases hp : s.pendingPullIntos with _ | ⟨d, ds⟩
  · trivial
  have hd := h.fits d (by simp [hp])
  have hds : ∀ e ∈ ds, e.Fits := fun e he => h.fits e (by simp [hp, he])
  have hfit := hn d (by simp [hp])
  have hfilled : PullIntoDescriptor.Fits { d with bytesFilled := d.bytesFilled + n } :=
    ⟨hfit, hd.bound, hd.buffer⟩
  have hcons : ∀ e ∈ { d with bytesFilled := d.bytesFilled + n } :: ds, e.Fits := fun e he => by
    rcases List.mem_cons.mp he with rfl | he
    · exact hfilled
    · exact hds e he
  -- what is left is to serve the other descriptors from the queue
  have hserve {t : ByteStream} (ht : Legal 0 s t) (k : ByteStream → ByteOutcome ByteStream)
      (hk : ∀ u, Sound u → (k u).Sat (Legal 0 u) (Legal 0 u) fun _ => True) :
      (t.processPullIntoDescriptorsUsingQueue env >>= fun p => k p.2 >>= fun u =>
        commitAll env p.1 u).Sat (Legal 0 s) (Legal 0 s) fun _ => True := by
    refine Outcome.Sat.bind (P := fun p => Legal 0 s p.2)
      ((processPullIntosUsingQueue_legal ht.sound).imp
        fun _ hp => ht.trans_eq hp (add_zero 0)).mayThrow fun p hp => ?_
    refine Outcome.Sat.bind (hp.thenThrow (hk p.2 hp.sound)) fun u hu => ?_
    exact hu.thenThrow (commitAll_legal henv p.1 hu.sound)
  have hcommit (e : PullIntoDescriptor) {t : ByteStream} (ht : Legal 0 s t) :=
    hserve ht (fun u => u.commitPullIntoDescriptor env e) fun u hu => commitPullInto_legal henv hu e
  have htake : Legal 0 s (supply { s with pendingPullIntos := ds }
      (d.buffer.slice (d.byteOffset + d.bytesFilled) n)) := h.store h.entries hds
  refine assert_then (fillHead_then ?_)
  dsimp only
  split_ifs with hty hshort hrem
  · have hput : Legal 0 s { supply { s with pendingPullIntos := ds }
        (d.buffer.slice (d.byteOffset + d.bytesFilled) n) with
        pendingPullIntos := { d with bytesFilled := d.bytesFilled + n } :: ds } :=
      h.store h.entries hcons
    refine Outcome.Sat.bind (hput.thenThrow (enqueueDetached_legal henv hput.sound)) fun t ht => ?_
    exact hserve ht pure fun u hu => Legal.refl hu
  · exact h.store h.entries hcons
  · refine Outcome.Sat.bind (htake.thenThrow (enqueueClonedChunk_legal henv htake.sound hrem ?_))
      fun t ht => hcommit _ ht
    have hmod := Nat.mod_le (d.bytesFilled + n) d.elementSize
    have := hd.bound
    rw [hd.buffer]
    omega
  · exact hcommit _ htake

theorem respondInternal_legal (henv : env.Within Obeys) (h : Sound s) {n : ℕ}
    (hn : ∀ d, s.pendingPullIntos.head? = some d → s.state ≠ .closed →
      d.bytesFilled + n ≤ d.byteLength) :
    (s.respondInternal env n).Sat (Legal 0 s) (Legal 0 s) fun _ => True := by
  have hinv : Legal 0 s s.invalidateByobRequest := h.store h.entries h.fits
  have hpull {t : ByteStream} (ht : Legal 0 s t) :
      (t.callPullIfNeeded env).Sat (Legal 0 s) (Legal 0 s) fun _ => True :=
    (ht.then (callPull_legal henv ht.sound) (add_zero 0)).mayThrow
  unfold respondInternal
  dsimp only
  split_ifs with hs
  · refine assert_then ?_
    refine Outcome.Sat.bind (hinv.thenThrow (respondInClosedState_legal henv hinv.sound))
      fun t ht => hpull ht
  · refine assert_then (assert_then ?_)
    refine Outcome.Sat.bind (hinv.thenThrow (respondInReadableState_legal henv hinv.sound
      fun d hd => hn d hd hs)) fun t ht => hpull ht

/-- The answered descriptor gets the buffer that was handed back. -/
theorem setHeadBuffer_legal (h : Sound s) {b : ArrayBuffer}
    (hb : ∀ d, s.pendingPullIntos.head? = some d → b.data.length = d.bufferByteLength) :
    Legal 0 s (s.setHeadBuffer b) := by
  unfold setHeadBuffer
  rcases hp : s.pendingPullIntos with _ | ⟨d, ds⟩
  · exact .refl h
  · refine h.store h.entries fun e he => ?_
    rcases List.mem_cons.mp he with rfl | he
    · have hd := h.fits d (by simp [hp])
      exact ⟨hd.filled, hd.bound, hb d (by simp [hp])⟩
    · exact h.fits e (by simp [hp, he])

/-- Handing the transferred buffer `b` back with `n` bytes written. -/
private theorem answer_legal (henv : env.Within Obeys) (h : Sound s) {d : PullIntoDescriptor}
    {ds : List PullIntoDescriptor} (hp : s.pendingPullIntos = d :: ds) {b : ArrayBuffer} {n : ℕ}
    (hb : b.data.length = d.bufferByteLength)
    (hn : s.state ≠ .closed → d.bytesFilled + n ≤ d.byteLength) :
    ((s.setHeadBuffer b).respondInternal env n).Sat (Legal 0 s) (Legal 0 s) fun _ => True := by
  have hset : Legal 0 s (s.setHeadBuffer b) := setHeadBuffer_legal h fun e he => by
    obtain rfl : d = e := by simpa [hp] using he
    exact hb
  refine hset.thenThrow (respondInternal_legal henv hset.sound fun e he hs => ?_)
  simp only [setHeadBuffer, hp] at he hs
  obtain rfl := Option.some.inj he
  exact hn hs

theorem controllerRespond_legal (henv : env.Within Obeys) (h : Sound s) (n : ℕ) :
    (s.controllerRespond env n).Sat (Legal 0 s) (Legal 0 s) fun _ => True := by
  unfold controllerRespond
  rcases hp : s.pendingPullIntos with _ | ⟨d, ds⟩
  · exact assert_then trivial
  have hd := h.fits d (by simp [hp])
  have hfilled := hd.filled
  have hanswer {b : ArrayBuffer} (hb : d.buffer.transfer s.nextBuffer = some b)
      (hn : s.state ≠ .closed → d.bytesFilled + n ≤ d.byteLength) :
      ((s.setHeadBuffer b).respondInternal env n).Sat (Legal 0 s) (Legal 0 s) fun _ => True := by
    obtain ⟨-, rfl⟩ := ArrayBuffer.transfer_eq_some hb
    exact answer_legal henv h hp hd.buffer hn
  dsimp only
  split_ifs with hs h0 h1 h2
  · exact .refl h
  · rcases hb : d.buffer.transfer s.nextBuffer with _ | b
    · exact .refl h
    · exact hanswer hb fun hne => absurd hs hne
  · exact assert_then (Legal.refl h)
  · exact assert_then (Legal.refl h)
  · refine assert_then ?_
    rcases hb : d.buffer.transfer s.nextBuffer with _ | b
    · exact .refl h
    · exact hanswer hb fun _ => by omega

theorem controllerRespondWithNewView_legal (henv : env.Within Obeys) (h : Sound s)
    (v : ArrayBufferView) :
    (s.controllerRespondWithNewView env v).Sat (Legal 0 s) (Legal 0 s) fun _ => True := by
  unfold controllerRespondWithNewView
  rcases hp : s.pendingPullIntos with _ | ⟨d, ds⟩
  · exact assert_then trivial
  -- the checks of the new view, before the answer `x`
  have hchecks {x : ByteOutcome ByteStream} (hx : d.bufferByteLength = v.buffer.byteLength →
      d.bytesFilled + v.byteLength ≤ d.byteLength → x.Sat (Legal 0 s) (Legal 0 s) fun _ => True) :
      (if d.byteOffset + d.bytesFilled ≠ v.byteOffset then
        (.threw (.rangeError "the view's byte offset does not match the pending pull-into") s :
          ByteOutcome ByteStream)
      else if d.bufferByteLength ≠ v.buffer.byteLength then
        .threw (.rangeError
          "the view's buffer byte length does not match the pending pull-into") s
      else if d.byteLength < d.bytesFilled + v.byteLength then
        .threw (.rangeError "the view's byte length exceeds the pending pull-into") s
      else x).Sat (Legal 0 s) (Legal 0 s) fun _ => True := by
    split_ifs with hoff hlen hfit
    · exact .refl h
    · exact .refl h
    · exact .refl h
    · exact hx (not_not.mp hlen) (by omega)
  have hanswer {b : ArrayBuffer} (hb : v.buffer.transfer s.nextBuffer = some b)
      (hlen : d.bufferByteLength = v.buffer.byteLength)
      (hfit : d.bytesFilled + v.byteLength ≤ d.byteLength) :
      ((s.setHeadBuffer b).respondInternal env v.byteLength).Sat (Legal 0 s) (Legal 0 s)
        fun _ => True := by
    obtain ⟨hlive, rfl⟩ := ArrayBuffer.transfer_eq_some hb
    refine answer_legal henv h hp ?_ fun _ => hfit
    rw [← ArrayBuffer.byteLength_of_live hlive]
    exact hlen.symm
  refine assert_then ?_
  dsimp only
  by_cases hs : s.state = .closed
  · rw [if_pos hs]
    by_cases h0 : v.byteLength = 0
    · rw [if_neg (not_not.mpr h0)]
      refine hchecks fun hlen hfit => ?_
      rcases hb : v.buffer.transfer s.nextBuffer with _ | b
      · exact .refl h
      · exact hanswer hb hlen hfit
    · rw [if_pos h0]
      exact .refl h
  · rw [if_neg hs]
    refine assert_then ?_
    by_cases h0 : v.byteLength = 0
    · rw [if_pos h0]
      exact .refl h
    · rw [if_neg h0]
      refine hchecks fun hlen hfit => ?_
      rcases hb : v.buffer.transfer s.nextBuffer with _ | b
      · exact .refl h
      · exact hanswer hb hlen hfit

/-! ### The operations of the consumer -/

/-- **A default read of a readable stream** is served from the queue or waits. -/
theorem bytePullSteps_legal (henv : env.Within Obeys) (h : Sound s) (hs : s.state = .readable)
    (r : ℕ) :
    (s.bytePullSteps env r).Sat (Legal (bill [r]) s) (fun _ => False) fun _ => True := by
  have hwait {t : ByteStream} (ht : Legal 0 s t) (hst : t.state = .readable) :
      (t.addReadRequest r >>= fun u => u.callPullIfNeeded env).Sat (Legal (bill [r]) s)
        (fun _ => False) fun _ => True :=
    Outcome.Sat.bind (ht.then (addReadRequest_legal ht.sound hst r) (zero_add _)) fun u hu =>
      hu.then (callPull_legal henv hu.sound) (add_zero _)
  have hserve := (fillReadRequestFromQueue_legal henv h r).infallible (p :=
    .expectation .bytePullSteps) trivial
  unfold bytePullSteps
  refine assert_then ?_
  dsimp only
  by_cases htotal : 0 < s.queueTotalSize
  · rw [if_pos htotal]
    split_ifs
    · simp only [getNumReadRequests, Outcome.sat_bind, Outcome.sat_expect, implies_true, and_true]
      exact fun n _ => by simpa using ⟨fun _ _ => hserve, fun _ => hserve⟩
    · exact hserve
  · rw [if_neg htotal]
    split
    · split_ifs
      · refine hwait (h.store h.entries fun e he => ?_) hs
        rcases List.mem_append.mp he with he | he
        · exact h.fits e he
        · obtain rfl := List.mem_singleton.mp he
          exact ⟨Nat.zero_le _, (Nat.zero_add _).le, List.length_replicate ..⟩
      · exact settle_legal henv h r _
    · exact hwait (.refl h) hs

theorem byteReleaseSteps_legal (h : Sound s) : Legal 0 s s.byteReleaseSteps := by
  unfold byteReleaseSteps
  rcases hp : s.pendingPullIntos with _ | ⟨d, ds⟩
  · exact .refl h
  · have hd := h.fits d (by simp [hp])
    refine h.store h.entries fun e he => ?_
    obtain rfl := List.mem_singleton.mp he
    exact ⟨hd.filled, hd.bound, hd.buffer⟩

theorem byteCancelSteps_legal (henv : env.Within Obeys) (h : Sound s) :
    (s.byteCancelSteps env).Sat (Legal 0 s) (fun _ => False) fun _ => True := by
  have hclear : Legal 0 s s.clearPendingPullIntos.resetByteQueue :=
    h.store (fun _ he => absurd he List.not_mem_nil) fun _ hd => absurd hd List.not_mem_nil
  have hfinish {t : ByteStream} (ht : Legal 0 s t) : Legal 0 s t.clearAlgorithms :=
    ht.trans_eq (ht.sound.store ht.sound.entries ht.sound.fits) (add_zero 0)
  unfold byteCancelSteps
  dsimp only
  split_ifs
  · exact (callOut_legal hclear fun u hu => henv.2.1 _ u hu).bind fun t ht => hfinish ht
  · exact hfinish hclear

/-- **Cancelling** settles the reads of either reader. -/
theorem streamCancel_legal (henv : env.Within Obeys) (h : Sound s) :
    (s.streamCancel env).Sat (Legal 0 s) (Legal 0 s) fun _ => True := by
  have hdist : Legal 0 s { s with disturbed := true } := h.store h.entries h.fits
  have hsteps {t : ByteStream} (ht : Legal 0 s t) :
      (t.byteCancelSteps env).Sat (Legal 0 s) (fun _ => False) fun _ => True :=
    ht.then (byteCancelSteps_legal henv ht.sound) (add_zero 0)
  unfold streamCancel
  dsimp only
  split_ifs
  · exact hdist
  · refine Outcome.Sat.mayThrow (Outcome.Sat.bind (hdist.then
      (streamClose_legal henv hdist.sound) (add_zero 0)) fun t ht => ?_)
    rcases hr : t.reader with _ | rs | rs
    · exact hsteps ht
    · exact hsteps ht
    · have hdrain := drain_requests henv ht.sound (.close none) rs
        (some (.byob [])) (e := t.storedError) (by simp [waiting, hr, Reader.requests]) rfl
        ht.sound.pull
      exact (ht.then hdrain (add_zero 0)).bind fun u hu => hsteps hu

/-- **A default read** is settled or waits. -/
theorem defaultReaderRead_legal (henv : env.Within Obeys) (h : Sound s) (r : ℕ) :
    (s.defaultReaderRead env r).Sat (Legal (bill [r]) s) (fun _ => False) fun _ => True := by
  have hdist : Legal 0 s { s with disturbed := true } := h.store h.entries h.fits
  unfold defaultReaderRead
  dsimp only
  split
  · exact hdist.then (settle_legal henv hdist.sound r _) (zero_add _)
  · exact hdist.then (settle_legal henv hdist.sound r _) (zero_add _)
  · next hs => exact hdist.then (bytePullSteps_legal henv hdist.sound hs r) (zero_add _)

theorem appendPullInto_legal (h : Sound s) {d : PullIntoDescriptor} (hd : d.Fits) (r : ℕ) :
    (s.appendPullInto env d r).Sat (Legal (bill [r]) s) (fun _ => False) fun _ => True := by
  have happend : Legal 0 s { s with pendingPullIntos := s.pendingPullIntos ++ [d] } := by
    refine h.store h.entries fun e he => ?_
    rcases List.mem_append.mp he with he | he
    · exact h.fits e he
    · obtain rfl := List.mem_singleton.mp he
      exact hd
  exact happend.then (addReadIntoRequest_legal happend.sound r) (zero_add _)

/-- **Serving a BYOB read**: at once, or behind the pending descriptors. -/
theorem servePullInto_legal (henv : env.Within Obeys) (h : Sound s) {d : PullIntoDescriptor}
    (hd : d.Fits) (r : ℕ) :
    (s.servePullInto env d r).Sat (Legal (bill [r]) s) (fun _ => False) fun _ => True := by
  have hwait {t : ByteStream} (ht : Legal 0 s t) {d : PullIntoDescriptor} (hd : d.Fits) :
      (t.appendPullInto env d r >>= fun u => u.callPullIfNeeded env).Sat (Legal (bill [r]) s)
        (fun _ => False) fun _ => True :=
    Outcome.Sat.bind (ht.then (appendPullInto_legal ht.sound hd r) (zero_add _)) fun u hu =>
      hu.then (callPull_legal henv hu.sound) (add_zero _)
  have hsettle {t : ByteStream} (ht : Legal 0 s t) (o : Settlement) :
      (t.settle env r o).Sat (Legal (bill [r]) s) (fun _ => False) fun _ => True :=
    ht.then (settle_legal henv ht.sound r o) (zero_add _)
  unfold servePullInto
  split_ifs with hpend hs htotal
  · exact appendPullInto_legal h hd r
  · split
    · trivial
    · exact hsettle (.refl h) _
  · refine (fillPullInto_legal h hd).bind fun p hp => ?_
    obtain ⟨ready, d', t⟩ := p
    obtain ⟨hd', ht⟩ := hp
    change (if ready = true then _ else _ : ByteOutcome _).Sat _ _ _
    split_ifs
    · refine ((convertPullInto_legal ht.sound d').infallible trivial).bind fun p hp => ?_
      have hconv := ht.trans_eq hp (add_zero 0)
      exact (hconv.then (handleQueueDrain_legal henv hp.sound) (add_zero 0)).bind
        fun u hu => hsettle hu _
    · exact (ht.then (controllerError_legal henv ht.sound _) (add_zero 0)).bind
        fun u hu => hsettle hu _
    · exact hwait ht hd'
  · exact hwait (.refl h) hd

/-- The descriptor of a BYOB read lies inside the transferred buffer. -/
theorem viewDescriptor_fits {v : ArrayBufferView} {b : ArrayBuffer} {min : ℕ} {id : ℕ}
    (hb : v.buffer.transfer id = some b) : (viewDescriptor v b min).Fits := by
  obtain ⟨hlive, rfl⟩ := ArrayBuffer.transfer_eq_some hb
  refine ⟨Nat.zero_le _, ?_, rfl⟩
  have := v.bound
  rwa [ArrayBuffer.byteLength_of_live hlive] at this

/-- **A BYOB read** is settled or waits. -/
theorem byobReaderRead_legal (henv : env.Within Obeys) (h : Sound s) (v : ArrayBufferView)
    (min r : ℕ) :
    (s.byobReaderRead env v min r).Sat (Legal (bill [r]) s) (fun _ => False) fun _ => True := by
  have hdist : Legal 0 s { s with disturbed := true } := h.store h.entries h.fits
  unfold byobReaderRead controllerPullInto
  dsimp only
  split_ifs
  · exact hdist.then (settle_legal henv hdist.sound r _) (zero_add _)
  · refine assert_then (assert_then ?_)
    rcases hb : v.buffer.transfer s.nextBuffer with _ | b
    · exact hdist.then (settle_legal henv hdist.sound r _) (zero_add _)
    · have hbuf : Legal 0 s { s with disturbed := true, nextBuffer := s.nextBuffer + 1 } :=
        h.store h.entries h.fits
      exact hbuf.then (servePullInto_legal henv hbuf.sound (viewDescriptor_fits hb) r) (zero_add _)

/-- **Releasing a reader** errors the reads that wait with it. -/
theorem readerRelease_legal (henv : env.Within Obeys) (h : Sound s) :
    (s.readerRelease env).Sat (Legal 0 s) (fun _ => False) fun _ => True := by
  have hsteps := byteReleaseSteps_legal h
  have hreader : s.byteReleaseSteps.reader = s.reader := by
    unfold byteReleaseSteps
    split <;> rfl
  have hrelease (rd : Reader) (hrd : rd.requests = []) : Legal 0 s
      { s.byteReleaseSteps with released := s.released ++ [rd] } := by
    refine hsteps.trans_eq (Sound.legal ⟨hsteps.sound.entries, hsteps.sound.fits,
      hsteps.sound.idle, fun e he => ?_, hsteps.sound.pull⟩ rfl rfl) (add_zero 0)
    rcases List.mem_append.mp he with he | he
    · exact h.released e he
    · rw [List.mem_singleton.mp he, hrd]
  unfold readerRelease
  rcases hr : s.reader with _ | rs | rs
  · exact .refl h
  · have hlet := hrelease (.default []) rfl
    exact hlet.then (drain_requests henv hlet.sound _ _ none
      (by simp [waiting, hreader, hr, Reader.requests]) rfl hlet.sound.pull) (add_zero 0)
  · have hlet := hrelease (.byob []) rfl
    exact hlet.then (drain_requests henv hlet.sound _ _ none
      (by simp [waiting, hreader, hr, Reader.requests]) rfl hlet.sound.pull) (add_zero 0)

/-! ### The operations of the interfaces -/

/-- A new read takes the next number, and is not accounted for yet. -/
theorem issue_legal (h : Sound s) : Legal (-bill [s.nextRequest]) s s.issue := by
  refine ⟨?_, ⟨h.entries, h.fits, h.idle, h.released, h.pull⟩, .refl _⟩
  simp only [ledger, waiting, issue, balance_succ]
  abel

/-- Author code changes the shared buffer, but not its length. -/
theorem updateHead_legal (h : Sound s) {f : ArrayBuffer → ArrayBuffer}
    (hf : ∀ d, s.pendingPullIntos.head? = some d → (f d.buffer).data.length = d.bufferByteLength) :
    Legal 0 s (s.updateHead f) := by
  unfold updateHead
  rcases hp : s.pendingPullIntos with _ | ⟨d, ds⟩
  · exact .refl h
  · refine h.store h.entries fun e he => ?_
    rcases List.mem_cons.mp he with rfl | he
    · have hd := h.fits d (by simp [hp])
      exact ⟨hd.filled, hd.bound, hf d (by simp [hp])⟩
    · exact h.fits e (by simp [hp, he])

theorem acquire_legal (h : Sound s) {rd : Reader} (hrd : rd.requests = []) :
    (s.acquire rd).Sat (Legal 0 s) (Legal 0 s) fun _ => True := by
  unfold acquire
  split_ifs with hr
  · exact .refl h
  · obtain hr : s.reader = none := by simpa using hr
    refine Sound.legal ⟨h.entries, h.fits, fun _ => ?_, h.released, h.pull⟩ ?_ rfl
    · cases rd with
      | default rs => exact hrd
      | byob rs => rfl
    · simp [ledger, waiting, hr, hrd]

/-- **The operations are legal** as soon as the code they call out to is. -/
theorem perform_legal (henv : env.Within Obeys) (h : Sound s) (op : ByteOp) :
    (s.perform env op).Sat (Legal 0 s) (Legal 0 s) fun _ => True := by
  have hissue := issue_legal h
  cases op with
  -- a call that is refused leaves the stream as it was
  | enqueue view =>
    simp only [perform, jsEnqueue]
    split_ifs with hlen
    · exact .refl h
    · exact .refl h
    · exact .refl h
    · exact .refl h
    · exact controllerEnqueue_legal henv h (Nat.pos_of_ne_zero hlen)
  | close =>
    simp only [perform, jsClose]
    split_ifs
    · exact .refl h
    · exact .refl h
    · exact controllerClose_legal henv h
  | error e => exact (controllerError_legal henv h _).mayThrow
  | byobRequest => exact getByobRequest_legal h
  -- author code writes to the buffer of the view, which keeps its length
  | writeView data =>
    simp only [perform, Outcome.pure_eq_ok, Outcome.sat_ok]
    split_ifs with hshared
    · refine updateHead_legal h fun d hd => ?_
      have hlen : data.length = d.buffer.data.length := by
        unfold sharedHead at hshared
        split_ifs at hshared
        · simp only [hd, Option.any_some, Bool.and_eq_true, beq_iff_eq] at hshared
          exact hshared.2
        · simp at hshared
      exact hlen.trans (h.fits d (List.mem_of_mem_head? hd)).buffer
    · exact .refl h
  | detachView =>
    simp only [perform, Outcome.pure_eq_ok, Outcome.sat_ok]
    split_ifs
    · exact updateHead_legal h fun d hd => (h.fits d (List.mem_of_mem_head? hd)).buffer
    · exact .refl h
  | respond n =>
    simp only [perform, jsRespond]
    split
    · exact .refl h
    · split_ifs
      · exact .refl h
      · exact assert_then (controllerRespond_legal henv h n)
  | respondWithNewView view =>
    simp only [perform, jsRespondWithNewView]
    split
    · exact .refl h
    · split_ifs
      · exact .refl h
      · exact controllerRespondWithNewView_legal henv h view
  -- a read is given its number first
  | read =>
    simp only [perform, jsRead]
    split_ifs
    · exact (hissue.then (defaultReaderRead_legal henv hissue.sound _) (by abel)).mayThrow
    · exact .refl h
  | readInto view min =>
    simp only [perform, jsReadInto]
    split_ifs
    on_goal 7 => exact (hissue.then (byobReaderRead_legal henv hissue.sound view min _)
      (by abel)).mayThrow
    all_goals exact .refl h
  | releaseLock => exact (readerRelease_legal henv h).mayThrow
  | getReader => exact acquire_legal h rfl
  | getByobReader => exact acquire_legal h rfl
  | cancel => exact streamCancel_legal henv h

/-! ### Promise reactions -/

/-- The event fulfils a pull while another one is deferred. -/
def ByteStream.resuming (s : ByteStream) (e : ByteEvent) : Prop :=
  e = .pullFulfilled ∧ s.pullPending = true ∧ s.pullAgain = true

/-- What one event does: reads stay accounted for, and the pull protocol goes on. -/
structure StepPost (s t : ByteStream) (e : ByteEvent) : Prop where
  sound : Sound t
  ledger : t.ledger = s.ledger
  pulls : PullProgress (s.resuming e)
    (shouldCallPull { s with pullPending := false, pulling := false }) s.pulls t.pulls

theorem Legal.post (h : Legal 0 s t) {e : ByteEvent} (he : ¬ s.resuming e) : StepPost s t e :=
  ⟨h.sound, by simpa using h.ledger, fun hr => absurd hr he, fun _ => h.grown⟩

/-- **One event.** -/
theorem step_post (env : Bool → Env) (henv : ∀ alloc, (env alloc).Within Obeys) (h : Sound s)
    (e : ByteEvent) :
    (step env s e).Sat (StepPost s · e) (StepPost s · e) fun _ => True := by
  have hpull := h.pull
  -- only the fulfilled pull may resume a pull that was deferred
  have hpost {x : ByteOutcome ByteStream} {e : ByteEvent} (he : e ≠ .pullFulfilled)
      (hx : x.Sat (Legal 0 s) (Legal 0 s) fun _ => True) :
      x.Sat (StepPost s · e) (StepPost s · e) fun _ => True :=
    hx.mono (fun _ ht => ht.post fun hr => he hr.1) (fun _ ht => ht.post fun hr => he hr.1)
      fun _ => id
  cases e with
  | op op alloc => exact hpost (by simp) (perform_legal (henv alloc) h op)
  | startFulfilled =>
    refine hpost (by simp) ?_
    simp only [step]
    split_ifs with hstart
    · rw [hstart] at hpull
      have hs : Legal 0 s { s with startPromise := .fulfilled, started := true } :=
        Sound.legal ⟨h.entries, h.fits, h.idle, h.released, hpull.start_settled fun _ => rfl⟩
          rfl rfl
      exact assert_then (assert_then
        (hs.then (callPull_legal (henv true) hs.sound) (add_zero 0)).mayThrow)
    · exact .refl h
  | startRejected e =>
    refine hpost (by simp) ?_
    simp only [step]
    split_ifs with hstart
    · rw [hstart] at hpull
      obtain ⟨hstarted, -, -⟩ := hpull.notStarted rfl
      have hs : Legal 0 s { s with startPromise := .rejected } :=
        Sound.legal ⟨h.entries, h.fits, h.idle, h.released,
          hpull.start_settled (by simp [hstarted])⟩ rfl rfl
      exact (hs.then (controllerError_legal (henv true) hs.sound _) (add_zero 0)).mayThrow
    · exact .refl h
  | pullFulfilled =>
    simp only [step, pullPromiseFulfilled]
    split_ifs with hpending hagain
    · -- a deferred pull is resumed
      have hs : Sound { s with
          pullPending := false, pulling := false, pullAgain := false
          pulls := s.pulls ++ [.resumed] } :=
        ⟨h.entries, h.fits, h.idle, h.released, hpull.resume⟩
      refine (callPullIfNeeded_legal (henv true) hs).mono (fun t ht => ?_)
        (fun _ => False.elim) fun _ => id
      obtain ⟨hlegal, hcall⟩ := ht
      refine ⟨hlegal.sound, hlegal.ledger.trans (add_zero _), fun _ => ?_,
        fun hr => absurd ⟨rfl, hpending, hagain⟩ hr⟩
      obtain ⟨l, hl, -⟩ := hlegal.grown
      refine ⟨l, by simpa using hl, fun hwant => ?_⟩
      obtain ⟨c, l', hl'⟩ := hcall hwant rfl
      exact ⟨c, l', by simpa using hl.symm.trans hl'⟩
    -- no pull was asked for meanwhile
    · obtain hagain : s.pullAgain = false := by simpa using hagain
      rw [hagain] at hpull
      have hs : Legal 0 s { s with pullPending := false, pulling := false } :=
        Sound.legal ⟨h.entries, h.fits, h.idle, h.released, by simpa [hagain] using hpull.fulfil⟩
          rfl rfl
      exact hs.post (e := .pullFulfilled) (by simp [resuming, hagain])
    · exact (Legal.refl h).post (by simp [resuming, hpending])
  | pullRejected e =>
    refine hpost (by simp) ?_
    simp only [step]
    split_ifs
    · exact (controllerError_settled (henv true) h _ (by simp)).mayThrow
    · exact .refl h

end WebStreams
