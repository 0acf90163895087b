import StarlingMonkey.WebStreams.Bytes.Consume

/-!
# Runs of a byte stream

`step_keeps _` collects the operations: every event keeps the invariant, unless a chunk is enqueued
behind a stale descriptor. From it follow, for every run:

* `byte_accounting`: the queue, its total, the pending descriptors and the `byobRequest` agree.
* `byte_no_abort`: no assertion fails, and descriptors and requests match.

Both hold under a condition on the events of the run, and both fail without it: after each, a
concrete history shows the failure.
-/

namespace WebStreams

open ByteStream

variable {debug alloc : Bool} {s t : ByteStream} {calm fair : Prop} {Q : ByteStream → Prop}
  {E : ByteAbort → Prop}

/-! ### Author code and the shared buffer -/

/-- Changing the shared buffer keeps everything, if its length and its filled bytes stay. -/
private theorem updateHead_keeps (h : ByteInv s) (f : ArrayBuffer → ArrayBuffer)
    (hid : ∀ b, (f b).id = b.id) (hable : ∀ b, (f b).detachable = b.detachable)
    (hshared : ∀ d, s.pendingPullIntos.head? = some d → s.byobRequest.isSome ∧
      (f d.buffer).data.length = d.buffer.data.length)
    (hfair : fair → ∀ d, s.pendingPullIntos.head? = some d →
      (f d.buffer).slice d.byteOffset d.bytesFilled = d.filled) :
    Keeps s calm fair (s.updateHead f) := by
  unfold updateHead
  rcases hp : s.pendingPullIntos with _ | ⟨d, ds⟩
  · exact .refl h
  have hok := h.pending
  have hview := h.view
  have hreader := h.reader
  have hphase := h.phase
  rw [hp] at hok hview hreader hphase hshared hfair
  obtain ⟨hd, hps, hfs⟩ := hok.of_cons
  obtain ⟨hsome, hlen⟩ := hshared d rfl
  refine ⟨⟨h.queue, .cons ⟨hd.toOk.congr rfl rfl rfl rfl rfl rfl hlen
    ((hable _).trans hd.detachable) id, hd.short⟩ hps hfs, ⟨fun v hv => ?_, fun e _ _ hn => ?_⟩, ?_,
    ⟨fun _ => hphase.idle (by simp), hphase.closing, hphase.ended, fun hs e he => ?_,
      fun he => by simpa using hphase.errored he⟩, h.pull, h.auto⟩, fun _ => id, fun hf _ => ?_, id⟩
  · obtain ⟨e, he, hv'⟩ := hview.region v hv
    obtain rfl : d = e := by simpa using he
    exact ⟨_, rfl, by rw [hv', hid]⟩
  · change s.byobRequest = none at hn
    simp [hn] at hsome
  · rcases hr : s.reader with _ | rs | rs <;> rw [hr] at hreader <;>
      simpa [ReaderOk] using hreader
  · rcases List.mem_cons.mp he with rfl | he
    · exact hphase.closed hs d (by simp)
    · exact hphase.closed hs e (by simp [he])
  · have hfilled : PullIntoDescriptor.filled { d with buffer := f d.buffer } = d.filled :=
      hfair hf d rfl
    have hchannel : channel { s with
        pendingPullIntos := { d with buffer := f d.buffer } :: ds } = s.channel := by
      unfold channel
      rw [hp, filledBytes_cons, filledBytes_cons, hfilled]
    rw [hchannel]

/-- The author writes to the shared buffer. -/
theorem writeView_keeps (h : ByteInv s) (env : Env) (data : List UInt8) :
    (s.perform env (.writeView data)).Sat (Keeps s calm (s.keepsFilled data = true)) Q E := by
  simp only [perform, Outcome.pure_eq_ok, Outcome.sat_ok]
  split_ifs with hshared
  · refine updateHead_keeps h _ (fun _ => rfl) (fun _ => rfl) (fun d hd => ?_) fun hfair d hd => ?_
    · unfold sharedHead at hshared
      split_ifs at hshared with hsome
      · simp only [hd, Option.any_some, Bool.and_eq_true, beq_iff_eq] at hshared
        exact ⟨hsome, hshared.2⟩
      · simp at hshared
    · change (data.drop d.byteOffset).take d.bytesFilled = d.filled
      simpa [keepsFilled, hd] using hfair
  · exact .refl h

/-- The author transfers the shared buffer away. -/
theorem detachView_keeps (h : ByteInv s) (env : Env) :
    (s.perform env .detachView).Sat (Keeps s calm fair) Q E := by
  simp only [perform, Outcome.pure_eq_ok, Outcome.sat_ok]
  split_ifs with hshared
  · refine updateHead_keeps h _ (fun _ => rfl) (fun _ => rfl) (fun d hd => ⟨?_, rfl⟩)
      fun _ d hd => rfl
    unfold sharedHead at hshared
    split_ifs at hshared with hsome
    · exact hsome
    · simp at hshared
  · exact .refl h

/-! ### Promise reactions -/

/-- **The reactions to the promises of `start` and `pull`.** -/
theorem reaction_keeps (h : ByteInv s) {e : ByteEvent} (he : ∀ op alloc, e ≠ .op op alloc) :
    (step (Env.quiet debug) s e).Sat (Keeps s calm fair) Q E := by
  have hpull := h.pull
  have hsame {u : ByteStream} (hu : u = { s with
      startPromise := u.startPromise, started := u.started, pulling := u.pulling
      pullAgain := u.pullAgain, pullPending := u.pullPending, pulls := u.pulls })
      (hp : PullOk u.startPromise u.started u.pulling u.pullAgain u.pullPending) :
      Keeps s calm fair u := by
    rw [hu]
    exact ⟨⟨h.queue, h.pending, h.view, h.reader, h.phase, hp, h.auto⟩, fun _ => id,
      fun _ _ => .refl, id⟩
  cases e with
  | op op alloc => exact absurd rfl (he op alloc)
  | startFulfilled =>
    simp only [step, startPromiseFulfilled]
    split_ifs with hstart
    · obtain ⟨-, hpulling, hagain⟩ := hpull.notStarted hstart
      rw [Env.assert_of (by simpa using hpulling), Outcome.ok_bind,
        Env.assert_of (by simpa using hagain), Outcome.ok_bind]
      exact (hsame (u := { s with startPromise := .fulfilled, started := true }) rfl
        ⟨hpull.again, fun _ => rfl, fun _ => rfl, hpull.pending⟩).pull
    · exact Keeps.refl h
  | startRejected e =>
    simp only [step]
    split_ifs with hstart
    · obtain ⟨hstarted, -, -⟩ := hpull.notStarted hstart
      exact (hsame (u := { s with startPromise := .rejected }) rfl
        ⟨hpull.again, hpull.afterStart, by simp [hstarted], hpull.pending⟩).error _
    · exact Keeps.refl h
  | pullFulfilled =>
    simp only [step, pullPromiseFulfilled]
    split_ifs with hpending hagain
    · exact (hsame (u := { s with
        pullPending := false, pulling := false, pullAgain := false
        pulls := s.pulls ++ [.resumed] }) rfl
        ⟨by simp, by simp, hpull.afterPromise, by simp⟩).pull
    · exact hsame rfl ⟨fun hc => absurd hc hagain, by simp, hpull.afterPromise, by simp⟩
    · exact Keeps.refl h
  | pullRejected e =>
    simp only [step]
    split_ifs with hpending
    · exact (hsame (u := { s with pullPending := false }) rfl
        ⟨hpull.again, hpull.afterStart, hpull.afterPromise, by simp⟩).error _
    · exact Keeps.refl h

/-! ### One event -/

/-- The event enqueues a chunk while the bytes of a released reader are ahead of a default read
that has a descriptor. -/
def ByteStream.staleEnqueue (s : ByteStream) : ByteEvent → Bool
  | .op (.enqueue view) alloc =>
    s.staleHead && alloc && 0 < view.byteLength && view.buffer.detachable
  | _ => false

/-- The event answers the `byobRequest` of a released reader while default reads wait. -/
def ByteStream.strandedAnswer (s : ByteStream) : ByteEvent → Bool
  | .op (.respond n) alloc => s.stranded && alloc && s.acceptsRespond n
  | .op (.respondWithNewView view) alloc => s.stranded && alloc && s.acceptsNewView view
  | _ => false

/-- A default read waits although bytes are queued. -/
def ByteStream.stalled (s : ByteStream) : Bool :=
  s.readRequests.any (!·.isEmpty) && 0 < s.queueTotalSize

theorem noStall_iff : NoStall s ↔ s.stalled = false := by
  rcases hr : s.reader with _ | rs | rs <;> simp [NoStall, stalled, readRequests, hr]

/-- What keeps the order of bytes: author code leaves the bytes filled before as they are, and no
read is issued while an earlier one is stalled. -/
def ByteStream.fairEvent (s : ByteStream) : ByteEvent → Bool
  | .op (.writeView data) _ => s.keepsFilled data
  | .op (.respondWithNewView view) _ =>
    !s.takesNewView view || s.keepsFilled view.buffer.data
  | .op .read _ => !s.stalled
  | _ => true

/-- A weaker condition guarantees less. -/
theorem Keeps.weaken {calm' fair' : Prop} (h : Keeps s calm fair t) (hcalm : calm' → calm)
    (hfair : fair' → fair) : Keeps s calm' fair' t :=
  ⟨h.inv, fun h' => h.stall (hcalm h'), fun h' => h.flow (hfair h'), h.alive⟩

private theorem sat_weaken {calm' fair' : Prop} {x : ByteOutcome ByteStream}
    (h : x.Sat (Keeps s calm fair) (Keeps s calm fair) E) (hcalm : calm' → calm)
    (hfair : fair' → fair) : x.Sat (Keeps s calm' fair') (Keeps s calm' fair') E :=
  h.mono (fun _ ht => ht.weaken hcalm hfair) (fun _ ht => ht.weaken hcalm hfair) fun _ => id

variable (debug) in
/-- **One event.** It keeps the stream as it should be, and aborts only if a read is stalled. -/
theorem step_keeps (h : ByteInv s) (e : ByteEvent) (hstale : s.staleEnqueue e = false) :
    (step (Env.quiet debug) s e).Sat
      (Keeps s (s.strandedAnswer e = false) (s.fairEvent e = true))
      (Keeps s (s.strandedAnswer e = false) (s.fairEvent e = true)) fun _ => ¬ NoStall s := by
  rcases e with ⟨op, alloc⟩ | _ | e | _ | e
  · simp only [step]
    cases op with
    | enqueue view =>
      refine sat_weaken (jsEnqueue_keeps h fun hpos hable halloc => ?_) (fun _ => trivial)
        fun _ => trivial
      simpa [staleEnqueue, hpos, hable, halloc] using hstale
    | close => exact jsClose_keeps h
    | error e => exact (Keeps.refl h).error _
    | byobRequest => exact getByobRequest_keeps h
    | writeView data => exact writeView_keeps h _ data
    | detachView => exact detachView_keeps h _
    | respond n =>
      refine sat_weaken (jsRespond_keeps h n) (fun hcalm haccepts halloc => ?_) fun _ => trivial
      simpa [strandedAnswer, haccepts, halloc] using hcalm
    | respondWithNewView view =>
      refine sat_weaken (jsRespondWithNewView_keeps h view) (fun hcalm haccepts halloc => ?_)
        fun hfair htakes => ?_
      · simpa [strandedAnswer, haccepts, halloc] using hcalm
      · simpa [fairEvent, htakes] using hfair
    | read =>
      refine (jsRead_keeps h).mono (fun _ ht => ht.weaken (fun _ => trivial) fun hfair => ?_)
        (fun _ ht => ht.weaken (fun _ => trivial) fun hfair => ?_) fun _ => id
      · exact noStall_iff.mpr (by simpa [fairEvent] using hfair)
      · exact noStall_iff.mpr (by simpa [fairEvent] using hfair)
    | readInto view min => exact jsReadInto_keeps h view min
    | releaseLock => exact readerRelease_keeps h
    | getReader => exact acquire_keeps h (.inl rfl)
    | getByobReader => exact acquire_keeps h (.inr rfl)
    | cancel => exact streamCancel_keeps h
  all_goals exact reaction_keeps h (by simp)

/-! ### Accounting -/

/-- The queue, its total, the pending descriptors and the `byobRequest` agree. -/
structure Accounting (s : ByteStream) : Prop where
  total : s.queueTotalSize = (s.queue.map ByteQueueEntry.byteLength).sum
  inside : ∀ e ∈ s.queue, e.byteOffset + e.byteLength ≤ e.buffer.byteLength
  shape : ∀ d ∈ s.pendingPullIntos, 1 ≤ d.elementSize ∧ d.byteLength % d.elementSize = 0 ∧
    1 ≤ d.minimumFill ∧ d.minimumFill ≤ d.byteLength ∧ d.bytesFilled ≤ d.byteLength ∧
    d.byteOffset + d.byteLength ≤ d.bufferByteLength
  idle : s.pendingPullIntos ≠ [] → s.queueTotalSize = 0
  owned : ∀ d ∈ s.pendingPullIntos.tail, d.readerType ≠ .none
  view : ∀ v, s.byobRequest = some v → ∃ d, s.pendingPullIntos.head? = some d ∧
    v = ⟨d.buffer.id, d.byteOffset + d.bytesFilled, d.byteLength - d.bytesFilled⟩

theorem ByteInv.accounting (h : ByteInv s) : Accounting s where
  total := h.queue.total
  inside e he := by
    have hok := h.queue.entries e he
    rw [ArrayBuffer.byteLength, if_neg (by simp [hok.live])]
    exact hok.bound
  shape d hd := by
    have hp := h.pending.pending d hd
    exact ⟨hp.elementSize_pos, hp.length_mod, hp.fill_pos, hp.fill_le, hp.lt_length.le, hp.bound⟩
  idle := h.phase.idle
  owned d hd := (h.pending.tail d hd).reader
  view := h.view.region

/-- **Accounting in every run** that enqueues no chunk behind a stale descriptor. -/
theorem byte_accounting {auto : Option ℕ} {hwm : Option ℚ} {debug : Bool} {s t : ByteStream}
    (h0 : setUp auto hwm = .ok s)
    (hrun : (byteMachine debug).RunWhere (fun s e => s.staleEnqueue e = false) s t) :
    Accounting t := by
  have hinv : ByteInv t := hrun.inv_of_sat (I := ByteInv) (E := fun _ => True) (byteInv_setUp h0)
    fun s e h hok =>
      (step_keeps _ h e hok).mono (fun _ ht => ht.inv) (fun _ ht => ht.inv) fun _ _ => trivial
  exact hinv.accounting

/-- A chunk of three bytes. -/
private abbrev chunk : ArrayBufferView where
  viewKind := .uint8
  buffer := ⟨100, [1, 2, 3], false, true⟩
  byteOffset := 0
  arrayLength := 3
  aligned := rfl
  fits := by decide

/-- A view of `n` bytes to read into. -/
private abbrev room (n : ℕ) : ArrayBufferView where
  viewKind := .uint8
  buffer := ⟨200, List.replicate n 0, false, true⟩
  byteOffset := 0
  arrayLength := n
  aligned := Nat.mod_one _
  fits := by simp [ArrayBuffer.byteLength, ViewKind.elementSize]

/-- A BYOB read is answered in part, its reader is released, and a default read waits. -/
private abbrev partialThenRead : List ByteEvent :=
  [.startFulfilled, .op .getByobReader true, .op (.readInto (room 4) 2) true,
    .op .byobRequest true, .op (.respond 1) true, .op .releaseLock true, .op .getReader true,
    .op .read true]

/-- A BYOB read that was answered in part, and what follows when nothing is left behind. -/
theorem byte_accounting_history : ∃ t, (byteMachine true).exec (initial (some 4) (some 0))
    (partialThenRead ++ [.op .byobRequest true, .op (.respond 1) true, .op (.enqueue chunk) true])
      = some t ∧ Accounting t := by
  obtain ⟨t, ht⟩ := Option.isSome_iff_exists.mp (show ((byteMachine true).exec
    (initial (some 4) (some 0)) (partialThenRead ++ [.op .byobRequest true, .op (.respond 1) true,
      .op (.enqueue chunk) true])).isSome = true by decide)
  exact ⟨t, ht, @byte_accounting (some 4) _ _ _ _ rfl (Machine.runWhere_of_exec (by decide) ht)⟩

/-- A chunk enqueued right after the read is queued while a descriptor still waits. -/
theorem byte_accounting_fails : ¬ ∀ (debug : Bool) (auto : Option ℕ) (hwm : Option ℚ)
    (s t : ByteStream), setUp auto hwm = .ok s → (byteMachine debug).Run s t → Accounting t := by
  intro h
  obtain ⟨t, hrun, hbad⟩ := Machine.exists_run_of_exec
    (partialThenRead ++ [.op (.enqueue chunk) true])
    (M := byteMachine false) (s := initial (some 4) (some 0))
    (P := fun t => t.pendingPullIntos ≠ [] ∧ t.queueTotalSize = 3) (by decide)
  obtain ⟨hpend, htotal⟩ := of_decide_eq_true hbad
  have hidle := (h false (some 4) (some 0) _ t rfl hrun).idle hpend
  omega

/-! ### Safety -/

/-- The descriptors and the requests of a readable stream match, and no request waits while bytes
are queued. -/
structure Matching (s : ByteStream) : Prop where
  byob : ∀ rs, s.state = .readable → s.reader = some (.byob rs) →
    countType .byob s.pendingPullIntos = rs.length
  default : s.state = .readable →
    countType .default s.pendingPullIntos ≤ (s.readRequests.getD []).length
  idle : s.state = .readable → (s.reader.map Reader.requests).getD [] ≠ [] → s.queueTotalSize = 0

theorem ByteInv.matching (h : ByteInv s) (hstall : NoStall s) : Matching s := by
  have hreader := h.reader
  refine ⟨fun rs hs hr => ?_, fun hs => ?_, fun hs hne => ?_⟩
  · rw [hr] at hreader
    exact hreader.2.1 (by simp [hs])
  · rcases hr : s.reader with _ | rs | rs <;> rw [hr] at hreader
    · have hnone : countType .default s.pendingPullIntos = 0 :=
        List.countP_eq_zero.mpr fun d hd => by simp [hreader d hd]
      omega
    · rw [hreader.2.1 hs]
      simp only [readRequests, hr, Option.getD_some]
      split <;> omega
    · have hnone : countType .default s.pendingPullIntos = 0 :=
        List.countP_eq_zero.mpr fun d hd => by simpa using hreader.1 d hd
      omega
  · rcases hr : s.reader with _ | rs | rs <;> rw [hr] at hreader <;>
      simp only [hr, Option.map_none, Option.map_some, Option.getD_none, Option.getD_some,
        Reader.requests, ne_eq, not_true] at hne
    · exact hstall rs hr hne
    · refine h.phase.idle fun hp => hne ?_
      have hcount := hreader.2.1 (by simp [hs])
      rw [hp, countType_nil] at hcount
      exact List.length_eq_zero_iff.mp hcount.symm

/-- **No abort in any run** that enqueues no chunk behind a stale descriptor and does not answer
for a stranded one. -/
theorem byte_no_abort {auto : Option ℕ} {hwm : Option ℚ} {debug : Bool} {s t : ByteStream}
    (h0 : setUp auto hwm = .ok s)
    (hrun : (byteMachine debug).RunWhere
      (fun s e => s.staleEnqueue e = false ∧ s.strandedAnswer e = false) s t) :
    Matching t ∧
      ∀ e, t.staleEnqueue e = false → ((byteMachine debug).step t e).isPanic = false := by
  obtain ⟨hinv, hstall⟩ : ByteInv t ∧ NoStall t :=
    hrun.inv_of_sat (I := fun s => ByteInv s ∧ NoStall s) (E := fun _ => True)
      ⟨byteInv_setUp h0, noStall_setUp h0⟩ fun s e h hok =>
        (step_keeps _ h.1 e hok.1).mono (fun _ ht => ⟨ht.inv, ht.stall hok.2 h.2⟩)
          (fun _ ht => ⟨ht.inv, ht.stall hok.2 h.2⟩) fun _ _ => trivial
  refine ⟨hinv.matching hstall, fun e he => ?_⟩
  have hsat := step_keeps debug hinv e he
  exact (hsat.mono (fun _ => id) (fun _ => id) fun _ hp => hp hstall).not_isPanic

/-- The same history, and a read that takes the chunk. -/
theorem byte_no_abort_history : ∃ t, (byteMachine true).exec (initial (some 4) (some 0))
    (partialThenRead ++ [.op .byobRequest true, .op (.respond 1) true, .op (.enqueue chunk) true])
      = some t ∧ ((byteMachine true).step t (.op .read true)).isPanic = false := by
  obtain ⟨t, ht⟩ := Option.isSome_iff_exists.mp (show ((byteMachine true).exec
    (initial (some 4) (some 0)) (partialThenRead ++ [.op .byobRequest true, .op (.respond 1) true,
      .op (.enqueue chunk) true])).isSome = true by decide)
  exact ⟨t, ht, (@byte_no_abort (some 4) _ _ _ _ rfl
    (Machine.runWhere_of_exec (by decide) ht)).2 _ rfl⟩

/-- A chunk enqueued right after the read fails an assertion. -/
theorem byte_no_abort_fails : ¬ ∀ (debug : Bool) (auto : Option ℕ) (hwm : Option ℚ)
    (s t : ByteStream), setUp auto hwm = .ok s → (byteMachine debug).Run s t →
      Matching t ∧ ∀ e, ((byteMachine debug).step t e).isPanic = false := by
  intro h
  obtain ⟨t, hrun, hbad⟩ := Machine.exists_run_of_exec partialThenRead (M := byteMachine true)
    (s := initial (some 4) (some 0))
    (P := fun t => ((byteMachine true).step t (.op (.enqueue chunk) true)).isPanic) (by decide)
  have hgood := (h true (some 4) (some 0) _ t rfl hrun).2 (.op (.enqueue chunk) true)
  simp [hbad] at hgood

end WebStreams
