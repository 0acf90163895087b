import StarlingMonkey.WebStreams.Bytes.Respond

/-!
# Reading, releasing, cancelling, closing

The operations of the consumer and the remaining ones of the source, and the promise reactions:
each keeps the invariant, leaves no read stalled, and moves bytes as a channel does. One of them
has a condition: a default read must not find an earlier one stalled.
-/

namespace WebStreams

open ByteStream

variable {debug alloc : Bool} {s t : ByteStream} {calm fair : Prop} {Q : ByteStream → Prop}
  {E : ByteAbort → Prop}

/-! ### Steps that keep everything -/

/-- Erroring the controller keeps everything. -/
theorem Keeps.error (h : Keeps s calm fair t) (e : JsError) :
    (t.controllerError (.quiet debug alloc) e).Sat (Keeps s calm fair) Q E := by
  by_cases ht : t.state = .readable
  · obtain ⟨u, heq, hinv, hu, -⟩ := controllerError_quiet _ _ e ht
      h.inv.pull h.inv.auto
    rw [heq]
    exact .of_ended hinv (by simp [hu])
  · rw [controllerError, if_pos ht]
    exact h

variable (calm fair) in
/-- A read that ends without bytes uses up a number. -/
theorem Keeps.skip (h : ByteInv s) {o : Settlement} (ho : o.bytes? = none) {b : Bool} {n r : ℕ} :
    Keeps s calm fair { s with
      nextRequest := s.nextRequest + 1, disturbed := b, nextBuffer := n
      settled := s.settled ++ [(r, o)] } := by
  refine ⟨⟨h.queue, h.pending, h.view, h.reader, h.phase, h.pull, h.auto⟩, fun _ => id,
    fun _ _ => .single ?_, id⟩
  have hstep := Channel.Step.skip s.channel
  simpa [channel, chunkLog, ho] using hstep

/-- Without a pending descriptor there is no `byobRequest`. -/
theorem ByteInv.view_eq_none (h : ByteInv s) (hp : s.pendingPullIntos = []) :
    s.byobRequest = none := by
  cases hv : s.byobRequest with
  | none => rfl
  | some v =>
    obtain ⟨d, hd, -⟩ := h.view.region v hv
    simp [hp] at hd

/-- A descriptor joins the pending ones. -/
theorem ViewOk.append {view : Option ByobView} {ds : List PullIntoDescriptor}
    {d : PullIntoDescriptor} (h : ViewOk view ds) (hd : d.buffer.detached = false) :
    ViewOk view (ds ++ [d]) := by
  refine ⟨fun v hv => ?_, fun e he hdet => ?_⟩
  · obtain ⟨e, he, hview⟩ := h.region v hv
    exact ⟨e, by simp [List.head?_append, he], hview⟩
  · rcases hds : ds with _ | ⟨c, cs⟩
    · rw [hds, List.nil_append, List.head?_cons, Option.some.injEq] at he
      simp [← he, hd] at hdet
    · rw [hds, List.cons_append, List.head?_cons, Option.some.injEq] at he
      exact h.detached e (by simp [hds, he]) hdet

/-! ### Default reads -/

variable (calm fair) in
/-- Appending a read request, with a descriptor if one was allocated for it. -/
private theorem append_read {ds : List PullIntoDescriptor} {rs : List ℕ} (h : ByteInv s)
    (hs : s.state = .readable) (hr : s.reader = some (.default rs)) (hzero : s.queueTotalSize = 0)
    (hds : ds = [] ∧ s.autoAllocateChunkSize = none ∨ ∃ d : PullIntoDescriptor,
      ds = [d] ∧ s.autoAllocateChunkSize.isSome ∧ d.Pending ∧ d.Fresh ∧ d.readerType = .default)
    {b : Bool} {n : ℕ} :
    Keeps s calm fair { s with
      nextRequest := s.nextRequest + 1, disturbed := b, nextBuffer := n
      pendingPullIntos := s.pendingPullIntos ++ ds
      reader := some (.default (rs ++ [s.nextRequest])) } := by
  have hreader := h.reader
  rw [hr] at hreader
  obtain ⟨htypes, hcount, -⟩ := hreader
  have hcount' := hcount hs
  have hunfilled : filledBytes ds = [] := by
    rcases hds with ⟨rfl, -⟩ | ⟨d, rfl, -, -, hf, -⟩
    · rfl
    · exact filledBytes_fresh (by simpa using hf)
  refine ⟨⟨h.queue, ?_, ?_, ?_, ?_, h.pull, h.auto⟩, fun _ _ _ _ _ => hzero, fun _ _ => ?_, id⟩
  · rcases hds with ⟨rfl, -⟩ | ⟨d, rfl, -, hd, hf, -⟩
    · simpa using h.pending
    · exact h.pending.append hd hf
  · rcases hds with ⟨rfl, -⟩ | ⟨d, rfl, -, -, hf, -⟩
    · simpa using h.view
    · exact h.view.append hf.live
  · refine ⟨?_, fun _ => ?_, fun hne => absurd hs hne⟩
    · rcases hds with ⟨rfl, -⟩ | ⟨d, rfl, -, -, -, hty⟩
      · simpa using htypes
      · intro e he
        rcases List.mem_append.mp he with he | he
        · exact htypes e he
        · simp [List.mem_singleton.mp he, hty]
    · rcases hds with ⟨rfl, hauto⟩ | ⟨d, rfl, hauto, -, -, hty⟩
      · simpa [hauto] using hcount'
      · simpa [hauto, hty] using hcount'
  · refine ⟨fun _ => hzero, fun _ hc => ?_, fun hne => absurd hs hne, ?_, ?_⟩
    · have := h.phase.closing hs hc
      omega
    · simp [hs]
    · simp [hs]
  · have hstep := Channel.Step.issue s.channel
    refine .single ?_
    simpa [channel, hr, Reader.requests, hunfilled] using hstep

variable (calm) in
/-- **Serving a read from the queue.** The read may find an earlier one stalled, which is then
served after it. -/
private theorem serve_read {rs : List ℕ} {b : Bool} (h : ByteInv s) (hs : s.state = .readable)
    (hr : s.reader = some (.default rs)) (hpos : 0 < s.queueTotalSize) :
    ∃ t, fillReadRequestFromQueue (.quiet debug alloc)
        { s with nextRequest := s.nextRequest + 1, disturbed := b } s.nextRequest = .ok t ∧
      Keeps s calm (NoStall s) t := by
  have hpend : s.pendingPullIntos = [] := by
    by_contra hne
    have := h.phase.idle hne
    omega
  have hview := h.view_eq_none hpend
  have hreader := h.reader
  rw [hr, hpend] at hreader
  obtain ⟨-, hcount, -⟩ := hreader
  have hcount' := hcount hs
  obtain ⟨e, q, hqs⟩ : ∃ e q, s.queue = e :: q := by
    rcases hq : s.queue with _ | ⟨e, q⟩
    · rw [h.queue.total, hq] at hpos
      simp at hpos
    · exact ⟨e, q, rfl⟩
  have hidle (hstall : NoStall s) : rs = [] := by
    by_contra hne
    have := hstall rs hr hne
    omega
  by_cases hend : queueSize q = 0 ∧ s.closeRequested = true
  · -- the last bytes of a closing stream
    obtain rfl : q = [] :=
      (queueSize_eq_zero fun x hx => h.queue.entries x (by simp [hqs, hx])).mp hend.1
    obtain ⟨l, heq⟩ := fillReadRequestFromQueue_closing
      (s := { s with nextRequest := s.nextRequest + 1, disturbed := b }) (r := s.nextRequest) hs hqs
      hend.2 h.queue
    refine ⟨_, heq, .of_ended ⟨.nil, ?_, ?_, ?_, ?_, h.pull, h.auto⟩ (by simp)⟩
    · simpa [hpend] using PendingOk.nil
    · simpa [hpend, hview] using ViewOk.nil
    · simp [hr, hpend, ReaderOk]
    · exact ⟨fun _ => rfl, by simp, fun _ => rfl, by simp [hpend], by simp⟩
  · obtain ⟨a, c, p, n, v, heq, hbytes, hpull⟩ := fillReadRequestFromQueue_open _ _
      (s := { s with nextRequest := s.nextRequest + 1, disturbed := b })
      (r := s.nextRequest) hs hqs hend h.queue h.pull
    have hqok : QueueOk q (queueSize q) := ⟨fun x hx => h.queue.entries x (by simp [hqs, hx]), rfl⟩
    refine ⟨_, heq, ⟨hqok, h.pending, h.view, h.reader, ?_, hpull, h.auto⟩, ?_, ?_, fun _ => hs⟩
    · refine ⟨fun hne => absurd hpend hne, fun _ hc => ?_, fun hne => absurd hs hne, ?_, ?_⟩
      · exact Nat.pos_of_ne_zero fun hz => hend ⟨hz, hc⟩
      · simp [hs]
      · simp [hs]
    · intro _ hstall rs' hrs' hne
      have hnil := hidle hstall
      simp only [hr, hnil, Option.some.injEq, Reader.default.injEq] at hrs'
      exact absurd hrs'.symm hne
    · intro hstall _
      have hnil := hidle hstall
      have hissue := Channel.Step.issue s.channel
      have hdeliver := @Channel.Step.deliver _
        { s.channel with waiting := s.channel.waiting ++ [s.channel.next]
                         next := s.channel.next + 1 }
        s.nextRequest [] e.bytes (queueBytes q)
        (by simp [channel, hr, hnil, Reader.requests]) (by simp [channel, hpend, hqs])
      refine .tail (.single hissue) ?_
      simpa [channel, hr, hnil, hpend, hbytes, Reader.requests] using hdeliver

/-- What a default read does, by the state of the stream. -/
private theorem defaultReaderRead_eq (env : Env) (r : ℕ) :
    (s.state = .closed → s.defaultReaderRead env r
      = settle env { s with disturbed := true } r (.close none)) ∧
    (s.state = .errored → s.defaultReaderRead env r
      = settle env { s with disturbed := true } r (.error (s.storedError.getD (.reason 0)))) ∧
    (s.state = .readable → s.defaultReaderRead env r
      = bytePullSteps env { s with disturbed := true } r) := by
  refine ⟨fun hs => ?_, fun hs => ?_, fun hs => ?_⟩ <;> simp [defaultReaderRead, hs]

/-- The states of a stream. -/
theorem StreamState.cases_of (x : StreamState) : x = .closed ∨ x = .errored ∨ x = .readable := by
  cases x <;> simp

/-- **A default read keeps the stream as it should be**, unless it meets a stalled read. -/
theorem jsRead_keeps (h : ByteInv s) :
    (s.jsRead (.quiet debug alloc)).Sat (Keeps s calm (NoStall s)) (Keeps s calm (NoStall s))
      fun _ => ¬ NoStall s := by
  unfold jsRead
  by_cases hdef : s.hasDefaultReader = true
  swap
  · rw [if_neg hdef]
    exact .refl h
  rw [if_pos hdef]
  obtain ⟨rs, hr⟩ : ∃ rs, s.reader = some (.default rs) := by
    rcases hr : s.reader with _ | rs | rs <;> simp_all [hasDefaultReader, readRequests]
  obtain ⟨hclosed, herrored, hreadable⟩ := defaultReaderRead_eq (s := s.issue)
    (.quiet debug alloc) s.nextRequest
  rcases s.state.cases_of with hs | hs | hs
  · rw [hclosed hs]
    exact Keeps.skip _ _ h (o := .close none) rfl
  · rw [herrored hs]
    exact Keeps.skip _ _ h (o := .error _) rfl
  · rw [hreadable hs, issue, bytePullSteps,
      Env.assert_of (by simp [hasDefaultReader, readRequests, hr]), Outcome.ok_bind]
    by_cases hpos : 0 < s.queueTotalSize
    · -- bytes are queued
      rw [if_pos hpos]
      obtain ⟨t, heq, hkeep⟩ := serve_read calm
        (b := true) h hs hr hpos
      rw [heq, Outcome.infallible_ok]
      cases debug with
      | false => exact hkeep
      | true =>
        -- in a debug build the read must have been the only one
        by_cases hnil : rs = []
        · simp only [Env.quiet_debug, if_true, getNumReadRequests, readRequests, hr,
            Option.map_some,
            Outcome.expect_some, Outcome.ok_bind, hnil, List.length_nil, decide_true,
            Env.assert_true]
          exact hkeep
        · have hstall : ¬ NoStall s := fun hstall => by
            have := hstall rs hr hnil
            omega
          simpa [Env.quiet, getNumReadRequests, readRequests, hr, Env.assert, hnil,
            Outcome.guard] using hstall
    -- nothing is queued: the read waits
    · have hzero : s.queueTotalSize = 0 := by omega
      rw [if_neg hpos]
      rcases Option.eq_none_or_eq_some s.autoAllocateChunkSize with hauto | ⟨size, hauto⟩
      · have hkeep := append_read calm (NoStall s) (b := true)
          (n := s.nextBuffer) h hs hr hzero (.inl ⟨rfl, hauto⟩)
        rw [List.append_nil] at hkeep
        simpa only [hauto, addReadRequest, hr, Outcome.pure_eq_ok, Outcome.ok_bind] using hkeep.pull
      -- it waits on a buffer of its own, if one can be allocated
      · cases alloc with
        | false =>
          have hskip := Keeps.skip calm (NoStall s) (b := true)
            (n := s.nextBuffer) (r := s.nextRequest) h (o := .error .engine) rfl
          simpa only [hauto, Env.quiet_alloc, Bool.false_eq_true, if_false, settle_quiet,
            Outcome.sat_ok] using hskip
        | true =>
          have hsize := h.auto size hauto
          have hkeep := append_read calm (NoStall s) (b := true)
            (n := s.nextBuffer + 1) h hs hr hzero (.inr
            ⟨{ buffer := .new s.nextBuffer size, bufferByteLength := size, byteOffset := 0
               byteLength := size, bytesFilled := 0, minimumFill := 1, elementSize := 1
               viewKind := .uint8, readerType := .default }, rfl, by simp [hauto],
              ⟨⟨rfl, rfl, Nat.mod_one _, Nat.mod_one _, Nat.one_pos, hsize, by simp, by simp, rfl,
                fun _ => rfl⟩, Nat.one_pos⟩, ⟨rfl, rfl, by simp⟩, rfl⟩)
          simpa only [hauto, Env.quiet_alloc, if_true, addReadRequest, hr, Outcome.pure_eq_ok,
            Outcome.ok_bind] using hkeep.pull

/-! ### BYOB reads -/

/-- The descriptor of a BYOB read is proper, and nothing is written to it. -/
private theorem viewDescriptor_ok {view : ArrayBufferView} {id min : ℕ} (hpos : 0 < view.byteLength)
    (hmin : 0 < min) (hle : min * view.viewKind.elementSize ≤ view.byteLength) :
    (viewDescriptor view ⟨id, view.buffer.data, false, true⟩ min).Pending ∧
      (viewDescriptor view ⟨id, view.buffer.data, false, true⟩ min).Fresh := by
  have hes := view.viewKind.elementSize_pos
  have hfill : 0 < min * view.viewKind.elementSize := Nat.mul_pos hmin hes
  refine ⟨⟨⟨rfl, view.aligned, view.byteLength_mod, Nat.mul_mod_left .., hfill, hle, ?_, rfl, rfl,
    by simp [viewDescriptor]⟩, hfill⟩, ⟨rfl, rfl, by simp [viewDescriptor]⟩⟩
  exact view.bound_data hpos

variable (calm fair) in
/-- Appending a read-into request with its descriptor, which may have taken what was queued. -/
private theorem append_view {d : PullIntoDescriptor} {rs : List ℕ} {q : List ByteQueueEntry}
    (h : ByteInv s) (hs : s.state ≠ .errored) (hr : s.reader = some (.byob rs))
    (hclose : s.state = .readable → s.closeRequested = false) (hd : d.Pending)
    (hlive : d.buffer.detached = false) (hty : d.readerType = .byob)
    (hfresh : s.pendingPullIntos = [] ∧ s.state = .readable ∨ d.Fresh)
    (hq : ∀ e ∈ q, e.Ok) (hzero : queueSize q = 0)
    (hbytes : d.filled ++ queueBytes q = queueBytes s.queue) {b : Bool} {n : ℕ} :
    Keeps s calm fair { s with
      nextRequest := s.nextRequest + 1, disturbed := b, nextBuffer := n
      queue := q, queueTotalSize := queueSize q
      pendingPullIntos := s.pendingPullIntos ++ [d]
      reader := some (.byob (rs ++ [s.nextRequest])) } := by
  have hreader := h.reader
  rw [hr] at hreader
  obtain ⟨htypes, hcount, -⟩ := hreader
  refine ⟨⟨⟨hq, rfl⟩, ?_, h.view.append hlive, ⟨?_, fun _ => ?_, fun he => absurd he hs⟩, ?_,
    h.pull, h.auto⟩, fun _ _ rs' hrs' => by simp at hrs', fun _ _ => ?_, id⟩
  · rcases hfresh with ⟨hp, -⟩ | hf
    · simp only [hp, List.nil_append]
      exact .cons hd (by simp) (by simp)
    · exact h.pending.append hd hf
  · intro e he
    rcases List.mem_append.mp he with he | he
    · exact htypes e he
    · simp [List.mem_singleton.mp he, hty]
  · simpa [hty] using hcount hs
  · refine ⟨fun _ => hzero, fun hst hc => ?_, fun _ => hzero, fun hst e he => ?_,
      fun he => absurd he hs⟩
    · have hc' := hclose hst
      simp only at hc
      simp [hc'] at hc
    · rcases List.mem_append.mp he with he | he
      · exact h.phase.closed hst e he
      · rw [List.mem_singleton.mp he]
        rcases hfresh with ⟨-, hst'⟩ | hf
        · simp only at hst
          simp [hst'] at hst
        · rw [hf.unfilled, Nat.zero_mod]
  · have hstep := Channel.Step.issue s.channel
    refine .single ?_
    simpa [channel, hr, Reader.requests, hbytes] using hstep

/-- A descriptor filled from the queue at once: the read takes the bytes. -/
private theorem take_view {d : PullIntoDescriptor} {q : List ByteQueueEntry} {v : ArrayBufferView}
    {b : Bool} {n : ℕ} (hr : s.reader = some (.byob [])) (hp : s.pendingPullIntos = [])
    (hfill : d.filled ++ queueBytes q = queueBytes s.queue) (hv : v.bytes = d.filled)
    (ht : ByteInv t) (hframe : t = { s with
      nextRequest := s.nextRequest + 1, disturbed := b, nextBuffer := n
      queue := q, queueTotalSize := t.queueTotalSize
      pullAgain := t.pullAgain, pulling := t.pulling, pullPending := t.pullPending
      pulls := t.pulls, settled := s.settled ++ [(s.nextRequest, .chunk v)] }) :
    Keeps s calm fair t := by
  refine ⟨ht, fun _ _ rs hrs => ?_, fun _ _ => ?_, fun hst => by rwa [hframe] at hst⟩
  · rw [hframe] at hrs
    simp [hr] at hrs
  · have hissue := Channel.Step.issue s.channel
    have hdeliver := @Channel.Step.deliver _
      { s.channel with waiting := s.channel.waiting ++ [s.channel.next]
                       next := s.channel.next + 1 }
      s.nextRequest [] d.filled (queueBytes q)
      (by simp [channel, hr, Reader.requests]) (by simp [channel, hp, hfill])
    refine .tail (.single hissue) ?_
    rw [hframe]
    simpa [channel, hr, hp, hv, Reader.requests] using hdeliver

/-- Appending the descriptor adds the request. -/
private theorem appendPullInto_eq {d : PullIntoDescriptor} {rs : List ℕ} {r : ℕ} {env : Env}
    (hs : s.state ≠ .errored) (hr : s.reader = some (.byob rs)) :
    s.appendPullInto env d r = .ok { s with
      pendingPullIntos := s.pendingPullIntos ++ [d], reader := some (.byob (rs ++ [r])) } := by
  have hstate : s.state = .readable ∨ s.state = .closed := by
    rcases s.state.cases_of with hs' | hs' | hs' <;> simp_all
  simp only [appendPullInto, addReadIntoRequest, hr]
  rw [Env.assert_of (by simpa using hstate)]
  rfl

/-- **Serving a BYOB read.** -/
private theorem servePullInto_keeps {d : PullIntoDescriptor} {rs : List ℕ} {b : Bool} {n : ℕ}
    (h : ByteInv s) (hs : s.state ≠ .errored) (hr : s.reader = some (.byob rs)) (hd : d.Pending)
    (hf : d.Fresh) (hty : d.readerType = .byob) :
    (servePullInto (.quiet debug alloc)
      { s with nextRequest := s.nextRequest + 1, disturbed := b, nextBuffer := n } d
      s.nextRequest).Sat (Keeps s calm fair) Q E := by
  set u : ByteStream := { s with
    nextRequest := s.nextRequest + 1, disturbed := b, nextBuffer := n } with hu
  have hunfilled : d.filled = [] := by simp [PullIntoDescriptor.filled, hf.unfilled]
  -- the read waits, and nothing is queued
  have hwait (hzero : s.queueTotalSize = 0) :
      ∃ t, u.appendPullInto (.quiet debug alloc) d s.nextRequest = .ok t ∧ Keeps s calm fair t := by
    refine ⟨_, appendPullInto_eq hs hr, ?_⟩
    have hkeep := append_view calm fair (b := b) (n := n) h hs hr
      (fun hst => by
        by_contra hc
        have := h.phase.closing hst (by simpa using hc)
        omega) hd hf.live hty (.inr hf) h.queue.entries (h.queue.total ▸ hzero)
        (by simp [hunfilled])
    rwa [← h.queue.total] at hkeep
  unfold servePullInto
  -- other views wait before it
  by_cases hp : s.pendingPullIntos = []
  swap
  · rw [if_pos (by simpa [hu] using hp)]
    obtain ⟨t, heq, hkeep⟩ := hwait (h.phase.idle hp)
    rw [heq]
    exact hkeep
  rw [if_neg (by simpa [hu] using hp)]
  -- a closed stream gives an empty view back
  by_cases hclosed : s.state = .closed
  · rw [if_pos (by exact hclosed), ArrayBufferView.construct_eq_some _ _ _ hf.live
      (by rw [← hd.elementSize]; exact hd.aligned)
      (by have := hd.region_le; simp [ArrayBuffer.byteLength, hf.live]; omega)]
    exact Keeps.skip _ _ h (o := .close _) rfl
  rw [if_neg (by exact hclosed)]
  have hread : s.state = .readable := by
    rcases s.state.cases_of with hs' | hs' | hs'
    · exact absurd hs' hclosed
    · exact absurd hs' hs
    · exact hs'
  by_cases hpos : 0 < s.queueTotalSize
  swap
  · rw [if_neg (by exact hpos)]
    obtain ⟨t, heq, hkeep⟩ := hwait (by omega)
    rw [heq]
    exact hkeep.pull
  -- bytes are queued, so no other read waits
  rw [if_pos (by exact hpos)]
  have hview := h.view_eq_none hp
  have hnil : rs = [] := by
    have hreader := h.reader
    rw [hr, hp] at hreader
    exact List.length_eq_zero_iff.mp (hreader.2.1 hs).symm
  obtain ⟨ready, d', q, heq, hpost⟩ := fillPullIntoDescriptorFromQueue_spec _
    (s := u) hd hf.live h.queue hpos hview
  have hbytes : d'.filled ++ queueBytes q = queueBytes s.queue := by
    simpa [hunfilled] using hpost.bytes
  rw [heq]
  simp only [Outcome.ok_bind]
  cases ready with
  | true =>
    -- the view is handed out at once
    subst hnil
    obtain ⟨v, hv, hvbytes⟩ := convertPullIntoDescriptor_spec (.quiet debug alloc)
      (s := { u with queue := q, queueTotalSize := queueSize q }) (hpost.isReady rfl)
    simp only [if_true, hv, Outcome.infallible_ok, Outcome.ok_bind, handleQueueDrain]
    rw [Env.assert_of (by simpa using hread), Outcome.ok_bind]
    by_cases hend : queueSize q = 0 ∧ s.closeRequested = true
    · obtain ⟨l, hclose⟩ := streamClose_quiet debug alloc
        (s := clearAlgorithms { u with
          queue := q, queueTotalSize := queueSize q, nextBuffer := n + 1 }) hread
      simp only [clearAlgorithms, hu] at hclose
      rw [if_pos (by exact hend)]
      simp only [clearAlgorithms, hu, hclose, Outcome.ok_bind, settle_quiet, Outcome.sat_ok]
      refine .of_ended ⟨⟨hpost.entries, rfl⟩, h.pending, h.view, ?_, ?_, h.pull, h.auto⟩ (by simp)
      · simp [hr, hp, ReaderOk]
      · exact ⟨fun hne => absurd hp hne, by simp, fun _ => hend.1, by simp [hp], by simp⟩
    · obtain ⟨a, c, p, m, hcall, hpull⟩ := callPullIfNeeded_quiet debug alloc
        (s := { u with queue := q, queueTotalSize := queueSize q, nextBuffer := n + 1 }) h.pull
      rw [if_neg (by exact hend)]
      simp only [hu] at hcall
      simp only [hu, hcall, Outcome.ok_bind, settle_quiet, Outcome.sat_ok]
      refine take_view (b := b) (n := n + 1) hr hp hbytes hvbytes ⟨⟨hpost.entries, rfl⟩, h.pending,
        h.view, h.reader, ?_, hpull, h.auto⟩ rfl
      refine ⟨fun hne => absurd hp hne, fun _ hc => ?_, fun hne => absurd hread hne, ?_, ?_⟩
      · exact Nat.pos_of_ne_zero fun hz => hend ⟨hz, hc⟩
      · simp [hread]
      · simp [hread]
  | false =>
    -- the queue is drained, and the view waits for more
    obtain ⟨hd', hlive', hzero⟩ := hpost.isPending rfl
    simp only [Bool.false_eq_true, if_false]
    by_cases hclose : s.closeRequested = true
    · rw [if_pos (by exact hclose)]
      obtain ⟨t, herr, hinv, ht, -⟩ := controllerError_quiet debug alloc
        (s := { u with queue := q, queueTotalSize := queueSize q })
        (.typeError "Insufficient bytes to fill the requested view") hread h.pull h.auto
      simp only [herr, Outcome.ok_bind, settle_quiet, Outcome.sat_ok]
      exact .of_ended ⟨hinv.queue, hinv.pending, hinv.view, hinv.reader, hinv.phase, hinv.pull,
        hinv.auto⟩ (by simp [ht])
    · rw [if_neg (by exact hclose), appendPullInto_eq
        (s := { u with queue := q, queueTotalSize := queueSize q }) hs hr, Outcome.ok_bind]
      have hkeep := append_view calm fair (b := b) (n := n) h hs hr
        (fun _ => by simpa using hclose) hd' hlive' (hpost.reader.trans hty) (.inl ⟨hp, hread⟩)
        hpost.entries hzero hbytes
      exact hkeep.pull

/-- **A BYOB read keeps the stream as it should be.** -/
theorem jsReadInto_keeps (h : ByteInv s) (view : ArrayBufferView) (min : ℕ) :
    (s.jsReadInto (.quiet debug alloc) view min).Sat (Keeps s calm fair) (Keeps s calm fair) E := by
  unfold jsReadInto
  split_ifs with h1 h2 h3 h4 h5 h6 h7
  · exact .refl h
  · exact .refl h
  · exact .refl h
  · exact .refl h
  · exact .refl h
  · exact .refl h
  swap
  · exact .refl h
  obtain ⟨rs, hr⟩ : ∃ rs, s.reader = some (.byob rs) := by
    rcases hr : s.reader with _ | rs | rs <;> simp_all [hasByobReader, readIntoRequests]
  have hpos : 0 < view.byteLength := Nat.pos_of_ne_zero h1
  have hle : min * view.viewKind.elementSize ≤ view.byteLength := by
    rcases hk : view.viewKind.isTypedArray with _ | _
    · have hkind : view.viewKind.elementSize = 1 := by
        cases hv : view.viewKind <;> simp_all [ViewKind.isTypedArray, ViewKind.elementSize]
      rw [hkind, Nat.mul_one]
      simpa [hk] using h6
    · exact Nat.mul_le_mul_right _ (by simpa [hk] using h5)
  unfold byobReaderRead
  by_cases herr : s.state = .errored
  · rw [if_pos (by exact herr)]
    exact Keeps.skip _ _ h (o := .error _) rfl
  rw [if_neg (by exact herr), controllerPullInto, Env.assert_of (by simpa using hle),
    Outcome.ok_bind, Env.assert_of (by simp), Outcome.ok_bind]
  simp only [issue]
  cases htr : view.buffer.transfer s.nextBuffer with
  | none => exact Keeps.skip _ _ h (o := .error .engine) rfl
  | some buffer =>
    obtain ⟨-, rfl⟩ := ArrayBuffer.transfer_eq_some htr
    obtain ⟨hpending, hfresh⟩ := viewDescriptor_ok hpos
      (Nat.pos_of_ne_zero h4) hle
    exact servePullInto_keeps h herr hr hpending hfresh rfl

/-! ### The lock -/

/-- **Releasing the reader**: the first descriptor loses its reader, and the requests are
dropped. -/
theorem readerRelease_keeps (h : ByteInv s) :
    (s.readerRelease (.quiet debug alloc)).Sat (Keeps s calm fair) Q E := by
  have hpost (l : List (ℕ × Settlement)) (hl : chunkLog l = []) (rd : List Reader) :
      Keeps s calm fair { s.byteReleaseSteps with
        reader := none, released := rd, settled := s.byteReleaseSteps.settled ++ l } := by
    have habandon := Channel.Step.abandon s.channel
    unfold byteReleaseSteps
    rcases hp : s.pendingPullIntos with _ | ⟨d, ds⟩
    · refine ⟨⟨h.queue, h.pending, h.view, by simp [ReaderOk, hp], h.phase, h.pull, h.auto⟩,
        fun _ _ rs hrs => by simp at hrs, fun _ _ => .single ?_, id⟩
      simpa [channel, hl] using habandon
    · have hok := h.pending
      rw [hp] at hok
      obtain ⟨hd, -, -⟩ := hok.of_cons
      have hview := h.view
      have hphase := h.phase
      rw [hp] at hview hphase
      refine ⟨⟨h.queue, .cons ⟨hd.toOk.congr rfl rfl rfl rfl rfl rfl rfl hd.detachable (by simp),
        hd.short⟩ (by simp) (by simp), ⟨fun v hv => ?_, fun e he hdet => ?_⟩, by simp [ReaderOk],
        ⟨fun _ => hphase.idle (by simp), hphase.closing, hphase.ended, fun hst e he => ?_,
          fun he => by simpa using hphase.errored he⟩, h.pull, h.auto⟩,
        fun _ _ rs hrs => by simp at hrs, fun _ _ => .single ?_, id⟩
      · obtain ⟨e, he, hv'⟩ := hview.region v hv
        obtain rfl : d = e := by simpa using he
        exact ⟨_, rfl, hv'⟩
      · obtain rfl : { d with readerType := .none } = e := by simpa using he
        exact hview.detached d rfl hdet
      · obtain rfl : e = { d with readerType := .none } := by simpa using he
        exact hphase.closed hst d (by simp)
      · have hcontent : filledBytes [{ d with readerType := .none }] = filledBytes (d :: ds) := by
          rw [hok.filledBytes_cons, filledBytes_cons, filledBytes_nil, List.append_nil]
          rfl
        simpa [channel, hl, hp, hcontent] using habandon
  unfold readerRelease
  rcases hr : s.reader with _ | rs | rs
  · exact Keeps.refl h
  · simp only [settleRequestSnapshot_quiet, Outcome.sat_ok]
    exact hpost _ (chunkLog_error rs _) _
  · simp only [settleRequestSnapshot_quiet, Outcome.sat_ok]
    exact hpost _ (chunkLog_error rs _) _

/-- **Acquiring a reader** of either kind. -/
theorem acquire_keeps (h : ByteInv s) {reader : Reader}
    (hreader : reader = .default [] ∨ reader = .byob []) :
    (s.acquire reader).Sat (Keeps s calm fair) (Keeps s calm fair) E := by
  unfold acquire
  split_ifs with hlock
  · exact .refl h
  have hr : s.reader = none := by simpa using hlock
  have hok := h.reader
  rw [hr] at hok
  have htypes {ty : ReaderType} (hty : ty ≠ .none) :
      (∀ d ∈ s.pendingPullIntos, d.readerType ≠ ty) ∧ countType ty s.pendingPullIntos = 0 := by
    have hne : ∀ d ∈ s.pendingPullIntos, d.readerType ≠ ty := fun d hd => by
      rw [hok d hd]
      exact hty.symm
    exact ⟨hne, List.countP_eq_zero.mpr fun d hd => by simpa using hne d hd⟩
  have hidle : reader.requests = [] := by rcases hreader with rfl | rfl <;> rfl
  refine ⟨⟨h.queue, h.pending, h.view, ?_, h.phase, h.pull, h.auto⟩, fun _ _ rs hrs hne => ?_,
    fun _ _ => ?_, id⟩
  · rcases hreader with rfl | rfl
    · exact ⟨(htypes (by simp)).1, fun _ => by simp [(@htypes .default (by simp)).2],
        fun _ => rfl⟩
    · exact ⟨(htypes (by simp)).1, fun _ => (htypes (by simp)).2, fun _ => rfl⟩
  · rcases hreader with rfl | rfl
    · simp only [Option.some.injEq, Reader.default.injEq] at hrs
      exact absurd hrs.symm hne
    · simp at hrs
  · simp only [channel, hr, Option.map_none, Option.getD_none, Option.map_some, Option.getD_some,
      hidle]
    exact .refl

/-! ### Ending the stream -/

/-- **Cancelling the stream.** -/
theorem streamCancel_keeps (h : ByteInv s) :
    (s.streamCancel (.quiet debug alloc)).Sat (Keeps s calm fair) Q E := by
  unfold streamCancel
  by_cases hs : s.state = .readable
  swap
  · rw [if_pos (by exact hs)]
    exact .of_ended ⟨h.queue, h.pending, h.view, h.reader, h.phase, h.pull, h.auto⟩ (by exact hs)
  rw [if_neg (by simpa using hs)]
  obtain ⟨l, heq⟩ := streamClose_quiet _ _
    (s := { s with disturbed := true }) hs
  rw [heq, Outcome.ok_bind]
  have hended {t : ByteStream} (ht : t.state = .closed) (hauto : t.autoAllocateChunkSize
      = s.autoAllocateChunkSize) (hreader : ReaderOk .closed t.autoAllocateChunkSize t.reader [])
      (hpull : PullOk t.startPromise t.started t.pulling t.pullAgain t.pullPending) :
      (t.byteCancelSteps (.quiet debug alloc)).Sat (Keeps s calm fair) Q E := by
    have hkeep : Keeps s calm fair t.clearPendingPullIntos.resetByteQueue.clearAlgorithms := by
      refine .of_ended ⟨.nil, .nil, .nil, ?_, ?_, hpull, ?_⟩ ?_
      · change ReaderOk t.state t.autoAllocateChunkSize t.reader []
        rw [ht]
        exact hreader
      · change PhaseOk t.state t.closeRequested 0 []
        rw [ht]
        exact ⟨fun _ => rfl, by simp, fun _ => rfl, by simp, by simp⟩
      · change ∀ n, t.autoAllocateChunkSize = some n → 0 < n
        rw [hauto]
        exact h.auto
      · change t.state ≠ .readable
        simp [ht]
    have hsteps : t.byteCancelSteps (.quiet debug alloc)
        = .ok t.clearPendingPullIntos.resetByteQueue.clearAlgorithms := by
      unfold byteCancelSteps
      by_cases halg : t.clearPendingPullIntos.resetByteQueue.algorithms = true
      · simp only [halg, if_true]
        rfl
      · simp only [halg]
        rfl
    rw [hsteps]
    exact hkeep
  rcases hr : s.reader with _ | rs | rs
  · exact hended rfl rfl (by simp [ReaderOk]) h.pull
  · exact hended rfl rfl (by simp [ReaderOk]) h.pull
  · simp only [settleRequestSnapshot_quiet, Outcome.ok_bind]
    exact hended rfl rfl (by simp [ReaderOk]) h.pull

/-- **Closing the controller.** -/
theorem jsClose_keeps (h : ByteInv s) :
    (s.jsClose (.quiet debug alloc)).Sat (Keeps s calm fair) (Keeps s calm fair) E := by
  unfold jsClose
  split_ifs with h1 h2
  · exact .refl h
  · exact .refl h
  have hs : s.state = .readable := by simpa using h2
  have hclose : s.closeRequested = false := by simpa using h1
  rw [controllerClose, if_neg (by simp [hs, hclose])]
  split_ifs with htotal hpartial
  · -- bytes are queued: the stream closes when they are read
    refine ⟨⟨h.queue, h.pending, h.view, h.reader, ?_, h.pull, h.auto⟩, fun _ => id,
      fun _ _ => .refl, id⟩
    exact ⟨h.phase.idle, fun _ _ => htotal, h.phase.ended, h.phase.closed, h.phase.errored⟩
  · -- an element is half filled: the stream errors
    obtain ⟨t, heq, hinv, ht, -⟩ := controllerError_quiet debug alloc
      (.typeError "Insufficient bytes to fill the pending pull-into") hs h.pull h.auto
    simp only [heq, Outcome.ok_bind, Outcome.sat_threw]
    exact .of_ended hinv (by simp [ht])
  · have hzero : s.queueTotalSize = 0 := by omega
    obtain ⟨l, heq⟩ := streamClose_quiet _ _ (s := s.clearAlgorithms)
      hs
    rw [heq]
    refine .of_ended ⟨h.queue, h.pending, h.view, ?_, ?_, h.pull, h.auto⟩ (by simp)
    · have hreader := h.reader
      rw [hs] at hreader
      rcases hr : s.reader with _ | rs | rs <;> simp only [hr] at hreader
      · simpa [clearAlgorithms, hr, ReaderOk] using hreader
      · simpa [clearAlgorithms, hr, ReaderOk] using hreader.1
      · simpa [clearAlgorithms, hr, ReaderOk] using ⟨hreader.1, hreader.2.1 (by simp)⟩
    · refine ⟨fun _ => hzero, by simp, fun _ => hzero, fun _ d hd => ?_, by simp⟩
      change d ∈ s.pendingPullIntos at hd
      have hok := h.pending
      rcases hp : s.pendingPullIntos with _ | ⟨e, es⟩
      · simp [hp] at hd
      · rw [hp] at hok hd
        rcases List.mem_cons.mp hd with rfl | hd
        · simpa [hp] using hpartial
        · rw [(hok.of_cons.2.2 d hd).unfilled, Nat.zero_mod]

/-! ### The `byobRequest` -/

/-- **The getter `byobRequest`** never fails. -/
theorem getByobRequest_keeps (h : ByteInv s) :
    s.getByobRequest.Sat (Keeps s calm fair) Q E := by
  unfold getByobRequest
  rcases hv : s.byobRequest with _ | v
  swap
  · exact .refl h
  rcases hp : s.pendingPullIntos with _ | ⟨d, ds⟩
  · exact .refl h
  have hok := h.pending
  rw [hp] at hok
  have hd := hok.of_cons.1
  have hlive : d.buffer.detached = false := by
    by_contra hdet
    exact h.view.detached d (by simp [hp]) (by simpa using hdet) hv
  have hlt := hd.lt_length
  have hregion := hd.region_le
  have hkeep : Keeps s calm fair { s with
      byobRequest := some ⟨d.buffer.id, d.byteOffset + d.bytesFilled,
        d.byteLength - d.bytesFilled⟩ } := by
    refine ⟨⟨h.queue, h.pending, ?_, h.reader, h.phase, h.pull, h.auto⟩, fun _ => id,
      fun _ _ => .refl, id⟩
    exact ⟨fun v hv' => ⟨d, by simp [hp], (Option.some.inj hv').symm⟩, by simp⟩
  simpa only [ArrayBufferView.construct_eq_some .uint8 (d.byteOffset + d.bytesFilled)
    (d.byteLength - d.bytesFilled) hlive (Nat.mod_one _)
    (by simp [ArrayBuffer.byteLength, hlive, ViewKind.elementSize]; omega), Outcome.pure_eq_ok,
    Outcome.sat_ok, hp, ArrayBufferView.byteLength, ViewKind.elementSize, Nat.mul_one] using hkeep

end WebStreams
