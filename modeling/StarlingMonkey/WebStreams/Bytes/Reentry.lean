import StarlingMonkey.WebStreams.Bytes.Commit
import StarlingMonkey.Lib.Ledger
import StarlingMonkey.Lib.Reentry

/-!
# Byte streams whose author code runs inside the operations

The source's `pull` and `cancel` and the steps of a read request run in the middle of an
operation, and may perform operations in turn. What survives that is smaller than `ByteInv`, but
enough to say what becomes of the reads and when the source is pulled:

* `Sound`: entries and descriptors lie inside their buffers, reads wait only with the reader of a
  readable stream, and the pull protocol is kept.
* `Legal δ s t`: what leads from `s` to `t` keeps the stream sound, and takes over the reads `δ`
  from its caller; with `δ = 0` this is what the code that is called out to must obey.

Every algorithm is legal as soon as the code it calls out to is.
-/

namespace WebStreams

open ByteStream Ledger

/-- The region of a descriptor lies inside its buffer. -/
structure PullIntoDescriptor.Fits (d : PullIntoDescriptor) : Prop where
  filled : d.bytesFilled ≤ d.byteLength
  bound : d.byteOffset + d.byteLength ≤ d.bufferByteLength
  buffer : d.buffer.data.length = d.bufferByteLength

/-- The requests that wait with the reader that holds the lock. -/
def ByteStream.waiting (s : ByteStream) : List ℕ := (s.reader.map Reader.requests).getD []

/-- The reads that were settled or wait, compared with those that were issued. -/
def ByteStream.ledger (s : ByteStream) : ℕ → ℤ :=
  balance s.nextRequest (s.settled.map Prod.fst) + bill s.waiting

/-- What a byte stream keeps true in the middle of its operations. -/
structure Sound (s : ByteStream) : Prop where
  entries : ∀ e ∈ s.queue, e.Ok
  fits : ∀ d ∈ s.pendingPullIntos, d.Fits
  idle : s.state ≠ .readable → s.readRequests.getD [] = []
  released : ∀ rd ∈ s.released, rd.requests = []
  pull : PullLog s.state s.startPromise s.started s.pulling s.pullAgain s.pullPending s.pulls

/-- The stream stays sound, and the reads `δ` join those it accounts for. -/
structure Legal (δ : ℕ → ℤ) (s t : ByteStream) : Prop where
  ledger : t.ledger = s.ledger + δ
  sound : Sound t
  grown : Grown s.pulls t.pulls

/-- What code that is called out to obeys. -/
def Obeys (s t : ByteStream) : Prop := Sound s → Legal 0 s t

/-- The code of the environment leads to related states only. -/
def Env.Within (R : ByteStream → ByteStream → Prop) (env : Env) : Prop :=
  (∀ s t, env.pull s = .ok t → R s t) ∧ (∀ s t, env.cancel s = .ok t → R s t) ∧
    ∀ r s t, env.steps r s = .ok t → R s t

variable {env : Env} {s t u : ByteStream} {δ δ' δ'' : ℕ → ℤ} {Q : ByteStream → Prop}
  {E : ByteAbort → Prop}

theorem Legal.refl (h : Sound s) : Legal 0 s s := ⟨(add_zero _).symm, h, .refl _⟩

theorem Legal.trans (h : Legal δ s t) (h' : Legal δ' t u) : Legal (δ + δ') s u :=
  ⟨by rw [h'.ledger, h.ledger, add_assoc], h'.sound, h.grown.trans h'.grown⟩

theorem Legal.trans_eq (h : Legal δ s t) (h' : Legal δ' t u) (he : δ + δ' = δ'') :
    Legal δ'' s u :=
  he ▸ h.trans h'

/-- A change that leaves the books alone. -/
theorem Sound.legal (ht : Sound t) (hl : t.ledger = s.ledger) (hp : t.pulls = s.pulls) :
    Legal 0 s t :=
  ⟨by rw [hl, add_zero], ht, hp ▸ .refl _⟩

/-- A change of the queue, the descriptors and what goes with them. -/
theorem Sound.store (h : Sound s) {q : List ByteQueueEntry} {n nb : ℕ}
    {ds : List PullIntoDescriptor} {b : Option ByobView} {bs : List UInt8} {dis alg cr : Bool}
    (hq : ∀ e ∈ q, e.Ok) (hd : ∀ d ∈ ds, d.Fits) :
    Legal 0 s { s with
      queue := q, queueTotalSize := n, pendingPullIntos := ds, byobRequest := b
      nextBuffer := nb, supplied := bs, disturbed := dis, algorithms := alg
      closeRequested := cr } :=
  Sound.legal ⟨hq, hd, h.idle, h.released, h.pull⟩ rfl rfl

theorem Obeys.refl (s : ByteStream) : Obeys s s := fun h => .refl h

theorem Obeys.trans (h : Obeys s t) (h' : Obeys t u) : Obeys s u := fun hs =>
  (h hs).trans_eq (h' (h hs).sound) (add_zero 0)

/-- A legal step, then a legal call. -/
theorem Legal.then {x : ByteOutcome ByteStream} (h : Legal δ s t)
    (hx : x.Sat (Legal δ' t) Q E) (he : δ + δ' = δ'') : x.Sat (Legal δ'' s) Q E :=
  hx.imp fun _ hu => h.trans_eq hu he

/-- A legal step, then a legal call that may throw. -/
theorem Legal.thenThrow {x : ByteOutcome ByteStream} (h : Legal 0 s t)
    (hx : x.Sat (Legal 0 t) (Legal 0 t) E) : x.Sat (Legal 0 s) (Legal 0 s) E :=
  hx.mono (fun _ hu => h.trans_eq hu (add_zero 0)) (fun _ hu => h.trans_eq hu (add_zero 0))
    fun _ => id

/-- Code that is called out to. -/
theorem callOut_legal {x : Except ByteAbort ByteStream} (h : Legal δ s t)
    (hx : ∀ u, x = .ok u → Obeys t u) :
    (callOut x).Sat (Legal δ s) (fun _ => False) fun _ => True := by
  cases x with
  | error p => trivial
  | ok u => exact h.trans_eq (hx u rfl h.sound) (add_zero δ)

@[simp] theorem sat_assert {c : Bool} {site : ByteSite} {P : Unit → Prop} :
    (env.assert c site).Sat P Q (fun _ => True) ↔ (env.debug = true → c = true → P ()) ∧
      (env.debug = false → P ()) := by
  unfold Env.assert
  cases env.debug <;> cases c <;> simp

/-- Whatever a debug assertion does, the call that follows it is legal. -/
theorem assert_then {α : Type} {c : Bool} {site : ByteSite} {x : ByteOutcome α} {P : α → Prop}
    (hx : x.Sat P Q fun _ => True) :
    (env.assert c site >>= fun _ => x).Sat P Q fun _ => True := by
  simp [hx]

/-! ### Requests -/

/-- Settling a read accounts for it. -/
theorem settle_legal (henv : env.Within Obeys) (h : Sound s) (r : ℕ) (o : Settlement) :
    (s.settle env r o).Sat (Legal (bill [r]) s) (fun _ => False) fun _ => True := by
  refine callOut_legal (t := { s with settled := s.settled ++ [(r, o)] }) ⟨?_, ⟨h.entries, h.fits,
    h.idle, h.released, h.pull⟩, .refl _⟩ fun u hu => henv.2.2 r _ u hu
  simp only [ledger, waiting, List.map_append, List.map_cons, List.map_nil, balance_append]
  abel

theorem settleRequestSnapshot_legal (henv : env.Within Obeys) (o : Settlement) (rs : List ℕ)
    (h : Sound s) : (settleRequestSnapshot env o s rs).Sat (Legal (bill rs) s) (fun _ => False)
      fun _ => True := by
  induction rs generalizing s with
  | nil => exact bill_nil ▸ Legal.refl h
  | cons r rs ih =>
    refine (settle_legal henv h r o).bind fun t ht => ht.then (ih ht.sound) ?_
    rw [bill_cons r rs]

/-- Taking the requests off a reader, which may end the stream. -/
theorem take_requests (rs : List ℕ) {rs' : List ℕ} (reader : Option Reader) {st : StreamState}
    {e : Option JsError} {p : Bool} (h : Sound s) (hw : s.waiting = rs ++ rs')
    (hr : (reader.map Reader.requests).getD [] = rs')
    (hd : st ≠ .readable → ∀ l, reader = some (.default l) → l = [])
    (hp : PullLog st s.startPromise s.started s.pulling s.pullAgain p s.pulls) :
    Legal (-bill rs) s { s with
      state := st, storedError := e, reader := reader, pullPending := p } := by
  refine ⟨?_, ⟨h.entries, h.fits, fun hs => ?_, h.released, hp⟩, .refl _⟩
  · simp only [ledger, waiting, hr]
    rw [show (s.reader.map Reader.requests).getD [] = rs ++ rs' from hw, bill_append]
    abel
  · rcases reader with _ | l | l
    · rfl
    · exact hd hs l rfl
    · rfl

/-- The requests left with a reader of an ended stream. -/
theorem idle_default {rs : List ℕ} (h : Sound s) (hs : s.state ≠ .readable)
    (hr : s.reader = some (.default rs)) : rs = [] := by
  simpa [readRequests, hr] using h.idle hs

/-- A read joins the waiting ones of a readable stream. -/
theorem addReadRequest_legal (h : Sound s) (hs : s.state = .readable) (r : ℕ) :
    (s.addReadRequest r).Sat (Legal (bill [r]) s) (fun _ => False) fun _ => True := by
  unfold addReadRequest
  rcases hr : s.reader with _ | rs | rs
  · trivial
  · refine ⟨?_, ⟨h.entries, h.fits, fun hne => absurd hs hne, h.released, h.pull⟩, .refl _⟩
    simp only [ledger, waiting, hr, Option.map_some, Option.getD_some, Reader.requests, bill_append]
    abel
  · trivial

theorem addReadIntoRequest_legal (h : Sound s) (r : ℕ) :
    (s.addReadIntoRequest env r).Sat (Legal (bill [r]) s) (fun _ => False) fun _ => True := by
  unfold addReadIntoRequest
  rcases hr : s.reader with _ | rs | rs
  · trivial
  · trivial
  · refine assert_then ⟨?_, ⟨h.entries, h.fits, fun _ => rfl, h.released, h.pull⟩, .refl _⟩
    simp only [ledger, waiting, hr, Option.map_some, Option.getD_some, Reader.requests, bill_append]
    abel

theorem fulfillReadRequest_legal (henv : env.Within Obeys) (h : Sound s) (v : ArrayBufferView)
    (done : Bool) :
    (s.fulfillReadRequest env v done).Sat (Legal 0 s) (fun _ => False) fun _ => True := by
  unfold fulfillReadRequest
  rcases hr : s.reader with _ | (_ | ⟨r, rs⟩) | rs
  · trivial
  · exact assert_then trivial
  · have htake := take_requests [r] (some (.default rs)) h
      (e := s.storedError) (by simp [waiting, hr, Reader.requests]) rfl
      (fun hs => absurd (idle_default h hs hr) (List.cons_ne_nil r rs)) h.pull
    exact htake.then (settle_legal henv htake.sound r _) (by abel)
  · trivial

theorem fulfillReadIntoRequest_legal (henv : env.Within Obeys) (h : Sound s) (v : ArrayBufferView)
    (done : Bool) :
    (s.fulfillReadIntoRequest env v done).Sat (Legal 0 s) (fun _ => False) fun _ => True := by
  unfold fulfillReadIntoRequest
  refine assert_then ?_
  rcases hr : s.reader with _ | rs | (_ | ⟨r, rs⟩)
  · trivial
  · trivial
  · exact assert_then trivial
  · have htake := take_requests [r] (some (.byob rs)) h
      (e := s.storedError) (by simp [waiting, hr, Reader.requests]) rfl (by simp)
      h.pull
    exact htake.then (settle_legal henv htake.sound r _) (by abel)

/-- The requests of a reader are taken off it and settled, which may end the stream. -/
theorem drain_requests (henv : env.Within Obeys) (h : Sound s) (o : Settlement)
    (rs : List ℕ) (reader : Option Reader) {st : StreamState} {e : Option JsError} {p : Bool}
    (hw : s.waiting = rs) (hr : (reader.map Reader.requests).getD [] = [])
    (hp : PullLog st s.startPromise s.started s.pulling s.pullAgain p s.pulls) :
    (settleRequestSnapshot env o { s with
      state := st, storedError := e, reader := reader, pullPending := p } rs).Sat (Legal 0 s)
        (fun _ => False) fun _ => True := by
  have htake := take_requests rs _ (e := e) h
    (by simp [hw]) hr (by rintro - l rfl; simpa [Reader.requests] using hr) hp
  exact htake.then (settleRequestSnapshot_legal henv o rs htake.sound) (by abel)

/-- A stream without read requests ends. -/
private theorem end_stream (h : Sound s) {reader : Option Reader} (hr : s.reader = reader)
    (hn : ∀ rs, reader ≠ some (.default rs)) {st : StreamState} {e : Option JsError} {p : Bool}
    (hp : PullLog st s.startPromise s.started s.pulling s.pullAgain p s.pulls) :
    Legal 0 s { s with state := st, storedError := e, reader := reader, pullPending := p } := by
  subst hr
  refine Sound.legal ⟨h.entries, h.fits, fun _ => ?_, h.released, hp⟩ rfl rfl
  unfold readRequests
  split
  · exact absurd ‹_› (hn _)
  · rfl

/-- Closing the stream settles the reads of a default reader. -/
theorem streamClose_legal (henv : env.Within Obeys) (h : Sound s) :
    (s.streamClose env).Sat (Legal 0 s) (fun _ => False) fun _ => True := by
  have hend :
      PullLog .closed s.startPromise s.started s.pulling s.pullAgain s.pullPending s.pulls :=
    h.pull.ended (by simp)
  unfold streamClose
  refine assert_then ?_
  rcases hr : s.reader with _ | rs | rs
  · exact end_stream h hr (by simp) hend
  · exact drain_requests henv h _ _ _ (by simp [waiting, hr, Reader.requests]) rfl hend
  · exact end_stream h hr (by simp) hend

/-- Erroring the stream settles the reads of either reader. It is also what follows a rejected
pull, whose promise is settled by then. -/
theorem streamError_legal (henv : env.Within Obeys) (h : Sound s) (e : JsError) {p : Bool}
    (hp : p = true → s.pullPending = true) :
    (streamError env { s with pullPending := p } e).Sat (Legal 0 s) (fun _ => False)
      fun _ => True := by
  have hend : PullLog .errored s.startPromise s.started s.pulling s.pullAgain p s.pulls :=
    (h.pull.ended (by simp)).settle (by simp) hp
  unfold streamError
  refine assert_then ?_
  rcases hr : s.reader with _ | rs | rs
  · exact end_stream h hr (by simp) hend
  · exact drain_requests henv h _ _ _ (by simp [waiting, hr, Reader.requests]) rfl hend
  · exact drain_requests henv h _ _ _ (by simp [waiting, hr, Reader.requests]) rfl hend

/-! ### Pulling, erroring, closing -/

/-- **Pulling.** The pull algorithm is invoked only when it may be, and a pull that is wanted while
one is in flight is deferred. -/
theorem callPullIfNeeded_legal (henv : env.Within Obeys) (h : Sound s) :
    (s.callPullIfNeeded env).Sat (fun t => Legal 0 s t ∧ (s.shouldCallPull = true →
      s.pulling = false → ∃ c l, t.pulls = s.pulls ++ .call c :: l)) (fun _ => False)
      fun _ => True := by
  have hpull := h.pull
  unfold callPullIfNeeded
  split_ifs with h1 h2
  · exact ⟨.refl h, fun hc => by simp [hc] at h1⟩
  · rw [h2] at hpull
    refine ⟨⟨(add_zero _).symm, ⟨h.entries, h.fits, h.idle, h.released, ?_⟩, .append _ (by simp)⟩,
      fun _ hc => by simp [h2] at hc⟩
    simpa [h2] using hpull.defer
  · obtain ⟨⟨⟨hs, hclose⟩, hstarted⟩, -⟩ : ((s.state = .readable ∧ s.closeRequested = false) ∧
        s.started = true) ∧ _ := by simpa [shouldCallPull] using h1
    rw [hs] at hpull
    have hcall := hpull.call hstarted (by simpa using h2)
    have hlegal : Legal 0 s { s with
        pulling := true, pullPending := true
        pulls := s.pulls ++
          [.call ⟨s.startPromise, s.pullPending, s.closeRequested, s.state⟩] } := by
      refine ⟨(add_zero _).symm, ⟨h.entries, h.fits, h.idle, h.released, ?_⟩, .append _ (by simp)⟩
      simpa [hs, hclose] using hcall
    refine assert_then ?_
    cases hu : env.pull { s with
        pulling := true, pullPending := true
        pulls := s.pulls ++
          [.call ⟨s.startPromise, s.pullPending, s.closeRequested, s.state⟩] } with
    | error p => trivial
    | ok u =>
      have hou := henv.1 _ u hu hlegal.sound
      refine ⟨hlegal.trans_eq hou (add_zero 0), fun _ _ => ?_⟩
      obtain ⟨l, hl, -⟩ := hou.grown
      exact ⟨_, l, hl.trans (List.append_assoc ..)⟩

theorem callPull_legal (henv : env.Within Obeys) (h : Sound s) :
    (s.callPullIfNeeded env).Sat (Legal 0 s) (fun _ => False) fun _ => True :=
  (callPullIfNeeded_legal henv h).imp fun _ => And.left

/-- Erroring the controller, also after a rejected pull. -/
theorem controllerError_settled (henv : env.Within Obeys) (h : Sound s) (e : JsError) {p : Bool}
    (hp : p = true → s.pullPending = true) :
    (controllerError env { s with pullPending := p } e).Sat (Legal 0 s) (fun _ => False)
      fun _ => True := by
  unfold controllerError
  split_ifs with hs
  · exact Sound.legal ⟨h.entries, h.fits, h.idle, h.released, h.pull.settle hs hp⟩ rfl rfl
  · have hclear : Legal 0 s s.clearPendingPullIntos.resetByteQueue.clearAlgorithms :=
      h.store (fun _ he => absurd he (List.not_mem_nil)) fun _ hd => absurd hd (List.not_mem_nil)
    exact hclear.then (streamError_legal henv hclear.sound e hp) (add_zero 0)

theorem controllerError_legal (henv : env.Within Obeys) (h : Sound s) (e : JsError) :
    (s.controllerError env e).Sat (Legal 0 s) (fun _ => False) fun _ => True :=
  controllerError_settled henv h e id

/-- Clearing the algorithms, then closing the stream. -/
private theorem finish_legal (henv : env.Within Obeys) (h : Sound s) :
    (streamClose env s.clearAlgorithms).Sat (Legal 0 s) (fun _ => False) fun _ => True := by
  have hclear : Legal 0 s s.clearAlgorithms := h.store h.entries h.fits
  exact hclear.then (streamClose_legal henv hclear.sound) (add_zero 0)

/-- Closing the controller. -/
theorem controllerClose_legal (henv : env.Within Obeys) (h : Sound s) :
    (s.controllerClose env).Sat (Legal 0 s) (Legal 0 s) fun _ => True := by
  unfold controllerClose
  split_ifs with h1 h2 h3
  · exact .refl h
  · exact h.store h.entries h.fits
  · exact (controllerError_legal henv h _).mayThrow.bind fun t ht => ht
  · exact (finish_legal henv h).mayThrow

/-- Draining the queue. -/
theorem handleQueueDrain_legal (henv : env.Within Obeys) (h : Sound s) :
    (s.handleQueueDrain env).Sat (Legal 0 s) (fun _ => False) fun _ => True := by
  unfold handleQueueDrain
  refine assert_then ?_
  split_ifs
  · exact finish_legal henv h
  · exact callPull_legal henv h

end WebStreams
