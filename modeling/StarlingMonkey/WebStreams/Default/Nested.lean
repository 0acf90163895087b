import StarlingMonkey.WebStreams.Default.Reentry

/-!
# The operations of a default stream are legal

One lemma for each algorithm of the controller, up to the operations of the JavaScript interfaces
and the promise reactions.
-/

namespace WebStreams

open Ledger

namespace DefaultStream

variable {χ F : Type} {calm quiet : Prop} {env : DefaultEnv χ F}
  {s t u : DefaultStream χ F} {a : Held χ F} {rs : List ℕ} {Q : DefaultStream χ F → Prop}

/-! ### Requests -/

/-- The next request of the line is settled. -/
theorem record_legal (h : Sound calm s) (r : ℕ) (o : ReadResult χ) (line : List ℕ) :
    Legal calm True ⟨s, r :: line, o.chunks⟩
      ⟨{ s with settled := s.settled ++ [(r, o)] }, line, []⟩ := by
  refine ⟨?_, ⟨h.idle, h.released, h.pull, h.drained⟩, .refl _, id, fun _ => ⟨[(r, o)], 0, [], [],
    rfl, rfl, by simp, by simp, by simp, by simp [QueueWithSizes.values], by simp, by simp⟩,
    by simp⟩
  simp only [Held.ledger, List.map_append, List.map_cons, List.map_nil, balance_append,
    bill_cons r line]
  abel

/-- Handing a chunk to the next request of the line. -/
theorem settle_chunk_legal (henv : Obedient calm env) (h : Sound calm s) (r : ℕ) (c : χ) :
    (s.settle env r (.chunk c)).Sat (fun t => Legal calm True ⟨s, r :: s.waiting, [c]⟩ t.held)
      Q fun _ => True := by
  have hrec := record_legal h r (.chunk c) s.waiting
  change (callOut (env.chunkSteps r c { s with settled := s.settled ++ [(r, .chunk c)] })).Sat
    _ _ _
  unfold callOut
  cases ht : env.chunkSteps r c { s with settled := s.settled ++ [(r, .chunk c)] } with
  | error p => trivial
  | ok t =>
    have hcode := henv.2.2.2.1 _ _ _ _ ht hrec.sound
    -- reads may be issued from the chunk steps, but one was in line before
    refine ⟨hcode.ledger.trans hrec.ledger, hcode.sound, hrec.grown.trans hcode.grown,
      hcode.alive ∘ hrec.alive, fun hc => ?_, by simp⟩
    obtain ⟨l, n, cs, dr, hf⟩ := hrec.flow hc
    obtain ⟨l', n', cs', dr', hf'⟩ := hcode.flow hc
    exact ⟨_, _, _, _, hf.trans hf' hcode.alive hrec.alive⟩

/-- Closing or erroring the next request of the line, while none waits with the stream. -/
theorem settle_end_legal (henv : Obedient calm env) (h : Sound calm s)
    (hw : calm → s.waiting = []) (r : ℕ) (rs : List ℕ) {o : ReadResult χ} (ho : o.chunks = []) :
    (s.settle env r o).Sat (fun t => Legal calm True ⟨s, r :: (rs ++ s.waiting), []⟩
      ⟨t, rs ++ t.waiting, []⟩ ∧ (calm → t.waiting = [])) Q fun _ => True := by
  have hrec := record_legal h r o (rs ++ s.waiting)
  rw [ho] at hrec
  have hcall : (s.settle env r o) = callOut (env.endSteps r
      { s with settled := s.settled ++ [(r, o)] }) := by
    cases o with
    | chunk c => simp [ReadResult.chunks] at ho
    | close => rfl
    | error e => rfl
  rw [hcall]
  unfold callOut
  cases ht : env.endSteps r { s with settled := s.settled ++ [(r, o)] } with
  | error p => trivial
  | ok t =>
    have hcode : Legal calm True _ t.held :=
      (henv.2.2.2.2 _ _ _ ht hrec.sound).weaken fun _ => rfl
    obtain ⟨hcarry, hnil⟩ := hcode.carry hw rs []
    exact ⟨hrec.trans hcarry, hnil⟩

/-- **Settling a snapshot** settles its requests in line. -/
theorem settleRequestSnapshot_legal (henv : Obedient calm env) {o : ReadResult χ}
    (ho : o.chunks = []) (rs : List ℕ) (h : Sound calm s) (hw : calm → s.waiting = []) :
    (settleRequestSnapshot env o s rs).Sat
      (fun t => Legal calm True ⟨s, rs ++ s.waiting, []⟩ t.held) Q fun _ => True := by
  induction rs generalizing s with
  | nil => exact Legal.refl (a := s.held) h
  | cons r rs ih =>
    exact (settle_end_legal henv h hw r rs ho).bind fun t ht =>
      ht.1.then (ih ht.1.sound ht.2)

/-- A read joins the waiting ones of a readable stream without chunks. -/
theorem addReadRequest_legal (h : Sound calm s) (hs : s.state = .readable) (hv : s.values = [])
    (r : ℕ) :
    (s.addReadRequest r).Sat (fun t => Legal calm True ⟨s, s.waiting ++ [r], []⟩ t.held)
      Q fun _ => True := by
  unfold addReadRequest
  rcases hr : s.reader with _ | rs
  · trivial
  · refine Sound.move [] [] ⟨fun hne => absurd hs hne, h.released, h.pull, fun _ _ => hv⟩ id ?_ ?_
      (by simp) (by simp) (fun _ => by simp) (by simp) (by simp) rfl rfl (.refl _)
    · simp [waiting, hr]
    · simp [waiting, hr]

/-- **A chunk that comes in is handed to the oldest waiting read.** -/
theorem fulfillReadRequest_legal (henv : Obedient calm env) (h : Sound calm s) (c : χ) :
    (fulfillReadRequest env { s with supplied := s.supplied ++ [c] } c).Sat
      (fun t => Legal calm True s.held t.held) Q fun _ => True := by
  unfold fulfillReadRequest
  dsimp only
  rcases hrd : s.reader with _ | _ | ⟨r, rs⟩
  · trivial
  · exact check_then trivial
  · have hw : s.waiting = r :: rs := by simp [waiting, hrd]
    have htake : Legal calm True s.held
        ⟨{ s with supplied := s.supplied ++ [c], reader := some rs }, r :: rs, [c]⟩ := by
      refine Sound.move [c] [] ⟨fun hs => ?_, h.released, h.pull,
        fun hc _ => h.drained hc (by simp [hw])⟩ id (by rw [hw]) (fun _ => hw.symm) rfl (by simp)
        (fun hc => ?_) (by simp) (fun hs => ?_) rfl rfl (.refl _)
      · exact absurd (h.idle hs) (by simp [hw])
      · have hv : s.values = [] := h.drained hc (by simp [hw])
        simp [hv]
      · exact absurd (h.idle hs) (by simp [hw])
    exact htake.then (settle_chunk_legal henv htake.sound r c)

/-- The stream ends, and the requests of its reader are next in line. What is discarded of the
queue is recorded. -/
private theorem end_stream (rd : Option (List ℕ)) (dr : List χ) (alg size cr : Bool)
    (h : Sound calm s) {st : StreamState} (hst : st ≠ .readable) {e : Option JsError}
    {q : QueueWithSizes χ F} {p : Bool} (hrd : rd.getD [] = []) (hq : s.values = dr ++ q.values)
    (hp : PullLog st s.startPromise s.started s.pulling s.pullAgain p s.pulls) :
    Legal calm True s.held ⟨{ s with
      toQueueWithSizes := q, state := st, storedError := e, reader := rd, pullPending := p
      algorithms := alg, sizeAlgorithm := size, closeRequested := cr
      dropped := s.dropped ++ dr }, s.waiting, []⟩ :=
  Sound.move [] dr ⟨fun _ => hrd, h.released, hp, fun _ hne => absurd hrd hne⟩ (fun _ => hst) rfl
    (fun _ => rfl) (by simp) rfl (fun _ => by simp [hq]) (fun _ => hst) (fun _ => rfl) rfl rfl
    (.refl _)

/-- **Closing the stream** settles the reads of its reader. -/
theorem streamClose_legal (henv : Obedient calm env) (h : Sound calm s) :
    (s.streamClose env).Sat (fun t => Legal calm True s.held t.held ∧ t.state ≠ .readable)
      Q fun _ => True := by
  have hpull : PullLog .closed s.startPromise s.started s.pulling s.pullAgain s.pullPending
    s.pulls := h.pull.ended (by simp)
  have hclosed : StreamState.closed ≠ .readable := by simp
  unfold streamClose
  refine check_then ?_
  rcases hr : s.reader with _ | rs
  · have hend := end_stream none [] s.algorithms s.sizeAlgorithm s.closeRequested
      (q := s.toQueueWithSizes) (e := s.storedError) h hclosed rfl (by simp) hpull
    simp only [waiting, hr, Option.getD_none, List.append_nil] at hend
    exact ⟨hend, hclosed⟩
  · have hend := end_stream (some []) [] s.algorithms s.sizeAlgorithm s.closeRequested
      (q := s.toQueueWithSizes) (e := s.storedError) h hclosed rfl (by simp) hpull
    simp only [waiting, hr, Option.getD_some, List.append_nil] at hend
    refine (settleRequestSnapshot_legal henv rfl rs hend.sound fun _ => rfl).imp fun t ht => ?_
    have ht' := ht
    simp only [waiting, Option.getD_some, List.append_nil] at ht'
    exact ⟨hend.trans ht', ht.alive hclosed⟩

/-- **Erroring the stream** settles the reads of its reader; the queue was discarded before. It is
also what follows a rejected pull, whose promise is settled by then. -/
private theorem streamError_legal [SizeNum F] (henv : Obedient calm env) (h : Sound calm s)
    (e : JsError) {p : Bool} (hp : p = true → s.pullPending = true) :
    (streamError env (clearAlgorithms (resetQueue { s with pullPending := p })) e).Sat
      (fun t => Legal calm True s.held t.held) Q fun _ => True := by
  have hpull : PullLog .errored s.startPromise s.started s.pulling s.pullAgain p s.pulls :=
    (h.pull.ended (by simp)).settle (by simp) hp
  have herrored : StreamState.errored ≠ .readable := by simp
  unfold streamError
  refine check_then ?_
  dsimp only [clearAlgorithms, resetQueue]
  rcases hr : s.reader with _ | rs
  · have hend := end_stream none s.values false false s.closeRequested (q := .reset) (e := some e)
      h herrored rfl (by simp) hpull
    simp only [waiting, hr, Option.getD_none] at hend
    exact hend
  · have hend := end_stream (some []) s.values false false s.closeRequested (q := .reset)
      (e := some e) h herrored rfl (by simp) hpull
    simp only [waiting, hr, Option.getD_some] at hend
    refine (settleRequestSnapshot_legal henv rfl rs hend.sound fun _ => rfl).imp fun t ht => ?_
    simp only [waiting, Option.getD_some, List.append_nil] at ht
    exact hend.trans ht

/-! ### Pulling, erroring, closing -/

/-- Clearing the algorithms. -/
theorem clearAlgorithms_legal (h : Sound calm s) (cr : Bool) :
    Legal calm True s.held (held (clearAlgorithms { s with closeRequested := cr })) :=
  Sound.same ⟨h.idle, h.released, h.pull, h.drained⟩ rfl rfl rfl rfl rfl rfl rfl (.refl _)

/-- Closing the controller. -/
theorem controllerClose_legal (henv : Obedient calm env) (h : Sound calm s) :
    (s.controllerClose env).Sat (fun t => Legal calm True s.held t.held) Q fun _ => True := by
  unfold controllerClose
  dsimp only
  split_ifs
  · exact .refl h
  · have hclear := clearAlgorithms_legal h true
    exact hclear.then ((streamClose_legal henv hclear.sound).imp fun _ => And.left)
  · exact Sound.same ⟨h.idle, h.released, h.pull, h.drained⟩ rfl rfl rfl rfl rfl rfl rfl (.refl _)

section Controller

variable [SizeNum F]

/-- **Pulling.** The pull algorithm is invoked only when it may be, and a pull that is wanted while
one is in flight is deferred. -/
theorem callPullIfNeeded_legal (henv : Obedient calm env) (h : Sound calm s) :
    (s.callPullIfNeeded env).Sat (fun t => Legal calm True s.held t.held ∧
      (s.shouldCallPull = true → s.pulling = false → ∃ c l, t.pulls = s.pulls ++ .call c :: l)) Q
      fun _ => True := by
  have hpull := h.pull
  unfold callPullIfNeeded
  split_ifs with h1 h2
  · exact ⟨.refl h, fun hc => by simp [hc] at h1⟩
  · rw [h2] at hpull
    refine ⟨Sound.pulled (.append _ (by simp))
      ⟨h.idle, h.released, by simpa [h2] using hpull.defer, h.drained⟩ rfl rfl rfl rfl rfl rfl rfl,
      fun _ hc => ?_⟩
    simp [h2] at hc
  · obtain ⟨⟨⟨hclose, hs⟩, hstarted⟩, -⟩ : ((s.closeRequested = false ∧ s.state = .readable) ∧
        s.started = true) ∧ _ := by simpa [shouldCallPull, canCloseOrEnqueue] using h1
    rw [hs] at hpull
    have hcall := hpull.call hstarted (by simpa using h2)
    have hlegal : Legal calm True s.held (held { s with
        pulling := true, pullPending := true
        pulls := s.pulls ++ [.call ⟨s.startPromise, s.pullPending, s.closeRequested, s.state⟩] }) :=
      Sound.pulled (.append _ (by simp))
        ⟨h.idle, h.released, by simpa [hs, hclose] using hcall, h.drained⟩
        rfl rfl rfl rfl rfl rfl rfl
    refine check_then ?_
    unfold callOut
    cases hu : env.pull { s with
        pulling := true, pullPending := true
        pulls := s.pulls ++
          [.call ⟨s.startPromise, s.pullPending, s.closeRequested, s.state⟩] } with
    | error p => trivial
    | ok u =>
      have hou : Legal calm True _ u.held := (henv.2.1 _ u hu hlegal.sound).weaken fun _ => rfl
      refine ⟨hlegal.trans hou, fun _ _ => ?_⟩
      obtain ⟨l, hl, -⟩ := hou.grown
      exact ⟨_, l, hl.trans (List.append_assoc ..)⟩

theorem callPull_legal (henv : Obedient calm env) (h : Sound calm s) :
    (s.callPullIfNeeded env).Sat (fun t => Legal calm True s.held t.held) Q fun _ => True :=
  (callPullIfNeeded_legal henv h).imp fun _ => And.left

/-- Erroring the controller, also after a rejected pull. -/
theorem controllerError_settled (henv : Obedient calm env) (h : Sound calm s) (e : JsError)
    {p : Bool} (hp : p = true → s.pullPending = true) :
    (controllerError env { s with pullPending := p } e).Sat
      (fun t => Legal calm True s.held t.held) Q fun _ => True := by
  unfold controllerError
  split_ifs with hs
  · exact Sound.same ⟨h.idle, h.released, h.pull.settle hs hp, h.drained⟩
      rfl rfl rfl rfl rfl rfl rfl (.refl _)
  · exact streamError_legal henv h e hp

theorem controllerError_legal (henv : Obedient calm env) (h : Sound calm s) (e : JsError) :
    (s.controllerError env e).Sat (fun t => Legal calm True s.held t.held) Q fun _ => True :=
  controllerError_settled henv h e id

theorem errorControllerWithPending_legal (henv : Obedient calm env) (h : Sound calm s)
    (e : JsError) :
    (s.errorControllerWithPending env e).Sat (fun t => Legal calm True s.held t.held)
      (fun t => Legal calm True s.held t.held) fun _ => True :=
  (controllerError_legal henv h e).bind fun _ ht => ht

/-! ### Enqueueing -/

/-- Asking the strategy for the size of a chunk. -/
theorem chunkSize_legal (henv : Obedient calm env) (h : Sound calm s) (c : χ) :
    (s.chunkSize env c).Sat (fun p => Legal calm True s.held p.2.held) Q fun _ => True := by
  unfold chunkSize
  split_ifs
  · unfold callOut
    cases hx : env.size c s with
    | error p => trivial
    | ok x => exact (henv.1 _ _ _ _ hx h).weaken fun _ => rfl
  · exact Legal.refl (a := s.held) h

/-- **A chunk is queued** while no read waits: none is issued from inside `size`. -/
theorem enqueueChunk_legal (henv : Obedient calm env) (h : Sound calm s)
    (hw : calm → s.waiting = []) (c : χ) :
    (s.enqueueChunk env c).Sat (fun t => Legal calm True s.held t.held)
      (fun t => Legal calm True s.held t.held) fun _ => True := by
  unfold enqueueChunk
  refine (chunkSize_legal henv h c).bind fun p hp => ?_
  obtain ⟨result, t⟩ := p
  have ht : Legal calm True s.held t.held := hp
  have hthrow (e : JsError) : (t.errorControllerWithPending env e).Sat
      (fun u => Legal calm True s.held u.held) (fun u => Legal calm True s.held u.held)
      fun _ => True :=
    (errorControllerWithPending_legal henv ht.sound e).mono (fun _ hu => ht.trans hu)
      (fun _ hu => ht.trans hu) fun _ => id
  dsimp only
  rcases result with e | size
  · exact hthrow e
  · rcases hq : t.enqueueValueWithSize c size with e | q
    · simpa only [hq] using hthrow e
    · have hwt := (ht.carry hw [] []).2
      have hvalues := QueueWithSizes.values_of_enqueue hq
      simp only [hq]
      refine ht.trans (Sound.move [c] [] ⟨ht.sound.idle, ht.sound.released, ht.sound.pull,
        fun hc hne => absurd (hwt hc) hne⟩ id rfl (fun _ => rfl) rfl (by simp) (fun _ => ?_)
        (by simp) (fun _ => rfl) rfl rfl (.refl _))
      simpa using hvalues.symm

/-- **Enqueueing a chunk.** -/
theorem controllerEnqueue_legal (henv : Obedient calm env) (h : Sound calm s) (c : χ) :
    (s.controllerEnqueue env c).Sat (fun t => Legal calm True s.held t.held)
      (fun t => Legal calm True s.held t.held) fun _ => True := by
  have hpull {t : DefaultStream χ F} (ht : Legal calm True s.held t.held) :
      (t.callPullIfNeeded env).Sat (fun t => Legal calm True s.held t.held)
        (fun t => Legal calm True s.held t.held) fun _ => True :=
    ht.then (callPull_legal henv ht.sound)
  unfold controllerEnqueue
  split_ifs with hopen hr
  · exact .refl h
  · exact (fulfillReadRequest_legal henv h c).bind fun t ht => hpull ht
  · refine (enqueueChunk_legal henv h (fun _ => ?_) c).bind fun t ht => hpull ht
    rcases hrd : s.reader with _ | _ | ⟨r, rs⟩
    · simp [waiting, hrd]
    · simp [waiting, hrd]
    · simp [hasReadRequests, hrd] at hr

/-! ### The operations of the consumer -/

/-- **A read of a readable stream** is served from the queue or waits. -/
theorem pullSteps_legal (henv : Obedient calm env) (h : Sound calm s) (hs : s.state = .readable)
    (r : ℕ) :
    (s.pullSteps env r).Sat (fun t => Legal calm True ⟨s, s.waiting ++ [r], []⟩ t.held) Q
      fun _ => True := by
  unfold pullSteps
  rcases hd : s.dequeueValue with _ | ⟨c, q⟩
  · have hv : s.values = [] := QueueWithSizes.dequeueValue_eq_none.mp hd
    exact (addReadRequest_legal h hs hv r).bind fun t ht => ht.then (callPull_legal henv ht.sound)
  · -- the chunk is in hand while the stream is closed or pulled
    have hvalues : s.values = c :: q.values := QueueWithSizes.values_of_dequeue hd
    have hw : calm → s.waiting = [] := fun hc => by
      by_contra hne
      simp [h.drained hc hne] at hvalues
    have htake : Legal calm True ⟨s, s.waiting ++ [r], []⟩
        ⟨{ s with toQueueWithSizes := q }, r :: s.waiting, [c]⟩ := by
      refine Sound.move [] [] ⟨h.idle, h.released, h.pull, fun hc hne => absurd (hw hc) hne⟩ id ?_
        (fun hc => by simp [hw hc]) (by simp) (by simp) (fun _ => by simpa using hvalues) (by simp)
        (fun hne => absurd hs hne) rfl rfl (.refl _)
      rw [bill_append, bill_cons r s.waiting, add_comm]
    have hserve {t : DefaultStream χ F}
        (ht : Legal calm True (held { s with toQueueWithSizes := q }) t.held) :
        (t.settle env r (.chunk c)).Sat
          (fun u => Legal calm True ⟨s, s.waiting ++ [r], []⟩ u.held) Q fun _ => True :=
      (htake.trans (ht.carry hw [r] [c]).1).then (settle_chunk_legal henv ht.sound r c)
    dsimp only
    split_ifs
    · have hclear := clearAlgorithms_legal htake.sound s.closeRequested
      exact (streamClose_legal henv hclear.sound).bind fun t ht => hserve (hclear.trans ht.1)
    · exact (callPull_legal henv htake.sound).bind fun t ht => hserve ht

/-- The queue of an ended stream is discarded. -/
theorem resetQueue_legal (h : Sound calm s) (hs : s.state ≠ .readable) :
    Legal calm True s.held s.resetQueue.held :=
  Sound.move [] s.values ⟨h.idle, h.released, h.pull, fun _ _ => rfl⟩ id rfl (fun _ => rfl)
    (List.append_nil _).symm rfl (fun _ => by simp [resetQueue]) (fun _ => hs) (fun _ => rfl)
    rfl rfl (.refl _)

/-- **Cancelling.** The queue of the closed stream is discarded, and the source is told. -/
theorem cancelSteps_legal (henv : Obedient calm env) (h : Sound calm s) (hs : s.state ≠ .readable) :
    (s.cancelSteps env).Sat (fun t => Legal calm True s.held t.held) Q fun _ => True := by
  have hreset := resetQueue_legal h hs
  have hfinish {t : DefaultStream χ F} (ht : Legal calm True s.held t.held) :
      Legal calm True s.held t.clearAlgorithms.held :=
    ht.trans (clearAlgorithms_legal ht.sound _)
  unfold cancelSteps
  dsimp only
  split_ifs
  · unfold callOut
    cases hu : env.cancel s.resetQueue with
    | error p => trivial
    | ok u =>
      exact hfinish (hreset.trans ((henv.2.2.1 _ _ hu hreset.sound).weaken fun _ => rfl))
  · exact hfinish hreset

theorem streamCancel_legal (henv : Obedient calm env) (h : Sound calm s) :
    (s.streamCancel env).Sat (fun t => Legal calm True s.held t.held) Q fun _ => True := by
  have hdist : Legal calm True s.held (held { s with disturbed := true }) :=
    Sound.same ⟨h.idle, h.released, h.pull, h.drained⟩ rfl rfl rfl rfl rfl rfl rfl (.refl _)
  unfold streamCancel
  dsimp only
  split_ifs
  · exact hdist
  · refine (streamClose_legal henv hdist.sound).bind fun t ht => ?_
    exact (hdist.trans ht.1).then (cancelSteps_legal henv ht.1.sound ht.2)

/-- **A read** is settled or waits. -/
theorem defaultReaderRead_legal (henv : Obedient calm env) (h : Sound calm s) (r : ℕ) :
    (s.defaultReaderRead env r).Sat (fun t => Legal calm True ⟨s, s.waiting ++ [r], []⟩ t.held) Q
      fun _ => True := by
  have hdist : Sound calm { s with disturbed := true } := ⟨h.idle, h.released, h.pull, h.drained⟩
  have hline : Legal calm True ⟨s, s.waiting ++ [r], []⟩
      ⟨{ s with disturbed := true }, s.waiting ++ [r], []⟩ :=
    hdist.move [] [] id rfl (fun _ => rfl) (by simp) (by simp) (fun _ => by simp) (by simp)
      (fun _ => rfl) rfl rfl (.refl _)
  have hend (hs : s.state ≠ .readable) {o : ReadResult χ} (ho : o.chunks = []) :
      (settle env { s with disturbed := true } r o).Sat
        (fun t => Legal calm True ⟨s, s.waiting ++ [r], []⟩ t.held) Q fun _ => True := by
    have hw : waiting { s with disturbed := true } = [] := h.idle hs
    have hsettle := settle_end_legal (Q := Q) henv hdist (fun _ => hw) r [] ho
    rw [hw] at hsettle
    rw [show s.waiting = [] from hw] at hline ⊢
    exact hsettle.imp fun t ht => hline.trans ht.1
  unfold defaultReaderRead
  dsimp only
  split
  · next hs => exact hend (by simp [hs]) rfl
  · next hs => exact hend (by simp [hs]) rfl
  · next hs => exact hline.then (pullSteps_legal henv hdist hs r)

end Controller

/-- **Releasing a reader** errors the reads that wait with it. -/
theorem readerRelease_legal (henv : Obedient calm env) (h : Sound calm s) :
    (s.readerRelease env).Sat (fun t => Legal calm True s.held t.held) Q fun _ => True := by
  unfold readerRelease
  rcases hr : s.reader with _ | rs
  · exact .refl h
  · have hlet : Legal calm True s.held
        ⟨{ s with reader := none, released := s.released ++ [[]] }, rs, []⟩ := by
      have hw : s.waiting = rs := by simp [waiting, hr]
      refine Sound.move [] [] ⟨fun _ => rfl, fun l hl => ?_, h.pull, fun _ hne => absurd rfl hne⟩ id
        (by rw [hw]) (fun _ => hw.symm) (by simp) (by simp) (fun _ => by simp) (by simp)
        (fun _ => rfl) rfl rfl (.refl _)
      rcases List.mem_append.mp hl with hl | hl
      · exact h.released l hl
      · exact List.mem_singleton.mp hl
    refine (settleRequestSnapshot_legal henv rfl rs hlet.sound fun _ => rfl).imp fun t ht => ?_
    simp only [waiting, Option.getD_none, List.append_nil] at ht
    exact hlet.trans ht

/-! ### The operations of the interfaces -/

/-- A read may be issued: it is in line from then on. -/
theorem issue_legal (h : Sound calm s) :
    Legal calm False s.held ⟨s.issue, s.waiting ++ [s.nextRequest], []⟩ := by
  refine ⟨?_, ⟨h.idle, h.released, h.pull, h.drained⟩, .refl _, id, fun _ => ⟨[], 1, [], [],
    by simp [held, issue], rfl, rfl, by simp [held, issue], by simp [held, issue],
    by simp [held, issue], by simp, fun _ => rfl⟩, False.elim⟩
  simp only [Held.ledger, held, issue, balance_succ, bill_append]
  abel

/-- **The operations are legal** as soon as the code they call out to is. Only `read` issues a
read. -/
theorem perform_legal [SizeNum F] (henv : Obedient calm env) (h : Sound calm s) (op : DefaultOp χ)
    (hop : quiet → calm → op ≠ .read) :
    (s.perform env op).Sat (fun t => Legal calm quiet s.held t.held)
      (fun t => Legal calm quiet s.held t.held) fun _ => True := by
  have hrefl : Legal calm quiet s.held s.held := .refl h
  have hquiet {x : DefaultOutcome χ F (DefaultStream χ F)}
      (hx : x.Sat (fun t => Legal calm True s.held t.held) (fun t => Legal calm True s.held t.held)
        fun _ => True) :
      x.Sat (fun t => Legal calm quiet s.held t.held) (fun t => Legal calm quiet s.held t.held)
        fun _ => True :=
    hx.mono (fun _ ht => ht.weaken fun _ => trivial) (fun _ ht => ht.weaken fun _ => trivial)
      fun _ => id
  cases op with
  | enqueue c =>
    simp only [perform]
    split_ifs
    · exact hquiet (controllerEnqueue_legal henv h c)
    · exact hrefl
  | close =>
    simp only [perform]
    split_ifs
    · exact hquiet (controllerClose_legal henv h)
    · exact hrefl
  | error e => exact hquiet (controllerError_legal henv h _)
  | read =>
    simp only [perform]
    split_ifs
    · have hissue := issue_legal h
      refine (defaultReaderRead_legal henv hissue.sound s.nextRequest).imp fun t ht => ?_
      exact (hissue.trans (ht.weaken False.elim)).reads fun hqc => hop hqc.1 hqc.2 rfl
    · exact hrefl
  | releaseLock => exact hquiet (readerRelease_legal henv h)
  | getReader =>
    simp only [perform]
    split_ifs with hr
    · exact hrefl
    · have hw : s.waiting = [] := by
        rw [Option.isSome_iff_ne_none, not_not] at hr
        simp [waiting, hr]
      exact hquiet (show Legal calm True s.held (held { s with reader := some [] }) from
        Sound.same ⟨fun _ => rfl, h.released, h.pull, fun _ hne => absurd rfl hne⟩ rfl hw.symm
          rfl rfl rfl rfl rfl (.refl _))
  | cancel => exact hquiet (streamCancel_legal henv h)

/-! ### Promise reactions -/

/-- The event fulfils a pull while another one is deferred. -/
def resuming (s : DefaultStream χ F) (e : DefaultEvent χ) : Prop :=
  e = .pullFulfilled ∧ s.pullPending = true ∧ s.pullAgain = true

/-- What one event does: reads stay accounted for, reads and chunks flow, and the pull protocol
goes on. -/
structure StepPost [SizeNum F] (calm : Prop) (s t : DefaultStream χ F) (e : DefaultEvent χ) :
    Prop where
  sound : Sound calm t
  ledger : t.held.ledger = s.held.ledger
  alive : s.state ≠ .readable → t.state ≠ .readable
  flow : calm → Flow s.held t.held
  pulls : PullProgress (s.resuming e)
    (shouldCallPull { s with pullPending := false, pulling := false }) s.pulls t.pulls

theorem Legal.post [SizeNum F] (h : Legal calm False s.held t.held) {e : DefaultEvent χ}
    (he : ¬ s.resuming e) : StepPost calm s t e :=
  ⟨h.sound, h.ledger, h.alive, h.flow, fun hr => absurd hr he, fun _ => h.grown⟩

/-- **One event.** -/
theorem step_post [SizeNum F] (henv : Obedient calm env) (h : Sound calm s)
    (e : DefaultEvent χ) :
    (step env s e).Sat (StepPost calm s · e) (StepPost calm s · e) fun _ => True := by
  have hpull := h.pull
  have hpost {x : DefaultOutcome χ F (DefaultStream χ F)} {e : DefaultEvent χ}
      (he : e ≠ .pullFulfilled) (hx : x.Sat (fun t => Legal calm False s.held t.held)
        (fun t => Legal calm False s.held t.held) fun _ => True) :
      x.Sat (StepPost calm s · e) (StepPost calm s · e) fun _ => True :=
    hx.mono (fun _ ht => ht.post fun hr => he hr.1) (fun _ ht => ht.post fun hr => he hr.1)
      fun _ => id
  have hnext {t : DefaultStream χ F} {x : DefaultOutcome χ F (DefaultStream χ F)}
      (ht : Legal calm True s.held t.held)
      (hx : x.Sat (fun u => Legal calm True t.held u.held)
        (fun u => Legal calm False s.held u.held) fun _ => True) :
      x.Sat (fun u => Legal calm False s.held u.held) (fun u => Legal calm False s.held u.held)
        fun _ => True :=
    hx.imp fun _ hu => (ht.trans hu).weaken False.elim
  cases e with
  | op op => exact hpost (by simp) (perform_legal henv h op fun hf => hf.elim)
  | startFulfilled =>
    refine hpost (by simp) ?_
    simp only [step]
    split_ifs with hstart
    · rw [hstart] at hpull
      have hs :
          Legal calm True s.held (held { s with startPromise := .fulfilled, started := true }) :=
        Sound.same ⟨h.idle, h.released, hpull.start_settled fun _ => rfl, h.drained⟩ rfl rfl rfl
          rfl rfl rfl rfl (.refl _)
      exact check_then (check_then (hnext hs (callPull_legal henv hs.sound)))
    · exact .refl h
  | startRejected e =>
    refine hpost (by simp) ?_
    simp only [step]
    split_ifs with hstart
    · rw [hstart] at hpull
      obtain ⟨hstarted, -, -⟩ := hpull.notStarted rfl
      have hs : Legal calm True s.held (held { s with startPromise := .rejected }) :=
        Sound.same ⟨h.idle, h.released, hpull.start_settled (by simp [hstarted]), h.drained⟩ rfl
          rfl rfl rfl rfl rfl rfl (.refl _)
      exact hnext hs (controllerError_legal henv hs.sound _)
    · exact .refl h
  | pullFulfilled =>
    simp only [step, pullPromiseFulfilled]
    split_ifs with hpending hagain
    · -- a deferred pull is resumed
      have hs : Sound calm { s with
          pullPending := false, pulling := false, pullAgain := false
          pulls := s.pulls ++ [.resumed] } := ⟨h.idle, h.released, hpull.resume, h.drained⟩
      refine (callPullIfNeeded_legal henv hs).mono (fun t ht => ?_)
        (fun _ => False.elim) fun _ => id
      obtain ⟨hlegal, hcall⟩ := ht
      refine ⟨hlegal.sound, hlegal.ledger, hlegal.alive, fun hc => ?_, fun _ => ?_,
        fun hr => absurd ⟨rfl, hpending, hagain⟩ hr⟩
      · obtain ⟨l, n, cs, dr, hf⟩ := hlegal.flow hc
        exact ⟨l, n, cs, dr, hf.settled, hf.next, hf.line, hf.supplied, hf.dropped, hf.goods,
          hf.drop, hf.ended⟩
      · obtain ⟨l, hl, -⟩ := hlegal.grown
        refine ⟨l, by simpa [held] using hl, fun hwant => ?_⟩
        obtain ⟨c, l', hl'⟩ := hcall hwant rfl
        exact ⟨c, l', by simpa [held] using hl.symm.trans hl'⟩
    · obtain hagain : s.pullAgain = false := by simpa using hagain
      rw [hagain] at hpull
      have hs : Legal calm True s.held (held { s with pullPending := false, pulling := false }) :=
        Sound.same ⟨h.idle, h.released, by simpa [hagain] using hpull.fulfil, h.drained⟩ rfl rfl
          rfl rfl rfl rfl rfl (.refl _)
      exact (hs.weaken False.elim).post (e := .pullFulfilled) (by simp [resuming, hagain])
    · exact Legal.post (.refl h) (by simp [resuming, hpending])
  | pullRejected e =>
    refine hpost (by simp) ?_
    simp only [step]
    split_ifs
    · exact (controllerError_settled henv h _ (by simp)).imp fun _ ht => ht.weaken False.elim
    · exact .refl h

end DefaultStream

end WebStreams
