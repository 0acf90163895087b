import StarlingMonkey.WebStreams.Writable.Author

/-!
# What a writable stream tells its writer

The backpressure of a stream and the two promises of a writer. `readyOf` and `closedOf` read off the
state of the stream what the promises of its writer are, and `Signals` says that they are that.

Between two steps of an algorithm less is known: `SignalBase` leaves out the ready promise and the
backpressure, and `SignalReady` only the backpressure. A stream that starts erroring needs no more
than the former, since its ready promise is rejected or replaced.
-/

namespace WebStreams

namespace WritableStream

variable {χ F : Type}

/-! ### The promises of a writer -/

/-- The ready promise of a writer. A writer that held the lock while the stream was erroring keeps
its rejected promise when the sink's close succeeds after all. -/
def readyOf (s : WritableStream χ F) (w : Writer) : WriterPromise :=
  match s.state with
  | .writable => if !s.closeQueuedOrInFlight && s.backpressure then .pending else .fulfilled
  | .erroring | .errored => .rejected s.storedError
  | .closed =>
    if w.acquired ≠ .closed ∧ .erroring ∈ s.history then .rejected s.raised else .fulfilled

/-- The closed promise of a writer. A writer that was acquired before the stream was errored waits
for the sink's abort. -/
def closedOf (s : WritableStream χ F) (w : Writer) : WriterPromise :=
  match s.state with
  | .writable | .erroring => .pending
  | .closed => .fulfilled
  | .errored =>
    if w.acquired ≠ .errored ∧ (s.abortPending ≠ none ∨ s.hand ≠ []) then .pending
    else .rejected s.storedError

/-- What is kept of the promises even while the ready promise is not up to date. -/
structure SignalBase (s : WritableStream χ F) : Prop where
  closed : ∀ w, s.writer = some w → w.closed = s.closedOf w
  /-- A ready promise is settled once; so is a closed promise, unless the writer was acquired when
  the stream was errored already and the sink's abort was running. -/
  again : ∀ w, s.writer = some w ∨ w ∈ s.released → w.readyAgain = false ∧
    (w.closedAgain = true → w.acquired = .errored ∧ w.abortRunning = true)
  /-- The sink's abort does not start after the stream is errored. -/
  running : ∀ w, s.writer = some w → w.acquired = .errored → s.abortRunning = true →
    w.abortRunning = true
  released : ∀ w ∈ s.released,
    w.ready = .rejected releasedError ∧ w.closed = .rejected releasedError
  acquired : ∀ w, s.writer = some w → s.isLive = true →
    w.acquired ≠ .closed ∧ w.acquired ≠ .errored
  calm : s.state = .writable → .erroring ∉ s.history
  raised : s.state = .erroring → .erroring ∈ s.history ∧ s.raised = s.storedError

/-- What is kept of the promises. -/
structure SignalReady (s : WritableStream χ F) : Prop extends SignalBase s where
  ready : ∀ w, s.writer = some w → w.ready = s.readyOf w

/-- **What a writable stream tells its writer.** -/
structure Signals [SizeOrder F] (s : WritableStream χ F) : Prop extends SignalReady s where
  backpressure : s.state = .writable → s.closeQueuedOrInFlight = false →
    s.backpressure = s.getBackpressure

/-- Code that is called out to. -/
structure Attentive [SizeOrder F] (env : WritableEnv χ F) : Prop where
  obedient : Obedient env
  signals : CallingOut.Obeys (fun s : WritableStream χ F => s.Sound ∧ s.Signals)
    (fun _ _ => True) env

section Orders

variable [SizeOrder F] {env : WritableEnv χ F} {s t : WritableStream χ F}
  {Q : WritableStream χ F → Prop} {E : WritableAbort → Prop}

/-- Outside of the state "writable" the backpressure does not matter. -/
theorem SignalReady.signals (h : s.SignalReady) (hs : s.state ≠ .writable) : s.Signals :=
  { h with backpressure := fun hw => absurd hw hs }

theorem Attentive.obeys (henv : Attentive env) (h : s.Sound) (hsignals : s.Signals)
    (k : WritableCallback χ) : ∃ r t, env k s = .ok (r, t) ∧ Reaches s t ∧ t.Signals := by
  obtain ⟨r, t, heq, ht, hst⟩ := henv.obedient k s h
  obtain ⟨r', t', heq', ht', -⟩ := henv.signals k s ⟨h, hsignals⟩
  obtain ⟨rfl, rfl⟩ := Prod.mk.inj (Except.ok.inj (heq.symm.trans heq'))
  exact ⟨r, t, heq, ⟨ht, hst⟩, ht'.2⟩

theorem callOut_signals (henv : Attentive env) (h : s.Sound) (hsignals : s.Signals)
    (k : WritableCallback χ) :
    (callOut env k s).Sat (fun t => Reaches s t ∧ t.Signals) Q E := by
  obtain ⟨r, t, heq, ht⟩ := henv.obeys h hsignals k
  rw [callOut, heq]
  exact ht

/-! ### Erroring -/

omit [SizeOrder F] in
/-- The writer of a stream that is live has a closed promise that can be settled. -/
theorem SignalBase.settleClosed (h : s.SignalBase) (hlive : s.isLive = true) {w : Writer}
    (hw : s.writer = some w) (p : WriterPromise) : w.settleClosed p = { w with closed := p } := by
  have hclosed : w.closed = .pending := by
    rw [h.closed w hw, closedOf]
    cases hs : s.state with
    | writable | erroring => rfl
    | closed | errored => simp [isLive, hs] at hlive
  rw [Writer.settleClosed, if_pos hclosed]

/-- A stream that was erroring is errored. The writer's closed promise was rejected, or waits for
the sink's abort. -/
theorem SignalReady.toErrored (h : s.SignalReady) (hs : s.state = .erroring)
    (hstate : t.state = .errored) (hstored : t.storedError = s.storedError)
    (hreleased : t.released = s.released)
    (hwriter : t.writer = s.writer ∧ (t.abortPending ≠ none ∨ t.hand ≠ []) ∨
      t.writer = s.writer.map (fun w => w.settleClosed (.rejected s.storedError)) ∧
        t.abortPending = none ∧ t.hand = []) : t.Signals := by
  have hlive : s.isLive = true := by simp [isLive, hs]
  -- the writer is the one that the stream had, with its closed promise
  have hold (w : Writer) (hw : t.writer = some w) : ∃ w', s.writer = some w' ∧
      w = { w' with closed := t.closedOf w' } := by
    rcases hwriter with ⟨heq, hwait⟩ | ⟨heq, hpending, hhand⟩
    · rw [heq] at hw
      have hclosed : w.closed = t.closedOf w := by
        rw [h.closed w hw, closedOf, closedOf, hs, hstate]
        exact (if_pos ⟨(h.acquired w hw hlive).2, hwait⟩).symm
      exact ⟨w, hw, by rw [← hclosed]⟩
    · rw [heq] at hw
      obtain ⟨w', hw', rfl⟩ := Option.map_eq_some_iff.mp hw
      refine ⟨w', hw', ?_⟩
      rw [h.settleClosed hlive hw', closedOf, hstate]
      simp [hpending, hhand, hstored]
  refine SignalReady.signals ⟨⟨?_, ?_, ?_, ?_, ?_, ?_, ?_⟩, ?_⟩ (by rw [hstate]; rintro ⟨⟩)
  · intro w hw
    obtain ⟨w', -, rfl⟩ := hold w hw
    rfl
  · rintro w (hw | hw)
    · obtain ⟨w', hw', rfl⟩ := hold w hw
      exact h.again w' (.inl hw')
    · rw [hreleased] at hw
      exact h.again w (.inr hw)
  · intro w hw hacquired
    obtain ⟨w', hw', rfl⟩ := hold w hw
    exact absurd hacquired (h.acquired w' hw' hlive).2
  · rw [hreleased]
    exact h.released
  · intro w _ hno
    simp [isLive, hstate] at hno
  · intro hno
    rw [hstate] at hno
    cases hno
  · intro hno
    rw [hstate] at hno
    cases hno
  · intro w hw
    obtain ⟨w', hw', rfl⟩ := hold w hw
    have hready := h.ready w' hw'
    rw [readyOf, hs] at hready
    rw [readyOf, hstate, hstored]
    exact hready

/-- Performing an algorithm of the sink. -/
theorem invoke_signals (henv : Attentive env) (h : s.Sound) (hsignals : s.Signals)
    {r : SinkRecord χ} (hr : s.algorithms = true → (s.record r).Sound) (k : WritableCallback χ) :
    (s.invoke env r k).Sat (fun t => Reaches s t ∧ t.Signals) Q E := by
  rw [invoke]
  split
  next halg =>
    have hrecord : (s.record r).Signals := { hsignals with }
    exact (callOut_signals henv (hr halg) hrecord k).imp fun t ht =>
      ⟨.trans (steady_record s r) ht.1, ht.2⟩
  next => exact ⟨⟨h, .refl s⟩, hsignals⟩

theorem abortSteps_signals (henv : Attentive env) (h : s.Sound) (hsignals : s.Signals)
    (hs : s.state = .errored) (hr : s.algorithms = true → (s.record .abort).Sound)
    (reason : Option JsError) :
    (s.abortSteps env reason).Sat (fun t => Reaches s t ∧ t.Signals) Q E := by
  refine (invoke_signals henv h hsignals hr _).bind fun t ht => ?_
  have hst := (ht.1.2.errored hs).1
  have hclear : t.clearAlgorithms.Signals := { ht.2 with }
  refine ⟨⟨ht.1.1.clearAlgorithms ?_, ht.1.2.trans (steady_clearAlgorithms t)⟩, hclear⟩
  rw [hst]
  rintro ⟨⟩

/-- What waits for the sink's abort is handed to the reactions. -/
theorem SignalReady.abortPending (h : t.SignalReady) (hs : t.state = .errored) (hhand : t.hand ≠ [])
    (p : ℕ) (hand : List ℕ) : Signals { t with hand, abortPending := some p } := by
  refine SignalReady.signals { h with
    closed := fun w hw => ?_
    running := fun w hw hacquired _ => h.running w hw hacquired ?_ } (fun hw => ?_)
  · rw [h.closed w hw, closedOf, closedOf]
    simp [hs, hhand]
  · simp [abortRunning, hhand]
  · rw [show t.state = .writable from hw] at hs
    cases hs

/-- **The stream becomes errored**, and its writer is told. -/
theorem finishErroring_signals (henv : Attentive env) (h : s.Core) (hsignals : s.SignalReady)
    (hs : s.state = .erroring) (hwrite : s.inFlightWriteRequest = none)
    (hclose : s.inFlightCloseRequest = none) (hstarted : s.started = true) :
    (s.finishErroring env).Sat (fun t => t.Signals) Q E := by
  have hne : s.state ≠ .errored := by
    rw [hs]
    rintro ⟨⟩
  have hhand : s.hand = [] := by
    by_contra hne'
    exact hne (h.hand hne')
  have hpending : s.abortPending = none := by
    by_contra hne'
    exact hne (h.abortPending hne').1
  rw [finishErroring, check_bind (by simp [hs]),
    check_bind (by simp [hasOperationMarkedInFlight, hwrite, hclose])]
  dsimp only
  cases hr : s.pendingAbortRequest with
  | none =>
    simp only [moveTo, errorSteps, rejectWriteRequests, hr]
    rw [rejectClose_eq]
    rotate_left
    · rfl
    · exact hclose
    exact hsignals.toErrored hs rfl rfl rfl (.inr ⟨rfl, hpending, hhand⟩)
  | some r =>
    by_cases hwas : r.wasAlreadyErroring = true
    · simp only [moveTo, errorSteps, rejectWriteRequests, settle, hr]
      rw [if_pos hwas, rejectClose_eq]
      rotate_left
      · rfl
      · exact hclose
      exact hsignals.toErrored hs rfl rfl rfl (.inr ⟨rfl, hpending, hhand⟩)
    · have hsound {u : WritableStream χ F} (hu : u.Core) (hst : u.state = .errored) : u.Sound :=
        ⟨hu, fun hw => by rw [hst] at hw; cases hw⟩
      obtain ⟨hunsettled, habort⟩ := h.settled hne hwrite hclose
      have hcore := h.toAborting hs hwrite hclose hstarted hr
      simp only [moveTo, errorSteps, rejectWriteRequests, hr, hhand]
      rw [if_neg hwas]
      refine (abortSteps_signals henv (hsound hcore rfl)
        (hsignals.toErrored hs rfl rfl rfl (.inl ⟨rfl, .inr (List.cons_ne_nil _ _)⟩)) rfl
        (fun _ => hsound (hcore.recordAbort rfl habort hunsettled) rfl) _).bind fun t ht => ?_
      have hthand : t.hand = [r.promise] := ht.1.2.hand
      exact ht.2.toSignalReady.abortPending (ht.1.2.errored rfl).1
        (by rw [hthand]; exact List.cons_ne_nil _ _) _ _

/-- **The stream starts erroring.** The ready promise is rejected, or replaced by one that is. -/
theorem startErroring_signals (henv : Attentive env) (h : s.Core) (hsignals : s.SignalBase)
    (hs : s.state = .writable) (reason : Option JsError) :
    (s.startErroring env reason).Sat (fun t => t.Signals) Q E := by
  have hlive : s.isLive = true := by simp [isLive, hs]
  have hready : (s.erring reason).SignalReady := by
    refine ⟨⟨?_, ?_, ?_, hsignals.released, ?_, by rintro ⟨⟩, fun _ => ⟨?_, rfl⟩⟩, ?_⟩
    · intro w hw
      obtain ⟨w', hw', rfl⟩ := Option.map_eq_some_iff.mp hw
      have hclosed := hsignals.closed w' hw'
      rw [closedOf, hs] at hclosed
      exact hclosed
    · rintro w (hw | hw)
      · obtain ⟨w', hw', rfl⟩ := Option.map_eq_some_iff.mp hw
        exact hsignals.again w' (.inl hw')
      · exact hsignals.again w (.inr hw)
    · intro w hw
      obtain ⟨w', hw', rfl⟩ := Option.map_eq_some_iff.mp hw
      exact hsignals.running w' hw'
    · intro w hw _
      obtain ⟨w', hw', rfl⟩ := Option.map_eq_some_iff.mp hw
      exact hsignals.acquired w' hw' hlive
    · exact List.mem_append_right _ (List.mem_singleton_self _)
    · intro w hw
      obtain ⟨w', hw', rfl⟩ := Option.map_eq_some_iff.mp hw
      rfl
  have heq : s.startErroring env reason =
      if !s.hasOperationMarkedInFlight && s.started then (s.erring reason).finishErroring env
      else .ok (s.erring reason) := by
    rw [startErroring, check_bind (by simp [h.stored hs]), check_bind (by simp [hs])]
    rfl
  rw [heq]
  split
  next hidle =>
    obtain ⟨⟨hwrite, hclose⟩, hstarted⟩ : (s.inFlightWriteRequest = none ∧
        s.inFlightCloseRequest = none) ∧ s.started = true := by
      simpa [hasOperationMarkedInFlight] using hidle
    exact finishErroring_signals henv (h.erring hs reason) hready rfl hwrite hclose hstarted
  next => exact hready.signals (by rintro ⟨⟩)

theorem controllerError_signals (henv : Attentive env) (h : s.Core) (hsignals : s.SignalBase)
    (hs : s.state = .writable) (error : Option JsError) :
    (s.controllerError env error).Sat (fun t => t.Signals) Q E := by
  rw [controllerError, check_bind (by simp [hs])]
  have hcore : s.clearAlgorithms.Core := { h with }
  have hclear : s.clearAlgorithms.SignalBase := { hsignals with }
  exact startErroring_signals henv hcore hclear hs error

theorem controllerErrorIfNeeded_signals (henv : Attentive env) (h : s.Core)
    (hsignals : s.SignalReady) (error : Option JsError) :
    (s.controllerErrorIfNeeded env error).Sat (fun t => t.Signals) Q E := by
  rw [controllerErrorIfNeeded]
  split
  next hw => exact controllerError_signals henv h hsignals.toSignalBase hw error
  next hw => exact hsignals.signals hw

/-- **A rejection of the sink.** -/
theorem dealWithRejection_signals (henv : Attentive env) (h : s.Core) (hlive : s.isLive = true)
    (hsignals : s.SignalBase) (hready : s.state = .erroring → s.SignalReady)
    (hwrite : s.inFlightWriteRequest = none) (hclose : s.inFlightCloseRequest = none)
    (hstarted : s.started = true) (error : Option JsError) :
    (s.dealWithRejection env error).Sat (fun t => t.Signals) Q E := by
  rw [dealWithRejection]
  split
  next hw => exact startErroring_signals henv h hsignals hw error
  next hw =>
    have hs : s.state = .erroring := by simpa [isLive, hw] using hlive
    rw [check_bind (by simp [hs])]
    exact finishErroring_signals henv h (hready hs) hs hwrite hclose hstarted

/-! ### The queue -/

theorem processWrite_signals (henv : Attentive env) (h : s.Sound) (hsignals : s.Signals)
    (hs : s.state = .writable) (hstarted : s.started = true)
    (hwrite : s.inFlightWriteRequest = none)
    (hclose : s.inFlightCloseRequest = none) {c : χ} {vs : List (QueueValue χ)}
    (hvalues : s.values = .chunk c :: vs) :
    (s.processWrite env c).Sat (fun t => t.Signals) Q E := by
  obtain ⟨p, ps, hrequests, heq⟩ := processWrite_eq env h hs hwrite hclose hvalues
  have hgiven := h.giveChunk hs hstarted hwrite hclose hrequests hvalues
  rw [heq]
  exact (callOut_signals henv hgiven { hsignals with } _).bind fun t ht => { ht.2 with }

theorem processClose_signals (henv : Attentive env) (h : s.Sound) (hsignals : s.Signals)
    (hs : s.state = .writable) (hstarted : s.started = true)
    (hwrite : s.inFlightWriteRequest = none)
    (hclose : s.inFlightCloseRequest = none) {vs : List (QueueValue χ)}
    (hvalues : s.values = .closeSentinel :: vs) :
    (s.processClose env).Sat (fun t => t.Signals) Q E := by
  obtain ⟨p, q, hrequest, hsentinel, hempty, heq⟩ :=
    processClose_eq env h hs hwrite hclose hvalues
  have hgiven := h.giveClose hs hstarted hwrite hclose hrequest hsentinel hempty
  rw [heq]
  -- the close was queued, and is in flight
  have hready (w : Writer) (hw : s.writer = some w) : w.ready = .fulfilled := by
    rw [hsignals.ready w hw, readyOf]
    simp [hs, closeQueuedOrInFlight, hrequest]
  refine (callOut_signals henv hgiven { hsignals with
    ready := fun w hw => ?_, backpressure := fun _ hno => ?_ } _).bind fun t ht => { ht.2 with }
  · rw [hready w hw, readyOf]
    simp [record, hs, closeQueuedOrInFlight]
  · simp [record, closeQueuedOrInFlight] at hno

/-- **Advancing the queue.** -/
theorem advanceQueueIfNeeded_signals (henv : Attentive env) (h : s.Sound) (hsignals : s.Signals)
    (hlive : s.isLive = true) (hclose : s.state = .erroring → s.inFlightCloseRequest = none) :
    (s.advanceQueueIfNeeded env).Sat (fun t => t.Signals) Q E := by
  rcases advanceQueueIfNeeded_cases env h hlive hclose with
    heq | ⟨hstarted, hwrite, hclose, ⟨hs, heq⟩ | ⟨hs, ⟨vs, hvalues, heq⟩ | ⟨c, vs, hvalues, heq⟩⟩⟩
  · rw [heq]
    exact hsignals
  · rw [heq]
    exact finishErroring_signals henv h.core hsignals.toSignalReady hs hwrite hclose hstarted
  · rw [heq]
    exact processClose_signals henv h hsignals hs hstarted hwrite hclose hvalues
  · rw [heq]
    exact processWrite_signals henv h hsignals hs hstarted hwrite hclose hvalues

/-! ### Writing -/

theorem getChunkSize_signals (henv : Attentive env) (h : s.Sound) (hsignals : s.Signals) {c : χ}
    (hlast : s.LastCall c) (hcalls : s.overtaken = false → ∃ l, s.calls = l ++ [c]) :
    (s.getChunkSize env c).Sat (fun p => p.2.Signals) Q E := by
  rw [getChunkSize]
  split
  next => exact hsignals
  next =>
    have hmeasure : Signals { s with measuring := s.measuring + 1 } := { hsignals with }
    obtain ⟨r, t, heq, ht, hsignals'⟩ :=
      henv.obeys (h.measure hlast hcalls) hmeasure (.size c)
    have hreach := (ht.measured hlast hcalls).1
    have hnext : Signals { t with measuring := t.measuring - 1 } := { hsignals' with }
    rw [heq, CallingOut.callOut, Outcome.ok_bind]
    dsimp only
    split
    next => exact hnext
    next e =>
      exact (controllerErrorIfNeeded_signals henv hreach.1.core hnext.toSignalReady _).bind
        fun u hu => hu

/-- The backpressure is brought up to date. A writer is told when it changes. -/
theorem SignalReady.refresh (h : s.SignalReady) (hs : s.state = .writable)
    (hopen : s.closeQueuedOrInFlight = false) :
    Signals { s with
      writer := s.writer.map fun w =>
        if s.getBackpressure ≠ s.backpressure then
          if s.getBackpressure then { w with ready := .pending } else w.settleReady .fulfilled
        else w
      backpressure := s.getBackpressure } := by
  have hready (w : Writer) (hw : s.writer = some w) :
      w.ready = if s.backpressure then .pending else .fulfilled := by
    rw [h.ready w hw, readyOf]
    simp [hs, hopen]
  -- the ready promise changes with the backpressure, and is settled once
  have hmap (w : Writer) (hw : s.writer = some w) :
      (if s.getBackpressure ≠ s.backpressure then
          if s.getBackpressure then { w with ready := .pending } else w.settleReady .fulfilled
        else w) =
      { w with ready := if s.getBackpressure then .pending else .fulfilled } := by
    have hw := hready w hw
    rcases w with ⟨number, ready, closed, acquired, abortRunning, readyAgain, closedAgain⟩
    cases hnew : s.getBackpressure <;> cases hold : s.backpressure <;>
      simp_all [Writer.settleReady]
  have hwriter (w : Writer) (hw : (s.writer.map fun w =>
      if s.getBackpressure ≠ s.backpressure then
        if s.getBackpressure then { w with ready := .pending } else w.settleReady .fulfilled
      else w) = some w) : ∃ w', s.writer = some w' ∧
      w = { w' with ready := if s.getBackpressure then .pending else .fulfilled } := by
    obtain ⟨w', hw', rfl⟩ := Option.map_eq_some_iff.mp hw
    exact ⟨w', hw', hmap w' hw'⟩
  refine ⟨⟨⟨?_, ?_, ?_, h.released, ?_, h.calm, h.raised⟩, ?_⟩, fun _ _ => rfl⟩
  · intro w hw
    obtain ⟨w', hw', rfl⟩ := hwriter w hw
    exact h.closed w' hw'
  · rintro w (hw | hw)
    · obtain ⟨w', hw', rfl⟩ := hwriter w hw
      exact h.again w' (.inl hw')
    · exact h.again w (.inr hw)
  · intro w hw
    obtain ⟨w', hw', rfl⟩ := hwriter w hw
    exact h.running w' hw'
  · intro w hw
    obtain ⟨w', hw', rfl⟩ := hwriter w hw
    exact h.acquired w' hw'
  · intro w hw
    obtain ⟨w', hw', rfl⟩ := hwriter w hw
    simp only [closeQueuedOrInFlight] at hopen
    simp [readyOf, hs, closeQueuedOrInFlight, hopen]

/-- The backpressure is brought up to date and the queue is advanced. -/
theorem refreshAndAdvance_signals (henv : Attentive env) (h : s.Sound) (hsignals : s.SignalReady)
    (hlive : s.isLive = true) (hclose : s.state = .erroring → s.inFlightCloseRequest = none) :
    (s.refreshAndAdvance env).Sat (fun t => t.Signals) Q E := by
  rw [refreshAndAdvance]
  dsimp only
  split
  next hc =>
    obtain ⟨hopen, hs⟩ : s.closeQueuedOrInFlight = false ∧ s.state = .writable := by
      simpa using hc
    rw [updateBackpressure_eq hs hopen s.getBackpressure, Outcome.ok_bind]
    exact advanceQueueIfNeeded_signals henv (writer_reaches h _ _ _ _).1 (hsignals.refresh hs hopen)
      hlive hclose
  next hc =>
    refine advanceQueueIfNeeded_signals henv h
      { hsignals with backpressure := fun hs hopen => absurd ?_ hc } hlive hclose
    simp [hs, hopen]

/-- **A request and its chunk.** -/
theorem controllerWrite_signals (henv : Attentive env) (h : s.Sound) (hsignals : s.Signals)
    (hs : s.state = .writable) (hclose : s.inFlightCloseRequest = none)
    (hrequest : s.closeRequest = none) {c : χ} (hlast : s.LastCall c) (size : F) :
    (s.request.controllerWrite env s.nextPromise c size).Sat (fun t => t.Signals) Q E := by
  rw [controllerWrite]
  split
  next e _ =>
    have hready : s.request.SignalReady := { hsignals with }
    exact controllerErrorIfNeeded_signals henv (h.core.request hs hclose) hready _
  next q hq =>
    have haccept := h.accept hs hclose hrequest hlast (QueueWithSizes.values_of_enqueue hq)
    have hready : SignalReady (record { s.request with toQueueWithSizes := q }
        (.accepted s.nextPromise c)) := { hsignals with }
    have hlive : s.isLive = true := by simp [isLive, hs]
    exact refreshAndAdvance_signals henv haccept hready hlive fun _ => hclose

/-- **Writing.** -/
theorem writerWrite_signals (henv : Attentive env) (h : s.Sound) (hsignals : s.Signals) (w : ℕ)
    {c : χ} (hlast : s.LastCall c) (hcalls : s.overtaken = false → ∃ l, s.calls = l ++ [c]) :
    (s.writerWrite env w c).Sat (fun t => t.Signals) Q E := by
  have hreaches : (s.getChunkSize env c).Sat
      (fun p => Reaches s p.2 ∧ (p.2.state = .writable → p.2.LastCall c)) Q E :=
    getChunkSize_reaches henv.obedient h hlast hcalls
  refine writerWrite_sat ((hreaches.and (getChunkSize_signals henv h hsignals hlast hcalls)).mono
    (fun _ => id) (fun _ hq => hq.2) fun _ hq => hq.2) w ?_ ?_
  · rintro p o ⟨-, ht⟩
    exact { ht with }
  · rintro p ⟨⟨⟨ht, -⟩, hlast⟩, hsignals⟩ hs hrequest hclose
    exact controllerWrite_signals henv ht hsignals hs hclose hrequest (hlast hs) p.1

end Orders

end WritableStream

end WebStreams
