import StarlingMonkey.WebStreams.Writable.Signals

/-!
# The writer is told in every run

The interfaces of a writable stream and its promise reactions keep `Signals`, and with them every
run does (`signals_run`), whatever author code performs in the middle of the operations.
-/

namespace WebStreams

namespace WritableStream

variable {χ F : Type} [SizeOrder F] {env : WritableEnv χ F} {s t : WritableStream χ F}
  {Q : WritableStream χ F → Prop} {E : WritableAbort → Prop}

/-! ### Closing and aborting -/

/-- A close is requested. A writer that waits is told not to. -/
theorem Signals.requestClose (h : s.Signals) (hlive : s.isLive = true)
    (hopen : s.closeQueuedOrInFlight = false) : (s.requestClose s.readyToClose).Signals := by
  have hwriter (w : Writer) (hw : s.readyToClose = some w) : ∃ w', s.writer = some w' ∧
      w = { w' with ready := (s.requestClose s.readyToClose).readyOf w' } := by
    rw [readyToClose] at hw
    split at hw
    next hc =>
      obtain ⟨hpressure, hs⟩ : s.backpressure = true ∧ s.state = .writable := by simpa using hc
      obtain ⟨w', hw', rfl⟩ := Option.map_eq_some_iff.mp hw
      have hready : w'.ready = .pending := by
        rw [h.ready w' hw', readyOf]
        simp [hs, hopen, hpressure]
      refine ⟨w', hw', ?_⟩
      rw [Writer.settleReady, if_pos hready, readyOf]
      simp [WritableStream.requestClose, hs, closeQueuedOrInFlight]
    next hc =>
      have hready := h.ready w hw
      refine ⟨w, hw, ?_⟩
      rw [show (s.requestClose s.readyToClose).readyOf w = w.ready from ?_]
      rw [hready, readyOf, readyOf]
      cases hs : s.state with
      | writable => simp_all [WritableStream.requestClose, closeQueuedOrInFlight]
      | erroring => simp [WritableStream.requestClose, hs]
      | closed | errored => simp [isLive, hs] at hlive
  refine ⟨⟨⟨?_, ?_, ?_, h.released, ?_, h.calm, h.raised⟩, ?_⟩, ?_⟩
  · intro w hw
    obtain ⟨w', hw', rfl⟩ := hwriter w hw
    exact h.closed w' hw'
  · rintro w (hw | hw)
    · obtain ⟨w', hw', rfl⟩ := hwriter w hw
      exact h.again w' (.inl hw')
    · exact h.again w (.inr hw)
  · intro w hw
    obtain ⟨w', hw', rfl⟩ := hwriter w hw
    exact h.running w' hw'
  · intro w hw
    obtain ⟨w', hw', rfl⟩ := hwriter w hw
    exact h.acquired w' hw'
  · intro w hw
    obtain ⟨w', hw', rfl⟩ := hwriter w hw
    rfl
  · intro _ hno
    simp [WritableStream.requestClose, closeQueuedOrInFlight] at hno

theorem streamClose_signals (henv : Attentive env) (h : s.Sound) (hsignals : s.Signals)
    (hopen : s.closeQueuedOrInFlight = false) :
    (s.streamClose env).Sat (fun t => t.Signals) Q E := by
  obtain ⟨hrequest, hclose⟩ : s.closeRequest = none ∧ s.inFlightCloseRequest = none := by
    simpa [closeQueuedOrInFlight] using hopen
  cases hlive : s.isLive with
  | false =>
    have hs : s.state = .closed ∨ s.state = .errored := by
      cases hst : s.state <;> simp_all [isLive]
    rw [streamClose, if_pos hs]
    exact { hsignals with }
  | true =>
    rw [streamClose_eq env hlive hopen]
    exact advanceQueueIfNeeded_signals henv (h.requestClose hlive hclose hrequest _)
      (hsignals.requestClose hlive hopen) hlive fun _ => hclose

theorem writerCloseWithErrorPropagation_signals (henv : Attentive env) (h : s.Sound)
    (hsignals : s.Signals) :
    (s.writerCloseWithErrorPropagation env).Sat (fun t => t.Signals) Q E := by
  rw [writerCloseWithErrorPropagation]
  split
  next => exact { hsignals with }
  next hopen =>
    obtain ⟨hopen, hclosed⟩ : s.closeQueuedOrInFlight = false ∧ s.state ≠ .closed := by
      simpa using hopen
    split
    next => exact { hsignals with }
    next herrored =>
      have hlive : s.isLive = true := by
        cases hst : s.state <;> simp_all [isLive]
      rw [check_bind hlive]
      exact streamClose_signals henv h hsignals hopen

theorem signalAbort_signals (henv : Attentive env) (h : s.Sound) (hsignals : s.Signals)
    (reason : Option JsError) :
    (s.signalAbort env reason).Sat (fun t => Reaches s t ∧ t.Signals) Q E := by
  rw [signalAbort]
  split
  next => exact ⟨⟨h, .refl s⟩, hsignals⟩
  next =>
    have hsignalled : Sound { s with signalled := true } :=
      ⟨{ h.core with }, fun hw => { h.flowing hw with }⟩
    have hkept : Signals { s with signalled := true } := { hsignals with }
    refine (callOut_signals henv hsignalled hkept _).imp fun t ht => ?_
    exact ⟨⟨ht.1.1, { ht.1.2 with }⟩, ht.2⟩

/-- Aborting. -/
theorem streamAbort_signals (henv : Attentive env) (h : s.Sound) (hsignals : s.Signals)
    (reason : Option JsError) : (s.streamAbort env reason).Sat (fun t => t.Signals) Q E := by
  rw [streamAbort]
  split
  next => exact { hsignals with }
  next =>
    refine (signalAbort_signals henv h hsignals reason).bind fun t ht => ?_
    obtain ⟨ht, hsignals⟩ := ht
    split
    next => exact { hsignals with }
    next hs =>
      split
      next => exact hsignals
      next hnone =>
        have hnone : t.pendingAbortRequest = none := by simpa using hnone
        have hlive : t.isLive = true := by
          cases hst : t.state <;> simp_all [isLive]
        rw [check_bind hlive]
        dsimp only
        by_cases hst : t.state = .erroring
        · rw [if_pos (by simpa using hst)]
          exact { hsignals with }
        · have hw : t.state = .writable := by simpa [isLive, hst] using hlive
          rw [if_neg (by simpa using hst)]
          exact startErroring_signals henv (ht.1.core.requestAbort hlive hnone _ _)
            { hsignals with } hw _

/-! ### The writer's lock -/

/-- A writer acquires a stream that has none. -/
theorem Signals.acquire (h : s.Signals) {w : Writer} (hready : w.ready = s.readyOf w)
    (hclosed : w.closed = s.closedOf w) (hacquired : w.acquired = s.state)
    (hrunning : w.abortRunning = s.abortRunning)
    (hagain : w.readyAgain = false ∧ w.closedAgain = false) (nextWriter : ℕ) :
    Signals { s with writer := some w, nextWriter } := by
  refine ⟨⟨⟨?_, ?_, ?_, h.released, ?_, h.calm, h.raised⟩, ?_⟩, h.backpressure⟩
  · rintro _ ⟨⟩
    exact hclosed
  · rintro w' (⟨⟨⟩⟩ | hw)
    · exact ⟨hagain.1, fun hno => by rw [hagain.2] at hno; cases hno⟩
    · exact h.again w' (.inr hw)
  · rintro _ ⟨⟩ _ hs
    exact hrunning.trans hs
  · rintro _ ⟨⟩ (hlive : s.isLive = true)
    rw [hacquired]
    constructor <;> (intro hs; simp [isLive, hs] at hlive)
  · rintro _ ⟨⟩
    exact hready

theorem setUpDefaultWriter_signals (hsignals : s.Signals) :
    s.setUpDefaultWriter.Sat (fun t => t.Signals) (fun t => t.Signals) E := by
  rw [setUpDefaultWriter]
  split
  next => exact hsignals
  next =>
    split
    next ready closed heq =>
      refine hsignals.acquire ?_ ?_ rfl rfl ⟨rfl, rfl⟩ _
      · cases hs : s.state <;> rw [hs] at heq <;> obtain ⟨rfl, rfl⟩ := Prod.mk.inj heq <;>
          simp [readyOf, hs]
      · cases hs : s.state <;> rw [hs] at heq <;> obtain ⟨rfl, rfl⟩ := Prod.mk.inj heq <;>
          simp [closedOf, hs]

theorem writerRelease_signals (hsignals : s.Signals) : s.writerRelease.Signals := by
  have hreleased (w : Writer) (hw : w ∈ s.writerRelease.released) : w ∈ s.released ∨
      ∃ w', s.writer = some w' ∧
        w = { w' with ready := .rejected releasedError, closed := .rejected releasedError } := by
    rcases List.mem_append.mp hw with hw | hw
    · exact .inl hw
    · refine .inr ?_
      rw [Option.mem_toList] at hw
      obtain ⟨w₁, hw₁, rfl⟩ := Option.map_eq_some_iff.mp hw
      obtain ⟨w', hw', rfl⟩ := Option.map_eq_some_iff.mp hw₁
      exact ⟨w', hw', rfl⟩
  refine ⟨⟨⟨by rintro w ⟨⟩, ?_, by rintro w ⟨⟩, ?_, by rintro w ⟨⟩, hsignals.calm, hsignals.raised⟩,
    by rintro w ⟨⟩⟩, hsignals.backpressure⟩
  · rintro w (⟨⟨⟩⟩ | hw)
    rcases hreleased w hw with hw | ⟨w', hw', rfl⟩
    · exact hsignals.again w (.inr hw)
    · exact hsignals.again w' (.inl hw')
  · intro w hw
    rcases hreleased w hw with hw | ⟨w', hw', rfl⟩
    · exact hsignals.released w hw
    · exact ⟨rfl, rfl⟩

/-! ### Operations -/

/-- **Every operation** keeps its writer informed. -/
theorem perform_signals (henv : Attentive env) (h : s.Sound) (hsignals : s.Signals)
    (op : WritableOp χ) :
    (s.perform env op).Sat (fun t => t.Signals) (fun t => t.Signals) E := by
  cases op with
  | error e =>
    rw [perform]
    split
    next hs => exact controllerError_signals henv h.core hsignals.toSignalBase hs e
    next => exact hsignals
  | getWriter => exact setUpDefaultWriter_signals hsignals
  | write w c =>
    rw [perform]
    split
    next =>
      obtain ⟨hcall, hlast⟩ := call_reaches h c
      have hcalled : (s.call c).Signals := { hsignals with }
      exact writerWrite_signals henv hcall.1 hcalled w hlast fun _ => ⟨s.calls, rfl⟩
    next => exact hsignals
  | writerClose w =>
    rw [perform]
    split
    next => exact hsignals
    next =>
      split
      next => exact hsignals
      next hopen => exact streamClose_signals henv h hsignals (by simpa using hopen)
  | writerAbort w reason =>
    rw [perform]
    split
    next => exact streamAbort_signals henv h hsignals reason
    next => exact hsignals
  | releaseLock w =>
    rw [perform]
    split
    next => exact writerRelease_signals hsignals
    next => exact hsignals
  | close =>
    rw [perform]
    split
    next => exact hsignals
    next =>
      split
      next => exact hsignals
      next hopen => exact streamClose_signals henv h hsignals (by simpa using hopen)
  | abort reason =>
    rw [perform]
    split
    next => exact hsignals
    next => exact streamAbort_signals henv h hsignals reason
  | closeWithErrorPropagation w =>
    rw [perform]
    split
    next => exact writerCloseWithErrorPropagation_signals henv h hsignals
    next => exact hsignals

/-! ### Reactions -/

theorem writePromiseFulfilled_signals (henv : Attentive env) (h : s.Sound) (hsignals : s.Signals)
    {p : ℕ} (hp : s.inFlightWriteRequest = some p) :
    (writePromiseFulfilled env { s with writePending := false }).Sat (fun t => t.Signals) Q E := by
  have hne : s.inFlightWriteRequest ≠ none := by
    rw [hp]
    rintro ⟨⟩
  obtain ⟨-, hlive, c, vs, hvalues⟩ := h.core.flightWrite hne
  have hclose : s.inFlightCloseRequest = none := h.core.single.resolve_left hne
  obtain ⟨v, q, hd, heq⟩ := writePromiseFulfilled_eq env h.core hp
  rw [heq]
  exact refreshAndAdvance_signals henv (h.written hp (QueueWithSizes.values_of_dequeue hd))
    { hsignals with } hlive fun _ => hclose

theorem finishInFlightWriteWithError_signals (henv : Attentive env) (h : s.Core)
    (hsignals : s.SignalReady) {p : ℕ} (hp : s.inFlightWriteRequest = some p)
    (e : Option JsError) :
    (finishInFlightWriteWithError env { s with writePending := false } e).Sat
      (fun t => t.Signals) Q E := by
  have hne : s.inFlightWriteRequest ≠ none := by
    rw [hp]
    rintro ⟨⟩
  obtain ⟨hstarted, hlive, -⟩ := h.flightWrite hne
  have hclose : s.inFlightCloseRequest = none := h.single.resolve_left hne
  have hcore := h.settleWrite hp (.rejected e) false (by rintro ⟨⟩)
  simp only [finishInFlightWriteWithError, hp, Outcome.expect_some, Outcome.ok_bind]
  rw [check_bind (by exact hlive)]
  exact dealWithRejection_signals henv hcore hlive { hsignals with }
    (fun _ => { hsignals with }) rfl hclose hstarted e

theorem finishInFlightClose_signals (h : s.Sound) (hsignals : s.Signals) {p : ℕ}
    (hp : s.inFlightCloseRequest = some p) :
    (finishInFlightClose { s with closePending := false }).Sat (fun t => t.Signals) Q E := by
  have hne : s.inFlightCloseRequest ≠ none := by
    rw [hp]
    rintro ⟨⟩
  have hlive : s.isLive = true := (h.core.flightClose hne).2.1
  rw [finishInFlightClose_eq h hp]
  have hwriter (w : Writer) (hw : (s.writer.map fun w => w.settleClosed .fulfilled) = some w) :
      ∃ w', s.writer = some w' ∧ w = { w' with closed := .fulfilled } := by
    obtain ⟨w', hw', rfl⟩ := Option.map_eq_some_iff.mp hw
    exact ⟨w', hw', hsignals.settleClosed hlive hw' _⟩
  refine SignalReady.signals ⟨⟨?_, ?_, ?_, hsignals.released, by intros; contradiction,
    by rintro ⟨⟩, by rintro ⟨⟩⟩, ?_⟩ (by rintro ⟨⟩)
  · intro w hw
    obtain ⟨w', hw', rfl⟩ := hwriter w hw
    rfl
  · rintro w (hw | hw)
    · obtain ⟨w', hw', rfl⟩ := hwriter w hw
      exact hsignals.again w' (.inl hw')
    · exact hsignals.again w (.inr hw)
  · intro w hw
    obtain ⟨w', hw', rfl⟩ := hwriter w hw
    exact hsignals.running w' hw'
  · intro w hw
    obtain ⟨w', hw', rfl⟩ := hwriter w hw
    have hacquired := (hsignals.acquired w' hw' hlive).1
    have hready := hsignals.ready w' hw'
    rw [readyOf] at hready ⊢
    cases hs : s.state with
    | writable => simp_all [closeQueuedOrInFlight, hsignals.calm hs]
    | erroring => simp_all [hsignals.raised hs, closeSettled]
    | closed | errored => simp [isLive, hs] at hlive

theorem finishInFlightCloseWithError_signals (henv : Attentive env) (h : s.Sound)
    (hsignals : s.Signals) {p : ℕ} (hp : s.inFlightCloseRequest = some p) (e : Option JsError) :
    (finishInFlightCloseWithError env { s with closePending := false } e).Sat
      (fun t => t.Signals) Q E := by
  have hne : s.inFlightCloseRequest ≠ none := by
    rw [hp]
    rintro ⟨⟩
  obtain ⟨hstarted, hlive, -⟩ := h.core.flightClose hne
  have hwrite : s.inFlightWriteRequest = none := h.core.single.resolve_right hne
  rw [finishInFlightCloseWithError_eq hlive hp e]
  refine dealWithRejection_signals henv (h.core.settleClose hp _ _) hlive { hsignals with }
    (fun hs => { hsignals with ready := fun w hw => ?_ }) hwrite rfl hstarted e
  have hready := hsignals.ready w hw
  rw [readyOf, show s.state = .erroring from hs] at hready
  rw [readyOf, hs]
  exact hready

theorem abortPromiseSettled_signals (h : s.Sound) (hsignals : s.Signals) {p : ℕ}
    (hp : s.abortPending = some p) (o : Settled) :
    (abortPromiseSettled { s with abortPending := none } p o).Sat (fun t => t.Signals) Q E := by
  have hne : s.abortPending ≠ none := by
    rw [hp]
    rintro ⟨⟩
  obtain ⟨hs, hhand⟩ := h.core.abortPending hne
  have hlive : s.isLive = false := by simp [isLive, hs]
  have hclose : s.inFlightCloseRequest = none := by
    by_contra hno
    rw [(h.core.flightClose hno).2.1] at hlive
    cases hlive
  rw [abortPromiseSettled, rejectClose_eq (by exact hs) (by exact hclose)]
  -- a writer that was acquired when the stream was errored already is rejected again
  have hwriter (w : Writer) (hw : (s.writer.map fun w =>
      w.settleClosed (.rejected s.storedError)) = some w) : ∃ w', s.writer = some w' ∧
      w.ready = w'.ready ∧ w.acquired = w'.acquired ∧ w.closed = .rejected s.storedError ∧
      w.readyAgain = w'.readyAgain ∧
      w.abortRunning = w'.abortRunning ∧
      (w.closedAgain = true → w'.closedAgain = true ∨ w'.acquired = .errored) := by
    obtain ⟨w', hw', rfl⟩ := Option.map_eq_some_iff.mp hw
    have hclosed := hsignals.closed w' hw'
    simp only [closedOf, hs] at hclosed
    refine ⟨w', hw', ?_⟩
    rw [Writer.settleClosed]
    by_cases hacquired : w'.acquired = .errored
    · rw [if_neg (by simp [hacquired])] at hclosed
      rw [if_neg (by simp [hclosed])]
      exact ⟨rfl, rfl, hclosed, rfl, rfl, fun _ => .inr hacquired⟩
    · rw [if_pos ⟨hacquired, .inl hne⟩] at hclosed
      rw [if_pos hclosed]
      exact ⟨rfl, rfl, rfl, rfl, rfl, fun hagain => .inl hagain⟩
  have hrunning : s.abortRunning = true := by simp [abortRunning, hp]
  refine SignalReady.signals ⟨⟨?_, ?_, ?_, hsignals.released, ?_, ?_, ?_⟩, ?_⟩ ?_
  · intro w hw
    obtain ⟨w', -, -, -, hclosed, -⟩ := hwriter w hw
    rw [hclosed, closedOf]
    simp [record, settle, hs, hhand]
  · rintro w (hw | hw)
    · obtain ⟨w', hw', -, hacquired, -, hready, habort, hclosed⟩ := hwriter w hw
      obtain ⟨hagain, hagain'⟩ := hsignals.again w' (.inl hw')
      refine ⟨hready.trans hagain, fun ha => ?_⟩
      rw [hacquired, habort]
      exact (hclosed ha).elim hagain' fun herrored =>
        ⟨herrored, hsignals.running w' hw' herrored hrunning⟩
    · exact hsignals.again w (.inr hw)
  · intro w hw hacquired _
    obtain ⟨w', hw', -, heq, -, -, habort, -⟩ := hwriter w hw
    rw [habort]
    exact hsignals.running w' hw' (heq ▸ hacquired) hrunning
  · intro w hw hno
    rw [show s.isLive = true from hno] at hlive
    cases hlive
  · intro hno
    rw [show s.state = .writable from hno] at hs
    cases hs
  · intro hno
    rw [show s.state = .erroring from hno] at hs
    cases hs
  · intro w hw
    obtain ⟨w', hw', hready, -⟩ := hwriter w hw
    have hold := hsignals.ready w' hw'
    simp only [readyOf, hs] at hold
    rw [hready, hold, readyOf]
    simp [record, settle, hs]
  · intro hno
    rw [show s.state = .writable from hno] at hs
    cases hs

/-- **Every event** keeps the writer informed. -/
theorem step_signals (henv : Attentive env) (h : s.Sound) (hsignals : s.Signals)
    (e : WritableEvent χ) :
    (s.step env e).Sat (fun t => t.Signals) (fun t => t.Signals) E := by
  cases e with
  | op op => exact perform_signals henv h hsignals op
  | startFulfilled =>
    rw [step]
    split
    next hp =>
      obtain ⟨-, hclose, hlive⟩ := h.core.notStarted hp
      rw [startPromiseFulfilled, check_bind (by exact hlive)]
      exact advanceQueueIfNeeded_signals henv (h.started hp) { hsignals with } hlive fun _ => hclose
    next => exact hsignals
  | startRejected e =>
    rw [step]
    split
    next hp =>
      obtain ⟨hwrite, hclose, hlive⟩ := h.core.notStarted hp
      rw [startPromiseRejected, check_bind (by exact hlive)]
      exact dealWithRejection_signals henv (h.core.start_settled hp) hlive { hsignals with }
        (fun _ => { hsignals with }) hwrite hclose rfl e
    next => exact hsignals
  | writeFulfilled =>
    rw [step]
    split
    next hp =>
      obtain ⟨p, hp⟩ := Option.ne_none_iff_exists'.mp (h.core.writePending hp)
      exact writePromiseFulfilled_signals henv h hsignals hp
    next => exact hsignals
  | writeRejected e =>
    rw [step]
    split
    next hp =>
      obtain ⟨p, hp⟩ := Option.ne_none_iff_exists'.mp (h.core.writePending hp)
      rw [writePromiseRejected]
      split
      next =>
        have hcore : s.clearAlgorithms.Core := { h.core with }
        have hready : s.clearAlgorithms.SignalReady := { hsignals with }
        exact finishInFlightWriteWithError_signals henv hcore hready hp e
      next =>
        exact finishInFlightWriteWithError_signals henv h.core hsignals.toSignalReady hp e
    next => exact hsignals
  | closeFulfilled =>
    rw [step]
    split
    next hp =>
      obtain ⟨p, hp⟩ := Option.ne_none_iff_exists'.mp (h.core.closePending hp)
      exact finishInFlightClose_signals h hsignals hp
    next => exact hsignals
  | closeRejected e =>
    rw [step]
    split
    next hp =>
      obtain ⟨p, hp⟩ := Option.ne_none_iff_exists'.mp (h.core.closePending hp)
      exact finishInFlightCloseWithError_signals henv h hsignals hp e
    next => exact hsignals
  | abortFulfilled =>
    rw [step]
    split
    next p hp => exact abortPromiseSettled_signals h hsignals hp .fulfilled
    next => exact hsignals
  | abortRejected e =>
    rw [step]
    split
    next p hp => exact abortPromiseSettled_signals h hsignals hp (.rejected e)
    next => exact hsignals

/-! ### Runs -/

/-- Author code is attentive: it performs operations. -/
theorem attentive_scripts (scripts : WritableScripts χ F) :
    Attentive ((writableSystem χ F).env scripts) := by
  refine ⟨obedient_scripts scripts, CallingOut.env_obeys (fun _ _ => trivial)
    (fun _ _ _ _ _ => trivial) (fun _ _ hs => if_pos hs.1.requests) ?_ scripts⟩
  intro scripts henv s op hs
  have hreaches : ((writableSystem χ F).perform ((writableSystem χ F).env scripts) s op).Sat
      (Reaches s) (Reaches s) fun _ => False :=
    perform_reaches (obedient_scripts scripts) hs.1 op
  exact (hreaches.both (perform_signals ⟨obedient_scripts scripts, henv⟩ hs.1 hs.2 op)).mono
    (fun t ht => ⟨⟨ht.1.1, ht.2⟩, trivial⟩) (fun t ht => ⟨⟨ht.1.1, ht.2⟩, trivial⟩) fun _ => id

theorem signals_initial (hwm : F) (size : Bool) : (initial hwm size : WritableStream χ F).Signals :=
  { closed := by rintro w ⟨⟩
    again := by
      rintro w (⟨⟨⟩⟩ | hw)
      cases hw
    running := by rintro w ⟨⟩
    released := by
      intro w hw
      cases hw
    acquired := by rintro w ⟨⟩
    calm := fun _ => by simp [initial]
    raised := by rintro ⟨⟩
    ready := by rintro w ⟨⟩
    backpressure := fun _ _ => rfl }

/-- **Runs** keep the writer informed. -/
theorem signals_run {hwm : F} {size : Bool}
    (hrun : (writableMachine χ F).Run (initial hwm size) t) : t.Sound ∧ t.Signals := by
  have hstep (s : WritableStream χ F) (hs : s.Sound ∧ s.Signals)
      (e : WritableEvent χ × WritableScripts χ F) : ((writableMachine χ F).step s e).Sat
        (fun t => t.Sound ∧ t.Signals) (fun t => t.Sound ∧ t.Signals) fun _ => False :=
    (step_sound (obedient_scripts e.2) hs.1 e.1).both
      (step_signals (attentive_scripts e.2) hs.1 hs.2 e.1)
  exact hrun.inv_of_sat ⟨sound_initial, signals_initial hwm size⟩ fun s e hs _ => hstep s hs e

end WritableStream

end WebStreams
