import StarlingMonkey.WebStreams.Writable.Invariant

/-!
# The operations of a writable stream are sound

One lemma for each algorithm of the stream, up to the operations of the JavaScript interfaces. An
algorithm that is called while the books are open, as `startErroring` is after a chunk was refused,
asks for a `Core` only.
-/

namespace WebStreams

open Ledger

namespace WritableStream

variable {χ F : Type} {env : WritableEnv χ F} {s t u : WritableStream χ F}
  {Q : WritableStream χ F → Prop} {E : WritableAbort → Prop}

/-! ### Assertions and calls -/

/-- An assertion that holds is passed. -/
theorem check_bind {α : Type} {c : Bool} (hc : c = true) (f : Unit → WritableOutcome χ F α) :
    (check c >>= f) = f () := by
  rw [check, hc]
  rfl

/-- Calling out to obedient code. -/
theorem callOut_reaches (henv : Obedient env) (h : s.Sound) (k : WritableCallback χ) :
    (callOut env k s).Sat (Reaches s) Q E := by
  have hsat := henv.sat (χ := JsError) h k (P := fun p => Reaches s p.2) (Q := Q) (E := E)
    fun r t ht hst => ⟨ht, hst⟩
  exact hsat.bind fun p hp => hp

/-- Recording what happens with the sink is steady. -/
theorem steady_record (s : WritableStream χ F) (r : SinkRecord χ) : Steady s (s.record r) :=
  ⟨fun _ => ⟨rfl, rfl⟩, fun _ => ⟨rfl, rfl⟩, fun h => ⟨h, rfl⟩, id, rfl, rfl,
    fun h => ⟨h, fun _ => rfl⟩⟩

/-- Performing an algorithm of the sink. -/
theorem invoke_reaches (henv : Obedient env) (h : s.Sound) {r : SinkRecord χ}
    (hr : s.algorithms = true → (s.record r).Sound) (k : WritableCallback χ) :
    (s.invoke env r k).Sat (Reaches s) Q E := by
  rw [invoke]
  split
  next halg =>
    exact (callOut_reaches henv (hr halg) k).imp fun t ht => .trans (steady_record s r) ht
  next => exact ⟨h, .refl s⟩

theorem outstanding_eq (s : WritableStream χ F) : bill s.outstanding =
    bill s.writeRequests + bill s.inFlightWriteRequest.toList + bill s.closeRequest.toList +
      bill s.inFlightCloseRequest.toList +
      bill (s.pendingAbortRequest.map (·.promise)).toList + bill s.abortPending.toList +
      bill s.hand := by
  simp only [outstanding, bill_append]

/-- Promises that are settled leave the ones that are outstanding. -/
theorem ledger_settle {l : List (WritePromise × Settled)} (h : s.ledger = 0)
    (hnext : t.nextPromise = s.nextPromise) (hsettled : t.settled = s.settled ++ l)
    (hout : bill t.outstanding + bill (l.map (·.1.number)) = bill s.outstanding) :
    t.ledger = 0 := by
  rw [ledger, hnext, hsettled, List.map_append, balance_append, add_assoc, add_comm (bill _),
    hout]
  exact h

/-! ### Erroring -/

theorem rejectClose_eq (hs : s.state = .errored) (hclose : s.inFlightCloseRequest = none) :
    s.rejectCloseAndClosedPromiseIfNeeded = .ok { s with
      closeRequest := none
      settled := s.settled ++ s.closeRequest.toList.map fun p => (.close p, .rejected s.storedError)
      writer := s.writer.map fun w => w.settleClosed (.rejected s.storedError) } := by
  rw [rejectCloseAndClosedPromiseIfNeeded, check_bind (by simp [hs])]
  cases hc : s.closeRequest with
  | none => simp [updateWriter, hc]
  | some p =>
    simp only
    rw [check_bind (by simp [hclose])]
    rfl

/-- The state moves on. -/
theorem Core.history_concat (h : s.Core) {state : WritableStreamState}
    (hnext : s.state.Next state) : (s.history ++ [state]).IsChain WritableStreamState.Next ∧
      (s.history ++ [state]).getLast? = some state := by
  refine ⟨List.isChain_append.mpr ⟨h.history.1, .singleton _, ?_⟩, List.getLast?_concat ..⟩
  rintro x hx y hy
  rw [h.history.2] at hx
  obtain rfl := Option.some.inj hx
  obtain rfl := Option.some.inj hy
  exact hnext

/-- A stream that has nothing in flight becomes errored. What was requested is settled or goes on
waiting for the sink's abort. -/
theorem Core.toErrored [SizeNum F] (h : s.Core) (hs : s.state = .erroring)
    (hwrite : s.inFlightWriteRequest = none) (hclose : s.inFlightCloseRequest = none)
    (hstarted : s.started = true) {closeRequest abortPending : Option ℕ} {hand : List ℕ}
    {settled : List (WritePromise × Settled)} {writer : Option Writer}
    (hkeep : abortPending = none → hand = [] → closeRequest = none)
    (habort : abortPending ≠ none → hand = [])
    (hrejected : ∀ p ∈ s.writeRequests, (.write p, .rejected s.storedError) ∈ settled)
    (hfulfilled : ∀ p, (.write p, .fulfilled) ∉ settled)
    (hbill : bill closeRequest.toList + bill abortPending.toList + bill hand +
      bill (settled.map (·.1.number)) = bill s.writeRequests + bill s.closeRequest.toList +
        bill (s.pendingAbortRequest.map (·.promise)).toList) :
    Core { s with
      state := .errored, history := s.history ++ [.errored], toQueueWithSizes := .reset
      writeRequests := [], pendingAbortRequest := none, closeRequest, abortPending, hand, writer
      settled := s.settled ++ settled } := by
  -- an erroring stream waits for no abort of its sink
  have hhand : s.hand = [] := by
    by_contra hne
    rw [h.hand hne] at hs
    cases hs
  have hpending : s.abortPending = none := by
    by_contra hne
    rw [(h.abortPending hne).1] at hs
    cases hs
  exact { h with
    flightWrite := fun hne => absurd hwrite hne
    flightClose := fun hne => absurd hclose hne
    ended := fun _ => ⟨hstarted, rfl, rfl, rfl⟩
    closed := by rintro ⟨⟩
    errored := fun _ => hkeep
    abortPending := fun hne => ⟨rfl, habort hne⟩
    hand := fun _ => rfl
    ledger := by
      refine ledger_settle h.ledger rfl rfl ?_
      rw [outstanding_eq, outstanding_eq]
      simp only [hwrite, hclose, hhand, hpending, Option.toList_none, bill_nil, add_zero, zero_add,
        Option.map_none]
      exact hbill
    history := h.history_concat (by rw [hs]; trivial)
    stored := by rintro ⟨⟩
    unsettled := fun hno => absurd rfl hno
    aborted := fun _ => rfl
    -- what was requested was moved to the sink, or is rejected now
    requested := fun p hp => by
      rcases h.requested p hp with hp | hp | hp | hp
      · exact .inr (.inr (.inr ⟨rfl, List.mem_append_right _ (hrejected p hp)⟩))
      · rw [hwrite] at hp
        cases hp
      · exact .inr (.inr (.inl hp))
      · rw [hs] at hp
        cases hp.1
    fulfilled := fun p hp => by
      rcases List.mem_append.mp hp with hp | hp
      · exact h.fulfilled p hp
      · exact absurd hp (hfulfilled p) }

/-- A stream with an abort request becomes errored. The close request and the abort promise wait for
the sink's abort. -/
theorem Core.toAborting [SizeNum F] (h : s.Core) (hs : s.state = .erroring)
    (hwrite : s.inFlightWriteRequest = none) (hclose : s.inFlightCloseRequest = none)
    (hstarted : s.started = true) {r : PendingAbortRequest} (hr : s.pendingAbortRequest = some r) :
    Core { s with
      state := .errored, history := s.history ++ [.errored], toQueueWithSizes := .reset
      writeRequests := [], pendingAbortRequest := none, closeRequest := s.closeRequest
      abortPending := s.abortPending, hand := [r.promise], writer := s.writer
      settled := s.settled ++ s.writeRequests.map fun p =>
        (.write p, .rejected s.storedError) } := by
  have hpending : s.abortPending = none := by
    by_contra hne
    rw [(h.abortPending hne).1] at hs
    cases hs
  refine h.toErrored hs hwrite hclose hstarted (by intros; contradiction)
    (fun hno => absurd hpending hno) (fun p hp => List.mem_map_of_mem hp) (by simp) ?_
  simp [hr, hpending, WritePromise.number, Function.comp_def]
  abel

/-- Nothing that was invoked is unsettled while nothing is in flight. -/
theorem Core.settled (h : s.Core) (hs : s.state ≠ .errored) (hwrite : s.inFlightWriteRequest = none)
    (hclose : s.inFlightCloseRequest = none) :
    WebStreams.unsettled s.log = 0 ∧ .abort ∉ s.log := by
  refine ⟨?_, fun hmem => hs (h.aborted hmem)⟩
  rw [h.unsettled hs, hwrite, hclose]
  rfl

/-- What starts with nothing in flight is steady as soon as the locals are restored. -/
theorem steady_of_idle (hwrite : s.inFlightWriteRequest = none)
    (hclose : s.inFlightCloseRequest = none) (hs : s.state ≠ .errored)
    (hstop : s.state ≠ .writable → t.state ≠ .writable) (hand : t.hand = s.hand)
    (hmeasuring : t.measuring = s.measuring)
    (hcalls : t.overtaken = false → s.overtaken = false ∧ (s.measuring ≠ 0 → t.calls = s.calls)) :
    Steady s t :=
  ⟨fun h => absurd hwrite h, fun h => absurd hclose h, fun h => absurd h hs, hstop, hand,
    hmeasuring, hcalls⟩

/-- The sink is asked to abort. -/
theorem Core.recordAbort (h : s.Core) (hs : s.state = .errored) (habort : .abort ∉ s.log)
    (hunsettled : WebStreams.unsettled s.log = 0) : (s.record .abort).Core :=
  { h with
    closed := fun hc => by rw [show s.state = .closed from hc] at hs; cases hs
    disciplined := h.disciplined.concat ⟨hunsettled, habort⟩
    unsettled := fun hno => absurd hs hno
    aborted := fun _ => hs
    requested := fun p hp => by
      rcases h.requested p hp with hp | hp | ⟨ok, hp⟩ | hp
      · exact .inl hp
      · exact .inr (.inl hp)
      · exact .inr (.inr (.inl ⟨ok, List.mem_append_left _ hp⟩))
      · exact .inr (.inr (.inr hp))
    fulfilled := fun p hp => List.mem_append_left _ (h.fulfilled p hp)
    numbers := by
      simpa only [record, acceptedOf_concat, SinkRecord.accept?, Option.toList_none,
        List.append_nil] using h.numbers
    calls := by
      simpa only [record, acceptedOf_concat, SinkRecord.accept?, Option.toList_none,
        List.append_nil] using h.calls }

/-- Clearing the algorithms of a stream that is not writable any more. -/
theorem Sound.clearAlgorithms (h : s.Sound) (hs : s.state ≠ .writable) : s.clearAlgorithms.Sound :=
  ⟨{ h.core with }, fun hw => absurd hw hs⟩

theorem steady_clearAlgorithms (s : WritableStream χ F) : Steady s s.clearAlgorithms :=
  ⟨fun _ => ⟨rfl, rfl⟩, fun _ => ⟨rfl, rfl⟩, fun h => ⟨h, rfl⟩, id, rfl, rfl,
    fun h => ⟨h, fun _ => rfl⟩⟩

theorem abortSteps_reaches (henv : Obedient env) (h : s.Sound) (hs : s.state = .errored)
    (hr : s.algorithms = true → (s.record .abort).Sound) (reason : Option JsError) :
    (s.abortSteps env reason).Sat (Reaches s) Q E := by
  refine (invoke_reaches henv h hr _).bind fun t ht => ?_
  have hst := (ht.2.errored hs).1
  refine ⟨ht.1.clearAlgorithms ?_, ht.2.trans (steady_clearAlgorithms t)⟩
  rw [hst]
  rintro ⟨⟩

/-- The stream once it has started erroring. -/
def erring (s : WritableStream χ F) (reason : Option JsError) : WritableStream χ F :=
  { s.moveTo .erroring with storedError := reason, raised := reason }.updateWriter
    (Writer.ensureReadyPromiseRejected reason)

theorem Core.erring (h : s.Core) (hs : s.state = .writable) (reason : Option JsError) :
    (s.erring reason).Core := by
  have habort : .abort ∉ s.log := by
    intro hmem
    rw [h.aborted hmem] at hs
    cases hs
  exact { h with
    flightWrite := fun hne => ⟨(h.flightWrite hne).1, rfl, (h.flightWrite hne).2.2⟩
    flightClose := fun hne => ⟨(h.flightClose hne).1, rfl, (h.flightClose hne).2.2⟩
    ended := by rintro ⟨⟩
    closed := by rintro ⟨⟩
    errored := by rintro ⟨⟩
    abortPending := fun hne => by
      have hst := (h.abortPending hne).1
      rw [hs] at hst
      cases hst
    hand := fun hne => by
      have hst := h.hand hne
      rw [hs] at hst
      cases hst
    history := h.history_concat (by rw [hs]; trivial)
    stored := by rintro ⟨⟩
    unsettled := fun _ => h.unsettled (by rw [hs]; rintro ⟨⟩)
    aborted := fun hmem => absurd hmem habort
    requested := fun p hp => by
      rcases h.requested p hp with hp | hp | hp | hp
      · exact .inl hp
      · exact .inr (.inl hp)
      · exact .inr (.inr (.inl hp))
      · rw [hs] at hp
        cases hp.1 }

theorem steady_erring (hs : s.state = .writable) (reason : Option JsError) :
    Steady s (s.erring reason) where
  write := fun _ => ⟨rfl, rfl⟩
  close := fun _ => ⟨rfl, rfl⟩
  errored := fun he => by
    rw [hs] at he
    cases he
  stopped := by intros; contradiction
  hand := rfl
  measuring := rfl
  calls := fun ho => ⟨ho, fun _ => rfl⟩

section Sizes

variable [SizeNum F]

/-- **The stream becomes errored**, when nothing is in flight any more. -/
theorem finishErroring_reaches (henv : Obedient env) (h : s.Core) (hs : s.state = .erroring)
    (hwrite : s.inFlightWriteRequest = none) (hclose : s.inFlightCloseRequest = none)
    (hstarted : s.started = true) : (s.finishErroring env).Sat (Reaches s) Q E := by
  have hne : s.state ≠ .errored := by
    rw [hs]
    rintro ⟨⟩
  have hsound {t : WritableStream χ F} (ht : t.Core) (hst : t.state = .errored) : t.Sound :=
    ⟨ht, fun hw => by rw [hst] at hw; cases hw⟩
  rw [finishErroring, check_bind (by simp [hs]),
    check_bind (by simp [hasOperationMarkedInFlight, hwrite, hclose])]
  dsimp only
  have hhand : s.hand = [] := by
    by_contra hne'
    exact hne (h.hand hne')
  have hpending : s.abortPending = none := by
    by_contra hne'
    exact hne (h.abortPending hne').1
  have hrejected {l : List (WritePromise × Settled)} : ∀ p ∈ s.writeRequests,
      (WritePromise.write p, Settled.rejected s.storedError) ∈ s.writeRequests.map
        (fun p => (WritePromise.write p, Settled.rejected s.storedError)) ++ l :=
    fun p hp => List.mem_append_left _ (List.mem_map_of_mem hp)
  -- nothing is in flight, so the sink has answered all it was asked
  obtain ⟨hunsettled, habort⟩ := h.settled hne hwrite hclose
  cases hr : s.pendingAbortRequest with
  -- no abort was requested
  | none =>
    simp only [moveTo, errorSteps, rejectWriteRequests, hr]
    rw [rejectClose_eq]
    rotate_left
    · rfl
    · exact hclose
    refine ⟨hsound ?_ rfl, steady_of_idle hwrite hclose hne (by simp) rfl rfl fun ho =>
      ⟨ho, fun _ => rfl⟩⟩
    simp only [List.append_assoc]
    refine h.toErrored hs hwrite hclose hstarted (fun _ _ => rfl) (fun _ => hhand) hrejected
      (by simp) ?_
    simp [hpending, hhand, hr, WritePromise.number, Function.comp_def, bill_append]
  | some r =>
    -- the abort came when the stream was erroring already: its promise is rejected at once
    by_cases hwas : r.wasAlreadyErroring = true
    · simp only [moveTo, errorSteps, rejectWriteRequests, settle, hr]
      rw [if_pos hwas]
      rw [rejectClose_eq]
      rotate_left
      · rfl
      · exact hclose
      refine ⟨hsound ?_ rfl, steady_of_idle hwrite hclose hne (by simp) rfl rfl fun ho =>
        ⟨ho, fun _ => rfl⟩⟩
      simp only [List.append_assoc]
      refine h.toErrored hs hwrite hclose hstarted (fun _ _ => rfl) (fun _ => hhand) hrejected
        (by simp) ?_
      simp [hpending, hhand, hr, WritePromise.number, Function.comp_def, bill_append,
        bill_cons r.promise s.closeRequest.toList]
      abel
    · -- the close request and the abort promise wait for the sink's abort
      have hcore := h.toAborting hs hwrite hclose hstarted hr
      simp only [moveTo, errorSteps, rejectWriteRequests, hr, hhand]
      rw [if_neg hwas]
      refine (abortSteps_reaches henv (hsound hcore rfl) rfl (fun _ =>
        hsound (hcore.recordAbort rfl habort hunsettled) rfl) _).bind fun t ht => ?_
      -- author code in abort_steps leaves the stream errored, with the promise in hand
      obtain ⟨hst, hap⟩ := ht.2.errored rfl
      have hthand : t.hand = [r.promise] := ht.2.hand
      have htap : t.abortPending = none := hap.trans hpending
      simp only [hthand, List.erase_cons_head]
      refine ⟨hsound ?_ hst, ?_⟩
      · have hc := ht.1.core
        exact { hc with
          errored := by intros; contradiction
          abortPending := fun _ => ⟨hst, rfl⟩
          hand := fun hno => absurd rfl hno
          ledger := by
            refine ledger_settle (l := []) hc.ledger rfl (by simp) ?_
            rw [outstanding_eq, outstanding_eq]
            simp [hthand, htap] }
      · exact steady_of_idle hwrite hclose hne (fun _ => by rw [hst]; rintro ⟨⟩) hhand.symm
          ht.2.measuring ht.2.calls

/-- **The stream starts erroring**, and becomes errored unless something is in flight or the sink
has not started. -/
theorem startErroring_reaches (henv : Obedient env) (h : s.Core) (hs : s.state = .writable)
    (reason : Option JsError) :
    (s.startErroring env reason).Sat (fun t => Reaches s t ∧ t.state ≠ .writable) Q E := by
  have hsteady := steady_erring hs reason
  have hcore := h.erring hs reason
  have heq : s.startErroring env reason =
      if !s.hasOperationMarkedInFlight && s.started then (s.erring reason).finishErroring env
      else .ok (s.erring reason) := by
    rw [startErroring, check_bind (by simp [h.stored hs]), check_bind (by simp [hs])]
    rfl
  rw [heq]
  split
  next hidle =>
    obtain ⟨⟨hwrite, hclose⟩, hstarted⟩ : (s.inFlightWriteRequest = none ∧
        s.inFlightCloseRequest = none) ∧ s.started = true := by
      simpa [hasOperationMarkedInFlight] using hidle
    exact (finishErroring_reaches henv hcore rfl hwrite hclose hstarted).imp fun t ht =>
      ⟨.trans hsteady ht, ht.2.stopped (by rintro ⟨⟩)⟩
  next => exact ⟨⟨⟨hcore, by rintro ⟨⟩⟩, hsteady⟩, by rintro ⟨⟩⟩

theorem controllerError_reaches (henv : Obedient env) (h : s.Core) (hs : s.state = .writable)
    (error : Option JsError) :
    (s.controllerError env error).Sat (fun t => Reaches s t ∧ t.state ≠ .writable) Q E := by
  rw [controllerError, check_bind (by simp [hs])]
  have hcore : s.clearAlgorithms.Core := { h with }
  exact (startErroring_reaches henv hcore hs error).imp fun t ht =>
    ⟨.trans (steady_clearAlgorithms s) ht.1, ht.2⟩

theorem controllerErrorIfNeeded_reaches (henv : Obedient env) (h : s.Core)
    (hs : s.state ≠ .writable → s.Sound) (error : Option JsError) :
    (s.controllerErrorIfNeeded env error).Sat (fun t => Reaches s t ∧ t.state ≠ .writable) Q E := by
  rw [controllerErrorIfNeeded]
  split
  next hw => exact controllerError_reaches henv h hw error
  next hw => exact ⟨⟨hs hw, .refl s⟩, hw⟩

/-- **A rejection of the sink** errors the stream. -/
theorem dealWithRejection_reaches (henv : Obedient env) (h : s.Core) (hlive : s.isLive = true)
    (hwrite : s.inFlightWriteRequest = none) (hclose : s.inFlightCloseRequest = none)
    (hstarted : s.started = true) (error : Option JsError) :
    (s.dealWithRejection env error).Sat (Reaches s) Q E := by
  rw [dealWithRejection]
  split
  next hw => exact (startErroring_reaches henv h hw error).imp fun t ht => ht.1
  next hw =>
    have hs : s.state = .erroring := by simpa [isLive, hw] using hlive
    rw [check_bind (by simp [hs])]
    exact finishErroring_reaches henv h hs hwrite hclose hstarted

end Sizes

/-! ### The queue -/

/-- What a writable stream with nothing in flight finds at the front of its queue. -/
theorem Sound.front (h : s.Sound) (hs : s.state = .writable)
    (hwrite : s.inFlightWriteRequest = none) : ∃ rest : List χ,
      s.writeRequests.length = rest.length ∧
      acceptedOf s.log = writesOf s.log ++ s.writeRequests.zip rest ∧
      s.values = rest.map .chunk ++ if s.closeRequest = none then [] else [.closeSentinel] := by
  obtain ⟨rest, hlength, haccepted, hvalues⟩ := (h.flowing hs).queue
  rw [hwrite] at hvalues
  exact ⟨rest, hlength, haccepted, hvalues⟩

/-- The request at the front is in flight, and the sink is given its chunk. -/
theorem Sound.giveChunk (h : s.Sound) (hs : s.state = .writable) (hstarted : s.started = true)
    (hwrite : s.inFlightWriteRequest = none) (hclose : s.inFlightCloseRequest = none) {p : ℕ}
    {ps : List ℕ} {c : χ} {vs : List (QueueValue χ)} (hrequests : s.writeRequests = p :: ps)
    (hvalues : s.values = .chunk c :: vs) :
    Sound (record { s with inFlightWriteRequest := some p, writeRequests := ps } (.write p c)) := by
  have hcore := h.core
  have hflow := h.flowing hs
  have hlive : s.isLive = true := by simp [isLive, hs]
  obtain ⟨hunsettled, habort⟩ := hcore.settled (by rw [hs]; rintro ⟨⟩) hwrite hclose
  have hnoclose : .close ∉ s.log := fun hmem => hflow.close hmem hclose
  -- the front of the queue is the chunk of the first request
  obtain ⟨rest, hlength, haccepted, hqueue⟩ := h.front hs hwrite
  obtain ⟨c', rest, rfl⟩ : ∃ c' rest', rest = c' :: rest' := by
    rw [hrequests] at hlength
    cases rest with
    | nil => cases hlength
    | cons c' rest => exact ⟨c', rest, rfl⟩
  obtain ⟨rfl, hvs⟩ : c = c' ∧
      vs = rest.map .chunk ++ if s.closeRequest = none then [] else [.closeSentinel] := by
    rw [hvalues] at hqueue
    simpa using hqueue
  rw [hrequests, List.zip_cons_cons] at haccepted
  constructor
  · exact { hcore with
      single := .inr hclose
      flightWrite := fun _ => ⟨hstarted, hlive, c, vs, hvalues⟩
      flightClose := fun hne => absurd hclose hne
      ended := fun hno => by
        rw [show s.isLive = false from hno] at hlive
        cases hlive
      closed := fun hc => by
        rw [show s.state = .closed from hc] at hs
        cases hs
      writePending := fun _ => by rintro ⟨⟩
      ledger := by
        refine ledger_settle (l := []) hcore.ledger rfl (by simp [record]) ?_
        rw [outstanding_eq, outstanding_eq]
        simp only [record, hrequests, hwrite, Option.toList_some, Option.toList_none,
          List.map_nil, bill_nil, bill_cons p ps]
        abel
      disciplined := hcore.disciplined.concat
        ⟨hflow.started hstarted, hunsettled, hnoclose, habort, ps.zip rest, by rw [haccepted]; simp⟩
      unsettled := fun _ => by
        simp only [record, unsettled_concat, hunsettled, hclose, SinkRecord.isInvocation,
          SinkRecord.isSettlement]
        rfl
      aborted := fun hmem => by
        rcases List.mem_append.mp hmem with hmem | hmem
        · exact absurd hmem habort
        · cases List.mem_singleton.mp hmem
      -- the request of the chunk is in flight now
      requested := fun q hq => by
        rcases hcore.requested q hq with hq | hq | ⟨ok, hq⟩ | hq
        · rw [hrequests] at hq
          rcases List.mem_cons.mp hq with rfl | hq
          · exact .inr (.inl rfl)
          · exact .inl hq
        · rw [hwrite] at hq
          cases hq
        · exact .inr (.inr (.inl ⟨ok, List.mem_append_left _ hq⟩))
        · exact .inr (.inr (.inr hq))
      fulfilled := fun q hq => List.mem_append_left _ (hcore.fulfilled q hq)
      numbers := by
        simpa only [record, acceptedOf_concat, SinkRecord.accept?, Option.toList_none,
          List.append_nil] using hcore.numbers
      calls := by
        simpa only [record, acceptedOf_concat, SinkRecord.accept?, Option.toList_none,
          List.append_nil] using hcore.calls }
  · intro _
    exact { hflow with
      started := fun hst => List.mem_append_left _ (hflow.started hst)
      -- the queue keeps the chunk until its write settles
      queue := by
        refine ⟨rest, ?_, ?_, ?_⟩
        · rw [hrequests] at hlength
          exact Nat.succ.inj hlength
        · simp only [record, acceptedOf_concat, writesOf_concat, SinkRecord.accept?,
            SinkRecord.write?, Option.toList_none, Option.toList_some, List.append_nil,
            haccepted, List.append_assoc, List.singleton_append]
        · change s.values.drop 1 = _
          rw [hvalues]
          exact hvs
      wrote := fun q d hmem => by
        rcases List.mem_append.mp hmem with hmem | hmem
        · rcases hflow.wrote q d hmem with hw | hw
          · exact .inl (List.mem_append_left _ hw)
          · rw [hwrite] at hw
            cases hw
        · cases List.mem_singleton.mp hmem
          exact .inr rfl
      close := fun hmem => by
        rcases List.mem_append.mp hmem with hmem | hmem
        · exact absurd hmem hnoclose
        · cases List.mem_singleton.mp hmem }

variable (env) in
/-- What giving a chunk to the sink does. -/
theorem processWrite_eq (h : s.Sound) (hs : s.state = .writable)
    (hwrite : s.inFlightWriteRequest = none) (hclose : s.inFlightCloseRequest = none) {c : χ}
    {vs : List (QueueValue χ)} (hvalues : s.values = .chunk c :: vs) :
    ∃ p ps, s.writeRequests = p :: ps ∧ s.processWrite env c = callOut env (.write c)
      (record { s with inFlightWriteRequest := some p, writeRequests := ps } (.write p c)) >>=
      fun t => pure { t with writePending := true } := by
  obtain ⟨rest, hlength, -, hqueue⟩ := h.front hs hwrite
  obtain ⟨p, ps, hrequests⟩ : ∃ p ps, s.writeRequests = p :: ps := by
    cases hr : s.writeRequests with
    | nil =>
      rw [hr] at hlength
      obtain rfl := List.length_eq_zero_iff.mp hlength.symm
      rw [hvalues] at hqueue
      split at hqueue <;> simp at hqueue
    | cons p ps => exact ⟨p, ps, rfl⟩
  have halg : s.algorithms = true := (h.flowing hs).algorithms.resolve_right fun hne => hne hclose
  refine ⟨p, ps, hrequests, ?_⟩
  rw [processWrite, markFirstWriteRequestInFlight, check_bind (by simp [hwrite]),
    check_bind (by simp [hrequests]), hrequests]
  simp [invoke, halg]

/-- **A chunk is given to the sink.** -/
theorem processWrite_reaches (henv : Obedient env) (h : s.Sound) (hs : s.state = .writable)
    (hstarted : s.started = true) (hwrite : s.inFlightWriteRequest = none)
    (hclose : s.inFlightCloseRequest = none) {c : χ} {vs : List (QueueValue χ)}
    (hvalues : s.values = .chunk c :: vs) : (s.processWrite env c).Sat (Reaches s) Q E := by
  obtain ⟨p, ps, hrequests, heq⟩ := processWrite_eq env h hs hwrite hclose hvalues
  have hgiven := h.giveChunk hs hstarted hwrite hclose hrequests hvalues
  rw [heq]
  refine (callOut_reaches henv hgiven _).bind fun t ht => ?_
  obtain ⟨hflight, -⟩ := ht.2.write (by rintro ⟨⟩)
  refine ⟨⟨{ ht.1.core with writePending := fun _ => ?_ }, fun hw => { ht.1.flowing hw with }⟩,
    steady_of_idle hwrite hclose (by rw [hs]; rintro ⟨⟩) (fun hno => absurd hs hno) ht.2.hand
      ht.2.measuring ht.2.calls⟩
  rw [show t.inFlightWriteRequest = some p from hflight]
  rintro ⟨⟩

/-- The close request is in flight, and the sink is asked to close. -/
theorem Sound.giveClose (h : s.Sound) (hs : s.state = .writable) (hstarted : s.started = true)
    (hwrite : s.inFlightWriteRequest = none) (hclose : s.inFlightCloseRequest = none) {p : ℕ}
    (hrequest : s.closeRequest = some p) {q : QueueWithSizes (QueueValue χ) F}
    (hvalues : s.values = [.closeSentinel]) (hq : q.values = []) :
    Sound (record { s with
      toQueueWithSizes := q, inFlightCloseRequest := some p, closeRequest := none } .close) := by
  have hcore := h.core
  have hflow := h.flowing hs
  have hlive : s.isLive = true := by simp [isLive, hs]
  obtain ⟨hunsettled, habort⟩ := hcore.settled (by rw [hs]; rintro ⟨⟩) hwrite hclose
  have hnoclose : .close ∉ s.log := fun hmem => hflow.close hmem hclose
  obtain ⟨rest, hlength, haccepted, hqueue⟩ := h.front hs hwrite
  -- only the sentinel is queued, so no chunk is left
  obtain rfl : rest = [] := by
    rw [hvalues] at hqueue
    cases rest with
    | nil => rfl
    | cons c rest => simp at hqueue
  have hrequests : s.writeRequests = [] := List.length_eq_zero_iff.mp hlength
  rw [hrequests, List.zip_nil_left, List.append_nil] at haccepted
  constructor
  · exact { hcore with
      single := .inl hwrite
      flightWrite := fun hne => absurd hwrite hne
      flightClose := fun _ => ⟨hstarted, hlive, rfl, hrequests, hq⟩
      ended := fun hno => by
        rw [show s.isLive = false from hno] at hlive
        cases hlive
      closed := fun hc => by
        rw [show s.state = .closed from hc] at hs
        cases hs
      errored := fun he => by
        rw [show s.state = .errored from he] at hs
        cases hs
      closePending := fun _ => by rintro ⟨⟩
      ledger := by
        refine ledger_settle (l := []) hcore.ledger rfl (by simp [record]) ?_
        rw [outstanding_eq, outstanding_eq]
        simp only [record, hrequest, hclose, Option.toList_some, Option.toList_none,
          List.map_nil, bill_nil]
        abel
      -- all that was accepted was written
      disciplined := by
        refine hcore.disciplined.concat
          ⟨hflow.started hstarted, hunsettled, hnoclose, habort, fun p c hmem => ?_⟩
        have hwritten : .write p c ∈ s.log := by
          rw [← mem_writesOf, ← haccepted]
          exact mem_acceptedOf.mpr hmem
        refine (hflow.wrote p c hwritten).resolve_right fun hw => ?_
        rw [hwrite] at hw
        cases hw
      unsettled := fun _ => by
        simp only [record, unsettled_concat, hunsettled, hwrite, SinkRecord.isInvocation,
          SinkRecord.isSettlement]
        rfl
      aborted := fun hmem => by
        rcases List.mem_append.mp hmem with hmem | hmem
        · exact absurd hmem habort
        · cases List.mem_singleton.mp hmem
      requested := fun q hq => by
        rcases hcore.requested q hq with hq | hq | ⟨ok, hq⟩ | hq
        · exact .inl hq
        · exact .inr (.inl hq)
        · exact .inr (.inr (.inl ⟨ok, List.mem_append_left _ hq⟩))
        · exact .inr (.inr (.inr hq))
      fulfilled := fun q hq => List.mem_append_left _ (hcore.fulfilled q hq)
      numbers := by
        simpa only [record, acceptedOf_concat, SinkRecord.accept?, Option.toList_none,
          List.append_nil] using hcore.numbers
      calls := by
        simpa only [record, acceptedOf_concat, SinkRecord.accept?, Option.toList_none,
          List.append_nil] using hcore.calls }
  · intro _
    exact { hflow with
      algorithms := .inr (by rintro ⟨⟩)
      started := fun hst => List.mem_append_left _ (hflow.started hst)
      queue := by
        refine ⟨[], hlength, ?_, ?_⟩
        · simp only [record, acceptedOf_concat, writesOf_concat, SinkRecord.accept?,
            SinkRecord.write?, Option.toList_none, List.append_nil, haccepted, hrequests,
            List.zip_nil_left]
        · simp only [record, hwrite]
          exact hq
      wrote := fun q d hmem => by
        rcases List.mem_append.mp hmem with hmem | hmem
        · rcases hflow.wrote q d hmem with hw | hw
          · exact .inl (List.mem_append_left _ hw)
          · exact .inr hw
        · cases List.mem_singleton.mp hmem
      close := fun _ => by rintro ⟨⟩ }

section Sizes

variable [SizeNum F]

variable (env) in
/-- What asking the sink to close does. -/
theorem processClose_eq (h : s.Sound) (hs : s.state = .writable)
    (hwrite : s.inFlightWriteRequest = none) (hclose : s.inFlightCloseRequest = none)
    {vs : List (QueueValue χ)} (hvalues : s.values = .closeSentinel :: vs) :
    ∃ p q, s.closeRequest = some p ∧ s.values = [.closeSentinel] ∧
      QueueWithSizes.values q = [] ∧ s.processClose env = callOut env .close (record { s with
        toQueueWithSizes := q, inFlightCloseRequest := some p, closeRequest := none } .close) >>=
        fun t => pure { t.clearAlgorithms with closePending := true } := by
  obtain ⟨rest, -, -, hqueue⟩ := h.front hs hwrite
  -- no chunk stands before the sentinel, and nothing after it
  obtain rfl : rest = [] := by
    rw [hvalues] at hqueue
    cases rest with
    | nil => rfl
    | cons c rest => simp at hqueue
  obtain ⟨p, hrequest⟩ : ∃ p, s.closeRequest = some p := by
    rw [← Option.ne_none_iff_exists']
    intro hnone
    rw [hvalues, hnone] at hqueue
    cases hqueue
  have hsentinel : s.values = [.closeSentinel] := by simpa [hrequest] using hqueue
  obtain ⟨v, q, hq⟩ : ∃ v q, s.dequeueValue = some (v, q) := by
    cases hd : s.dequeueValue with
    | none =>
      rw [QueueWithSizes.dequeueValue_eq_none.mp hd] at hvalues
      cases hvalues
    | some vq => exact ⟨vq.1, vq.2, rfl⟩
  have hempty : q.values = [] := by
    have hsplit := QueueWithSizes.values_of_dequeue hq
    rw [hsentinel] at hsplit
    exact (List.cons.inj hsplit).2.symm
  have halg : s.algorithms = true := (h.flowing hs).algorithms.resolve_right fun hne => hne hclose
  refine ⟨p, q, hrequest, hsentinel, hempty, ?_⟩
  rw [processClose, markCloseRequestInFlight, check_bind (by simp [hclose]),
    check_bind (by simp [hrequest])]
  simp only [Outcome.pure_eq_ok, Outcome.ok_bind, dequeue]
  rw [check_bind (by
    have hne : s.queue ≠ [] := fun hnil => by simp [QueueWithSizes.values, hnil] at hvalues
    simpa using hne), hq]
  simp only [Outcome.expect_some, Outcome.ok_bind]
  rw [check_bind (by simpa [QueueWithSizes.values] using hempty)]
  simp only [invoke, halg, hrequest, if_true]

/-- **The sink is asked to close.** -/
theorem processClose_reaches (henv : Obedient env) (h : s.Sound) (hs : s.state = .writable)
    (hstarted : s.started = true) (hwrite : s.inFlightWriteRequest = none)
    (hclose : s.inFlightCloseRequest = none) {vs : List (QueueValue χ)}
    (hvalues : s.values = .closeSentinel :: vs) : (s.processClose env).Sat (Reaches s) Q E := by
  obtain ⟨p, q, hrequest, hsentinel, hempty, heq⟩ :=
    processClose_eq env h hs hwrite hclose hvalues
  have hgiven := h.giveClose hs hstarted hwrite hclose hrequest hsentinel hempty
  rw [heq]
  refine (callOut_reaches henv hgiven _).bind fun t ht => ?_
  obtain ⟨hflight, -⟩ := ht.2.close (by rintro ⟨⟩)
  have hflight : t.inFlightCloseRequest ≠ none := by
    rw [hflight]
    rintro ⟨⟩
  exact ⟨⟨{ ht.1.core with closePending := fun _ => hflight },
      fun hw => { ht.1.flowing hw with algorithms := .inr hflight }⟩,
    steady_of_idle hwrite hclose (by rw [hs]; rintro ⟨⟩) (fun hno => absurd hs hno) ht.2.hand
      ht.2.measuring ht.2.calls⟩

/-- What advancing the queue can do. -/
theorem advanceQueueIfNeeded_cases (env : WritableEnv χ F) (h : s.Sound) (hlive : s.isLive = true)
    (hclose : s.state = .erroring → s.inFlightCloseRequest = none) :
    s.advanceQueueIfNeeded env = .ok s ∨
      s.started = true ∧ s.inFlightWriteRequest = none ∧ s.inFlightCloseRequest = none ∧
        (s.state = .erroring ∧ s.advanceQueueIfNeeded env = s.finishErroring env ∨
          s.state = .writable ∧
            ((∃ vs, s.values = .closeSentinel :: vs ∧
                s.advanceQueueIfNeeded env = s.processClose env) ∨
              ∃ c vs, s.values = .chunk c :: vs ∧
                s.advanceQueueIfNeeded env = s.processWrite env c)) := by
  rw [advanceQueueIfNeeded]
  by_cases hstarted : s.started = true
  swap
  · rw [if_pos (by simpa using hstarted)]
    exact .inl rfl
  rw [if_neg (by simpa using hstarted)]
  by_cases hwrite : s.inFlightWriteRequest = none
  swap
  · rw [if_pos (by simpa [Option.isSome_iff_ne_none] using hwrite)]
    exact .inl rfl
  rw [if_neg (by simp [hwrite]), check_bind hlive]
  by_cases hs : s.state = .erroring
  · rw [if_pos hs]
    exact .inr ⟨hstarted, hwrite, hclose hs, .inl ⟨hs, rfl⟩⟩
  rw [if_neg hs]
  have hs : s.state = .writable := by simpa [isLive, hs] using hlive
  -- a close that is in flight has left an empty queue
  have hidle {v : QueueValue χ} {vs : List (QueueValue χ)} (hvalues : s.values = v :: vs) :
      s.inFlightCloseRequest = none := by
    by_contra hne
    rw [(h.core.flightClose hne).2.2.2.2] at hvalues
    cases hvalues
  split
  next => exact .inl rfl
  next size vs hq =>
    have hvalues : s.values = .closeSentinel :: vs.map Prod.fst := by
      simp [QueueWithSizes.values, hq]
    exact .inr ⟨hstarted, hwrite, hidle hvalues, .inr ⟨hs, .inl ⟨_, hvalues, rfl⟩⟩⟩
  next c size vs hq =>
    have hvalues : s.values = .chunk c :: vs.map Prod.fst := by
      simp [QueueWithSizes.values, hq]
    exact .inr ⟨hstarted, hwrite, hidle hvalues, .inr ⟨hs, .inr ⟨c, _, hvalues, rfl⟩⟩⟩

/-- **Advancing the queue.** -/
theorem advanceQueueIfNeeded_reaches (henv : Obedient env) (h : s.Sound) (hlive : s.isLive = true)
    (hclose : s.state = .erroring → s.inFlightCloseRequest = none) :
    (s.advanceQueueIfNeeded env).Sat (Reaches s) Q E := by
  rcases advanceQueueIfNeeded_cases env h hlive hclose with
    heq | ⟨hstarted, hwrite, hclose, ⟨hs, heq⟩ | ⟨hs, ⟨vs, hvalues, heq⟩ | ⟨c, vs, hvalues, heq⟩⟩⟩
  · rw [heq]
    exact ⟨h, .refl s⟩
  · rw [heq]
    exact finishErroring_reaches henv h.core hs hwrite hclose hstarted
  · rw [heq]
    exact processClose_reaches henv h hs hstarted hwrite hclose hvalues
  · rw [heq]
    exact processWrite_reaches henv h hs hstarted hwrite hclose hvalues

end Sizes

end WritableStream

end WebStreams
