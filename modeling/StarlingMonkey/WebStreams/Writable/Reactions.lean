import StarlingMonkey.WebStreams.Writable.Interface

/-!
# The promise reactions of a writable stream are sound

What the stream does when the promise of its start, of a write, of the close or of the abort is
settled. A reaction closes what the invocation had left open, so that it is not steady with the
state it starts from: it is sound, and that is all the next event asks for.
-/

namespace WebStreams

open Ledger

namespace WritableStream

variable {χ F : Type} {env : WritableEnv χ F} {s t : WritableStream χ F}
  {Q : WritableStream χ F → Prop} {E : WritableAbort → Prop}

/-! ### The start -/

/-- Before the start promise is settled nothing is in flight and the stream lives. -/
theorem Core.notStarted (h : s.Core) (hpending : s.startPending = true) :
    s.inFlightWriteRequest = none ∧ s.inFlightCloseRequest = none ∧ s.isLive = true := by
  have hstarted : s.started = false := by
    have hstart := h.start
    rw [hpending] at hstart
    simpa using hstart.symm
  refine ⟨?_, ?_, ?_⟩
  · by_contra hne
    rw [(h.flightWrite hne).1] at hstarted
    cases hstarted
  · by_contra hne
    rw [(h.flightClose hne).1] at hstarted
    cases hstarted
  · by_contra hno
    rw [(h.ended (by simpa using hno)).1] at hstarted
    cases hstarted

/-- The start promise is settled. -/
theorem Core.start_settled (h : s.Core) (hpending : s.startPending = true) :
    Core { s with startPending := false, started := true } := by
  obtain ⟨hwrite, hclose, hlive⟩ := h.notStarted hpending
  exact { h with
    flightWrite := fun hne => absurd hwrite hne
    flightClose := fun hne => absurd hclose hne
    ended := fun hno => by
      rw [show s.isLive = false from hno] at hlive
      cases hlive
    start := rfl }

/-- Recording that the start promise was fulfilled. -/
theorem Sound.started (h : s.Sound) (hpending : s.startPending = true) :
    Sound (record { s with startPending := false, started := true } .started) := by
  have hcore := h.core.start_settled hpending
  constructor
  · exact { hcore with
      closed := fun hc => ⟨(hcore.closed hc).1, List.mem_append_left _ (hcore.closed hc).2⟩
      disciplined := hcore.disciplined.concat trivial
      unsettled := fun hne => by
        simp only [record, unsettled_concat, SinkRecord.isInvocation, SinkRecord.isSettlement]
        simpa using hcore.unsettled hne
      aborted := fun hmem => by
        rcases List.mem_append.mp hmem with hmem | hmem
        · exact hcore.aborted hmem
        · cases List.mem_singleton.mp hmem
      requested := fun p hp => by
        rcases hcore.requested p hp with hp | hp | ⟨ok, hp⟩ | hp
        · exact .inl hp
        · exact .inr (.inl hp)
        · exact .inr (.inr (.inl ⟨ok, List.mem_append_left _ hp⟩))
        · exact .inr (.inr (.inr hp))
      fulfilled := fun p hp => List.mem_append_left _ (hcore.fulfilled p hp)
      numbers := by
        simpa only [record, acceptedOf_concat, SinkRecord.accept?, Option.toList_none,
          List.append_nil] using hcore.numbers
      calls := by
        simpa only [record, acceptedOf_concat, SinkRecord.accept?, Option.toList_none,
          List.append_nil] using hcore.calls }
  · intro hs
    have hflow := h.flowing hs
    exact { hflow with
      started := fun _ => List.mem_append_right _ (List.mem_singleton_self _)
      queue := by
        obtain ⟨rest, hlength, haccepted, hqueue⟩ := hflow.queue
        refine ⟨rest, hlength, ?_, hqueue⟩
        simpa only [record, acceptedOf_concat, writesOf_concat, SinkRecord.accept?,
          SinkRecord.write?, Option.toList_none, List.append_nil] using haccepted
      wrote := fun p c hmem => by
        rcases List.mem_append.mp hmem with hmem | hmem
        · rcases hflow.wrote p c hmem with hw | hw
          · exact .inl (List.mem_append_left _ hw)
          · exact .inr hw
        · cases List.mem_singleton.mp hmem
      close := fun hmem => by
        rcases List.mem_append.mp hmem with hmem | hmem
        · exact hflow.close hmem
        · cases List.mem_singleton.mp hmem }

/-! ### A write -/

/-- What is in flight is settled, with a rejection or not. -/
theorem Core.settleWrite (h : s.Core) {p : ℕ} (hp : s.inFlightWriteRequest = some p)
    (o : Settled) (ok : Bool) (ho : o = .fulfilled → ok = true) :
    Core (record
      ({ s with inFlightWriteRequest := none, writePending := false }.settle (.write p) o)
      (.wrote p ok)) := by
  have hne : s.inFlightWriteRequest ≠ none := by
    rw [hp]
    rintro ⟨⟩
  obtain ⟨hstarted, hlive, -⟩ := h.flightWrite hne
  have hclose : s.inFlightCloseRequest = none := h.single.resolve_left hne
  have herrored : s.state ≠ .errored := by
    intro hs
    simp [isLive, hs] at hlive
  exact { h with
    single := .inl rfl
    flightWrite := fun hno => absurd rfl hno
    flightClose := fun hno => absurd hclose hno
    ended := fun hno => by
      rw [show s.isLive = false from hno] at hlive
      cases hlive
    closed := fun hc => by
      simp [isLive, show s.state = .closed from hc] at hlive
    writePending := by rintro ⟨⟩
    ledger := by
      refine ledger_settle (l := [(.write p, o)]) h.ledger rfl rfl ?_
      rw [outstanding_eq, outstanding_eq]
      simp only [record, settle, hp, Option.toList_some, Option.toList_none, List.map_cons,
        List.map_nil, WritePromise.number, bill_nil]
      abel
    disciplined := h.disciplined.concat trivial
    unsettled := fun _ => by
      simp only [record, settle, unsettled_concat, h.unsettled herrored, hp, hclose,
        SinkRecord.isInvocation, SinkRecord.isSettlement]
      rfl
    aborted := fun hmem => by
      rcases List.mem_append.mp hmem with hmem | hmem
      · exact absurd (h.aborted hmem) herrored
      · cases List.mem_singleton.mp hmem
    requested := fun q hq => by
      rcases h.requested q hq with hq | hq | ⟨ok', hq⟩ | hq
      · exact .inl hq
      · obtain rfl : p = q := Option.some.inj (hp.symm.trans hq)
        exact .inr (.inr (.inl ⟨ok, List.mem_append_right _ (List.mem_singleton_self _)⟩))
      · exact .inr (.inr (.inl ⟨ok', List.mem_append_left _ hq⟩))
      · exact absurd hq.1 herrored
    fulfilled := fun q hq => by
      rcases List.mem_append.mp hq with hq | hq
      · exact List.mem_append_left _ (h.fulfilled q hq)
      · obtain ⟨heq, rfl⟩ := Prod.mk.inj (List.mem_singleton.mp hq)
        obtain rfl := WritePromise.write.inj heq
        rw [← ho rfl]
        exact List.mem_append_right _ (List.mem_singleton_self _)
    numbers := by
      simpa only [record, settle, acceptedOf_concat, SinkRecord.accept?, Option.toList_none,
        List.append_nil] using h.numbers
    calls := by
      simpa only [record, settle, acceptedOf_concat, SinkRecord.accept?, Option.toList_none,
        List.append_nil] using h.calls }

/-- A chunk that was written leaves the queue. -/
theorem Sound.written (h : s.Sound) {p : ℕ} (hp : s.inFlightWriteRequest = some p)
    {v : QueueValue χ} {q : QueueWithSizes (QueueValue χ) F} (hq : s.values = v :: q.values) :
    Sound { record ({ s with inFlightWriteRequest := none, writePending := false }.settle
      (.write p) .fulfilled) (.wrote p true) with toQueueWithSizes := q } := by
  have hcore := h.core.settleWrite hp .fulfilled true fun _ => rfl
  have hne : s.inFlightWriteRequest ≠ none := by
    rw [hp]
    rintro ⟨⟩
  have hlive : s.isLive = true := (h.core.flightWrite hne).2.1
  have hclose : s.inFlightCloseRequest = none := h.core.single.resolve_left hne
  constructor
  · exact { hcore with
      flightWrite := fun hno => absurd rfl hno
      flightClose := fun hno => absurd hclose hno
      ended := fun hno => by
        rw [show s.isLive = false from hno] at hlive
        cases hlive }
  · intro hs
    have hflow := h.flowing hs
    obtain ⟨rest, hlength, haccepted, hqueue⟩ := hflow.queue
    exact { hflow with
      started := fun hst => List.mem_append_left _ (hflow.started hst)
      queue := by
        refine ⟨rest, hlength, ?_, ?_⟩
        · simpa only [record, settle, acceptedOf_concat, writesOf_concat, SinkRecord.accept?,
            SinkRecord.write?, Option.toList_none, List.append_nil] using haccepted
        · rw [hq, hp] at hqueue
          exact hqueue
      wrote := fun p' c hmem => by
        rcases List.mem_append.mp hmem with hmem | hmem
        · rcases hflow.wrote p' c hmem with hw | hw
          · exact .inl (List.mem_append_left _ hw)
          · obtain rfl : p = p' := Option.some.inj (hp.symm.trans hw)
            exact .inl (List.mem_append_right _ (List.mem_singleton_self _))
        · cases List.mem_singleton.mp hmem
      close := fun hmem => by
        rcases List.mem_append.mp hmem with hmem | hmem
        · exact hflow.close hmem
        · cases List.mem_singleton.mp hmem }

/-! ### The close -/

/-- The stream once its close in flight is settled; a pending abort goes with it. -/
def closeSettled (s : WritableStream χ F) (p : ℕ) (o : Settled) (ok : Bool) :
    WritableStream χ F :=
  { s with
    inFlightCloseRequest := none, closePending := false, pendingAbortRequest := none
    settled := s.settled ++ (.close p, o) ::
      s.pendingAbortRequest.toList.map fun r => (.abort r.promise, o)
    log := s.log ++ [.closed ok] }

theorem Core.settleClose (h : s.Core) {p : ℕ} (hp : s.inFlightCloseRequest = some p)
    (o : Settled) (ok : Bool) : (s.closeSettled p o ok).Core := by
  have hne : s.inFlightCloseRequest ≠ none := by
    rw [hp]
    rintro ⟨⟩
  obtain ⟨hstarted, hlive, hrequest, hwrites, hvalues⟩ := h.flightClose hne
  have hwrite : s.inFlightWriteRequest = none := h.single.resolve_right hne
  have herrored : s.state ≠ .errored := by
    intro hs
    simp [isLive, hs] at hlive
  exact { h with
    single := .inr rfl
    flightWrite := fun hno => absurd hwrite hno
    flightClose := fun hno => absurd rfl hno
    ended := fun hno => by
      rw [show s.isLive = false from hno] at hlive
      cases hlive
    closed := fun hc => by
      simp [isLive, show s.state = .closed from hc] at hlive
    closePending := by rintro ⟨⟩
    ledger := by
      refine ledger_settle h.ledger rfl rfl ?_
      rw [outstanding_eq, outstanding_eq]
      cases hr : s.pendingAbortRequest with
      | none => simp [closeSettled, hp, hr, WritePromise.number]; abel
      | some r =>
        simp [closeSettled, hp, hr, WritePromise.number, bill_cons p [r.promise]]
        abel
    disciplined := h.disciplined.concat trivial
    unsettled := fun _ => by
      simp only [closeSettled, unsettled_concat, h.unsettled herrored, hp, hwrite,
        SinkRecord.isInvocation, SinkRecord.isSettlement]
      rfl
    aborted := fun hmem => by
      rcases List.mem_append.mp hmem with hmem | hmem
      · exact absurd (h.aborted hmem) herrored
      · cases List.mem_singleton.mp hmem
    requested := fun q hq => by
      rcases h.requested q hq with hq | hq | ⟨ok', hq⟩ | hq
      · exact .inl hq
      · exact .inr (.inl hq)
      · exact .inr (.inr (.inl ⟨ok', List.mem_append_left _ hq⟩))
      · exact absurd hq.1 herrored
    fulfilled := fun q hq => by
      rcases List.mem_append.mp hq with hq | hq
      · exact List.mem_append_left _ (h.fulfilled q hq)
      · simp at hq
    numbers := by
      simpa only [closeSettled, acceptedOf_concat, SinkRecord.accept?, Option.toList_none,
        List.append_nil] using h.numbers
    calls := by
      simpa only [closeSettled, acceptedOf_concat, SinkRecord.accept?, Option.toList_none,
        List.append_nil] using h.calls }

/-- A stream whose close was settled has nothing left that waits. -/
theorem Core.toClosed (h : s.Core) {p : ℕ} (hp : s.inFlightCloseRequest = some p)
    (writer : Option Writer) :
    Core { s.closeSettled p .fulfilled true with
      state := .closed, history := s.history ++ [.closed], storedError := none, writer } := by
  have hcore := h.settleClose hp .fulfilled true
  have hne : s.inFlightCloseRequest ≠ none := by
    rw [hp]
    rintro ⟨⟩
  obtain ⟨hstarted, hlive, hrequest, hwrites, hvalues⟩ := h.flightClose hne
  have hwrite : s.inFlightWriteRequest = none := h.single.resolve_right hne
  have herrored : s.state ≠ .errored := by
    intro hs
    simp [isLive, hs] at hlive
  have hnext : s.state.Next .closed := by
    cases hs : s.state with
    | writable => trivial
    | erroring => trivial
    | closed => simp [isLive, hs] at hlive
    | errored => exact absurd hs herrored
  exact { hcore with
    flightWrite := fun hno => absurd hwrite hno
    flightClose := fun hno => absurd rfl hno
    ended := fun _ => ⟨hstarted, hwrites, hvalues, rfl⟩
    closed := fun _ => ⟨hrequest, List.mem_append_right _ (List.mem_singleton_self _)⟩
    errored := by rintro ⟨⟩
    abortPending := fun hno => absurd (h.abortPending hno).1 herrored
    hand := fun hno => absurd (h.hand hno) herrored
    history := h.history_concat hnext
    stored := by rintro ⟨⟩
    unsettled := fun _ => hcore.unsettled herrored
    aborted := fun hmem => absurd (hcore.aborted hmem) herrored
    requested := fun q hq => by
      rcases hcore.requested q hq with hq | hq | hq | hq
      · exact .inl hq
      · exact .inr (.inl hq)
      · exact .inr (.inr (.inl hq))
      · exact absurd hq.1 herrored }

theorem finishInFlightClose_eq (h : s.Sound) {p : ℕ} (hp : s.inFlightCloseRequest = some p) :
    finishInFlightClose { s with closePending := false } =
      .ok { s.closeSettled p .fulfilled true with
        state := .closed, history := s.history ++ [.closed], storedError := none
        writer := s.writer.map fun w => w.settleClosed .fulfilled } := by
  have hne : s.inFlightCloseRequest ≠ none := by
    rw [hp]
    rintro ⟨⟩
  have hlive : s.isLive = true := (h.core.flightClose hne).2.1
  by_cases hs : s.state = .erroring
  · cases hr : s.pendingAbortRequest with
    | none => simp [finishInFlightClose, record, settle, moveTo, updateWriter, closeSettled, check,
        isLive, hp, hs, hr]
    | some r => simp [finishInFlightClose, record, settle, moveTo, updateWriter, closeSettled,
        check, isLive, hp, hs, hr]
  · have hw : s.state = .writable := by simpa [isLive, hs] using hlive
    have hr := (h.flowing hw).abort
    have hstored := h.core.stored hw
    simp [finishInFlightClose, record, settle, moveTo, updateWriter, closeSettled, check, isLive,
      hp, hw, hr, hstored]

theorem finishInFlightClose_sound (h : s.Sound) {p : ℕ} (hp : s.inFlightCloseRequest = some p) :
    (finishInFlightClose { s with closePending := false }).Sat (fun t => t.Sound) Q E := by
  rw [finishInFlightClose_eq h hp]
  exact ⟨h.core.toClosed hp _, by rintro ⟨⟩⟩

/-! ### All events -/

section Orders

variable [SizeOrder F]

theorem startPromiseFulfilled_sound (henv : Obedient env) (h : s.Sound)
    (hpending : s.startPending = true) :
    (startPromiseFulfilled env { s with startPending := false }).Sat (fun t => t.Sound) Q E := by
  obtain ⟨-, hclose, hlive⟩ := h.core.notStarted hpending
  rw [startPromiseFulfilled, check_bind (by exact hlive)]
  exact (advanceQueueIfNeeded_reaches henv (h.started hpending) hlive fun _ => hclose).imp
    fun t ht => ht.1

theorem startPromiseRejected_sound (henv : Obedient env) (h : s.Sound)
    (hpending : s.startPending = true) (e : Option JsError) :
    (startPromiseRejected env { s with startPending := false } e).Sat (fun t => t.Sound) Q E := by
  obtain ⟨hwrite, hclose, hlive⟩ := h.core.notStarted hpending
  rw [startPromiseRejected, check_bind (by exact hlive)]
  exact (dealWithRejection_reaches henv (h.core.start_settled hpending) hlive hwrite hclose rfl
    e).imp fun t ht => ht.1

variable (env) in
/-- What the fulfillment of the sink's write does. -/
theorem writePromiseFulfilled_eq (h : s.Core) {p : ℕ} (hp : s.inFlightWriteRequest = some p) :
    ∃ v q, s.dequeueValue = some (v, q) ∧
      writePromiseFulfilled env { s with writePending := false } = refreshAndAdvance env { s with
        toQueueWithSizes := q, inFlightWriteRequest := none, writePending := false
        settled := s.settled ++ [(.write p, .fulfilled)], log := s.log ++ [.wrote p true] } := by
  have hne : s.inFlightWriteRequest ≠ none := by
    rw [hp]
    rintro ⟨⟩
  obtain ⟨-, hlive, c, vs, hvalues⟩ := h.flightWrite hne
  have hqueue : s.queue ≠ [] := by
    intro hnil
    simp [QueueWithSizes.values, hnil] at hvalues
  cases hd : s.dequeueValue with
  | none =>
    rw [QueueWithSizes.dequeueValue_eq_none.mp hd] at hvalues
    cases hvalues
  | some vq =>
    obtain ⟨v, q⟩ := vq
    refine ⟨v, q, rfl, ?_⟩
    simp only [writePromiseFulfilled, finishInFlightWrite, hp, Outcome.expect_some,
      Outcome.ok_bind, Outcome.pure_eq_ok]
    rw [check_bind (by exact hlive), dequeue, check_bind (by simpa [record, settle] using hqueue)]
    simp only [record, settle, hd, Outcome.expect_some, Outcome.ok_bind, Outcome.pure_eq_ok]
    rfl

theorem writePromiseFulfilled_sound (henv : Obedient env) (h : s.Sound) {p : ℕ}
    (hp : s.inFlightWriteRequest = some p) :
    (writePromiseFulfilled env { s with writePending := false }).Sat (fun t => t.Sound) Q E := by
  have hne : s.inFlightWriteRequest ≠ none := by
    rw [hp]
    rintro ⟨⟩
  have hlive : s.isLive = true := (h.core.flightWrite hne).2.1
  have hclose : s.inFlightCloseRequest = none := h.core.single.resolve_left hne
  obtain ⟨v, q, hd, heq⟩ := writePromiseFulfilled_eq env h.core hp
  rw [heq]
  exact (refreshAndAdvance_reaches henv (h.written hp (QueueWithSizes.values_of_dequeue hd)) hlive
    fun _ => hclose).imp fun t ht => ht.1

theorem finishInFlightWriteWithError_sound (henv : Obedient env) (h : s.Core) {p : ℕ}
    (hp : s.inFlightWriteRequest = some p) (e : Option JsError) :
    (finishInFlightWriteWithError env { s with writePending := false } e).Sat
      (fun t => t.Sound) Q E := by
  have hne : s.inFlightWriteRequest ≠ none := by
    rw [hp]
    rintro ⟨⟩
  obtain ⟨hstarted, hlive, -⟩ := h.flightWrite hne
  have hclose : s.inFlightCloseRequest = none := h.single.resolve_left hne
  have hcore := h.settleWrite hp (.rejected e) false (by rintro ⟨⟩)
  simp only [finishInFlightWriteWithError, hp, Outcome.expect_some, Outcome.ok_bind]
  rw [check_bind (by exact hlive)]
  exact (dealWithRejection_reaches henv hcore hlive rfl hclose hstarted e).imp fun t ht => ht.1

theorem writePromiseRejected_sound (henv : Obedient env) (h : s.Sound) {p : ℕ}
    (hp : s.inFlightWriteRequest = some p) (e : Option JsError) :
    (writePromiseRejected env { s with writePending := false } e).Sat (fun t => t.Sound) Q E := by
  rw [writePromiseRejected]
  split
  next =>
    have hcore : s.clearAlgorithms.Core := { h.core with }
    exact finishInFlightWriteWithError_sound henv hcore hp e
  next => exact finishInFlightWriteWithError_sound henv h.core hp e

theorem finishInFlightCloseWithError_eq (hlive : s.isLive = true) {p : ℕ}
    (hp : s.inFlightCloseRequest = some p) (e : Option JsError) :
    finishInFlightCloseWithError env { s with closePending := false } e =
      dealWithRejection env (s.closeSettled p (.rejected e) false) e := by
  simp only [finishInFlightCloseWithError, hp, Outcome.expect_some, Outcome.ok_bind]
  rw [check_bind (by exact hlive)]
  cases hr : s.pendingAbortRequest with
  | none => simp [record, settle, closeSettled, hr]
  | some r => simp [record, settle, closeSettled, hr]

theorem finishInFlightCloseWithError_sound (henv : Obedient env) (h : s.Sound) {p : ℕ}
    (hp : s.inFlightCloseRequest = some p) (e : Option JsError) :
    (finishInFlightCloseWithError env { s with closePending := false } e).Sat
      (fun t => t.Sound) Q E := by
  have hne : s.inFlightCloseRequest ≠ none := by
    rw [hp]
    rintro ⟨⟩
  obtain ⟨hstarted, hlive, -⟩ := h.core.flightClose hne
  have hwrite : s.inFlightWriteRequest = none := h.core.single.resolve_right hne
  rw [finishInFlightCloseWithError_eq hlive hp e]
  exact (dealWithRejection_reaches henv (h.core.settleClose hp _ _) hlive hwrite rfl hstarted
    e).imp fun t ht => ht.1

omit [SizeOrder F] in
theorem abortPromiseSettled_sound (h : s.Sound) {p : ℕ} (hp : s.abortPending = some p)
    (o : Settled) :
    (abortPromiseSettled { s with abortPending := none } p o).Sat (fun t => t.Sound) Q E := by
  have hne : s.abortPending ≠ none := by
    rw [hp]
    rintro ⟨⟩
  have hcore := h.core
  obtain ⟨hs, hhand⟩ := hcore.abortPending hne
  have hlive : s.isLive = false := by simp [isLive, hs]
  obtain ⟨hstarted, hwrites, hvalues, hpending⟩ := hcore.ended hlive
  have hclose : s.inFlightCloseRequest = none := by
    by_contra hno
    rw [(hcore.flightClose hno).2.1] at hlive
    cases hlive
  rw [abortPromiseSettled, rejectClose_eq (by exact hs) (by exact hclose)]
  refine ⟨{ hcore with
    flightClose := fun hno => absurd hclose hno
    closed := fun hc => by
      rw [show s.state = .closed from hc] at hs
      cases hs
    errored := fun _ _ _ => rfl
    abortPending := by intros; contradiction
    ledger := by
      refine ledger_settle (l := (.abort p, o) :: s.closeRequest.toList.map fun q =>
        (.close q, .rejected s.storedError)) hcore.ledger rfl (by simp [record, settle]) ?_
      rw [outstanding_eq, outstanding_eq]
      simp [record, settle, hp, WritePromise.number, Function.comp_def,
        bill_cons p s.closeRequest.toList]
      abel
    disciplined := hcore.disciplined.concat trivial
    unsettled := fun hno => absurd hs hno
    aborted := fun _ => hs
    requested := fun q hq => by
      rcases hcore.requested q hq with hq | hq | ⟨ok, hq⟩ | hq
      · exact .inl hq
      · exact .inr (.inl hq)
      · exact .inr (.inr (.inl ⟨ok, List.mem_append_left _ hq⟩))
      · exact .inr (.inr (.inr ⟨hs, by simp [record, settle, hq.2]⟩))
    fulfilled := fun q hq => by
      refine List.mem_append_left _ (hcore.fulfilled q ?_)
      simpa [record, settle] using hq
    numbers := by
      simpa only [record, settle, acceptedOf_concat, SinkRecord.accept?, Option.toList_none,
        List.append_nil] using hcore.numbers
    calls := by
      simpa only [record, settle, acceptedOf_concat, SinkRecord.accept?, Option.toList_none,
        List.append_nil] using hcore.calls }, fun hw => ?_⟩
  rw [show s.state = .writable from hw] at hs
  cases hs

/-- **Every event** leads from a sound state to a sound one, and none aborts. -/
theorem step_sound (henv : Obedient env) (h : s.Sound) (e : WritableEvent χ) :
    (s.step env e).Sat (fun t => t.Sound) (fun t => t.Sound) E := by
  cases e with
  | op op =>
    exact (perform_reaches henv h op).mono (fun t ht => ht.1) (fun t ht => ht.1) fun _ => id
  | startFulfilled =>
    rw [step]
    split
    next hp => exact startPromiseFulfilled_sound henv h hp
    next => exact h
  | startRejected e =>
    rw [step]
    split
    next hp => exact startPromiseRejected_sound henv h hp e
    next => exact h
  | writeFulfilled =>
    rw [step]
    split
    next hp =>
      obtain ⟨p, hp⟩ := Option.ne_none_iff_exists'.mp (h.core.writePending hp)
      exact writePromiseFulfilled_sound henv h hp
    next => exact h
  | writeRejected e =>
    rw [step]
    split
    next hp =>
      obtain ⟨p, hp⟩ := Option.ne_none_iff_exists'.mp (h.core.writePending hp)
      exact writePromiseRejected_sound henv h hp e
    next => exact h
  | closeFulfilled =>
    rw [step]
    split
    next hp =>
      obtain ⟨p, hp⟩ := Option.ne_none_iff_exists'.mp (h.core.closePending hp)
      exact finishInFlightClose_sound h hp
    next => exact h
  | closeRejected e =>
    rw [step]
    split
    next hp =>
      obtain ⟨p, hp⟩ := Option.ne_none_iff_exists'.mp (h.core.closePending hp)
      exact finishInFlightCloseWithError_sound henv h hp e
    next => exact h
  | abortFulfilled =>
    rw [step]
    split
    next p hp => exact abortPromiseSettled_sound h hp .fulfilled
    next => exact h
  | abortRejected e =>
    rw [step]
    split
    next p hp => exact abortPromiseSettled_sound h hp (.rejected e)
    next => exact h

end Orders

end WritableStream

end WebStreams
