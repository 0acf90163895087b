import StarlingMonkey.WebStreams.Writable.Operations

/-!
# The interfaces of a writable stream are sound

The operations of the controller, the writer and the stream that author code reaches. Each leads
from a sound state to a sound one that is steady with it, and none aborts.

A write opens the books between the request it adds and the chunk it queues: `Sound.request` is the
state in between, and `Sound.accept` the one with the chunk.
-/

namespace WebStreams

open Ledger

namespace WritableStream

variable {χ F : Type} {env : WritableEnv χ F} {s t u : WritableStream χ F}
  {Q : WritableStream χ F → Prop} {E : WritableAbort → Prop}

/-! ### Promises and the writer -/

/-- A promise is made. -/
theorem ledger_issue {l : List (WritePromise × Settled)} (h : s.ledger = 0)
    (hnext : t.nextPromise = s.nextPromise + 1) (hsettled : t.settled = s.settled ++ l)
    (hout : bill t.outstanding + bill (l.map (·.1.number)) =
      bill s.outstanding + bill [s.nextPromise]) : t.ledger = 0 := by
  rw [ledger, hnext, hsettled, List.map_append, balance_append, balance_succ, add_assoc,
    add_comm (bill _), hout, ← h, ledger]
  abel

/-- Later promises have greater numbers. -/
theorem Core.numbers_succ (h : s.Core) :
    ((acceptedOf s.log).map Prod.fst).Pairwise (· < ·) ∧
      ∀ p ∈ (acceptedOf s.log).map Prod.fst, p < s.nextPromise + 1 :=
  ⟨h.numbers.1, fun p hp => Nat.lt_succ_of_lt (h.numbers.2 p hp)⟩

/-- A promise is returned that is settled already, and is not that of a write that succeeded. -/
theorem returnSettled_reaches (h : s.Sound) {p : ℕ → WritePromise} {o : Settled}
    (hnumber : ∀ n, (p n).number = n) (hfail : ∀ n q, (p n, o) ≠ (.write q, .fulfilled)) :
    Reaches s (s.returnSettled p o) := by
  have hcore := h.core
  refine ⟨⟨{ hcore with
    ledger := by
      refine ledger_issue (l := [(p s.nextPromise, o)]) hcore.ledger rfl rfl ?_
      rw [outstanding_eq, outstanding_eq]
      simp only [returnSettled, settle, List.map_cons, List.map_nil, hnumber]
    requested := fun q hq => by
      rcases hcore.requested q hq with hq | hq | hq | ⟨hs, hq⟩
      · exact .inl hq
      · exact .inr (.inl hq)
      · exact .inr (.inr (.inl hq))
      · exact .inr (.inr (.inr ⟨hs, List.mem_append_left _ hq⟩))
    fulfilled := fun q hq => by
      rcases List.mem_append.mp hq with hq | hq
      · exact hcore.fulfilled q hq
      · exact absurd (List.mem_singleton.mp hq).symm (hfail _ q)
    numbers := hcore.numbers_succ },
    fun hw => { h.flowing hw with }⟩, ?_⟩
  exact ⟨fun _ => ⟨rfl, rfl⟩, fun _ => ⟨rfl, rfl⟩, fun hs => ⟨hs, rfl⟩, id, rfl, rfl,
    fun ho => ⟨ho, fun _ => rfl⟩⟩

/-- Changing the writers, the backpressure or the number of the next writer. -/
theorem writer_reaches (h : s.Sound) (writer : Option Writer) (released : List Writer)
    (backpressure : Bool) (nextWriter : ℕ) :
    Reaches s { s with writer, released, backpressure, nextWriter } :=
  ⟨⟨{ h.core with }, fun hw => { h.flowing hw with }⟩,
    ⟨fun _ => ⟨rfl, rfl⟩, fun _ => ⟨rfl, rfl⟩, fun hs => ⟨hs, rfl⟩, id, rfl, rfl,
      fun ho => ⟨ho, fun _ => rfl⟩⟩⟩

theorem setUpDefaultWriter_reaches (h : s.Sound) :
    s.setUpDefaultWriter.Sat (Reaches s) (Reaches s) E := by
  rw [setUpDefaultWriter]
  split
  next => exact ⟨h, .refl s⟩
  next => exact writer_reaches h _ _ _ _

/-! ### Requests -/

/-- The stream with one more request. -/
def request (s : WritableStream χ F) : WritableStream χ F :=
  { s with
    nextPromise := s.nextPromise + 1
    writeRequests := s.writeRequests ++ [s.nextPromise]
    requested := s.requested ++ [s.nextPromise] }

theorem Core.request (h : s.Core) (hs : s.state = .writable)
    (hclose : s.inFlightCloseRequest = none) : s.request.Core := by
  have hlive : s.isLive = true := by simp [isLive, hs]
  exact { h with
    flightClose := fun hne => absurd hclose hne
    ended := fun hno => by
      rw [show s.isLive = false from hno] at hlive
      cases hlive
    ledger := by
      refine ledger_issue (l := []) h.ledger rfl (by simp [WritableStream.request]) ?_
      rw [outstanding_eq, outstanding_eq]
      simp only [WritableStream.request, bill_append, List.map_nil, bill_nil]
      abel
    requested := fun q hq => by
      rcases List.mem_append.mp hq with hq | hq
      · rcases h.requested q hq with hq | hq
        · exact .inl (List.mem_append_left _ hq)
        · exact .inr hq
      · exact .inl (List.mem_append_right _ hq)
    numbers := h.numbers_succ }

theorem steady_request (s : WritableStream χ F) : Steady s s.request :=
  ⟨fun _ => ⟨rfl, rfl⟩, fun _ => ⟨rfl, rfl⟩, fun hs => ⟨hs, rfl⟩, id, rfl, rfl,
    fun ho => ⟨ho, fun _ => rfl⟩⟩

theorem steady_accept (s : WritableStream χ F) (q : QueueWithSizes (QueueValue χ) F)
    (r : SinkRecord χ) : Steady s (record { s.request with toQueueWithSizes := q } r) :=
  ⟨fun _ => ⟨rfl, rfl⟩, fun _ => ⟨rfl, rfl⟩, fun hs => ⟨hs, rfl⟩, id, rfl, rfl,
    fun ho => ⟨ho, fun _ => rfl⟩⟩

theorem signalAbort_reaches (henv : Obedient env) (h : s.Sound) (reason : Option JsError) :
    (s.signalAbort env reason).Sat (Reaches s) Q E := by
  rw [signalAbort]
  split
  next => exact ⟨h, .refl s⟩
  next =>
    have hsignalled : Sound { s with signalled := true } :=
      ⟨{ h.core with }, fun hw => { h.flowing hw with }⟩
    refine (callOut_reaches henv hsignalled _).imp fun t ht => ?_
    exact ⟨ht.1, { ht.2 with }⟩

/-- The stream with an abort request. -/
def requestAbort (s : WritableStream χ F) (reason : Option JsError) (was : Bool) :
    WritableStream χ F :=
  { s with
    nextPromise := s.nextPromise + 1, pendingAbortRequest := some ⟨s.nextPromise, reason, was⟩ }

theorem Core.requestAbort (h : s.Core) (hlive : s.isLive = true)
    (hnone : s.pendingAbortRequest = none) (reason : Option JsError) (was : Bool) :
    (s.requestAbort reason was).Core :=
  { h with
    ended := fun hno => by
      rw [show s.isLive = false from hno] at hlive
      cases hlive
    ledger := by
      refine ledger_issue (l := []) h.ledger rfl (by simp [WritableStream.requestAbort]) ?_
      rw [outstanding_eq, outstanding_eq]
      simp only [WritableStream.requestAbort, hnone, Option.map_some, Option.map_none,
        Option.toList_some, Option.toList_none, List.map_nil, bill_nil]
      abel
    numbers := h.numbers_succ }

theorem steady_requestAbort (s : WritableStream χ F) (reason : Option JsError) (was : Bool) :
    Steady s (s.requestAbort reason was) :=
  ⟨fun _ => ⟨rfl, rfl⟩, fun _ => ⟨rfl, rfl⟩, fun hs => ⟨hs, rfl⟩, id, rfl, rfl,
    fun ho => ⟨ho, fun _ => rfl⟩⟩

/-- The call of `write` that an operation is about to accept a chunk of is the last one. -/
def LastCall (s : WritableStream χ F) (c : χ) : Prop :=
  s.overtaken = false →
    s.measuring = 0 ∧ ((acceptedOf s.log).map Prod.snd ++ [c]).Sublist s.calls

/-- A call of `write` is recorded. -/
theorem call_reaches (h : s.Sound) (c : χ) : Reaches s (s.call c) ∧ (s.call c).LastCall c := by
  have hcalm (ho : (s.call c).overtaken = false) : s.overtaken = false ∧ s.measuring = 0 := by
    simpa [call] using ho
  have hcalls (ho : (s.call c).overtaken = false) :
      ((acceptedOf s.log).map Prod.snd).Sublist s.calls := by
    obtain ⟨ho, hm⟩ := hcalm ho
    have hsub := (h.core.calls ho).2
    rwa [hm, Nat.sub_zero, List.take_length] at hsub
  refine ⟨⟨⟨{ h.core with calls := fun ho => ?_ }, fun hw => { h.flowing hw with }⟩, ?_⟩,
    fun ho => ⟨(hcalm ho).2, (hcalls ho).append (.refl _)⟩⟩
  · have hm : s.measuring = 0 := (hcalm ho).2
    refine ⟨?_, ?_⟩
    · simp [call, hm]
    · simp only [call, hm, Nat.sub_zero, List.take_length]
      exact (hcalls ho).trans (List.sublist_append_left _ _)
  · exact ⟨fun _ => ⟨rfl, rfl⟩, fun _ => ⟨rfl, rfl⟩, fun hs => ⟨hs, rfl⟩, id, rfl, rfl,
      fun ho => ⟨(hcalm ho).1, fun hm => absurd (hcalm ho).2 hm⟩⟩

/-- The chunk of a request is queued. -/
theorem Sound.accept (h : s.Sound) (hs : s.state = .writable)
    (hclose : s.inFlightCloseRequest = none) (hrequest : s.closeRequest = none) {c : χ}
    (hlast : s.LastCall c) {q : QueueWithSizes (QueueValue χ) F}
    (hq : q.values = s.values ++ [.chunk c]) :
    Sound (record { s.request with toQueueWithSizes := q } (.accepted s.nextPromise c)) := by
  have hcore := h.core.request hs hclose
  have hflow := h.flowing hs
  have hlive : s.isLive = true := by simp [isLive, hs]
  obtain ⟨rest, hlength, haccepted, hqueue⟩ := hflow.queue
  constructor
  · exact { hcore with
      -- the chunk goes behind the one in flight
      flightWrite := fun hne => by
        obtain ⟨hstarted, -, c', vs, hvalues⟩ := h.core.flightWrite hne
        refine ⟨hstarted, hlive, c', vs ++ [.chunk c], ?_⟩
        change q.values = _
        rw [hq, hvalues, List.cons_append]
      flightClose := fun hne => absurd hclose hne
      ended := fun hno => by
        rw [show s.isLive = false from hno] at hlive
        cases hlive
      closed := fun hc => by
        rw [show s.state = .closed from hc] at hs
        cases hs
      disciplined := hcore.disciplined.concat trivial
      unsettled := fun hne => by
        simp only [record, unsettled_concat, SinkRecord.isInvocation, SinkRecord.isSettlement]
        simpa using hcore.unsettled hne
      aborted := fun hmem => by
        rcases List.mem_append.mp hmem with hmem | hmem
        · exact hcore.aborted hmem
        · cases List.mem_singleton.mp hmem
      requested := fun p hp => by
        rcases hcore.requested p hp with hp | hp | ⟨ok, hp⟩ | hp
        · exact .inl hp
        · exact .inr (.inl hp)
        · exact .inr (.inr (.inl ⟨ok, List.mem_append_left _ hp⟩))
        · exact .inr (.inr (.inr hp))
      fulfilled := fun p hp => List.mem_append_left _ (hcore.fulfilled p hp)
      -- its number is above those given before
      numbers := by
        simp only [record, acceptedOf_concat, SinkRecord.accept?, Option.toList_some,
          List.map_append, List.map_singleton, List.pairwise_append, List.mem_append,
          List.mem_singleton]
        refine ⟨⟨h.core.numbers.1, List.pairwise_singleton _ _, ?_⟩, ?_⟩
        · rintro p hp _ rfl
          exact h.core.numbers.2 p hp
        · rintro p (hp | rfl)
          · exact hcore.numbers.2 p hp
          · exact Nat.lt_succ_self _
      -- it was the last call, and the others have theirs already
      calls := fun ho => by
        obtain ⟨hm, hsub⟩ := hlast ho
        refine ⟨?_, ?_⟩
        · simp [record, WritableStream.request, hm]
        · simpa [record, WritableStream.request, hm, SinkRecord.accept?] using hsub }
  · intro _
    exact { hflow with
      started := fun hst => List.mem_append_left _ (hflow.started hst)
      queue := by
        refine ⟨rest ++ [c], by simp [record, WritableStream.request, hlength], ?_, ?_⟩
        · simp only [record, WritableStream.request, acceptedOf_concat, writesOf_concat,
            SinkRecord.accept?, SinkRecord.write?, Option.toList_none, Option.toList_some,
            List.append_nil, haccepted, List.zip_append hlength, List.append_assoc]
          rfl
        -- the chunk in flight, if any, is at the front
        · have hle : s.inFlightWriteRequest.toList.length ≤ s.values.length := by
            cases hw : s.inFlightWriteRequest with
            | none => exact Nat.zero_le _
            | some p =>
              obtain ⟨-, -, c', vs, hvalues⟩ := h.core.flightWrite (by rw [hw]; rintro ⟨⟩)
              simp [hvalues]
          simp only [hrequest, if_true, List.append_nil] at hqueue
          simp only [record, WritableStream.request, hrequest, if_true, List.append_nil, hq,
            List.drop_append_of_le_length hle, hqueue, List.map_append, List.map_singleton]
      wrote := fun p d hmem => by
        rcases List.mem_append.mp hmem with hmem | hmem
        · rcases hflow.wrote p d hmem with hw | hw
          · exact .inl (List.mem_append_left _ hw)
          · exact .inr hw
        · cases List.mem_singleton.mp hmem
      close := fun hmem => by
        rcases List.mem_append.mp hmem with hmem | hmem
        · exact hflow.close hmem
        · cases List.mem_singleton.mp hmem }

section Sizes

variable [SizeNum F]

/-! ### Writing -/

omit [SizeNum F] in
/-- While the chunk of the last call is measured, its call is not counted. -/
theorem Sound.measure (h : s.Sound) {c : χ} (hlast : s.LastCall c)
    (hcalls : s.overtaken = false → ∃ l, s.calls = l ++ [c]) :
    Sound { s with measuring := s.measuring + 1 } := by
  refine ⟨{ h.core with calls := fun ho => ?_ }, fun hw => { h.flowing hw with }⟩
  obtain ⟨hm, hsub⟩ := hlast ho
  obtain ⟨l, hl⟩ := hcalls ho
  rw [hl] at hsub
  refine ⟨by simp [hm], ?_⟩
  simpa [hm, hl] using (List.append_sublist_append_right [c]).mp hsub

omit [SizeNum F] in
/-- The chunk of the last call was measured. -/
theorem Reaches.measured (h : Reaches { s with measuring := s.measuring + 1 } t) {c : χ}
    (hlast : s.LastCall c) (hcalls : s.overtaken = false → ∃ l, s.calls = l ++ [c]) :
    Reaches s { t with measuring := t.measuring - 1 } ∧
      LastCall { t with measuring := t.measuring - 1 } c := by
  obtain ⟨ht, hst⟩ := h
  have htm : t.measuring = s.measuring + 1 := hst.measuring
  have hlast' : LastCall { t with measuring := t.measuring - 1 } c := by
    intro ho
    obtain ⟨hso, htc⟩ := hst.calls ho
    obtain ⟨hm, -⟩ := hlast hso
    obtain ⟨l, hl⟩ := hcalls hso
    have htc : t.calls = l ++ [c] := (htc (Nat.succ_ne_zero _)).trans hl
    refine ⟨by simp [htm, hm], ?_⟩
    have hsub := (ht.core.calls ho).2
    rw [htm, hm, htc, List.length_append, List.length_singleton] at hsub
    simp only [zero_add, Nat.add_sub_cancel, List.take_left'] at hsub
    rw [htc]
    exact hsub.append (.refl _)
  refine ⟨⟨⟨{ ht.core with calls := fun ho => ?_ }, fun hw => { ht.flowing hw with }⟩,
    { hst with
      measuring := by simp [htm]
      calls := fun ho => ?_ }⟩, hlast'⟩
  · obtain ⟨hm, hsub⟩ := hlast' ho
    refine ⟨by rw [hm]; omega, ?_⟩
    rw [hm, Nat.sub_zero, List.take_length]
    exact (List.sublist_append_left _ _).trans hsub
  · obtain ⟨hso, htc⟩ := hst.calls ho
    exact ⟨hso, fun _ => htc (Nat.succ_ne_zero _)⟩

/-- What measuring the chunk of the last call leads to. -/
theorem getChunkSize_reaches (henv : Obedient env) (h : s.Sound) {c : χ}
    (hlast : s.LastCall c) (hcalls : s.overtaken = false → ∃ l, s.calls = l ++ [c]) :
    (s.getChunkSize env c).Sat
      (fun p => Reaches s p.2 ∧ (p.2.state = .writable → p.2.LastCall c)) Q E := by
  rw [getChunkSize]
  split
  next => exact ⟨⟨h, .refl s⟩, fun _ => hlast⟩
  next =>
    refine (henv.sat (h.measure hlast hcalls) (.size c) (P := fun p =>
      Reaches { s with measuring := s.measuring + 1 } p.2) fun r t ht hst => ⟨ht, hst⟩).bind
        fun p hp => ?_
    obtain ⟨hreach, hlast'⟩ := hp.measured hlast hcalls
    dsimp only
    split
    next => exact ⟨hreach, fun _ => hlast'⟩
    next e =>
      refine (controllerErrorIfNeeded_reaches henv hreach.1.core (fun _ => hreach.1) _).bind
        fun u hu => ?_
      exact ⟨.trans hreach.2 hu.1, fun hw => absurd hw hu.2⟩

end Sizes

theorem updateBackpressure_eq (hs : s.state = .writable) (hopen : s.closeQueuedOrInFlight = false)
    (backpressure : Bool) : s.updateBackpressure backpressure = .ok { s with
      writer := s.writer.map fun w =>
        if backpressure ≠ s.backpressure then
          if backpressure then { w with ready := .pending } else w.settleReady .fulfilled
        else w
      backpressure } := by
  rw [updateBackpressure, check_bind (by simp [hs]), check_bind (by simp [hopen])]
  rfl

section Orders

variable [SizeOrder F]

/-- How a chunk that was queued, or that was written, is followed up: the backpressure is brought up
to date, unless the stream is closing or stopped, and the queue is advanced. -/
def refreshAndAdvance (env : WritableEnv χ F) (s : WritableStream χ F) :
    WritableOutcome χ F (WritableStream χ F) := do
  let s ←
    if !s.closeQueuedOrInFlight && s.state = .writable then s.updateBackpressure s.getBackpressure
    else pure s
  s.advanceQueueIfNeeded env

theorem refreshAndAdvance_reaches (henv : Obedient env) (h : s.Sound) (hlive : s.isLive = true)
    (hclose : s.state = .erroring → s.inFlightCloseRequest = none) :
    (s.refreshAndAdvance env).Sat (Reaches s) Q E := by
  rw [refreshAndAdvance]
  dsimp only
  split
  next hc =>
    obtain ⟨hopen, hs⟩ : s.closeQueuedOrInFlight = false ∧ s.state = .writable := by
      simpa using hc
    obtain ⟨hsound, hsteady⟩ := writer_reaches h _ s.released s.getBackpressure s.nextWriter
    rw [updateBackpressure_eq hs hopen s.getBackpressure, Outcome.ok_bind]
    exact (advanceQueueIfNeeded_reaches henv hsound hlive hclose).imp fun t ht => .trans hsteady ht
  next => exact advanceQueueIfNeeded_reaches henv h hlive hclose

/-- **A request and its chunk.** A chunk that is refused errors the stream, and its request with
it. -/
theorem controllerWrite_reaches (henv : Obedient env) (h : s.Sound) (hs : s.state = .writable)
    (hclose : s.inFlightCloseRequest = none) (hrequest : s.closeRequest = none) {c : χ}
    (hlast : s.LastCall c) (size : F) :
    (s.request.controllerWrite env s.nextPromise c size).Sat (Reaches s) Q E := by
  rw [controllerWrite]
  split
  next e _ =>
    refine (controllerErrorIfNeeded_reaches henv (h.core.request hs hclose)
      (fun hne => absurd hs hne) _).imp fun t ht => ?_
    exact .trans (steady_request s) ht.1
  next q hq =>
    have haccept := h.accept hs hclose hrequest hlast (QueueWithSizes.values_of_enqueue hq)
    have hlive : s.isLive = true := by simp [isLive, hs]
    exact (refreshAndAdvance_reaches henv haccept hlive fun _ => hclose).imp fun t ht =>
      .trans (steady_accept s q _) ht

/-- What a write leads to: after the chunk is measured it is refused, or requested. -/
theorem writerWrite_sat {P : WritableStream χ F → Prop} {R : F × WritableStream χ F → Prop} {c : χ}
    (hsize : (s.getChunkSize env c).Sat R Q E) (w : ℕ)
    (hreject : ∀ p o, R p → P (p.2.returnSettled .write (.rejected o)))
    (haccept : ∀ p, R p → p.2.state = .writable → p.2.closeRequest = none →
      p.2.inFlightCloseRequest = none →
        (p.2.request.controllerWrite env p.2.nextPromise c p.1).Sat P Q E) :
    (s.writerWrite env w c).Sat P Q E := by
  rw [writerWrite]
  refine hsize.bind fun p hp => ?_
  have hreject := fun o => hreject p o hp
  have haccept := haccept p hp
  obtain ⟨size, t⟩ := p
  dsimp only at hreject haccept ⊢
  split
  next => exact hreject _
  next hw =>
    split
    next => exact hreject _
    next =>
      split
      next => exact hreject _
      next hopen =>
        split
        next => exact hreject _
        next =>
          obtain ⟨⟨hrequest, hclose⟩, -⟩ : (t.closeRequest = none ∧
              t.inFlightCloseRequest = none) ∧ t.state ≠ .closed := by
            simpa [closeQueuedOrInFlight] using hopen
          have hstate : t.state = .writable := by
            cases hts : t.state with
            | writable => rfl
            | _ => simp_all
          have hwriter : t.writer.isSome = true := by
            cases htw : t.writer with
            | none => simp [htw] at hw
            | some w => rfl
          rw [check_bind (by simp [hstate]), addWriteRequest, check_bind hwriter,
            check_bind (by simp [hstate])]
          exact haccept hstate hrequest hclose

/-- **Writing.** -/
theorem writerWrite_reaches (henv : Obedient env) (h : s.Sound) (w : ℕ) {c : χ}
    (hlast : s.LastCall c) (hcalls : s.overtaken = false → ∃ l, s.calls = l ++ [c]) :
    (s.writerWrite env w c).Sat (Reaches s) Q E := by
  refine writerWrite_sat (getChunkSize_reaches henv h hlast hcalls) w ?_ ?_
  · rintro p o ⟨⟨ht, hst⟩, -⟩
    exact .trans hst (returnSettled_reaches ht (fun _ => rfl) (by simp))
  · rintro p ⟨⟨ht, hst⟩, hlast⟩ hs hrequest hclose
    exact (controllerWrite_reaches henv ht hs hclose hrequest (hlast hs) p.1).imp
      fun u hu => .trans hst hu

/-! ### Closing -/

/-- The stream with a close request at the end of its queue. -/
def requestClose (s : WritableStream χ F) (writer : Option Writer) : WritableStream χ F :=
  { s with
    nextPromise := s.nextPromise + 1, closeRequest := some s.nextPromise, writer
    queue := s.queue ++ [(.closeSentinel, SizeNum.zero)] }

theorem Sound.requestClose (h : s.Sound) (hlive : s.isLive = true)
    (hclose : s.inFlightCloseRequest = none) (hrequest : s.closeRequest = none)
    (writer : Option Writer) : (s.requestClose writer).Sound := by
  have hcore := h.core
  have hvalues : (s.requestClose writer).values = s.values ++ [.closeSentinel] := by
    simp [WritableStream.requestClose, QueueWithSizes.values]
  constructor
  · exact { hcore with
      flightWrite := fun hne => by
        obtain ⟨hstarted, -, c, vs, hcs⟩ := hcore.flightWrite hne
        exact ⟨hstarted, hlive, c, vs ++ [.closeSentinel], by rw [hvalues, hcs]; rfl⟩
      flightClose := fun hne => absurd hclose hne
      ended := fun hno => by
        rw [show s.isLive = false from hno] at hlive
        cases hlive
      closed := fun hc => by
        simp [isLive, show s.state = .closed from hc] at hlive
      errored := fun he => by
        simp [isLive, show s.state = .errored from he] at hlive
      ledger := by
        refine ledger_issue (l := []) hcore.ledger rfl (by simp [WritableStream.requestClose]) ?_
        rw [outstanding_eq, outstanding_eq]
        simp only [WritableStream.requestClose, hrequest, Option.toList_some, Option.toList_none,
          List.map_nil, bill_nil]
        abel
      numbers := hcore.numbers_succ }
  · intro hs
    have hflow := h.flowing hs
    obtain ⟨rest, hlength, haccepted, hqueue⟩ := hflow.queue
    exact { hflow with
      queue := by
        refine ⟨rest, hlength, haccepted, ?_⟩
        have hle : s.inFlightWriteRequest.toList.length ≤ s.values.length := by
          cases hw : s.inFlightWriteRequest with
          | none => exact Nat.zero_le _
          | some p =>
            obtain ⟨-, -, c', vs, hcs⟩ := hcore.flightWrite (by rw [hw]; rintro ⟨⟩)
            simp [hcs]
        simp only [hrequest, if_true, List.append_nil] at hqueue
        rw [hvalues]
        exact (List.drop_append_of_le_length hle).trans (by rw [hqueue]; rfl) }

theorem steady_requestClose (s : WritableStream χ F) (writer : Option Writer) :
    Steady s (s.requestClose writer) :=
  ⟨fun _ => ⟨rfl, rfl⟩, fun _ => ⟨rfl, rfl⟩, fun hs => ⟨hs, rfl⟩, id, rfl, rfl,
    fun ho => ⟨ho, fun _ => rfl⟩⟩

/-- The writer of a stream that is asked to close is told not to wait. -/
def readyToClose (s : WritableStream χ F) : Option Writer :=
  if s.backpressure && s.state = .writable then s.writer.map fun w => w.settleReady .fulfilled
  else s.writer

variable (env) in
theorem streamClose_eq (hlive : s.isLive = true) (hopen : s.closeQueuedOrInFlight = false) :
    s.streamClose env = (s.requestClose s.readyToClose).advanceQueueIfNeeded env := by
  have hs : ¬ (s.state = .closed ∨ s.state = .errored) := by
    rintro (hs | hs) <;> simp [isLive, hs] at hlive
  rw [streamClose, if_neg hs, check_bind hlive, check_bind (by simp [hopen]), readyToClose]
  dsimp only
  split
  next => rfl
  next => rfl

/-- **Closing.** -/
theorem streamClose_reaches (henv : Obedient env) (h : s.Sound)
    (hopen : s.closeQueuedOrInFlight = false) : (s.streamClose env).Sat (Reaches s) Q E := by
  obtain ⟨hrequest, hclose⟩ : s.closeRequest = none ∧ s.inFlightCloseRequest = none := by
    simpa [closeQueuedOrInFlight] using hopen
  rw [streamClose]
  split
  next => exact returnSettled_reaches h (fun _ => rfl) (by simp)
  next hs =>
    have hlive : s.isLive = true := by
      cases hst : s.state <;> simp_all [isLive]
    have heq := streamClose_eq env hlive hopen
    rw [streamClose, if_neg hs] at heq
    rw [heq]
    exact (advanceQueueIfNeeded_reaches henv (h.requestClose hlive hclose hrequest _) hlive
      fun _ => hclose).imp fun t ht => .trans (steady_requestClose s _) ht

theorem writerCloseWithErrorPropagation_reaches (henv : Obedient env) (h : s.Sound) :
    (s.writerCloseWithErrorPropagation env).Sat (Reaches s) Q E := by
  rw [writerCloseWithErrorPropagation]
  split
  next => exact returnSettled_reaches h (fun _ => rfl) (by simp)
  next hopen =>
    obtain ⟨hopen, hclosed⟩ : s.closeQueuedOrInFlight = false ∧ s.state ≠ .closed := by
      simpa using hopen
    split
    next => exact returnSettled_reaches h (fun _ => rfl) (by simp)
    next herrored =>
      have hlive : s.isLive = true := by
        cases hst : s.state <;> simp_all [isLive]
      rw [check_bind hlive]
      exact streamClose_reaches henv h hopen

/-! ### Aborting -/

/-- **Aborting.** -/
theorem streamAbort_reaches (henv : Obedient env) (h : s.Sound) (reason : Option JsError) :
    (s.streamAbort env reason).Sat (Reaches s) Q E := by
  rw [streamAbort]
  split
  next => exact returnSettled_reaches h (fun _ => rfl) (by simp)
  next =>
    refine (signalAbort_reaches henv h reason).bind fun t ht => ?_
    split
    next => exact .trans ht.2 (returnSettled_reaches ht.1 (fun _ => rfl) (by simp))
    next hs =>
      split
      next => exact ht
      next hnone =>
        have hnone : t.pendingAbortRequest = none := by simpa using hnone
        have hlive : t.isLive = true := by
          cases hst : t.state <;> simp_all [isLive]
        rw [check_bind hlive]
        dsimp only
        by_cases hst : t.state = .erroring
        · rw [if_pos (by simpa using hst)]
          refine .trans ht.2 ⟨⟨ht.1.core.requestAbort hlive hnone _ _, fun hw => ?_⟩,
            steady_requestAbort t _ _⟩
          rw [show t.state = .writable from hw] at hst
          cases hst
        · have hw : t.state = .writable := by simpa [isLive, hst] using hlive
          rw [if_neg (by simpa using hst)]
          exact (startErroring_reaches henv (ht.1.core.requestAbort hlive hnone _ _) hw _).imp
            fun u hu => .trans (ht.2.trans (steady_requestAbort t _ _)) hu.1

/-! ### All operations -/

/-- **Every operation** leads from a sound state to a sound one, and none aborts. -/
theorem perform_reaches (henv : Obedient env) (h : s.Sound) (op : WritableOp χ) :
    (s.perform env op).Sat (Reaches s) (Reaches s) E := by
  cases op with
  | error e =>
    rw [perform]
    split
    next hs => exact (controllerError_reaches henv h.core hs e).imp fun t ht => ht.1
    next => exact ⟨h, .refl s⟩
  | getWriter => exact setUpDefaultWriter_reaches h
  | write w c =>
    rw [perform]
    split
    next =>
      obtain ⟨hcall, hlast⟩ := call_reaches h c
      exact (writerWrite_reaches henv hcall.1 w hlast fun _ => ⟨s.calls, rfl⟩).imp
        fun t ht => .trans hcall.2 ht
    next => exact ⟨h, .refl s⟩
  | writerClose w =>
    rw [perform]
    split
    next => exact ⟨h, .refl s⟩
    next =>
      split
      next => exact ⟨h, .refl s⟩
      next hopen => exact streamClose_reaches henv h (by simpa using hopen)
  | writerAbort w reason =>
    rw [perform]
    split
    next => exact streamAbort_reaches henv h reason
    next => exact ⟨h, .refl s⟩
  | releaseLock w =>
    rw [perform]
    split
    next => exact writer_reaches h none _ s.backpressure s.nextWriter
    next => exact ⟨h, .refl s⟩
  | close =>
    rw [perform]
    split
    next => exact ⟨h, .refl s⟩
    next =>
      split
      next => exact ⟨h, .refl s⟩
      next hopen => exact streamClose_reaches henv h (by simpa using hopen)
  | abort reason =>
    rw [perform]
    split
    next => exact ⟨h, .refl s⟩
    next => exact streamAbort_reaches henv h reason
  | closeWithErrorPropagation w =>
    rw [perform]
    split
    next => exact writerCloseWithErrorPropagation_reaches henv h
    next => exact ⟨h, .refl s⟩

end Orders

end WritableStream

end WebStreams
