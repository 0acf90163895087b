import StarlingMonkey.WebStreams.Writable.SignalRuns

/-!
# Requests, sink calls and promises of a writable stream

The main results on writable streams, over every run whose author code performs operations wherever
the stream calls out.

* `requests_kept`: the requests, the operations in flight and the queue agree, and no assertion
  fails.
* `sink_disciplined`: the sink is called in order and one call at a time, and the promises are
  settled once. Chunks are written in the order they were accepted. A write that is called from
  inside `size` is accepted before the one that is measured (`writes_overtaken`).
* `writer_signals_kept`: the backpressure and the promises of a writer are what the state of the
  stream says. A close that succeeds while the stream is erroring leaves a rejected ready promise
  behind, and the sink's abort rejects a closed promise that is rejected already (`signals_late`).
-/

namespace WebStreams

open Ledger WritableStream

variable {χ F : Type} [SizeOrder F]

/-! ### Requests -/

/-- **Requests and queue.** In every run of a writable stream, and wherever it calls out, the
requests, the operations in flight and the queue agree. The state moves on, and is "closed" only
after the sink's close succeeded. No assertion fails. -/
theorem requests_kept (hwm : F) (size : Bool) (t : WritableStream χ F)
    (hrun : (writableMachine χ F).Run (initial hwm size) t) :
    t.Requests ∧ (t.history.IsChain WritableStreamState.Next ∧ t.history.getLast? = some t.state) ∧
      (t.state = .closed → .closed true ∈ t.log) ∧
      ∀ e, ((writableMachine χ F).step t e).isPanic = false := by
  obtain ⟨hsound, hsafe⟩ := WritableStream.author_run hrun
  exact ⟨hsound.requests, hsound.core.history, fun hs => (hsound.core.closed hs).2, hsafe⟩

/-- Author code that does nothing. -/
def WritableScripts.quiet : WritableScripts ℕ ℤ := fun _ _ => .done (.ok 1)

/-- Author code that performs an operation in a callback. -/
def WritableScripts.only (k : WritableCallback ℕ) (op : WritableOp ℕ) : WritableScripts ℕ ℤ :=
  fun k' _ => if k' = k then .perform op quiet fun _ => .done (.ok 1) else .done (.ok 1)

/-- The sink aborts its own stream while it is given a chunk, with a second one queued and a close
requested. -/
theorem requests_kept_history : ∃ t : WritableStream ℕ ℤ,
    (writableMachine ℕ ℤ).Run (initial 1 false) t ∧ t.state = .errored ∧ t.closeRequest ≠ none ∧
      t.Requests := by
  obtain ⟨t, hrun, ht⟩ := Machine.exists_run_of_exec
    [(.op .getWriter, .quiet), (.op (.write 0 7), .quiet), (.op (.write 0 8), .quiet),
      (.op (.writerClose 0), .quiet), (.startFulfilled, .only (.write 7) (.writerAbort 0 none)),
      (.writeFulfilled, .quiet)]
    (M := writableMachine ℕ ℤ) (s := initial 1 false)
    (P := fun t => t.state = .errored ∧ t.closeRequest ≠ none) (by decide)
  obtain ⟨hs, hc⟩ := of_decide_eq_true ht
  exact ⟨t, hrun, hs, hc, (requests_kept 1 false t hrun).1⟩

/-! ### The sink -/

/-- What the sink is asked to do, and how the promises are settled. -/
structure WritableStream.Delivers (s : WritableStream χ F) : Prop where
  /-- A write comes after the start and a settled invocation, and takes the chunk that was accepted
  next; the close comes once and when all is written; the abort comes once and when nothing is in
  flight. -/
  disciplined : Disciplined s.log
  /-- Nothing is invoked after the abort. -/
  last : ∀ l l', s.log = l ++ .abort :: l' → ∀ r ∈ l', r.isInvocation = false
  /-- The chunks that were accepted belong to different writes. -/
  accepted : ((acceptedOf s.log).map Prod.fst).Nodup
  /-- The chunks that were written are the first of those. -/
  writes : writesOf s.log <+: acceptedOf s.log
  /-- They were accepted in the order of the calls of `write`, unless one came from inside
  `size`. -/
  calls : s.overtaken = false → ((acceptedOf s.log).map Prod.snd).Sublist s.calls
  /-- Every promise is settled at most once. -/
  once : (s.settled.map (·.1.number)).Nodup
  fulfilled : ∀ p, (.write p, .fulfilled) ∈ s.settled → .wrote p true ∈ s.log
  errored : s.state = .errored → ∀ p ∈ s.requested,
    (∃ ok, .wrote p ok ∈ s.log) ∨ (.write p, .rejected s.storedError) ∈ s.settled

/-- **The sink of a writable stream** is called in order, one call at a time, and the promises are
settled once, in every run. -/
theorem sink_disciplined (hwm : F) (size : Bool) (t : WritableStream χ F)
    (hrun : (writableMachine χ F).Run (initial hwm size) t) : t.Delivers := by
  obtain ⟨hsound, -⟩ := WritableStream.author_run hrun
  have hcore := hsound.core
  exact {
    disciplined := hcore.disciplined
    last := fun l l' heq => hcore.disciplined.last_abort heq
    accepted := hcore.numbers.1.imp fun hlt => Nat.ne_of_lt hlt
    writes := hcore.disciplined.writes_prefix
    calls := fun ho => (hcore.calls ho).2.trans (List.take_sublist _ _)
    once := by
      have hperm := perm_range_of_balance (l := t.settled.map (·.1.number) ++ t.outstanding) (by
        rw [balance_append]
        exact hcore.ledger)
      exact (hperm.nodup_iff.mpr List.nodup_range).of_append_left
    fulfilled := hcore.fulfilled
    errored := fun hs p hp => by
      have hended := hsound.requests.ended (.inr hs)
      rcases hcore.requested p hp with hp | hp | hp | hp
      · rw [hended.1] at hp
        cases hp
      · rw [hended.2.1] at hp
        cases hp
      · exact .inl hp
      · exact .inr hp.2 }

/-- The sink fails to write the first chunk while a second one is queued. -/
theorem sink_disciplined_history : ∃ t : WritableStream ℕ ℤ,
    (writableMachine ℕ ℤ).Run (initial 1 false) t ∧
      t.settled = [(.write 0, .rejected none), (.write 1, .rejected none)] ∧ t.Delivers := by
  obtain ⟨t, hrun, ht⟩ := Machine.exists_run_of_exec
    [(.op .getWriter, .quiet), (.startFulfilled, .quiet), (.op (.write 0 7), .quiet),
      (.op (.write 0 8), .quiet), (.writeRejected none, .quiet)]
    (M := writableMachine ℕ ℤ) (s := initial 1 false)
    (P := fun t => t.settled = [(.write 0, .rejected none), (.write 1, .rejected none)]) (by decide)
  exact ⟨t, hrun, of_decide_eq_true ht, sink_disciplined 1 false t hrun⟩

/-- A write that is called from inside `size` overtakes the one that is measured. -/
theorem writes_overtaken : ¬ ∀ (χ F : Type) [SizeOrder F] (hwm : F) (size : Bool)
    (t : WritableStream χ F), (writableMachine χ F).Run (initial hwm size) t →
      ((writesOf t.log).map Prod.snd).Sublist t.calls := by
  intro h
  obtain ⟨t, hrun, ht⟩ := Machine.exists_run_of_exec
    [(.op .getWriter, .quiet), (.startFulfilled, .quiet),
      (.op (.write 0 7), .only (.size 7) (.write 0 8)), (.writeFulfilled, .quiet)]
    (M := writableMachine ℕ ℤ) (s := initial 1 true)
    (P := fun t => (writesOf t.log).map Prod.snd = [8, 7] ∧ t.calls = [7, 8]) (by decide)
  obtain ⟨hwrites, hcalls⟩ := of_decide_eq_true ht
  have hsub := h ℕ ℤ 1 true t hrun
  rw [hwrites, hcalls] at hsub
  exact absurd hsub (by decide)

/-! ### The writer -/

/-- **The backpressure and the writer's promises** are in every run what the state of the stream
says, and no assertion fails. -/
theorem writer_signals_kept (hwm : F) (size : Bool) (t : WritableStream χ F)
    (hrun : (writableMachine χ F).Run (initial hwm size) t) :
    t.Signals ∧ ∀ e, ((writableMachine χ F).step t e).isPanic = false :=
  ⟨(signals_run hrun).2, (WritableStream.author_run hrun).2⟩

/-- A chunk fills the queue and a second writer waits for it to be written. -/
theorem writer_signals_kept_history : ∃ t : WritableStream ℕ ℤ,
    (writableMachine ℕ ℤ).Run (initial 1 false) t ∧ t.writer.map Writer.ready = some .pending ∧
      t.Signals := by
  obtain ⟨t, hrun, ht⟩ := Machine.exists_run_of_exec
    [(.op .getWriter, .quiet), (.startFulfilled, .quiet), (.op (.write 0 7), .quiet),
      (.op (.releaseLock 0), .quiet), (.op .getWriter, .quiet)]
    (M := writableMachine ℕ ℤ) (s := initial 1 false)
    (P := fun t => t.writer.map Writer.ready = some .pending) (by decide)
  exact ⟨t, hrun, of_decide_eq_true ht, (writer_signals_kept 1 false t hrun).1⟩

/-- The ready promise of a stream that is closed may be rejected, and a closed promise may be
rejected twice. -/
theorem signals_late :
    (¬ ∀ (χ F : Type) [SizeOrder F] (hwm : F) (size : Bool) (t : WritableStream χ F),
      (writableMachine χ F).Run (initial hwm size) t → ∀ w, t.writer = some w →
        t.state = .closed → w.ready = .fulfilled) ∧
    ¬ ∀ (χ F : Type) [SizeOrder F] (hwm : F) (size : Bool) (t : WritableStream χ F),
      (writableMachine χ F).Run (initial hwm size) t → ∀ w, t.writer = some w →
        w.closedAgain = false := by
  constructor
  · intro h
    -- the controller errors the stream while the sink closes
    obtain ⟨t, hrun, ht⟩ := Machine.exists_run_of_exec
      [(.op .getWriter, .quiet), (.startFulfilled, .quiet), (.op (.writerClose 0), .quiet),
        (.op (.error none), .quiet), (.closeFulfilled, .quiet)]
      (M := writableMachine ℕ ℤ) (s := initial 1 false)
      (P := fun t => t.state = .closed ∧ t.writer.map Writer.ready = some (.rejected none))
      (by decide)
    obtain ⟨hs, hready⟩ := of_decide_eq_true ht
    obtain ⟨w, hw, hready⟩ := Option.map_eq_some_iff.mp hready
    rw [h ℕ ℤ 1 false t hrun w hw hs] at hready
    cases hready
  · intro h
    -- a second writer is acquired while the sink aborts
    obtain ⟨t, hrun, ht⟩ := Machine.exists_run_of_exec
      [(.op .getWriter, .quiet), (.startFulfilled, .quiet), (.op (.writerAbort 0 none), .quiet),
        (.op (.releaseLock 0), .quiet), (.op .getWriter, .quiet), (.abortFulfilled, .quiet)]
      (M := writableMachine ℕ ℤ) (s := initial 1 false)
      (P := fun t => t.writer.map Writer.closedAgain = some true) (by decide)
    obtain ⟨w, hw, hagain⟩ := Option.map_eq_some_iff.mp (of_decide_eq_true ht)
    rw [h ℕ ℤ 1 false t hrun w hw] at hagain
    cases hagain

end WebStreams
