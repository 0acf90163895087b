import StarlingMonkey.WebStreams.Bytes.Author
import StarlingMonkey.WebStreams.Default.Author

/-!
# Reads and pulls of readable streams

What both controllers keep in every run in which author code performs operations wherever it is
called.

* `reads_settled`: every read is settled once. The reads and chunks of a default stream are in
  order in calm runs; outside of them, a read issued from inside `size` is overtaken.
* `pull_protocol`: the source is pulled after it has started, one pull at a time, and no pull that
  is wanted is forgotten.
-/

namespace WebStreams

open DefaultStream

/-! ### Reads -/

/-- **Reads are settled once**, by either controller, whatever author code does inside the
operations. In calm runs of a default stream they are settled in order, and so are its chunks. -/
theorem reads_settled :
    (∀ (auto : Option ℕ) (hwm : Option ℚ) (s t : ByteStream), ByteStream.setUp auto hwm = .ok s →
      s.AuthorRun t → ByteReads t) ∧
    (∀ (χ F : Type) [SizeNum F] (hwm : F) (size : Bool) (t : DefaultStream χ F),
      AuthorRun False (initial hwm size) t → t.Reads) ∧
    (∀ (χ F : Type) [SizeNum F] (hwm : F) (size : Bool) (t : DefaultStream χ F),
      AuthorRun True (initial hwm size) t → t.InOrder) := by
  refine ⟨fun auto hwm s t h0 hrun => ?_, fun χ F _ hwm size t hrun => ?_,
    fun χ F _ hwm size t hrun => ?_⟩
  · obtain ⟨hsound, hledger⟩ := author_run h0 hrun
    exact hsound.reads hledger
  · obtain ⟨hsound, hledger, -⟩ := DefaultStream.author_run hrun
    exact hsound.reads hledger
  · obtain ⟨hsound, -, hflow⟩ := DefaultStream.author_run hrun
    exact hsound.inOrder trivial (hflow trivial)

private theorem byte_aligned : 0 % ViewKind.uint8.elementSize = 0 := rfl

/-- A chunk of one byte. -/
private abbrev byte : ArrayBufferView where
  viewKind := .uint8
  buffer := ⟨100, [7], false, true⟩
  byteOffset := 0
  arrayLength := 1
  aligned := byte_aligned
  fits := by decide

/-- A byte source that enqueues a byte whenever it is pulled is pulled, read, and pulled again. -/
private abbrev pulledBytes : List (ByteEvent × Env) :=
  [.startFulfilled, .op .getReader true, .op .read true, .pullFulfilled, .op .read true].map
    (·, .pulling (.enqueue byte))

/-- The same for a default source that enqueues a chunk. -/
private abbrev pulledChunks : List (DefaultEvent ℕ × DefaultEnv ℕ ℤ) :=
  [.startFulfilled, .op .getReader, .op .read, .pullFulfilled, .op .read].map
    (·, .only .pull (.enqueue 7))

private theorem lawful_map {calm : Prop} {k : Callback} {op : DefaultOp ℕ}
    (hop : calm → op = .read → k.mayRead = true) (es : List (DefaultEvent ℕ)) :
    ∀ e ∈ es.map (·, (.only k op : DefaultEnv ℕ ℤ)), ∀ _ : DefaultStream ℕ ℤ,
      e.2.Lawful calm := by
  intro e he _
  obtain ⟨e, -, rfl⟩ := List.mem_map.mp he
  exact DefaultEnv.lawful_only hop

/-- Two reads of streams whose source enqueues from inside `pull`. -/
theorem reads_settled_history :
    (∃ t, ByteStream.AuthorRun (ByteStream.initial none (some 2)) t ∧
      t.settled.map Prod.fst = [0, 1] ∧ ByteReads t) ∧
    ∃ t : DefaultStream ℕ ℤ, AuthorRun True (initial 2 false) t ∧
      t.settled = [(0, .chunk 7), (1, .chunk 7)] ∧ t.InOrder := by
  constructor
  · obtain ⟨t, hrun, hlog⟩ := Machine.exists_runWhere_of_exec (fun _ e => e.2.Lawful) pulledBytes
      (M := byteAuthorMachine) (s := ByteStream.initial none (some 2))
      (P := fun t => t.settled.map Prod.fst = [0, 1])
      (fun e he _ => by obtain ⟨e, -, rfl⟩ := List.mem_map.mp he; exact Env.lawful_pulling _)
      (by decide)
    exact ⟨t, hrun, of_decide_eq_true hlog, reads_settled.1 none (some 2) _ t rfl hrun⟩
  · obtain ⟨t, hrun, hlog⟩ := Machine.exists_runWhere_of_exec _ pulledChunks
      (M := defaultMachine ℕ ℤ) (s := initial 2 false)
      (P := fun t => t.settled = [(0, .chunk 7), (1, .chunk 7)])
      (lawful_map (by simp) _) (by decide)
    exact ⟨t, hrun, of_decide_eq_true hlog, reads_settled.2.2 ℕ ℤ 2 false t hrun⟩

/-- A read issued from inside `size` waits while the chunk that was measured is queued. -/
theorem reads_overtaken : ¬ ∀ (χ F : Type) [SizeNum F] (hwm : F) (size : Bool)
    (t : DefaultStream χ F), AuthorRun False (initial hwm size) t → t.InOrder := by
  intro h
  obtain ⟨t, hrun, hbad⟩ := Machine.exists_runWhere_of_exec (fun _ e => e.2.Lawful False)
    ([.op .getReader, .op (.enqueue 1)].map (·, .only .size .read))
    (M := defaultMachine ℕ ℤ) (s := initial 0 true)
    (P := fun t => t.waiting = [0] ∧ t.queue = [(1, 1)]) (lawful_map (by simp) _) (by decide)
  obtain ⟨hwaiting, hqueue⟩ := of_decide_eq_true hbad
  have hempty := (h ℕ ℤ 0 true t hrun).idle (by simp [hwaiting])
  simp [hqueue] at hempty

/-! ### Pulls -/

/-- **The pull protocol**, of either controller, whatever author code does inside the operations.
The recorded calls are proper, a deferred pull is remembered by `pullAgain` while the one in flight
is unsettled, and its fulfilment resumes the protocol. -/
theorem pull_protocol :
    (∀ (auto : Option ℕ) (hwm : Option ℚ) (s t : ByteStream), ByteStream.setUp auto hwm = .ok s →
      s.AuthorRun t →
      PullLog t.state t.startPromise t.started t.pulling t.pullAgain t.pullPending t.pulls ∧
      ∀ e u, e.2.Lawful → (byteAuthorMachine.step t e).state? = some u →
        PullProgress (t.resuming e.1) (ByteStream.shouldCallPull { t with
          pullPending := false, pulling := false }) t.pulls u.pulls) ∧
    (∀ (χ F : Type) [SizeNum F] (hwm : F) (size : Bool) (t : DefaultStream χ F),
      AuthorRun False (initial hwm size) t →
      PullLog t.state t.startPromise t.started t.pulling t.pullAgain t.pullPending t.pulls ∧
      ∀ e u, e.2.Lawful False → ((defaultMachine χ F).step t e).state? = some u →
        PullProgress (t.resuming e.1) (DefaultStream.shouldCallPull { t with
          pullPending := false, pulling := false }) t.pulls u.pulls) := by
  refine ⟨fun auto hwm s t h0 hrun => ?_, fun χ F _ hwm size t hrun => ?_⟩
  · obtain ⟨hsound, -⟩ := author_run h0 hrun
    exact ⟨hsound.pull, fun e u he hu => (author_step hsound he hu).pulls⟩
  · obtain ⟨hsound, -, -⟩ := DefaultStream.author_run hrun
    exact ⟨hsound.pull, fun e u he hu => (DefaultStream.author_step hsound he hu).pulls⟩

/-- A pull of a readable stream that has started, with none in flight. -/
private abbrev freshPull : PullStep := .call ⟨.fulfilled, false, false, .readable⟩

/-- A source that enqueues from inside `pull` wants to be pulled again at once, and is once the
pull is fulfilled. -/
theorem pull_protocol_history :
    (∃ t, ByteStream.AuthorRun (ByteStream.initial none (some 2)) t ∧
      t.pulls = [freshPull, .deferred, .deferred, .resumed, freshPull, .deferred, .deferred] ∧
      t.pullAgain = true ∧ ∀ p ∈ t.pulls, p.Proper) ∧
    ∃ t : DefaultStream ℕ ℤ, AuthorRun False (initial 2 false) t ∧
      t.pulls = [freshPull, .deferred, .deferred, .resumed, freshPull, .deferred, .deferred] ∧
      t.pullAgain = true ∧ ∀ p ∈ t.pulls, p.Proper := by
  constructor
  · obtain ⟨t, hrun, hlog⟩ := Machine.exists_runWhere_of_exec (fun _ e => e.2.Lawful) pulledBytes
      (M := byteAuthorMachine) (s := ByteStream.initial none (some 2))
      (P := fun t => t.pulls = [freshPull, .deferred, .deferred, .resumed, freshPull, .deferred,
        .deferred] ∧ t.pullAgain = true)
      (fun e he _ => by obtain ⟨e, -, rfl⟩ := List.mem_map.mp he; exact Env.lawful_pulling _)
      (by decide)
    obtain ⟨hpulls, hagain⟩ := of_decide_eq_true hlog
    exact ⟨t, hrun, hpulls, hagain, (pull_protocol.1 none (some 2) _ t rfl hrun).1.calls⟩
  · obtain ⟨t, hrun, hlog⟩ := Machine.exists_runWhere_of_exec _ pulledChunks
      (M := defaultMachine ℕ ℤ) (s := initial 2 false)
      (P := fun t => t.pulls = [freshPull, .deferred, .deferred, .resumed, freshPull, .deferred,
        .deferred] ∧ t.pullAgain = true)
      (lawful_map (by simp) _) (by decide)
    obtain ⟨hpulls, hagain⟩ := of_decide_eq_true hlog
    exact ⟨t, hrun, hpulls, hagain, (pull_protocol.2 ℕ ℤ 2 false t hrun).1.calls⟩

end WebStreams
