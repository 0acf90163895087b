import StarlingMonkey.WebStreams.Bytes.Runs

/-!
# Conservation of bytes

Seen as a channel (`ByteStream.channel`), a byte stream takes only steps a channel takes, so that
what `Channel.Fair` says of every run of a channel holds of every run of a byte stream: the bytes
handed out, those filled into pending descriptors and those queued are, in this order, the bytes
the source supplied, and reads are served in the order they were issued.

The source can change bytes it supplied earlier, as long as they sit in a buffer it shares:
`respondWithNewView` replaces the whole buffer. `bytes_conserved` is about runs in which it does
not.
-/

namespace WebStreams

open ByteStream

/-- Nothing is lost, duplicated or reordered, as long as the stream is readable. -/
def Conserving (s : ByteStream) : Prop := s.state = .readable → s.channel.Fair

/-- A fair event is a sequence of steps of the channel. -/
theorem conserving_step {debug : Bool} {s t : ByteStream} {e : ByteEvent} (h : ByteInv s)
    (hc : Conserving s) (hstale : s.staleEnqueue e = false) (hfair : s.fairEvent e = true)
    (ht : ((byteMachine debug).step s e).state? = some t) : ByteInv t ∧ Conserving t := by
  have hkeep := Outcome.Sat.state? (step_keeps _ h e hstale) ht
  refine ⟨hkeep.inv, fun hread => ?_⟩
  exact (hc (hkeep.alive hread)).steps (hkeep.flow hfair hread)

/-- **Bytes are conserved, in order**, in every run whose source leaves the bytes it supplied as
they are, while the stream is readable. -/
theorem bytes_conserved {auto : Option ℕ} {hwm : Option ℚ} {debug : Bool} {s t : ByteStream}
    (h0 : setUp auto hwm = .ok s)
    (hrun : (byteMachine debug).RunWhere
      (fun s e => s.staleEnqueue e = false ∧ s.fairEvent e = true) s t)
    (ht : t.state = .readable) :
    (chunkLog t.settled).flatMap Prod.snd ++ (filledBytes t.pendingPullIntos ++ queueBytes t.queue)
        = t.supplied ∧
      ((chunkLog t.settled).map Prod.fst ++ (t.reader.map Reader.requests).getD []).Pairwise
        (· < ·) := by
  have hempty : Conserving s := fun _ => by
    obtain ⟨-, rfl⟩ := setUp_eq_ok h0
    exact Channel.fair_empty
  obtain ⟨-, hfair⟩ : ByteInv t ∧ Conserving t :=
    hrun.inv ⟨byteInv_setUp h0, hempty⟩ fun s e u h hok hu =>
      conserving_step h.1 h.2 hok.1 hok.2 hu
  exact ⟨(hfair ht).conserved, (hfair ht).ordered⟩

/-- A buffer of bytes. -/
private abbrev bytesView (id : ℕ) (data : List UInt8) (off len : ℕ)
    (h : off + len * 1 ≤ data.length) : ArrayBufferView where
  viewKind := .uint8
  buffer := ⟨id, data, false, true⟩
  byteOffset := off
  arrayLength := len
  aligned := Nat.mod_one _
  fits := h

/-- A BYOB read of at least two bytes finds one, and waits with a `byobRequest` for the next. -/
private abbrev halfFilled : List ByteEvent :=
  [.startFulfilled, .op .getByobReader true,
    .op (.readInto (bytesView 200 [0, 0, 0, 0] 0 4 (by decide)) 2) true,
    .op (.enqueue (bytesView 100 [1] 0 1 (by decide))) true, .op .byobRequest true]

/-- The source answers with a buffer that starts with the byte `x`. -/
private abbrev answerWith (x : UInt8) : List ByteEvent :=
  [.op (.respondWithNewView (bytesView 300 [x, 2, 0, 0] 1 1 (by simp))) true]

/-- The source writes to the buffer it was given, answers with one that keeps its bytes, and
enqueues two bytes, of which the next read takes one. -/
private abbrev keptThenEnqueued : List ByteEvent :=
  halfFilled ++ .op (.writeView [1, 2, 0, 0]) true :: answerWith 1 ++
    [.op (.enqueue (bytesView 400 [3, 4, 5] 1 2 (by decide))) true,
      .op (.readInto (bytesView 500 [0] 0 1 (by decide)) 1) true]

theorem bytes_conserved_history : ∃ t, (byteMachine true).exec (initial none (some 0))
    keptThenEnqueued = some t ∧ chunkLog t.settled = [(0, [1, 2]), (1, [4])] ∧
      queueBytes t.queue = [5] ∧ t.supplied = [1, 2, 4, 5] ∧
      (chunkLog t.settled).flatMap Prod.snd ++
        (filledBytes t.pendingPullIntos ++ queueBytes t.queue) = t.supplied := by
  have hexec : ((byteMachine true).exec (initial none (some 0)) keptThenEnqueued).any
      (fun t => t.state = .readable ∧ chunkLog t.settled = [(0, [1, 2]), (1, [4])] ∧
        queueBytes t.queue = [5] ∧ t.supplied = [1, 2, 4, 5]) := by decide
  obtain ⟨t, ht, hP⟩ := (Option.any_eq_true _ _).mp hexec
  obtain ⟨hread, hlog, hqueue, hsupplied⟩ := of_decide_eq_true hP
  exact ⟨t, ht, hlog, hqueue, hsupplied, (@bytes_conserved none _ _ _ _ rfl
    (Machine.runWhere_of_exec (by decide) ht) hread).1⟩

/-- The source answers with a buffer in which the byte it supplied first is another. -/
theorem bytes_conserved_fails : ¬ ∀ (debug : Bool) (auto : Option ℕ) (hwm : Option ℚ)
    (s t : ByteStream), setUp auto hwm = .ok s → (byteMachine debug).Run s t →
      t.state = .readable →
      (chunkLog t.settled).flatMap Prod.snd ++
        (filledBytes t.pendingPullIntos ++ queueBytes t.queue) = t.supplied := by
  intro h
  obtain ⟨t, hrun, hbad⟩ := Machine.exists_run_of_exec (halfFilled ++ answerWith 9)
    (M := byteMachine true) (s := initial none (some 0))
    (P := fun t => t.state = .readable ∧ (chunkLog t.settled).flatMap Prod.snd = [9, 2] ∧
      t.supplied = [1, 2]) (by decide)
  obtain ⟨hread, hlog, hsupplied⟩ := of_decide_eq_true hbad
  have hgood := h true none (some 0) _ t rfl hrun hread
  rw [hlog, hsupplied] at hgood
  simp at hgood

end WebStreams
