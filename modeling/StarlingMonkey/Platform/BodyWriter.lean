import StarlingMonkey.Lib.Run
import StarlingMonkey.Platform.BodyContent

/-!
# The body writer of the wasm target

`spawn_body_writer` feeds a body to the host's stream from a task of its own: `write_stream_body`
takes the chunks as they come, and once the event loop has run out of work and the body is still
open, `finish_abandoned_body` takes what is left. The task ends with an outcome, drops the stream,
and says in the trailers whether the body is whole.

`Writing` is the task with the channel that it reads and the stream that it writes. An event is a
message or the close of the channel, the word that the loop is done, a poll of the task up to its
next await, what the host does with a write, or the time limit.

* `Inv` is what is kept: where the content is.
* `writes_of_run`: the host gets a beginning of the content that fits the declared length, the
  trailers are clean only after all of it, and a failure is delivered only if it is not all there.
-/

namespace Platform

/-- `BodySendOutcome`. -/
inductive BodySendOutcome where
  | sent | truncated | timedOut
  | failed (message : String)
deriving DecidableEq, Repr

/-- The loop a write belongs to. -/
inductive WritePhase where
  /-- The one write of a body in memory. -/
  | bytes
  /-- `write_stream_body`. -/
  | stream
  /-- `finish_abandoned_body`. -/
  | abandoned
deriving DecidableEq, Repr

/-- Where the task is. -/
inductive WriterTask where
  /-- It waits for a message of the body. -/
  | next (phase : WritePhase)
  /-- It is in `write_all`, with this much to go; behind it the body failed if there is an error. -/
  | writing (rest : Bytes) (error : Option String) (phase : WritePhase)
  | ended (outcome : BodySendOutcome)
deriving DecidableEq, Repr

/-- `OutgoingBody`, with the messages that a stream has at first. -/
inductive OutgoingBody where
  | bytes (bytes : Bytes)
  | stream (messages : List (Except String Bytes)) (closed : Bool)
  | host | consumed
deriving DecidableEq, Repr

/-- The task of `spawn_body_writer`, the channel and the host's stream. -/
structure Writing where
  /-- `declared_length`, by which only a streamed body is measured. -/
  declared : Option UInt64
  /-- The body: `pushed` were its messages, and `taken` are those that were received. -/
  receiver : OutgoingBodyReceiver String
  pushed : List (Except String Bytes)
  taken : List (Except String Bytes)
  /-- `AbandonBody::abandon` was called. -/
  abandoned : Bool
  remaining : Remaining
  task : WriterTask
  /-- The host has not dropped the read end. -/
  reads : Bool
  /-- What the host took. -/
  wire : Bytes

/-- Where the program would panic. -/
inductive WriterSite where
  | remaining | reserveExact
deriving DecidableEq, Repr

/-- What happens to a body that is written. -/
inductive WriterEvent where
  | push (message : Except String Bytes)
  | close
  | abandon
  /-- The task is polled. -/
  | proceeds
  /-- The host takes bytes of the write. -/
  | hostTakes (n : ℕ)
  | hostDrops
  | expires

namespace Writing

/-- How a call ends. -/
abbrev Writes := Outcome WriterSite Empty Writing Writing

/-- `HOST_STOPPED_READING`. -/
def hostStoppedReading : String := "the host stopped reading the response body"

/-- `ABANDONED_BODY`. -/
def abandonedBody : String :=
  "the event loop finished while the response body was still open, so the body can never " ++
    "complete; ending it without the terminating chunk"

/-- `outcome_at_end`. -/
def outcomeAtEnd (remaining : Remaining) : BodySendOutcome :=
  if remaining.isUnfilled then .truncated else .sent

/-- The task ends. -/
def finish (s : Writing) (outcome : BodySendOutcome) : Writing := { s with task := .ended outcome }

/-- `write_all` has returned, with all of the chunk written. -/
def wrote (s : Writing) (error : Option String) (phase : WritePhase) : Writing :=
  match phase, error with
  | .bytes, _ => s.finish .sent
  | phase, none => { s with task := .next phase }
  | _, some error => s.finish (.failed error)

/-- `write_all`, of which the host takes what it wants. A read end that is gone takes nothing, and
an empty chunk leaves nothing unwritten. -/
def writeAll (s : Writing) (chunk : Bytes) (error : Option String) (phase : WritePhase) : Writing :=
  if s.reads then { s with task := .writing chunk error phase }
  else if chunk = [] then s.wrote error phase
  else s.finish (.failed hostStoppedReading)

/-- A chunk is taken, and written. -/
def writeChunk (usizeMax : ℕ) (s : Writing) (chunk : Bytes) (error : Option String)
    (phase : WritePhase) : Writes := do
  let (taken, remaining) ← (s.remaining.take usizeMax chunk).relabel fun _ => WriterSite.remaining
  let s := { s with remaining := remaining }
  match taken with
  | none => .ok (s.finish .sent)
  | some chunk => .ok (s.writeAll chunk error phase)

/-- A pass of `finish_abandoned_body`, which takes only what is ready. -/
def finishAbandonedBody (usizeMax : ℕ) (s : Writing) : Writes :=
  match s.receiver.queue with
  | [] =>
    .ok (s.finish (if s.receiver.closed then outcomeAtEnd s.remaining else .failed abandonedBody))
  | message :: queue =>
    let s := { s with
      receiver := { s.receiver with queue := queue }
      taken := s.taken ++ [message] }
    match message with
    | .ok chunk => s.writeChunk usizeMax chunk none .abandoned
    | .error error => .ok (s.finish (.failed error))

/-- A message of the body, in `write_stream_body`. -/
def receive (alloc : Allocator) (usizeMax : ℕ) (s : Writing) : Except String Bytes → Writes
  | .ok chunk => do
    let (error, receiver, vec) ← (coalesceQueuedChunks alloc s.receiver
      (.ofBytes chunk)).relabel fun _ => WriterSite.reserveExact
    let taken := s.receiver.queue.take (s.receiver.queue.length - receiver.queue.length)
    { s with
      receiver := receiver
      taken := s.taken ++ taken }.writeChunk usizeMax vec.bytes error .stream
  | .error error => .ok (s.finish (.failed error))

/-- A pass of `write_stream_body`, up to its await. -/
def writeStreamBody (alloc : Allocator) (usizeMax : ℕ) (s : Writing) : Writes :=
  match s.receiver.queue with
  | [] =>
    if s.receiver.closed then .ok (s.finish (outcomeAtEnd s.remaining))
    else if s.abandoned then s.finishAbandonedBody usizeMax
    else .ok s
  | message :: queue =>
    { s with
      receiver := { s.receiver with queue := queue }
      taken := s.taken ++ [message] }.receive alloc usizeMax message

/-- The task is polled. -/
def proceeds (alloc : Allocator) (usizeMax : ℕ) (s : Writing) : Writes :=
  match s.task with
  | .next .abandoned => s.finishAbandonedBody usizeMax
  | .next _ => s.writeStreamBody alloc usizeMax
  | .writing .. | .ended _ => .ok s

/-- The host takes bytes of the write. -/
def hostTakes (s : Writing) (n : ℕ) : Writing :=
  match s.task with
  | .writing rest error phase =>
    if !s.reads then s
    else
      let s := { s with wire := s.wire ++ rest.take n }
      if rest.length ≤ n then s.wrote error phase
      else { s with task := .writing (rest.drop n) error phase }
  | _ => s

/-- The host drops the read end, which ends a write. -/
def hostDrops (s : Writing) : Writing :=
  let s := { s with reads := false }
  match s.task with
  | .writing rest error phase => s.writeAll rest error phase
  | _ => s

/-- The time limit runs out. -/
def expires (s : Writing) : Writing :=
  match s.task with
  | .ended _ => s
  | _ => s.finish .timedOut

/-- What an event does, if it can happen. -/
def step (alloc : Allocator) (usizeMax : ℕ) (s : Writing) : WriterEvent → Writes
  | .push message =>
    .ok (if s.receiver.closed then s
      else { s with
        receiver := { s.receiver with queue := s.receiver.queue ++ [message] }
        pushed := s.pushed ++ [message] })
  | .close => .ok { s with receiver := { s.receiver with closed := true } }
  | .abandon => .ok { s with abandoned := true }
  | .proceeds => s.proceeds alloc usizeMax
  | .hostTakes n => .ok (s.hostTakes n)
  | .hostDrops => .ok s.hostDrops
  | .expires => .ok s.expires

/-- The trailers: whether the body is whole. -/
def trailers (s : Writing) : Option (Except String Unit) :=
  match s.task with
  | .ended .sent => some (.ok ())
  | .ended .truncated =>
    some (.error "the response body ended before the Content-Length it declared")
  | .ended .timedOut =>
    some (.error ("the response body was not fully sent within the response-body or " ++
      "end-to-end timeout"))
  | .ended (.failed message) => some (.error message)
  | _ => none

/-- A streamed body whose first messages are there. -/
def newStream (declared : Option UInt64) (messages : List (Except String Bytes))
    (closed : Bool) : Writing where
  declared := declared
  receiver := ⟨messages, closed⟩
  pushed := messages
  taken := []
  abandoned := false
  remaining := declared.map UInt64.toNat
  task := .next .stream
  reads := true
  wire := []

/-- A body in memory, which is written at once. -/
def newBytes (bytes : Bytes) : Writing where
  declared := none
  receiver := ⟨[], true⟩
  pushed := [.ok bytes]
  taken := [.ok bytes]
  abandoned := false
  remaining := none
  task := .writing bytes none .bytes
  reads := true
  wire := []

/-- A body that the task has no writer for: the host reads it itself, or there is nothing. -/
def newAbsent : Writing where
  declared := none
  receiver := ⟨[], true⟩
  pushed := []
  taken := []
  abandoned := false
  remaining := none
  task := .ended .sent
  reads := true
  wire := []

/-- `body_contents` and `spawn_body_writer`. -/
def new (declared : Option UInt64) : OutgoingBody → Writing
  | .bytes [] | .host | .consumed => newAbsent
  | .bytes bytes => newBytes bytes
  | .stream messages closed => newStream declared messages closed

end Writing

/-- The writer as a machine. -/
def writerMachine (alloc : Allocator) (usizeMax : ℕ) :
    Machine WriterSite Empty Writing WriterEvent :=
  ⟨Writing.step alloc usizeMax⟩

/-! ### What is to hold -/

namespace Writing

/-- The content of the body so far. -/
def body (s : Writing) : Bytes := content s.pushed

/-- What may go on the wire of some content. -/
def fit (s : Writing) (bytes : Bytes) : Bytes := Remaining.fit (s.declared.map UInt64.toNat) bytes

/-- The body ended, without an error. -/
def Ended (s : Writing) : Prop := s.receiver.closed = true ∧ failure s.pushed = none

/-- What the run has of the body. A declared length measures streams only. -/
def Carries (s : Writing) (declared : Option UInt64) : OutgoingBody → Prop
  | .bytes bytes => s.declared = none ∧ s.body = bytes
  | .stream messages closed => s.declared = declared ∧ (closed = true → s.pushed = messages)
  | .host | .consumed => s.task = .ended .sent ∧ s.wire = []

/-- What an outcome says. -/
def Says (s : Writing) : BodySendOutcome → Prop
  | .sent => s.wire = s.fit s.body ∧
    (∀ length ∈ s.declared, s.wire.length = length.toNat) ∧ (s.declared = none → s.Ended)
  | .truncated => s.wire = s.body ∧ s.Ended ∧ ∃ length ∈ s.declared, s.wire.length < length.toNat
  | .timedOut => True
  | .failed message =>
    s.reads = false ∧ message = hostStoppedReading ∧ s.wire ≠ s.fit s.body ∨
      failure s.pushed = some message ∨ s.abandoned = true ∧ message = abandonedBody

/-- The body arrived complete. -/
def Complete (s : Writing) : Prop := s.Ended ∧ s.wire = s.fit s.body

/-- If the body failed, it did not arrive complete. -/
def Unfinished (s : Writing) : Prop :=
  ∀ message, s.task = .ended (.failed message) → ¬ s.Complete

/-- **The body is written, and the outcome is true.** -/
structure Wrote (s : Writing) : Prop where
  order : s.wire <+: s.fit s.body
  outcome : ∀ outcome, s.task = .ended outcome → s.Says outcome
  trailers : s.trailers = some (.ok ()) ↔ s.task = .ended .sent

/-! ### The invariant -/

/-- All of the body was received. -/
def Whole (s : Writing) : Prop :=
  s.receiver.closed = true ∧ s.receiver.queue = [] ∧ failure s.taken = none

/-- There is this much to write, of what was received until now. -/
structure Holds (s : Writing) (rest : Bytes) (error : Option String) (phase : WritePhase) :
    Prop where
  wire : s.wire ++ rest = s.fit (content s.taken)
  failure : failure s.taken = error
  bytes : phase = .bytes → s.Whole ∧ s.declared = none
  abandoned : phase = .abandoned → s.abandoned = true

/-- Why a body failed. -/
def Cause (s : Writing) (message : String) : Prop :=
  s.reads = false ∧ message = hostStoppedReading ∧ s.wire ≠ s.fit (content s.taken) ∨
    failure s.taken = some message ∨ s.abandoned = true ∧ message = abandonedBody

/-- What is known where the task is. -/
def Flow (s : Writing) : WriterTask → Prop
  | .next phase => s.Holds [] none phase ∧ phase ≠ .bytes
  | .writing rest error phase => s.Holds rest error phase
  | .ended .sent => s.wire = s.fit (content s.taken) ∧
    (s.declared.map UInt64.toNat = some s.wire.length ∨ s.declared = none ∧ s.Whole)
  | .ended .truncated => s.wire = s.fit (content s.taken) ∧ s.Whole ∧
    ∃ length ∈ s.declared, s.wire.length < length.toNat
  | .ended .timedOut => s.wire <+: s.fit (content s.taken)
  | .ended (.failed message) => s.wire <+: s.fit (content s.taken) ∧ s.Cause message

/-- What is kept of the channel and of the declared length. -/
structure Base (usizeMax : ℕ) (s : Writing) : Prop where
  messages : s.taken ++ s.receiver.queue = s.pushed
  fits : ∀ chunk, .ok chunk ∈ s.receiver.queue → chunk.length + coalesceLimit ≤ usizeMax
  remaining : s.remaining =
    Remaining.less (s.declared.map UInt64.toNat) (s.fit (content s.taken)).length

/-- **The invariant.** -/
structure Inv (usizeMax : ℕ) (s : Writing) : Prop extends s.Base usizeMax where
  flow : s.Flow s.task

/-- What is kept by a call that may end the task. -/
structure Delivers (usizeMax : ℕ) (s : Writing) : Prop extends s.Inv usizeMax where
  unfinished : s.Unfinished

variable {alloc : Allocator} {usizeMax : ℕ} {s : Writing}

theorem Base.task (h : s.Base usizeMax) (task : WriterTask) :
    Base usizeMax { s with task := task } :=
  ⟨h.messages, h.fits, h.remaining⟩

/-- The host has all that may go on the wire of what was received. -/
theorem Flow.order (h : s.Flow s.task) : s.wire <+: s.fit (content s.taken) := by
  cases htask : s.task with
  | next phase =>
    have hwire := (htask ▸ h : s.Flow (.next phase)).1.wire
    rw [List.append_nil] at hwire
    exact hwire ▸ List.prefix_rfl
  | writing rest error phase =>
    exact (htask ▸ h : s.Flow (.writing rest error phase)).wire ▸ List.prefix_append _ _
  | ended outcome =>
    rw [htask] at h
    cases outcome with
    | sent => exact h.1 ▸ List.prefix_rfl
    | truncated => exact h.1 ▸ List.prefix_rfl
    | timedOut => exact h
    | failed message => exact h.1

/-! ### What the operations keep -/

theorem Unfinished.of_ne (h : ∀ message, s.task ≠ .ended (.failed message)) : s.Unfinished :=
  fun message htask => absurd htask (h message)

/-- A body that is cut off is not complete, whatever comes to the channel. -/
theorem Base.fit_ne (h : s.Base usizeMax) (horder : s.wire <+: s.fit (content s.taken))
    (hne : s.wire ≠ s.fit (content s.taken)) : s.wire ≠ s.fit s.body := by
  have hbody : s.fit (content s.taken) <+: s.fit s.body := by
    refine Remaining.fit_prefix ?_
    rw [body, ← h.messages]
    exact content_prefix _ _
  intro heq
  exact hne (horder.eq_of_length (le_antisymm horder.length_le (heq ▸ hbody.length_le)))

theorem Base.not_ended (h : s.Base usizeMax) {error : String}
    (hfailure : failure s.taken = some error) : ¬ s.Ended := by
  rintro ⟨-, hpushed⟩
  rw [← h.messages, failure_append_of_some hfailure] at hpushed
  cases hpushed

theorem delivers_wrote (h : s.Base usizeMax) {error : Option String} {phase : WritePhase}
    (hholds : s.Holds [] error phase) : (s.wrote error phase).Delivers usizeMax := by
  have hwire := hholds.wire
  rw [List.append_nil] at hwire
  have hbase := h.task
  unfold wrote
  split
  next =>
    obtain ⟨hwhole, hdeclared⟩ := hholds.bytes rfl
    exact ⟨⟨hbase _, hwire, .inr ⟨hdeclared, hwhole⟩⟩, .of_ne (by simp [finish])⟩
  next hphase =>
    exact ⟨⟨hbase _, ⟨hholds.wire, hholds.failure, hholds.bytes, hholds.abandoned⟩, hphase⟩,
      .of_ne (by simp)⟩
  next error' _ =>
    exact ⟨⟨hbase _, hwire ▸ List.prefix_rfl, .inr (.inl hholds.failure)⟩,
      fun _ _ hcomplete => h.not_ended hholds.failure hcomplete.1⟩

theorem delivers_writeAll (h : s.Base usizeMax) {chunk : Bytes} {error : Option String}
    {phase : WritePhase} (hholds : s.Holds chunk error phase) :
    (s.writeAll chunk error phase).Delivers usizeMax := by
  unfold writeAll
  split_ifs with hreads hempty
  · exact ⟨⟨h.task _, ⟨hholds.wire, hholds.failure, hholds.bytes, hholds.abandoned⟩⟩,
      .of_ne (by simp)⟩
  · exact delivers_wrote h (hempty ▸ hholds)
  · -- the host went away with some of the chunk unwritten
    rw [Bool.not_eq_true] at hreads
    have horder : s.wire <+: s.fit (content s.taken) := hholds.wire ▸ List.prefix_append _ _
    have hne : s.wire ≠ s.fit (content s.taken) := by
      intro heq
      have hwire := hholds.wire
      rw [← heq] at hwire
      exact hempty (List.append_right_eq_self.mp hwire)
    exact ⟨⟨h.task _, horder, .inl ⟨hreads, rfl, hne⟩⟩,
      fun _ _ hcomplete => h.fit_ne horder hne hcomplete.2⟩

/-- A chunk, and an error if there is one, were received. -/
structure Received (usizeMax : ℕ) (s : Writing) (before chunk : Bytes) (error : Option String)
    (phase : WritePhase) : Prop where
  messages : s.taken ++ s.receiver.queue = s.pushed
  fits : ∀ chunk, .ok chunk ∈ s.receiver.queue → chunk.length + coalesceLimit ≤ usizeMax
  remaining : s.remaining = Remaining.less (s.declared.map UInt64.toNat) (s.fit before).length
  wire : s.wire = s.fit before
  content : content s.taken = before ++ chunk
  failure : failure s.taken = error
  bytes : phase ≠ .bytes
  abandoned : phase = .abandoned → s.abandoned = true

theorem sat_writeChunk (before : Bytes) {chunk : Bytes} {error : Option String}
    {phase : WritePhase} (h : s.Received usizeMax before chunk error phase)
    (hlength : chunk.length ≤ usizeMax) :
    (s.writeChunk usizeMax chunk error phase).Sat (Delivers usizeMax) (Delivers usizeMax)
      fun _ => False := by
  have hfit : s.fit (Platform.content s.taken) =
      s.fit before ++ Remaining.fit s.remaining chunk := by
    rw [h.content, h.remaining]
    exact Remaining.fit_append _ _ _
  have hless : Remaining.less s.remaining (Remaining.fit s.remaining chunk).length =
      Remaining.less (s.declared.map UInt64.toNat) (s.fit (Platform.content s.taken)).length := by
    rw [hfit, List.length_append, ← Remaining.less_less, ← h.remaining]
  rw [writeChunk, Remaining.take_eq _ hlength, Outcome.relabel_ok, Outcome.ok_bind]
  by_cases hfull : s.remaining = some 0
  · rw [if_pos hfull]
    rw [h.remaining] at hfull
    refine ⟨⟨⟨h.messages, h.fits, hless⟩, ?_, .inl ?_⟩, .of_ne (by simp [finish])⟩
    · show s.wire = s.fit (Platform.content s.taken)
      rw [h.content, h.wire]
      exact (Remaining.fit_full hfull).symm
    · show s.declared.map UInt64.toNat = some s.wire.length
      rw [h.wire]
      exact Remaining.length_fit_of_full hfull
  · rw [if_neg hfull]
    refine delivers_writeAll
      (s := { s with remaining := s.remaining.less (s.remaining.fit chunk).length })
      ⟨h.messages, h.fits, hless⟩
      ⟨?_, h.failure, fun hb => absurd hb h.bytes, h.abandoned⟩
    show s.wire ++ Remaining.fit s.remaining chunk = s.fit (Platform.content s.taken)
    rw [hfit, h.wire]

/-- The outcome at the end says whether the declared length was filled. -/
theorem outcomeAtEnd_eq (h : s.Base usizeMax) (hwire : s.wire = s.fit (content s.taken)) :
    outcomeAtEnd s.remaining = .sent ∧
        (s.declared.map UInt64.toNat = some s.wire.length ∨ s.declared = none) ∨
      outcomeAtEnd s.remaining = .truncated ∧
        ∃ length ∈ s.declared, s.wire.length < length.toNat := by
  have hremaining := h.remaining
  rw [← hwire] at hremaining
  rw [hremaining, outcomeAtEnd, Remaining.isUnfilled, Remaining.less]
  cases hdeclared : s.declared with
  | none => exact .inl ⟨rfl, .inr rfl⟩
  | some length =>
    have hle : s.wire.length ≤ length.toNat := by
      rw [hwire, fit, hdeclared]
      exact Remaining.length_fit_le _
    by_cases hlt : s.wire.length < length.toNat
    · have hshort : 0 < length.toNat - s.wire.length := by omega
      exact .inr ⟨if_pos (decide_eq_true hshort), length, rfl, hlt⟩
    · have hfull : length.toNat = s.wire.length := by omega
      refine .inl ⟨if_neg ?_, .inl (congrArg some hfull)⟩
      simp [hfull]

/-- The channel was read to its end. -/
theorem delivers_atEnd (h : s.Base usizeMax) {phase : WritePhase} (hholds : s.Holds [] none phase)
    (hclosed : s.receiver.closed = true) (hqueue : s.receiver.queue = []) :
    (s.finish (outcomeAtEnd s.remaining)).Delivers usizeMax := by
  have hwire := hholds.wire
  rw [List.append_nil] at hwire
  have hwhole : s.Whole := ⟨hclosed, hqueue, hholds.failure⟩
  rcases outcomeAtEnd_eq h hwire with ⟨hsent, hfull⟩ | ⟨htruncated, hshort⟩
  · rw [hsent]
    exact ⟨⟨h.task _, hwire, hfull.imp_right fun hdeclared => ⟨hdeclared, hwhole⟩⟩,
      .of_ne (by simp [finish])⟩
  · rw [htruncated]
    exact ⟨⟨h.task _, hwire, hwhole, hshort⟩, .of_ne (by simp [finish])⟩

/-- An error is the last that was received. -/
theorem delivers_errs (h : s.Base usizeMax) (hholds : s.Holds [] none .stream) {error : String}
    {queue : List (Except String Bytes)} (hqueue : s.receiver.queue = .error error :: queue) :
    (finish { s with
      receiver := { s.receiver with queue := queue }
      taken := s.taken ++ [.error error] } (.failed error)).Delivers usizeMax := by
  have hcontent : content (s.taken ++ [.error error]) = content s.taken := by
    rw [content_append hholds.failure]
    exact List.append_nil _
  have hwire := hholds.wire
  rw [List.append_nil] at hwire
  have hfailure : failure (s.taken ++ [.error error]) = some error :=
    failure_append hholds.failure
  have hbase : Base usizeMax (finish { s with
      receiver := { s.receiver with queue := queue }
      taken := s.taken ++ [.error error] } (.failed error)) := by
    refine ⟨?_, fun chunk hchunk => h.fits chunk (hqueue ▸ .tail _ hchunk), ?_⟩
    · show s.taken ++ [.error error] ++ queue = s.pushed
      rw [← h.messages, hqueue, List.append_assoc]
      rfl
    · show s.remaining = Remaining.less (s.declared.map UInt64.toNat)
        (s.fit (content (s.taken ++ [.error error]))).length
      rw [hcontent]
      exact h.remaining
  refine ⟨⟨hbase, ?_, .inr (.inl hfailure)⟩,
    fun _ _ hcomplete => hbase.not_ended hfailure hcomplete.1⟩
  show s.wire <+: s.fit (content (s.taken ++ [.error error]))
  rw [hcontent]
  exact hwire ▸ List.prefix_refl _

/-- A chunk that is received alone. -/
theorem Received.of_next (h : s.Base usizeMax) {phase : WritePhase}
    (hholds : s.Holds [] none phase) (hbytes : phase ≠ .bytes) {chunk : Bytes}
    {queue : List (Except String Bytes)} (hqueue : s.receiver.queue = .ok chunk :: queue) :
    Received usizeMax { s with
      receiver := { s.receiver with queue := queue }
      taken := s.taken ++ [.ok chunk] } (Platform.content s.taken) chunk none phase where
  messages := by
    show s.taken ++ [.ok chunk] ++ queue = s.pushed
    rw [← h.messages, hqueue, List.append_assoc]
    rfl
  fits := fun c hc => h.fits c (hqueue ▸ .tail _ hc)
  remaining := h.remaining
  wire := (List.append_nil _).symm.trans hholds.wire
  content := by
    rw [content_append hholds.failure, Platform.content, Platform.content, List.append_nil]
  failure := failure_append hholds.failure
  bytes := hbytes
  abandoned := hholds.abandoned

theorem sat_finishAbandonedBody (h : s.Base usizeMax) {phase : WritePhase}
    (hholds : s.Holds [] none phase) (habandoned : s.abandoned = true) :
    (s.finishAbandonedBody usizeMax).Sat (Delivers usizeMax) (Delivers usizeMax)
      fun _ => False := by
  have hwire := hholds.wire
  rw [List.append_nil] at hwire
  unfold finishAbandonedBody
  split
  next hqueue =>
    split_ifs with hclosed
    · exact delivers_atEnd h hholds hclosed hqueue
    · exact ⟨⟨h.task _, hwire ▸ List.prefix_rfl, .inr (.inr ⟨habandoned, rfl⟩)⟩,
        fun _ _ hcomplete => hclosed hcomplete.1.1⟩
  next message queue hqueue =>
    cases message with
    | error error =>
      exact delivers_errs h ⟨hholds.wire, hholds.failure, by simp, by simp⟩ hqueue
    | ok chunk =>
      have hfits := h.fits chunk (hqueue ▸ List.mem_cons_self)
      have hnext : s.Holds [] none .abandoned :=
        ⟨hholds.wire, hholds.failure, by simp, fun _ => habandoned⟩
      exact sat_writeChunk _ (Received.of_next h hnext (by simp) hqueue) (by omega)

theorem sat_writeStreamBody (h : s.Base usizeMax) (hholds : s.Holds [] none .stream)
    (htask : s.task = .next .stream) :
    (s.writeStreamBody alloc usizeMax).Sat (Delivers usizeMax) (Delivers usizeMax)
      fun _ => False := by
  unfold writeStreamBody
  split
  next hqueue =>
    split_ifs with hclosed habandoned
    · exact delivers_atEnd h hholds hclosed hqueue
    · exact sat_finishAbandonedBody h hholds habandoned
    · refine ⟨⟨h, ?_⟩, .of_ne (by simp [htask])⟩
      rw [htask]
      exact ⟨hholds, by simp⟩
  next message queue hqueue =>
    cases message with
    | error error => exact delivers_errs h hholds hqueue
    | ok chunk =>
      have hfits := h.fits chunk (hqueue ▸ List.mem_cons_self)
      have hreceived := Received.of_next h hholds (by simp) hqueue
      obtain ⟨appended, error, left, result, hcall, hleft, hbytes, hlength⟩ :=
        coalesceQueuedChunks_content alloc ⟨queue, s.receiver.closed⟩
          (.ofBytes chunk)
      have hleft : queue = appended.map .ok ++ error.toList.map .error ++ left := hleft
      have hsplit : queue.take (queue.length - left.length) =
          appended.map .ok ++ error.toList.map .error := by
        rw [hleft, List.length_append, Nat.add_sub_cancel, List.take_left]
      rw [receive, hcall, Outcome.relabel_ok, Outcome.ok_bind]
      simp only [hsplit]
      refine sat_writeChunk (content s.taken) ?_ ?_
      · exact {
          messages := by
            show s.taken ++ [.ok chunk] ++ (appended.map .ok ++ error.toList.map .error) ++ left =
              s.pushed
            rw [List.append_assoc, ← hleft]
            exact hreceived.messages
          fits := fun c hc => hreceived.fits c (hleft ▸ List.mem_append_right _ hc)
          remaining := h.remaining
          wire := hreceived.wire
          content := by
            rw [content_append hreceived.failure, hreceived.content, content_ok_error,
              List.append_assoc, hbytes, Vec.bytes_ofBytes]
          failure := (failure_append hreceived.failure).trans (failure_ok_error _ _)
          bytes := by simp
          abandoned := by simp }
      · rcases hlength with rfl | ⟨last, hlast, hlt⟩
        · exact (Nat.le_add_right _ _).trans hfits
        · have hqueued : .ok last ∈ queue := by
            rw [hleft]
            simp [hlast]
          have hlast := hreceived.fits last hqueued
          show result.len ≤ usizeMax
          omega

/-- **What a step keeps**: the invariant, and an outcome that it delivers is not a failure of a
body that arrived complete. -/
def Keeps (usizeMax : ℕ) (s t : Writing) : Prop :=
  t.Inv usizeMax ∧ ((∀ outcome, s.task ≠ .ended outcome) → t.Unfinished)

theorem Delivers.keeps {t : Writing} (h : t.Delivers usizeMax) : Keeps usizeMax s t :=
  ⟨h.toInv, fun _ => h.unfinished⟩

/-- The task stays where it is. -/
theorem Inv.keeps {t : Writing} (h : t.Inv usizeMax) (htask : t.task = s.task) :
    Keeps usizeMax s t :=
  ⟨h, fun hnot => .of_ne fun _ => htask ▸ hnot _⟩

theorem sat_proceeds (h : s.Inv usizeMax) :
    (s.proceeds alloc usizeMax).Sat (Keeps usizeMax s) (Keeps usizeMax s) fun _ => False := by
  cases htask : s.task with
  | writing rest error phase =>
    rw [proceeds, htask]
    exact h.keeps rfl
  | ended outcome =>
    rw [proceeds, htask]
    exact h.keeps rfl
  | next phase =>
    obtain ⟨hholds, hbytes⟩ : s.Flow (.next phase) := htask ▸ h.flow
    rw [proceeds, htask]
    cases phase with
    | bytes => exact absurd rfl hbytes
    | stream =>
      exact (sat_writeStreamBody h.toBase hholds htask).mono (fun _ => Delivers.keeps)
        (fun _ => Delivers.keeps) fun _ => id
    | abandoned =>
      exact (sat_finishAbandonedBody h.toBase hholds (hholds.abandoned rfl)).mono
        (fun _ => Delivers.keeps) (fun _ => Delivers.keeps) fun _ => id

theorem keeps_hostTakes (h : s.Inv usizeMax) (n : ℕ) : Keeps usizeMax s (s.hostTakes n) := by
  unfold Writing.hostTakes
  split
  next rest error phase htask =>
    obtain ⟨hwire, hfailure, hbytes, habandoned⟩ : s.Flow (.writing rest error phase) :=
      htask ▸ h.flow
    split_ifs with hreads hall
    · exact h.keeps rfl
    · have htake : s.wire ++ rest.take n ++ [] = s.fit (content s.taken) := by
        rw [List.append_nil, List.take_of_length_le hall, hwire]
      exact (delivers_wrote (s := { s with wire := s.wire ++ rest.take n })
        ⟨h.messages, h.fits, h.remaining⟩ ⟨htake, hfailure, hbytes, habandoned⟩).keeps
    · have htake : s.wire ++ rest.take n ++ rest.drop n = s.fit (content s.taken) := by
        rw [List.append_assoc, List.take_append_drop, hwire]
      exact ⟨⟨⟨h.messages, h.fits, h.remaining⟩, ⟨htake, hfailure, hbytes, habandoned⟩⟩,
        fun _ => .of_ne (by simp)⟩
  next => exact h.keeps rfl

theorem keeps_hostDrops (h : s.Inv usizeMax) : Keeps usizeMax s s.hostDrops := by
  unfold Writing.hostDrops
  dsimp only
  split
  next rest error phase htask =>
    obtain ⟨hwire, hfailure, hbytes, habandoned⟩ : s.Flow (.writing rest error phase) :=
      htask ▸ h.flow
    exact (delivers_writeAll (s := { s with reads := false }) ⟨h.messages, h.fits, h.remaining⟩
      ⟨hwire, hfailure, hbytes, habandoned⟩).keeps
  next hother =>
    refine Inv.keeps ⟨⟨h.messages, h.fits, h.remaining⟩, ?_⟩ rfl
    have hflow := h.flow
    show Flow { s with reads := false } s.task
    cases htask : s.task with
    | next phase =>
      obtain ⟨⟨hwire, hfailure, hbytes, habandoned⟩, hphase⟩ : s.Flow (.next phase) :=
        htask ▸ hflow
      exact ⟨⟨hwire, hfailure, hbytes, habandoned⟩, hphase⟩
    | writing rest error phase => exact absurd htask (hother rest error phase)
    | ended outcome =>
      rw [htask] at hflow
      cases outcome with
      | failed message => exact ⟨hflow.1, hflow.2.imp_left fun hdropped => ⟨rfl, hdropped.2⟩⟩
      | sent => exact hflow
      | truncated => exact hflow
      | timedOut => exact hflow

theorem keeps_expires (h : s.Inv usizeMax) : Keeps usizeMax s s.expires := by
  unfold Writing.expires
  split
  · exact h.keeps rfl
  · exact ⟨⟨h.toBase.task _, h.flow.order⟩, fun _ => .of_ne (by simp [finish])⟩

/-- What comes to the channel, while it is open, leaves the task where it is. -/
theorem Flow.other {task : WriterTask} (h : s.Flow task)
    {receiver : OutgoingBodyReceiver String}
    (hreceiver : s.receiver.closed = true → receiver = s.receiver)
    (pushed : List (Except String Bytes)) {abandoned : Bool}
    (habandoned : s.abandoned = true → abandoned = true) :
    Flow { s with receiver := receiver, pushed := pushed, abandoned := abandoned } task := by
  have hwhole : s.Whole →
      Whole { s with receiver := receiver, pushed := pushed, abandoned := abandoned } := by
    rintro ⟨hclosed, hrest⟩
    show receiver.closed = true ∧ receiver.queue = [] ∧ _
    rw [hreceiver hclosed]
    exact ⟨hclosed, hrest⟩
  cases task with
  | next phase =>
    exact ⟨⟨h.1.wire, h.1.failure, fun hb => (h.1.bytes hb).imp_left hwhole,
      fun ha => habandoned (h.1.abandoned ha)⟩, h.2⟩
  | writing rest error phase =>
    exact ⟨h.wire, h.failure, fun hb => (h.bytes hb).imp_left hwhole,
      fun ha => habandoned (h.abandoned ha)⟩
  | ended outcome =>
    cases outcome with
    | sent => exact ⟨h.1, h.2.imp_right fun hw => hw.imp_right hwhole⟩
    | truncated => exact ⟨h.1, hwhole h.2.1, h.2.2⟩
    | timedOut => exact h
    | failed message =>
      exact ⟨h.1, h.2.imp_right fun hc => hc.imp_right fun ha => ⟨habandoned ha.1, ha.2⟩⟩

/-- The chunks of the body are no longer than a vector gets, with room for what is coalesced. -/
def Fits (usizeMax : ℕ) : WriterEvent → Prop
  | .push (.ok chunk) => chunk.length + coalesceLimit ≤ usizeMax
  | _ => True

theorem sat_step (h : s.Inv usizeMax) {e : WriterEvent} (hfits : Fits usizeMax e) :
    (s.step alloc usizeMax e).Sat (Keeps usizeMax s) (Keeps usizeMax s) fun _ => False := by
  cases e with
  | push message =>
    rw [step]
    split_ifs with hclosed
    · exact h.keeps rfl
    · refine Inv.keeps ⟨⟨?_, fun chunk hchunk => ?_, h.remaining⟩,
        h.flow.other (fun hc => absurd hc hclosed) _ id⟩ rfl
      · rw [← h.messages, List.append_assoc]
      · rcases List.mem_append.mp hchunk with hchunk | hchunk
        · exact h.fits chunk hchunk
        · obtain rfl := List.mem_singleton.mp hchunk
          exact hfits
  | close =>
    exact Inv.keeps ⟨⟨h.messages, h.fits, h.remaining⟩, h.flow.other (fun hc => by rw [← hc]) _ id⟩
      rfl
  | abandon =>
    exact Inv.keeps ⟨⟨h.messages, h.fits, h.remaining⟩, h.flow.other (fun _ => rfl) _ fun _ => rfl⟩
      rfl
  | proceeds => exact sat_proceeds h
  | hostTakes n => exact keeps_hostTakes h n
  | hostDrops => exact keeps_hostDrops h
  | expires => exact keeps_expires h

theorem inv_newStream {declared : Option UInt64} {messages : List (Except String Bytes)}
    {closed : Bool}
    (hfits : ∀ chunk, .ok chunk ∈ messages → chunk.length + coalesceLimit ≤ usizeMax) :
    (newStream declared messages closed).Inv usizeMax := by
  have hnil : Remaining.fit (declared.map UInt64.toNat) [] = [] := Remaining.fit_nil _
  refine ⟨⟨rfl, hfits, ?_⟩, ⟨hnil.symm, rfl, by simp, by simp⟩, by simp⟩
  show declared.map UInt64.toNat = Remaining.less (declared.map UInt64.toNat)
    (Remaining.fit (declared.map UInt64.toNat) []).length
  rw [hnil, List.length_nil, Remaining.less_zero]

theorem inv_newBytes (bytes : Bytes) : (newBytes bytes).Inv usizeMax := by
  have hcontent : content [(.ok bytes : Except String Bytes)] = bytes := List.append_nil _
  exact {
    messages := rfl
    fits := fun chunk hchunk => by cases hchunk
    remaining := rfl
    flow := ⟨hcontent.symm, rfl, fun _ => ⟨⟨rfl, rfl, rfl⟩, rfl⟩, by simp⟩ }

/-! ### Results -/

theorem Inv.order (h : s.Inv usizeMax) : s.wire <+: s.fit s.body := by
  refine h.flow.order.trans (Remaining.fit_prefix ?_)
  rw [body, ← h.messages]
  exact content_prefix _ _

/-- All of the body was received. -/
theorem Whole.body (h : s.Base usizeMax) (hwhole : s.Whole) :
    s.Ended ∧ content s.taken = s.body := by
  obtain ⟨hclosed, hqueue, hfailure⟩ := hwhole
  have hpushed : s.taken = s.pushed := by
    rw [← h.messages, hqueue, List.append_nil]
  exact ⟨⟨hclosed, hpushed ▸ hfailure⟩, congrArg content hpushed⟩

theorem Inv.outcome (h : s.Inv usizeMax) {outcome : BodySendOutcome}
    (htask : s.task = .ended outcome) : s.Says outcome := by
  have hflow := h.flow
  rw [htask] at hflow
  cases outcome with
  | sent =>
    obtain ⟨hwire, hfull | ⟨hdeclared, hwhole⟩⟩ := hflow
    · cases hdeclared : s.declared with
      | none =>
        rw [hdeclared] at hfull
        cases hfull
      | some length =>
        rw [hdeclared] at hfull
        have hlength : length.toNat = s.wire.length := Option.some.inj hfull
        have hle : (s.fit s.body).length ≤ s.wire.length := by
          rw [fit, hdeclared, ← hlength]
          exact Remaining.length_fit_le _
        refine ⟨h.order.eq_of_length (le_antisymm h.order.length_le hle), fun l hl => ?_,
          fun hnone => ?_⟩
        · rw [hdeclared] at hl
          exact Option.some.inj hl ▸ hlength.symm
        · rw [hdeclared] at hnone
          cases hnone
    · obtain ⟨hended, hcontent⟩ := hwhole.body h.toBase
      refine ⟨hcontent ▸ hwire, fun l hl => ?_, fun _ => hended⟩
      rw [hdeclared] at hl
      cases hl
  | truncated =>
    obtain ⟨hwire, hwhole, length, hlength, hlt⟩ := hflow
    obtain ⟨hended, hcontent⟩ := hwhole.body h.toBase
    refine ⟨?_, hended, length, hlength, hlt⟩
    rw [hwire, hcontent, fit, Option.mem_def.mp hlength] at hlt ⊢
    exact Remaining.fit_of_short hlt
  | timedOut => trivial
  | failed message =>
    obtain ⟨horder, ⟨hreads, hmessage, hne⟩ | hfailure | habandoned⟩ := hflow
    · exact .inl ⟨hreads, hmessage, h.fit_ne horder hne⟩
    · refine .inr (.inl ?_)
      rw [← h.messages]
      exact failure_append_of_some hfailure
    · exact .inr (.inr habandoned)

theorem Inv.wrote (h : s.Inv usizeMax) : s.Wrote where
  order := h.order
  outcome := fun _ => h.outcome
  trailers := by
    unfold Writing.trailers
    split <;> simp_all

/-! ### What stays as it is -/

/-- The declared length stays, and so does a body that is all there. -/
structure Frame (s t : Writing) : Prop where
  declared : t.declared = s.declared
  closed : s.receiver.closed = true → t.receiver.closed = true
  pushed : s.receiver.closed = true → t.pushed = s.pushed

theorem Frame.refl (s : Writing) : Frame s s := ⟨rfl, id, fun _ => rfl⟩

theorem Frame.trans {s t u : Writing} (h : Frame s t) (h' : Frame t u) : Frame s u where
  declared := h'.declared.trans h.declared
  closed := fun hclosed => h'.closed (h.closed hclosed)
  pushed := fun hclosed => (h'.pushed (h.closed hclosed)).trans (h.pushed hclosed)

theorem frame_wrote (s : Writing) (error : Option String) (phase : WritePhase) :
    Frame s (s.wrote error phase) := by
  unfold Writing.wrote
  split <;> exact ⟨rfl, id, fun _ => rfl⟩

theorem frame_writeAll (s : Writing) (chunk : Bytes) (error : Option String)
    (phase : WritePhase) : Frame s (s.writeAll chunk error phase) := by
  unfold writeAll
  split_ifs
  · exact ⟨rfl, id, fun _ => rfl⟩
  · exact frame_wrote s error phase
  · exact ⟨rfl, id, fun _ => rfl⟩

theorem frame_writeChunk (s : Writing) (chunk : Bytes) (error : Option String)
    (phase : WritePhase) :
    (s.writeChunk usizeMax chunk error phase).Sat (Frame s) (Frame s) fun _ => True := by
  rw [writeChunk]
  cases (s.remaining.take usizeMax chunk) with
  | ok result =>
    obtain ⟨taken, remaining⟩ := result
    rw [Outcome.relabel_ok, Outcome.ok_bind]
    dsimp only
    split
    next => exact ⟨rfl, id, fun _ => rfl⟩
    next =>
      refine .trans ?_ (frame_writeAll _ _ _ _)
      exact ⟨rfl, id, fun _ => rfl⟩
  | threw e _ => exact e.elim
  | panic => trivial

/-- What a call does to a body of which a message was taken. -/
private theorem frame_of {s t : Writing} {x : Writes} (h : Frame s t)
    (hx : x.Sat (Frame t) (Frame t) fun _ => True) : x.Sat (Frame s) (Frame s) fun _ => True :=
  hx.mono (fun _ => h.trans) (fun _ => h.trans) fun _ => id

theorem frame_finishAbandonedBody (s : Writing) :
    (s.finishAbandonedBody usizeMax).Sat (Frame s) (Frame s) fun _ => True := by
  unfold finishAbandonedBody
  split
  · exact ⟨rfl, id, fun _ => rfl⟩
  next message queue hqueue =>
    cases message with
    | error error => exact ⟨rfl, id, fun _ => rfl⟩
    | ok chunk =>
      refine frame_of ?_ (frame_writeChunk _ _ _ _)
      exact ⟨rfl, id, fun _ => rfl⟩

theorem frame_writeStreamBody (s : Writing) :
    (s.writeStreamBody alloc usizeMax).Sat (Frame s) (Frame s) fun _ => True := by
  unfold writeStreamBody
  split
  · split_ifs
    · exact ⟨rfl, id, fun _ => rfl⟩
    · exact frame_finishAbandonedBody s
    · exact .refl s
  next message queue hqueue =>
    cases message with
    | error error => exact ⟨rfl, id, fun _ => rfl⟩
    | ok chunk =>
      obtain ⟨_, error, left, result, hcall, -⟩ :=
        coalesceQueuedChunks_content alloc ⟨queue, s.receiver.closed⟩
          (.ofBytes chunk)
      rw [receive, hcall, Outcome.relabel_ok, Outcome.ok_bind]
      refine frame_of ?_ (frame_writeChunk _ _ _ _)
      exact ⟨rfl, id, fun _ => rfl⟩

theorem frame_step (s : Writing) (e : WriterEvent) :
    (s.step alloc usizeMax e).Sat (Frame s) (Frame s) fun _ => True := by
  cases e with
  | push message =>
    rw [step]
    split_ifs with hclosed
    · exact .refl s
    · exact ⟨rfl, id, fun h => absurd h hclosed⟩
  | close => exact ⟨rfl, fun _ => rfl, fun _ => rfl⟩
  | abandon => exact ⟨rfl, id, fun _ => rfl⟩
  | proceeds =>
    rw [step, proceeds]
    split
    · exact frame_finishAbandonedBody s
    · exact frame_writeStreamBody s
    · exact .refl s
    · exact .refl s
  | hostTakes n =>
    show Frame s (s.hostTakes n)
    unfold hostTakes
    split
    · split_ifs
      · exact .refl s
      · refine .trans ?_ (frame_wrote _ _ _)
        exact ⟨rfl, id, fun _ => rfl⟩
      · exact ⟨rfl, id, fun _ => rfl⟩
    · exact .refl s
  | hostDrops =>
    show Frame s s.hostDrops
    unfold hostDrops
    dsimp only
    split
    · refine .trans ?_ (frame_writeAll _ _ _ _)
      exact ⟨rfl, id, fun _ => rfl⟩
    · exact ⟨rfl, id, fun _ => rfl⟩
  | expires =>
    show Frame s s.expires
    unfold expires
    split <;> exact ⟨rfl, id, fun _ => rfl⟩

theorem frame_of_run {ok : Writing → WriterEvent → Prop} {t : Writing}
    (hrun : (writerMachine alloc usizeMax).RunWhere ok s t) : Frame s t := by
  induction hrun with
  | refl => exact .refl s
  | tail _ _ hstep ih => exact ih.trans ((frame_step _ _).state? hstep)

/-! ### Runs -/

/-- The messages that a stream has at first are no longer than those that are pushed. -/
def BodyFits (usizeMax : ℕ) : OutgoingBody → Prop
  | .stream messages _ => ∀ message ∈ messages, Fits usizeMax (.push message)
  | _ => True

theorem inv_newAbsent : newAbsent.Inv usizeMax where
  messages := rfl
  fits := fun chunk hchunk => by cases hchunk
  remaining := rfl
  flow := ⟨rfl, .inr ⟨rfl, rfl, rfl, rfl⟩⟩

theorem inv_new {declared : Option UInt64} {body : OutgoingBody} (hfits : BodyFits usizeMax body) :
    (new declared body).Inv usizeMax := by
  unfold new
  split
  · exact inv_newAbsent
  · exact inv_newAbsent
  · exact inv_newAbsent
  · exact inv_newBytes _
  · exact inv_newStream fun chunk hchunk => hfits _ hchunk

/-- Every event can happen, and what it does is kept. -/
theorem Inv.steps (h : s.Inv usizeMax) {e : WriterEvent} (he : Fits usizeMax e) :
    ∃ t, s.step alloc usizeMax e = .ok t ∧ Keeps usizeMax s t := by
  have hstep : (s.step alloc usizeMax e).Sat (Keeps usizeMax s) (Keeps usizeMax s)
      fun _ => False := sat_step h he
  cases hcall : s.step alloc usizeMax e with
  | ok t =>
    rw [hcall] at hstep
    exact ⟨t, rfl, hstep⟩
  | threw e _ => exact e.elim
  | panic site =>
    rw [hcall] at hstep
    exact hstep.elim

/-- An outcome that was delivered stays. -/
theorem ended_step {outcome : BodySendOutcome} (h : s.task = .ended outcome) (e : WriterEvent) :
    (s.step alloc usizeMax e).Sat (fun t => t.task = .ended outcome)
      (fun t => t.task = .ended outcome) fun _ => True := by
  cases e with
  | push message =>
    rw [step]
    split <;> exact h
  | close => exact h
  | abandon => exact h
  | proceeds =>
    rw [step, proceeds, h]
    exact h
  | hostTakes n =>
    show (s.hostTakes n).task = .ended outcome
    rw [hostTakes, h]
    exact h
  | hostDrops =>
    show s.hostDrops.task = .ended outcome
    simp only [hostDrops, h]
  | expires =>
    show s.expires.task = .ended outcome
    rw [expires, h]
    exact h

theorem ended_of_run {ok : Writing → WriterEvent → Prop} {t : Writing} {outcome : BodySendOutcome}
    (h : s.task = .ended outcome) (hrun : (writerMachine alloc usizeMax).RunWhere ok s t) :
    t.task = .ended outcome := by
  induction hrun with
  | refl => exact h
  | tail _ _ hstep ih => exact (ended_step ih _).state? hstep

theorem inv_of_run {ok : Writing → WriterEvent → Prop} {t : Writing} (h : s.Inv usizeMax)
    (hok : ∀ u e, ok u e → Fits usizeMax e)
    (hrun : (writerMachine alloc usizeMax).RunWhere ok s t) : t.Inv usizeMax :=
  hrun.inv_of_sat h fun u _ hu he =>
    (sat_step hu (hok u _ he)).mono (fun _ => And.left) (fun _ => And.left) fun _ => id

/-- A streamed body. -/
theorem wrote_of_run_stream {declared : Option UInt64} {messages : List (Except String Bytes)}
    {closed : Bool} (hfits : ∀ message ∈ messages, Fits usizeMax (.push message))
    (hrun : (writerMachine alloc usizeMax).RunWhere (fun _ e => Fits usizeMax e)
      (.newStream declared messages closed) s) :
    s.Wrote ∧ s.declared = declared ∧ (closed = true → s.pushed = messages) := by
  have hinv : s.Inv usizeMax :=
    inv_of_run (inv_newStream fun chunk hchunk => hfits _ hchunk) (fun _ _ => id) hrun
  have hframe := frame_of_run hrun
  exact ⟨hinv.wrote, hframe.declared, hframe.pushed⟩

/-- What the body is does not change. -/
theorem carries_of_run {ok : Writing → WriterEvent → Prop} {declared : Option UInt64}
    {body : OutgoingBody} (horder : s.wire <+: s.fit s.body)
    (hrun : (writerMachine alloc usizeMax).RunWhere ok (.new declared body) s) :
    s.Carries declared body := by
  have hframe := frame_of_run hrun
  have habsent : new declared body = newAbsent → s.task = .ended .sent ∧ s.wire = [] := by
    intro hnew
    rw [hnew] at hrun hframe
    have hnone : s.fit s.body = [] := by
      rw [fit, hframe.declared, Writing.body, hframe.pushed rfl]
      rfl
    exact ⟨ended_of_run rfl hrun, List.prefix_nil.mp (hnone ▸ horder)⟩
  match body with
  | .host => exact habsent rfl
  | .consumed => exact habsent rfl
  | .stream messages closed => exact ⟨hframe.declared, hframe.pushed⟩
  | .bytes [] =>
    refine ⟨hframe.declared, ?_⟩
    rw [Writing.body, hframe.pushed rfl]
    rfl
  | .bytes (byte :: bytes) =>
    refine ⟨hframe.declared, ?_⟩
    rw [Writing.body, hframe.pushed rfl]
    exact List.append_nil _

/-- **A body is written**, whatever its kind and whatever the host does with it. Nothing panics, a
failure is delivered only if the body did not arrive complete, and an outcome stays. -/
theorem writes_of_run {declared : Option UInt64} {body : OutgoingBody}
    (hfits : BodyFits usizeMax body)
    (hrun : (writerMachine alloc usizeMax).RunWhere (fun _ e => Fits usizeMax e)
      (.new declared body) s) :
    s.Wrote ∧ s.Carries declared body ∧ ∀ e, Fits usizeMax e →
      ∃ t, s.step alloc usizeMax e = .ok t ∧
        ((∀ outcome, s.task ≠ .ended outcome) → t.Unfinished) ∧
        ∀ outcome, s.task = .ended outcome → t.task = .ended outcome := by
  have hinv : s.Inv usizeMax := inv_of_run (inv_new hfits) (fun _ _ => id) hrun
  refine ⟨hinv.wrote, carries_of_run hinv.order hrun, fun e he => ?_⟩
  obtain ⟨t, hstep, hkeeps⟩ : ∃ t, s.step alloc usizeMax e = .ok t ∧ Keeps usizeMax s t :=
    hinv.steps he
  refine ⟨t, hstep, hkeeps.2, fun outcome htask => ?_⟩
  have hended : (s.step alloc usizeMax e).Sat _ _ _ := ended_step htask e
  rw [hstep] at hended
  exact hended

/-- A stream that is shorter than it declared, and a body in memory whose host goes away. -/
theorem writes_of_run_short :
    (∃ s : Writing, s.task = .ended .truncated ∧ s.wire = [1, 2] ∧ s.Wrote) ∧
    ∃ s : Writing, s.task = .ended (.failed hostStoppedReading) ∧ s.wire = [1] ∧
      s.body = [1, 2, 3] ∧ s.Wrote := by
  have alloc : Allocator := ⟨id, fun _ n => n, fun _ => le_rfl, fun _ _ => le_rfl⟩
  obtain ⟨s, hrun, hs⟩ := Machine.exists_runWhere_of_exec
    (M := writerMachine alloc (2 ^ 32 - 1)) (s := .new (some 3) (.stream [.ok [1, 2]] false))
    (fun _ e => Fits (2 ^ 32 - 1) e) [.proceeds, .hostTakes 5, .close, .proceeds]
    (P := fun s => s.task = .ended .truncated ∧ s.wire = [1, 2]) (by simp [Fits])
    (by
      rw [Machine.exec]
      simp only [writerMachine, step, proceeds, new, newStream, writeStreamBody, receive,
        coalesceQueuedChunks_nil]
      rfl)
  obtain ⟨t, hrun', ht⟩ := Machine.exists_runWhere_of_exec
    (M := writerMachine alloc (2 ^ 32 - 1)) (s := .new (some 3) (.bytes [1, 2, 3]))
    (fun _ e => Fits (2 ^ 32 - 1) e) [.hostTakes 1, .hostDrops]
    (P := fun s => s.task = .ended (.failed hostStoppedReading) ∧ s.wire = [1]) (by simp [Fits])
    (by rfl)
  obtain ⟨htask, hwire⟩ := of_decide_eq_true hs
  obtain ⟨htask', hwire'⟩ := of_decide_eq_true ht
  have hbytes : BodyFits (2 ^ 32 - 1) (.bytes [1, 2, 3]) := trivial
  obtain ⟨hwrote, ⟨-, hbody⟩, -⟩ := writes_of_run hbytes hrun'
  exact ⟨⟨s, htask, hwire, (writes_of_run (by simp [BodyFits, Fits, coalesceLimit]) hrun).1⟩,
    t, htask', hwire', hbody, hwrote⟩

end Writing

end Platform
