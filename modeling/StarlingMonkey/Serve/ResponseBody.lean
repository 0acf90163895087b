import StarlingMonkey.Lib.Mpsc
import StarlingMonkey.Lib.Run
import StarlingMonkey.Platform.BodyWriter

/-!
# Streamed response bodies of the native server

`send_response_body` forwards the chunks of a handler's body to a `WireBody`, which the connection
polls, and waits for word of how the send ended. The two sides share a channel with room for one
chunk, the reason of an abort, and a oneshot for the outcome.

`Sending` is both sides with the channel the body comes from. An event is a message or the close of
that channel, the end of the event loop, a poll of the sending side up to its next await, the time
limit, a poll of the `WireBody`, or its drop.

* `Inv` is what is kept: where the content is, and what the two sides know of each other.
* `delivers_of_run`: what the client gets is a beginning of the content that fits the declared
  length, a clean end means that it is all of it, and the outcome says what the client got.
* `transports_agree`: the writer of the wasm target puts the same bytes on the wire.
-/

namespace Serve

open Platform

/-- `BodySendOutcome`. -/
inductive BodySendOutcome where
  | sent
  | timedOut
  | connectionLost (message : String)
  | truncated
deriving DecidableEq, Repr

/-- `OutgoingBody`, where there is something to send. -/
inductive BodyKind where
  | bytes | stream | host
deriving DecidableEq, Repr

/-- Where `send_response_body` is. -/
inductive Task where
  /-- It waits for a message of the body. -/
  | next
  /-- It waits for room for a chunk, behind which the body failed if there is an error. -/
  | sending (chunk : Bytes) (error : Option String)
  /-- It waits for the last chunk to be taken before the body fails. -/
  | failing (error : String)
  /-- The body was sent, and it waits for the outcome. -/
  | awaiting
  /-- It returned the outcome that was reported. -/
  | returned (outcome : BodySendOutcome)
  /-- It returned without one. -/
  | failed (outcome : BodySendOutcome)
deriving DecidableEq, Repr

/-- How a `WireBody` ended. -/
inductive WireEnd where
  | clean
  | error (message : String)
deriving DecidableEq, Repr

/-- `BodyProducer` and `WireBody`. -/
structure Sending where
  kind : BodyKind
  /-- `declared_length`, and `length` of the `WireBody`. -/
  declared : Option UInt64
  /-- The body: `pushed` were its messages, and `taken` are those that were received. -/
  receiver : OutgoingBodyReceiver String
  pushed : List (Except String Bytes)
  taken : List (Except String Bytes)
  loopDone : Bool
  remaining : Remaining
  task : Task
  /-- `chunks`; its receiver is there until the `WireBody` is dropped. -/
  chunks : Mpsc Bytes
  abort : Option String
  delivered : ℕ
  /-- What was sent on the oneshot. -/
  outcome : Option BodySendOutcome
  wireEnd : Option WireEnd

/-- Where the program would panic. -/
inductive SendSite where
  | remaining | reserveExact
deriving DecidableEq, Repr

/-- What happens to a response body. -/
inductive SendEvent where
  | push (message : Except String Bytes)
  | close
  | loopFinishes
  /-- `send_response_body` is polled. -/
  | proceeds
  | timeLimit
  /-- The `WireBody` is polled. -/
  | polls
  /-- The `WireBody` is dropped. -/
  | drops

namespace Sending

/-- How a call ends. -/
abbrev Sends := Outcome SendSite Empty Sending Sending

/-! ### The sending side -/

/-- The message of a lost connection. -/
def connectionLost : String :=
  "the connection was lost while the response body was being written"

/-- `WIRE_CHUNK_BYTES`. -/
def wireChunkBytes : ℕ := 64 * 1024

/-- The body cannot be completed. -/
def fail (s : Sending) (outcome : BodySendOutcome) (message : String) : Sending :=
  { s with
    abort := some message
    chunks := s.chunks.dropSender
    task := .failed outcome }

/-- The body was sent. -/
def finish (s : Sending) : Sending :=
  { s with
    chunks := s.chunks.dropSender
    task := .awaiting }

/-- A chunk was sent, behind which the body failed if there is an error. -/
def goOn (s : Sending) : Option String → Sending
  | none => { s with task := .next }
  | some error => { s with task := .failing error }

/-- `send_chunk`, up to its await. -/
def sendChunk (usizeMax : ℕ) (s : Sending) (chunk : Bytes) (error : Option String) : Sends := do
  let (taken, remaining) ← (s.remaining.take usizeMax chunk).relabel fun _ => SendSite.remaining
  let s := { s with remaining := remaining }
  match taken with
  | none => .ok s.finish
  | some [] => .ok (s.goOn error)
  | some chunk => .ok { s with task := .sending chunk error }

/-- `forward_body` and `forward_stream`, with a message of the body. -/
def receive (alloc : Allocator) (usizeMax : ℕ) (s : Sending) : Except String Bytes → Sends
  | .ok chunk =>
    if s.kind = .stream then do
      let (error, receiver, vec) ← (coalesceQueuedChunks alloc s.receiver
        (.ofBytes chunk)).relabel fun _ => SendSite.reserveExact
      let taken := s.receiver.queue.take (s.receiver.queue.length - receiver.queue.length)
      { s with
        receiver := receiver
        taken := s.taken ++ taken }.sendChunk usizeMax vec.bytes error
    else s.sendChunk usizeMax chunk none
  | .error error =>
    if s.kind = .stream then .ok { s with task := .failing error }
    else
      let message := "response body failed mid-stream: " ++ error
      .ok (s.fail (.connectionLost message) message)

/-- `send_response_body`, up to its next await. -/
def proceeds (alloc : Allocator) (usizeMax : ℕ) (s : Sending) : Sends :=
  match s.task with
  | .next =>
    match s.receiver.queue with
    | message :: queue =>
      { s with
        receiver := { s.receiver with queue := queue }
        taken := s.taken ++ [message] }.receive alloc usizeMax message
    | [] =>
      if s.receiver.closed then .ok s.finish
      else if s.kind = .stream && s.loopDone then
        let message := "the event loop finished while the response body was still open, so " ++
          "the body can never complete"
        .ok (s.fail (.connectionLost message) message)
      else .ok s
  | .sending chunk error =>
    if !s.chunks.receiver then .ok (s.fail (.connectionLost connectionLost) connectionLost)
    else if s.chunks.ready then .ok ({ s with chunks := s.chunks.send chunk }.goOn error)
    else .ok s
  | .failing error =>
    if !s.chunks.receiver || s.chunks.ready then
      let message := "response body errored mid-stream: " ++ error
      .ok (s.fail (.connectionLost message) message)
    else .ok s
  | .awaiting =>
    match s.outcome with
    | some outcome => .ok { s with task := .returned outcome }
    | none => .ok s
  | .returned _ | .failed _ => .ok s

/-- The time limit runs out before `send_response_body` has returned. -/
def timeLimit (s : Sending) : Sending :=
  match s.task, s.outcome with
  | .returned _, _ | .failed _, _ => s
  | .awaiting, some outcome => { s with task := .returned outcome }
  | _, _ => s.fail .timedOut "the response body ran out of time"

/-! ### The other side -/

/-- `WireBody::report`. -/
def report (s : Sending) (outcome : BodySendOutcome) : Sending :=
  { s with outcome := s.outcome.or (some outcome) }

/-- `u64::saturating_add`, and the declared length. -/
def deliver (s : Sending) (n : ℕ) : ℕ :=
  let delivered := min (s.delivered + n) (2 ^ 64 - 1)
  match s.declared with
  | some declared => min delivered declared.toNat
  | none => delivered

/-- Whether less than the declared length was delivered. -/
def short (s : Sending) : Bool := s.declared.any (s.delivered < ·.toNat)

/-- `WireBody::poll_frame`. -/
def pollFrame (s : Sending) : Sending :=
  match s.chunks.queue with
  | chunk :: _ =>
    { s with
      chunks := s.chunks.recv
      delivered := s.deliver chunk.length }
  | [] =>
    if s.chunks.sender then s
    else
      match s.abort with
      | some message =>
        { s with
          chunks := s.chunks.recv
          abort := none
          wireEnd := some (.error message) }
      | none =>
        { s with
          chunks := s.chunks.recv
          wireEnd := some .clean }.report (if s.short then .truncated else .sent)

/-- `WireBody::drop`. -/
def drop (s : Sending) : Sending :=
  let s := if s.declared.any (·.toNat ≤ s.delivered) then s.report .sent
    else s.report (.connectionLost connectionLost)
  { s with chunks := s.chunks.dropReceiver }

/-! ### Both sides -/

/-- What an event does, if it can happen. A body that has ended is not polled again. -/
def step (alloc : Allocator) (usizeMax : ℕ) (s : Sending) : SendEvent → Sends
  | .push message =>
    .ok (if s.receiver.closed then s
      else { s with
        receiver := { s.receiver with queue := s.receiver.queue ++ [message] }
        pushed := s.pushed ++ [message] })
  | .close => .ok { s with receiver := { s.receiver with closed := true } }
  | .loopFinishes => .ok { s with loopDone := true }
  | .proceeds => s.proceeds alloc usizeMax
  | .timeLimit => .ok s.timeLimit
  | .polls => .ok (if s.chunks.receiver && s.wireEnd.isNone then s.pollFrame else s)
  | .drops => .ok (if s.chunks.receiver then s.drop else s)

/-- `create_body_channel`, for a body whose first messages are there. -/
def new (kind : BodyKind) (declared : Option UInt64) (messages : List (Except String Bytes))
    (closed : Bool) : Sending where
  kind := kind
  declared := declared
  receiver := ⟨messages, closed⟩
  pushed := messages
  taken := []
  loopDone := false
  remaining := declared.map UInt64.toNat
  task := .next
  chunks := .new 0
  abort := none
  delivered := 0
  outcome := none
  wireEnd := none

/-- The chunks a body in memory is split into, in at most so many rounds. -/
def splitRounds : ℕ → Bytes → List Bytes
  | 0, _ => []
  | rounds + 1, bytes =>
    if bytes.isEmpty then []
    else bytes.take wireChunkBytes :: splitRounds rounds (bytes.drop wireChunkBytes)

/-- `create_body_channel`, for a body in memory. -/
def newBytes (declared : Option UInt64) (bytes : Bytes) : Sending :=
  new .bytes declared ((splitRounds bytes.length bytes).map .ok) true

end Sending

/-- The two sides as a machine. -/
def sendMachine (alloc : Allocator) (usizeMax : ℕ) : Machine SendSite Empty Sending SendEvent :=
  ⟨Sending.step alloc usizeMax⟩

/-! ### What is to hold -/

namespace Sending

/-- The content of the body so far. -/
def body (s : Sending) : Bytes := content s.pushed

/-- What may go on the wire of some content. -/
def fit (s : Sending) (bytes : Bytes) : Bytes := Remaining.fit (s.declared.map UInt64.toNat) bytes

/-- What the connection took. -/
def wire (s : Sending) : Bytes := s.chunks.received.flatten

/-- The body ended, without an error. -/
def Ended (s : Sending) : Prop := s.receiver.closed = true ∧ failure s.pushed = none

/-- The client got all of the content that may go on the wire, and there is no more of it. -/
structure Complete (s : Sending) : Prop where
  wire : s.wire = s.fit s.body
  ended : s.Ended ∨ s.declared.map UInt64.toNat = some s.wire.length

/-- What an outcome says. -/
def Says (s : Sending) : BodySendOutcome → Prop
  | .sent => s.Complete ∧ ∀ length ∈ s.declared, s.wire.length = length.toNat
  | .truncated => s.wire = s.body ∧ s.Ended ∧ ∃ length ∈ s.declared, s.wire.length < length.toNat
  | .timedOut => s.wireEnd ≠ some .clean
  | .connectionLost _ => s.wireEnd ≠ some .clean

/-- **The body is delivered, and the outcome is true.** -/
structure Delivers (s : Sending) : Prop where
  /-- No frame is empty. -/
  frames : ∀ frame ∈ s.chunks.received, frame ≠ []
  order : s.wire <+: s.fit s.body
  clean : s.wireEnd = some .clean → s.Complete
  /-- A clean end is reported. -/
  told : s.wireEnd = some .clean → s.outcome = some .sent ∨ s.outcome = some .truncated
  /-- What is reported, and what is returned. -/
  reported : ∀ outcome ∈ s.outcome, s.Says outcome
  returned : ∀ outcome, s.task = .returned outcome ∨ s.task = .failed outcome → s.Says outcome
  /-- A send that failed leaves the reason to a `WireBody` that has not ended. -/
  failed : ∀ outcome, s.task = .failed outcome → s.wireEnd = none →
    s.abort.isSome = true ∧ s.chunks.sender = false

/-! ### The invariant -/

/-- All that may go on the wire was handed over, and no more of it comes. -/
structure Handed (s : Sending) : Prop where
  bytes : s.chunks.sent.flatten = s.fit (content s.taken)
  ended : (s.receiver.closed = true ∧ s.receiver.queue = [] ∧ failure s.taken = none) ∨
    s.declared.map UInt64.toNat = some s.chunks.sent.flatten.length

/-- What is known where `send_response_body` is. -/
def Flow (s : Sending) : Task → Prop
  | .next => s.chunks.sent.flatten = s.fit (content s.taken) ∧ failure s.taken = none ∧
    s.chunks.sender = true ∧ s.abort = none
  | .sending chunk error => s.chunks.sent.flatten ++ chunk = s.fit (content s.taken) ∧ chunk ≠ [] ∧
    failure s.taken = error ∧ s.chunks.sender = true ∧ s.abort = none
  | .failing error => s.chunks.sent.flatten = s.fit (content s.taken) ∧
    failure s.taken = some error ∧ s.chunks.sender = true ∧ s.abort = none
  | .awaiting => s.Handed ∧ s.chunks.sender = false ∧ s.abort = none
  | .returned outcome => s.Handed ∧ s.chunks.sender = false ∧ s.abort = none ∧
    s.outcome = some outcome
  | .failed outcome => s.chunks.sent.flatten <+: s.fit (content s.taken) ∧
    s.chunks.sender = false ∧ (outcome = .timedOut ∨ ∃ message, outcome = .connectionLost message) ∧
    s.wireEnd ≠ some .clean ∧ (s.wireEnd = none → s.abort.isSome = true)

/-- What was reported. -/
def Reported (s : Sending) : BodySendOutcome → Prop
  | .sent => (∃ length ∈ s.declared, s.wire.length = length.toNat) ∨
    (s.declared = none ∧ s.wireEnd = some .clean)
  | .truncated => s.wireEnd = some .clean ∧ ∃ length ∈ s.declared, s.wire.length < length.toNat
  | .connectionLost _ => s.wireEnd ≠ some .clean
  | .timedOut => False

/-- What the two sides know of each other. -/
structure Sides (s : Sending) : Prop where
  delivered : ∀ length ∈ s.declared, s.delivered = s.wire.length
  clean : s.wireEnd = some .clean → s.chunks.ended = true ∧ s.outcome.isSome = true ∧ s.abort = none
  reported : ∀ outcome ∈ s.outcome, s.Reported outcome ∧
    (s.chunks.receiver = false ∨ s.wireEnd.isSome = true)

/-- **The invariant.** -/
structure Inv (usizeMax : ℕ) (s : Sending) : Prop where
  chunks : s.chunks.Kept
  nonempty : ∀ chunk ∈ s.chunks.sent, chunk ≠ []
  messages : s.taken ++ s.receiver.queue = s.pushed
  fits : ∀ chunk, .ok chunk ∈ s.receiver.queue → chunk.length + coalesceLimit ≤ usizeMax
  remaining : s.remaining =
    Remaining.less (s.declared.map UInt64.toNat) (s.fit (content s.taken)).length
  flow : s.Flow s.task
  sides : s.Sides

variable {alloc : Allocator} {usizeMax : ℕ} {s : Sending}

theorem Inv.abort (h : s.Inv usizeMax) (ht : ∀ outcome, s.task ≠ .failed outcome) :
    s.abort = none := by
  have hflow := h.flow
  cases htask : s.task with
  | next => exact (htask ▸ hflow).2.2.2
  | sending chunk error => exact (htask ▸ hflow).2.2.2.2
  | failing error => exact (htask ▸ hflow).2.2.2
  | awaiting => exact (htask ▸ hflow).2.2
  | returned outcome => exact (htask ▸ hflow).2.2.1
  | failed outcome => exact absurd htask (ht outcome)

/-- What was handed over is a beginning of what may go on the wire. -/
theorem Flow.order (h : s.Flow s.task) : s.chunks.sent.flatten <+: s.fit (content s.taken) := by
  cases htask : s.task with
  | next => exact (htask ▸ h).1 ▸ List.prefix_rfl
  | sending chunk error => exact (htask ▸ h).1 ▸ List.prefix_append _ _
  | failing error => exact (htask ▸ h).1 ▸ List.prefix_rfl
  | awaiting => exact (htask ▸ h).1.bytes ▸ List.prefix_rfl
  | returned outcome => exact (htask ▸ h).1.bytes ▸ List.prefix_rfl
  | failed outcome => exact (htask ▸ h).1

/-- The side that sends fails. -/
theorem Inv.fail (h : s.Inv usizeMax) {outcome : BodySendOutcome} {message : String}
    (houtcome : outcome = .timedOut ∨ ∃ message, outcome = .connectionLost message)
    (hclean : s.wireEnd ≠ some .clean) : (s.fail outcome message).Inv usizeMax where
  chunks := h.chunks.dropSender
  nonempty := h.nonempty
  messages := h.messages
  fits := h.fits
  remaining := h.remaining
  flow := ⟨h.flow.order, rfl, houtcome, hclean, fun _ => rfl⟩
  sides := ⟨h.sides.delivered, fun hc => absurd hc hclean, h.sides.reported⟩

/-- A `WireBody` ends cleanly only after the sender is gone. -/
theorem Inv.not_clean (h : s.Inv usizeMax) (hs : s.chunks.sender = true) :
    s.wireEnd ≠ some .clean := by
  intro hclean
  have := (h.chunks.complete (h.sides.clean hclean).1).1
  rw [hs] at this
  cases this

/-! ### The sending side -/

/-- A chunk, and an error if there is one, were received. -/
structure Received (usizeMax : ℕ) (s : Sending) (before chunk : Bytes) (error : Option String) :
    Prop where
  chunks : s.chunks.Kept
  nonempty : ∀ chunk ∈ s.chunks.sent, chunk ≠ []
  messages : s.taken ++ s.receiver.queue = s.pushed
  fits : ∀ chunk, .ok chunk ∈ s.receiver.queue → chunk.length + coalesceLimit ≤ usizeMax
  remaining : s.remaining = Remaining.less (s.declared.map UInt64.toNat) (s.fit before).length
  sent : s.chunks.sent.flatten = s.fit before
  content : content s.taken = before ++ chunk
  failure : failure s.taken = error
  sender : s.chunks.sender = true
  abort : s.abort = none
  sides : s.Sides

theorem inv_goOn (hchunks : s.chunks.Kept) (hnonempty : ∀ chunk ∈ s.chunks.sent, chunk ≠ [])
    (hmessages : s.taken ++ s.receiver.queue = s.pushed)
    (hfits : ∀ chunk, .ok chunk ∈ s.receiver.queue → chunk.length + coalesceLimit ≤ usizeMax)
    (hremaining : s.remaining =
      Remaining.less (s.declared.map UInt64.toNat) (s.fit (content s.taken)).length)
    (hsent : s.chunks.sent.flatten = s.fit (content s.taken)) (hsender : s.chunks.sender = true)
    (habort : s.abort = none) (hsides : s.Sides) {error : Option String}
    (herror : failure s.taken = error) : (s.goOn error).Inv usizeMax := by
  cases error with
  | none =>
    exact ⟨hchunks, hnonempty, hmessages, hfits, hremaining, ⟨hsent, herror, hsender, habort⟩,
      ⟨hsides.delivered, hsides.clean, hsides.reported⟩⟩
  | some error =>
    exact ⟨hchunks, hnonempty, hmessages, hfits, hremaining, ⟨hsent, herror, hsender, habort⟩,
      ⟨hsides.delivered, hsides.clean, hsides.reported⟩⟩

/-- What is known of a chunk whose room in the declared length was taken. -/
theorem fit_received (before chunk : Bytes) : s.fit (before ++ chunk) = s.fit before ++
    Remaining.fit (Remaining.less (s.declared.map UInt64.toNat) (s.fit before).length) chunk :=
  Remaining.fit_append _ _ _

theorem sat_sendChunk (before : Bytes) {chunk : Bytes} {error : Option String}
    (h : s.Received usizeMax before chunk error) (hlength : chunk.length ≤ usizeMax) :
    (s.sendChunk usizeMax chunk error).Sat (Inv usizeMax) (Inv usizeMax) fun _ => False := by
  have hfit := fit_received (s := s) before chunk
  rw [← h.content, ← h.remaining] at hfit
  have hless : Remaining.less s.remaining (Remaining.fit s.remaining chunk).length =
      Remaining.less (s.declared.map UInt64.toNat) (s.fit (Platform.content s.taken)).length := by
    rw [hfit, List.length_append, ← Remaining.less_less, ← h.remaining]
  rw [sendChunk, Remaining.take_eq _ hlength, Outcome.relabel_ok, Outcome.ok_bind]
  -- the declared length is reached: the chunk adds nothing, and the sender is dropped
  by_cases hfull : s.remaining = some 0
  · rw [if_pos hfull]
    have hfull' := hfull
    rw [h.remaining] at hfull'
    have hsame : s.fit (Platform.content s.taken) = s.fit before := by
      rw [h.content]
      exact Remaining.fit_full hfull'
    exact {
      chunks := h.chunks.dropSender
      nonempty := h.nonempty
      messages := h.messages
      fits := h.fits
      remaining := hless
      flow := ⟨⟨h.sent.trans hsame.symm, .inr (by
        show s.declared.map UInt64.toNat = some s.chunks.sent.flatten.length
        rw [h.sent]
        exact Remaining.length_fit_of_full hfull')⟩, rfl, h.abort⟩
      sides := ⟨h.sides.delivered, h.sides.clean, h.sides.reported⟩ }
  · rw [if_neg hfull]
    -- what is left of the chunk after the cut
    cases htaken : Remaining.fit s.remaining chunk with
    | nil =>
      rw [htaken, List.append_nil] at hfit
      rw [htaken] at hless
      have hsent : s.chunks.sent.flatten = s.fit (Platform.content s.taken) :=
        h.sent.trans hfit.symm
      exact inv_goOn (s := { s with remaining := s.remaining.less ([] : Bytes).length }) h.chunks
        h.nonempty h.messages h.fits hless hsent h.sender h.abort
        ⟨h.sides.delivered, h.sides.clean, h.sides.reported⟩ h.failure
    | cons b bytes =>
      rw [htaken] at hfit hless
      have hsent : s.chunks.sent.flatten ++ b :: bytes = s.fit (Platform.content s.taken) := by
        rw [hfit, h.sent]
      exact {
        chunks := h.chunks
        nonempty := h.nonempty
        messages := h.messages
        fits := h.fits
        remaining := hless
        flow := ⟨hsent, List.cons_ne_nil _ _, h.failure, h.sender, h.abort⟩
        sides := ⟨h.sides.delivered, h.sides.clean, h.sides.reported⟩ }

/-- A message of the body is there, and is received. -/
theorem sat_receive (h : s.Inv usizeMax) (htask : s.task = .next)
    {message : Except String Bytes} {queue : List (Except String Bytes)}
    (hqueue : s.receiver.queue = message :: queue) :
    ({ s with
      receiver := { s.receiver with queue := queue }
      taken := s.taken ++ [message] }.receive alloc usizeMax message).Sat (Inv usizeMax)
      (Inv usizeMax) fun _ => False := by
  obtain ⟨hsent, hnone, hsender, habort⟩ : s.Flow .next := htask ▸ h.flow
  have hmessages : s.taken ++ message :: queue = s.pushed := hqueue ▸ h.messages
  have hfits : ∀ chunk, .ok chunk ∈ message :: queue → chunk.length + coalesceLimit ≤ usizeMax :=
    hqueue ▸ h.fits
  cases message with
  -- the body failed: what was taken before it is the content still
  | error error =>
    have hcontent : content (s.taken ++ [.error error]) = content s.taken := by
      rw [content_append hnone]
      exact List.append_nil _
    have hfailing : Inv usizeMax { s with
        receiver := { s.receiver with queue := queue }
        taken := s.taken ++ [.error error]
        task := .failing error } := {
      chunks := h.chunks
      nonempty := h.nonempty
      messages := by rw [← hmessages, List.append_assoc]; rfl
      fits := fun chunk hchunk => hfits chunk (.tail _ hchunk)
      remaining := by
        show s.remaining = Remaining.less (s.declared.map UInt64.toNat)
          (s.fit (content (s.taken ++ [.error error]))).length
        rw [hcontent]
        exact h.remaining
      flow := ⟨by
        show s.chunks.sent.flatten = s.fit (content (s.taken ++ [.error error]))
        rw [hcontent]
        exact hsent, failure_append hnone, hsender, habort⟩
      sides := ⟨h.sides.delivered, h.sides.clean, h.sides.reported⟩ }
    rw [receive]
    split_ifs
    · exact hfailing
    · exact hfailing.fail (.inr ⟨_, rfl⟩) (h.not_clean hsender)
  | ok chunk =>
    have hchunk := hfits chunk List.mem_cons_self
    rw [receive]
    -- a stream takes what is queued behind the chunk with it
    split_ifs with hkind
    · obtain ⟨appended, error, left, result, hcall, hleft, hbytes, hlength⟩ :=
        coalesceQueuedChunks_content alloc (⟨queue, s.receiver.closed⟩)
          (.ofBytes chunk)
      have hleft : queue = appended.map .ok ++ error.toList.map .error ++ left := hleft
      have hsplit : queue.take (queue.length - left.length) =
          appended.map .ok ++ error.toList.map .error := by
        rw [hleft, List.length_append, Nat.add_sub_cancel, List.take_left]
      rw [hcall, Outcome.relabel_ok, Outcome.ok_bind]
      simp only [hsplit]
      refine sat_sendChunk (content s.taken) ?_ ?_
      · have hnext : failure (s.taken ++ [.ok chunk]) = none := failure_append hnone
        exact {
          chunks := h.chunks
          nonempty := h.nonempty
          messages := by
            rw [← hmessages, hleft]
            simp only [List.append_assoc, List.cons_append, List.nil_append]
          fits := fun chunk hchunk => hfits chunk (.tail _ (hleft ▸ List.mem_append_right _ hchunk))
          remaining := h.remaining
          sent := hsent
          content := by
            rw [content_append hnext, content_append hnone, content_ok_error, content, content,
              List.append_nil, List.append_assoc, hbytes, Vec.bytes_ofBytes]
          failure := (failure_append hnext).trans (failure_ok_error _ _)
          sender := hsender
          abort := habort
          sides := ⟨h.sides.delivered, h.sides.clean, h.sides.reported⟩ }
      -- the length fits a usize: coalescing stops at the limit, and the last chunk alone may pass
      -- it
      · rcases hlength with rfl | ⟨last, hlast, hlt⟩
        · exact (Nat.le_add_right _ _).trans hchunk
        · have hqueued : .ok last ∈ queue := by
            rw [hleft]
            simp [hlast]
          have hlast := hfits last (.tail _ hqueued)
          show result.len ≤ usizeMax
          omega
    · refine sat_sendChunk (content s.taken) ?_ (by omega)
      exact {
        chunks := h.chunks
        nonempty := h.nonempty
        messages := by rw [← hmessages, List.append_assoc]; rfl
        fits := fun chunk hchunk => hfits chunk (.tail _ hchunk)
        remaining := h.remaining
        sent := hsent
        content := by rw [content_append hnone, content, content, List.append_nil]
        failure := failure_append hnone
        sender := hsender
        abort := habort
        sides := ⟨h.sides.delivered, h.sides.clean, h.sides.reported⟩ }

/-- All of the content was handed over. -/
theorem Inv.finish (h : s.Inv usizeMax) (hhanded : s.Handed) (habort : s.abort = none) :
    s.finish.Inv usizeMax where
  chunks := h.chunks.dropSender
  nonempty := h.nonempty
  messages := h.messages
  fits := h.fits
  remaining := h.remaining
  flow := ⟨⟨hhanded.bytes, hhanded.ended⟩, rfl, habort⟩
  sides := ⟨h.sides.delivered, h.sides.clean, h.sides.reported⟩

/-- The outcome that was reported is returned. -/
theorem Inv.returned (h : s.Inv usizeMax) (htask : s.task = .awaiting) {outcome : BodySendOutcome}
    (houtcome : s.outcome = some outcome) :
    Inv usizeMax { s with task := .returned outcome } := by
  obtain ⟨hhanded, hsender, habort⟩ : s.Flow .awaiting := htask ▸ h.flow
  exact {
    chunks := h.chunks
    nonempty := h.nonempty
    messages := h.messages
    fits := h.fits
    remaining := h.remaining
    flow := ⟨⟨hhanded.bytes, hhanded.ended⟩, hsender, habort, houtcome⟩
    sides := ⟨h.sides.delivered, h.sides.clean, h.sides.reported⟩ }

theorem Sides.send (h : s.Sides) (chunk : Bytes) :
    Sides { s with chunks := s.chunks.send chunk } := by
  have hwire : wire { s with chunks := s.chunks.send chunk } = s.wire :=
    congrArg List.flatten Mpsc.send_received
  refine ⟨fun length hlength => ?_, fun hclean => ?_, fun outcome houtcome => ?_⟩
  · rw [hwire]
    exact h.delivered length hlength
  · show (s.chunks.send chunk).ended = true ∧ _
    rw [Mpsc.send_ended]
    exact h.clean hclean
  · obtain ⟨hreported, hgone⟩ := h.reported outcome houtcome
    refine ⟨?_, (Mpsc.send_receiver ..).symm ▸ hgone⟩
    cases outcome with
    | sent =>
      rw [Reported, hwire]
      exact hreported
    | truncated =>
      rw [Reported, hwire]
      exact hreported
    | connectionLost message => exact hreported
    | timedOut => exact hreported

/-- The channel takes the chunk that waits for room. -/
theorem Inv.sent (h : s.Inv usizeMax) {chunk : Bytes} {error : Option String}
    (htask : s.task = .sending chunk error) (hreceiver : s.chunks.receiver = true)
    (hready : s.chunks.ready = true) :
    ({ s with chunks := s.chunks.send chunk }.goOn error).Inv usizeMax := by
  obtain ⟨hsent, hchunk, herror, hsender, habort⟩ : s.Flow (.sending chunk error) := htask ▸ h.flow
  have hall : (s.chunks.send chunk).sent = s.chunks.sent ++ [chunk] := Mpsc.sent_send hreceiver
  refine inv_goOn (s := { s with chunks := s.chunks.send chunk })
    (h.chunks.send hsender hready chunk) ?_ h.messages h.fits h.remaining ?_
    ((Mpsc.send_sender ..).trans hsender) habort ?_ herror
  · intro c hc
    rcases List.mem_append.mp (hall ▸ hc) with hc | hc
    · exact h.nonempty c hc
    · exact List.mem_singleton.mp hc ▸ hchunk
  · show (s.chunks.send chunk).sent.flatten = s.fit (content s.taken)
    rw [hall, List.flatten_append, List.flatten_singleton, hsent]
  · exact h.sides.send chunk

theorem sat_proceeds (h : s.Inv usizeMax) :
    (s.proceeds alloc usizeMax).Sat (Inv usizeMax) (Inv usizeMax) fun _ => False := by
  rw [proceeds]
  cases htask : s.task with
  | next =>
    obtain ⟨hsent, hnone, hsender, habort⟩ : s.Flow .next := htask ▸ h.flow
    cases hqueue : s.receiver.queue with
    | cons message queue => exact sat_receive h htask hqueue
    | nil =>
      dsimp only
      split_ifs with hclosed hloop
      · exact h.finish ⟨hsent, .inl ⟨hclosed, hqueue, hnone⟩⟩ habort
      · exact h.fail (.inr ⟨_, rfl⟩) (h.not_clean hsender)
      · exact h
  | sending chunk error =>
    obtain ⟨-, -, -, hsender, -⟩ : s.Flow (.sending chunk error) := htask ▸ h.flow
    dsimp only
    split_ifs with hreceiver hready
    · exact h.fail (.inr ⟨_, rfl⟩) (h.not_clean hsender)
    · exact h.sent htask (by simpa using hreceiver) hready
    · exact h
  | failing error =>
    obtain ⟨-, -, hsender, -⟩ : s.Flow (.failing error) := htask ▸ h.flow
    dsimp only
    split_ifs
    · exact h.fail (.inr ⟨_, rfl⟩) (h.not_clean hsender)
    · exact h
  | awaiting =>
    dsimp only
    split
    next outcome houtcome => exact h.returned htask houtcome
    next => exact h
  | returned outcome => exact h
  | failed outcome => exact h

theorem Inv.timeLimit (h : s.Inv usizeMax) : s.timeLimit.Inv usizeMax := by
  unfold Sending.timeLimit
  split
  next => exact h
  next => exact h
  next outcome htask houtcome => exact h.returned htask houtcome
  next houtcome hreturned hfailed hawaiting =>
    refine h.fail (.inl rfl) ?_
    cases htask : s.task with
    | next => exact h.not_clean (htask ▸ h.flow : s.Flow .next).2.2.1
    | sending chunk error => exact h.not_clean (htask ▸ h.flow : s.Flow (.sending _ _)).2.2.2.1
    | failing error => exact h.not_clean (htask ▸ h.flow : s.Flow (.failing _)).2.2.1
    | awaiting =>
      intro hclean
      obtain ⟨outcome, houtcome⟩ := Option.isSome_iff_exists.mp (h.sides.clean hclean).2.1
      exact hawaiting outcome htask houtcome
    | returned outcome => exact absurd htask (hreturned outcome)
    | failed outcome => exact absurd htask (hfailed outcome)

/-! ### The other side -/

/-- What the `WireBody` does to the channel, and an outcome it reports, leave the sending side where
it is. -/
theorem Flow.other {task : Task} (h : s.Flow task) {chunks : Mpsc Bytes}
    (hsent : chunks.sent = s.chunks.sent) (hsender : chunks.sender = s.chunks.sender)
    (delivered : ℕ) {outcome : Option BodySendOutcome}
    (houtcome : ∀ o, s.outcome = some o → outcome = some o) :
    Flow { s with chunks := chunks, delivered := delivered, outcome := outcome } task := by
  have hhanded : s.Handed →
      Handed { s with chunks := chunks, delivered := delivered, outcome := outcome } :=
    fun h => ⟨hsent ▸ h.bytes, hsent ▸ h.ended⟩
  cases task with
  | next => exact ⟨hsent ▸ h.1, h.2.1, hsender ▸ h.2.2.1, h.2.2.2⟩
  | sending chunk error => exact ⟨hsent ▸ h.1, h.2.1, h.2.2.1, hsender ▸ h.2.2.2.1, h.2.2.2.2⟩
  | failing error => exact ⟨hsent ▸ h.1, h.2.1, hsender ▸ h.2.2.1, h.2.2.2⟩
  | awaiting => exact ⟨hhanded h.1, hsender ▸ h.2.1, h.2.2⟩
  | returned o => exact ⟨hhanded h.1, hsender ▸ h.2.1, h.2.2.1, houtcome o h.2.2.2⟩
  | failed o => exact ⟨hsent ▸ h.1, hsender ▸ h.2.1, h.2.2⟩

/-- Nothing was reported of a `WireBody` that is still polled. -/
theorem Sides.outcome_eq (h : s.Sides) (hreceiver : s.chunks.receiver = true)
    (hend : s.wireEnd = none) : s.outcome = none := by
  cases houtcome : s.outcome with
  | none => rfl
  | some outcome =>
    rcases (h.reported outcome houtcome).2 with hgone | hended
    · rw [hreceiver] at hgone
      cases hgone
    · rw [hend] at hended
      cases hended

private theorem flatten_begins {l m : List Bytes} (h : l <+: m) : l.flatten <+: m.flatten := by
  obtain ⟨rest, rfl⟩ := h
  rw [List.flatten_append]
  exact List.prefix_append _ _

/-- What the connection took fits the declared length. -/
theorem Inv.wire_le (h : s.Inv usizeMax) {length : UInt64} (hlength : s.declared = some length)
    {bytes : Bytes} (hbytes : bytes <+: s.chunks.sent.flatten) : bytes.length ≤ length.toNat := by
  have hprefix := hbytes.trans h.flow.order
  rw [fit, hlength] at hprefix
  exact hprefix.length_le.trans (Remaining.length_fit_le _)

theorem Inv.of_short (h : s.Inv usizeMax) (hshort : s.short = true) :
    ∃ length ∈ s.declared, s.wire.length < length.toNat := by
  obtain ⟨length, hlength, hlt⟩ := (Option.any_eq_true _ _).mp hshort
  rw [h.sides.delivered length hlength] at hlt
  exact ⟨length, hlength, of_decide_eq_true hlt⟩

theorem Inv.of_full (h : s.Inv usizeMax) (hshort : s.short = false) :
    (∃ length ∈ s.declared, s.wire.length = length.toNat) ∨ s.declared = none := by
  cases hdeclared : s.declared with
  | none => exact .inr rfl
  | some length =>
    have hle := h.wire_le hdeclared (flatten_begins h.chunks.begins)
    rw [short, hdeclared, Option.any_some, h.sides.delivered length hdeclared] at hshort
    exact .inl ⟨length, rfl, le_antisymm hle (by simpa using hshort)⟩

/-- The connection takes a frame. -/
theorem Inv.takes (h : s.Inv usizeMax) (hreceiver : s.chunks.receiver = true)
    (hend : s.wireEnd = none) {chunk : Bytes} {queue : List Bytes}
    (hqueue : s.chunks.queue = chunk :: queue) :
    Inv usizeMax { s with chunks := s.chunks.recv, delivered := s.deliver chunk.length } := by
  have hrecv : s.chunks.recv.received = s.chunks.received ++ [chunk] := by
    rw [Mpsc.recv, hreceiver, hqueue]
    rfl
  have hwire : s.chunks.recv.received.flatten = s.wire ++ chunk := by
    rw [hrecv, List.flatten_append, List.flatten_singleton, wire]
  have houtcome := h.sides.outcome_eq hreceiver hend
  have hkept := h.chunks.recv
  exact {
    chunks := hkept
    nonempty := fun c hc => h.nonempty c (Mpsc.recv_sent (c := s.chunks) ▸ hc)
    messages := h.messages
    fits := h.fits
    remaining := h.remaining
    flow := h.flow.other Mpsc.recv_sent Mpsc.recv_sender _ fun _ ho => ho
    sides := {
      delivered := fun length hlength => by
        have hprefix : s.wire ++ chunk <+: s.chunks.sent.flatten := by
          rw [← hwire, ← Mpsc.recv_sent (c := s.chunks)]
          exact flatten_begins hkept.begins
        have hle := h.wire_le hlength hprefix
        have hlt := length.toNat_lt
        have hdelivered := h.sides.delivered length hlength
        have hsame : s.deliver chunk.length = min (min (s.delivered + chunk.length) (2 ^ 64 - 1))
            length.toNat := by
          rw [deliver, Option.mem_def.mp hlength]
        show s.deliver chunk.length = s.chunks.recv.received.flatten.length
        rw [hwire, hsame, hdelivered]
        rw [List.length_append] at hle ⊢
        omega
      clean := fun hclean => by
        rw [hend] at hclean
        cases hclean
      reported := fun outcome ho => by
        rw [houtcome] at ho
        cases ho } }

/-- What the receiver sees of a channel that is drained. -/
private theorem recv_nil {c : Mpsc Bytes} (hreceiver : c.receiver = true) (hqueue : c.queue = [])
    (hsender : c.sender = false) : c.recv = { c with ended := true } := by
  rw [Mpsc.recv, hreceiver, hqueue, hsender]
  rfl

/-- The reason of an abort ends the body with an error. -/
theorem Inv.errs (h : s.Inv usizeMax) (hreceiver : s.chunks.receiver = true)
    (hqueue : s.chunks.queue = []) (hsender : s.chunks.sender = false)
    (hend : s.wireEnd = none) {message : String} (habort : s.abort = some message) :
    Inv usizeMax { s with
      chunks := s.chunks.recv
      abort := none
      wireEnd := some (.error message) } := by
  have houtcome := h.sides.outcome_eq hreceiver hend
  have hkept := h.chunks.recv
  obtain ⟨outcome, htask⟩ : ∃ outcome, s.task = .failed outcome := by
    by_contra hother
    rw [h.abort fun outcome htask => hother ⟨outcome, htask⟩] at habort
    cases habort
  obtain ⟨horder, -, hfailed, -⟩ : s.Flow (.failed outcome) := htask ▸ h.flow
  rw [recv_nil hreceiver hqueue hsender] at hkept ⊢
  exact {
    chunks := hkept
    nonempty := h.nonempty
    messages := h.messages
    fits := h.fits
    remaining := h.remaining
    flow := by
      rw [htask]
      exact ⟨horder, hsender, hfailed, by simp, by simp⟩
    sides := {
      delivered := h.sides.delivered
      clean := by simp
      reported := fun outcome ho => by
        rw [houtcome] at ho
        cases ho } }

/-- The body ends. -/
theorem Inv.ends (h : s.Inv usizeMax) (hreceiver : s.chunks.receiver = true)
    (hqueue : s.chunks.queue = []) (hsender : s.chunks.sender = false)
    (hend : s.wireEnd = none) (habort : s.abort = none) :
    (report { s with chunks := s.chunks.recv, wireEnd := some .clean }
      (if s.short then .truncated else .sent)).Inv usizeMax := by
  have houtcome := h.sides.outcome_eq hreceiver hend
  have hkept := h.chunks.recv
  -- the sender is dropped without an abort only by a task that awaits the connection
  have htask : s.task = .awaiting := by
    cases htask : s.task with
    | next =>
      have := (htask ▸ h.flow : s.Flow .next).2.2.1
      rw [hsender] at this
      cases this
    | sending chunk error =>
      have := (htask ▸ h.flow : s.Flow (.sending chunk error)).2.2.2.1
      rw [hsender] at this
      cases this
    | failing error =>
      have := (htask ▸ h.flow : s.Flow (.failing error)).2.2.1
      rw [hsender] at this
      cases this
    | awaiting => rfl
    | returned outcome =>
      have := (htask ▸ h.flow : s.Flow (.returned outcome)).2.2.2
      rw [houtcome] at this
      cases this
    | failed outcome =>
      have := (htask ▸ h.flow : s.Flow (.failed outcome)).2.2.2.2 hend
      rw [habort] at this
      cases this
  obtain ⟨hhanded, -, -⟩ : s.Flow .awaiting := htask ▸ h.flow
  rw [recv_nil hreceiver hqueue hsender] at hkept ⊢
  rw [report, houtcome, Option.none_or]
  exact {
    chunks := hkept
    nonempty := h.nonempty
    messages := h.messages
    fits := h.fits
    remaining := h.remaining
    flow := by
      rw [htask]
      exact ⟨⟨hhanded.bytes, hhanded.ended⟩, hsender, habort⟩
    sides := {
      delivered := h.sides.delivered
      clean := fun _ => ⟨rfl, rfl, habort⟩
      reported := fun outcome ho => by
        obtain rfl := Option.some.inj ho
        refine ⟨?_, .inr rfl⟩
        cases hshort : s.short with
        | true => exact ⟨rfl, h.of_short hshort⟩
        | false => exact (h.of_full hshort).imp_right fun hdeclared => ⟨hdeclared, rfl⟩ } }

theorem Inv.pollFrame (h : s.Inv usizeMax) (hreceiver : s.chunks.receiver = true)
    (hend : s.wireEnd = none) : s.pollFrame.Inv usizeMax := by
  unfold Sending.pollFrame
  split
  next chunk queue hqueue => exact h.takes hreceiver hend hqueue
  next hqueue =>
    by_cases hsender : s.chunks.sender = true
    · rw [if_pos hsender]
      exact h
    · rw [if_neg hsender]
      split
      next message habort =>
        exact h.errs hreceiver hqueue (by simpa using hsender) hend habort
      next habort => exact h.ends hreceiver hqueue (by simpa using hsender) hend habort

theorem Inv.drop (h : s.Inv usizeMax) : s.drop.Inv usizeMax := by
  -- what was reported stays, and else the `WireBody` did not end cleanly
  have hreport : ∀ outcome, (s.outcome = none → s.Reported outcome) →
      Inv usizeMax { s.report outcome with chunks := s.chunks.dropReceiver } := by
    intro outcome hnew
    have hsent : s.chunks.dropReceiver.sent = s.chunks.sent := rfl
    have hsender : s.chunks.dropReceiver.sender = s.chunks.sender := rfl
    have hflow : Flow { s with
        chunks := s.chunks.dropReceiver
        outcome := s.outcome.or (some outcome) } s.task :=
      Flow.other h.flow hsent hsender s.delivered fun o ho => by rw [ho, Option.some_or]
    exact {
      chunks := h.chunks.dropReceiver
      nonempty := h.nonempty
      messages := h.messages
      fits := h.fits
      remaining := h.remaining
      flow := hflow
      sides := {
        delivered := h.sides.delivered
        clean := fun hclean => by
          obtain ⟨hended, hsome, habort⟩ := h.sides.clean hclean
          refine ⟨hended, ?_, habort⟩
          show (s.outcome.or (some outcome)).isSome = true
          rw [Option.isSome_or, hsome]
          rfl
        reported := fun o ho => by
          refine ⟨?_, .inl rfl⟩
          have ho : s.outcome.or (some outcome) = some o := ho
          have hreported : s.Reported o := by
            cases hold : s.outcome with
            | none =>
              rw [hold, Option.none_or] at ho
              exact Option.some.inj ho ▸ hnew hold
            | some old =>
              rw [hold, Option.some_or] at ho
              exact (h.sides.reported o (hold.trans ho)).1
          cases o <;> exact hreported } }
  unfold Sending.drop
  split_ifs with hfull
  · exact hreport .sent fun _ => by
      obtain ⟨length, hlength, hle⟩ := (Option.any_eq_true _ _).mp hfull
      rw [h.sides.delivered length hlength] at hle
      exact .inl ⟨length, hlength, le_antisymm
        (h.wire_le hlength (flatten_begins h.chunks.begins)) (of_decide_eq_true hle)⟩
  · exact hreport (.connectionLost connectionLost) fun hnone hclean => by
      have hsome := (h.sides.clean hclean).2.1
      rw [hnone] at hsome
      cases hsome

/-! ### Runs -/

/-- The chunks of the body are no longer than a vector gets, with room for what is coalesced. -/
def Fits (usizeMax : ℕ) : SendEvent → Prop
  | .push (.ok chunk) => chunk.length + coalesceLimit ≤ usizeMax
  | _ => True

/-- What comes to a body that is still open leaves the sending side where it is. -/
theorem Flow.body {task : Task} (h : s.Flow task) {receiver : OutgoingBodyReceiver String}
    (hreceiver : s.receiver.closed = true → receiver = s.receiver)
    (pushed : List (Except String Bytes)) (loopDone : Bool) :
    Flow { s with receiver := receiver, pushed := pushed, loopDone := loopDone } task := by
  have hhanded : s.Handed →
      Handed { s with receiver := receiver, pushed := pushed, loopDone := loopDone } := by
    refine fun h => ⟨h.bytes, h.ended.imp_left fun ⟨hclosed, hrest⟩ => ?_⟩
    show receiver.closed = true ∧ receiver.queue = [] ∧ _
    rw [hreceiver hclosed]
    exact ⟨hclosed, hrest⟩
  cases task with
  | next => exact h
  | sending chunk error => exact h
  | failing error => exact h
  | awaiting => exact ⟨hhanded h.1, h.2⟩
  | returned o => exact ⟨hhanded h.1, h.2⟩
  | failed o => exact h

theorem sat_step (h : s.Inv usizeMax) {e : SendEvent} (hfits : Fits usizeMax e) :
    (s.step alloc usizeMax e).Sat (Inv usizeMax) (Inv usizeMax) fun _ => False := by
  cases e with
  -- what the handler writes after it closed the body is not taken
  | push message =>
    rw [step]
    split_ifs with hclosed
    · exact h
    · exact {
        chunks := h.chunks
        nonempty := h.nonempty
        messages := by rw [← h.messages, List.append_assoc]
        fits := fun chunk hchunk => by
          rcases List.mem_append.mp hchunk with hchunk | hchunk
          · exact h.fits chunk hchunk
          · obtain rfl := List.mem_singleton.mp hchunk
            exact hfits
        remaining := h.remaining
        flow := h.flow.body (fun hc => absurd hc hclosed) _ _
        sides := ⟨h.sides.delivered, h.sides.clean, h.sides.reported⟩ }
  | close =>
    exact {
      chunks := h.chunks
      nonempty := h.nonempty
      messages := h.messages
      fits := h.fits
      remaining := h.remaining
      flow := h.flow.body (fun hc => by rw [← hc]) _ _
      sides := ⟨h.sides.delivered, h.sides.clean, h.sides.reported⟩ }
  | loopFinishes =>
    exact {
      chunks := h.chunks
      nonempty := h.nonempty
      messages := h.messages
      fits := h.fits
      remaining := h.remaining
      flow := h.flow.body (fun _ => rfl) _ _
      sides := ⟨h.sides.delivered, h.sides.clean, h.sides.reported⟩ }
  | proceeds => exact sat_proceeds h
  | timeLimit => exact h.timeLimit
  | polls =>
    rw [step]
    split_ifs with hpolls
    · rw [Bool.and_eq_true, Option.isNone_iff_eq_none] at hpolls
      exact h.pollFrame hpolls.1 hpolls.2
    · exact h
  | drops =>
    rw [step]
    split_ifs
    · exact h.drop
    · exact h

theorem inv_new {kind : BodyKind} {declared : Option UInt64}
    {messages : List (Except String Bytes)} {closed : Bool}
    (hfits : ∀ chunk, .ok chunk ∈ messages → chunk.length + coalesceLimit ≤ usizeMax) :
    (new kind declared messages closed).Inv usizeMax where
  chunks := Mpsc.kept_new 0
  nonempty := fun chunk hchunk => by cases hchunk
  messages := rfl
  fits := hfits
  remaining := by
    show declared.map UInt64.toNat = Remaining.less (declared.map UInt64.toNat)
      (Remaining.fit (declared.map UInt64.toNat) []).length
    rw [Remaining.fit_nil, List.length_nil, Remaining.less_zero]
  flow := ⟨(Remaining.fit_nil _).symm, rfl, rfl, rfl⟩
  sides := {
    delivered := fun _ _ => rfl
    clean := fun hclean => by cases hclean
    reported := fun _ houtcome => by cases houtcome }

/-! ### What is delivered -/

/-- All of the content that may go on the wire was handed over. -/
theorem Handed.whole (h : s.Inv usizeMax) (hhanded : s.Handed) :
    s.chunks.sent.flatten = s.fit s.body ∧
      (s.Ended ∨ s.declared.map UInt64.toNat = some s.chunks.sent.flatten.length) := by
  rcases hhanded.ended with ⟨hclosed, hqueue, hnone⟩ | hfull
  · have hpushed : s.taken = s.pushed := by
      rw [← h.messages, hqueue, List.append_nil]
    rw [hpushed] at hnone
    exact ⟨by rw [hhanded.bytes, hpushed, body], .inl ⟨hclosed, hnone⟩⟩
  · refine ⟨?_, .inr hfull⟩
    have hless : Remaining.less (s.declared.map UInt64.toNat)
        (Remaining.fit (s.declared.map UInt64.toNat) (content s.taken)).length = some 0 := by
      have hbytes : s.chunks.sent.flatten =
        Remaining.fit (s.declared.map UInt64.toNat) (content s.taken) := hhanded.bytes
      rw [← hbytes, hfull, Remaining.less, Option.map_some, Nat.sub_self]
    obtain ⟨more, hmore⟩ := content_prefix s.taken s.receiver.queue
    rw [hhanded.bytes, body, ← h.messages, ← hmore]
    exact (Remaining.fit_full hless).symm

/-- A `WireBody` that ended cleanly was handed all of the content. -/
theorem Inv.handed_of_clean (h : s.Inv usizeMax) (hclean : s.wireEnd = some .clean) :
    s.Handed := by
  cases htask : s.task with
  | next => exact absurd hclean (h.not_clean (htask ▸ h.flow : s.Flow .next).2.2.1)
  | sending chunk error =>
    exact absurd hclean (h.not_clean (htask ▸ h.flow : s.Flow (.sending chunk error)).2.2.2.1)
  | failing error =>
    exact absurd hclean (h.not_clean (htask ▸ h.flow : s.Flow (.failing error)).2.2.1)
  | awaiting => exact (htask ▸ h.flow : s.Flow .awaiting).1
  | returned outcome => exact (htask ▸ h.flow : s.Flow (.returned outcome)).1
  | failed outcome => exact absurd hclean (htask ▸ h.flow : s.Flow (.failed outcome)).2.2.2.1

theorem Inv.order (h : s.Inv usizeMax) : s.wire <+: s.fit s.body := by
  refine ((flatten_begins h.chunks.begins).trans h.flow.order).trans (Remaining.fit_prefix ?_)
  rw [body, ← h.messages]
  exact content_prefix _ _

theorem Inv.complete (h : s.Inv usizeMax) (hclean : s.wireEnd = some .clean) : s.Complete := by
  have hall : s.wire = s.chunks.sent.flatten :=
    congrArg List.flatten (h.chunks.complete (h.sides.clean hclean).1).2
  obtain ⟨hbody, hended⟩ := (h.handed_of_clean hclean).whole h
  exact ⟨hall.trans hbody, hall ▸ hended⟩

/-- What was reported is true. -/
theorem Inv.says (h : s.Inv usizeMax) {outcome : BodySendOutcome}
    (houtcome : s.outcome = some outcome) : s.Says outcome := by
  have hreported := (h.sides.reported outcome houtcome).1
  cases outcome with
  | sent =>
    rcases hreported with ⟨length, hlength, hwire⟩ | ⟨hdeclared, hclean⟩
    · have hlength := Option.mem_def.mp hlength
      have hle : (s.fit s.body).length ≤ s.wire.length := by
        rw [hwire, fit, hlength]
        exact Remaining.length_fit_le _
      refine ⟨⟨h.order.eq_of_length (le_antisymm h.order.length_le hle), .inr ?_⟩, ?_⟩
      · rw [hlength, hwire]
        rfl
      · rintro l hl
        rw [hlength] at hl
        exact Option.some.inj hl ▸ hwire
    · refine ⟨h.complete hclean, fun length hlength => ?_⟩
      rw [hdeclared] at hlength
      cases hlength
  | truncated =>
    obtain ⟨hclean, length, hlength, hlt⟩ := hreported
    obtain ⟨hwire, hended⟩ := h.complete hclean
    have hdeclared := Option.mem_def.mp hlength
    refine ⟨?_, hended.resolve_right fun hfull => ?_, length, hlength, hlt⟩
    · rw [hwire] at hlt ⊢
      rw [fit, hdeclared] at hlt ⊢
      exact Remaining.fit_of_short hlt
    · rw [hdeclared] at hfull
      exact absurd (Option.some.inj hfull) (by omega)
  | connectionLost message => exact hreported
  | timedOut => exact hreported.elim

/-- A clean end is reported. -/
theorem Inv.told (h : s.Inv usizeMax) (hclean : s.wireEnd = some .clean) :
    s.outcome = some .sent ∨ s.outcome = some .truncated := by
  obtain ⟨outcome, houtcome⟩ := Option.isSome_iff_exists.mp (h.sides.clean hclean).2.1
  have hreported := (h.sides.reported outcome houtcome).1
  cases outcome with
  | sent => exact .inl houtcome
  | truncated => exact .inr houtcome
  | connectionLost message => exact absurd hclean hreported
  | timedOut => exact hreported.elim

theorem Inv.delivers (h : s.Inv usizeMax) : s.Delivers where
  frames := fun frame hframe => h.nonempty frame (h.chunks.begins.subset hframe)
  order := h.order
  clean := h.complete
  told := h.told
  reported := fun _ houtcome => h.says houtcome
  returned := by
    rintro outcome (htask | htask)
    · exact h.says (htask ▸ h.flow : s.Flow (.returned outcome)).2.2.2
    · obtain ⟨-, -, hfailed, hclean, -⟩ : s.Flow (.failed outcome) := htask ▸ h.flow
      rcases hfailed with rfl | ⟨message, rfl⟩
      · exact hclean
      · exact hclean
  failed := fun outcome htask hend => by
    obtain ⟨-, hsender, -, -, habort⟩ : s.Flow (.failed outcome) := htask ▸ h.flow
    exact ⟨habort hend, hsender⟩

/-! ### What stays as it is -/

/-- The declared length stays, and so does a body that is all there. -/
structure Frame (s t : Sending) : Prop where
  declared : t.declared = s.declared
  closed : s.receiver.closed = true → t.receiver.closed = true
  pushed : s.receiver.closed = true → t.pushed = s.pushed

theorem Frame.refl (s : Sending) : Frame s s := ⟨rfl, id, fun _ => rfl⟩

theorem Frame.trans {s t u : Sending} (h : Frame s t) (h' : Frame t u) : Frame s u where
  declared := h'.declared.trans h.declared
  closed := fun hclosed => h'.closed (h.closed hclosed)
  pushed := fun hclosed => (h'.pushed (h.closed hclosed)).trans (h.pushed hclosed)

theorem frame_goOn (s : Sending) (error : Option String) : Frame s (s.goOn error) := by
  cases error <;> exact ⟨rfl, id, fun _ => rfl⟩

theorem frame_sendChunk (s : Sending) (chunk : Bytes) (error : Option String) :
    (s.sendChunk usizeMax chunk error).Sat (Frame s) (Frame s) fun _ => True := by
  rw [sendChunk]
  cases (s.remaining.take usizeMax chunk) with
  | ok result =>
    obtain ⟨taken, remaining⟩ := result
    rw [Outcome.relabel_ok, Outcome.ok_bind]
    dsimp only
    split
    next => exact ⟨rfl, id, fun _ => rfl⟩
    next =>
      refine .trans ?_ (frame_goOn _ _)
      exact ⟨rfl, id, fun _ => rfl⟩
    next => exact ⟨rfl, id, fun _ => rfl⟩
  | threw e _ => exact e.elim
  | panic => trivial

theorem frame_receive (s : Sending) (message : Except String Bytes) :
    (s.receive alloc usizeMax message).Sat (Frame s) (Frame s) fun _ => True := by
  cases message with
  | error error =>
    rw [receive]
    split_ifs <;> exact ⟨rfl, id, fun _ => rfl⟩
  | ok chunk =>
    rw [receive]
    split_ifs
    · obtain ⟨_, error, left, result, hcall, -⟩ :=
        coalesceQueuedChunks_content alloc s.receiver (.ofBytes chunk)
      rw [hcall, Outcome.relabel_ok, Outcome.ok_bind]
      exact (frame_sendChunk _ _ _).mono (fun _ => .trans ⟨rfl, id, fun _ => rfl⟩)
        (fun _ => .trans ⟨rfl, id, fun _ => rfl⟩) fun _ => id
    · exact frame_sendChunk s chunk none

theorem frame_pollFrame (s : Sending) : Frame s s.pollFrame := by
  unfold pollFrame
  split
  · exact ⟨rfl, id, fun _ => rfl⟩
  · by_cases hsender : s.chunks.sender = true
    · rw [if_pos hsender]
      exact .refl s
    · rw [if_neg hsender]
      split <;> exact ⟨rfl, id, fun _ => rfl⟩

theorem frame_step (s : Sending) (e : SendEvent) :
    (s.step alloc usizeMax e).Sat (Frame s) (Frame s) fun _ => True := by
  cases e with
  | push message =>
    rw [step]
    split_ifs with hclosed
    · exact .refl s
    · exact ⟨rfl, id, fun h => absurd h hclosed⟩
  | close => exact ⟨rfl, fun _ => rfl, fun _ => rfl⟩
  | loopFinishes => exact ⟨rfl, id, fun _ => rfl⟩
  | proceeds =>
    rw [step, proceeds]
    split
    · split
      next message queue hqueue =>
        exact (frame_receive _ _).mono (fun _ => .trans ⟨rfl, id, fun _ => rfl⟩)
          (fun _ => .trans ⟨rfl, id, fun _ => rfl⟩) fun _ => id
      next => split_ifs <;> exact ⟨rfl, id, fun _ => rfl⟩
    · split_ifs
      · exact ⟨rfl, id, fun _ => rfl⟩
      · refine .trans ?_ (frame_goOn _ _)
        exact ⟨rfl, id, fun _ => rfl⟩
      · exact .refl s
    · split_ifs <;> exact ⟨rfl, id, fun _ => rfl⟩
    · split <;> exact ⟨rfl, id, fun _ => rfl⟩
    · exact .refl s
    · exact .refl s
  | timeLimit =>
    rw [step, timeLimit]
    split <;> exact ⟨rfl, id, fun _ => rfl⟩
  | polls =>
    rw [step]
    by_cases hpolls : (s.chunks.receiver && s.wireEnd.isNone) = true
    · rw [if_pos hpolls]
      exact frame_pollFrame s
    · rw [if_neg hpolls]
      exact .refl s
  | drops =>
    rw [step, drop]
    split_ifs <;> exact ⟨rfl, id, fun _ => rfl⟩

theorem frame_of_run {ok : Sending → SendEvent → Prop} {t : Sending}
    (hrun : (sendMachine alloc usizeMax).RunWhere ok s t) : Frame s t := by
  induction hrun with
  | refl => exact .refl s
  | tail _ _ hstep ih => exact ih.trans ((frame_step _ _).state? hstep)

/-! ### Bodies in memory -/

theorem flatten_splitRounds (rounds : ℕ) {bytes : Bytes} (h : bytes.length ≤ rounds) :
    (splitRounds rounds bytes).flatten = bytes := by
  induction rounds generalizing bytes with
  | zero => exact (List.length_eq_zero_iff.mp (by omega)).symm
  | succ rounds ih =>
    rw [splitRounds]
    split_ifs with hempty
    · exact (List.isEmpty_iff.mp hempty).symm
    · have hpos : 0 < bytes.length := List.length_pos_iff.mpr fun hnil => hempty (hnil ▸ rfl)
      have hle : (bytes.drop wireChunkBytes).length ≤ rounds := by
        rw [List.length_drop, wireChunkBytes]
        omega
      rw [List.flatten_cons, ih hle, List.take_append_drop]

theorem length_le_of_mem_splitRounds (rounds : ℕ) {bytes chunk : Bytes}
    (h : chunk ∈ splitRounds rounds bytes) : chunk.length ≤ wireChunkBytes := by
  induction rounds generalizing bytes with
  | zero => cases h
  | succ rounds ih =>
    rw [splitRounds] at h
    split_ifs at h
    · cases h
    · rcases List.mem_cons.mp h with rfl | h
      · exact List.length_take_le _ _
      · exact ih h

/-! ### Runs to a body that was sent -/

/-- **A streamed response body.** Nothing panics, either. -/
theorem delivers_of_run {kind : BodyKind} {declared : Option UInt64}
    {messages : List (Except String Bytes)} {closed : Bool}
    (hfits : ∀ message ∈ messages, Fits usizeMax (.push message))
    (hrun : (sendMachine alloc usizeMax).RunWhere (fun _ e => Fits usizeMax e)
      (.new kind declared messages closed) s) :
    s.Delivers ∧ s.declared = declared ∧ (closed = true → s.pushed = messages) ∧
      ∀ e, Fits usizeMax e → ∃ t, s.step alloc usizeMax e = .ok t := by
  have hinv : s.Inv usizeMax :=
    hrun.inv_of_sat (inv_new fun chunk hchunk => hfits _ hchunk) fun _ _ hs hok => sat_step hs hok
  have hframe := frame_of_run hrun
  refine ⟨hinv.delivers, hframe.declared, hframe.pushed, fun e he => ?_⟩
  have hstep : (s.step alloc usizeMax e).Sat (Inv usizeMax) (Inv usizeMax) fun _ => False :=
    sat_step hinv he
  cases hcall : s.step alloc usizeMax e with
  | ok t => exact ⟨t, rfl⟩
  | threw e _ => exact e.elim
  | panic site =>
    rw [hcall] at hstep
    exact hstep.elim

/-- **A body in memory.** The client gets a beginning of the bytes, and a clean end means all that
the declared length leaves of them. -/
theorem delivers_of_run_bytes {declared : Option UInt64} {bytes : Bytes}
    (hmax : wireChunkBytes + coalesceLimit ≤ usizeMax)
    (hrun : (sendMachine alloc usizeMax).RunWhere (fun _ e => Fits usizeMax e)
      (.newBytes declared bytes) s) :
    s.Delivers ∧ s.wire <+: Remaining.fit (declared.map UInt64.toNat) bytes ∧
      (s.wireEnd = some .clean → s.wire = Remaining.fit (declared.map UInt64.toNat) bytes) := by
  have hfits : ∀ message ∈ (splitRounds bytes.length bytes).map .ok,
      Fits usizeMax (.push message) := by
    intro message hmessage
    obtain ⟨chunk, hchunk, rfl⟩ := List.mem_map.mp hmessage
    have hle := length_le_of_mem_splitRounds _ hchunk
    show chunk.length + coalesceLimit ≤ usizeMax
    omega
  obtain ⟨hdelivers, hdeclared, hpushed, -⟩ := delivers_of_run hfits hrun
  have hfit : s.fit s.body = Remaining.fit (declared.map UInt64.toNat) bytes := by
    rw [fit, hdeclared, body, hpushed rfl, content_map_ok, flatten_splitRounds _ le_rfl]
  exact ⟨hdelivers, hfit ▸ hdelivers.order, fun hclean => hfit ▸ (hdelivers.clean hclean).wire⟩

/-- A body of the host whose content is longer than the length that was declared. -/
theorem delivers_of_run_long : ∃ s : Sending,
    s.task = .returned .sent ∧ s.wire = [1, 2, 3] ∧ s.Delivers := by
  have alloc : Allocator := ⟨id, fun _ n => n, fun _ => le_rfl, fun _ _ => le_rfl⟩
  obtain ⟨s, hrun, hs⟩ := Machine.exists_runWhere_of_exec (M := sendMachine alloc (2 ^ 32 - 1))
    (s := .new .host (some 3) [] false) (fun _ e => Fits (2 ^ 32 - 1) e)
    [.push (.ok [1, 2]), .proceeds, .push (.ok [3, 4]), .proceeds, .polls, .proceeds, .proceeds,
      .polls, .close, .proceeds, .polls, .proceeds]
    (P := fun s => s.task = .returned .sent ∧ s.wire = [1, 2, 3])
    (by simp [Fits, coalesceLimit]) (by rfl)
  obtain ⟨htask, hwire⟩ := of_decide_eq_true hs
  exact ⟨s, htask, hwire, (delivers_of_run (by simp) hrun).1⟩

/-! ### The two transports -/

/-- **Both transports send the same body**, however either groups its messages: what one has on the
wire begins what the other has, and where both end cleanly they have sent the same bytes and say the
same of them. -/
theorem transports_agree {alloc' : Allocator} {usizeMax' : ℕ} {t : Writing}
    {declared : Option UInt64} {messages messages' : List (Except String Bytes)}
    {closed closed' : Bool} (hfits : ∀ message ∈ messages, Fits usizeMax (.push message))
    (hfits' : ∀ message ∈ messages', Writing.Fits usizeMax' (.push message))
    (hrun : (sendMachine alloc usizeMax).RunWhere (fun _ e => Fits usizeMax e)
      (.new .stream declared messages closed) s)
    (hrun' : (writerMachine alloc' usizeMax').RunWhere (fun _ e => Writing.Fits usizeMax' e)
      (.newStream declared messages' closed') t)
    (hpushed : s.pushed = t.pushed) :
    (s.wire <+: t.wire ∨ t.wire <+: s.wire) ∧
      (s.wireEnd = some .clean → t.task = .ended .sent ∨ t.task = .ended .truncated →
        s.wire = t.wire ∧ (s.outcome = some .sent ↔ t.task = .ended .sent) ∧
          (s.outcome = some .truncated ↔ t.task = .ended .truncated)) := by
  obtain ⟨hdelivers, hdeclared, -, -⟩ := delivers_of_run hfits hrun
  obtain ⟨hwrote, hdeclared', -⟩ := Writing.wrote_of_run_stream hfits' hrun'
  have hfit : s.fit s.body = t.fit t.body := by
    rw [fit, body, hdeclared, hpushed, Writing.fit, Writing.body, hdeclared']
  refine ⟨List.prefix_or_prefix_of_prefix hdelivers.order (hfit ▸ hwrote.order), ?_⟩
  intro hclean hended
  have hwire := (hdelivers.clean hclean).wire
  have hlengths : s.outcome = some .sent →
      ¬ ∃ length ∈ t.declared, s.wire.length < length.toNat := by
    rintro hsent ⟨length, hlength, hlt⟩
    rw [hdeclared', ← hdeclared] at hlength
    have hall := (hdelivers.reported _ hsent).2 length hlength
    omega
  rcases hended with hsent' | htruncated'
  · -- all that was declared is on the wire, so the other side is not short, either
    obtain ⟨hwire', hall, -⟩ := hwrote.outcome _ hsent'
    have hsame : s.wire = t.wire := by
      rw [hwire, hfit, hwire']
    rcases hdelivers.told hclean with hsent | htruncated
    · exact ⟨hsame, by simp [hsent, hsent'], by simp [hsent, hsent']⟩
    · obtain ⟨-, -, length, hlength, hlt⟩ := hdelivers.reported _ htruncated
      rw [hdeclared, ← hdeclared'] at hlength
      have hfull := hall length hlength
      rw [hsame] at hlt
      omega
  -- all it was given is on the wire, so ours, which is a prefix of the same body, is no longer
  · obtain ⟨hbody, -, hshort⟩ := hwrote.outcome _ htruncated'
    have hle : (t.fit t.body).length ≤ t.wire.length := by
      rw [hbody]
      exact Remaining.length_fit_le_length
    have hsame : s.wire = t.wire := by
      rw [hwire, hfit]
      exact (hwrote.order.eq_of_length (le_antisymm hwrote.order.length_le hle)).symm
    rcases hdelivers.told hclean with hsent | htruncated
    · exact absurd (hsame ▸ hshort) (hlengths hsent)
    · exact ⟨hsame, by simp [htruncated, htruncated'], by simp [htruncated, htruncated']⟩

/-- A stream that is shorter than it declared, on both targets, of 64 and of 32 bits. -/
theorem transports_agree_short : ∃ (s : Sending) (t : Writing),
    s.wire = [1, 2] ∧ s.wire = t.wire ∧ s.outcome = some .truncated := by
  have alloc : Allocator := ⟨id, fun _ n => n, fun _ => le_rfl, fun _ _ => le_rfl⟩
  obtain ⟨s, hrun, hs⟩ := Machine.exists_runWhere_of_exec (M := sendMachine alloc (2 ^ 64 - 1))
    (s := .new .stream (some 3) [.ok [1, 2]] true) (fun _ e => Fits (2 ^ 64 - 1) e)
    [.proceeds, .proceeds, .polls, .proceeds, .polls]
    (P := fun s => s.wire = [1, 2] ∧ s.wireEnd = some .clean) (by simp [Fits])
    (by
      rw [Machine.exec]
      simp only [sendMachine, step, proceeds, new, receive, coalesceQueuedChunks_nil]
      rfl)
  obtain ⟨t, hrun', ht⟩ := Machine.exists_runWhere_of_exec
    (M := writerMachine alloc (2 ^ 32 - 1)) (s := .newStream (some 3) [.ok [1, 2]] true)
    (fun _ e => Writing.Fits (2 ^ 32 - 1) e) [.proceeds, .hostTakes 5, .proceeds]
    (P := fun t => t.task = .ended .truncated) (by simp [Writing.Fits])
    (by
      rw [Machine.exec]
      simp only [writerMachine, Writing.step, Writing.proceeds, Writing.newStream,
        Writing.writeStreamBody, Writing.receive, coalesceQueuedChunks_nil]
      rfl)
  obtain ⟨hwire, hclean⟩ := of_decide_eq_true hs
  have htask := of_decide_eq_true ht
  have hfits : ∀ message ∈ [(.ok [1, 2] : Except String Bytes)],
      Fits (2 ^ 64 - 1) (.push message) := by simp [Fits, coalesceLimit]
  have hfits' : ∀ message ∈ [(.ok [1, 2] : Except String Bytes)],
      Writing.Fits (2 ^ 32 - 1) (.push message) := by simp [Writing.Fits, coalesceLimit]
  have hpushed : s.pushed = t.pushed := by
    rw [(delivers_of_run hfits hrun).2.2.1 rfl, (Writing.wrote_of_run_stream hfits' hrun').2.2 rfl]
  obtain ⟨hsame, -, htruncated⟩ :=
    (transports_agree hfits hfits' hrun hrun' hpushed).2 hclean (.inr htask)
  exact ⟨s, t, hwire, hsame, htruncated.mpr htask⟩

end Sending

end Serve
