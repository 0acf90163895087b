import StarlingMonkey.Lib.Mpsc
import StarlingMonkey.Lib.Run
import StarlingMonkey.Platform.BodyChannel

/-!
# Incoming request bodies of the native server

`pump_request_body` reads the frames of a request body off its connection, and hands the bytes on
through a bounded channel, in pieces of at most 32 KiB. Once nobody takes them it discards what is
left, up to a budget, so that the connection can serve another request.

* `Pumping` is the invariant of the pump, its channel and the handler at the other end.
* `pump_kept` is what a handler may rely on, in every run in which no piece waits for room in the
  channel longer than a read may take. A piece that does is dropped together with the sender, which
  the handler cannot tell from the end of the body (`pump_not_kept`).
-/

namespace Serve

open Platform (Bytes)

/-! ### Limits -/

/-- `BINARY_UNITS`. -/
def binaryUnits : List (String × ℕ) := [("GiB", 2 ^ 30), ("MiB", 2 ^ 20), ("KiB", 2 ^ 10)]

/-- `ByteSize`, printed. -/
def byteSizeToString (size : ℕ) : String :=
  match binaryUnits.find? fun x => x.2 ≤ size && size % x.2 = 0 with
  | some (unit, multiple) => toString (size / multiple) ++ unit
  | none => toString size ++ "B"

/-- `ServeLimits`, as far as the body is concerned. -/
structure ServeLimits where
  maxRequestBodyBytes : ℕ
  maxBodyDrainBytes : ℕ
  /-- In seconds; `0` is no limit. -/
  requestReadTimeout : ℕ

/-- `BODY_CHANNEL_CAPACITY`. -/
def bodyChannelCapacity : ℕ := 8

/-- `BODY_READ_BYTES`. -/
def bodyReadBytes : ℕ := 32 * 1024

/-- `split_chunk`, in at most so many rounds. -/
def splitRounds : ℕ → Bytes → List Bytes
  | 0, _ => []
  | rounds + 1, chunk =>
    if chunk.isEmpty then []
    else chunk.take bodyReadBytes :: splitRounds rounds (chunk.drop bodyReadBytes)

/-- `split_chunk`. -/
def splitChunk (chunk : Bytes) : List Bytes := splitRounds chunk.length chunk

/-! ### The pump -/

/-- `BodySink`. The sender of the channel is there while the sink is reading. -/
inductive BodySink where
  | reading
  | discarding (budget : ℕ)
deriving DecidableEq, Repr

/-- What the pump waits for. -/
inductive PumpPhase where
  /-- A frame. -/
  | reading
  /-- That the first of the pieces of a frame is accepted. -/
  | accepting (chunks : List Bytes)
  /-- That an error is handed on. -/
  | failing (message : String)
  /-- Nothing, it has returned. -/
  | over
deriving DecidableEq, Repr

/-- A frame of a body. -/
inductive BodyFrame where
  | data (chunk : Bytes)
  | trailers
deriving DecidableEq, Repr

/-- A request body on its way to the handler. -/
structure RequestBody where
  sink : BodySink
  phase : PumpPhase
  /-- The bytes counted against the limit. -/
  read : ℕ
  /-- The channel to the handler, with the errors it is told. -/
  channel : Mpsc (Except String Bytes)
  /-- The connection is told to close. -/
  closing : Bool
  /-- The bytes of the body that came off the connection. -/
  body : Bytes
  /-- The body was read to its end. -/
  complete : Bool
  /-- The bytes that were discarded. -/
  unread : ℕ
deriving DecidableEq, Repr

/-- What happens to a request body. -/
inductive PumpEvent where
  /-- A frame is there. -/
  | frame (frame : BodyFrame)
  /-- The connection fails. -/
  | frameError (e : String)
  /-- The body is at its end. -/
  | frameEnd
  /-- The pump is polled. -/
  | poll
  /-- The time limit of what the pump waits for is over. -/
  | expire
  /-- The handler asks for the next chunk, or asks again. -/
  | nextChunk
  /-- The handler drops the body. -/
  | dropBody
deriving DecidableEq, Repr

namespace RequestBody

/-- `incoming_body_channel` and the pump before its first poll. -/
def initial : RequestBody :=
  ⟨.reading, .reading, 0, .new bodyChannelCapacity, false, [], false, 0⟩

/-- The pump returns, and drops its sink. -/
def finish (s : RequestBody) : RequestBody :=
  { s with phase := .over, channel := s.channel.dropSender }

/-- `BodySink::fail`, up to the error. -/
def fail (s : RequestBody) (message : String) : RequestBody :=
  match s.sink with
  | .reading => { s with closing := true, phase := .failing message }
  | .discarding _ => finish { s with closing := true }

/-- `IncomingBodySender::send_error`, which waits for room. -/
def sendError (s : RequestBody) (message : String) : RequestBody :=
  if !s.channel.receiver then s.finish
  else if s.channel.ready then finish { s with channel := s.channel.send (.error message) }
  else s

/-- The pieces left of a frame. -/
def nextPhase : List Bytes → PumpPhase
  | [] => .reading
  | chunk :: chunks => .accepting (chunk :: chunks)

/-- `BodySink::accept`, from where the sink is discarding. -/
def discard (s : RequestBody) (budget : ℕ) (chunk : Bytes) (chunks : List Bytes) : RequestBody :=
  let s := { s with channel := s.channel.dropSender }
  if chunk.length ≤ budget then
    { s with
      sink := .discarding (budget - chunk.length)
      unread := s.unread + chunk.length
      phase := nextPhase chunks }
  else
    fail { s with sink := .discarding budget }
      "the rest of the unread request body exceeds the drain budget"

/-- `BodySink::accept`, polled until the time limit is over. -/
def accept (limits : ServeLimits) (s : RequestBody) (expired : Bool) (chunk : Bytes)
    (chunks : List Bytes) : RequestBody :=
  match s.sink with
  | .discarding budget => s.discard budget chunk chunks
  | .reading =>
    if !s.channel.receiver then s.discard limits.maxBodyDrainBytes chunk chunks
    else if s.channel.ready then
      { s with channel := s.channel.send (.ok chunk), phase := nextPhase chunks }
    else if expired then s.discard limits.maxBodyDrainBytes chunk chunks
    else s

/-- `pump_request_body`, the rest of a round of its loop. -/
def readFrame (limits : ServeLimits) (s : RequestBody) : BodyFrame → RequestBody
  | .trailers => s
  | .data chunk =>
    let s := { s with read := s.read + chunk.length, body := s.body ++ chunk }
    if limits.maxRequestBodyBytes < s.read then
      s.fail ("the request body exceeds the configured limit of " ++
        byteSizeToString limits.maxRequestBodyBytes)
    else { s with phase := nextPhase (splitChunk chunk) }

/-- One event. -/
def step (limits : ServeLimits) (s : RequestBody) : PumpEvent → RequestBody
  | .frame frame => if s.phase = .reading then s.readFrame limits frame else s
  | .frameError e =>
    if s.phase = .reading then s.fail ("the request body failed mid-stream: " ++ e) else s
  | .frameEnd => if s.phase = .reading then finish { s with complete := true } else s
  | .poll =>
    match s.phase with
    | .accepting (chunk :: chunks) => s.accept limits false chunk chunks
    | .failing message => s.sendError message
    | _ => s
  | .expire =>
    if limits.requestReadTimeout = 0 then s
    else
      match s.phase with
      | .reading => s.fail "the request body stalled"
      | .accepting (chunk :: chunks) => s.accept limits true chunk chunks
      | _ => s
  | .nextChunk => { s with channel := s.channel.recv }
  | .dropBody => { s with channel := s.channel.dropReceiver }

end RequestBody

/-- A request body as a machine. -/
def pumpMachine (limits : ServeLimits) : Machine Empty Empty RequestBody PumpEvent :=
  ⟨fun s e => .ok (s.step limits e)⟩

/-- The bytes among what goes through the channel. -/
def contentOf (items : List (Except String Bytes)) : Bytes :=
  (items.filterMap Except.toOption).flatten

namespace RequestBody

/-- The pump is not done with the frames. -/
def Active (s : RequestBody) : Prop := s.phase = .reading ∨ ∃ chunks, s.phase = .accepting chunks

/-- The pieces that are still to be accepted. -/
def pending (s : RequestBody) : List Bytes :=
  match s.phase with
  | .accepting chunks => chunks
  | _ => []

/-- The pump waits for room in the channel, which the handler leaves full. -/
def Blocked (s : RequestBody) : Prop :=
  s.pending ≠ [] ∧ s.sink = .reading ∧ s.channel.receiver = true ∧ s.channel.ready = false

end RequestBody

/-- No piece waits for room until its time limit is over. -/
def Timely (limits : ServeLimits) (s : RequestBody) (e : PumpEvent) : Prop :=
  e = .expire → limits.requestReadTimeout ≠ 0 → ¬ s.Blocked

/-! ### Pieces -/

section Pieces

variable {chunk : Bytes} {chunks : List Bytes} {items items' : List (Except String Bytes)}

theorem flatten_splitRounds {rounds : ℕ} (h : chunk.length ≤ rounds) :
    (splitRounds rounds chunk).flatten = chunk := by
  induction rounds generalizing chunk with
  | zero => rw [List.length_eq_zero_iff.mp (Nat.le_zero.mp h)]; rfl
  | succ rounds ih =>
    rw [splitRounds]
    split_ifs with hempty
    · rw [List.isEmpty_iff.mp hempty]
      rfl
    · have hlength : (chunk.drop bodyReadBytes).length ≤ rounds := by
        rw [List.length_drop, bodyReadBytes]
        omega
      rw [List.flatten_cons, ih hlength, List.take_append_drop]

/-- The pieces of a frame are the frame. -/
theorem flatten_splitChunk (chunk : Bytes) : (splitChunk chunk).flatten = chunk :=
  flatten_splitRounds le_rfl

theorem length_of_mem_splitRounds {rounds : ℕ} {piece : Bytes}
    (h : piece ∈ splitRounds rounds chunk) : piece.length ≤ bodyReadBytes := by
  induction rounds generalizing chunk with
  | zero => cases h
  | succ rounds ih =>
    rw [splitRounds] at h
    split_ifs at h with hempty
    · cases h
    · rcases List.mem_cons.mp h with rfl | h
      · exact List.length_take_le ..
      · exact ih h

theorem length_of_mem_splitChunk {piece : Bytes} (h : piece ∈ splitChunk chunk) :
    piece.length ≤ bodyReadBytes :=
  length_of_mem_splitRounds h

@[simp] theorem contentOf_append :
    contentOf (items ++ items') = contentOf items ++ contentOf items' := by
  simp [contentOf]

@[simp] theorem contentOf_ok : contentOf [.ok chunk] = chunk := by
  simp [contentOf, Except.toOption]

@[simp] theorem contentOf_error (message : String) : contentOf [.error message] = [] := by
  simp [contentOf, Except.toOption]

theorem contentOf_prefix (h : items <+: items') : contentOf items <+: contentOf items' := by
  obtain ⟨rest, rfl⟩ := h
  rw [contentOf_append]
  exact List.prefix_append ..

end Pieces

/-! ### The invariant -/

/-- What holds of the channel and of the counters, whatever the pump waits for. -/
structure Held (limits : ServeLimits) (s : RequestBody) : Prop where
  kept : s.channel.Kept
  begins : contentOf s.channel.sent <+: s.body
  within : (contentOf s.channel.sent).length ≤ limits.maxRequestBodyBytes
  counted : s.read = s.body.length
  pieces : ∀ chunk, .ok chunk ∈ s.channel.sent → chunk.length ≤ bodyReadBytes
  whole : s.sink = .reading → s.unread = 0
  budget : ∀ budget, s.sink = .discarding budget → s.unread + budget = limits.maxBodyDrainBytes
  givenUp : ∀ budget, s.sink = .discarding budget → s.channel.receiver = false
  open_iff : s.channel.sender = true ↔ s.sink = .reading ∧ s.phase ≠ .over
  ended : s.channel.ended = true → s.phase = .over

/-- **The invariant** of a request body. -/
structure Pumping (limits : ServeLimits) (s : RequestBody) : Prop extends Held limits s where
  incomplete : s.phase ≠ .over → s.complete = false
  flows : s.sink = .reading → s.Active → contentOf s.channel.sent ++ s.pending.flatten = s.body
  accounted : s.Active →
    (contentOf s.channel.sent).length + s.unread + s.pending.flatten.length = s.body.length
  small : s.Active → s.body.length ≤ limits.maxRequestBodyBytes
  pendingPieces : ∀ chunk ∈ s.pending, chunk.length ≤ bodyReadBytes
  told : s.phase = .over → s.channel.receiver = true ∨ s.channel.ended = true →
    (s.complete = true ∧ contentOf s.channel.sent = s.body) ∨ ∃ e, .error e ∈ s.channel.sent
  closing : ¬ s.Active → s.complete = false → s.closing = true

section Invariant

variable {limits : ServeLimits} {s : RequestBody} {chunk : Bytes} {chunks : List Bytes}
  {message : String}

open RequestBody

theorem pending_of_nextPhase (h : s.phase = nextPhase chunks) : s.pending = chunks := by
  rw [RequestBody.pending, h]
  cases chunks <;> rfl

theorem active_of_nextPhase (h : s.phase = nextPhase chunks) : s.Active := by
  cases chunks with
  | nil => exact .inl h
  | cons chunk chunks => exact .inr ⟨chunk :: chunks, h⟩

theorem RequestBody.Active.ne_over (h : s.Active) : s.phase ≠ .over := by
  rcases h with h | ⟨chunks, h⟩ <;> rw [h] <;> simp

theorem not_active_of_over (h : s.phase = .over) : ¬ s.Active := fun hactive => hactive.ne_over h

theorem pumping_initial (limits : ServeLimits) : Pumping limits .initial where
  kept := Mpsc.kept_new _
  begins := List.nil_prefix
  within := Nat.zero_le _
  counted := rfl
  pieces := by simp [RequestBody.initial, Mpsc.new]
  whole _ := rfl
  budget := by simp [RequestBody.initial]
  givenUp := by simp [RequestBody.initial]
  incomplete _ := rfl
  open_iff := by simp [RequestBody.initial, Mpsc.new]
  ended := by simp [RequestBody.initial, Mpsc.new]
  flows _ _ := rfl
  accounted _ := rfl
  small _ := Nat.zero_le _
  pendingPieces := by simp [RequestBody.initial, RequestBody.pending]
  told := by simp [RequestBody.initial]
  closing h := absurd (.inl rfl) h

/-- Returning, with an error or at the end. -/
theorem Held.finish (h : Held limits s)
    (htold : s.channel.receiver = true →
      (s.complete = true ∧ contentOf s.channel.sent = s.body) ∨ ∃ e, .error e ∈ s.channel.sent)
    (hended : s.channel.ended = false) (hclosing : s.complete = false → s.closing = true) :
    Pumping limits s.finish where
  kept := h.kept.dropSender
  begins := h.begins
  within := h.within
  counted := h.counted
  pieces := h.pieces
  whole := h.whole
  budget := h.budget
  givenUp := h.givenUp
  incomplete hover := absurd rfl hover
  open_iff := by simp [RequestBody.finish, Mpsc.dropSender]
  ended _ := rfl
  flows _ hactive := absurd rfl hactive.ne_over
  accounted hactive := absurd rfl hactive.ne_over
  small hactive := absurd rfl hactive.ne_over
  pendingPieces := by simp [RequestBody.finish, RequestBody.pending]
  told := by
    rintro - (hreceiver | hended')
    · exact htold hreceiver
    · rw [show s.finish.channel.ended = s.channel.ended from rfl, hended] at hended'
      cases hended'
  closing _ := hclosing

theorem fail_reading (h : s.sink = .reading) (message : String) :
    s.fail message = { s with closing := true, phase := .failing message } := by
  obtain ⟨sink, phase, read, channel, closing, body, complete, unread⟩ := s
  obtain rfl : sink = .reading := h
  rfl

theorem fail_discarding {budget : ℕ} (h : s.sink = .discarding budget) (message : String) :
    s.fail message = RequestBody.finish { s with closing := true } := by
  obtain ⟨sink, phase, read, channel, closing, body, complete, unread⟩ := s
  obtain rfl : sink = .discarding budget := h
  rfl

/-- Giving up on a body. -/
theorem Held.fail (h : Held limits s) (hover : s.phase ≠ .over) (hincomplete : s.complete = false)
    (message : String) :
    Pumping limits (s.fail message) := by
  have hended : s.channel.ended = false := by
    by_contra hended
    exact hover (h.ended (by simpa using hended))
  cases hsink : s.sink with
  | reading =>
    rw [fail_reading hsink]
    exact
      { h with
        incomplete := fun _ => hincomplete
        open_iff := by simp [h.open_iff, hover, hsink]
        ended := by simp [hended]
        flows := by rintro - (hactive | ⟨chunks, hactive⟩) <;> cases hactive
        accounted := by rintro (hactive | ⟨chunks, hactive⟩) <;> cases hactive
        small := by rintro (hactive | ⟨chunks, hactive⟩) <;> cases hactive
        pendingPieces := by simp [RequestBody.pending]
        told := by rintro ⟨⟩
        closing := fun _ _ => rfl }
  | discarding budget =>
    rw [fail_discarding hsink]
    refine Held.finish (s := { s with closing := true }) { h with } (fun hreceiver => ?_) hended
      fun _ => rfl
    have hgone := h.givenUp budget hsink
    rw [show s.channel.receiver = true from hreceiver] at hgone
    cases hgone

theorem Pumping.fail (h : Pumping limits s) (hactive : s.Active) (message : String) :
    Pumping limits (s.fail message) :=
  h.toHeld.fail hactive.ne_over (h.incomplete hactive.ne_over) message

theorem Pumping.not_ended (h : Pumping limits s) (hover : s.phase ≠ .over) :
    s.channel.ended = false := by
  by_contra hended
  exact hover (h.ended (by simpa using hended))

/-- The sender is there while the handler is. -/
theorem Pumping.reading (h : Pumping limits s) (hreceiver : s.channel.receiver = true) :
    s.sink = .reading := by
  cases hsink : s.sink with
  | reading => rfl
  | discarding budget =>
    rw [h.givenUp budget hsink] at hreceiver
    cases hreceiver

/-- The end of a body. -/
theorem Pumping.frameEnd (h : Pumping limits s) (hphase : s.phase = .reading) :
    Pumping limits (RequestBody.finish { s with complete := true }) := by
  have hactive : s.Active := .inl hphase
  refine Held.finish (s := { s with complete := true }) { h.toHeld with } (fun hreceiver => ?_)
    (h.not_ended hactive.ne_over) (by rintro ⟨⟩)
  have hflows := h.flows (h.reading hreceiver) hactive
  rw [RequestBody.pending, hphase] at hflows
  exact .inl ⟨rfl, by simpa using hflows⟩

/-- Handing on an error. -/
theorem Pumping.sendError (h : Pumping limits s) (hphase : s.phase = .failing message) :
    Pumping limits (s.sendError message) := by
  have hover : s.phase ≠ .over := by rw [hphase]; simp
  have hended := h.not_ended hover
  have hinactive : ¬ s.Active := by
    rintro (hactive | ⟨chunks, hactive⟩) <;> rw [hphase] at hactive <;> cases hactive
  rw [RequestBody.sendError]
  split_ifs with hgone hready
  · refine h.toHeld.finish (fun hreceiver => ?_) hended (h.closing hinactive)
    rw [hreceiver] at hgone
    cases hgone
  · rw [Bool.not_eq_true', Bool.not_eq_false] at hgone
    have hsent := Mpsc.sent_send (a := Except.error message) hgone
    have hsender : s.channel.sender = true := h.open_iff.mpr ⟨h.reading hgone, hover⟩
    refine Held.finish (s := { s with channel := s.channel.send (.error message) }) ?_
      (fun _ => .inr ⟨message, ?_⟩) (by simpa using hended) (h.closing hinactive)
    · exact
        { h.toHeld with
          kept := h.kept.send hsender hready _
          begins := by
            show contentOf (s.channel.send (.error message)).sent <+: s.body
            rw [hsent, contentOf_append, contentOf_error, List.append_nil]
            exact h.begins
          within := by
            show (contentOf (s.channel.send (.error message)).sent).length ≤ _
            rw [hsent, contentOf_append, contentOf_error, List.append_nil]
            exact h.within
          pieces := by
            show ∀ chunk, .ok chunk ∈ (s.channel.send (.error message)).sent → _
            rw [hsent]
            intro chunk hchunk
            exact h.pieces chunk (by simpa using hchunk)
          givenUp := by simpa using h.givenUp
          open_iff := by simpa using h.open_iff
          ended := by simpa using h.ended }
    · show Except.error message ∈ (s.channel.send (.error message)).sent
      rw [hsent]
      simp
  · exact h

/-- Discarding a piece. -/
theorem Pumping.discard (h : Pumping limits s) (hphase : s.phase = .accepting (chunk :: chunks))
    (hgone : s.channel.receiver = false) {budget : ℕ}
    (hbudget : s.unread + budget = limits.maxBodyDrainBytes) :
    Pumping limits (s.discard budget chunk chunks) := by
  have hactive : s.Active := .inr ⟨_, hphase⟩
  have hpending : s.pending = chunk :: chunks := by rw [RequestBody.pending, hphase]
  have hended := h.not_ended hactive.ne_over
  have hheld : Held limits
      { s with channel := s.channel.dropSender, sink := .discarding budget } :=
    { h.toHeld with
      kept := h.kept.dropSender
      whole := by rintro ⟨⟩
      budget := by rintro _ ⟨⟩; exact hbudget
      givenUp := fun _ _ => hgone
      open_iff := by simp [Mpsc.dropSender] }
  rw [RequestBody.discard]
  split_ifs with hfits
  · refine
      { hheld with
        whole := by rintro ⟨⟩
        budget := by
          rintro _ ⟨⟩
          show s.unread + chunk.length + (budget - chunk.length) = _
          omega
        givenUp := fun _ _ => hgone
        incomplete := fun _ => h.incomplete hactive.ne_over
        open_iff := by simp [Mpsc.dropSender]
        ended := fun hended' => ?_
        flows := by rintro ⟨⟩
        accounted := fun _ => ?_
        small := fun _ => h.small hactive
        pendingPieces := ?_
        told := fun hover => absurd hover (active_of_nextPhase rfl).ne_over
        closing := fun hinactive => absurd (active_of_nextPhase rfl) hinactive }
    · rw [show s.channel.dropSender.ended = s.channel.ended from rfl, hended] at hended'
      cases hended'
    · have haccounted := h.accounted hactive
      rw [hpending, List.flatten_cons, List.length_append] at haccounted
      rw [pending_of_nextPhase rfl]
      show (contentOf s.channel.sent).length + (s.unread + chunk.length) + chunks.flatten.length =
        s.body.length
      omega
    · intro piece hpiece
      rw [pending_of_nextPhase rfl] at hpiece
      exact h.pendingPieces piece (hpending ▸ List.mem_cons_of_mem chunk hpiece)
  · exact hheld.fail hactive.ne_over (h.incomplete hactive.ne_over) _

/-- Accepting a piece. The handler is gone when it is not sent. -/
theorem Pumping.accept (h : Pumping limits s) (hphase : s.phase = .accepting (chunk :: chunks))
    {expired : Bool} (htimely : expired = true → ¬ s.Blocked) :
    Pumping limits (s.accept limits expired chunk chunks) := by
  have hactive : s.Active := .inr ⟨_, hphase⟩
  have hpending : s.pending = chunk :: chunks := by rw [RequestBody.pending, hphase]
  obtain ⟨budget, hsink⟩ | hsink : (∃ budget, s.sink = .discarding budget) ∨ s.sink = .reading := by
    cases s.sink with
    | reading => exact .inr rfl
    | discarding budget => exact .inl ⟨budget, rfl⟩
  · have heq : s.accept limits expired chunk chunks = s.discard budget chunk chunks := by
      simp only [RequestBody.accept, hsink]
    rw [heq]
    exact h.discard hphase (h.givenUp budget hsink) (h.budget budget hsink)
  have heq : s.accept limits expired chunk chunks =
      if !s.channel.receiver then s.discard limits.maxBodyDrainBytes chunk chunks
      else if s.channel.ready then
        { s with channel := s.channel.send (.ok chunk), phase := nextPhase chunks }
      else if expired then s.discard limits.maxBodyDrainBytes chunk chunks
      else s := by
    simp only [RequestBody.accept, hsink]
  rw [heq]
  split_ifs with hgone hready hexpired
  · refine h.discard hphase (by simpa using hgone) ?_
    rw [h.whole hsink, Nat.zero_add]
  · rw [Bool.not_eq_true', Bool.not_eq_false] at hgone
    have hsender : s.channel.sender = true := h.open_iff.mpr ⟨hsink, hactive.ne_over⟩
    have hsent := Mpsc.sent_send (a := Except.ok chunk) hgone
    have hflows := h.flows hsink hactive
    rw [hpending, List.flatten_cons, ← List.append_assoc] at hflows
    have hcontent : contentOf (s.channel.send (.ok chunk)).sent ++ chunks.flatten = s.body := by
      rw [hsent, contentOf_append, contentOf_ok]
      exact hflows
    have hprefix : contentOf (s.channel.send (.ok chunk)).sent <+: s.body :=
      ⟨chunks.flatten, hcontent⟩
    exact
      { h.toHeld with
        kept := h.kept.send hsender hready _
        begins := hprefix
        within := hprefix.length_le.trans (h.small hactive)
        pieces := by
          show ∀ piece, .ok piece ∈ (s.channel.send (.ok chunk)).sent → _
          rw [hsent]
          intro piece hpiece
          rcases List.mem_append.mp hpiece with hpiece | hpiece
          · exact h.pieces piece hpiece
          · obtain rfl : piece = chunk := by simpa using hpiece
            exact h.pendingPieces piece (by simp [hpending])
        givenUp := by simpa using h.givenUp
        incomplete := fun _ => h.incomplete hactive.ne_over
        open_iff := by
          rw [Mpsc.send_sender]
          exact iff_of_true hsender ⟨hsink, (active_of_nextPhase rfl).ne_over⟩
        ended := fun hended => absurd (h.ended (by simpa using hended)) hactive.ne_over
        flows := fun _ _ => by
          rw [pending_of_nextPhase rfl]
          exact hcontent
        accounted := fun _ => by
          rw [pending_of_nextPhase rfl]
          show (contentOf (s.channel.send (.ok chunk)).sent).length + s.unread +
            chunks.flatten.length = s.body.length
          rw [h.whole hsink, ← hcontent, List.length_append, Nat.add_zero]
        small := fun _ => h.small hactive
        pendingPieces := fun piece hpiece => by
          rw [pending_of_nextPhase rfl] at hpiece
          exact h.pendingPieces piece (hpending ▸ List.mem_cons_of_mem chunk hpiece)
        told := fun hover => absurd hover (active_of_nextPhase rfl).ne_over
        closing := fun hinactive => absurd (active_of_nextPhase rfl) hinactive }
  · -- only a blocked piece is given up while the handler is there
    refine absurd ⟨by simp [hpending], hsink, ?_, ?_⟩ (htimely hexpired)
    · simpa using hgone
    · simpa using hready
  · exact h

/-- Reading a frame. -/
theorem Pumping.readFrame (h : Pumping limits s) (hphase : s.phase = .reading)
    (frame : BodyFrame) : Pumping limits (s.readFrame limits frame) := by
  have hactive : s.Active := .inl hphase
  cases frame with
  | trailers => exact h
  | data chunk =>
    have hheld : Held limits
        { s with read := s.read + chunk.length, body := s.body ++ chunk } :=
      { h.toHeld with
        begins := h.begins.trans (List.prefix_append ..)
        counted := by
          show s.read + chunk.length = (s.body ++ chunk).length
          rw [h.counted, List.length_append] }
    rw [RequestBody.readFrame]
    split_ifs with hlimit
    · exact hheld.fail hactive.ne_over (h.incomplete hactive.ne_over) _
    · have hlength : (s.body ++ chunk).length ≤ limits.maxRequestBodyBytes := by
        rw [← hheld.counted]
        exact not_lt.mp hlimit
      exact
        { hheld with
          incomplete := fun _ => h.incomplete hactive.ne_over
          open_iff := by
            refine h.open_iff.trans (and_congr_right' ?_)
            exact iff_of_true hactive.ne_over (active_of_nextPhase rfl).ne_over
          ended := fun hended => absurd (h.ended hended) hactive.ne_over
          flows := fun hsink _ => by
            have hflows := h.flows hsink hactive
            rw [RequestBody.pending, hphase] at hflows
            rw [pending_of_nextPhase rfl, flatten_splitChunk]
            show contentOf s.channel.sent ++ chunk = s.body ++ chunk
            rw [← hflows, List.flatten_nil, List.append_nil]
          accounted := fun _ => by
            have haccounted := h.accounted hactive
            rw [RequestBody.pending, hphase, List.flatten_nil] at haccounted
            rw [pending_of_nextPhase rfl, flatten_splitChunk]
            show (contentOf s.channel.sent).length + s.unread + chunk.length =
              (s.body ++ chunk).length
            rw [List.length_append, ← haccounted]
            rfl
          small := fun _ => hlength
          pendingPieces := fun piece hpiece => by
            rw [pending_of_nextPhase rfl] at hpiece
            exact length_of_mem_splitChunk hpiece
          told := fun hover => absurd hover (active_of_nextPhase rfl).ne_over
          closing := fun hinactive => absurd (active_of_nextPhase rfl) hinactive }

/-- The handler asks for a chunk. -/
theorem Pumping.nextChunk (h : Pumping limits s) :
    Pumping limits { s with channel := s.channel.recv } := by
  have hended (hrecv : s.channel.recv.ended = true) : s.phase = .over := by
    rcases Mpsc.ended_recv hrecv with hended | ⟨hreceiver, hsender⟩
    · exact h.ended hended
    · -- the sender is gone while the handler is there
      by_contra hover
      rw [h.open_iff.mpr ⟨h.reading hreceiver, hover⟩] at hsender
      cases hsender
  exact
    { h.toHeld with
      kept := h.kept.recv
      begins := by simpa using h.begins
      within := by simpa using h.within
      pieces := by simpa using h.pieces
      givenUp := by simpa using h.givenUp
      open_iff := by simpa using h.open_iff
      ended := hended
      incomplete := h.incomplete
      flows := fun hsink hactive => by
        show contentOf s.channel.recv.sent ++ s.pending.flatten = s.body
        rw [Mpsc.recv_sent]
        exact h.flows hsink hactive
      accounted := fun hactive => by
        show (contentOf s.channel.recv.sent).length + s.unread + s.pending.flatten.length = _
        rw [Mpsc.recv_sent]
        exact h.accounted hactive
      small := h.small
      pendingPieces := h.pendingPieces
      told := fun hover hor => by
        show (_ ∧ contentOf s.channel.recv.sent = _) ∨ ∃ e, .error e ∈ s.channel.recv.sent
        rw [Mpsc.recv_sent]
        refine h.told hover ?_
        rcases hor with hreceiver | hrecv
        · exact .inl (by simpa using hreceiver)
        · exact (Mpsc.ended_recv hrecv).elim .inr fun h => .inl h.1
      closing := h.closing }

/-- The handler drops the body. -/
theorem Pumping.dropBody (h : Pumping limits s) :
    Pumping limits { s with channel := s.channel.dropReceiver } :=
  { h.toHeld with
    kept := h.kept.dropReceiver
    givenUp := fun _ _ => rfl
    incomplete := h.incomplete
    flows := h.flows
    accounted := h.accounted
    small := h.small
    pendingPieces := h.pendingPieces
    told := fun hover hor => h.told hover (hor.imp (by rintro ⟨⟩) id)
    closing := h.closing }

/-- A step keeps the invariant. -/
theorem Pumping.step (h : Pumping limits s) (e : PumpEvent) (htimely : Timely limits s e) :
    Pumping limits (s.step limits e) := by
  cases e with
  | frame frame =>
    rw [RequestBody.step]
    split_ifs with hphase
    · exact h.readFrame hphase frame
    · exact h
  | frameError e =>
    rw [RequestBody.step]
    split_ifs with hphase
    · exact h.fail (.inl hphase) _
    · exact h
  | frameEnd =>
    rw [RequestBody.step]
    split_ifs with hphase
    · exact h.frameEnd hphase
    · exact h
  | poll =>
    rw [RequestBody.step]
    cases hphase : s.phase with
    | reading => exact h
    | accepting chunks =>
      cases chunks with
      | nil => exact h
      | cons chunk chunks => exact h.accept hphase (by simp)
    | failing message => exact h.sendError hphase
    | _ => exact h
  | expire =>
    rw [RequestBody.step]
    split_ifs with hlimit
    · exact h
    cases hphase : s.phase with
    | reading => exact h.fail (.inl hphase) _
    | accepting chunks =>
      cases chunks with
      | nil => exact h
      | cons chunk chunks => exact h.accept hphase fun _ => htimely rfl hlimit
    | failing message => exact h
    | _ => exact h
  | nextChunk => exact h.nextChunk
  | dropBody => exact h.dropBody

/-- **What a handler may rely on**, and the connection. -/
structure BodyLaw (limits : ServeLimits) (s : RequestBody) : Prop where
  begins : contentOf s.channel.received <+: s.body
  pieces : ∀ chunk, .ok chunk ∈ s.channel.received → chunk.length ≤ bodyReadBytes
  within : (contentOf s.channel.received).length ≤ limits.maxRequestBodyBytes
  /-- A body that ends without an error is the whole body. -/
  clean : s.channel.ended = true → (∀ e, .error e ∉ s.channel.received) →
    s.complete = true ∧ contentOf s.channel.received = s.body
  /-- It ends for a handler that goes on reading. -/
  ends : s.phase = .over → s.channel.receiver = true →
    (Mpsc.recv^[s.channel.queue.length + 1] s.channel).ended = true
  order : s.channel.receiver = true → s.channel.received ++ s.channel.queue = s.channel.sent
  /-- Until the pump gives up, every byte is sent, discarded or still pending. -/
  accounted : s.Active →
    (contentOf s.channel.sent).length + s.unread + s.pending.flatten.length = s.body.length
  drained : s.unread ≤ limits.maxBodyDrainBytes
  closing : s.phase = .over → s.complete = false → s.closing = true

theorem Pumping.law (h : Pumping limits s) : BodyLaw limits s := by
  have hbegins := contentOf_prefix h.kept.begins
  constructor
  case begins => exact hbegins.trans h.begins
  case pieces => exact fun chunk hchunk => h.pieces chunk (h.kept.begins.subset hchunk)
  case within => exact hbegins.length_le.trans h.within
  case clean =>
    intro hended hclean
    have hall := (h.kept.complete hended).2
    rcases h.told (h.ended hended) (.inr hended) with hwhole | ⟨e, he⟩
    · rwa [hall]
    · exact absurd (hall ▸ he) (hclean e)
  case ends =>
    intro hover hreceiver
    refine Mpsc.ended_iterate_recv hreceiver (Bool.eq_false_iff.mpr fun hsender => ?_)
    exact (h.open_iff.mp hsender).2 hover
  case order => exact h.kept.conserved
  case accounted => exact h.accounted
  case drained =>
    cases hsink : s.sink with
    | reading =>
      rw [h.whole hsink]
      exact Nat.zero_le _
    | discarding budget =>
      rw [← h.budget budget hsink]
      exact Nat.le_add_right ..
  case closing => exact fun hover => h.closing (not_active_of_over hover)

/-- **A request body never looks complete when it is not**, unless a piece waits for room until its
time limit is over. -/
theorem pump_kept (hrun : (pumpMachine limits).RunWhere (Timely limits) .initial s) :
    BodyLaw limits s :=
  (hrun.inv_of_sat (E := fun _ => True) (pumping_initial limits)
    fun _ e h htimely => h.step e htimely).law

end Invariant

/-- The default limits. -/
private def defaultLimits : ServeLimits := ⟨512 * 1024 * 1024, 256 * 1024, 30⟩

/-- A handler that drops the body after a chunk. -/
theorem pump_kept_dropped : ∃ s, (pumpMachine defaultLimits).RunWhere (Timely defaultLimits)
    .initial s ∧ (s.channel.received = [.ok [1, 2]] ∧ s.unread = 1 ∧ s.phase = .over) ∧
    BodyLaw defaultLimits s := by
  obtain ⟨s, hrun, hs⟩ := Machine.exists_runWhere_of_exec (M := pumpMachine defaultLimits)
    (s := .initial) (Timely defaultLimits)
    [.frame (.data [1, 2]), .poll, .nextChunk, .frame .trailers, .dropBody, .frame (.data [3]),
      .poll, .frameEnd]
    (P := fun s => s.channel.received = [.ok [1, 2]] ∧ s.unread = 1 ∧ s.phase = .over)
    (fun e he s hexpire => by subst hexpire; simp at he) (by decide)
  exact ⟨s, hrun, of_decide_eq_true hs, pump_kept hrun⟩

/-- A handler that leaves the channel full for as long as a read may take, and then reads on, sees
nine of ten bytes and the end. -/
theorem pump_not_kept : ∃ s, (pumpMachine defaultLimits).Run .initial s ∧
    s.channel.ended = true ∧ s.channel.received = (List.range 9).map (fun i => .ok [i.toUInt8]) ∧
    s.body = (List.range 10).map Nat.toUInt8 ∧ ¬ BodyLaw defaultLimits s := by
  obtain ⟨s, hrun, hs⟩ := Machine.exists_run_of_exec (M := pumpMachine defaultLimits)
    (s := .initial)
    ((List.range 10).flatMap (fun i => [.frame (.data [i.toUInt8]), .poll]) ++
      [.expire, .frameEnd] ++ List.replicate 10 .nextChunk)
    (P := fun s => s.channel.ended = true ∧
      s.channel.received = (List.range 9).map (fun i => .ok [i.toUInt8]) ∧
      s.body = (List.range 10).map Nat.toUInt8) (by decide)
  obtain ⟨hended, hreceived, hbody⟩ := of_decide_eq_true hs
  refine ⟨s, hrun, hended, hreceived, hbody, fun h => ?_⟩
  have hclean := h.clean hended
  rw [hreceived, hbody] at hclean
  exact absurd (hclean (by simp)).2 (by decide)

end Serve
