import StarlingMonkey.Lib.Run

/-!
# The outgoing body pump

A body stream that is not handed to the transport whole is pumped: `run` reads its chunks into a
batch and sends the batch through a channel, which the transport reads. The steps of a read run
inside the call that issues it when a chunk is at hand, and later otherwise, and the sender leaves
the pump while a send waits for capacity.

The calls are taken apart at the points where the stream or the channel has a say: `Point` is where
`run` is when it is on the stack. The stream decides at each read whether it delivers at once,
the channel at each attempt whether it has capacity, and the receiver when it goes away. That a
promise can be allocated is taken for granted.

* `pump_delivers`: what is sent is what was received, in order, and how the body ends.
-/

namespace WebFetch

/-- How a pumped stream ended. -/
inductive StreamEnd where
  | closed
  | errored (message : String)
deriving DecidableEq, Repr

/-- What the channel carries: a batch of bytes or an error. -/
inductive Message (β : Type) where
  | chunk (bytes : List β)
  | error (message : String)
deriving DecidableEq, Repr

/-- What the steps of a read receive: a chunk, with its bytes if it is a `Uint8Array`, the end of
the stream, or its error. -/
inductive Arrival (β : Type) where
  | chunk (bytes : Option (List β))
  | close
  | error
deriving DecidableEq, Repr

/-- Where `run` is: in its loop of reads, or about to send. -/
inductive Point where
  | reads
  | sends
deriving DecidableEq, Repr

/-- The state of a pump, of its channel and of its stream. -/
structure Pump (β : Type) where
  /-- Whether the pump holds the sender. -/
  sender : Bool
  /-- The bytes read since the last send. -/
  batch : List β
  /-- How the stream ended, once it did and until the body is ended. -/
  streamEnd : Option StreamEnd
  /-- Whether a read request is waiting for a chunk. -/
  reading : Bool
  /-- Where `run` is when it is on the stack. -/
  running : Option Point
  /-- The sends that wait for capacity. Each holds the sender. -/
  sends : List (Message β)
  /-- Whether the receiver is there. -/
  receiver : Bool
  /-- What the channel has accepted, in order. -/
  accepted : List (Message β)
  /-- The send that was refused because the receiver was gone. -/
  refused : Option (Message β)
  /-- Whether the stream was cancelled. -/
  cancelled : Bool
  /-- The number of reads that were issued. -/
  issued : ℕ
  /-- What the steps of the reads received, in order. -/
  arrivals : List (Arrival β)
deriving DecidableEq, Repr

variable {β : Type}

namespace Pump

/-- The most bytes the pump reads into one batch before sending it. -/
def batchLimit : ℕ := 64 * 1024

/-- A new pump, with `run` about to start. -/
def initial : Pump β where
  sender := true
  batch := []
  streamEnd := none
  reading := false
  running := some .reads
  sends := []
  receiver := true
  accepted := []
  refused := none
  cancelled := false
  issued := 0
  arrivals := []

/-- Whether the pump may issue another read. -/
def canRead (s : Pump β) : Bool :=
  s.sender && s.streamEnd.isNone && !s.reading && s.batch.length < batchLimit

/-- Call `run`. It does nothing when it is on the stack. -/
def run (s : Pump β) : Pump β :=
  match s.running with
  | some _ => s
  | none => { s with running := some .reads }

/-- Take the sender out of the pump for a send that waits for capacity. -/
def spawnSend (s : Pump β) (item : Message β) : Pump β :=
  if s.sender then { s with sender := false, sends := s.sends ++ [item] } else s

/-- Send the batch, or end the body, if there is reason to. Returns whether `run` goes on reading.
`capacity` says whether the channel has capacity right away. -/
def sendBatch (s : Pump β) (capacity : Bool) : Bool × Pump β :=
  if s.sender then
    let ready := s.reading || s.streamEnd.isSome || batchLimit ≤ s.batch.length
    if !s.batch.isEmpty && ready then
      if capacity && s.receiver then
        (true, { s with batch := [], accepted := s.accepted ++ [.chunk s.batch] })
      else (false, { s with batch := [] }.spawnSend (.chunk s.batch))
    else if s.batch.isEmpty then
      match s.streamEnd with
      | some .closed => (false, { s with streamEnd := none, sender := false })
      | some (.errored message) =>
        (false, { s with streamEnd := none }.spawnSend (.error message))
      | none => (false, s)
    else (false, s)
  else (false, s)

/-- The chunk, close and error steps of a read. -/
def pumpStep (s : Pump β) (a : Arrival β) : Pump β :=
  let s := { s with reading := false, arrivals := s.arrivals ++ [a] }
  match a with
  | .chunk (some bytes) => { s with batch := s.batch ++ bytes }.run
  | .chunk none =>
    { s with streamEnd := some (.errored "Body stream chunks must be of type Uint8Array") }.run
  | .close => { s with streamEnd := some .closed }.run
  | .error => { s with streamEnd := some (.errored "body stream errored") }.run

/-- End the body with an error, which is queued if the channel has capacity. -/
def failBody (s : Pump β) (capacity : Bool) (message : String) : Pump β :=
  if s.sender then
    { s with
      sender := false
      accepted := if capacity && s.receiver then s.accepted ++ [.error message] else s.accepted }
  else s

end Pump

/-- What becomes of a read that is issued: its steps run inside the call, it waits, or it cannot be
issued. -/
inductive ReadOutcome (β : Type) where
  | arrives (a : Arrival β)
  | waits
  | fails (capacity : Bool)
deriving DecidableEq, Repr

/-- What happens next: `run` comes to its read loop or to its send, the steps of the read that waits
run, the send that waits completes, the receiver is dropped. -/
inductive PumpEvent (β : Type) where
  | read (outcome : ReadOutcome β)
  | send (capacity : Bool)
  | arrive (a : Arrival β)
  | sent
  | dropReceiver
deriving DecidableEq, Repr

namespace Pump

/-- What happens at an event. An event that cannot happen now changes nothing. -/
def step (s : Pump β) : PumpEvent β → Pump β
  | .read outcome =>
    if s.running = some .reads then
      if s.canRead then
        let s := { s with reading := true, issued := s.issued + 1 }
        match outcome with
        | .arrives a => s.pumpStep a
        | .waits => { s with running := some .sends }
        | .fails capacity =>
          { s with reading := false }.failBody capacity "the body stream could not be read"
      else { s with running := some .sends }
    else s
  | .send capacity =>
    if s.running = some .sends then
      match s.sendBatch capacity with
      | (true, s) => { s with running := some .reads }
      | (false, s) => { s with running := none }
    else s
  | .arrive a => if s.running = none ∧ s.reading then s.pumpStep a else s
  | .sent =>
    if s.running = none then
      match s.sends with
      | [] => s
      | .chunk bytes :: sends =>
        if s.receiver then
          run { s with sender := true, sends, accepted := s.accepted ++ [.chunk bytes] }
        -- a refused chunk means the receiver is gone: the stream is cancelled
        else { s with sends, refused := some (.chunk bytes), cancelled := true }
      | .error message :: sends =>
        if s.receiver then { s with sends, accepted := s.accepted ++ [.error message] }
        else { s with sends, refused := some (.error message) }
    else s
  | .dropReceiver => { s with receiver := false }

end Pump

/-- The machine of a pump. -/
def pumpMachine (β : Type) : Machine Empty Empty (Pump β) (PumpEvent β) :=
  ⟨fun s e => .ok (s.step e)⟩

/-! ### What is observed -/

/-- The bytes of a message. -/
def Message.bytes : Message β → List β
  | .chunk bytes => bytes
  | .error _ => []

/-- The bytes of a chunk that arrived. -/
def Arrival.bytes : Arrival β → List β
  | .chunk (some bytes) => bytes
  | _ => []

/-- How an arrival ends the body. -/
def Arrival.ends : Arrival β → Option StreamEnd
  | .chunk (some _) => none
  | .chunk none => some (.errored "Body stream chunks must be of type Uint8Array")
  | .close => some .closed
  | .error => some (.errored "body stream errored")

/-- The messages are chunks. -/
def Chunks (l : List (Message β)) : Prop := ∀ message, .error message ∉ l

/-- The bytes of the messages, in order. -/
def bytesOf (l : List (Message β)) : List β := l.flatMap Message.bytes

namespace Pump

/-- The bytes received from the stream, in order. -/
def received (s : Pump β) : List β := s.arrivals.flatMap Arrival.bytes

/-- How the stream ended, if it has. -/
def ended (s : Pump β) : Option StreamEnd := s.arrivals.findSome? Arrival.ends

/-- What was handed to the channel: accepted, waiting or refused. -/
def handed (s : Pump β) : List (Message β) := s.accepted ++ s.sends ++ s.refused.toList

/-- The channel is closed: nobody holds the sender. -/
def Closed (s : Pump β) : Prop := s.sender = false ∧ s.sends = []

/-- A batch of the pump: below the limit before its last chunk. -/
def IsBatch (s : Pump β) (bytes : List β) : Prop :=
  ∃ pre last, bytes = pre ++ last ∧ pre.length < batchLimit ∧ .chunk (some last) ∈ s.arrivals

/-! ### The invariant -/

/-- What becomes of the end of the stream. -/
inductive Ending (s : Pump β) : Prop where
  /-- The stream goes on. -/
  | open (hended : s.ended = none) (hend : s.streamEnd = none) (hchunks : Chunks s.handed)
    (hsender : ¬ (s.Closed ∧ s.refused = none))
  /-- The stream has ended, and the batch is still to be sent. -/
  | pending (hended : s.ended = s.streamEnd) (hend : s.streamEnd ≠ none) (hchunks : Chunks s.handed)
    (hsender : ¬ (s.Closed ∧ s.refused = none))
  /-- The sender was dropped after everything was sent. -/
  | closed (hended : s.ended = some .closed) (hend : s.streamEnd = none) (hchunks : Chunks s.handed)
    (hsender : s.Closed) (hbatch : s.batch = []) (hrefused : s.refused = none)
  /-- The error was handed to the channel after everything else. -/
  | failed {message : String} {q : List (Message β)} (hended : s.ended = some (.errored message))
    (hend : s.streamEnd = none) (hhanded : s.handed = q ++ [.error message]) (hchunks : Chunks q)
    (hsender : s.sender = false) (hbatch : s.batch = [])

/-- What holds of a pump between any two of its steps. -/
structure Flows (s : Pump β) : Prop where
  sends : s.sends.length ≤ 1
  held : s.sender = true → s.sends = []
  refused : s.refused ≠ none → s.sender = false ∧ s.sends = []
  bytes : bytesOf s.handed ++ s.batch = s.received
  reading : s.reading = true → s.ended = none ∧ s.batch.length < batchLimit
  ending : s.Ending
  batch : s.batch = [] ∨ s.IsBatch s.batch
  batches : ∀ bytes, .chunk bytes ∈ s.handed → s.IsBatch bytes
  issued : s.issued = s.arrivals.length + if s.reading then 1 else 0
  cancelled : ∀ bytes, s.refused = some (.chunk bytes) → s.cancelled = true
  /-- Before `run` sends, there is a reason to. -/
  point : s.running = some .sends → s.sender = true →
    s.reading = true ∨ s.streamEnd ≠ none ∨ batchLimit ≤ s.batch.length
  /-- When `run` has returned and no send waits, a read does. -/
  rest : s.running = none → s.sender = true →
    s.reading = true ∧ s.batch = [] ∧ s.streamEnd = none

theorem flows_initial : (initial : Pump β).Flows where
  sends := Nat.zero_le _
  held := fun _ => rfl
  refused := nofun
  bytes := rfl
  reading := nofun
  ending := .open rfl rfl nofun fun h => by cases h.1.1
  batch := .inl rfl
  batches := nofun
  issued := rfl
  cancelled := nofun
  point := nofun
  rest := nofun

variable {s t : Pump β}

theorem ended_concat (s : Pump β) (a : Arrival β) (h : s.ended = none) :
    (s.arrivals ++ [a]).findSome? Arrival.ends = a.ends := by
  rw [List.findSome?_append, show s.arrivals.findSome? Arrival.ends = none from h, Option.none_or,
    List.findSome?_singleton]

/-- The steps of a read, as one update. -/
theorem pumpStep_eq (s : Pump β) (a : Arrival β) : s.pumpStep a = { s with
    reading := false
    arrivals := s.arrivals ++ [a]
    batch := s.batch ++ a.bytes
    streamEnd := a.ends.or s.streamEnd
    running := some (s.running.getD .reads) } := by
  obtain ⟨sender, batch, streamEnd, reading, running, sends, receiver, accepted, refused, cancelled,
    issued, arrivals⟩ := s
  cases running <;> rcases a with (_ | bytes) | _ | _ <;>
    simp [pumpStep, run, Arrival.bytes, Arrival.ends]

theorem IsBatch.mono {bytes : List β} (h : s.IsBatch bytes) {new : List (Arrival β)}
    (harrivals : t.arrivals = s.arrivals ++ new) : t.IsBatch bytes := by
  obtain ⟨pre, last, heq, hlt, hmem⟩ := h
  refine ⟨pre, last, heq, hlt, ?_⟩
  rw [harrivals]
  exact List.mem_append_left _ hmem

/-- While a read is outstanding the stream goes on. -/
theorem Flows.is_open (h : s.Flows) (hended : s.ended = none) :
    s.streamEnd = none ∧ Chunks s.handed ∧ ¬ (s.Closed ∧ s.refused = none) := by
  cases h.ending with
  | «open» _ hend hchunks hsender => exact ⟨hend, hchunks, hsender⟩
  | pending heq hend => exact absurd (heq.symm.trans hended) hend
  | closed heq => rw [hended] at heq; cases heq
  | failed heq => rw [hended] at heq; cases heq

/-- The steps of a read run. -/
theorem Flows.pumpStep (h : s.Flows) (hreading : s.reading = true)
    (hrunning : s.running ≠ some .sends) (a : Arrival β) : (s.pumpStep a).Flows := by
  obtain ⟨hended, hlt⟩ := h.reading hreading
  obtain ⟨hend, hchunks, hsender⟩ := h.is_open hended
  have hnew := ended_concat s a hended
  have hpoint : some (s.running.getD .reads) ≠ some .sends := by
    cases hr : s.running with
    | none => nofun
    | some point =>
      rw [hr] at hrunning
      exact hrunning
  rw [pumpStep_eq]
  refine ⟨h.sends, h.held, h.refused, ?_, nofun, ?_, ?_, ?_, ?_, h.cancelled,
    fun hp => absurd hp hpoint, nofun⟩
  · change bytesOf s.handed ++ (s.batch ++ a.bytes) = (s.arrivals ++ [a]).flatMap Arrival.bytes
    rw [← List.append_assoc, h.bytes, List.flatMap_append, List.flatMap_singleton]
    rfl
  · cases hends : a.ends with
    | none =>
      refine .open ?_ (by rw [Option.none_or, hend]) hchunks hsender
      exact hnew.trans hends
    | some e =>
      refine .pending ?_ nofun hchunks hsender
      exact hnew.trans hends
  · have hkeep (hbytes : a.bytes = []) : s.batch ++ a.bytes = [] ∨ IsBatch { s with
        reading := false
        arrivals := s.arrivals ++ [a]
        batch := s.batch ++ a.bytes
        streamEnd := a.ends.or s.streamEnd
        running := some (s.running.getD .reads) } (s.batch ++ a.bytes) := by
      rw [hbytes, List.append_nil]
      exact h.batch.imp_right fun hb => hb.mono rfl
    rcases a with (_ | bytes) | _ | _
    · exact hkeep rfl
    · exact .inr ⟨s.batch, bytes, rfl, hlt, List.mem_append_right _ (List.mem_cons_self ..)⟩
    · exact hkeep rfl
    · exact hkeep rfl
  · exact fun bytes hmem => (h.batches bytes hmem).mono rfl
  · change s.issued = (s.arrivals ++ [a]).length + 0
    rw [h.issued, hreading, List.length_append]
    rfl

/-- The batch is handed to the channel: accepted at once, or left to wait with the sender. -/
theorem Flows.handBatch (h : s.Flows) (hsender : s.sender = true) (hbatch : s.batch ≠ [])
    (hshape : t.handed = s.handed ++ [.chunk s.batch]) (harrivals : t.arrivals = s.arrivals)
    (hsends : t.sends.length ≤ 1) (hheld : t.sender = true → t.sends = [])
    (hopen : ¬ (t.Closed ∧ t.refused = none)) (hrefused : t.refused = none)
    (hpoint : t.running ≠ some .sends) (hrest : t.running = none → t.sender = false)
    (hempty : t.batch = []) (hend : t.streamEnd = s.streamEnd)
    (hreading : t.reading = s.reading) (hissued : t.issued = s.issued) :
    t.Flows := by
  have hended : t.ended = s.ended := by rw [ended, harrivals, ended]
  have hchunks (hc : Chunks s.handed) : Chunks t.handed := by
    intro message hmem
    rw [hshape] at hmem
    rcases List.mem_append.mp hmem with hmem | hmem
    · exact hc message hmem
    · cases List.mem_singleton.mp hmem
  refine ⟨hsends, hheld, fun hne => absurd hrefused hne, ?_, ?_, ?_, .inl hempty, ?_, ?_, ?_,
    fun hp => absurd hp hpoint, fun hr hs => absurd (hrest hr) (by rw [hs]; nofun)⟩
  -- the batch moves from the pump to what was handed over
  · rw [hshape, hempty, List.append_nil, received, harrivals]
    rw [show s.arrivals.flatMap Arrival.bytes = s.received from rfl, ← h.bytes, bytesOf, bytesOf,
      List.flatMap_append, List.flatMap_singleton]
    rfl
  · intro hr
    rw [hreading] at hr
    rw [hended, hempty]
    exact ⟨(h.reading hr).1, Nat.zero_lt_succ _⟩
  -- the end stays where it was: only the read loop notes it, only the flush hands it on
  · cases h.ending with
    | «open» hended' hend' hc _ =>
      exact .open (hended.trans hended') (hend.trans hend') (hchunks hc) hopen
    | pending heq hne hc _ =>
      exact .pending (by rw [hended, hend, heq]) (by rwa [hend]) (hchunks hc) hopen
    | closed _ _ _ hclosed => rw [hclosed.1] at hsender; cases hsender
    | failed _ _ _ _ hs => rw [hs] at hsender; cases hsender
  · intro bytes hmem
    rw [hshape] at hmem
    refine IsBatch.mono (s := s) ?_ (harrivals.trans (List.append_nil _).symm)
    rcases List.mem_append.mp hmem with hmem | hmem
    · exact h.batches bytes hmem
    · obtain rfl : bytes = s.batch := by
        cases List.mem_singleton.mp hmem
        rfl
      exact h.batch.resolve_left hbatch
  · rw [hissued, h.issued, hreading, harrivals]
  · intro bytes hr
    rw [hrefused] at hr
    cases hr

/-- `run` comes to another point, or returns. -/
theorem Flows.move (h : s.Flows) (point : Option Point)
    (hpoint : point = some .sends → s.sender = true →
      s.reading = true ∨ s.streamEnd ≠ none ∨ batchLimit ≤ s.batch.length)
    (hrest : point = none → s.sender = true →
      s.reading = true ∧ s.batch = [] ∧ s.streamEnd = none) :
    Flows { s with running := point } := by
  refine { h with ending := ?_, point := hpoint, rest := hrest }
  cases h.ending with
  | «open» hended hend hchunks hsender => exact .open hended hend hchunks hsender
  | pending hended hend hchunks hsender => exact .pending hended hend hchunks hsender
  | closed hended hend hchunks hsender hbatch hr =>
    exact .closed hended hend hchunks hsender hbatch hr
  | failed hended hend hhanded hchunks hsender hbatch =>
    exact .failed hended hend hhanded hchunks hsender hbatch

/-- The sender is dropped, or leaves with the error, when everything else has been sent. -/
theorem Flows.endBody (h : s.Flows) (hsender : s.sender = true) (hbatch : s.batch = [])
    {e : StreamEnd} (hend : s.streamEnd = some e) {items : List (Message β)}
    (hitems : items = match e with
      | .closed => []
      | .errored message => [.error message]) :
    Flows { s with streamEnd := none, sender := false, sends := items, running := none } := by
  have hrefused : s.refused = none := by
    by_contra hne
    rw [(h.refused hne).1] at hsender
    cases hsender
  have hsends := h.held hsender
  have hhanded : s.handed = s.accepted := by rw [handed, hsends, hrefused]; simp
  obtain ⟨hended, hchunks⟩ : s.ended = some e ∧ Chunks s.handed := by
    cases h.ending with
    | «open» _ hnone => rw [hnone] at hend; cases hend
    | pending heq _ hchunks => exact ⟨heq.trans hend, hchunks⟩
    | closed _ hnone => rw [hnone] at hend; cases hend
    | failed _ hnone => rw [hnone] at hend; cases hend
  -- an end without an error adds no message
  have hnew : handed { s with
      streamEnd := none, sender := false, sends := items, running := none } =
      s.handed ++ items := by
    rw [hhanded]
    simp [handed, hrefused]
  have hreading : s.reading = true → s.ended = none ∧ s.batch.length < batchLimit := h.reading
  have hbytes : bytesOf items = [] := by
    rw [hitems]
    cases e <;> rfl
  refine ⟨?_, nofun, fun hne => absurd hrefused hne, ?_, hreading, ?_, h.batch, ?_, h.issued,
    h.cancelled, nofun, nofun⟩
  · rw [hitems]
    cases e <;> exact Nat.le_of_ble_eq_true rfl
  · rw [hnew, bytesOf, List.flatMap_append]
    change bytesOf s.handed ++ bytesOf items ++ s.batch = s.received
    rw [hbytes, List.append_nil]
    exact h.bytes
  · cases e with
    | closed =>
      subst hitems
      refine .closed hended rfl ?_ ⟨rfl, rfl⟩ hbatch hrefused
      rw [hnew, List.append_nil]
      exact hchunks
    | errored message =>
      subst hitems
      exact .failed hended rfl hnew hchunks rfl hbatch
  · intro bytes hmem
    rw [hnew] at hmem
    rcases List.mem_append.mp hmem with hmem | hmem
    · exact h.batches bytes hmem
    · subst hitems
      cases e <;> simp at hmem

/-- `run` sends. -/
theorem Flows.send (h : s.Flows) (hrunning : s.running = some .sends) (capacity : Bool) :
    (s.step (.send capacity)).Flows := by
  simp only [step, if_pos hrunning]
  by_cases hsender : s.sender = true
  -- the channel was torn down: the flush does nothing
  swap
  · have hnot : s.sendBatch capacity = (false, s) := by rw [sendBatch, if_neg hsender]
    rw [hnot]
    exact h.move none nofun fun _ hs => absurd hs hsender
  have hsends := h.held hsender
  have hrefused : s.refused = none := by
    by_contra hne
    exact absurd hsender (by rw [(h.refused hne).1]; nofun)
  have hreason := h.point hrunning hsender
  rw [sendBatch, if_pos hsender]
  cases hb : s.batch with
  -- a batch is flushed because it is full, because the body ended, or for lack of a next chunk
  | cons b bs =>
    have hne : s.batch ≠ [] := by rw [hb]; exact List.cons_ne_nil _ _
    have hready :
        (s.reading || s.streamEnd.isSome || decide (batchLimit ≤ s.batch.length)) = true := by
      rcases hreason with hr | hr | hr
      · simp [hr]
      · simp [Option.isSome_iff_ne_none.mpr hr]
      · simp [hr]
    rw [hb] at hready
    simp only [List.isEmpty_cons, Bool.not_false, Bool.true_and, hready, if_true]
    by_cases haccept : (capacity && s.receiver) = true
    · rw [if_pos haccept]
      refine h.handBatch hsender hne ?_ rfl ?_ h.held ?_ hrefused nofun nofun rfl rfl rfl
        rfl
      · simp [handed, hsends, hrefused, hb]
      · exact h.sends
      · rintro ⟨⟨hs, -⟩, -⟩
        rw [hsender] at hs
        cases hs
    -- without capacity the send is left to a task, and the pump waits for it
    · rw [if_neg haccept, spawnSend, if_pos hsender]
      refine h.handBatch hsender hne ?_ rfl ?_ nofun ?_ hrefused nofun (fun _ => rfl) rfl rfl
        rfl rfl
      · simp [handed, hsends, hrefused, hb]
      · simp [hsends]
      · rintro ⟨⟨-, hs⟩, -⟩
        simp at hs
  -- nothing is batched: the end, if there is one, is handed on
  | nil =>
    simp only [List.isEmpty_nil, Bool.not_true, Bool.false_and, Bool.false_eq_true, if_false,
      if_true]
    cases hend : s.streamEnd with
    | none =>
      refine h.move none nofun fun _ _ => ⟨?_, hb, hend⟩
      rcases hreason with hr | hr | hr
      · exact hr
      · exact absurd hend hr
      · rw [hb] at hr
        exact absurd hr (Nat.not_succ_le_zero _)
    | some e =>
      cases e with
      | closed =>
        have := h.endBody hsender hb hend (show ([] : List (Message β)) = _ from rfl)
        simpa [hb, hsends] using this
      | errored message =>
        have := h.endBody hsender hb hend (show [Message.error message] = _ from rfl)
        simpa [hb, hsends, spawnSend, hsender] using this

/-- A send that waited completes. -/
theorem Flows.sent (h : s.Flows) : (s.step .sent).Flows := by
  by_cases hrunning : s.running = none
  swap
  · rw [step, if_neg hrunning]
    exact h
  rw [step, if_pos hrunning]
  cases hsends : s.sends with
  | nil => exact h
  | cons item sends =>
    have hlen := h.sends
    rw [hsends] at hlen
    -- one send at a time
    obtain rfl : sends = [] :=
      List.length_eq_zero_iff.mp (Nat.le_zero.mp (Nat.le_of_succ_le_succ hlen))
    have hsender : s.sender = false := by
      cases hs : s.sender with
      | false => rfl
      | true =>
        have := h.held hs
        rw [hsends] at this
        cases this
    have hrefused : s.refused = none := by
      by_contra hne
      have := (h.refused hne).2
      rw [hsends] at this
      cases this
    have hhanded : s.handed = s.accepted ++ [item] := by simp [handed, hsends, hrefused]
    -- whatever becomes of the message, it stays the last one handed to the channel
    have hsame {t : Pump β} (ht : t.handed = s.handed) (harrivals : t.arrivals = s.arrivals)
        (hbatch : t.batch = s.batch) (hend : t.streamEnd = s.streamEnd)
        (hsends' : t.sends = []) (hreading : t.reading = s.reading) (hissued : t.issued = s.issued)
        (hrefused' : t.refused ≠ none → t.sender = false)
        (hopen : Chunks s.handed → ¬ (t.Closed ∧ t.refused = none))
        (herror : ∀ q message, s.handed = q ++ [.error message] → t.sender = false)
        (hcancelled : ∀ bytes, t.refused = some (.chunk bytes) → t.cancelled = true)
        (hpoint : t.running ≠ some .sends) (hrest : t.running = none → t.sender = false) :
        t.Flows := by
      have hended : t.ended = s.ended := by rw [ended, harrivals, ended]
      refine ⟨by rw [hsends']; exact Nat.zero_le _, fun _ => hsends',
        fun hne => ⟨hrefused' hne, hsends'⟩, ?_, ?_, ?_, ?_, ?_, ?_, hcancelled,
        fun hp => absurd hp hpoint, fun hr hs => absurd hs (by rw [hrest hr]; nofun)⟩
      · rw [ht, hbatch, received, harrivals]
        exact h.bytes
      · rw [hreading, hended, hbatch]
        exact h.reading
      · cases h.ending with
        | «open» hended' hend' hchunks _ =>
          exact .open (hended.trans hended') (hend.trans hend') (ht ▸ hchunks) (hopen hchunks)
        | pending heq hne hchunks _ =>
          exact .pending (by rw [hended, hend, heq]) (by rwa [hend]) (ht ▸ hchunks) (hopen hchunks)
        | closed _ _ _ hclosed =>
          rw [hclosed.2] at hsends
          cases hsends
        | failed hended' hend' hlast hchunks _ hbatch' =>
          exact .failed (hended.trans hended') (hend.trans hend') (ht.trans hlast) hchunks
            (herror _ _ hlast) (hbatch.trans hbatch')
      · rw [hbatch]
        exact h.batch.imp_right fun hb => hb.mono (harrivals.trans (List.append_nil _).symm)
      · intro bytes hmem
        rw [ht] at hmem
        exact (h.batches bytes hmem).mono (harrivals.trans (List.append_nil _).symm)
      · rw [hissued, h.issued, hreading, harrivals]
    cases item with
    | chunk bytes =>
      by_cases hreceiver : s.receiver = true
      · simp only [if_pos hreceiver, run, hrunning]
        refine hsame ?_ rfl rfl rfl rfl rfl rfl (fun hne => absurd hrefused hne) ?_ ?_ ?_
          nofun nofun
        · rw [hhanded]
          simp [handed, hrefused]
        · rintro - ⟨⟨hs, -⟩, -⟩
          cases hs
        · intro q message hlast
          rw [hhanded] at hlast
          cases (List.append_inj' hlast rfl).2
        · intro bytes' hr
          rw [hrefused] at hr
          cases hr
      -- the receiver is gone: the chunk is refused and the stream is cancelled
      · simp only [if_neg hreceiver]
        refine hsame ?_ rfl rfl rfl rfl rfl rfl (fun _ => hsender) ?_ (fun _ _ _ => hsender)
          (fun _ _ => rfl) (by rw [hrunning]; nofun) (fun _ => hsender)
        · rw [hhanded]
          simp [handed]
        · rintro - ⟨-, hr⟩
          cases hr
    -- an error message was the last: nothing follows it, received or not
    | error message =>
      by_cases hreceiver : s.receiver = true
      · simp only [if_pos hreceiver]
        refine hsame ?_ rfl rfl rfl rfl rfl rfl (fun hne => absurd hrefused hne) ?_
          (fun _ _ _ => hsender) ?_ (by rw [hrunning]; nofun) (fun _ => hsender)
        · rw [hhanded]
          simp [handed, hrefused]
        · rintro hall -
          rw [hhanded] at hall
          exact hall _ (List.mem_append_right _ (List.mem_singleton.mpr rfl))
        · intro bytes' hr
          rw [hrefused] at hr
          cases hr
      · simp only [if_neg hreceiver]
        refine hsame ?_ rfl rfl rfl rfl rfl rfl (fun _ => hsender) ?_ (fun _ _ _ => hsender) ?_
          (by rw [hrunning]; nofun) (fun _ => hsender)
        · rw [hhanded]
          simp [handed]
        · rintro - ⟨-, hr⟩
          cases hr
        · intro bytes' hr
          cases hr

/-- `run` comes to its read loop. -/
theorem Flows.read (h : s.Flows) {outcome : ReadOutcome β}
    (houtcome : ∀ capacity, outcome ≠ .fails capacity) : (s.step (.read outcome)).Flows := by
  by_cases hrunning : s.running = some .reads
  swap
  · rw [step, if_neg hrunning]
    exact h
  by_cases hcan : s.canRead = true
  · obtain ⟨⟨⟨hsender, hend⟩, hreading⟩, hlt⟩ :
        ((s.sender = true ∧ s.streamEnd = none) ∧ s.reading = false) ∧
          s.batch.length < batchLimit := by simpa [canRead] using hcan
    have hended : s.ended = none := by
      cases h.ending with
      | «open» hended => exact hended
      | pending _ hne => exact absurd hend hne
      | closed _ _ _ hclosed => rw [hclosed.1] at hsender; cases hsender
      | failed _ _ _ _ hs => rw [hs] at hsender; cases hsender
    obtain ⟨-, hchunks, hopen⟩ := h.is_open hended
    have hread : Flows { s with reading := true, issued := s.issued + 1 } := by
      refine { h with
        reading := fun _ => ⟨hended, hlt⟩
        ending := .open hended hend hchunks hopen
        issued := ?_
        point := fun hp => absurd (hrunning.symm.trans hp) nofun
        rest := fun hr => absurd (hrunning.symm.trans hr) nofun }
      change s.issued + 1 = s.arrivals.length + 1
      rw [h.issued, hreading]
      rfl
    rw [step, if_pos hrunning, if_pos hcan]
    cases outcome with
    | arrives a =>
      exact hread.pumpStep rfl (by change s.running ≠ _; rw [hrunning]; nofun) a
    | waits => exact hread.move (some .sends) (fun _ _ => .inl rfl) nofun
    | fails capacity => exact absurd rfl (houtcome capacity)
  · rw [step, if_pos hrunning, if_neg hcan]
    refine h.move (some .sends) (fun _ hsender => ?_) nofun
    by_contra hnot
    rw [not_or, not_or, not_not, Nat.not_le] at hnot
    refine hcan ?_
    simp [canRead, hsender, hnot.1, hnot.2.1, hnot.2.2]

/-- **Every event** keeps the invariant, when issuing a read does not fail. -/
theorem Flows.step (h : s.Flows) {e : PumpEvent β}
    (he : ∀ capacity, e ≠ .read (.fails capacity)) : (s.step e).Flows := by
  cases e with
  | read outcome => exact h.read fun capacity heq => he capacity (by rw [heq])
  | send capacity =>
    by_cases hrunning : s.running = some .sends
    · exact h.send hrunning capacity
    · rw [Pump.step, if_neg hrunning]
      exact h
  | arrive a =>
    rw [Pump.step]
    split_ifs with hwaits
    · exact h.pumpStep hwaits.2 (by rw [hwaits.1]; nofun) a
    · exact h
  | sent => exact h.sent
  | dropReceiver =>
    refine { h with ending := ?_ }
    cases h.ending with
    | «open» hended hend hchunks hsender => exact .open hended hend hchunks hsender
    | pending hended hend hchunks hsender => exact .pending hended hend hchunks hsender
    | closed hended hend hchunks hsender hbatch hr =>
      exact .closed hended hend hchunks hsender hbatch hr
    | failed hended hend hhanded hchunks hsender hbatch =>
      exact .failed hended hend hhanded hchunks hsender hbatch

/-- The events of a pump whose reads can be issued. -/
def Reads (_ : Pump β) (e : PumpEvent β) : Prop := ∀ capacity, e ≠ .read (.fails capacity)

/-- What every run keeps. -/
theorem Flows.run (h : s.Flows) (hrun : (pumpMachine β).RunWhere Reads s t) : t.Flows :=
  hrun.inv h fun _ _ _ hs he hstep => by
    cases hstep
    exact hs.step he

@[simp] theorem issued_spawnSend (s : Pump β) (item : Message β) :
    (s.spawnSend item).issued = s.issued := by
  rw [spawnSend]
  split_ifs <;> rfl

theorem issued_sendBatch (s : Pump β) (capacity : Bool) :
    (s.sendBatch capacity).2.issued = s.issued := by
  have hend : (match s.streamEnd with
      | some .closed => (false, { s with streamEnd := none, sender := false })
      | some (.errored message) => (false, { s with streamEnd := none }.spawnSend (.error message))
      | none => (false, s) : Bool × Pump β).2.issued = s.issued := by
    rcases s.streamEnd with _ | _ | message
    · rfl
    · rfl
    · exact issued_spawnSend _ _
  simp only [sendBatch]
  split_ifs
  · rfl
  · exact issued_spawnSend _ _
  · exact hend
  · rfl
  · rfl

/-- A read is issued only while no send waits. -/
theorem Flows.no_send_waits (h : s.Flows) {e : PumpEvent β}
    (hissued : s.issued < (s.step e).issued) : s.sends = [] := by
  cases e with
  | read outcome =>
    rw [Pump.step] at hissued
    split_ifs at hissued with hrunning hcan
    · refine h.held ?_
      simp only [canRead, Bool.and_eq_true] at hcan
      exact hcan.1.1.1
    · exact absurd hissued (Nat.lt_irrefl _)
    · exact absurd hissued (Nat.lt_irrefl _)
  | send capacity =>
    rw [Pump.step] at hissued
    split_ifs at hissued
    · have hsame := issued_sendBatch s capacity
      rcases hsend : s.sendBatch capacity with ⟨_ | _, t⟩ <;> rw [hsend] at hissued hsame
      · exact absurd (Nat.lt_of_lt_of_eq hissued hsame) (Nat.lt_irrefl _)
      · exact absurd (Nat.lt_of_lt_of_eq hissued hsame) (Nat.lt_irrefl _)
    · exact absurd hissued (Nat.lt_irrefl _)
  | arrive a =>
    rw [Pump.step] at hissued
    split_ifs at hissued
    · rw [pumpStep_eq] at hissued
      exact absurd hissued (Nat.lt_irrefl _)
    · exact absurd hissued (Nat.lt_irrefl _)
  | sent =>
    by_contra hne
    refine absurd hissued (Nat.not_lt.mpr (Nat.le_of_eq ?_))
    rw [Pump.step]
    by_cases hrunning : s.running = none
    · rw [if_pos hrunning]
      rcases hsends : s.sends with _ | ⟨_ | _, sends⟩
      · rfl
      · simp only
        split_ifs
        · rw [Pump.run, hrunning]
        · rfl
      · simp only
        split_ifs <;> rfl
    · rw [if_neg hrunning]
  | dropReceiver => exact absurd hissued (Nat.lt_irrefl _)

theorem bytesOf_append (l l' : List (Message β)) : bytesOf (l ++ l') = bytesOf l ++ bytesOf l' :=
  List.flatMap_append

/-- What a closed channel to which nothing was refused has accepted. -/
theorem handed_eq (hclosed : s.Closed) (hrefused : s.refused = none) :
    s.handed = s.accepted := by rw [handed, hclosed.2, hrefused]; simp

/-- **The body a pump sends**, over every run in which reads can be issued. What the channel
accepted are the bytes that were received, in order, up to what still waits or is in the batch; and
a prefix of them when the receiver has refused a send. A channel that is closed without a refusal
has accepted all bytes, without an error if the stream closed, and otherwise with the error as the
last message and the only one. It is not closed, without a refusal, while the stream goes on, and it
is closed as soon as the stream has ended, no send waits and `run` has returned. No read is issued
while a send waits, at most one read and one send are outstanding, each batch is below the limit
before its last chunk, and a refused chunk cancels the stream. -/
theorem pump_delivers (hrun : (pumpMachine β).RunWhere Reads initial s) :
    bytesOf s.accepted <+: s.received ∧
    (s.refused = none → bytesOf s.accepted ++ bytesOf s.sends ++ s.batch = s.received) ∧
    (s.Closed → s.refused = none → s.ended = some .closed →
      Chunks s.accepted ∧ bytesOf s.accepted = s.received) ∧
    (∀ message, s.Closed → s.refused = none → s.ended = some (.errored message) →
      ∃ q, s.accepted = q ++ [.error message] ∧ Chunks q ∧ bytesOf q = s.received) ∧
    (s.Closed → s.refused = none → s.ended ≠ none) ∧
    ((∀ message, s.ended ≠ some (.errored message)) → Chunks s.accepted) ∧
    (s.ended ≠ none → s.running = none → s.sends = [] → s.Closed) ∧
    (∀ e, s.issued < (s.step e).issued → s.sends = []) ∧
    s.issued ≤ s.arrivals.length + 1 ∧ s.sends.length ≤ 1 ∧
    (∀ bytes, .chunk bytes ∈ s.handed → s.IsBatch bytes) ∧
    ∀ bytes, s.refused = some (.chunk bytes) → s.cancelled = true := by
  have h : s.Flows := flows_initial.run hrun
  have hbytes := h.bytes
  rw [handed, bytesOf_append, bytesOf_append] at hbytes
  have haccepted (hchunks : Chunks s.handed) : Chunks s.accepted := by
    intro message hmem
    refine hchunks message ?_
    rw [handed, List.append_assoc]
    exact List.mem_append_left _ hmem
  refine ⟨?_, ?_, ?_, ?_, ?_, ?_, ?_, fun e => h.no_send_waits, ?_, h.sends, h.batches, h.cancelled⟩
  · rw [← hbytes, List.append_assoc, List.append_assoc]
    exact List.prefix_append ..
  · intro hrefused
    rw [hrefused, Option.toList_none, show bytesOf ([] : List (Message β)) = [] from rfl,
      List.append_nil] at hbytes
    exact hbytes
  -- a closed channel has everything: the other places of the end are excluded
  · intro hclosed hrefused hended
    have hhanded := handed_eq hclosed hrefused
    cases h.ending with
    | «open» _ _ _ hopen => exact absurd ⟨hclosed, hrefused⟩ hopen
    | pending _ _ _ hopen => exact absurd ⟨hclosed, hrefused⟩ hopen
    | closed _ _ hchunks _ hbatch _ =>
      have hall := h.bytes
      rw [hhanded, hbatch, List.append_nil] at hall
      exact ⟨hhanded ▸ hchunks, hall⟩
    | failed hended' =>
      rw [hended] at hended'
      cases hended'
  · intro message hclosed hrefused hended
    have hhanded := handed_eq hclosed hrefused
    cases h.ending with
    | «open» _ _ _ hopen => exact absurd ⟨hclosed, hrefused⟩ hopen
    | pending _ _ _ hopen => exact absurd ⟨hclosed, hrefused⟩ hopen
    | closed hended' =>
      rw [hended] at hended'
      cases hended'
    | failed hended' _ hlast hchunks _ hbatch =>
      rw [hended] at hended'
      cases hended'
      have hall := h.bytes
      rw [hlast, hbatch, List.append_nil, bytesOf_append] at hall
      exact ⟨_, hhanded.symm.trans hlast, hchunks, by simpa [bytesOf, Message.bytes] using hall⟩
  · intro hclosed hrefused hended
    obtain ⟨-, -, hopen⟩ := h.is_open hended
    exact hopen ⟨hclosed, hrefused⟩
  · intro hno
    cases h.ending with
    | «open» _ _ hchunks => exact haccepted hchunks
    | pending _ _ hchunks => exact haccepted hchunks
    | closed _ _ hchunks => exact haccepted hchunks
    | failed hended => exact absurd hended (hno _)
  · intro hended hrunning hsends
    refine ⟨?_, hsends⟩
    by_contra hsender
    obtain ⟨hreading, -, -⟩ := h.rest hrunning (eq_true_of_ne_false hsender)
    exact hended (h.reading hreading).1
  · rw [h.issued]
    split_ifs
    · exact Nat.le_refl _
    · exact Nat.le_succ _

/-- Two chunks arrive at once, the channel is full, a third chunk and then the end of the stream
arrive while the send waits. -/
def fullChannelRun : List (PumpEvent ℕ) :=
  [.read (.arrives (.chunk (some [1, 2]))), .read (.arrives (.chunk (some []))), .read .waits,
    .send false, .arrive (.chunk (some [3])), .read .waits, .send false, .sent, .read .waits,
    .send true, .read .waits, .send true, .arrive .close, .read .waits, .send true]

/-- Both batches were accepted, and the channel is closed. -/
theorem pump_delivers_full : ∃ s, (pumpMachine ℕ).RunWhere Reads initial s ∧
    s.accepted = [.chunk [1, 2], .chunk [3]] ∧ s.received = bytesOf s.accepted ∧
      Chunks s.accepted := by
  obtain ⟨s, hrun, hs⟩ := Machine.exists_runWhere_of_exec Reads fullChannelRun
    (M := pumpMachine ℕ) (s := initial) (P := fun s => decide
      (s.accepted = [.chunk [1, 2], .chunk [3]] ∧ (s.sender = false ∧ s.sends = []) ∧
        s.refused = none ∧ s.ended = some .closed))
    (by
      rintro e he s capacity rfl
      simp [fullChannelRun] at he) (by decide)
  obtain ⟨haccepted, hclosed, hrefused, hended⟩ := of_decide_eq_true hs
  obtain ⟨-, -, hdelivered, -⟩ := pump_delivers hrun
  obtain ⟨hchunks, hbytes⟩ := hdelivered hclosed hrefused hended
  exact ⟨s, hrun, haccepted, hbytes.symm, hchunks⟩

end Pump

end WebFetch
