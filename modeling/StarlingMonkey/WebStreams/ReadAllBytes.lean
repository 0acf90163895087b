import Mathlib.Data.List.Basic
import Mathlib.Logic.Function.Iterate
import StarlingMonkey.Lib.Run
import StarlingMonkey.WebStreams.Basic

/-!
# Reading all bytes of a stream

`read_all_bytes` drains a stream with internal read requests. The steps of a request run inside the
read that makes it, or later. A chunk's steps leave the next read to a microtask.

`ReadAll` is the stream as its reader sees it, and the state of the loop. The stream is any stream:
which chunk answers a read, and when it closes or errors, is up to the events. The steps of a chunk
that was in the queue run when the pull that the read makes has returned, so that anything may
happen to the stream before.

* `Reading`: the loop may take an answer.
* `Phase`: what the loop waits for. It is one thing at a time.
* `Nesting`: a read that is made on the stack of another one is made by a job.
* `readAllBytes_once`: how often the promise is settled, and with what.
-/

namespace WebStreams.ReadAllBytes

/-- A chunk: a `Uint8Array` object, by the bytes it represents, or another value. -/
inductive Value where
  | uint8Array (bytes : List UInt8)
  | other (v : ℕ)
deriving DecidableEq, Repr

/-- The state of the stream that is read, with its stored error. -/
inductive Source where
  | readable
  | closed
  | errored (e : JsError)
deriving DecidableEq, Repr

/-- What a read request was answered with. -/
inductive Answer where
  | chunk (v : Value)
  | close
  | error (e : JsError)
  /-- The read itself failed, for want of a buffer. -/
  | refused (e : JsError)
deriving DecidableEq, Repr

/-- How the promise is settled: from the outcome of `on_complete`, or with an error. -/
inductive Settlement (α : Type) where
  | completed (outcome : Except JsError α)
  | rejected (e : JsError)
deriving DecidableEq

/-- A read on the stack: whether a job made it, and the chunk from the queue that will answer it. -/
structure Frame where
  inJob : Bool
  chunk : Option Value
deriving DecidableEq, Repr

/-- What a readable stream does with a read. -/
inductive Reply where
  /-- A chunk is taken from the queue. The stream closes if it was the last one of a stream that is
  closing, and pulls otherwise. -/
  | dequeued (v : Value) (closes : Bool)
  /-- The request waits in `[[readRequests]]`. -/
  | waits
  /-- The buffer for the read cannot be allocated. -/
  | refused (e : JsError)
deriving DecidableEq, Repr

/-- The stream and its reader, `ReadAllBytesState`, and what has happened. -/
structure ReadAll (α : Type) where
  stream : Source
  /-- How many requests wait in the reader's `[[readRequests]]`. -/
  readRequests : ℕ
  /-- The reads on the stack. -/
  frames : List Frame
  /-- How often `read_next_fn` is queued. -/
  jobs : ℕ
  bytes : List UInt8
  /-- How many calls of `on_complete` have not returned. -/
  completing : ℕ
  /-- How the promise was settled. -/
  settled : List (Settlement α)
  /-- What `on_complete` was called with. -/
  completions : List (List UInt8)
  answers : List Answer
  /-- How many reads were made. -/
  reads : ℕ
deriving DecidableEq

/-- What happens: the loop begins, or runs its job; the innermost read returns; the stream answers a
request that waits, closes or errors; `on_complete` returns. -/
inductive ReadAllEvent (α : Type) where
  | start (reply : Reply)
  | job (reply : Reply)
  | returns
  | delivers (v : Value)
  | closes
  | errors (e : JsError)
  | completes (outcome : Except JsError α)

variable {α : Type}

/-- The rejection of a chunk that is not a `Uint8Array`. -/
def notUint8Array : JsError := .typeError "a body stream chunk must be a Uint8Array"

namespace ReadAll

/-! ### The code -/

/-- The promise is settled. -/
def settle (s : ReadAll α) (settlement : Settlement α) : ReadAll α :=
  { s with settled := s.settled ++ [settlement] }

/-- `read_all_bytes_chunk_steps`. -/
def chunkSteps (s : ReadAll α) (v : Value) : ReadAll α :=
  let s := { s with answers := s.answers ++ [Answer.chunk v] }
  match v with
  | .other _ => s.settle (.rejected notUint8Array)
  | .uint8Array chunk => { s with bytes := s.bytes ++ chunk, jobs := s.jobs + 1 }

/-- `read_all_bytes_close_steps`, up to the call of `on_complete`. -/
def closeSteps (s : ReadAll α) : ReadAll α :=
  { s with
    answers := s.answers ++ [Answer.close]
    bytes := []
    completions := s.completions ++ [s.bytes]
    completing := s.completing + 1 }

/-- `read_all_bytes_error_steps`. -/
def errorSteps (s : ReadAll α) (answer : Answer) (e : JsError) : ReadAll α :=
  { s with answers := s.answers ++ [answer] }.settle (.rejected e)

/-- `readable_stream_close`. -/
def streamClose (s : ReadAll α) : ReadAll α :=
  closeSteps^[s.readRequests] { s with stream := .closed, readRequests := 0 }

/-- `readable_stream_error`. -/
def streamError (s : ReadAll α) (e : JsError) : ReadAll α :=
  (fun s => s.errorSteps (.error e) e)^[s.readRequests]
    { s with stream := .errored e, readRequests := 0 }

/-- `read_next`: the stream answers at once, or the request waits. -/
def readNext (s : ReadAll α) (inJob : Bool) (reply : Reply) : ReadAll α :=
  let s := { s with reads := s.reads + 1 }
  let onStack (chunk : Option Value) : ReadAll α := { s with frames := ⟨inJob, chunk⟩ :: s.frames }
  match s.stream with
  | .closed => (onStack none).closeSteps
  | .errored e => (onStack none).errorSteps (.error e) e
  | .readable =>
    match reply with
    | .dequeued v closes => if closes then (onStack (some v)).streamClose else onStack (some v)
    | .waits => { onStack none with readRequests := s.readRequests + 1 }
    | .refused e => (onStack none).errorSteps (.refused e) e

/-- What happens at an event. An event that cannot happen now changes nothing. The job queue is not
drained by a job of its own. -/
def step (s : ReadAll α) : ReadAllEvent α → ReadAll α
  | .start reply => if s.reads = 0 then s.readNext false reply else s
  | .job reply =>
    if 0 < s.jobs && !s.frames.any Frame.inJob then
      { s with jobs := s.jobs - 1 }.readNext true reply
    else s
  | .returns =>
    match s.frames with
    | [] => s
    | ⟨_, none⟩ :: frames => { s with frames }
    | ⟨_, some v⟩ :: frames => { s with frames }.chunkSteps v
  | .delivers v =>
    if s.stream = .readable && 0 < s.readRequests then
      { s with readRequests := s.readRequests - 1 }.chunkSteps v
    else s
  | .closes => if s.stream = .readable then s.streamClose else s
  | .errors e => if s.stream = .readable then s.streamError e else s
  | .completes outcome =>
    if 0 < s.completing then
      { s with completing := s.completing - 1 }.settle (.completed outcome)
    else s

/-- `read_all_bytes` has made the promise and the state. -/
def initial (stream : Source) : ReadAll α where
  stream
  readRequests := 0
  frames := []
  jobs := 0
  bytes := []
  completing := 0
  settled := []
  completions := []
  answers := []
  reads := 0

/-- How many reads are outstanding: requests that wait, and chunks about to be handed over. -/
def outstanding (s : ReadAll α) : ℕ :=
  s.readRequests + (s.frames.filterMap Frame.chunk).length

end ReadAll

/-- The machine of a read loop. -/
def readAllMachine (α : Type) : Machine Empty Empty (ReadAll α) (ReadAllEvent α) :=
  ⟨fun s ev => pure (s.step ev)⟩

/-! ### The loop -/

/-- The answers that gave the arrays. -/
def arrayAnswers (arrays : List (List UInt8)) : List Answer :=
  arrays.map fun array => .chunk (.uint8Array array)

/-- The loop has made a read, has been given `arrays` so far, and may take the next answer. -/
structure Reading (arrays : List (List UInt8)) (s : ReadAll α) : Prop where
  readRequests : s.readRequests = 0
  frames : s.frames.filterMap Frame.chunk = []
  jobs : s.jobs = 0
  bytes : s.bytes = arrays.flatten
  completing : s.completing = 0
  settled : s.settled = []
  completions : s.completions = []
  answers : s.answers = arrayAnswers arrays

/-- The loop is over: nothing is under way but a call of `on_complete`. -/
structure Over (s : ReadAll α) : Prop where
  readRequests : s.readRequests = 0
  frames : s.frames.filterMap Frame.chunk = []
  jobs : s.jobs = 0
  reads : 0 < s.reads

/-- What the loop waits for. -/
inductive Phase (s : ReadAll α) : Prop where
  | fresh (reading : Reading [] s) (reads : s.reads = 0)
  /-- The stream answers the request. -/
  | waiting (arrays : List (List UInt8)) (stream : s.stream = .readable)
      (readRequests : s.readRequests = 1) (reads : 0 < s.reads)
      (reading : Reading arrays { s with readRequests := 0 })
  /-- The read hands the chunk over. -/
  | holding (arrays : List (List UInt8)) (inJob : Bool) (v : Value) (frames : List Frame)
      (hframes : s.frames = ⟨inJob, some v⟩ :: frames) (reads : 0 < s.reads)
      (reading : Reading arrays { s with frames })
  /-- The job makes the next read. -/
  | queued (arrays : List (List UInt8)) (jobs : s.jobs = 1) (reads : 0 < s.reads)
      (reading : Reading arrays { s with jobs := 0 })
  /-- `on_complete` returns. -/
  | completing (arrays : List (List UInt8)) (ended : Over s) (stream : s.stream = .closed)
      (completing : s.completing = 1) (settled : s.settled = [])
      (completions : s.completions = [arrays.flatten])
      (answers : s.answers = arrayAnswers arrays ++ [.close])
  | completed (arrays : List (List UInt8)) (outcome : Except JsError α) (ended : Over s)
      (stream : s.stream = .closed) (completing : s.completing = 0)
      (settled : s.settled = [.completed outcome]) (completions : s.completions = [arrays.flatten])
      (answers : s.answers = arrayAnswers arrays ++ [.close])
  | rejected (arrays : List (List UInt8)) (answer : Answer) (e : JsError) (ended : Over s)
      (completing : s.completing = 0) (settled : s.settled = [.rejected e])
      (completions : s.completions = []) (answers : s.answers = arrayAnswers arrays ++ [answer])
      (cause : answer = .error e ∧ s.stream = .errored e ∨ answer = .refused e ∨
        e = notUint8Array ∧ ∃ v, answer = .chunk (.other v))

/-! ### The steps of a request -/

section Steps

variable {s : ReadAll α} {arrays : List (List UInt8)}

/-- A chunk: the next read is left to a job, or the promise is rejected. -/
theorem Reading.chunkSteps (h : Reading arrays s) (hreads : 0 < s.reads) (v : Value) :
    Phase (s.chunkSteps v) := by
  obtain ⟨hrequests, hframes, hjobs, hbytes, hcompleting, hsettled, hcompletions, hanswers⟩ := h
  cases v with
  | uint8Array chunk =>
    refine .queued (arrays ++ [chunk]) (congrArg (· + 1) hjobs) hreads
      ⟨hrequests, hframes, rfl, ?_, hcompleting, hsettled, hcompletions, ?_⟩
    · change s.bytes ++ chunk = _
      rw [hbytes, List.flatten_append, List.flatten_singleton]
    · change s.answers ++ _ = _
      rw [hanswers, arrayAnswers, arrayAnswers, List.map_append]
      rfl
  | other v =>
    exact .rejected arrays (.chunk (.other v)) notUint8Array ⟨hrequests, hframes, hjobs, hreads⟩
      hcompleting (congrArg (· ++ _) hsettled) hcompletions (congrArg (· ++ _) hanswers)
      (.inr (.inr ⟨rfl, v, rfl⟩))

/-- The close: `on_complete` is called with all the bytes. -/
theorem Reading.closeSteps (h : Reading arrays s) (hreads : 0 < s.reads)
    (hstream : s.stream = .closed) : Phase s.closeSteps := by
  obtain ⟨hrequests, hframes, hjobs, hbytes, hcompleting, hsettled, hcompletions, hanswers⟩ := h
  refine .completing arrays ⟨hrequests, hframes, hjobs, hreads⟩ hstream
    (congrArg (· + 1) hcompleting) hsettled ?_ (congrArg (· ++ _) hanswers)
  change s.completions ++ [s.bytes] = _
  rw [hcompletions, hbytes, List.nil_append]

/-- An error: the promise is rejected with it. -/
theorem Reading.errorSteps (h : Reading arrays s) (hreads : 0 < s.reads) {answer : Answer}
    {e : JsError} (hcause : answer = .error e ∧ s.stream = .errored e ∨ answer = .refused e) :
    Phase (s.errorSteps answer e) := by
  obtain ⟨hrequests, hframes, hjobs, hbytes, hcompleting, hsettled, hcompletions, hanswers⟩ := h
  exact .rejected arrays answer e ⟨hrequests, hframes, hjobs, hreads⟩ hcompleting
    (congrArg (· ++ _) hsettled) hcompletions (congrArg (· ++ _) hanswers)
    (hcause.imp_right .inl)

/-- A read. -/
theorem Reading.readNext (h : Reading arrays s) (inJob : Bool) (reply : Reply) :
    Phase (s.readNext inJob reply) := by
  have hreads : 0 < s.reads + 1 := Nat.succ_pos _
  have hstack :
      Reading arrays { s with reads := s.reads + 1, frames := ⟨inJob, none⟩ :: s.frames } :=
    ⟨h.readRequests, h.frames, h.jobs, h.bytes, h.completing, h.settled, h.completions, h.answers⟩
  have hheld (stream : Source) (v : Value) : Phase { s with
      stream, reads := s.reads + 1, frames := ⟨inJob, some v⟩ :: s.frames } :=
    .holding arrays inJob v s.frames rfl hreads ⟨h.readRequests, h.frames, h.jobs, h.bytes,
      h.completing, h.settled, h.completions, h.answers⟩
  obtain ⟨stream, readRequests, frames, jobs, bytes, completing, settled, completions, answers,
    reads⟩ := s
  cases stream with
  | closed => exact hstack.closeSteps hreads rfl
  | errored e => exact hstack.errorSteps hreads (.inl ⟨rfl, rfl⟩)
  | readable =>
    cases reply with
    | dequeued v closes =>
      cases closes with
      | false => exact hheld .readable v
      | true =>
        -- No request waits, so that the close has no steps to run.
        obtain rfl : readRequests = 0 := h.readRequests
        exact hheld .closed v
    | waits =>
      exact .waiting arrays rfl (congrArg (· + 1) h.readRequests) hreads ⟨rfl, h.frames, h.jobs,
        h.bytes, h.completing, h.settled, h.completions, h.answers⟩
    | refused e => exact hstack.errorSteps hreads (.inr rfl)

end Steps

namespace Phase

variable {s : ReadAll α}

/-- A request that waits is answered with a chunk. -/
theorem delivers (h : Phase s) (hrequests : 0 < s.readRequests) (v : Value) :
    Phase ({ s with readRequests := s.readRequests - 1 }.chunkSteps v) := by
  cases h with
  | waiting arrays stream hone reads reading =>
    have hnone : s.readRequests - 1 = 0 := by rw [hone]
    rw [hnone]
    exact reading.chunkSteps reads v
  | fresh reading => exact absurd reading.readRequests hrequests.ne'
  | holding arrays inJob v frames hframes reads reading =>
    exact absurd reading.readRequests hrequests.ne'
  | queued arrays jobs reads reading => exact absurd reading.readRequests hrequests.ne'
  | completing arrays ended => exact absurd ended.readRequests hrequests.ne'
  | completed arrays outcome ended => exact absurd ended.readRequests hrequests.ne'
  | rejected arrays answer e ended => exact absurd ended.readRequests hrequests.ne'

/-- The steps that a stream which closes or errors runs for each request that waits. -/
theorem ends (h : Phase s) (hreadable : s.stream = .readable) (stream : Source)
    {steps : ReadAll α → ReadAll α}
    (hsteps : ∀ arrays, Reading arrays { s with stream, readRequests := 0 } → 0 < s.reads →
      Phase (steps { s with stream, readRequests := 0 })) :
    Phase (steps^[s.readRequests] { s with stream, readRequests := 0 }) := by
  cases h with
  | waiting arrays _ hone reads reading =>
    rw [hone]
    exact hsteps arrays ⟨rfl, reading.frames, reading.jobs, reading.bytes, reading.completing,
      reading.settled, reading.completions, reading.answers⟩ reads
  | fresh reading reads =>
    rw [reading.readRequests]
    exact .fresh ⟨rfl, reading.frames, reading.jobs, reading.bytes, reading.completing,
      reading.settled, reading.completions, reading.answers⟩ reads
  | holding arrays inJob v frames hframes reads reading =>
    rw [show s.readRequests = 0 from reading.readRequests]
    exact .holding arrays inJob v frames hframes reads ⟨rfl, reading.frames, reading.jobs,
      reading.bytes, reading.completing, reading.settled, reading.completions, reading.answers⟩
  | queued arrays jobs reads reading =>
    rw [show s.readRequests = 0 from reading.readRequests]
    exact .queued arrays jobs reads ⟨rfl, reading.frames, rfl, reading.bytes, reading.completing,
      reading.settled, reading.completions, reading.answers⟩
  | completing arrays ended hclosed => rw [hclosed] at hreadable; cases hreadable
  | completed arrays outcome ended hclosed => rw [hclosed] at hreadable; cases hreadable
  | rejected arrays answer e ended completing settled completions answers cause =>
    rw [ended.readRequests]
    refine .rejected arrays answer e ⟨rfl, ended.frames, ended.jobs, ended.reads⟩ completing settled
      completions answers (cause.imp_left fun h => ?_)
    rw [h.2] at hreadable
    cases hreadable

/-- A read that has nothing to hand over returns. -/
theorem returns_none (h : Phase s) {inJob : Bool} {frames : List Frame}
    (hframes : s.frames = ⟨inJob, none⟩ :: frames) : Phase { s with frames } := by
  have hpop (hheld : s.frames.filterMap Frame.chunk = []) : frames.filterMap Frame.chunk = [] := by
    rw [hframes] at hheld
    exact hheld
  have hreading {arrays : List (List UInt8)} {t : ReadAll α} (hr : Reading arrays t)
      (ht : t.frames = s.frames) : Reading arrays { t with frames } :=
    ⟨hr.readRequests, hpop (ht ▸ hr.frames), hr.jobs, hr.bytes, hr.completing, hr.settled,
      hr.completions, hr.answers⟩
  have hover (ho : Over s) : Over { s with frames } :=
    ⟨ho.readRequests, hpop ho.frames, ho.jobs, ho.reads⟩
  cases h with
  | fresh reading reads => exact .fresh (hreading reading rfl) reads
  | waiting arrays stream readRequests reads reading =>
    exact .waiting arrays stream readRequests reads (hreading reading rfl)
  | holding arrays inJob' v frames' hframes' reads reading =>
    rw [hframes] at hframes'
    cases hframes'
  | queued arrays jobs reads reading => exact .queued arrays jobs reads (hreading reading rfl)
  | completing arrays ended stream completing settled completions answers =>
    exact .completing arrays (hover ended) stream completing settled completions answers
  | completed arrays outcome ended stream completing settled completions answers =>
    exact .completed arrays outcome (hover ended) stream completing settled completions answers
  | rejected arrays answer e ended completing settled completions answers cause =>
    exact .rejected arrays answer e (hover ended) completing settled completions answers cause

/-- A read that has a chunk to hand over returns. -/
theorem returns_some (h : Phase s) {inJob : Bool} {v : Value} {frames : List Frame}
    (hframes : s.frames = ⟨inJob, some v⟩ :: frames) :
    Phase ({ s with frames }.chunkSteps v) := by
  have hne (hheld : s.frames.filterMap Frame.chunk = []) : False := by
    rw [hframes] at hheld
    cases hheld
  cases h with
  | holding arrays inJob' v' frames' hframes' reads reading =>
    rw [hframes] at hframes'
    cases hframes'
    exact reading.chunkSteps reads v
  | fresh reading => exact (hne reading.frames).elim
  | waiting arrays stream readRequests reads reading => exact (hne reading.frames).elim
  | queued arrays jobs reads reading => exact (hne reading.frames).elim
  | completing arrays ended => exact (hne ended.frames).elim
  | completed arrays outcome ended => exact (hne ended.frames).elim
  | rejected arrays answer e ended => exact (hne ended.frames).elim

/-- The job of the loop runs. -/
theorem job (h : Phase s) (hjobs : 0 < s.jobs) (reply : Reply) :
    Phase ({ s with jobs := s.jobs - 1 }.readNext true reply) := by
  cases h with
  | queued arrays hone reads reading =>
    have hnone : s.jobs - 1 = 0 := by rw [hone]
    rw [hnone]
    exact reading.readNext true reply
  | fresh reading => exact absurd reading.jobs hjobs.ne'
  | waiting arrays stream readRequests reads reading => exact absurd reading.jobs hjobs.ne'
  | holding arrays inJob v frames hframes reads reading => exact absurd reading.jobs hjobs.ne'
  | completing arrays ended => exact absurd ended.jobs hjobs.ne'
  | completed arrays outcome ended => exact absurd ended.jobs hjobs.ne'
  | rejected arrays answer e ended => exact absurd ended.jobs hjobs.ne'

/-- The loop begins. -/
theorem start (h : Phase s) (hreads : s.reads = 0) (reply : Reply) :
    Phase (s.readNext false reply) := by
  cases h with
  | fresh reading => exact reading.readNext false reply
  | waiting arrays stream readRequests reads reading => exact absurd hreads reads.ne'
  | holding arrays inJob v frames hframes reads reading => exact absurd hreads reads.ne'
  | queued arrays jobs reads reading => exact absurd hreads reads.ne'
  | completing arrays ended => exact absurd hreads ended.reads.ne'
  | completed arrays outcome ended => exact absurd hreads ended.reads.ne'
  | rejected arrays answer e ended => exact absurd hreads ended.reads.ne'

/-- `on_complete` returns. -/
theorem completes (h : Phase s) (hcompleting : 0 < s.completing) (outcome : Except JsError α) :
    Phase ({ s with completing := s.completing - 1 }.settle (.completed outcome)) := by
  cases h with
  | completing arrays ended stream hone settled completions answers =>
    exact .completed arrays outcome ⟨ended.readRequests, ended.frames, ended.jobs, ended.reads⟩
      stream (by rw [ReadAll.settle, hone]) (congrArg (· ++ _) settled) completions answers
  | fresh reading => exact absurd reading.completing hcompleting.ne'
  | waiting arrays stream readRequests reads reading =>
    exact absurd reading.completing hcompleting.ne'
  | holding arrays inJob v frames hframes reads reading =>
    exact absurd reading.completing hcompleting.ne'
  | queued arrays jobs reads reading => exact absurd reading.completing hcompleting.ne'
  | completed arrays outcome ended stream hnone => exact absurd hnone hcompleting.ne'
  | rejected arrays answer e ended hnone => exact absurd hnone hcompleting.ne'

/-- **A step of the loop or of the stream.** -/
theorem step (h : Phase s) (ev : ReadAllEvent α) : Phase (s.step ev) := by
  cases ev with
  | start reply =>
    rw [ReadAll.step]
    split
    next hreads => exact h.start hreads reply
    next => exact h
  | job reply =>
    rw [ReadAll.step]
    split
    next hjob =>
      rw [Bool.and_eq_true, decide_eq_true_eq] at hjob
      exact h.job hjob.1 reply
    next => exact h
  | returns =>
    rw [ReadAll.step.eq_def]
    rcases hframes : s.frames with _ | ⟨⟨inJob, _ | v⟩, frames⟩
    · exact h
    · exact h.returns_none hframes
    · exact h.returns_some hframes
  | delivers v =>
    rw [ReadAll.step]
    split
    next hdelivers =>
      rw [Bool.and_eq_true, decide_eq_true_eq, decide_eq_true_eq] at hdelivers
      exact h.delivers hdelivers.2 v
    next => exact h
  | closes =>
    rw [ReadAll.step]
    split
    next hreadable =>
      exact h.ends hreadable .closed fun arrays hr hreads => hr.closeSteps hreads rfl
    next => exact h
  | errors e =>
    rw [ReadAll.step]
    split
    next hreadable =>
      exact h.ends hreadable (.errored e) fun arrays hr hreads =>
        hr.errorSteps hreads (.inl ⟨rfl, rfl⟩)
    next => exact h
  | completes outcome =>
    rw [ReadAll.step]
    split
    next hcompleting => exact h.completes hcompleting outcome
    next => exact h

/-- In every run the loop waits for one thing. -/
theorem of_run {stream : Source} (hrun : (readAllMachine α).Run (.initial stream) s) : Phase s := by
  refine hrun.inv ?_ fun s ev t hs _ ht => ?_
  · exact .fresh ⟨rfl, rfl, rfl, rfl, rfl, rfl, rfl, rfl⟩ rfl
  · obtain rfl : s.step ev = t := Option.some.inj ht
    exact hs.step ev

/-- Once the promise is settled, it stays so, and no further read is made. -/
theorem step_settled (h : Phase s) (hsettled : s.settled ≠ []) (ev : ReadAllEvent α) :
    (s.step ev).settled = s.settled ∧ (s.step ev).reads = s.reads := by
  have hover : Over s ∧ s.completing = 0 := by
    cases h with
    | fresh reading => exact absurd reading.settled hsettled
    | waiting arrays stream readRequests reads reading => exact absurd reading.settled hsettled
    | holding arrays inJob v frames hframes reads reading => exact absurd reading.settled hsettled
    | queued arrays jobs reads reading => exact absurd reading.settled hsettled
    | completing arrays ended stream completing settled => exact absurd settled hsettled
    | completed arrays outcome ended stream completing => exact ⟨ended, completing⟩
    | rejected arrays answer e ended completing => exact ⟨ended, completing⟩
  obtain ⟨⟨hrequests, hframes, hjobs, hreads⟩, hcompleting⟩ := hover
  cases ev with
  | start reply => rw [ReadAll.step, if_neg hreads.ne']; exact ⟨rfl, rfl⟩
  | job reply => rw [ReadAll.step, hjobs]; exact ⟨rfl, rfl⟩
  | returns =>
    rw [ReadAll.step.eq_def]
    rcases hframe : s.frames with _ | ⟨⟨inJob, _ | v⟩, frames⟩
    · exact ⟨rfl, rfl⟩
    · exact ⟨rfl, rfl⟩
    · rw [hframe] at hframes
      cases hframes
  | delivers v => rw [ReadAll.step, hrequests, Bool.and_comm]; exact ⟨rfl, rfl⟩
  | closes =>
    rw [ReadAll.step, ReadAll.streamClose, hrequests]
    split <;> exact ⟨rfl, rfl⟩
  | errors e =>
    rw [ReadAll.step, ReadAll.streamError, hrequests]
    split <;> exact ⟨rfl, rfl⟩
  | completes outcome => rw [ReadAll.step, hcompleting]; exact ⟨rfl, rfl⟩

end Phase

/-! ### The stack -/

/-- Which of the reads on the stack a job may have made. -/
def nestings : List (List Bool) := [[], [false], [true], [true, false]]

private theorem nestings_tail : ∀ l ∈ nestings, l.tail ∈ nestings := by decide

private theorem nestings_push : ∀ l ∈ nestings, l.any id = false → true :: l ∈ nestings := by decide

/-- Of the reads on the stack, at most the innermost one of two was made by a job. -/
def Nesting (s : ReadAll α) : Prop :=
  s.frames.map Frame.inJob ∈ nestings ∧ (s.reads = 0 → s.frames = [])

namespace ReadAll

variable {s t : ReadAll α}

/-- What the steps of a request leave as it is. -/
structure SameStack (s t : ReadAll α) : Prop where
  frames : t.frames = s.frames
  reads : t.reads = s.reads

theorem sameStack_chunkSteps (s : ReadAll α) (v : Value) : SameStack s (s.chunkSteps v) := by
  cases v <;> exact ⟨rfl, rfl⟩

/-- The same steps for each of `n` requests. -/
theorem sameStack_iterate {steps : ReadAll α → ReadAll α} (h : ∀ s, SameStack s (steps s)) (n : ℕ)
    (s : ReadAll α) : SameStack s (steps^[n] s) := by
  induction n with
  | zero => exact ⟨rfl, rfl⟩
  | succ n ih =>
    rw [Function.iterate_succ_apply']
    exact ⟨(h _).frames.trans ih.frames, (h _).reads.trans ih.reads⟩

theorem sameStack_streamClose (s : ReadAll α) : SameStack s s.streamClose :=
  have hsteps : ∀ s : ReadAll α, SameStack s s.closeSteps := fun _ => ⟨rfl, rfl⟩
  have h := sameStack_iterate hsteps s.readRequests
    { s with stream := .closed, readRequests := 0 }
  ⟨h.frames, h.reads⟩

theorem sameStack_streamError (s : ReadAll α) (e : JsError) : SameStack s (s.streamError e) :=
  have hsteps : ∀ s : ReadAll α, SameStack s (s.errorSteps (.error e) e) := fun _ => ⟨rfl, rfl⟩
  have h := sameStack_iterate hsteps s.readRequests
    { s with stream := .errored e, readRequests := 0 }
  ⟨h.frames, h.reads⟩

/-- A read is pushed on the stack. -/
theorem readNext_stack (s : ReadAll α) (inJob : Bool) (reply : Reply) :
    (s.readNext inJob reply).frames.map Frame.inJob = inJob :: s.frames.map Frame.inJob ∧
      (s.readNext inJob reply).reads = s.reads + 1 := by
  obtain ⟨stream, readRequests, frames, jobs, bytes, completing, settled, completions, answers,
    reads⟩ := s
  cases stream with
  | closed => exact ⟨rfl, rfl⟩
  | errored e => exact ⟨rfl, rfl⟩
  | readable =>
    cases reply with
    | dequeued v closes =>
      cases closes with
      | false => exact ⟨rfl, rfl⟩
      | true =>
        obtain ⟨hframes, hreads⟩ := sameStack_streamClose (⟨.readable, readRequests,
          ⟨inJob, some v⟩ :: frames, jobs, bytes, completing, settled, completions, answers,
          reads + 1⟩ : ReadAll α)
        exact ⟨congrArg (List.map Frame.inJob) hframes, hreads⟩
    | waits => exact ⟨rfl, rfl⟩
    | refused e => exact ⟨rfl, rfl⟩

end ReadAll

namespace Nesting

variable {s t : ReadAll α}

theorem frame (h : Nesting s) (hst : s.SameStack t) : Nesting t := by
  rw [Nesting, hst.frames, hst.reads]
  exact h

/-- A read returns. -/
theorem pop (h : Nesting s) {f : Frame} {frames : List Frame} (hframes : s.frames = f :: frames) :
    Nesting { s with frames } := by
  obtain ⟨hstack, hfresh⟩ := h
  refine ⟨?_, fun hreads => ?_⟩
  · rw [hframes] at hstack
    exact nestings_tail _ hstack
  · rw [hfresh hreads] at hframes
    cases hframes

theorem step (h : Nesting s) (ev : ReadAllEvent α) : Nesting (s.step ev) := by
  cases ev with
  | start reply =>
    rw [ReadAll.step]
    split
    next hreads =>
      obtain ⟨hframes, hcount⟩ := s.readNext_stack false reply
      rw [h.2 hreads] at hframes
      exact ⟨by rw [hframes]; decide, fun hzero => by rw [hcount] at hzero; cases hzero⟩
    next => exact h
  | job reply =>
    rw [ReadAll.step]
    split
    next hjob =>
      obtain ⟨hframes, hcount⟩ := ReadAll.readNext_stack { s with jobs := s.jobs - 1 } true reply
      rw [Bool.and_eq_true, Bool.not_eq_true'] at hjob
      refine ⟨?_, fun hzero => by rw [hcount] at hzero; cases hzero⟩
      rw [hframes]
      exact nestings_push _ h.1 (by rw [List.any_map]; exact hjob.2)
    next => exact h
  | returns =>
    rw [ReadAll.step.eq_def]
    rcases hframes : s.frames with _ | ⟨⟨inJob, _ | v⟩, frames⟩
    · exact h
    · exact h.pop hframes
    · exact (h.pop hframes).frame (ReadAll.sameStack_chunkSteps _ v)
  | delivers v =>
    rw [ReadAll.step]
    split
    next =>
      have hsame := ReadAll.sameStack_chunkSteps { s with readRequests := s.readRequests - 1 } v
      exact h.frame ⟨hsame.frames, hsame.reads⟩
    next => exact h
  | closes =>
    rw [ReadAll.step]
    split
    next => exact h.frame s.sameStack_streamClose
    next => exact h
  | errors e =>
    rw [ReadAll.step]
    split
    next => exact h.frame (s.sameStack_streamError e)
    next => exact h
  | completes outcome =>
    rw [ReadAll.step]
    split
    next => exact h.frame ⟨rfl, rfl⟩
    next => exact h

theorem of_run {stream : Source} (hrun : (readAllMachine α).Run (.initial stream) s) :
    Nesting s := by
  refine hrun.inv ⟨List.mem_cons_self, fun _ => rfl⟩ fun s ev t hs _ ht => ?_
  obtain rfl : s.step ev = t := Option.some.inj ht
  exact hs.step ev

end Nesting

/-! ### What comes of it -/

/-- Nothing is left to run: no read is on the stack, no job queued and no `on_complete` open. -/
def ReadAll.AtRest (s : ReadAll α) : Prop :=
  0 < s.reads ∧ s.frames = [] ∧ s.jobs = 0 ∧ s.completing = 0

/-- **The stream is collected once.** -/
structure CollectedOnce (s : ReadAll α) : Prop where
  settled_once : s.settled.length ≤ 1
  completed_once : s.completions.length ≤ 1
  one_read : s.outstanding ≤ 1
  flat : s.frames.length ≤ 2
  /-- After a settlement, no further read is made. -/
  final : s.settled ≠ [] → ∀ t, (readAllMachine α).Run s t →
    t.settled = s.settled ∧ t.reads = s.reads
  /-- `on_complete` had all the bytes, and the stream closed after arrays only. -/
  completed : ∀ outcome, .completed outcome ∈ s.settled → s.stream = .closed ∧
    ∃ arrays, s.answers = arrayAnswers arrays ++ [.close] ∧ s.completions = [arrays.flatten]
  /-- The error is that of the stream or of the failed read, or that of a chunk. -/
  rejected : ∀ e, .rejected e ∈ s.settled → ∃ arrays answer,
    s.answers = arrayAnswers arrays ++ [answer] ∧
    (answer = .error e ∧ s.stream = .errored e ∨ answer = .refused e ∨
      e = notUint8Array ∧ ∃ v, answer = .chunk (.other v))
  /-- At rest, the promise is pending only while the stream owes the answer to a read. -/
  owed : s.AtRest → s.settled = [] → s.stream = .readable ∧ s.readRequests = 1 ∧
    ∃ arrays, s.answers = arrayAnswers arrays
  /-- At rest, a stream that has closed after arrays only has settled the promise so. -/
  closes : s.AtRest → s.stream = .closed →
    (∀ answer ∈ s.answers, answer = .close ∨ ∃ array, answer = .chunk (.uint8Array array)) →
    ∃ outcome, s.settled = [.completed outcome]
  /-- The same for a stream that has errored. -/
  errors : s.AtRest → ∀ e, s.stream = .errored e →
    (∀ answer ∈ s.answers, answer = .error e ∨ ∃ array, answer = .chunk (.uint8Array array)) →
    s.settled = [.rejected e]
  /-- A chunk that is not an array has settled the promise. -/
  spoiled : ∀ v, .chunk (.other v) ∈ s.answers → s.settled = [.rejected notUint8Array]

private theorem other_not_mem (v : ℕ) (arrays : List (List UInt8)) :
    .chunk (.other v) ∉ arrayAnswers arrays := by
  intro h
  obtain ⟨array, -, heq⟩ := List.mem_map.mp h
  cases heq

namespace Phase

variable {s : ReadAll α}

/-- How much is under way, and what the end of the loop leaves behind. -/
theorem bounds (h : Phase s) :
    s.settled.length ≤ 1 ∧ s.completions.length ≤ 1 ∧ s.outstanding ≤ 1 := by
  have hover (ho : Over s) : s.outstanding ≤ 1 := by
    rw [ReadAll.outstanding, ho.readRequests, ho.frames]
    exact Nat.zero_le _
  have hreading {arrays : List (List UInt8)} {t : ReadAll α} (hr : Reading arrays t)
      (hsettled : t.settled = s.settled) (hcompletions : t.completions = s.completions) :
      s.settled.length ≤ 1 ∧ s.completions.length ≤ 1 := by
    rw [← hsettled, ← hcompletions, hr.settled, hr.completions]
    exact ⟨Nat.zero_le _, Nat.zero_le _⟩
  cases h with
  | fresh reading reads =>
    obtain ⟨hs, hc⟩ := hreading reading rfl rfl
    refine ⟨hs, hc, ?_⟩
    rw [ReadAll.outstanding, reading.readRequests, reading.frames]
    exact Nat.zero_le _
  | waiting arrays stream readRequests reads reading =>
    obtain ⟨hs, hc⟩ := hreading reading rfl rfl
    refine ⟨hs, hc, ?_⟩
    rw [ReadAll.outstanding, readRequests, show s.frames.filterMap Frame.chunk = [] from
      reading.frames]
    exact Nat.le_refl _
  | holding arrays inJob v frames hframes reads reading =>
    obtain ⟨hs, hc⟩ := hreading reading rfl rfl
    refine ⟨hs, hc, ?_⟩
    rw [ReadAll.outstanding, show s.readRequests = 0 from reading.readRequests, hframes,
      List.filterMap_cons_some (show Frame.chunk ⟨inJob, some v⟩ = some v from rfl),
      show frames.filterMap Frame.chunk = [] from reading.frames]
    exact Nat.le_refl _
  | queued arrays jobs reads reading =>
    obtain ⟨hs, hc⟩ := hreading reading rfl rfl
    refine ⟨hs, hc, ?_⟩
    rw [ReadAll.outstanding, show s.readRequests = 0 from reading.readRequests,
      show s.frames.filterMap Frame.chunk = [] from reading.frames]
    exact Nat.zero_le _
  | completing arrays ended stream completing settled completions =>
    exact ⟨by rw [settled]; exact Nat.zero_le _, by rw [completions]; exact Nat.le_refl _,
      hover ended⟩
  | completed arrays outcome ended stream completing settled completions =>
    exact ⟨by rw [settled]; exact Nat.le_refl _, by rw [completions]; exact Nat.le_refl _,
      hover ended⟩
  | rejected arrays answer e ended completing settled completions =>
    exact ⟨by rw [settled]; exact Nat.le_refl _, by rw [completions]; exact Nat.zero_le _,
      hover ended⟩

/-- How the promise is settled, if it is. -/
inductive Settled (s : ReadAll α) : Prop where
  | pending (arrays : List (List UInt8)) (settled : s.settled = [])
      (answers : s.answers = arrayAnswers arrays ∨ s.answers = arrayAnswers arrays ++ [.close])
      (owed : s.AtRest → s.stream = .readable ∧ s.readRequests = 1 ∧
        s.answers = arrayAnswers arrays)
  | completed (arrays : List (List UInt8)) (outcome : Except JsError α)
      (settled : s.settled = [.completed outcome]) (stream : s.stream = .closed)
      (completions : s.completions = [arrays.flatten])
      (answers : s.answers = arrayAnswers arrays ++ [.close])
  | rejected (arrays : List (List UInt8)) (answer : Answer) (e : JsError)
      (settled : s.settled = [.rejected e]) (answers : s.answers = arrayAnswers arrays ++ [answer])
      (cause : answer = .error e ∧ s.stream = .errored e ∨ answer = .refused e ∨
        e = notUint8Array ∧ ∃ v, answer = .chunk (.other v))

theorem settled_cases (h : Phase s) : Settled s := by
  cases h with
  | fresh reading reads =>
    exact .pending [] reading.settled (.inl reading.answers) fun hrest => absurd reads hrest.1.ne'
  | waiting arrays stream readRequests reads reading =>
    exact .pending arrays reading.settled (.inl reading.answers) fun _ =>
      ⟨stream, readRequests, reading.answers⟩
  | holding arrays inJob v frames hframes reads reading =>
    exact .pending arrays reading.settled (.inl reading.answers) fun hrest => by
      rw [hrest.2.1] at hframes
      cases hframes
  | queued arrays jobs reads reading =>
    exact .pending arrays reading.settled (.inl reading.answers) fun hrest => by
      rw [hrest.2.2.1] at jobs
      cases jobs
  | completing arrays ended stream completing settled completions answers =>
    exact .pending arrays settled (.inr answers) fun hrest => by
      rw [hrest.2.2.2] at completing
      cases completing
  | completed arrays outcome ended stream completing settled completions answers =>
    exact .completed arrays outcome settled stream completions answers
  | rejected arrays answer e ended completing settled completions answers cause =>
    exact .rejected arrays answer e settled answers cause

namespace Settled

theorem of_completed (h : Settled s) {outcome : Except JsError α}
    (hs : .completed outcome ∈ s.settled) : s.stream = .closed ∧
      ∃ arrays, s.answers = arrayAnswers arrays ++ [.close] ∧ s.completions = [arrays.flatten] := by
  cases h with
  | pending arrays settled => rw [settled] at hs; cases hs
  | completed arrays outcome' settled stream completions answers =>
    exact ⟨stream, arrays, answers, completions⟩
  | rejected arrays answer e settled => rw [settled] at hs; cases List.mem_singleton.mp hs

theorem of_rejected (h : Settled s) {e : JsError} (hs : .rejected e ∈ s.settled) :
    ∃ arrays answer, s.answers = arrayAnswers arrays ++ [answer] ∧
      (answer = .error e ∧ s.stream = .errored e ∨ answer = .refused e ∨
        e = notUint8Array ∧ ∃ v, answer = .chunk (.other v)) := by
  cases h with
  | pending arrays settled => rw [settled] at hs; cases hs
  | completed arrays outcome settled => rw [settled] at hs; cases List.mem_singleton.mp hs
  | rejected arrays answer e' settled answers cause =>
    rw [settled] at hs
    cases List.mem_singleton.mp hs
    exact ⟨arrays, answer, answers, cause⟩

theorem owed (h : Settled s) (hrest : s.AtRest) (hs : s.settled = []) :
    s.stream = .readable ∧ s.readRequests = 1 ∧ ∃ arrays, s.answers = arrayAnswers arrays := by
  cases h with
  | pending arrays settled answers owed =>
    obtain ⟨hstream, hrequests, hanswers⟩ := owed hrest
    exact ⟨hstream, hrequests, arrays, hanswers⟩
  | completed arrays outcome settled => rw [settled] at hs; cases hs
  | rejected arrays answer e settled => rw [settled] at hs; cases hs

theorem closes (h : Settled s) (hrest : s.AtRest) (hstream : s.stream = .closed)
    (hanswers : ∀ answer ∈ s.answers,
      answer = .close ∨ ∃ array, answer = .chunk (.uint8Array array)) :
    ∃ outcome, s.settled = [.completed outcome] := by
  cases h with
  | pending arrays settled answers owed => rw [(owed hrest).1] at hstream; cases hstream
  | completed arrays outcome settled => exact ⟨outcome, settled⟩
  | rejected arrays answer e settled answers cause =>
    have hmem : answer ∈ s.answers := by
      rw [answers]
      exact List.mem_append_right _ (List.mem_singleton_self _)
    rcases hanswers answer hmem with rfl | ⟨array, rfl⟩ <;>
      rcases cause with ⟨hcause, -⟩ | hcause | ⟨-, v, hcause⟩ <;> cases hcause

theorem errors (h : Settled s) (hrest : s.AtRest) {e : JsError} (hstream : s.stream = .errored e)
    (hanswers : ∀ answer ∈ s.answers,
      answer = .error e ∨ ∃ array, answer = .chunk (.uint8Array array)) :
    s.settled = [.rejected e] := by
  cases h with
  | pending arrays settled answers owed => rw [(owed hrest).1] at hstream; cases hstream
  | completed arrays outcome settled stream => rw [stream] at hstream; cases hstream
  | rejected arrays answer e' settled answers cause =>
    have hmem : answer ∈ s.answers := by
      rw [answers]
      exact List.mem_append_right _ (List.mem_singleton_self _)
    rcases hanswers answer hmem with rfl | ⟨array, rfl⟩
    · rcases cause with ⟨hcause, -⟩ | hcause | ⟨-, v, hcause⟩
      · cases hcause
        exact settled
      · cases hcause
      · cases hcause
    · rcases cause with ⟨hcause, -⟩ | hcause | ⟨-, v, hcause⟩ <;> cases hcause

theorem spoiled (h : Settled s) {v : ℕ} (hv : .chunk (.other v) ∈ s.answers) :
    s.settled = [.rejected notUint8Array] := by
  have hlast {arrays : List (List UInt8)} {answer : Answer}
      (hanswers : s.answers = arrayAnswers arrays ++ [answer]) :
      answer = .chunk (.other v) := by
    rw [hanswers] at hv
    rcases List.mem_append.mp hv with hv | hv
    · exact absurd hv (other_not_mem v arrays)
    · exact (List.mem_singleton.mp hv).symm
  cases h with
  | pending arrays settled answers =>
    rcases answers with answers | answers
    · rw [answers] at hv
      exact absurd hv (other_not_mem v arrays)
    · cases hlast answers
  | completed arrays outcome settled stream completions answers => cases hlast answers
  | rejected arrays answer e settled answers cause =>
    obtain rfl := hlast answers
    rcases cause with ⟨hcause, -⟩ | hcause | ⟨rfl, -⟩
    · cases hcause
    · cases hcause
    · exact settled

end Settled

/-- Once the promise is settled, it stays so in every further run. -/
theorem run_settled {t : ReadAll α} (h : Phase s) (hsettled : s.settled ≠ [])
    (hrun : (readAllMachine α).Run s t) : t.settled = s.settled ∧ t.reads = s.reads := by
  have hkept : Phase t ∧ t.settled = s.settled ∧ t.reads = s.reads := by
    refine hrun.inv (I := fun u => Phase u ∧ u.settled = s.settled ∧ u.reads = s.reads)
      ⟨h, rfl, rfl⟩ fun u ev u' hu _ hu' => ?_
    obtain rfl : u.step ev = u' := Option.some.inj hu'
    obtain ⟨hphase, hs, hr⟩ := hu
    obtain ⟨hs', hr'⟩ := hphase.step_settled (by rw [hs]; exact hsettled) ev
    exact ⟨hphase.step ev, hs'.trans hs, hr'.trans hr⟩
  exact hkept.2

end Phase

/-- **Every stream is collected once.** -/
theorem collected_once {stream : Source} {s : ReadAll α}
    (hrun : (readAllMachine α).Run (.initial stream) s) : CollectedOnce s := by
  have hphase := Phase.of_run hrun
  have hnesting := Nesting.of_run hrun
  obtain ⟨hsettled, hcompleted, hone⟩ := hphase.bounds
  have hflat : s.frames.length ≤ 2 := by
    have hlength : ∀ l ∈ nestings, l.length ≤ 2 := by decide
    have h := hlength _ hnesting.1
    rwa [List.length_map] at h
  have hcases := hphase.settled_cases
  refine ⟨hsettled, hcompleted, hone, hflat, fun hs t => hphase.run_settled hs,
    fun outcome => hcases.of_completed, fun e => hcases.of_rejected, fun hrest => hcases.owed hrest,
    fun hrest => hcases.closes hrest, fun hrest e => hcases.errors hrest, fun v => hcases.spoiled⟩

/-- A stream that has one chunk queued, is given another one later, and closes. -/
theorem collected_once_two : ∃ s : ReadAll ℕ, CollectedOnce s ∧ s.settled = [.completed (.ok 7)] ∧
    s.completions = [[1, 2, 3]] := by
  obtain ⟨s, hrun, hs⟩ := Machine.exists_run_of_exec (M := readAllMachine ℕ)
    (s := .initial .readable) [.start (.dequeued (.uint8Array [1, 2]) false), .returns, .job .waits,
      .returns, .delivers (.uint8Array [3]), .closes, .job .waits, .completes (.ok 7), .returns]
    (P := fun s => s.settled = [.completed (.ok 7)] && s.completions = [[1, 2, 3]]) (by decide)
  rw [Bool.and_eq_true, decide_eq_true_eq, decide_eq_true_eq] at hs
  exact ⟨s, collected_once hrun, hs⟩

end WebStreams.ReadAllBytes
