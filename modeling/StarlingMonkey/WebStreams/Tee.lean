import Mathlib.Logic.Function.Basic
import StarlingMonkey.Lib.Protocol
import StarlingMonkey.Lib.Run
import StarlingMonkey.WebStreams.Basic

/-!
# Tee

`ReadableStreamDefaultTee` reads from one stream for two branches. Both branches pull through the
flag `reading`; a chunk that is delivered is parked until its microtask passes it on.

The events are pulls and cancels of the branches, answers to the read request, the microtask and the
returns of the calls it makes, and what happens to the source. While the clone, an enqueue or a
cancel is on the stack, the author's code may run, so any other event may come before it returns.

* `Allowed`: which record may follow a log.
* `Inv`: what is outstanding, what each branch was given, and what was cancelled.
* `serves_of_run`: one read at a time, the first branch gets a prefix of what was delivered and the
  second one of that or of the clones, a pull is not lost, and the source is cancelled once for both
  branches.
-/

namespace WebStreams.Teeing

/-- One of the branches. -/
inductive Which where
  | branch1 | branch2
deriving DecidableEq, Repr

/-- The other branch. -/
def Which.other : Which → Which
  | branch1 => branch2
  | branch2 => branch1

/-- The stream of a branch. -/
inductive Branch where
  | readable
  /-- `close_requested`, while chunks are queued. -/
  | closing
  | closed
  | errored
deriving DecidableEq, Repr

/-- Where the microtask is. -/
inductive Frame (χ : Type) where
  /-- The clone is on the stack. -/
  | cloning (chunk : χ)
  /-- The enqueue to the first branch is on the stack. -/
  | enqueuing1 (chunk2 : χ)
  /-- The enqueue to the second branch is on the stack. -/
  | enqueuing2
deriving DecidableEq, Repr

/-- What happened. -/
inductive Record (χ ε : Type) where
  /-- A branch pulled. -/
  | pulled
  | read
  /-- The source answered with a chunk. -/
  | delivered (chunk : χ)
  /-- The microtask took the chunk. -/
  | taken (chunk : χ)
  /-- The clone of a chunk returned. -/
  | cloned (chunk chunk2 : χ)
  | enqueued (which : Which) (chunk : χ)
  /-- The microtask ended. -/
  | consumed
  /-- The read was answered by the close steps. -/
  | closed
  /-- The read was answered by the error steps. -/
  | failed
  | canceled (which : Which) (reason : ε)
  /-- The source was cancelled with the composite reason. -/
  | sourceCanceled (reason1 reason2 : Option ε)
  /-- The clone of a chunk threw. -/
  | cloneThrew (chunk : χ) (error : ε)
deriving DecidableEq, Repr

/-- `TeeState`, and the streams. -/
structure Tee (χ ε : Type) where
  cloneForBranch2 : Bool
  reading : Bool
  readAgain : Bool
  /-- `canceled1` and `canceled2`. -/
  canceled : Which → Bool
  /-- `reason1` and `reason2`. -/
  reason : Which → Option ε
  pendingChunk : Option χ
  /-- Whether `cancel_promise` is resolved. -/
  cancelPromise : Bool
  /-- How many of the read requests wait. -/
  requests : ℕ
  /-- How many of the microtasks are queued. -/
  microtasks : ℕ
  running : Option (Frame χ)
  /-- How many cancels of the source are on the stack. -/
  cancels : ℕ
  source : StreamState
  /-- What the reactions to the reader's closed promise are called with. -/
  rejection : Option ε
  branch : Which → Branch
  log : List (Record χ ε)

/-- What happens to a tee. -/
inductive TeeEvent (χ ε : Type) where
  /-- A branch calls its pull algorithm; the read may be answered at once. -/
  | pull (answer : Option χ)
  | chunk (chunk : χ)
  | microtask
  | cloneReturns (result : Except ε χ)
  /-- The enqueue returns; the read that follows may be answered at once. -/
  | enqueueReturns (answer : Option χ)
  | cancel (which : Which) (reason : ε)
  | cancelReturns
  | sourceCloses
  | sourceErrors (error : ε)
  | closedRejected
  /-- The queue of a branch that is closing is empty. -/
  | drains (which : Which)

variable {χ ε : Type}

namespace Tee

/-! ### The code -/

/-- A record is made. -/
def record (s : Tee χ ε) (r : Record χ ε) : Tee χ ε := { s with log := s.log ++ [r] }

/-- A branch changes. -/
def setBranch (s : Tee χ ε) (w : Which) (branch : Branch) : Tee χ ε :=
  { s with branch := Function.update s.branch w branch }

/-- `readable_stream_default_controller_close` on a branch. -/
def controllerClose (s : Tee χ ε) (w : Which) : Tee χ ε :=
  s.setBranch w (if s.branch w = .readable then .closing else s.branch w)

/-- `readable_stream_default_controller_error` on a branch. -/
def controllerError (s : Tee χ ε) (w : Which) : Tee χ ε :=
  s.setBranch w (if s.branch w = .readable ∨ s.branch w = .closing then .errored else s.branch w)

/-- `readable_stream_default_controller_enqueue` on a branch. -/
def controllerEnqueue (s : Tee χ ε) (w : Which) (chunk : χ) : Tee χ ε :=
  if s.branch w = .readable then s.record (.enqueued w chunk) else s

/-- `tee_read_request_chunk_steps`. -/
def teeReadRequestChunkSteps (s : Tee χ ε) (chunk : χ) : Tee χ ε :=
  { s with
    pendingChunk := some chunk
    microtasks := s.microtasks + 1 }

/-- A branch is closed if it is not cancelled. -/
def closeUncanceled (s : Tee χ ε) (w : Which) : Tee χ ε :=
  if !s.canceled w then s.controllerClose w else s

/-- A branch is enqueued to if it is not cancelled. -/
def enqueueUncanceled (s : Tee χ ε) (w : Which) (chunk : χ) : Tee χ ε :=
  if !s.canceled w then s.controllerEnqueue w chunk else s

/-- The cancel promise is resolved if not both branches are cancelled. -/
def resolveUncanceled (s : Tee χ ε) : Tee χ ε :=
  if !s.canceled .branch1 || !s.canceled .branch2 then { s with cancelPromise := true } else s

/-- `tee_read_request_close_steps`. -/
def teeReadRequestCloseSteps (s : Tee χ ε) : Tee χ ε :=
  let s := { s.record .closed with reading := false }
  ((s.closeUncanceled .branch1).closeUncanceled .branch2).resolveUncanceled

/-- `tee_read_request_error_steps`. -/
def teeReadRequestErrorSteps (s : Tee χ ε) : Tee χ ε :=
  { s.record .failed with reading := false }

/-- The source answers with a chunk. -/
def deliver (s : Tee χ ε) (chunk : χ) : Tee χ ε :=
  (s.record (.delivered chunk)).teeReadRequestChunkSteps chunk

/-- `readable_stream_default_reader_read`. -/
def readerRead (s : Tee χ ε) (answer : Option χ) : Tee χ ε :=
  match s.source, answer with
  | .closed, _ => s.teeReadRequestCloseSteps
  | .errored, _ => s.teeReadRequestErrorSteps
  | .readable, some chunk => s.deliver chunk
  | .readable, none => { s with requests := s.requests + 1 }

/-- `tee_pull`. -/
def teePull (s : Tee χ ε) (answer : Option χ) : Tee χ ε :=
  if s.reading then { s with readAgain := true }
  else { s.record .read with reading := true }.readerRead answer

/-- The read requests of a source that is not readable any more are answered. -/
def answerRequests (s : Tee χ ε) (source : StreamState) (steps : Tee χ ε → Tee χ ε) : Tee χ ε :=
  steps^[s.requests] { s with
    source := source
    requests := 0 }

/-- `readable_stream_cancel` on the source. -/
def cancelSource (s : Tee χ ε) : Tee χ ε :=
  let s := { s with cancels := s.cancels + 1 }
  if s.source = .readable then s.answerRequests .closed teeReadRequestCloseSteps else s

/-- `tee_cancel`, what a branch is cancelled with. -/
def setCanceled (s : Tee χ ε) (reason : ε) (w : Which) : Tee χ ε :=
  { s with
    canceled := Function.update s.canceled w true
    reason := Function.update s.reason w (some reason) }

/-- `tee_cancel`, up to the return of the cancel of the source. -/
def teeCancel (s : Tee χ ε) (reason : ε) (w : Which) : Tee χ ε :=
  let s := s.setCanceled reason w
  if s.canceled w.other then
    (s.record (.sourceCanceled (s.reason .branch1) (s.reason .branch2))).cancelSource
  else s

/-- `tee_closed_rejected`. -/
def teeClosedRejected (s : Tee χ ε) : Tee χ ε :=
  ((s.controllerError .branch1).controllerError .branch2).resolveUncanceled

/-- `tee_chunk_microtask`, the enqueue to the first branch. A branch that is not enqueued to is
taken for an enqueue that returns. -/
def enqueue1 (s : Tee χ ε) (chunk chunk2 : χ) : Tee χ ε :=
  { s.enqueueUncanceled .branch1 chunk with running := some (.enqueuing1 chunk2) }

/-- `tee_chunk_microtask`, the enqueue to the second branch. -/
def enqueue2 (s : Tee χ ε) (chunk2 : χ) : Tee χ ε :=
  { s.enqueueUncanceled .branch2 chunk2 with running := some .enqueuing2 }

/-- `tee_chunk_microtask`, from the return of the second enqueue. -/
def finish (s : Tee χ ε) (answer : Option χ) : Tee χ ε :=
  let s := { s.record .consumed with
    running := none
    reading := false }
  if s.readAgain then s.teePull answer else s

/-- `tee_chunk_microtask`, from the throw of the clone to the return of the cancel. -/
def cloneThrew (s : Tee χ ε) : Tee χ ε :=
  { (s.controllerError .branch1).controllerError .branch2 with running := none }.cancelSource

/-- `tee_chunk_microtask`, the first three lines. -/
def takeChunk (s : Tee χ ε) (chunk : χ) : Tee χ ε :=
  { s.record (.taken chunk) with
    pendingChunk := none
    microtasks := s.microtasks - 1
    readAgain := false }

/-- `tee_chunk_microtask`, up to the return of its first call. -/
def teeChunkMicrotask (s : Tee χ ε) (chunk : χ) : Tee χ ε :=
  let s := s.takeChunk chunk
  if !s.canceled .branch2 && s.cloneForBranch2 then { s with running := some (.cloning chunk) }
  else s.enqueue1 chunk chunk

/-- What an event does, if it can happen. -/
def step (s : Tee χ ε) : TeeEvent χ ε → Tee χ ε
  | .pull answer => (s.record .pulled).teePull answer
  | .chunk chunk =>
    if 0 < s.requests then { s with requests := s.requests - 1 }.deliver chunk else s
  | .microtask =>
    match s.running, s.pendingChunk with
    | none, some chunk => if 0 < s.microtasks then s.teeChunkMicrotask chunk else s
    | _, _ => s
  | .cloneReturns result =>
    match s.running, result with
    | some (.cloning chunk), .ok chunk2 => (s.record (.cloned chunk chunk2)).enqueue1 chunk chunk2
    | some (.cloning chunk), .error error => (s.record (.cloneThrew chunk error)).cloneThrew
    | _, _ => s
  | .enqueueReturns answer =>
    match s.running with
    | some (.enqueuing1 chunk2) => s.enqueue2 chunk2
    | some .enqueuing2 => s.finish answer
    | _ => s
  | .cancel w reason =>
    if s.branch w = .readable ∨ s.branch w = .closing then
      ((s.setBranch w .closed).record (.canceled w reason)).teeCancel reason w
    else s
  | .cancelReturns =>
    if 0 < s.cancels then
      { s with
        cancels := s.cancels - 1
        cancelPromise := true }
    else s
  | .sourceCloses =>
    if s.source = .readable then s.answerRequests .closed teeReadRequestCloseSteps else s
  | .sourceErrors error =>
    if s.source = .readable then
      { s with rejection := some error }.answerRequests .errored teeReadRequestErrorSteps
    else s
  | .closedRejected =>
    if s.rejection.isSome then { s with rejection := none }.teeClosedRejected else s
  | .drains w => if s.branch w = .closing then s.setBranch w .closed else s

/-- A tee of a stream. -/
def new (cloneForBranch2 : Bool) (source : StreamState) (rejection : Option ε) : Tee χ ε where
  cloneForBranch2 := cloneForBranch2
  reading := false
  readAgain := false
  canceled _ := false
  reason _ := none
  pendingChunk := none
  cancelPromise := false
  requests := 0
  microtasks := 0
  running := none
  cancels := 0
  source := source
  rejection := rejection
  branch _ := .readable
  log := []

end Tee

/-- A tee as a machine. -/
def machine (χ ε : Type) : Machine Empty Empty (Tee χ ε) (TeeEvent χ ε) :=
  ⟨fun s e => .ok (s.step e)⟩

/-! ### What is to hold -/

namespace Record

/-- A chunk that was delivered. -/
def delivered? : Record χ ε → Option χ
  | delivered chunk => some chunk
  | _ => none

/-- A chunk that the microtask took. -/
def taken? : Record χ ε → Option χ
  | taken chunk => some chunk
  | _ => none

/-- The clone of a chunk. -/
def clone? : Record χ ε → Option χ
  | cloned _ chunk2 => some chunk2
  | _ => none

/-- A chunk that was cloned, or could not be. -/
def original? : Record χ ε → Option χ
  | cloned chunk _ | cloneThrew chunk _ => some chunk
  | _ => none

/-- What a branch is to get: what the microtask took, or the clones of that. -/
def offered? (cloneForBranch2 : Bool) : Which → Record χ ε → Option χ
  | .branch1 => taken?
  | .branch2 => bif cloneForBranch2 then clone? else taken?

/-- A chunk that a branch got. -/
def enqueued? (w : Which) : Record χ ε → Option χ
  | enqueued w' chunk => if w' = w then some chunk else none
  | _ => none

/-- What a branch was cancelled with. -/
def canceled? (w : Which) : Record χ ε → Option ε
  | canceled w' reason => if w' = w then some reason else none
  | _ => none

/-- What the source was cancelled with for the branches. -/
def sourceCanceled? : Record χ ε → Option (Option ε × Option ε)
  | sourceCanceled reason1 reason2 => some (reason1, reason2)
  | _ => none

/-- A read. -/
def read? : Record χ ε → Option Unit
  | read => some ()
  | _ => none

/-- The end of a read. -/
def answered? : Record χ ε → Option Unit
  | consumed | closed | failed => some ()
  | _ => none

/-- The throw of a clone. -/
def cloneThrew? : Record χ ε → Option ε
  | cloneThrew _ error => some error
  | _ => none

end Record

/-- A branch pulled since the microtask took its chunk, or the last read started. -/
abbrev Pulled (l : List (Record χ ε)) : Prop :=
  Protocol.Since (fun _ r => r = .pulled) (fun r => r = .read ∨ ∃ chunk, r = .taken chunk) l

/-- A read has to follow: a branch pulled while the microtask ran, which just ended, or it pulls
while no read is outstanding. -/
def Owed (l : List (Record χ ε)) : Prop :=
  l.getLast? = some .consumed ∧ Pulled l ∨
    l.getLast? = some .pulled ∧
      (l.filterMap Record.read?).length = (l.filterMap Record.answered?).length

/-- **The protocol of a tee**: which record may follow a log. -/
def Allowed (l : List (Record χ ε)) (r : Record χ ε) : Prop :=
  (Owed l → r = .read) ∧
    match r with
    | .read => (l.filterMap Record.read?).length = (l.filterMap Record.answered?).length
    | .delivered _ => l.filterMap Record.taken? = l.filterMap Record.delivered?
    | .canceled w _ => l.filterMap (Record.canceled? w) = []
    | .enqueued w _ => l.filterMap (Record.canceled? w) = []
    | .sourceCanceled reason1 reason2 =>
      l.filterMap Record.sourceCanceled? = [] ∧
        l.filterMap (Record.canceled? .branch1) = reason1.toList ∧ reason1.isSome = true ∧
        l.filterMap (Record.canceled? .branch2) = reason2.toList ∧ reason2.isSome = true
    | _ => True

/-- What the microtask that runs has not yet passed to a branch. -/
def Frame.owed : Which → Option (Frame χ) → List χ
  | .branch1, some (.cloning chunk) => [chunk]
  | .branch2, some (.enqueuing1 chunk2) => [chunk2]
  | _, _ => []

/-- A record of the pulls and reads. -/
def Record.ofReads : Record χ ε → Prop
  | pulled | read | consumed | closed | failed => True
  | _ => False

/-- What is being cloned. -/
def Frame.cloned : Option (Frame χ) → List χ
  | some (.cloning chunk) => [chunk]
  | _ => []

/-- How many reads are outstanding. -/
def Tee.outstanding (s : Tee χ ε) : ℕ :=
  s.requests + s.microtasks + s.running.toList.length +
    (s.log.filterMap Record.cloneThrew?).length

/-- A consumer got a prefix of what it is offered, and as long as it takes chunks all but what it is
owed. -/
structure Served (enqueued offered owed : List χ) (takes : Prop) : Prop where
  order : enqueued <+: offered
  complete : takes → enqueued ++ owed = offered

namespace Served

variable {enqueued offered owed : List χ} {takes : Prop} {chunk : χ}

theorem stop (h : Served enqueued offered owed takes) {takes' : Prop} (ht : ¬ takes')
    (owed' : List χ) : Served enqueued offered owed' takes' where
  order := h.order
  complete := fun ht' => absurd ht' ht

end Served

/-- What a branch was given. -/
abbrev GivenTo (s : Tee χ ε) (w : Which) (owed : List χ) : Prop :=
  Served (s.log.filterMap (Record.enqueued? w))
    (s.log.filterMap (Record.offered? s.cloneForBranch2 w)) owed (s.branch w = .readable)

/-- What the branches were given. -/
def Given (s : Tee χ ε) : Prop := ∀ w, GivenTo s w (Frame.owed w s.running)

/-- What was cloned. -/
structure Cloned (s : Tee χ ε) : Prop where
  plain : s.cloneForBranch2 = false →
    s.log.filterMap Record.original? = [] ∧ Frame.cloned s.running = []
  order : s.log.filterMap Record.original? ++ Frame.cloned s.running <+:
    s.log.filterMap Record.taken?
  complete : s.cloneForBranch2 = true →
    s.canceled .branch2 = false ∨ Frame.cloned s.running ≠ [] →
    s.log.filterMap Record.original? ++ Frame.cloned s.running = s.log.filterMap Record.taken?
  threw : s.log.filterMap Record.cloneThrew? ≠ [] → ∀ w, s.branch w ≠ .readable

/-- What was cancelled. -/
structure Canceled (s : Tee χ ε) : Prop where
  branch : ∀ w, s.canceled w = true → s.branch w = .closed
  reason : ∀ w, s.log.filterMap (Record.canceled? w) = (s.reason w).toList
  canceled : ∀ w, s.canceled w = (s.reason w).isSome
  source : s.log.filterMap Record.sourceCanceled? =
    bif s.canceled .branch1 && s.canceled .branch2 then
      [(s.reason .branch1, s.reason .branch2)] else []
  promise : s.canceled .branch1 = true → s.canceled .branch2 = true →
    s.cancelPromise = true ∨ 0 < s.cancels

/-- The chunk that is parked. -/
structure Parked (s : Tee χ ε) : Prop where
  chunk : s.pendingChunk.toList.length = s.microtasks
  delivered : s.log.filterMap Record.delivered? =
    s.log.filterMap Record.taken? ++ s.pendingChunk.toList

/-- What does not depend on the read that is outstanding. -/
structure Sound (s : Tee χ ε) : Prop where
  parked : Parked s
  given : Given s
  cloned : Cloned s
  canceled : Canceled s
  log : Protocol.Kept Allowed s.log

/-- One read at a time. -/
structure Counted (s : Tee χ ε) : Prop where
  reading : s.outstanding = s.reading.toNat
  reads : (s.log.filterMap Record.read?).length =
    (s.log.filterMap Record.answered?).length + s.outstanding

/-- **The invariant.** -/
structure Inv (s : Tee χ ε) : Prop extends Sound s where
  counted : Counted s
  pulled : Pulled s.log → s.readAgain = true
  demand : ¬ Owed s.log

/-! ### Steps -/

variable {s : Tee χ ε}

attribute [local simp] Record.delivered? Record.taken? Record.clone? Record.original?
  Record.offered? Record.enqueued? Record.canceled? Record.sourceCanceled? Record.read?
  Record.answered? Record.cloneThrew? List.filterMap_cons Tee.record

/-- The read that is outstanding is about to be answered, or to wait. -/
structure Between (s : Tee χ ε) : Prop extends Sound s where
  reading : s.reading = true
  free : s.outstanding = 0
  reads : (s.log.filterMap Record.read?).length = (s.log.filterMap Record.answered?).length + 1
  pulled : Pulled s.log → s.readAgain = true
  demand : ¬ Owed s.log

theorem Pulled.of_concat {l : List (Record χ ε)} {r : Record χ ε} (hr : r ≠ .pulled)
    (h : Pulled (l ++ [r])) : Pulled l :=
  ((Protocol.since_concat.mp h).resolve_left hr).1

theorem not_owed_concat {l : List (Record χ ε)} {r : Record χ ε} (hr : r ≠ .consumed)
    (hp : r ≠ .pulled) : ¬ Owed (l ++ [r]) := by
  rintro (⟨hlast, -⟩ | ⟨hlast, -⟩)
  all_goals
    rw [List.getLast?_concat] at hlast
  · exact hr (Option.some.inj hlast)
  · exact hp (Option.some.inj hlast)

theorem Parked.record (h : Parked s) {r : Record χ ε} (hdelivered : r.delivered? = none)
    (htaken : r.taken? = none) : Parked (s.record r) where
  chunk := h.chunk
  delivered := by
    simp only [Tee.record, List.filterMap_append, List.filterMap_cons, hdelivered, htaken,
      List.filterMap_nil, List.append_nil]
    exact h.delivered

/-- A projection that a record does not show in. -/
theorem filterMap_record {β : Type} (s : Tee χ ε) {f : Record χ ε → Option β} {r : Record χ ε}
    (hf : f r = none) : (s.record r).log.filterMap f = s.log.filterMap f := by
  simp only [Tee.record, List.filterMap_append, List.filterMap_cons, hf, List.filterMap_nil,
    List.append_nil]

theorem offered?_eq_none {r : Record χ ε} (htaken : r.taken? = none) (hclone : r.clone? = none)
    (cloneForBranch2 : Bool) (w : Which) : r.offered? cloneForBranch2 w = none := by
  cases w with
  | branch1 => exact htaken
  | branch2 =>
    rw [Record.offered?]
    cases cloneForBranch2
    · exact htaken
    · exact hclone

theorem Given.record (h : Given s) {r : Record χ ε} (htaken : r.taken? = none)
    (hclone : r.clone? = none) (henqueued : ∀ w, r.enqueued? w = none) : Given (s.record r) := by
  intro w
  rw [GivenTo, filterMap_record s (henqueued w), show (s.record r).cloneForBranch2 =
    s.cloneForBranch2 from rfl, filterMap_record s (offered?_eq_none htaken hclone _ w)]
  exact h w

theorem Cloned.record (h : Cloned s) {r : Record χ ε} (htaken : r.taken? = none)
    (horiginal : r.original? = none) : Cloned (s.record r) := by
  have hthrew : r.cloneThrew? = none := by
    cases r with
    | cloneThrew chunk error => cases horiginal
    | _ => rfl
  exact {
    plain := by
      rw [filterMap_record s horiginal]
      exact h.plain
    order := by
      rw [filterMap_record s horiginal, filterMap_record s htaken]
      exact h.order
    complete := by
      rw [filterMap_record s horiginal, filterMap_record s htaken]
      exact h.complete
    threw := by
      rw [filterMap_record s hthrew]
      exact h.threw }

theorem Canceled.record (h : Canceled s) {r : Record χ ε} (hcanceled : ∀ w, r.canceled? w = none)
    (hsource : r.sourceCanceled? = none) : Canceled (s.record r) where
  branch := h.branch
  reason := by
    simpa only [Tee.record, List.filterMap_append, List.filterMap_cons, hcanceled,
      List.filterMap_nil, List.append_nil] using h.reason
  canceled := h.canceled
  source := by
    simpa only [Tee.record, List.filterMap_append, List.filterMap_cons, hsource,
      List.filterMap_nil, List.append_nil] using h.source
  promise := h.promise

theorem Canceled.uncanceled (h : Canceled s) {w : Which} (hc : s.canceled w = false) :
    s.log.filterMap (Record.canceled? w) = [] := by
  have hnone := h.canceled w
  rw [hc] at hnone
  rw [h.reason, Option.isSome_eq_false_iff.mp hnone.symm |> Option.isNone_iff_eq_none.mp]
  rfl

/-- A branch that is not cancelled stops taking chunks. -/
theorem Given.setBranch (h : Given s) (w : Which) {branch : Branch} (hb : branch ≠ .readable) :
    Given (s.setBranch w branch) := by
  intro w'
  by_cases heq : w' = w
  · subst heq
    exact (h w').stop (by simpa [Tee.setBranch] using hb) _
  · rw [GivenTo, show (s.setBranch w branch).branch w' = s.branch w' from
      Function.update_of_ne heq _ _]
    exact h w'

theorem Cloned.setBranch (h : Cloned s) (w : Which) {branch : Branch} (hb : branch ≠ .readable) :
    Cloned (s.setBranch w branch) where
  plain := h.plain
  order := h.order
  complete := h.complete
  threw := by
    intro ht w'
    by_cases heq : w' = w
    · subst heq
      simpa [Tee.setBranch] using hb
    · simpa [Tee.setBranch, Function.update_of_ne heq] using h.threw ht w'

theorem Canceled.setBranch (h : Canceled s) (w : Which) {branch : Branch}
    (hb : s.canceled w = true → branch = .closed) : Canceled (s.setBranch w branch) where
  branch := by
    intro w' hw
    by_cases heq : w' = w
    · subst heq
      simpa [Tee.setBranch] using hb hw
    · simpa [Tee.setBranch, Function.update_of_ne heq] using h.branch w' hw
  reason := h.reason
  canceled := h.canceled
  source := h.source
  promise := h.promise

theorem Sound.setBranch (h : Sound s) (w : Which) {branch : Branch} (hb : branch ≠ .readable)
    (hc : s.canceled w = true → branch = .closed) : Sound (s.setBranch w branch) where
  parked := { h.parked with }
  given := h.given.setBranch w hb
  cloned := h.cloned.setBranch w hb
  canceled := h.canceled.setBranch w hc
  log := h.log

/-- What the reads go by changes. -/
theorem Sound.setReads (h : Sound s) (reading readAgain : Bool) (requests : ℕ)
    (source : StreamState) (rejection : Option ε) : Sound { s with
      reading := reading
      readAgain := readAgain
      requests := requests
      source := source
      rejection := rejection } where
  parked := { h.parked with }
  given := h.given
  cloned := { h.cloned with }
  canceled := { h.canceled with }
  log := h.log

theorem Sound.record (h : Sound s) {r : Record χ ε} (hr : r.ofReads) (hlog : Allowed s.log r) :
    Sound (s.record r) := by
  cases r with
  | pulled | read | consumed | closed | failed =>
    exact ⟨h.parked.record rfl rfl, h.given.record rfl rfl fun _ => rfl, h.cloned.record rfl rfl,
      h.canceled.record (fun _ => rfl) rfl, h.log.concat hlog⟩
  | _ => cases hr

theorem Inv.setBranch (h : Inv s) (w : Which) {branch : Branch} (hb : branch ≠ .readable)
    (hc : s.canceled w = true → branch = .closed) : Inv (s.setBranch w branch) where
  toSound := h.toSound.setBranch w hb hc
  counted := { h.counted with }
  pulled := h.pulled
  demand := h.demand

theorem Inv.controllerClose (h : Inv s) (w : Which) : Inv (s.controllerClose w) := by
  refine h.setBranch w ?_ fun hw => by simp [h.canceled.branch w hw]
  split
  · simp
  · assumption

theorem Inv.controllerError (h : Inv s) (w : Which) : Inv (s.controllerError w) := by
  refine h.setBranch w ?_ fun hw => by simp [h.canceled.branch w hw]
  split
  · simp
  · rename_i hb
    exact fun heq => hb (.inl heq)

/-- The promise is resolved. -/
theorem Inv.resolve (h : Inv s) : Inv { s with cancelPromise := true } where
  parked := { h.parked with }
  given := h.given
  cloned := { h.cloned with }
  canceled := { h.canceled with promise := fun _ _ => .inl rfl }
  log := h.log
  counted := { h.counted with }
  pulled := h.pulled
  demand := h.demand

theorem Inv.closeUncanceled (h : Inv s) (w : Which) : Inv (s.closeUncanceled w) := by
  rw [Tee.closeUncanceled]
  split
  · exact h.controllerClose w
  · exact h

theorem Inv.resolveUncanceled (h : Inv s) : Inv s.resolveUncanceled := by
  rw [Tee.resolveUncanceled]
  split
  · exact h.resolve
  · exact h

theorem outstanding_record (s : Tee χ ε) {r : Record χ ε} (hr : r.cloneThrew? = none) :
    (s.record r).outstanding = s.outstanding := by
  rw [Tee.outstanding, filterMap_record s hr]
  rfl

theorem Counted.record (h : Counted s) {r : Record χ ε} (hread : r.read? = none)
    (hanswered : r.answered? = none) (hclone : r.cloneThrew? = none) : Counted (s.record r) where
  reading := (outstanding_record s hclone).trans h.reading
  reads := by
    rw [outstanding_record s hclone, filterMap_record s hread, filterMap_record s hanswered]
    exact h.reads

theorem Between.pendingChunk (h : Between s) : s.pendingChunk = none := by
  have hchunk := h.parked.chunk
  have hfree := h.free
  simp only [Tee.outstanding] at hfree
  cases hp : s.pendingChunk with
  | none => rfl
  | some chunk =>
    rw [hp, Option.toList_some, List.length_singleton] at hchunk
    omega

theorem Between.wait (h : Between s) : Inv { s with requests := s.requests + 1 } := by
  have hfree := h.free
  have hreads := h.reads
  simp only [Tee.outstanding] at hfree
  exact {
    toSound := h.toSound.setReads _ _ _ _ _
    counted := {
      reading := by
        simp only [Tee.outstanding, h.reading, Bool.toNat_true]
        omega
      reads := by
        simp only [Tee.outstanding]
        omega }
    pulled := h.pulled
    demand := h.demand }

theorem Between.deliver (h : Between s) (chunk : χ) : Inv (s.deliver chunk) := by
  have hfree := h.free
  have hreads := h.reads
  have hpending := h.pendingChunk
  have hchunk := h.parked.chunk
  have hdelivered := h.parked.delivered
  have hgiven : Given (s.record (.delivered chunk)) := h.given.record rfl rfl fun _ => rfl
  have hcloned : Cloned (s.record (.delivered chunk)) := h.cloned.record rfl rfl
  have hcanceled : Canceled (s.record (.delivered chunk)) := h.canceled.record (fun _ => rfl) rfl
  simp only [Tee.outstanding] at hfree
  simp only [hpending, Option.toList_none, List.length_nil, List.append_nil] at hchunk hdelivered
  have hlog : Protocol.Kept Allowed (s.log ++ [.delivered chunk]) :=
    h.log.concat ⟨fun ho => absurd ho h.demand, hdelivered.symm⟩
  exact {
    parked := {
      chunk := by simp [Tee.deliver, Tee.teeReadRequestChunkSteps, ← hchunk]
      delivered := by simp [Tee.deliver, Tee.teeReadRequestChunkSteps, hdelivered] }
    given := hgiven
    cloned := { hcloned with }
    canceled := { hcanceled with }
    log := hlog
    counted := {
      reading := by
        simp [Tee.outstanding, Tee.deliver, Tee.teeReadRequestChunkSteps, h.reading]
        omega
      reads := by
        simp [Tee.outstanding, Tee.deliver, Tee.teeReadRequestChunkSteps]
        omega }
    pulled := fun hp => h.pulled (hp.of_concat (by simp))
    demand := not_owed_concat (by simp) (by simp) }

/-- The read ends without a chunk. -/
theorem Between.answer (h : Between s) {r : Record χ ε} (hr : r = .closed ∨ r = .failed) :
    Inv { s.record r with reading := false } := by
  have hreads := h.reads
  have houtstanding : (s.record r).outstanding = 0 := by
    rw [outstanding_record s (by rcases hr with rfl | rfl <;> rfl), h.free]
  have hsound : Sound (s.record r) := by
    rcases hr with rfl | rfl <;>
      exact h.toSound.record trivial ⟨fun ho => absurd ho h.demand, trivial⟩
  exact {
    toSound := hsound.setReads _ _ _ _ _
    counted := {
      reading := houtstanding
      reads := by
        refine Eq.trans ?_ (congrArg _ houtstanding.symm)
        rcases hr with rfl | rfl <;> simpa using hreads }
    pulled := fun hp => h.pulled (hp.of_concat (by rcases hr with rfl | rfl <;> simp))
    demand := not_owed_concat (by rcases hr with rfl | rfl <;> simp)
      (by rcases hr with rfl | rfl <;> simp) }

theorem Between.fail (h : Between s) : Inv s.teeReadRequestErrorSteps := h.answer (.inr rfl)

theorem Between.close (h : Between s) : Inv s.teeReadRequestCloseSteps :=
  (((h.answer (.inl rfl)).closeUncanceled .branch1).closeUncanceled .branch2).resolveUncanceled

theorem inv_answerRequests (h : Inv s) (source : StreamState) {steps : Tee χ ε → Tee χ ε}
    (hsteps : ∀ t, Between t → Inv (steps t)) : Inv (s.answerRequests source steps) := by
  have hreading := h.counted.reading
  have hreads := h.counted.reads
  have hle : s.outstanding ≤ 1 := hreading ▸ Bool.toNat_le _
  have hrequests : s.requests ≤ 1 := by
    simp only [Tee.outstanding] at hle
    omega
  rw [Tee.answerRequests]
  rcases Nat.le_one_iff_eq_zero_or_eq_one.mp hrequests with h0 | h1
  · rw [h0, Function.iterate_zero_apply]
    have heq : Tee.outstanding { s with
        source := source
        requests := 0 } = s.outstanding := by simp only [Tee.outstanding, h0]
    exact {
      toSound := h.toSound.setReads _ _ _ _ _
      counted := ⟨heq.trans hreading, hreads.trans (congrArg _ heq.symm)⟩
      pulled := h.pulled
      demand := h.demand }
  · rw [h1, Function.iterate_one]
    refine hsteps _ ?_
    have hone : s.outstanding = 1 := by
      simp only [Tee.outstanding] at hle ⊢
      omega
    have hfree : Tee.outstanding { s with
        source := source
        requests := 0 } = 0 := by
      simp only [Tee.outstanding] at hone ⊢
      omega
    exact {
      toSound := h.toSound.setReads _ _ _ _ _
      reading := by
        rw [hone] at hreading
        exact Bool.toNat_eq_one.mp hreading.symm
      free := hfree
      reads := hone ▸ hreads
      pulled := h.pulled
      demand := h.demand }

theorem Between.read (h : Between s) (answer : Option χ) : Inv (s.readerRead answer) := by
  unfold Tee.readerRead
  split
  · exact h.close
  · exact h.fail
  · exact h.deliver _
  · exact h.wait

/-- Another cancel of the source is on the stack. -/
theorem Inv.cancelSource (h : Inv { s with cancels := s.cancels + 1 }) : Inv s.cancelSource := by
  simp only [Tee.cancelSource]
  split
  · exact inv_answerRequests h .closed fun _ ht => ht.close
  · exact h

/-- The other branch is given a chunk. -/
theorem GivenTo.other {w w' : Which} {owed : List χ} (h : GivenTo s w owed) (hw : w' ≠ w)
    (chunk : χ) : GivenTo (s.record (.enqueued w' chunk)) w owed := by
  rw [GivenTo, show (s.record (.enqueued w' chunk)).cloneForBranch2 = s.cloneForBranch2 from rfl,
    filterMap_record s (offered?_eq_none rfl rfl _ w), filterMap_record s (if_neg hw)]
  exact h

/-- The clone of a chunk returned, or it threw. -/
theorem Cloned.answer (h : Cloned s) {chunk : χ} {r : Record χ ε}
    (hrunning : s.running = some (.cloning chunk)) (horiginal : r.original? = some chunk)
    (htaken : r.taken? = none)
    (hthrew : r.cloneThrew? = none ∨ ∀ w, s.branch w ≠ .readable) {running : Option (Frame χ)}
    (hcloned : Frame.cloned running = []) : Cloned { s.record r with running := running } := by
  have hplain := h.plain
  have hcomplete := h.complete
  rw [hrunning] at hplain hcomplete
  have hclone : s.cloneForBranch2 = true := by
    by_contra hc
    cases (hplain (Bool.eq_false_iff.mpr hc)).2
  have hall : (s.record r).log.filterMap Record.original? =
      (s.record r).log.filterMap Record.taken? := by
    rw [filterMap_record s htaken, ← hcomplete hclone (.inr (by simp [Frame.cloned]))]
    simp only [Tee.record, List.filterMap_append, List.filterMap_cons, horiginal,
      List.filterMap_nil, Frame.cloned]
  exact {
    plain := fun hp => absurd (hclone.symm.trans hp) (by simp)
    order := by
      rw [hcloned, List.append_nil]
      exact hall ▸ List.prefix_rfl
    complete := by
      intro _ _
      rw [hcloned, List.append_nil]
      exact hall
    threw := by
      intro ht
      rcases hthrew with hr | hb
      · rw [filterMap_record s hr] at ht
        exact h.threw ht
      · exact hb }

theorem Canceled.controllerError (h : Canceled s) (w : Which) : Canceled (s.controllerError w) :=
  h.setBranch w fun hw => by simp [h.branch w hw]

/-- What is cancelled once a branch is, up to the cancel of the source. -/
structure CanceledBut (s : Tee χ ε) (l : List (Option ε × Option ε)) : Prop where
  branch : ∀ w, s.canceled w = true → s.branch w = .closed
  reason : ∀ w, s.log.filterMap (Record.canceled? w) = (s.reason w).toList
  canceled : ∀ w, s.canceled w = (s.reason w).isSome
  source : s.log.filterMap Record.sourceCanceled? = l

theorem setCanceled_canceled (s : Tee χ ε) (reason : ε) (w w' : Which) :
    (s.setCanceled reason w).canceled w' = if w' = w then true else s.canceled w' :=
  Function.update_apply _ _ _ _

theorem setCanceled_reason (s : Tee χ ε) (reason : ε) (w w' : Which) :
    (s.setCanceled reason w).reason w' = if w' = w then some reason else s.reason w' :=
  Function.update_apply _ _ _ _

theorem setCanceled_but (h : Canceled s) {w : Which} (hc : s.canceled w = false)
    (hb : s.branch w = .closed) (reason : ε) :
    CanceledBut ((s.record (.canceled w reason)).setCanceled reason w) [] where
  branch := by
    intro w' hw
    rw [setCanceled_canceled] at hw
    split at hw
    · rename_i heq
      exact heq ▸ hb
    · exact h.branch w' hw
  reason := by
    intro w'
    rw [show ((s.record (.canceled w reason)).setCanceled reason w).log =
      s.log ++ [.canceled w reason] from rfl, List.filterMap_append, setCanceled_reason]
    split
    · rename_i heq
      subst heq
      rw [h.uncanceled hc]
      simp
    · rename_i heq
      rw [show (s.record (.canceled w reason)).reason w' = s.reason w' from rfl, h.reason]
      simp [Ne.symm heq]
  canceled := by
    intro w'
    rw [setCanceled_canceled, setCanceled_reason]
    split
    · rfl
    · exact h.canceled w'
  source := by
    have hsource := h.source
    rw [show (s.canceled .branch1 && s.canceled .branch2) = false by
      cases w <;> simp [hc]] at hsource
    simpa [Tee.setCanceled] using hsource

theorem Cloned.setCanceled (h : Cloned s) (reason : ε) (w : Which) :
    Cloned (s.setCanceled reason w) where
  plain := h.plain
  order := h.order
  complete := by
    intro hclone hc
    refine h.complete hclone (hc.imp_left fun hc2 => ?_)
    rw [setCanceled_canceled] at hc2
    split at hc2
    · cases hc2
    · exact hc2
  threw := h.threw

theorem both_canceled {c : Which → Bool} {w : Which} (hw : c w = true) :
    (c .branch1 && c .branch2) = c w.other := by
  cases w <;> simp [Which.other, hw]

/-- A branch is cancelled that was not. -/
theorem inv_teeCancel (h : Inv s) {w : Which} (hc : s.canceled w = false)
    (hb : s.branch w = .closed) (reason : ε) :
    Inv ((s.record (.canceled w reason)).teeCancel reason w) := by
  have hbut := setCanceled_but h.canceled hc hb reason
  have hcounted : Counted (s.record (.canceled w reason)) := h.counted.record rfl rfl rfl
  have hparked : Parked (s.record (.canceled w reason)) := h.parked.record rfl rfl
  have hgiven : Given (s.record (.canceled w reason)) := h.given.record rfl rfl fun _ => rfl
  have hcloned : Cloned (s.record (.canceled w reason)) := h.cloned.record rfl rfl
  have hcloned' := hcloned.setCanceled reason w
  have hcounted' : Counted ((s.record (.canceled w reason)).setCanceled reason w) :=
    { hcounted with }
  have hparked' : Parked ((s.record (.canceled w reason)).setCanceled reason w) :=
    { hparked with }
  have hgiven' : Given ((s.record (.canceled w reason)).setCanceled reason w) := hgiven
  have hlog' : Protocol.Kept Allowed (s.log ++ [.canceled w reason]) :=
    h.log.concat ⟨fun ho => absurd ho h.demand, h.canceled.uncanceled hc⟩
  have hlog : Protocol.Kept Allowed ((s.record (.canceled w reason)).setCanceled reason w).log :=
    hlog'
  have hpulled : Pulled ((s.record (.canceled w reason)).setCanceled reason w).log →
      ((s.record (.canceled w reason)).setCanceled reason w).readAgain = true :=
    fun hp => h.pulled (Pulled.of_concat (r := .canceled w reason) (by simp) hp)
  have hdemand : ¬ Owed ((s.record (.canceled w reason)).setCanceled reason w).log :=
    not_owed_concat (r := .canceled w reason) (by simp) (by simp)
  have hself : ((s.record (.canceled w reason)).setCanceled reason w).canceled w = true :=
    Function.update_self _ _ _
  rw [Tee.teeCancel]
  generalize (s.record (.canceled w reason)).setCanceled reason w = t at *
  have hboth := both_canceled hself
  split
  · -- the other branch is cancelled too: the source is
    rename_i hother
    rw [hother] at hboth
    obtain ⟨hc1, hc2⟩ := Bool.and_eq_true_iff.mp hboth
    generalize hr : (.sourceCanceled (t.reason .branch1) (t.reason .branch2) : Record χ ε) = r
    have hparked'' : Parked (t.record r) :=
      hparked'.record (by rw [← hr]; rfl) (by rw [← hr]; rfl)
    have hgiven'' : Given (t.record r) :=
      hgiven'.record (by rw [← hr]; rfl) (by rw [← hr]; rfl) fun w => by rw [← hr]; rfl
    have hcloned'' : Cloned (t.record r) :=
      hcloned'.record (by rw [← hr]; rfl) (by rw [← hr]; rfl)
    have hcounted'' : Counted (t.record r) :=
      hcounted'.record (by rw [← hr]; rfl) (by rw [← hr]; rfl) (by rw [← hr]; rfl)
    refine Inv.cancelSource ?_
    exact {
      parked := { hparked'' with }
      given := hgiven''
      cloned := { hcloned'' with }
      canceled := {
        branch := hbut.branch
        reason := by simpa [← hr] using hbut.reason
        canceled := hbut.canceled
        source := by
          rw [show ((t.record r).canceled .branch1 && (t.record r).canceled .branch2) = true from
            hboth, cond_true]
          simpa [← hr] using hbut.source
        promise := fun _ _ => .inr (Nat.succ_pos _) }
      log := by
        refine hlog.concat ⟨fun ho => absurd ho hdemand, ?_⟩
        rw [← hr]
        exact ⟨hbut.source, hbut.reason _, hbut.canceled _ ▸ hc1, hbut.reason _,
          hbut.canceled _ ▸ hc2⟩
      counted := { hcounted'' with }
      pulled := fun hp => hpulled (hp.of_concat (by simp [← hr]))
      demand := not_owed_concat (by simp [← hr]) (by simp [← hr]) }
  -- the source goes on for the other branch
  · rename_i hother
    rw [Bool.eq_false_iff.mpr hother] at hboth
    exact {
      parked := hparked'
      given := hgiven'
      cloned := hcloned'
      canceled := {
        branch := hbut.branch
        reason := hbut.reason
        canceled := hbut.canceled
        source := by rw [hbut.source, hboth, cond_false]
        promise := by
          intro h1 h2
          rw [h1, h2] at hboth
          cases hboth }
      log := hlog
      counted := hcounted'
      pulled := hpulled
      demand := hdemand }

/-- Only a branch that is not cancelled can be. -/
theorem inv_cancel (h : Inv s) {w : Which} (hb : s.branch w = .readable ∨ s.branch w = .closing)
    (reason : ε) :
    Inv (((s.setBranch w .closed).record (.canceled w reason)).teeCancel reason w) := by
  have hc : s.canceled w = false := by
    by_contra hc
    rw [h.canceled.branch w (by simpa using hc)] at hb
    simp at hb
  exact inv_teeCancel (h.setBranch w (by simp) fun _ => rfl) hc (Function.update_self _ _ _) reason

/-- The read request is taken for the chunk it gets. -/
theorem inv_chunk (h : Inv s) (hrequests : 0 < s.requests) (chunk : χ) :
    Inv (Tee.deliver { s with requests := s.requests - 1 } chunk) := by
  have hreading := h.counted.reading
  have hreads := h.counted.reads
  have hle : s.outstanding ≤ 1 := hreading ▸ Bool.toNat_le _
  have hone : s.outstanding = 1 := by
    simp only [Tee.outstanding] at hle ⊢
    omega
  have hfree : Tee.outstanding { s with requests := s.requests - 1 } = 0 := by
    simp only [Tee.outstanding] at hone ⊢
    omega
  refine Between.deliver ?_ chunk
  exact {
    toSound := h.toSound.setReads _ _ _ _ _
    reading := by
      rw [hone] at hreading
      exact Bool.toNat_eq_one.mp hreading.symm
    free := hfree
    reads := hone ▸ hreads
    pulled := h.pulled
    demand := h.demand }

theorem inv_new (cloneForBranch2 : Bool) (source : StreamState) (rejection : Option ε) :
    Inv (Tee.new cloneForBranch2 source rejection : Tee χ ε) where
  parked := ⟨rfl, rfl⟩
  given := fun w => ⟨List.prefix_rfl, fun _ => by cases w <;> rfl⟩
  cloned := ⟨fun _ => ⟨rfl, rfl⟩, List.prefix_rfl, fun _ _ => rfl, fun h => absurd rfl h⟩
  canceled := ⟨fun _ h => absurd h Bool.false_ne_true, fun _ => rfl, fun _ => rfl, rfl,
    fun h => absurd h Bool.false_ne_true⟩
  log := Protocol.kept_nil
  counted := ⟨rfl, rfl⟩
  pulled := fun hp => absurd hp Protocol.since_nil
  demand := fun ho => by simp [Tee.new, Owed] at ho

end WebStreams.Teeing
