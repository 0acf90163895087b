import Mathlib.Algebra.Order.Ring.Int
import Mathlib.Tactic.Common
import StarlingMonkey.Platform.BodyChannel

/-!
# Coalescing queued chunks

`coalesce_queued_chunks` appends the chunks that wait in a body's channel to the chunk that a
transport is about to write, up to 64 KiB.

* `Vec` is a byte vector with its capacity, and a count of the allocations its buffer has had.
* `coalesceQueuedChunks_ok` is one pass of the loop: `append` is what it does to the chunk.
* `Coalesced` says what a whole call does: which chunks it appends, and why it ends.
* `coalesceQueuedChunks_spec`: every call does so, and its subtraction never underflows.

An allocation that fails ends the process, so the allocations here succeed.
-/

namespace Platform

/-! ### Vectors -/

/-- The capacities an allocator gives. -/
structure Allocator where
  /-- For `reserve_exact`: the capacity at a request. -/
  exact : ℕ → ℕ
  /-- For `reserve`: the capacity at the present one and a request. -/
  amortized : ℕ → ℕ → ℕ
  le_exact : ∀ n, n ≤ exact n
  le_amortized : ∀ capacity n, n ≤ amortized capacity n

/-- A `Vec<u8>`. -/
structure Vec where
  bytes : Bytes
  capacity : ℕ
  /-- How often the buffer has been allocated anew. -/
  reallocations : ℕ
  fits : bytes.length ≤ capacity

namespace Vec

/-- `len()`. -/
def len (v : Vec) : ℕ := v.bytes.length

/-- `reserve_exact(additional)`. -/
def reserveExact (alloc : Allocator) (v : Vec) (additional : ℕ) : Vec :=
  if v.capacity - v.len < additional then
    { v with
      capacity := alloc.exact (v.len + additional)
      reallocations := v.reallocations + 1
      fits := (Nat.le_add_right _ _).trans (alloc.le_exact _) }
  else v

/-- `reserve(additional)`. -/
def reserve (alloc : Allocator) (v : Vec) (additional : ℕ) : Vec :=
  if v.capacity - v.len < additional then
    { v with
      capacity := alloc.amortized v.capacity (v.len + additional)
      reallocations := v.reallocations + 1
      fits := (Nat.le_add_right _ _).trans (alloc.le_amortized _ _) }
  else v

@[simp] theorem bytes_reserveExact (alloc : Allocator) (v : Vec) (additional : ℕ) :
    (v.reserveExact alloc additional).bytes = v.bytes := by
  unfold reserveExact
  split <;> rfl

@[simp] theorem bytes_reserve (alloc : Allocator) (v : Vec) (additional : ℕ) :
    (v.reserve alloc additional).bytes = v.bytes := by
  unfold reserve
  split <;> rfl

@[simp] theorem len_reserveExact (alloc : Allocator) (v : Vec) (additional : ℕ) :
    (v.reserveExact alloc additional).len = v.len := by
  rw [len, bytes_reserveExact, len]

/-- There is room for what was reserved. -/
theorem le_capacity_reserve (alloc : Allocator) (v : Vec) (additional : ℕ) :
    v.len + additional ≤ (v.reserve alloc additional).capacity := by
  unfold reserve
  split
  · exact alloc.le_amortized _ _
  · have := v.fits
    simp only [len] at *
    omega

/-- `extend_from_slice`. -/
def extendFromSlice (alloc : Allocator) (v : Vec) (slice : Bytes) : Vec :=
  { v.reserve alloc slice.length with
    bytes := v.bytes ++ slice
    fits := by
      rw [List.length_append]
      exact v.le_capacity_reserve alloc slice.length }

@[simp] theorem bytes_extendFromSlice (alloc : Allocator) (v : Vec) (slice : Bytes) :
    (v.extendFromSlice alloc slice).bytes = v.bytes ++ slice := rfl

/-- A slice for which there is room is copied into the buffer that is there. -/
theorem extendFromSlice_of_fits (alloc : Allocator) {v : Vec} {slice : Bytes}
    (h : v.len + slice.length ≤ v.capacity) :
    (v.extendFromSlice alloc slice).capacity = v.capacity ∧
      (v.extendFromSlice alloc slice).reallocations = v.reallocations := by
  have hreserve : v.reserve alloc slice.length = v := by
    rw [reserve, if_neg (by omega)]
  have hcapacity : (v.reserve alloc slice.length).capacity = v.capacity := by rw [hreserve]
  have hcount : (v.reserve alloc slice.length).reallocations = v.reallocations := by rw [hreserve]
  exact ⟨hcapacity, hcount⟩

end Vec

/-! ### The channel -/

variable {ε : Type}

/-- `OutgoingBodyReceiver`: the messages that are queued, and whether the channel is closed. -/
structure OutgoingBodyReceiver (ε : Type) where
  queue : List (Except ε Bytes)
  closed : Bool

/-- `TryRecvError`. -/
inductive TryRecvError where
  /-- The queue is empty, and the channel open. -/
  | empty
  /-- The queue is empty, and the channel closed. -/
  | closed
deriving DecidableEq, Repr

/-- `try_recv`. -/
def OutgoingBodyReceiver.tryRecv (receiver : OutgoingBodyReceiver ε) :
    Except TryRecvError (Except ε Bytes) × OutgoingBodyReceiver ε :=
  match receiver.queue with
  | message :: queue => (.ok message, { receiver with queue })
  | [] => (.error (if receiver.closed then .closed else .empty), receiver)

private theorem tryRecv_shorter {receiver left : OutgoingBodyReceiver ε} {message : Except ε Bytes}
    (h : receiver.tryRecv = (.ok message, left)) :
    receiver.queue = message :: left.queue ∧ left.closed = receiver.closed := by
  obtain ⟨queue, closed⟩ := receiver
  cases queue with
  | nil => cases h
  | cons head tail =>
    cases h
    exact ⟨rfl, rfl⟩

/-! ### The loop -/

/-- `COALESCE_LIMIT`. -/
def coalesceLimit : ℕ := 64 * 1024

/-- The subtraction in `coalesce_queued_chunks`. -/
inductive Underflow where
  | reserveExact
deriving DecidableEq, Repr

/-- `coalesce_queued_chunks`: the error it returns, and the receiver and the chunk after it. -/
def coalesceQueuedChunks (alloc : Allocator) (receiver : OutgoingBodyReceiver ε) (chunk : Vec) :
    Outcome Underflow Empty Unit (Option ε × OutgoingBodyReceiver ε × Vec) :=
  if chunk.len < coalesceLimit then
    match _h : receiver.tryRecv with
    | (.error _, receiver) => pure (none, receiver, chunk)
    | (.ok (.error error), receiver) => pure (some error, receiver, chunk)
    | (.ok (.ok next), receiver) => do
      let len := chunk.len + next.length
      let chunk ← if chunk.capacity < len then do
          Outcome.guard (chunk.len ≤ max len coalesceLimit) .reserveExact
          pure (chunk.reserveExact alloc (max len coalesceLimit - chunk.len))
        else pure chunk
      coalesceQueuedChunks alloc receiver (chunk.extendFromSlice alloc next)
  else pure (none, receiver, chunk)
termination_by receiver.queue.length
decreasing_by
  rw [(tryRecv_shorter _h).1]
  exact Nat.lt_succ_self _

variable (alloc : Allocator) {queue : List (Except ε Bytes)} {closed : Bool} {chunk : Vec}

/-! ### One pass -/

/-- The room that one pass makes for `n` bytes. -/
def makeRoom (alloc : Allocator) (chunk : Vec) (n : ℕ) : Vec :=
  if chunk.capacity < chunk.len + n then
    chunk.reserveExact alloc (max (chunk.len + n) coalesceLimit - chunk.len)
  else chunk

/-- What one pass does to the chunk. -/
def append (alloc : Allocator) (chunk : Vec) (next : Bytes) : Vec :=
  (makeRoom alloc chunk next.length).extendFromSlice alloc next

@[simp] theorem bytes_makeRoom (n : ℕ) : (makeRoom alloc chunk n).bytes = chunk.bytes := by
  unfold makeRoom
  split
  · exact chunk.bytes_reserveExact alloc _
  · rfl

@[simp] theorem bytes_append (next : Bytes) :
    (append alloc chunk next).bytes = chunk.bytes ++ next := by
  rw [append, Vec.bytes_extendFromSlice, bytes_makeRoom]

@[simp] theorem len_append (next : Bytes) :
    (append alloc chunk next).len = chunk.len + next.length := by
  rw [Vec.len, bytes_append, List.length_append, Vec.len]

/-- A chunk that has no room is reallocated once, up to the limit at least. -/
theorem makeRoom_of_lt {n : ℕ} (h : chunk.capacity < chunk.len + n) :
    max (chunk.len + n) coalesceLimit ≤ (makeRoom alloc chunk n).capacity ∧
      (makeRoom alloc chunk n).reallocations = chunk.reallocations + 1 := by
  have hfits : chunk.len ≤ chunk.capacity := chunk.fits
  have hmax := Nat.le_max_left (chunk.len + n) coalesceLimit
  have hreserve : chunk.capacity - chunk.len <
      max (chunk.len + n) coalesceLimit - chunk.len := by omega
  have hexact := alloc.le_exact (chunk.len + (max (chunk.len + n) coalesceLimit - chunk.len))
  rw [makeRoom, if_pos h, Vec.reserveExact, if_pos hreserve]
  exact ⟨le_trans (by omega) hexact, rfl⟩

/-- After `makeRoom` the bytes are copied into the buffer that is there. -/
theorem append_capacity (chunk : Vec) (next : Bytes) :
    (append alloc chunk next).capacity = (makeRoom alloc chunk next.length).capacity ∧
      (append alloc chunk next).reallocations =
        (makeRoom alloc chunk next.length).reallocations := by
  apply Vec.extendFromSlice_of_fits
  have hlen : (makeRoom alloc chunk next.length).len = chunk.len := by
    rw [Vec.len, bytes_makeRoom, Vec.len]
  rw [hlen]
  by_cases h : chunk.capacity < chunk.len + next.length
  · exact (Nat.le_max_left _ _).trans (makeRoom_of_lt alloc h).1
  · rw [makeRoom, if_neg h]
    omega

/-- A chunk without room grows to the limit, with one reallocation. -/
theorem append_of_lt {next : Bytes} (h : chunk.capacity < chunk.len + next.length) :
    coalesceLimit ≤ (append alloc chunk next).capacity ∧
      (append alloc chunk next).reallocations = chunk.reallocations + 1 := by
  obtain ⟨hcapacity, hcount⟩ := append_capacity alloc chunk next
  obtain ⟨hroom, hmore⟩ := makeRoom_of_lt alloc h
  rw [hcapacity, hcount]
  exact ⟨(Nat.le_max_right _ _).trans hroom, hmore⟩

/-- A chunk with room keeps its buffer. -/
theorem append_of_le {next : Bytes} (h : chunk.len + next.length ≤ chunk.capacity) :
    (append alloc chunk next).capacity = chunk.capacity ∧
      (append alloc chunk next).reallocations = chunk.reallocations := by
  obtain ⟨hcapacity, hcount⟩ := append_capacity alloc chunk next
  have hroom : makeRoom alloc chunk next.length = chunk := by rw [makeRoom, if_neg (by omega)]
  rw [hcapacity, hcount, hroom]
  exact ⟨rfl, rfl⟩

/-- A chunk that has reached the limit is left as it is. -/
theorem coalesceQueuedChunks_full (receiver : OutgoingBodyReceiver ε)
    (h : coalesceLimit ≤ chunk.len) :
    coalesceQueuedChunks alloc receiver chunk = .ok (none, receiver, chunk) := by
  rw [coalesceQueuedChunks, if_neg (by omega)]
  rfl

/-- An empty queue ends the loop. -/
theorem coalesceQueuedChunks_nil :
    coalesceQueuedChunks alloc (⟨[], closed⟩ : OutgoingBodyReceiver ε) chunk =
      .ok (none, ⟨[], closed⟩, chunk) := by
  rw [coalesceQueuedChunks]
  split <;> rfl

/-- An error ends the loop, and is returned. -/
theorem coalesceQueuedChunks_error {error : ε} (h : chunk.len < coalesceLimit) :
    coalesceQueuedChunks alloc ⟨.error error :: queue, closed⟩ chunk =
      .ok (some error, ⟨queue, closed⟩, chunk) := by
  rw [coalesceQueuedChunks, if_pos h]
  rfl

/-- One pass: the subtraction does not underflow. -/
theorem coalesceQueuedChunks_ok {next : Bytes} (h : chunk.len < coalesceLimit) :
    coalesceQueuedChunks alloc ⟨.ok next :: queue, closed⟩ chunk =
      coalesceQueuedChunks alloc ⟨queue, closed⟩ (append alloc chunk next) := by
  have hguard : chunk.len ≤ max (chunk.len + next.length) coalesceLimit :=
    (Nat.le_add_right _ _).trans (Nat.le_max_left _ _)
  rw [coalesceQueuedChunks, if_pos h, append, makeRoom]
  by_cases hroom : chunk.capacity < chunk.len + next.length
  · rw [if_pos hroom]
    simp only [OutgoingBodyReceiver.tryRecv, hroom, hguard, decide_true, if_true,
      Outcome.guard_true, Outcome.ok_bind, Outcome.pure_eq_ok]
  · rw [if_neg hroom]
    simp only [OutgoingBodyReceiver.tryRecv, hroom, if_false, Outcome.ok_bind, Outcome.pure_eq_ok]

/-! ### The whole loop -/

/-- What a call does: it appends the chunks `appended`, and leaves `left`. -/
structure Coalesced (queue : List (Except ε Bytes)) (chunk : Vec) (appended : List Bytes)
    (error : Option ε) (left : List (Except ε Bytes)) (result : Vec) : Prop where
  queue_eq : queue = appended.map .ok ++ error.toList.map .error ++ left
  bytes_eq : result.bytes = chunk.bytes ++ appended.flatten
  same : appended = [] → result = chunk
  /-- The chunk was short before each one that was appended. -/
  short : ∀ before next after, appended = before ++ next :: after →
    chunk.len + before.flatten.length < coalesceLimit
  failed : error ≠ none → result.len < coalesceLimit
  stopped : error = none → left ≠ [] → coalesceLimit ≤ result.len

/-- A call that ends at once. -/
private theorem Coalesced.refl {error : Option ε} {left : List (Except ε Bytes)}
    (hqueue : queue = error.toList.map .error ++ left)
    (hfailed : error ≠ none → chunk.len < coalesceLimit)
    (hstopped : error = none → left ≠ [] → coalesceLimit ≤ chunk.len) :
    Coalesced queue chunk [] error left chunk where
  queue_eq := hqueue
  bytes_eq := (List.append_nil _).symm
  same := fun _ => rfl
  short := fun _ _ _ h => absurd h (by simp)
  failed := hfailed
  stopped := hstopped

/-- One pass, and the rest of the call. -/
private theorem Coalesced.cons {next : Bytes} {appended : List Bytes} {error : Option ε}
    {left : List (Except ε Bytes)} {result : Vec} (hlen : chunk.len < coalesceLimit)
    (h : Coalesced queue (append alloc chunk next) appended error left result) :
    Coalesced (.ok next :: queue) chunk (next :: appended) error left result where
  queue_eq := by rw [h.queue_eq]; rfl
  bytes_eq := by rw [h.bytes_eq, bytes_append, List.flatten_cons, List.append_assoc]
  same := fun hnil => absurd hnil (by simp)
  short := fun before next' after heq => by
    cases before with
    | nil => simpa using hlen
    | cons first before =>
      obtain ⟨rfl, htail⟩ := List.cons_eq_cons.mp heq
      have hshort := h.short before next' after htail
      rw [len_append] at hshort
      rw [List.flatten_cons, List.length_append]
      omega
  failed := h.failed
  stopped := h.stopped

/-- **What a call does.** -/
theorem coalesceQueuedChunks_spec (alloc : Allocator) (closed : Bool)
    (queue : List (Except ε Bytes)) (chunk : Vec) :
    ∃ appended error left result,
      coalesceQueuedChunks alloc ⟨queue, closed⟩ chunk = .ok (error, ⟨left, closed⟩, result) ∧
      Coalesced queue chunk appended error left result := by
  induction queue generalizing chunk with
  | nil =>
    exact ⟨[], none, [], chunk, coalesceQueuedChunks_nil alloc,
      .refl rfl (fun h => absurd rfl h) fun _ h => absurd rfl h⟩
  | cons message queue ih =>
    by_cases hlen : chunk.len < coalesceLimit
    · cases message with
      | error e =>
        exact ⟨[], some e, queue, chunk, coalesceQueuedChunks_error alloc hlen,
          .refl rfl (fun _ => hlen) fun h => absurd h (by simp)⟩
      | ok next =>
        obtain ⟨appended, error, left, result, hcall, hspec⟩ := ih (append alloc chunk next)
        exact ⟨next :: appended, error, left, result,
          (coalesceQueuedChunks_ok alloc hlen).trans hcall, hspec.cons alloc hlen⟩
    · have hfull : coalesceLimit ≤ chunk.len := by omega
      exact ⟨[], none, message :: queue, chunk, coalesceQueuedChunks_full alloc _ hfull,
        .refl rfl (fun h => absurd rfl h) fun _ _ => hfull⟩

/-- An error that comes up while the chunk is short is returned. -/
theorem coalesceQueuedChunks_reaches (alloc : Allocator) (closed : Bool) {before : List Bytes}
    (e : ε) (after : List (Except ε Bytes)) (chunk : Vec)
    (h : chunk.len + before.flatten.length < coalesceLimit) :
    ∃ result, coalesceQueuedChunks alloc ⟨before.map .ok ++ .error e :: after, closed⟩ chunk =
      .ok (some e, ⟨after, closed⟩, result) := by
  induction before generalizing chunk with
  | nil => exact ⟨chunk, coalesceQueuedChunks_error alloc (by simpa using h)⟩
  | cons next before ih =>
    rw [List.flatten_cons, List.length_append] at h
    have hlen : chunk.len < coalesceLimit := by omega
    obtain ⟨result, hcall⟩ := ih (append alloc chunk next) (by
      rw [len_append]
      omega)
    exact ⟨result, (coalesceQueuedChunks_ok alloc hlen).trans hcall⟩

/-- Once the buffer has the size of the limit, at most one reallocation is left. -/
theorem reallocations_of_capacity (alloc : Allocator) (closed : Bool)
    (queue : List (Except ε Bytes)) {chunk : Vec} (h : coalesceLimit ≤ chunk.capacity)
    {error : Option ε} {left : OutgoingBodyReceiver ε} {result : Vec}
    (hcall : coalesceQueuedChunks alloc ⟨queue, closed⟩ chunk = .ok (error, left, result)) :
    result.reallocations ≤ chunk.reallocations + 1 := by
  induction queue generalizing chunk with
  | nil =>
    rw [coalesceQueuedChunks_nil] at hcall
    cases hcall
    exact Nat.le_succ _
  | cons message queue ih =>
    by_cases hlen : chunk.len < coalesceLimit
    · cases message with
      | error e =>
        rw [coalesceQueuedChunks_error alloc hlen] at hcall
        cases hcall
        exact Nat.le_succ _
      | ok next =>
        rw [coalesceQueuedChunks_ok alloc hlen] at hcall
        by_cases hroom : chunk.capacity < chunk.len + next.length
        · -- The reallocation takes the chunk past the limit, so this was the last pass.
          obtain ⟨-, hcount⟩ := append_of_lt alloc hroom
          rw [coalesceQueuedChunks_full alloc _ (by rw [len_append]; omega)] at hcall
          cases hcall
          exact hcount.le
        · obtain ⟨hcapacity, hcount⟩ := append_of_le alloc (Nat.le_of_not_lt hroom)
          exact hcount ▸ ih (h.trans hcapacity.ge) hcall
    · rw [coalesceQueuedChunks_full alloc _ (Nat.le_of_not_lt hlen)] at hcall
      cases hcall
      exact Nat.le_succ _

/-- At most two reallocations in all. -/
theorem reallocations_le (alloc : Allocator) (closed : Bool) (queue : List (Except ε Bytes))
    {chunk : Vec} {error : Option ε} {left : OutgoingBodyReceiver ε} {result : Vec}
    (hcall : coalesceQueuedChunks alloc ⟨queue, closed⟩ chunk = .ok (error, left, result)) :
    result.reallocations ≤ chunk.reallocations + 2 := by
  induction queue generalizing chunk with
  | nil =>
    rw [coalesceQueuedChunks_nil] at hcall
    cases hcall
    exact Nat.le_add_right _ _
  | cons message queue ih =>
    by_cases hlen : chunk.len < coalesceLimit
    · cases message with
      | error e =>
        rw [coalesceQueuedChunks_error alloc hlen] at hcall
        cases hcall
        exact Nat.le_add_right _ _
      | ok next =>
        rw [coalesceQueuedChunks_ok alloc hlen] at hcall
        by_cases hroom : chunk.capacity < chunk.len + next.length
        · obtain ⟨hcapacity, hcount⟩ := append_of_lt alloc hroom
          have hrest := reallocations_of_capacity alloc closed queue hcapacity hcall
          omega
        · obtain ⟨-, hcount⟩ := append_of_le alloc (Nat.le_of_not_lt hroom)
          exact hcount ▸ ih hcall
    · rw [coalesceQueuedChunks_full alloc _ (Nat.le_of_not_lt hlen)] at hcall
      cases hcall
      exact Nat.le_add_right _ _

/-- **Coalescing queued chunks.** -/
theorem coalesceQueuedChunks_eq (alloc : Allocator) (receiver : OutgoingBodyReceiver ε)
    (chunk : Vec) :
    ∃ appended error left result,
      coalesceQueuedChunks alloc receiver chunk = .ok (error, left, result) ∧
      receiver.queue = appended.map .ok ++ error.toList.map .error ++ left.queue ∧
      left.closed = receiver.closed ∧ result.bytes = chunk.bytes ++ appended.flatten ∧
      (∀ e, error = some e ↔ ∃ (before : List Bytes) (after : List (Except ε Bytes)),
        receiver.queue = before.map .ok ++ .error e :: after ∧
        chunk.len + before.flatten.length < coalesceLimit) ∧
      (error = none → left.queue ≠ [] → coalesceLimit ≤ result.len) ∧
      ((∀ before e after, receiver.queue = before ++ .error e :: after → after = []) →
        left.queue ≠ [] → coalesceLimit ≤ result.len) ∧
      (result = chunk ∨ ∃ before last, appended = before ++ [last] ∧
        result.len < coalesceLimit + last.length) ∧
      result.reallocations ≤ chunk.reallocations + 2 := by
  obtain ⟨queue, closed⟩ := receiver
  obtain ⟨appended, error, left, result, hcall, hspec⟩ :=
    coalesceQueuedChunks_spec alloc closed queue chunk
  refine ⟨appended, error, ⟨left, closed⟩, result, hcall, hspec.queue_eq, rfl, hspec.bytes_eq,
    fun e => ⟨?_, ?_⟩, hspec.stopped, fun hlast hleft => ?_, ?_,
    reallocations_le alloc closed queue hcall⟩
  · rintro rfl
    refine ⟨appended, left, by rw [hspec.queue_eq]; simp, ?_⟩
    have hfailed := hspec.failed (by simp)
    rwa [Vec.len, hspec.bytes_eq, List.length_append] at hfailed
  · rintro ⟨before, after, hqueue, hshort⟩
    obtain ⟨result', hcall'⟩ := coalesceQueuedChunks_reaches alloc closed e after chunk hshort
    dsimp only at hqueue
    rw [hqueue, hcall'] at hcall
    exact ((Prod.mk.inj (Outcome.ok.inj hcall)).1).symm
  · cases error with
    | none => exact hspec.stopped rfl hleft
    | some e => exact absurd (hlast (appended.map .ok) e left (by rw [hspec.queue_eq]; simp)) hleft
  · rcases List.eq_nil_or_concat appended with hnil | ⟨before, last, hsome⟩
    · exact .inl (hspec.same hnil)
    · rw [List.concat_eq_append] at hsome
      refine .inr ⟨before, last, hsome, ?_⟩
      have hshort := hspec.short before last [] hsome
      rw [Vec.len, hspec.bytes_eq, hsome, List.length_append, List.flatten_append,
        List.length_append, List.flatten_singleton, ← Vec.len]
      omega

end Platform
