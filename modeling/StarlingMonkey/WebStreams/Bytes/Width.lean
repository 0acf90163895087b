import StarlingMonkey.WebStreams.Bytes.Machine

/-!
# Sizes and the width of pointers

Author code passes sizes as 64-bit numbers, the controller counts in `usize`. The operations that
convert are modelled here for both widths `usize` has; everywhere else a size is a natural number.

* `jsReadIntoOn_eq`, `controllerRespondOn_eq` and `bytePullStepsOn_eq`: an operation on a width is
  that on natural numbers, with the size that the conversion leaves. `respond` converts after it has
  compared, so it leaves the size alone.
* `sizes_survive_iff` says for which sizes an operation keeps what the author asked for.
-/

namespace WebStreams

/-- The targets, by the width of their pointers. -/
inductive PointerWidth where
  | wasm32
  | host64
deriving DecidableEq, Repr

namespace PointerWidth

/-- The number of values of `usize`. -/
def usizes : PointerWidth → ℕ
  | .wasm32 => 2 ^ 32
  | .host64 => 2 ^ 64

/-- `as usize`. -/
def cast (w : PointerWidth) (n : ℕ) : ℕ := n % w.usizes

/-- A product in `usize`: an overflow aborts a debug build, and wraps around in a release build. -/
def mul (w : PointerWidth) (debug : Bool) (a b : ℕ) : ByteOutcome ℕ :=
  if a * b < w.usizes then pure (a * b)
  else if debug then .panic (.assertion .pullInto)
  else pure (a * b % w.usizes)

variable {w : PointerWidth} {n : ℕ}

theorem usizes_pos (w : PointerWidth) : 0 < w.usizes := by
  cases w <;> decide

theorem cast_of_lt (h : n < w.usizes) : w.cast n = n := Nat.mod_eq_of_lt h

theorem cast_lt (w : PointerWidth) (n : ℕ) : w.cast n < w.usizes := Nat.mod_lt n w.usizes_pos

end PointerWidth

namespace ByteStream

variable {w : PointerWidth} {env : Env} {s : ByteStream} {view : ArrayBufferView}
  {d : PullIntoDescriptor} {min n r size : ℕ}

/-! ### Reading into a view -/

/-- `BYOBReader.read`, the checks of the view and of the option, which return `min`. -/
def readIntoChecks (w : PointerWidth) (s : ByteStream) (view : ArrayBufferView) (min : ℕ) :
    ByteOutcome ℕ :=
  let min := w.cast min
  if view.byteLength = 0 then .threw (.typeError "read() view has a byte length of 0") s
  else if view.buffer.byteLength = 0 then
    .threw (.typeError "read() view's buffer has a byte length of 0") s
  else if view.buffer.detached then .threw (.typeError "read() view's buffer is detached") s
  else if min = 0 then .threw (.typeError "read() option min cannot be 0") s
  else if view.viewKind.isTypedArray && view.arrayLength < min then
    .threw (.rangeError "read() option min exceeds the view's length") s
  else if !view.viewKind.isTypedArray && view.byteLength < min then
    .threw (.rangeError "read() option min exceeds the view's byte length") s
  else pure min

/-- `readable_byte_stream_controller_pull_into`. -/
def controllerPullIntoOn (w : PointerWidth) (env : Env) (s : ByteStream) (view : ArrayBufferView)
    (min r : ℕ) : ByteOutcome ByteStream := do
  let minimumFill ← w.mul env.debug min view.viewKind.elementSize
  env.assert (minimumFill ≤ view.byteLength) .pullInto
  env.assert (minimumFill % view.viewKind.elementSize = 0) .pullInto
  match view.buffer.transfer s.nextBuffer with
  | none => s.settle env r (.error .engine)
  | some buffer =>
    servePullInto env { s with nextBuffer := s.nextBuffer + 1 }
      { viewDescriptor view buffer min with minimumFill := minimumFill } r

/-- `readable_stream_byob_reader_read`, for the reader that holds the lock. -/
def byobReaderReadOn (w : PointerWidth) (env : Env) (s : ByteStream) (view : ArrayBufferView)
    (min r : ℕ) : ByteOutcome ByteStream :=
  let s := { s with disturbed := true }
  if s.state = .errored then s.settle env r (.error (s.storedError.getD (.reason 0)))
  else s.controllerPullIntoOn w env view min r

/-- `BYOBReader.read`. -/
def jsReadIntoOn (w : PointerWidth) (env : Env) (s : ByteStream) (view : ArrayBufferView)
    (min : ℕ) : ByteOutcome ByteStream := do
  let min ← s.readIntoChecks w view min
  if s.hasByobReader then s.issue.byobReaderReadOn w env view min s.nextRequest
  else .threw (.typeError "Cannot read from a reader that is not attached to a stream") s

/-- The view passes the checks with the minimum that is left of it. -/
theorem readIntoChecks_eq_ok {m : ℕ} : s.readIntoChecks w view min = .ok m ↔
    m = w.cast min ∧ 1 ≤ w.cast min ∧ w.cast min ≤ view.arrayLength := by
  have hbyte : view.byteLength = view.arrayLength * view.viewKind.elementSize := rfl
  have hpos := view.viewKind.elementSize_pos
  have hbound := view.bound
  have hdataView : view.viewKind.isTypedArray = false → view.viewKind.elementSize = 1 := by
    cases view.viewKind <;> simp [ViewKind.isTypedArray, ViewKind.elementSize]
  rw [readIntoChecks]
  split_ifs with h0 hbuffer hdetached hmin htyped hdata
  · have : view.arrayLength = 0 := by
      rw [hbyte, Nat.mul_eq_zero] at h0
      exact h0.resolve_right hpos.ne'
    simp only [false_iff, not_and]
    omega
  · omega
  · rw [ArrayBufferView.not_detached (by omega)] at hdetached
    cases hdetached
  · simp only [false_iff, not_and]
    omega
  · simp only [Bool.and_eq_true, decide_eq_true_eq] at htyped
    simp only [false_iff, not_and]
    omega
  · simp only [Bool.and_eq_true, Bool.not_eq_true', decide_eq_true_eq] at hdata
    rw [hbyte, hdataView hdata.1, Nat.mul_one] at hdata
    simp only [false_iff, not_and]
    omega
  · have hle : w.cast min ≤ view.arrayLength := by
      cases hkind : view.viewKind.isTypedArray with
      | true => simpa [hkind] using htyped
      | false => simpa [hkind, hbyte, hdataView hkind] using hdata
    rw [Outcome.pure_eq_ok, Outcome.ok.injEq, eq_comm]
    exact (and_iff_left ⟨by omega, hle⟩).symm

/-- A minimum that passes does not overflow. -/
theorem mul_elementSize (hview : view.byteLength < w.usizes) (hmin : min ≤ view.arrayLength)
    (debug : Bool) :
    w.mul debug min view.viewKind.elementSize = .ok (min * view.viewKind.elementSize) :=
  if_pos ((Nat.mul_le_mul_right _ hmin).trans_lt hview)

/-- **A read on a width** is that with the minimum that the conversion leaves. -/
theorem jsReadIntoOn_eq (hview : view.byteLength < w.usizes) :
    s.jsReadIntoOn w env view min = s.jsReadInto env view (w.cast min) := by
  cases hchecks : s.readIntoChecks w view min with
  | ok m =>
    obtain ⟨rfl, hone, hle⟩ := readIntoChecks_eq_ok.mp hchecks
    have hpull (s : ByteStream) (r : ℕ) : s.controllerPullIntoOn w env view (w.cast min) r =
        s.controllerPullInto env view (w.cast min) r := by
      rw [controllerPullIntoOn, mul_elementSize hview hle]
      rfl
    have hread (s : ByteStream) (r : ℕ) : s.byobReaderReadOn w env view (w.cast min) r =
        s.byobReaderRead env view (w.cast min) r := by
      rw [byobReaderReadOn, byobReaderRead, hpull]
    rw [jsReadIntoOn, hchecks, Outcome.ok_bind, hread]
    rw [readIntoChecks] at hchecks
    rw [jsReadInto]
    split_ifs at hchecks ⊢ <;> rfl
  | threw e t =>
    rw [jsReadIntoOn, hchecks, Outcome.threw_bind]
    rw [readIntoChecks] at hchecks
    rw [jsReadInto]
    split_ifs at hchecks ⊢ <;> simpa using hchecks.symm
  | panic p =>
    rw [readIntoChecks] at hchecks
    split_ifs at hchecks

/-! ### Responding -/

/-- `readable_byte_stream_controller_respond`, the checks, which are made in `u64`. -/
def respondChecks (env : Env) (s : ByteStream) (d : PullIntoDescriptor) (bytesWritten : ℕ) :
    ByteOutcome Unit :=
  if s.state = .closed then
    if bytesWritten ≠ 0 then
      .threw (.typeError "bytesWritten must be 0 for a closed stream") s
    else pure ()
  else do
    env.assert (s.state = .readable) .respond
    if bytesWritten = 0 then
      .threw (.typeError "bytesWritten must not be 0 for a readable stream") s
    else if d.byteLength - d.bytesFilled < bytesWritten then
      .threw (.rangeError "bytesWritten exceeds the requested view's length") s
    else pure ()

/-- `readable_byte_stream_controller_respond`. -/
def controllerRespondOn (w : PointerWidth) (env : Env) (s : ByteStream) (bytesWritten : ℕ) :
    ByteOutcome ByteStream :=
  match s.pendingPullIntos with
  | [] => do
    env.assert false .respond
    .panic (.expectation .respond)
  | d :: _ => do
    respondChecks env s d bytesWritten
    let bytesWritten := w.cast bytesWritten
    match d.buffer.transfer s.nextBuffer with
    | none => .threw .engine s
    | some b => (s.setHeadBuffer b).respondInternal env bytesWritten

/-- What the checks of a response let through. -/
theorem respondChecks_eq_ok (hstate : s.state = .readable) :
    s.respondChecks env d n = .ok () ↔ 1 ≤ n ∧ n ≤ d.byteLength - d.bytesFilled := by
  have hassert : env.assert (decide (s.state = .readable)) .respond = .ok () := by
    simp [hstate, Env.assert, Outcome.guard]
  rw [respondChecks, if_neg (by rw [hstate]; decide), hassert, Outcome.ok_bind]
  split_ifs with hzero hrange
  · simp only [false_iff, not_and]
    omega
  · simp only [false_iff, not_and]
    omega
  · simp only [Outcome.pure_eq_ok, true_iff]
    omega

theorem cast_of_respondChecks (hd : d.byteLength < w.usizes)
    (hchecks : s.respondChecks env d n = .ok ()) : w.cast n = n := by
  by_cases hclosed : s.state = .closed
  · rw [respondChecks, if_pos hclosed] at hchecks
    split_ifs at hchecks with hzero
    rw [not_not.mp hzero]
    exact PointerWidth.cast_of_lt w.usizes_pos
  · refine PointerWidth.cast_of_lt ?_
    rw [respondChecks, if_neg hclosed] at hchecks
    obtain ⟨-, -, hchecks⟩ := Outcome.bind_eq_ok hchecks
    split_ifs at hchecks with hzero hrange
    omega

/-- **A response on a width** is that on natural numbers. -/
theorem controllerRespondOn_eq (hhead : ∀ d ∈ s.pendingPullIntos, d.byteLength < w.usizes) :
    s.controllerRespondOn w env n = s.controllerRespond env n := by
  rw [controllerRespondOn, controllerRespond]
  cases hpending : s.pendingPullIntos with
  | nil => rfl
  | cons d ds =>
    have hcast : s.respondChecks env d n = .ok () → w.cast n = n :=
      cast_of_respondChecks (hhead d (by simp [hpending]))
    by_cases hclosed : s.state = .closed
    · simp only [respondChecks, if_pos hclosed] at hcast ⊢
      split_ifs at hcast ⊢ with hzero
      · rfl
      · rw [hcast rfl]
        rfl
    · simp only [respondChecks, if_neg hclosed] at hcast ⊢
      cases hassert : env.assert (decide (s.state = .readable)) .respond with
      | ok x =>
        rw [hassert, Outcome.ok_bind] at hcast
        simp only [Outcome.ok_bind]
        split_ifs at hcast ⊢ with hzero hrange
        · rfl
        · rfl
        · rw [hcast rfl]
          rfl
      | threw e t => rfl
      | panic p => rfl

/-! ### Allocating for a read -/

/-- `byte_pull_steps`, the descriptor that is made for a read, where `alloc` says which allocations
succeed. -/
def autoAllocate (w : PointerWidth) (alloc : ℕ → Bool) (s : ByteStream) (size : ℕ) :
    Option PullIntoDescriptor :=
  let size := w.cast size
  if alloc size then
    some
      { buffer := .new s.nextBuffer size
        bufferByteLength := size
        byteOffset := 0
        byteLength := size
        bytesFilled := 0
        minimumFill := 1
        elementSize := 1
        viewKind := .uint8
        readerType := .default }
  else none

/-- `byte_pull_steps`. -/
def bytePullStepsOn (w : PointerWidth) (alloc : ℕ → Bool) (env : Env) (s : ByteStream) (r : ℕ) :
    ByteOutcome ByteStream := do
  env.assert s.hasDefaultReader .bytePullSteps
  if 0 < s.queueTotalSize then do
    if env.debug then do
      let n ← s.getNumReadRequests
      env.assert (n = 0) .bytePullSteps
    (s.fillReadRequestFromQueue env r).infallible (.expectation .bytePullSteps)
  else
    match s.autoAllocateChunkSize with
    | some size =>
      match autoAllocate w alloc s size with
      | some d =>
        let s ← addReadRequest { s with
          nextBuffer := s.nextBuffer + 1
          pendingPullIntos := s.pendingPullIntos ++ [d] } r
        s.callPullIfNeeded env
      | none => s.settle env r (.error .engine)
    | none => do
      let s ← s.addReadRequest r
      s.callPullIfNeeded env

/-- **A default read on a width** is that on natural numbers, for a chunk size that is a `usize`. -/
theorem bytePullStepsOn_eq {alloc : ℕ → Bool}
    (hsize : ∀ n, s.autoAllocateChunkSize = some n → n < w.usizes ∧ alloc n = env.alloc) :
    s.bytePullStepsOn w alloc env r = s.bytePullSteps env r := by
  rw [bytePullStepsOn, bytePullSteps]
  cases hauto : s.autoAllocateChunkSize with
  | none => rfl
  | some size =>
    obtain ⟨hlt, halloc⟩ := hsize size hauto
    simp only [autoAllocate, PointerWidth.cast_of_lt hlt, halloc]
    congr 1
    funext x
    split_ifs <;> rfl

/-! ### Which sizes survive -/

/-- What reading into a view does with the minimum that the author gives. -/
structure ReadLaw (w : PointerWidth) (debug : Bool) (s : ByteStream) (view : ArrayBufferView)
    (min : ℕ) : Prop where
  accepted : (∃ m, s.readIntoChecks w view min = .ok m) ↔ 1 ≤ min ∧ min ≤ view.arrayLength
  minimumFill : ∀ m, s.readIntoChecks w view min = .ok m →
    w.mul debug m view.viewKind.elementSize = .ok (min * view.viewKind.elementSize)

/-- What a response does with the number of bytes that the author gives. -/
structure RespondLaw (w : PointerWidth) (env : Env) (s : ByteStream) (n : ℕ) : Prop where
  accepted : ∀ d ∈ s.pendingPullIntos.head?, s.state = .readable →
    (s.respondChecks env d n = .ok () ↔ 1 ≤ n ∧ n ≤ d.byteLength - d.bytesFilled)
  written : ∀ d ∈ s.pendingPullIntos.head?, s.respondChecks env d n = .ok () → w.cast n = n

/-- What a default read does with the chunk size that the author gives. -/
def AllocateLaw (w : PointerWidth) (alloc : ℕ → Bool) (s : ByteStream) (size : ℕ) : Prop :=
  s.autoAllocate w alloc size = none ∨
    ∃ d, s.autoAllocate w alloc size = some d ∧ d.byteLength = size

/-- The conversion does not turn a minimum that is too large into one that is not. -/
theorem readLaw_iff (hview : view.byteLength < w.usizes) (debug : Bool) :
    ReadLaw w debug s view min ↔
      min < w.usizes ∨ ¬ (1 ≤ w.cast min ∧ w.cast min ≤ view.arrayLength) := by
  have hlength : view.arrayLength < w.usizes :=
    (Nat.le_mul_of_pos_right _ view.viewKind.elementSize_pos).trans_lt hview
  have hok : (∃ m, s.readIntoChecks w view min = .ok m) ↔
      1 ≤ w.cast min ∧ w.cast min ≤ view.arrayLength := by
    simp only [readIntoChecks_eq_ok, exists_eq_left]
  constructor
  · intro h
    by_contra hboth
    rw [not_or, not_lt, not_not] at hboth
    have := (h.accepted.mp (hok.mpr hboth.2)).2
    omega
  · rintro (hlt | hout)
    · rw [PointerWidth.cast_of_lt hlt] at hok
      refine ⟨hok, fun m hm => ?_⟩
      obtain ⟨rfl, -, hle⟩ := readIntoChecks_eq_ok.mp hm
      rw [mul_elementSize hview hle, PointerWidth.cast_of_lt hlt]
    · have hnone := fun h => hout (hok.mp h)
      refine ⟨iff_of_false hnone ?_, fun m hm => absurd ⟨m, hm⟩ hnone⟩
      rintro ⟨hone, hle⟩
      rw [PointerWidth.cast_of_lt (by omega)] at hout
      exact hout ⟨hone, hle⟩

theorem respondLaw (hhead : ∀ d ∈ s.pendingPullIntos, d.byteLength < w.usizes) :
    RespondLaw w env s n where
  accepted _ _ hstate := respondChecks_eq_ok hstate
  written d hd hchecks := cast_of_respondChecks (hhead d (List.mem_of_head? hd)) hchecks

/-- The conversion leaves a chunk size alone, or it is one that cannot be allocated. -/
theorem allocateLaw_iff (alloc : ℕ → Bool) :
    AllocateLaw w alloc s size ↔ size < w.usizes ∨ alloc (w.cast size) = false := by
  rw [AllocateLaw, autoAllocate]
  cases halloc : alloc (w.cast size) with
  | false => simp
  | true =>
    simp only [if_true, reduceCtorEq, false_or, Option.some.injEq, exists_eq_left', or_false,
      Bool.true_eq_false]
    exact ⟨fun h => h ▸ w.cast_lt size, PointerWidth.cast_of_lt⟩

/-- **Which sizes survive**: all of them where pointers have 64 bits, and the others unless the
conversion turns one into a size that is accepted. -/
theorem sizes_survive_iff (env : Env) (alloc : ℕ → Bool) (hview : view.byteLength < w.usizes)
    (hhead : ∀ d ∈ s.pendingPullIntos, d.byteLength < w.usizes) (min n size : UInt64) :
    (ReadLaw w env.debug s view min.toNat ∧ RespondLaw w env s n.toNat ∧
      AllocateLaw w alloc s size.toNat) ↔
    (min.toNat < w.usizes ∨
      ¬ (1 ≤ min.toNat % w.usizes ∧ min.toNat % w.usizes ≤ view.arrayLength)) ∧
    (size.toNat < w.usizes ∨ alloc (size.toNat % w.usizes) = false) := by
  rw [readLaw_iff hview, allocateLaw_iff]
  exact and_congr_right' (and_iff_right (respondLaw hhead))

private theorem eightBytes_aligned : 0 % ViewKind.uint8.elementSize = 0 := rfl

private theorem eightBytes_fits :
    0 + 8 * ViewKind.uint8.elementSize ≤ (ArrayBuffer.new 0 8).byteLength := by decide

/-- A view of eight bytes. -/
private def eightBytes : ArrayBufferView :=
  ⟨.uint8, .new 0 8, 0, 8, eightBytes_aligned, eightBytes_fits⟩

/-- A stream with a pending read into such a view. -/
private def pendingRead : ByteStream :=
  { initial none none with pendingPullIntos := [viewDescriptor eightBytes (.new 1 8) 1] }

/-- Sizes from `2 ^ 32` on, of which none is accepted, on the target with 32-bit pointers. -/
theorem sizes_survive_beyond :
    ReadLaw .wasm32 true pendingRead eightBytes 0x100000009 ∧
    RespondLaw .wasm32 (.quiet true true) pendingRead 0x100000001 ∧
    AllocateLaw .wasm32 (fun _ => false) pendingRead 0x100000001 := by
  have hview : eightBytes.byteLength < PointerWidth.wasm32.usizes := by decide
  have hhead : ∀ d ∈ pendingRead.pendingPullIntos, d.byteLength < PointerWidth.wasm32.usizes := by
    intro d hd
    rw [List.mem_singleton.mp hd]
    exact hview
  exact (sizes_survive_iff (.quiet true true) (fun _ => false) hview hhead
    0x100000009 0x100000001 0x100000001).mpr (by decide)

/-- A minimum and a chunk size of `2 ^ 32 + 1` are taken for one. -/
theorem sizes_not_survive :
    ¬ ReadLaw .wasm32 true (.initial none none) eightBytes 0x100000001 ∧
    ¬ AllocateLaw .wasm32 (fun _ => true) (.initial none none) 0x100000001 := by
  rw [readLaw_iff (by decide), allocateLaw_iff]
  decide

end ByteStream

end WebStreams
