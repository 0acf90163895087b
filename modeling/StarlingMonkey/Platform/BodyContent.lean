import StarlingMonkey.Platform.Coalescing

/-!
# The content of a body

The messages of a body channel are chunks, and an error at most at the end. Its content are the
chunks before the first error, and what may be sent of it is what fits a declared length. Both
transports are measured by these, however they group the chunks.
-/

namespace Platform

variable {ε : Type} {l m : List (Except ε Bytes)} {error : ε}

/-- The chunks before the first error. -/
def content : List (Except ε Bytes) → Bytes
  | [] => []
  | .ok chunk :: l => chunk ++ content l
  | .error _ :: _ => []

/-- The first error. -/
def failure : List (Except ε Bytes) → Option ε
  | [] => none
  | .ok _ :: l => failure l
  | .error error :: _ => some error

theorem failure_append (h : failure l = none) : failure (l ++ m) = failure m := by
  induction l with
  | nil => rfl
  | cons message l ih =>
    cases message with
    | ok chunk => exact ih h
    | error error => cases h

theorem failure_append_of_some (h : failure l = some error) : failure (l ++ m) = some error := by
  induction l with
  | nil => cases h
  | cons message l ih =>
    cases message with
    | ok chunk => exact ih h
    | error error => exact h

theorem content_append (h : failure l = none) : content (l ++ m) = content l ++ content m := by
  induction l with
  | nil => rfl
  | cons message l ih =>
    cases message with
    | ok chunk =>
      show chunk ++ content (l ++ m) = chunk ++ content l ++ content m
      rw [ih h, List.append_assoc]
    | error error => cases h

theorem content_append_of_some (h : failure l = some error) : content (l ++ m) = content l := by
  induction l with
  | nil => cases h
  | cons message l ih =>
    cases message with
    | ok chunk => exact congrArg (chunk ++ ·) (ih h)
    | error error => rfl

/-- More messages bring more content. -/
theorem content_prefix (l m : List (Except ε Bytes)) : content l <+: content (l ++ m) := by
  cases h : failure l with
  | none =>
    rw [content_append h]
    exact List.prefix_append _ _
  | some error => exact (content_append_of_some h).symm ▸ List.prefix_rfl

@[simp] theorem content_map_ok (chunks : List Bytes) :
    content (chunks.map (.ok : Bytes → Except ε Bytes)) = chunks.flatten := by
  induction chunks with
  | nil => rfl
  | cons chunk chunks ih => exact congrArg (chunk ++ ·) ih

@[simp] theorem failure_map_ok (chunks : List Bytes) :
    failure (chunks.map (.ok : Bytes → Except ε Bytes)) = none := by
  induction chunks with
  | nil => rfl
  | cons chunk chunks ih => exact ih

/-- Chunks, and an error if there is one. -/
theorem content_ok_error (chunks : List Bytes) (error : Option ε) :
    content (chunks.map (.ok : Bytes → Except ε Bytes) ++ error.toList.map .error) =
      chunks.flatten := by
  rw [content_append (failure_map_ok chunks), content_map_ok]
  cases error with
  | none => exact List.append_nil _
  | some error => exact List.append_nil _

theorem failure_ok_error (chunks : List Bytes) (error : Option ε) :
    failure (chunks.map (.ok : Bytes → Except ε Bytes) ++ error.toList.map .error) = error := by
  rw [failure_append (failure_map_ok chunks)]
  cases error with
  | none => rfl
  | some error => rfl

namespace Remaining

variable {remaining : Remaining} {bytes more : Bytes}

theorem fit_prefix (h : bytes <+: more) : remaining.fit bytes <+: remaining.fit more := by
  obtain ⟨rest, rfl⟩ := h
  rw [fit_append]
  exact List.prefix_append _ _

/-- Once the declared length is full, more content changes nothing. -/
theorem fit_full (h : remaining.less (remaining.fit bytes).length = some 0) :
    remaining.fit (bytes ++ more) = remaining.fit bytes := by
  rw [fit_append, h]
  exact List.append_nil _

/-- A full length is what fits. -/
theorem length_fit_of_full (h : remaining.less (remaining.fit bytes).length = some 0) :
    remaining = some (remaining.fit bytes).length := by
  cases remaining with
  | none => cases h
  | some length =>
    have hle : (fit (some length) bytes).length ≤ length := List.length_take_le _ _
    have hsub : length - (fit (some length) bytes).length = 0 := Option.some.inj h
    exact congrArg some (by omega)

theorem length_fit_le {length : ℕ} (bytes : Bytes) : (fit (some length) bytes).length ≤ length :=
  List.length_take_le _ _

theorem length_fit_le_length : (remaining.fit bytes).length ≤ bytes.length := by
  cases remaining with
  | none => exact le_rfl
  | some length => exact List.length_take_le' _ _

/-- What is short of its declared length is all of the content. -/
theorem fit_of_short {length : ℕ} (h : (fit (some length) bytes).length < length) :
    fit (some length) bytes = bytes := by
  refine List.take_of_length_le ?_
  have : (bytes.take length).length < length := h
  rw [List.length_take] at this
  omega

end Remaining

/-- The vector of a chunk that was just received. -/
def Vec.ofBytes (bytes : Bytes) : Vec := ⟨bytes, bytes.length, 0, le_rfl⟩

@[simp] theorem Vec.bytes_ofBytes (bytes : Bytes) : (Vec.ofBytes bytes).bytes = bytes := rfl

/-- **Coalescing keeps the content**: the chunk grows by chunks that were queued, and the error, if
there is one, was queued behind them. It grows past the limit by its last chunk at most. -/
theorem coalesceQueuedChunks_content (alloc : Allocator) (receiver : OutgoingBodyReceiver ε)
    (chunk : Vec) :
    ∃ (appended : List Bytes) (error : Option ε) (left : List (Except ε Bytes)) (result : Vec),
      coalesceQueuedChunks alloc receiver chunk = .ok (error, ⟨left, receiver.closed⟩, result) ∧
      receiver.queue = appended.map .ok ++ error.toList.map .error ++ left ∧
      result.bytes = chunk.bytes ++ appended.flatten ∧
      (result = chunk ∨ ∃ last ∈ appended, result.len < coalesceLimit + last.length) := by
  obtain ⟨queue, closed⟩ := receiver
  obtain ⟨appended, error, left, result, hcall, hspec⟩ :=
    coalesceQueuedChunks_spec alloc closed queue chunk
  refine ⟨appended, error, left, result, hcall, hspec.queue_eq, hspec.bytes_eq, ?_⟩
  rcases List.eq_nil_or_concat appended with hnil | ⟨before, last, hsome⟩
  · exact .inl (hspec.same hnil)
  · rw [List.concat_eq_append] at hsome
    refine .inr ⟨last, by rw [hsome]; simp, ?_⟩
    have hshort := hspec.short before last [] hsome
    rw [Vec.len, hspec.bytes_eq, hsome, List.length_append, List.flatten_append,
      List.length_append, List.flatten_singleton, ← Vec.len]
    omega

end Platform
