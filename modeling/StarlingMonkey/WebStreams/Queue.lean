import StarlingMonkey.WebStreams.Basic

/-!
# Queues with sizes

The container of chunks that the default controllers of readable and writable streams share
(`QueueWithSizes`): chunks with their sizes, and a running total of the sizes.
-/

namespace WebStreams

/-- A container with a `[[queue]]` and a `[[queueTotalSize]]`. -/
structure QueueWithSizes (ν F : Type) where
  /-- `[[queue]]`: the values with their sizes. -/
  queue : List (ν × F)
  /-- `[[queueTotalSize]]`. -/
  queueTotalSize : F

namespace QueueWithSizes

variable {ν F : Type} [SizeNum F]

/-- `dequeue_value`: the first value, if any, and the container without it. A total below `0`,
which rounding can cause, becomes `0`. -/
def dequeueValue (c : QueueWithSizes ν F) : Option (ν × QueueWithSizes ν F) :=
  match c.queue with
  | [] => none
  | (v, size) :: queue =>
    let total := SizeNum.sub c.queueTotalSize size
    some (v, ⟨queue, if SizeNum.lt total SizeNum.zero then SizeNum.zero else total⟩)

/-- `enqueue_value_with_size`. -/
def enqueueValueWithSize (c : QueueWithSizes ν F) (v : ν) (size : F) :
    Except JsError (QueueWithSizes ν F) :=
  if !SizeNum.isSize size then .error (.rangeError "Size must be a finite, non-negative number")
  else .ok ⟨c.queue ++ [(v, size)], SizeNum.add c.queueTotalSize size⟩

/-- `reset_queue`: the empty container. -/
def reset : QueueWithSizes ν F := ⟨[], SizeNum.zero⟩

/-- The values in the container. -/
def values (c : QueueWithSizes ν F) : List ν := c.queue.map Prod.fst

@[simp] theorem values_reset : (reset : QueueWithSizes ν F).values = [] := rfl

variable {c c' : QueueWithSizes ν F} {v : ν} {size : F}

theorem values_of_dequeue (h : c.dequeueValue = some (v, c')) : c.values = v :: c'.values := by
  unfold dequeueValue at h
  split at h
  · simp at h
  · next w size q hq =>
    simp only [Option.some.injEq, Prod.mk.injEq] at h
    obtain ⟨rfl, rfl⟩ := h
    simp [values, hq]

theorem dequeueValue_eq_none : c.dequeueValue = none ↔ c.values = [] := by
  unfold dequeueValue values
  split <;> simp [*]

theorem values_of_enqueue (h : c.enqueueValueWithSize v size = .ok c') :
    c'.values = c.values ++ [v] := by
  unfold enqueueValueWithSize at h
  split at h
  · simp at h
  · obtain rfl := Except.ok.inj h
    simp [values]

end QueueWithSizes

end WebStreams
