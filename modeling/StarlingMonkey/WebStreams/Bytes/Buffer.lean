import Mathlib.Algebra.Order.Ring.Int
import Mathlib.Tactic.Common

/-!
# Array buffers and views

The byte stream controller moves bytes between `ArrayBuffer`s. A buffer is a list of bytes with
two flags:

* `detached`: the buffer was transferred away. It then reports length `0`; the bytes it held are
  kept in the model, which is how a later buffer can be compared with them.
* `detachable`: a transfer succeeds. The buffer of a `WebAssembly.Memory` is not detachable.

`id` is the identity of the buffer object, which is what two holders of one buffer share. A view
carries the facts the engine guarantees of every view: it is aligned and lies inside its buffer.
-/

namespace WebStreams

/-- The element type of a view (`ViewKind`). -/
inductive ViewKind where
  | int8 | uint8 | uint8Clamped | int16 | uint16 | int32 | uint32 | float16 | float32 | float64
  | bigInt64 | bigUint64 | dataView
deriving DecidableEq, Repr

/-- The size of one element, in bytes (`element_size`). -/
def ViewKind.elementSize : ViewKind → ℕ
  | .int8 | .uint8 | .uint8Clamped | .dataView => 1
  | .int16 | .uint16 | .float16 => 2
  | .int32 | .uint32 | .float32 => 4
  | .float64 | .bigInt64 | .bigUint64 => 8

/-- Whether the kind is a typed array (`is_typed_array`). -/
def ViewKind.isTypedArray (k : ViewKind) : Bool := k != .dataView

theorem ViewKind.elementSize_pos (k : ViewKind) : 0 < k.elementSize := by
  cases k <;> decide

/-- An `ArrayBuffer`. -/
structure ArrayBuffer where
  /-- The identity of the buffer object. -/
  id : ℕ
  /-- The bytes; of a detached buffer, those it held when it was transferred. -/
  data : List UInt8
  /-- Whether the buffer was transferred away. -/
  detached : Bool
  /-- Whether a transfer of the buffer succeeds. -/
  detachable : Bool
deriving DecidableEq, Repr

namespace ArrayBuffer

/-- The byte length, `0` once detached. -/
def byteLength (b : ArrayBuffer) : ℕ := if b.detached then 0 else b.data.length

/-- A new zero-filled buffer of `n` bytes. -/
def new (id n : ℕ) : ArrayBuffer := ⟨id, List.replicate n 0, false, true⟩

/-- `TransferArrayBuffer`: the bytes move to a new buffer. It fails on a detached buffer and on
one that cannot be detached. -/
def transfer (b : ArrayBuffer) (id : ℕ) : Option ArrayBuffer :=
  if b.detached || !b.detachable then none else some ⟨id, b.data, false, true⟩

/-- The `n` bytes from `off`. -/
def slice (b : ArrayBuffer) (off n : ℕ) : List UInt8 := (b.data.drop off).take n

/-- `CloneArrayBuffer`: a new buffer with a copy of the `n` bytes from `off` (`clone_region`). -/
def cloneRegion (b : ArrayBuffer) (id off n : ℕ) : ArrayBuffer := ⟨id, b.slice off n, false, true⟩

/-- Overwrite the bytes from `pos` with `bs`. -/
def write (b : ArrayBuffer) (pos : ℕ) (bs : List UInt8) : ArrayBuffer :=
  { b with data := b.data.take pos ++ bs ++ b.data.drop (pos + bs.length) }

/-- A live buffer that a transfer accepts. -/
def Live (b : ArrayBuffer) : Prop := b.detached = false ∧ b.detachable = true

instance (b : ArrayBuffer) : Decidable b.Live := inferInstanceAs (Decidable (_ ∧ _))

variable {b b' : ArrayBuffer} {id off n pos : ℕ} {bs : List UInt8}

@[simp] theorem data_new : (new id n).data = List.replicate n 0 := rfl

@[simp] theorem live_new : (new id n).Live := ⟨rfl, rfl⟩

@[simp] theorem live_cloneRegion : (b.cloneRegion id off n).Live := ⟨rfl, rfl⟩

@[simp] theorem detached_new : (new id n).detached = false := rfl

@[simp] theorem write_id : (b.write pos bs).id = b.id := rfl

@[simp] theorem write_detached : (b.write pos bs).detached = b.detached := rfl

@[simp] theorem live_write : (b.write pos bs).Live ↔ b.Live := Iff.rfl

theorem byteLength_of_live (h : b.Live) : b.byteLength = b.data.length := by
  simp [byteLength, h.1]

theorem transfer_of_live (h : b.Live) : b.transfer id = some ⟨id, b.data, false, true⟩ := by
  simp [transfer, h.1, h.2]

theorem transfer_eq_some (h : b.transfer id = some b') :
    b.Live ∧ b' = ⟨id, b.data, false, true⟩ := by
  unfold transfer at h
  split at h
  · simp at h
  · rename_i hc
    simp only [Bool.or_eq_true, Bool.not_eq_true', not_or, Bool.not_eq_true,
      Bool.not_eq_false] at hc
    exact ⟨hc, (Option.some.inj h).symm⟩

theorem length_slice (h : off + n ≤ b.data.length) : (b.slice off n).length = n := by
  simp [slice]
  omega

theorem length_write (h : pos + bs.length ≤ b.data.length) :
    (b.write pos bs).data.length = b.data.length := by
  simp [write]
  omega

variable (off) in
/-- What is written after a region extends the region. -/
theorem slice_write (h : off + n + bs.length ≤ b.data.length) :
    (b.write (off + n) bs).slice off (n + bs.length) = b.slice off n ++ bs := by
  have hlen : (b.data.take (off + n)).length = off + n := by simp; omega
  have hdrop : ((b.data.take (off + n)).drop off) = (b.data.drop off).take n := by
    rw [List.drop_take]; congr 1; omega
  have hn : ((b.data.drop off).take n).length = n := length_slice (b := b) (by omega)
  simp only [slice, write, List.append_assoc]
  rw [List.drop_append_of_le_length (by omega), hdrop, ← List.append_assoc,
    List.take_append_of_le_length (by simp [hn])]
  exact List.take_of_length_le (by simp [hn])

/-- Splitting a region. -/
theorem slice_add (b : ArrayBuffer) (off n m : ℕ) :
    b.slice off (n + m) = b.slice off n ++ b.slice (off + n) m := by
  simp only [slice, List.take_add, List.drop_drop]

@[simp] theorem write_nil (b : ArrayBuffer) (pos : ℕ) : b.write pos [] = b := by
  simp [write]

/-- Two writes, the second where the first ends. -/
theorem write_write (b : ArrayBuffer) (pos : ℕ) (bs bs' : List UInt8)
    (h : pos + bs.length ≤ b.data.length) :
    (b.write pos bs).write (pos + bs.length) bs' = b.write pos (bs ++ bs') := by
  have hlen : (b.data.take pos ++ bs).length = pos + bs.length := by
    rw [List.length_append, List.length_take_of_le (by omega)]
  simp only [write]
  rw [List.take_left' hlen, ← List.drop_drop, List.drop_left' hlen, List.drop_drop,
    List.length_append, ← List.append_assoc (b.data.take pos), Nat.add_assoc]

@[simp] theorem slice_zero (b : ArrayBuffer) (off : ℕ) : b.slice off 0 = [] := by simp [slice]

end ArrayBuffer

/-- A typed array or `DataView`, with the facts the engine guarantees of every view. -/
structure ArrayBufferView where
  /-- The kind of the view. -/
  viewKind : ViewKind
  /-- `[[ViewedArrayBuffer]]`. -/
  buffer : ArrayBuffer
  /-- `[[ByteOffset]]`. -/
  byteOffset : ℕ
  /-- `[[ArrayLength]]`; of a `DataView` its length in bytes. -/
  arrayLength : ℕ
  /-- The view starts at a multiple of its element size. -/
  aligned : byteOffset % viewKind.elementSize = 0
  /-- The view lies inside its buffer. -/
  fits : byteOffset + arrayLength * viewKind.elementSize ≤ buffer.byteLength
deriving DecidableEq

namespace ArrayBufferView

/-- `[[ByteLength]]`. -/
def byteLength (v : ArrayBufferView) : ℕ := v.arrayLength * v.viewKind.elementSize

/-- The bytes under the view. -/
def bytes (v : ArrayBufferView) : List UInt8 := v.buffer.slice v.byteOffset v.byteLength

/-- Construct a view of `len` elements over a buffer (`construct_view`): the engine throws when
the buffer is detached, the offset is unaligned or the region does not fit. -/
def construct (kind : ViewKind) (b : ArrayBuffer) (off len : ℕ) : Option ArrayBufferView :=
  if h : b.detached = false ∧ off % kind.elementSize = 0 ∧
      off + len * kind.elementSize ≤ b.byteLength then
    some ⟨kind, b, off, len, h.2.1, h.2.2⟩
  else none

variable {v : ArrayBufferView}

theorem bound (v : ArrayBufferView) : v.byteOffset + v.byteLength ≤ v.buffer.byteLength := v.fits

theorem byteLength_mod (v : ArrayBufferView) : v.byteLength % v.viewKind.elementSize = 0 :=
  Nat.mul_mod_left ..

/-- A view with bytes in it is over a buffer that is not detached. -/
theorem not_detached (h : 0 < v.byteLength) : v.buffer.detached = false := by
  have := v.bound
  by_contra hd
  simp only [Bool.not_eq_false] at hd
  simp only [ArrayBuffer.byteLength, hd, if_true] at this
  omega

theorem bound_data (h : 0 < v.byteLength) :
    v.byteOffset + v.byteLength ≤ v.buffer.data.length := by
  have := v.bound
  rwa [ArrayBuffer.byteLength, not_detached h] at this

theorem length_bytes (h : 0 < v.byteLength) : v.bytes.length = v.byteLength :=
  ArrayBuffer.length_slice (bound_data h)

theorem construct_eq_some (kind : ViewKind) {b : ArrayBuffer} (off len : ℕ)
    (hd : b.detached = false) (ha : off % kind.elementSize = 0)
    (hf : off + len * kind.elementSize ≤ b.byteLength) :
    construct kind b off len = some ⟨kind, b, off, len, ha, hf⟩ :=
  dif_pos ⟨hd, ha, hf⟩

end ArrayBufferView

end WebStreams
