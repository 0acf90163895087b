import StarlingMonkey.WebStreams.Bytes.Invariant

/-!
# Filling descriptors from the queue

What `copyFromQueue`, `fillPullIntoDescriptorFromQueue` and the loop of
`processPullIntoDescriptorsUsingQueue` do: which descriptors come out ready, what is left
pending, what is left in the queue, and that no byte is lost or moved past another on the way.
Each specification gives the exact outcome, so callers never unfold these functions.

`copyFromQueue_stored` and `Fills` are about queues and descriptors on their own, whatever the state
of the stream: entries may then be empty, and a descriptor may be filled to no whole element.
-/

namespace WebStreams

open ByteStream

variable {env : Env} {s : ByteStream} {d : PullIntoDescriptor}

@[simp] theorem Env.assert_true (site : ByteSite) : env.assert true site = .ok () := by
  simp [Env.assert]

theorem Env.assert_of {c : Bool} (h : c = true) (site : ByteSite) :
    env.assert c site = .ok () := by
  rw [h, Env.assert_true]

theorem ByteStream.queue_self {q : List ByteQueueEntry} {n : ℕ} (hq : s.queue = q)
    (hn : s.queueTotalSize = n) : { s with queue := q, queueTotalSize := n } = s := by
  subst hq hn
  rfl

theorem fillHeadPullIntoDescriptor_eq (h : s.byobRequest = none) (n : ℕ) :
    s.fillHeadPullIntoDescriptor env n d = .ok { d with bytesFilled := d.bytesFilled + n } := by
  simp [fillHeadPullIntoDescriptor, h]

theorem copyDataBlockBytes_eq {dest src : ArrayBuffer} {i j n : ℕ}
    (hdest : i + n ≤ dest.byteLength) (hsrc : j + n ≤ src.byteLength) (hn : 0 < n) :
    copyDataBlockBytes dest i src j n = .ok (dest.write i (src.slice j n)) := by
  rw [copyDataBlockBytes, if_neg (by omega), if_pos ⟨hdest, hsrc⟩]
  rfl

/-- An entry, possibly without bytes, inside a buffer that is not detached. -/
structure ByteQueueEntry.Stored (e : ByteQueueEntry) : Prop where
  bound : e.byteOffset + e.byteLength ≤ e.buffer.data.length
  live : e.buffer.detached = false

theorem ByteQueueEntry.Ok.stored {e : ByteQueueEntry} (h : e.Ok) : e.Stored := ⟨h.bound, h.live⟩

theorem ByteQueueEntry.Stored.length_bytes {e : ByteQueueEntry} (h : e.Stored) :
    e.bytes.length = e.byteLength :=
  ArrayBuffer.length_slice h.bound

theorem length_queueBytes {q : List ByteQueueEntry} (h : ∀ e ∈ q, e.Stored) :
    (queueBytes q).length = queueSize q := by
  induction q with
  | nil => rfl
  | cons e q ih =>
    rw [queueBytes_cons, queueSize_cons, List.length_append, (h e List.mem_cons_self).length_bytes,
      ih fun x hx => h x (List.mem_cons_of_mem e hx)]

/-- Copying into a region that has room for it. -/
theorem copyDataBlockBytes_stored {dest : ArrayBuffer} {e : ByteQueueEntry} {i k : ℕ}
    (he : e.Stored) (hk : k ≤ e.byteLength) (hlive : dest.detached = false)
    (hfit : i + k ≤ dest.data.length) :
    copyDataBlockBytes dest i e.buffer e.byteOffset k = .ok (dest.write i (e.bytes.take k)) := by
  have hbound := he.bound
  have hbytes : e.buffer.slice e.byteOffset k = e.bytes.take k := by
    rw [ByteQueueEntry.bytes, ArrayBuffer.slice, ArrayBuffer.slice, List.take_take, min_eq_left hk]
  rw [← hbytes]
  rcases Nat.eq_zero_or_pos k with rfl | hpos
  · rw [ArrayBuffer.slice_zero, ArrayBuffer.write_nil]
    rfl
  · exact copyDataBlockBytes_eq (by simpa [ArrayBuffer.byteLength, hlive])
      (by simp [ArrayBuffer.byteLength, he.live]; omega) hpos

/-- A queue without its first `n` bytes. -/
structure Dropped (n : ℕ) (q q' : List ByteQueueEntry) : Prop where
  entries : ∀ e ∈ q', e.Stored ∧ (0 < e.byteLength ∨ e ∈ q)
  size : queueSize q' = queueSize q - n
  bytes : queueBytes q' = (queueBytes q).drop n

variable (env) in
/-- **Copying from any queue.** The next `n` bytes of the queue are written after the filled region,
and removed from the queue. -/
theorem copyFromQueue_stored {q : List ByteQueueEntry} {n : ℕ} (hq : ∀ e ∈ q, e.Stored)
    (hs : s.queue = q) (hn : n ≤ queueSize q)
    (hbyob : env.debug = true → s.byobRequest = none) (hlive : d.buffer.detached = false)
    (hfit : d.byteOffset + d.bytesFilled + n ≤ d.buffer.data.length) :
    ∃ q', copyFromQueue env q s d n =
        .ok ({ d with
            buffer := d.buffer.write (d.byteOffset + d.bytesFilled) ((queueBytes q).take n)
            bytesFilled := d.bytesFilled + n },
          { s with queue := q', queueTotalSize := s.queueTotalSize - n }) ∧ Dropped n q q' := by
  induction q generalizing s d n with
  | nil =>
    obtain rfl : n = 0 := by simpa using hn
    refine ⟨[], ?_, by simp, rfl, rfl⟩
    simp only [copyFromQueue, queueBytes_nil, List.take_nil, ArrayBuffer.write_nil, Nat.add_zero,
      Nat.sub_zero, queue_self hs rfl, Outcome.pure_eq_ok]
  | cons e q ih =>
    have he := hq e (by simp)
    have hrest : ∀ x ∈ q, x.Stored := fun x hx => hq x (by simp [hx])
    cases n with
    | zero =>
      refine ⟨e :: q, ?_, fun x hx => ⟨hq x hx, .inr hx⟩, rfl, rfl⟩
      simp only [copyFromQueue, List.take_zero, ArrayBuffer.write_nil, Nat.add_zero, Nat.sub_zero,
        queue_self hs rfl, Outcome.pure_eq_ok]
    | succ n =>
      set k := min (n + 1) e.byteLength with hk
      have hke : k ≤ e.byteLength := min_le_right ..
      have hkn : k ≤ n + 1 := min_le_left ..
      have hlen := he.length_bytes
      have hcopy := copyDataBlockBytes_stored (i := d.byteOffset + d.bytesFilled) he hke hlive
        (by omega)
      have htake : (e.bytes.take k).length = k := by rw [List.length_take]; omega
      set b := d.buffer.write (d.byteOffset + d.bytesFilled) (e.bytes.take k) with hb
      have hblen : b.data.length = d.buffer.data.length :=
        ArrayBuffer.length_write (by rw [htake]; omega)
      have hfill (s' : ByteStream) (hs' : s'.byobRequest = s.byobRequest) :
          s'.fillHeadPullIntoDescriptor env k { d with buffer := b } =
            .ok { d with buffer := b, bytesFilled := d.bytesFilled + k } := by
        rw [fillHeadPullIntoDescriptor, hs', Env.assert]
        split_ifs with hdebug
        · simp [hbyob hdebug]
        · rfl
      rw [queueSize_cons] at hn
      by_cases hall : e.byteLength = k
      · -- the head, which may be empty, is used up, and the loop goes on with the rest
        obtain ⟨q', heq, hdropped⟩ :=
          ih (s := { s with queue := q, queueTotalSize := s.queueTotalSize - k })
            (d := { d with buffer := b, bytesFilled := d.bytesFilled + k }) (n := n + 1 - k)
            hrest rfl (by omega) hbyob hlive
            (by change d.byteOffset + (d.bytesFilled + k) + (n + 1 - k) ≤ b.data.length; omega)
        have hwrite : b.write (d.byteOffset + (d.bytesFilled + k))
              ((queueBytes q).take (n + 1 - k)) =
            d.buffer.write (d.byteOffset + d.bytesFilled)
              ((e.bytes ++ queueBytes q).take (n + 1)) := by
          have h := d.buffer.write_write (d.byteOffset + d.bytesFilled) (e.bytes.take k)
            ((queueBytes q).take (n + 1 - k)) (by rw [htake]; omega)
          rw [htake, Nat.add_assoc] at h
          rw [hb, h, List.take_append, hlen, hall, List.take_of_length_le (i := k) (by omega),
            List.take_of_length_le (i := n + 1) (by omega)]
        refine ⟨q', ?_, ?_, ?_, ?_⟩
        · simp only [copyFromQueue, ← hk, hcopy, Outcome.ok_bind, if_pos hall]
          rw [hfill { s with queue := q, queueTotalSize := s.queueTotalSize - k } rfl,
            Outcome.ok_bind, heq, queueBytes_cons, hwrite,
            show d.bytesFilled + k + (n + 1 - k) = d.bytesFilled + (n + 1) by omega,
            show s.queueTotalSize - k - (n + 1 - k) = s.queueTotalSize - (n + 1) by omega]
        · intro x hx
          obtain ⟨hstored, hor⟩ := hdropped.entries x hx
          exact ⟨hstored, hor.imp id (List.mem_cons_of_mem e)⟩
        · rw [hdropped.size, queueSize_cons]
          omega
        · rw [hdropped.bytes, queueBytes_cons, List.drop_append, hlen,
            List.drop_of_length_le (i := n + 1) (by omega), List.nil_append, hall]
      · have hkeq : k = n + 1 := by omega
        refine ⟨⟨e.buffer, e.byteOffset + k, e.byteLength - k⟩ :: q, ?_, ?_, ?_, ?_⟩
        · simp only [copyFromQueue, ← hk, hcopy, Outcome.ok_bind, if_neg hall]
          rw [hfill { s with
              queue := ⟨e.buffer, e.byteOffset + k, e.byteLength - k⟩ :: q
              queueTotalSize := s.queueTotalSize - k } rfl, Outcome.ok_bind, queueBytes_cons,
            List.take_append_of_le_length (by omega), ← hkeq]
          rfl
        · intro x hx
          rcases List.mem_cons.mp hx with rfl | hx
          · have hbound := he.bound
            exact ⟨⟨by change e.byteOffset + k + (e.byteLength - k) ≤ e.buffer.data.length; omega,
              he.live⟩, .inl (by change 0 < e.byteLength - k; omega)⟩
          · exact ⟨hrest x hx, .inr (List.mem_cons_of_mem e hx)⟩
        · rw [queueSize_cons, queueSize_cons]
          change e.byteLength - k + queueSize q = _
          omega
        · rw [queueBytes_cons, queueBytes_cons, List.drop_append_of_le_length (by omega), ← hkeq]
          congr 1
          rw [ByteQueueEntry.bytes, ByteQueueEntry.bytes, ArrayBuffer.slice, ArrayBuffer.slice,
            List.drop_take, List.drop_drop]

variable (env) in
/-- **Copying from the queue.** `n` bytes move from the front of the queue to the end of the
filled region; nothing else changes. -/
theorem copyFromQueue_spec {q : List ByteQueueEntry} {n : ℕ} (hq : ∀ e ∈ q, e.Ok)
    (hs : s.queue = q) (htot : s.queueTotalSize = queueSize q) (hn : n ≤ queueSize q)
    (hbyob : s.byobRequest = none) (hlive : d.buffer.detached = false)
    (hfit : d.byteOffset + d.bytesFilled + n ≤ d.buffer.data.length) :
    ∃ q' b, copyFromQueue env q s d n =
        .ok ({ d with buffer := b, bytesFilled := d.bytesFilled + n },
          { s with queue := q', queueTotalSize := queueSize q' }) ∧
      (∀ e ∈ q', e.Ok) ∧ queueSize q' + n = queueSize q ∧
      b.detached = false ∧ b.detachable = d.buffer.detachable ∧
      b.data.length = d.buffer.data.length ∧
      b.slice d.byteOffset (d.bytesFilled + n) ++ queueBytes q' = d.filled ++ queueBytes q := by
  have hstored : ∀ e ∈ q, e.Stored := fun e he => (hq e he).stored
  obtain ⟨q', heq, hdropped⟩ := copyFromQueue_stored env hstored hs hn (fun _ => hbyob) hlive hfit
  have hlen : ((queueBytes q).take n).length = n := by
    rw [List.length_take, length_queueBytes hstored, min_eq_left hn]
  have hslice : (d.buffer.write (d.byteOffset + d.bytesFilled) ((queueBytes q).take n)).slice
      d.byteOffset (d.bytesFilled + ((queueBytes q).take n).length) =
      d.buffer.slice d.byteOffset d.bytesFilled ++ (queueBytes q).take n :=
    ArrayBuffer.slice_write d.byteOffset (by rw [hlen]; exact hfit)
  rw [htot, ← hdropped.size] at heq
  refine ⟨q', _, heq, fun e he => ?_, ?_, hlive, rfl, ArrayBuffer.length_write (by rwa [hlen]), ?_⟩
  · obtain ⟨⟨hbound, hdetached⟩, hpos | hmem⟩ := hdropped.entries e he
    · exact ⟨hpos, hbound, hdetached⟩
    · exact hq e hmem
  · rw [hdropped.size, Nat.sub_add_cancel hn]
  · rw [hlen] at hslice
    rw [hslice, hdropped.bytes, List.append_assoc, List.take_append_drop, PullIntoDescriptor.filled]

/-- A multiple of `n` below `x` is below the largest multiple of `n` below `x`. -/
private theorem le_sub_mod {a x n : ℕ} (h : a ≤ x) (ha : a % n = 0) : a ≤ x - x % n := by
  have hx := Nat.div_add_mod x n
  have ha' := Nat.div_add_mod a n
  have hle := Nat.mul_le_mul_left n (Nat.div_le_div_right (c := n) h)
  omega

/-- What `fillPullIntoDescriptorFromQueue` leaves of a descriptor and a queue. -/
structure FillPost (d d' : PullIntoDescriptor) (q q' : List ByteQueueEntry) (ready : Bool) :
    Prop where
  reader : d'.readerType = d.readerType
  length : d'.byteLength = d.byteLength
  grown : d.bytesFilled ≤ d'.bytesFilled
  entries : ∀ e ∈ q', e.Ok
  bytes : d'.filled ++ queueBytes q' = d.filled ++ queueBytes q
  isReady : ready = true → d'.Ready
  isPending : ready = false → d'.Pending ∧ d'.buffer.detached = false ∧ queueSize q' = 0

variable (env) in
/-- **Filling a descriptor from a queue that is not empty.** The descriptor comes out ready, or
it still waits and the queue is drained. -/
theorem fillPullIntoDescriptorFromQueue_spec (hd : d.Pending) (hlive : d.buffer.detached = false)
    (hq : QueueOk s.queue s.queueTotalSize) (hpos : 0 < s.queueTotalSize)
    (hbyob : s.byobRequest = none) :
    ∃ ready d' q', s.fillPullIntoDescriptorFromQueue env d =
        .ok (ready, d', { s with queue := q', queueTotalSize := queueSize q' }) ∧
      FillPost d d' s.queue q' ready := by
  have hes := hd.elementSize_pos
  have hlt := hd.lt_length
  have hshort := hd.short
  have hregion := hd.region_le
  set total := s.queueTotalSize with htotal
  set m := min total (d.byteLength - d.bytesFilled) with hm
  set aligned := (d.bytesFilled + m) - (d.bytesFilled + m) % d.elementSize with haligned
  have hle : aligned ≤ d.bytesFilled + m := Nat.sub_le ..
  have hmod : aligned % d.elementSize = 0 := by
    rw [haligned, Nat.sub_mod_eq_zero_of_mod_eq (by simp)]
  by_cases hready : d.minimumFill ≤ aligned
  · -- enough bytes: fill up to a whole number of elements
    have hn : aligned - d.bytesFilled ≤ queueSize s.queue := by rw [← hq.total]; omega
    obtain ⟨q', b, heq, hok, -, hdet, hable, hlen, hbytes⟩ :=
      copyFromQueue_spec env (n := aligned - d.bytesFilled) hq.entries rfl hq.total hn
        hbyob hlive (by omega)
    have hsum : d.bytesFilled + (aligned - d.bytesFilled) = aligned := by omega
    rw [hsum] at heq hbytes
    refine ⟨true, { d with buffer := b, bytesFilled := aligned }, q', ?_, ?_⟩
    · simp only [fillPullIntoDescriptorFromQueue, hlive, ← htotal, ← hm, ← haligned, hready,
        hshort, decide_true, Bool.not_false, Env.assert_true, Outcome.ok_bind, if_true, heq,
        Bool.not_true, Bool.false_eq_true, if_false, Outcome.pure_eq_ok]
    · refine ⟨rfl, rfl, by change d.bytesFilled ≤ aligned; omega, hok, hbytes, fun _ => ?_,
        by simp⟩
      exact ⟨hd.toOk.congr rfl rfl rfl rfl rfl rfl hlen (hable.trans hd.detachable) id, hdet,
        by change aligned ≤ d.byteLength; omega, hmod⟩
  · -- too few bytes: take them all and wait for more
    have hmt : m = total := by
      by_contra hne
      have hfull : d.bytesFilled + m = d.byteLength := by omega
      rw [haligned, hfull, hd.length_mod] at hready
      exact hready (by simpa using hd.fill_le)
    have hshort' : d.bytesFilled + m < d.minimumFill := by
      by_contra hge
      have hdvd : d.minimumFill ≤ aligned := by
        rw [haligned]
        exact le_sub_mod (by omega) hd.fill_mod
      exact hready hdvd
    have hn : m ≤ queueSize s.queue := by rw [← hq.total]; omega
    obtain ⟨q', b, heq, hok, hsize, hdet, hable, hlen, hbytes⟩ :=
      copyFromQueue_spec env (n := m) hq.entries rfl hq.total hn hbyob hlive (by omega)
    have hzero : queueSize q' = 0 := by rw [← hq.total] at hsize; omega
    refine ⟨false, { d with buffer := b, bytesFilled := d.bytesFilled + m }, q', ?_, ?_⟩
    · have hpos' : 0 < d.bytesFilled + m := by omega
      simp only [fillPullIntoDescriptorFromQueue, hlive, ← htotal, ← hm, ← haligned, hready,
        hshort, decide_true, decide_false, Bool.not_false, Env.assert_true, Outcome.ok_bind,
        if_true, heq, Bool.false_eq_true, if_false, hzero, hpos', hshort', Outcome.pure_eq_ok]
    · refine ⟨rfl, rfl, by change d.bytesFilled ≤ d.bytesFilled + m; omega, hok, hbytes, by simp,
        fun _ => ⟨?_, hdet, hzero⟩⟩
      exact ⟨hd.toOk.congr rfl rfl rfl rfl rfl rfl hlen (hable.trans hd.detachable) id, hshort'⟩

/-! ### Any queue -/

/-- A descriptor and a queue that `fill_pull_into_descriptor_from_queue` may be called with: the
memory of the entries and of the descriptor is there, the entries may be empty, and the descriptor
waits for more. -/
structure Fillable (env : Env) (s : ByteStream) (d : PullIntoDescriptor) : Prop where
  entries : ∀ e ∈ s.queue, e.Stored
  total : s.queueTotalSize = queueSize s.queue
  live : d.buffer.detached = false
  region : d.byteOffset + d.byteLength ≤ d.buffer.data.length
  elementSize : 0 < d.elementSize
  whole : d.byteLength % d.elementSize = 0
  short : d.bytesFilled < d.minimumFill
  fits : d.minimumFill ≤ d.byteLength
  byobRequest : env.debug = true → s.byobRequest = none

/-- The bytes that would be filled in if there were no minimum: what is there, capped at the length
and rounded down. -/
def roundedFill (s : ByteStream) (d : PullIntoDescriptor) : ℕ :=
  let capped := min (d.bytesFilled + s.queueTotalSize) d.byteLength
  capped - capped % d.elementSize

/-- What filling a descriptor does: it returns `ready`, and the first `k` bytes have moved from the
queue to the descriptor `d'`. -/
structure Fills (env : Env) (s : ByteStream) (d : PullIntoDescriptor) (k : ℕ) (ready : Bool)
    (d' : PullIntoDescriptor) (q' : List ByteQueueEntry) : Prop where
  returns : s.fillPullIntoDescriptorFromQueue env d =
    .ok (ready, d', { s with queue := q', queueTotalSize := s.queueTotalSize - k })
  available : k ≤ s.queueTotalSize
  inside : d.bytesFilled + k ≤ d.byteLength
  moved : d' = { d with
    buffer := d.buffer.write (d.byteOffset + d.bytesFilled) ((queueBytes s.queue).take k)
    bytesFilled := d.bytesFilled + k }
  size : queueSize q' = s.queueTotalSize - k
  bytes : queueBytes q' = (queueBytes s.queue).drop k
  isReady : ready = true ↔ d.minimumFill ≤ roundedFill s d
  aligned : ready = true → d'.bytesFilled = roundedFill s d
  drained : ready = false → k = s.queueTotalSize ∧ d'.bytesFilled < d.minimumFill

variable (env) in
/-- **Filling a descriptor from any queue**, for a minimum that is a multiple of the element size. A
debug build insists that something is filled in. -/
theorem fillPullIntoDescriptorFromQueue_fills (h : Fillable env s d)
    (hmin : d.minimumFill % d.elementSize = 0)
    (hdebug : env.debug = true → 0 < d.bytesFilled + s.queueTotalSize) :
    ∃ k ready d' q', Fills env s d k ready d' q' := by
  have hshort := h.short
  have hfits := h.fits
  have hregion := h.region
  set m := min s.queueTotalSize (d.byteLength - d.bytesFilled) with hm
  have hcapped : min (d.bytesFilled + s.queueTotalSize) d.byteLength = d.bytesFilled + m := by omega
  set aligned := d.bytesFilled + m - (d.bytesFilled + m) % d.elementSize with haligned
  have hrounded : roundedFill s d = aligned := by rw [roundedFill, hcapped]
  have hle : aligned ≤ d.bytesFilled + m := Nat.sub_le ..
  have hassert (c : Bool) (hc : env.debug = true → c = true) (site : ByteSite) :
      env.assert c site = .ok () := by
    rw [Env.assert]
    split_ifs with hd
    · rw [hc hd, Outcome.guard_true]
    · rfl
  -- the number of bytes that are copied is settled before the loop
  have hcopy (n : ℕ) (hn : n ≤ m) := copyFromQueue_stored env (s := s) (d := d) h.entries rfl
    (show n ≤ queueSize s.queue by rw [← h.total]; omega) h.byobRequest h.live (by omega)
  by_cases hready : d.minimumFill ≤ aligned
  · obtain ⟨q', heq, hdropped⟩ := hcopy (aligned - d.bytesFilled) (by omega)
    refine ⟨aligned - d.bytesFilled, true, _, q', ?_, by omega, by omega, rfl, ?_, hdropped.bytes,
      ?_, fun _ => ?_, by simp⟩
    · simp only [fillPullIntoDescriptorFromQueue, h.live, ← hm, ← haligned, hready, hshort,
        decide_true, Bool.not_false, Env.assert_true, Outcome.ok_bind, if_true, heq, Bool.not_true,
        Bool.false_eq_true, if_false, Outcome.pure_eq_ok]
    · rw [hdropped.size, h.total]
    · rw [hrounded]
      exact iff_of_true rfl hready
    · rw [hrounded]
      show d.bytesFilled + (aligned - d.bytesFilled) = aligned
      omega
  · -- the queue ends before the descriptor does, as the length is aligned and large enough
    have hmt : m = s.queueTotalSize := by
      by_contra hne
      have hfull : d.bytesFilled + m = d.byteLength := by omega
      rw [haligned, hfull, h.whole] at hready
      exact hready (by simpa using hfits)
    have hbelow : d.bytesFilled + m < d.minimumFill := by
      by_contra hge
      exact hready (haligned ▸ le_sub_mod (by omega) hmin)
    obtain ⟨q', heq, hdropped⟩ := hcopy m le_rfl
    refine ⟨m, false, _, q', ?_, by omega, by omega, rfl, ?_, hdropped.bytes, ?_, by simp,
      fun _ => ⟨hmt, hbelow⟩⟩
    · simp only [fillPullIntoDescriptorFromQueue, h.live, ← hm, ← haligned, hready, hshort,
        decide_true, decide_false, Bool.not_false, Env.assert_true, Outcome.ok_bind, if_true, heq,
        Bool.false_eq_true, if_false, hbelow, Outcome.pure_eq_ok]
      rw [hassert _ (fun _ => decide_eq_true (by omega)), Outcome.ok_bind,
        hassert _ (fun hd => decide_eq_true (by have := hdebug hd; omega)), Outcome.ok_bind]
    · rw [hdropped.size, h.total]
    · rw [hrounded]
      exact iff_of_false (by simp) hready

/-- A stream with a queue. -/
private def queued (q : List ByteQueueEntry) : ByteStream :=
  { ByteStream.initial none none with queue := q, queueTotalSize := queueSize q }

/-- A descriptor for two elements of four bytes. -/
private def twoElements (bytesFilled minimumFill : ℕ) : PullIntoDescriptor :=
  ⟨.new 0 8, 8, 0, 8, bytesFilled, minimumFill, 4, .uint32, .byob⟩

/-- An empty entry and a shorter one before one that is split. -/
theorem fillPullIntoDescriptorFromQueue_fills_split : ∃ k ready d' q',
    Fills (.quiet true true)
      (queued [⟨.new 1 4, 4, 0⟩, ⟨.new 2 5, 3, 2⟩, ⟨.new 3 8, 1, 7⟩]) (twoElements 1 4)
      k ready d' q' :=
  fillPullIntoDescriptorFromQueue_fills (.quiet true true)
    { entries := by
        intro e he
        simp only [queued, List.mem_cons, List.not_mem_nil, or_false] at he
        rcases he with rfl | rfl | rfl <;> exact ⟨by decide, rfl⟩
      total := rfl
      live := rfl
      region := by decide
      elementSize := by decide
      whole := rfl
      short := by decide
      fits := by decide
      byobRequest := fun _ => rfl }
    rfl (fun _ => by decide)

/-- A minimum that is not a multiple of the element size is passed by without the descriptor being
ready. A debug build aborts when nothing is queued and nothing filled in. -/
theorem fillPullIntoDescriptorFromQueue_not_fills :
    (Fillable (.quiet false true) (queued [⟨.new 1 6, 0, 6⟩]) (twoElements 0 5) ∧
      ¬ ∃ k ready d' q',
        Fills (.quiet false true) (queued [⟨.new 1 6, 0, 6⟩]) (twoElements 0 5) k ready d' q') ∧
    Fillable (.quiet true true) (queued []) (twoElements 0 4) ∧
      ¬ ∃ k ready d' q', Fills (.quiet true true) (queued []) (twoElements 0 4) k ready d' q' := by
  refine ⟨⟨?_, ?_⟩, ?_, ?_⟩
  · exact ⟨by simp [queued]; exact ⟨by decide, rfl⟩, rfl, rfl, by decide, by decide, rfl, by decide,
      by decide, fun _ => rfl⟩
  · rintro ⟨k, ready, d', q', h⟩
    have hrun : ((queued [⟨.new 1 6, 0, 6⟩]).fillPullIntoDescriptorFromQueue (.quiet false true)
        (twoElements 0 5)).Sat (fun p => p.1 = false ∧ p.2.1.bytesFilled = 6) (fun _ => False)
          fun _ => False := ⟨rfl, rfl⟩
    rw [h.returns] at hrun
    have hbelow := (h.drained hrun.1).2
    rw [show d'.bytesFilled = 6 from hrun.2] at hbelow
    exact absurd hbelow (by decide)
  · exact ⟨by simp [queued], rfl, rfl, by decide, by decide, rfl, by decide, by decide,
      fun _ => rfl⟩
  · rintro ⟨k, ready, d', q', h⟩
    have hrun : ((queued []).fillPullIntoDescriptorFromQueue (.quiet true true)
        (twoElements 0 4)).Sat (fun _ => False) (fun _ => False) fun _ => True := trivial
    rw [h.returns] at hrun
    exact hrun

/-- What processing the pending descriptors `ds` with the queue `q` leaves: `fs` are ready, `ds'`
still wait, `q'` is left in the queue. -/
structure ProcessPost (ds fs ds' : List PullIntoDescriptor) (q q' : List ByteQueueEntry) :
    Prop where
  types : fs.map (·.readerType) ++ ds'.map (·.readerType) = ds.map (·.readerType)
  areReady : ∀ f ∈ fs, f.Ready
  left : PendingOk ds'
  live : ∀ d ∈ ds', d.buffer.detached = false
  entries : ∀ e ∈ q', e.Ok
  done : ds' = [] ∨ queueSize q' = 0
  bytes : filledBytes fs ++ (filledBytes ds' ++ queueBytes q') = filledBytes ds ++ queueBytes q

theorem ByteStream.pending_self {ds : List PullIntoDescriptor} {q : List ByteQueueEntry} {n : ℕ}
    (hs : s.pendingPullIntos = ds) (hq : s.queue = q) (hn : s.queueTotalSize = n) :
    { s with pendingPullIntos := ds, queue := q, queueTotalSize := n } = s := by
  subst hs hq hn
  rfl

/-- Nothing to do: the descriptors are left as they are. -/
private theorem ProcessPost.stop {ds : List PullIntoDescriptor} {q : List ByteQueueEntry}
    (hp : PendingOk ds) (hlive : ∀ d ∈ ds, d.buffer.detached = false) (hq : ∀ e ∈ q, e.Ok)
    (hdone : ds = [] ∨ queueSize q = 0) : ProcessPost ds [] ds q q :=
  ⟨rfl, by simp, hp, hlive, hq, hdone, rfl⟩

/-- **Processing the pending descriptors.** -/
theorem processPullIntos_spec {ds : List PullIntoDescriptor} (hp : PendingOk ds)
    (hlive : ∀ d ∈ ds, d.buffer.detached = false) (hq : QueueOk s.queue s.queueTotalSize)
    (hbyob : s.byobRequest = none) (hs : s.pendingPullIntos = ds) :
    ∃ fs ds' q', processPullIntos env ds s =
        .ok (fs, { s with
          pendingPullIntos := ds', queue := q', queueTotalSize := queueSize q' }) ∧
      ProcessPost ds fs ds' s.queue q' := by
  induction ds generalizing s with
  | nil =>
    refine ⟨[], [], s.queue, ?_, .stop hp hlive hq.entries (.inl rfl)⟩
    rw [pending_self hs rfl hq.total]
    rfl
  | cons d ds ih =>
    obtain ⟨hd, hps, hfs⟩ := hp.of_cons
    by_cases hzero : s.queueTotalSize = 0
    · refine ⟨[], d :: ds, s.queue, ?_,
        .stop hp hlive hq.entries (.inr (by rw [← hq.total, hzero]))⟩
      rw [pending_self hs rfl hq.total]
      simp only [processPullIntos, hzero, if_true, Outcome.pure_eq_ok]
    · obtain ⟨ready, d', q₁, heq, hpost⟩ :=
        fillPullIntoDescriptorFromQueue_spec env
          (s := { s with pendingPullIntos := ds }) hd (hlive d (by simp)) hq
          (Nat.pos_of_ne_zero hzero) hbyob
      cases ready with
      | true =>
        -- the descriptor is ready, and the loop goes on with the next
        obtain ⟨fs, ds', q', heq', hpost'⟩ :=
          ih (s := { s with
              pendingPullIntos := ds, queue := q₁, queueTotalSize := queueSize q₁ })
            ⟨hps, fun e he => hfs e (List.mem_of_mem_tail he)⟩
            (fun e he => hlive e (by simp [he])) ⟨hpost.entries, rfl⟩ hbyob rfl
        refine ⟨d' :: fs, ds', q', ?_, ?_⟩
        · simp only [processPullIntos, hzero, if_false, heq, Outcome.ok_bind, if_true, heq',
            Outcome.pure_eq_ok]
        · refine ⟨?_, ?_, hpost'.left, hpost'.live, hpost'.entries, hpost'.done, ?_⟩
          · simp only [List.map_cons, List.cons_append, hpost'.types, hpost.reader]
          · intro f hf
            rcases List.mem_cons.mp hf with rfl | hf
            · exact hpost.isReady rfl
            · exact hpost'.areReady f hf
          · have hrest : filledBytes ds = [] := filledBytes_fresh hfs
            rw [filledBytes_cons, filledBytes_cons, List.append_assoc, hpost'.bytes, hrest,
              List.append_nil, List.nil_append, hpost.bytes]
      | false =>
        -- the descriptor still waits, and the queue is drained
        obtain ⟨hd', hlive', hzero'⟩ := hpost.isPending rfl
        refine ⟨[], d' :: ds, q₁, ?_, rfl.trans ?_, by simp, .cons hd' hps hfs, ?_,
          hpost.entries, .inr hzero', ?_⟩
        · simp only [processPullIntos, hzero, if_false, heq, Outcome.ok_bind,
            Bool.false_eq_true, hzero', decide_true, Outcome.guard_true, Outcome.pure_eq_ok]
        · simp only [List.map_nil, List.nil_append, List.map_cons, hpost.reader]
        · intro e he
          rcases List.mem_cons.mp he with rfl | he
          · exact hlive'
          · exact hlive e (by simp [he])
        · simp only [filledBytes_nil, List.nil_append, filledBytes_cons, filledBytes_fresh hfs,
            List.append_nil, hpost.bytes]

/-- The same for `processPullIntoDescriptorsUsingQueue`, on a stream that is not closing. -/
theorem processPullIntoDescriptorsUsingQueue_spec (hp : PendingOk s.pendingPullIntos)
    (hlive : ∀ d ∈ s.pendingPullIntos, d.buffer.detached = false)
    (hq : QueueOk s.queue s.queueTotalSize) (hbyob : s.byobRequest = none)
    (hclose : s.closeRequested = false) :
    ∃ fs ds' q', s.processPullIntoDescriptorsUsingQueue env =
        .ok (fs, { s with
          pendingPullIntos := ds', queue := q', queueTotalSize := queueSize q' }) ∧
      ProcessPost s.pendingPullIntos fs ds' s.queue q' := by
  obtain ⟨fs, ds', q', heq, hpost⟩ := processPullIntos_spec hp hlive hq hbyob rfl
  refine ⟨fs, ds', q', ?_, hpost⟩
  rw [processPullIntoDescriptorsUsingQueue, Env.assert_of (by simp [hclose]), Outcome.ok_bind, heq]

end WebStreams
