import StarlingMonkey.Lib.Answering
import StarlingMonkey.WebGlobals.Encodings
import Mathlib.Data.List.TakeWhile

/-!
# Text decoders

`TextDecoder::decode` hands the bytes of each call to a decoder of `encoding_rs`, which it keeps
from one streamed call to the next. Two kinds of input take a shorter way, past the decoder.

* `TextDecoder.decode` is the code, `TextDecoder.decodeSlowly` the same without the shorter ways,
  and `Queued.decode` the algorithm of the standard, whose I/O queue keeps what was not read.
* `AsClaimed`: the shorter ways are not noticed, chunks are read as their concatenation, a flushed
  call leaves nothing, and each call decodes the bytes that the algorithm decodes.
* `decode_asClaimed_iff`: that is so exactly as long as no streamed call throws before the end of
  its chunk (`NothingLost`).
-/

namespace WebGlobals

open Answering

/-! ### The code -/

/-- A call of `decode`: its input, and its options, of which there is only `stream`. -/
structure DecodeCall where
  input : Option (List UInt8)
  options : Option Bool
deriving DecidableEq

/-- The bytes of the input. -/
def DecodeCall.bytes (c : DecodeCall) : List UInt8 := c.input.getD []

/-- Whether the call is streamed. -/
def DecodeCall.stream (c : DecodeCall) : Bool := c.options.getD false

/-- The result of a call: a string, by its code units, or a `TypeError`, by its text. -/
abbrev DecodeResult := Except String (List UInt16)

/-- A `TextDecoder`. -/
structure TextDecoder (enc : Encoding) where
  decoder : Option enc.Decoder
  fatal : Bool
  ignoreBom : Bool
  doNotFlush : Bool
  /-- A decoder that was not flushed is there. -/
  kept : doNotFlush = true → decoder.isSome = true

variable {enc : Encoding}

/-- Step 5: process the items, in one call of the decoder. -/
def decodeItems (enc : Encoding) (fatal : Bool) (d : enc.Decoder) (bytes : List UInt8)
    (last : Bool) : enc.Decoder × DecodeResult :=
  if fatal then
    let (d, result) := enc.strict d bytes last
    (d, if result.malformed then .error "The encoded data was not valid." else .ok result.written)
  else
    let (d, written) := enc.lossy d bytes last
    (d, .ok written)

/-- `Encoding::ascii_valid_up_to`. -/
def asciiValidUpTo (bytes : List UInt8) : ℕ := (bytes.takeWhile (· < 0x80)).length

namespace TextDecoder

/-- `new`. -/
def new (enc : Encoding) (fatal ignoreBom : Bool) : TextDecoder enc :=
  ⟨none, fatal, ignoreBom, false, Bool.noConfusion⟩

/-- Step 1: the decoder of a call, which is a new one unless the last call was streamed. -/
def current (d : TextDecoder enc) : enc.Decoder :=
  if h : d.doNotFlush then d.decoder.get (d.kept h) else newDecoder enc d.ignoreBom

/-- The `TextDecoder` after a call. -/
def next (d : TextDecoder enc) (decoder : enc.Decoder) (stream : Bool) : TextDecoder enc :=
  { d with decoder := some decoder, doNotFlush := stream, kept := fun _ => rfl }

/-- The steps of `decode` from step 4 on. -/
def decodeSlowly (d : TextDecoder enc) (c : DecodeCall) : TextDecoder enc × DecodeResult :=
  let (decoder, result) := decodeItems enc d.fatal d.current c.bytes !c.stream
  (d.next decoder c.stream, result)

/-- `decode`. -/
def decode (d : TextDecoder enc) (c : DecodeCall) : TextDecoder enc × DecodeResult :=
  let fresh := !d.doNotFlush
  let last := !c.stream
  if enc.isWindows1252 && !c.bytes.any fun b => 0x80 ≤ b && b ≤ 0x9F then
    (d.next d.current c.stream, .ok (latin1 c.bytes))
  else if fresh && last && enc.isAsciiCompatible && asciiValidUpTo c.bytes = c.bytes.length then
    (d.next d.current c.stream, .ok (latin1 c.bytes))
  else d.decodeSlowly c

end TextDecoder

/-! ### The algorithm -/

/-- A `TextDecoder` of the standard, which keeps in its I/O queue what was not read. -/
structure Queued (enc : Encoding) where
  decoder : enc.Decoder
  queue : List UInt8
  fatal : Bool
  ignoreBom : Bool
  doNotFlush : Bool

/-- A new one. -/
def Queued.new (enc : Encoding) (fatal ignoreBom : Bool) : Queued enc :=
  ⟨newDecoder enc ignoreBom, [], fatal, ignoreBom, false⟩

/-- What is left of a queue of bytes after they were processed. -/
def unread (enc : Encoding) (fatal : Bool) (d : enc.Decoder) (bytes : List UInt8) (last : Bool) :
    List UInt8 :=
  let result := (enc.strict d bytes last).2
  if fatal && result.malformed then bytes.drop result.read else []

/-- `decode`, by the algorithm: the bytes that are decoded, and the result. -/
def Queued.decode (q : Queued enc) (c : DecodeCall) : Queued enc × List UInt8 × DecodeResult :=
  let decoder := if q.doNotFlush then q.decoder else newDecoder enc q.ignoreBom
  let queue := (if q.doNotFlush then q.queue else []) ++ c.bytes
  let (decoder', result) := decodeItems enc q.fatal decoder queue !c.stream
  ({ q with
      decoder := decoder', queue := unread enc q.fatal decoder queue !c.stream
      doNotFlush := c.stream },
    queue, result)

/-- A call of the code, with the bytes that it decodes: those of its input. -/
def TextDecoder.decodeTraced (d : TextDecoder enc) (c : DecodeCall) :
    TextDecoder enc × List UInt8 × DecodeResult :=
  ((d.decode c).1, c.bytes, (d.decode c).2)

/-! ### The shorter ways -/

namespace TextDecoder

@[simp] theorem next_fatal (d : TextDecoder enc) (decoder : enc.Decoder) (stream : Bool) :
    (d.next decoder stream).fatal = d.fatal := rfl

@[simp] theorem next_ignoreBom (d : TextDecoder enc) (decoder : enc.Decoder) (stream : Bool) :
    (d.next decoder stream).ignoreBom = d.ignoreBom := rfl

@[simp] theorem next_doNotFlush (d : TextDecoder enc) (decoder : enc.Decoder) (stream : Bool) :
    (d.next decoder stream).doNotFlush = stream := rfl

theorem next_current (d : TextDecoder enc) (decoder : enc.Decoder) (stream : Bool) :
    (d.next decoder stream).current = if stream then decoder else newDecoder enc d.ignoreBom := by
  cases stream <;> rfl

theorem current_of_flushed {d : TextDecoder enc} (h : d.doNotFlush = false) :
    d.current = newDecoder enc d.ignoreBom := by
  simp [current, h]

/-- Two text decoders that make the same of every call. -/
structure Agree (d t : TextDecoder enc) : Prop where
  fatal : d.fatal = t.fatal
  ignoreBom : d.ignoreBom = t.ignoreBom
  doNotFlush : d.doNotFlush = t.doNotFlush
  current : d.current = t.current

theorem Agree.refl (d : TextDecoder enc) : Agree d d := ⟨rfl, rfl, rfl, rfl⟩

/-- Nothing is left of a flushed call. -/
theorem agree_of_flushed {d t : TextDecoder enc} (hfatal : d.fatal = t.fatal)
    (hbom : d.ignoreBom = t.ignoreBom) (hd : d.doNotFlush = false) (ht : t.doNotFlush = false) :
    Agree d t :=
  ⟨hfatal, hbom, hd.trans ht.symm, by rw [current_of_flushed hd, current_of_flushed ht, hbom]⟩

theorem Agree.next {d t : TextDecoder enc} (h : Agree d t) {decoder decoder' : enc.Decoder}
    {stream : Bool} (heq : stream = true → decoder = decoder') :
    Agree (d.next decoder stream) (t.next decoder' stream) := by
  refine ⟨h.fatal, h.ignoreBom, rfl, ?_⟩
  rw [next_current, next_current, h.ignoreBom]
  cases stream with
  | true => exact heq rfl
  | false => rfl

end TextDecoder

/-- Bytes that are read as themselves come out as they are. -/
private theorem decodeItems_of_literal {Ground : enc.Decoder → Prop} {p : UInt8 → Prop}
    (h : enc.Documented) (hl : enc.Literal Ground p) {d : enc.Decoder} (hd : Ground d)
    {bytes : List UInt8} (hp : ∀ b ∈ bytes, p b) (fatal last : Bool) :
    (decodeItems enc fatal d bytes last).2 = .ok (latin1 bytes) ∧
      (last = false → Ground (decodeItems enc fatal d bytes last).1) := by
  cases last with
  | true =>
    obtain ⟨hlossy, hstrict⟩ := hl.last h hd hp
    cases fatal <;> simp [decodeItems, hlossy, hstrict]
  | false =>
    obtain ⟨d', hd', hlossy, hstrict⟩ := hl.bytes h hd hp
    cases fatal <;> simp [decodeItems, hlossy, hstrict, hd']

/-- `ascii_valid_up_to` reaches the end of ASCII only. -/
private theorem asciiValidUpTo_eq {bytes : List UInt8} (h : asciiValidUpTo bytes = bytes.length) :
    ∀ b ∈ bytes, b < 0x80 := by
  intro b hb
  have hall : bytes.takeWhile (· < 0x80) = bytes :=
    (List.takeWhile_prefix _).eq_of_length h
  rw [← hall] at hb
  simpa using List.mem_takeWhile_imp hb

/-- **The shorter ways are not noticed** by one call. -/
theorem TextDecoder.decode_sim (h : enc.Documented) {d t : TextDecoder enc} (hdt : d.Agree t)
    (c : DecodeCall) : (d.decode c).1.Agree (t.decodeSlowly c).1 ∧
      (d.decode c).2 = (t.decodeSlowly c).2 := by
  have hshort {Ground : enc.Decoder → Prop} {p : UInt8 → Prop} (hl : enc.Literal Ground p)
      (hground : Ground d.current) (hp : ∀ b ∈ c.bytes, p b)
      (hkeep : c.stream = true → ∀ d', Ground d' → d' = d.current) :
      (d.next d.current c.stream).Agree (t.decodeSlowly c).1 ∧
        .ok (latin1 c.bytes) = (t.decodeSlowly c).2 := by
    obtain ⟨hresult, hstate⟩ := decodeItems_of_literal h hl hground hp d.fatal (!c.stream)
    rw [decodeSlowly, ← hdt.fatal, ← hdt.current]
    refine ⟨hdt.next fun hstream => ?_, hresult.symm⟩
    exact (hkeep hstream _ (hstate (by simp [hstream]))).symm
  rw [decode]
  split
  next hfast =>
    simp only [Bool.and_eq_true, Bool.not_eq_true', List.any_eq_false, decide_eq_true_eq] at hfast
    obtain ⟨henc, hbytes⟩ := hfast
    exact hshort (h.windows1252 henc d.current) rfl hbytes fun _ _ => id
  next =>
    split
    next hfast =>
      simp only [Bool.and_eq_true, Bool.not_eq_true', decide_eq_true_eq] at hfast
      obtain ⟨⟨⟨hfresh, hlast⟩, henc⟩, hbytes⟩ := hfast
      obtain ⟨Ground, hground, hl⟩ := h.ascii henc
      refine hshort hl (by rw [current_of_flushed hfresh]; exact hground _)
        (asciiValidUpTo_eq hbytes) fun hstream => ?_
      rw [hlast] at hstream
      cases hstream
    next =>
      rw [decodeSlowly, decodeSlowly, hdt.fatal, hdt.current]
      exact ⟨hdt.next fun _ => rfl, rfl⟩

/-! ### Chunks -/

/-- A result, and one after it. -/
def together : DecodeResult → DecodeResult → DecodeResult
  | .ok out, .ok out' => .ok (out ++ out')
  | .ok _, .error e => .error e
  | .error e, _ => .error e

/-- The outputs of calls together, or the first exception. -/
def joined : List DecodeResult → DecodeResult
  | [] => .ok []
  | r :: rs => together r (joined rs)

theorem joined_singleton (r : DecodeResult) : joined [r] = r := by
  cases r <;> simp [joined, together]

/-- The calls throw when one of them does. -/
theorem joined_throws_iff (rs : List DecodeResult) :
    (∃ e, joined rs = .error e) ↔ ∃ e, .error e ∈ rs := by
  induction rs with
  | nil => simp [joined]
  | cons r rs ih =>
    cases r with
    | error e => exact ⟨fun _ => ⟨e, List.mem_cons_self ..⟩, fun _ => ⟨e, rfl⟩⟩
    | ok out =>
      have hjoined : (∃ e, joined (.ok out :: rs) = .error e) ↔ ∃ e, joined rs = .error e := by
        cases hrs : joined rs <;> simp [joined, together, hrs]
      rw [hjoined, ih]
      simp

/-- Items are processed chunk by chunk. -/
private theorem decodeItems_append (h : enc.Documented) (fatal : Bool) (d : enc.Decoder)
    (a b : List UInt8) (last : Bool) : (decodeItems enc fatal d (a ++ b) last).2 =
      together (decodeItems enc fatal d a false).2
        (decodeItems enc fatal (decodeItems enc fatal d a false).1 b last).2 := by
  cases fatal with
  | false => simp [decodeItems, together, h.lossy_append]
  | true =>
    cases hm : (enc.strict d a false).2.malformed with
    | true => simp [decodeItems, together, h.strict_malformed d a b last hm, hm]
    | false =>
      simp only [decodeItems, if_true, h.strict_append d a b last hm, hm, Decoded.goOn,
        Bool.false_eq_true, if_false]
      cases (enc.strict (enc.strict d a false).1 b last).2.malformed <;> simp [together]

/-- The whole of what the calls of a splitting decode. -/
def whole (cs : List DecodeCall) (c : DecodeCall) : DecodeCall :=
  ⟨some (cs.flatMap DecodeCall.bytes ++ c.bytes), some false⟩

/-- Streamed calls, and one that is not, decode together what one call decodes. -/
theorem TextDecoder.joined_decodeSlowly (h : enc.Documented) (d : TextDecoder enc)
    {cs : List DecodeCall} (hcs : ∀ b ∈ cs, b.stream = true) {c : DecodeCall}
    (hc : c.stream = false) : joined (answers decodeSlowly d (cs ++ [c])) =
      (d.decodeSlowly (whole cs c)).2 := by
  induction cs generalizing d with
  | nil => exact (joined_singleton _).trans (by rw [decodeSlowly, hc]; rfl)
  | cons b cs ih =>
    have hb : b.stream = true := hcs b (List.mem_cons_self ..)
    have hrest := ih (d.decodeSlowly b).1 fun c hc => hcs c (List.mem_cons_of_mem b hc)
    rw [List.cons_append, answers, joined, hrest]
    have hcurrent : (d.decodeSlowly b).1.current =
        (decodeItems enc d.fatal d.current b.bytes false).1 := by
      rw [decodeSlowly, hb]
      exact next_current ..
    have hresult : (d.decodeSlowly b).2 = (decodeItems enc d.fatal d.current b.bytes false).2 := by
      rw [decodeSlowly, hb]
      rfl
    have hbytes : (whole (b :: cs) c).bytes = b.bytes ++ (whole cs c).bytes := List.append_assoc ..
    change _ = (decodeItems enc d.fatal d.current (whole (b :: cs) c).bytes true).2
    rw [hbytes, decodeItems_append h, hresult, ← hcurrent]
    rfl

/-! ### The I/O queue -/

/-- A streamed call throws before the end of its chunk. -/
def Loses (d : TextDecoder enc) (c : DecodeCall) : Prop :=
  d.fatal = true ∧ c.stream = true ∧
    (enc.strict d.current c.bytes false).2.malformed = true ∧
    (enc.strict d.current c.bytes false).2.read < c.bytes.length

instance (d : TextDecoder enc) (c : DecodeCall) : Decidable (Loses d c) :=
  inferInstanceAs (Decidable (_ ∧ _))

/-- No call throws before the end of its chunk when another one goes on from there. -/
def NothingLost (d : TextDecoder enc) : List DecodeCall → Prop
  | [] => True
  | c :: cs => (cs ≠ [] → ¬ Loses d c) ∧ NothingLost (d.decode c).1 cs

instance decidableNothingLost : ∀ (d : TextDecoder enc) (calls : List DecodeCall),
    Decidable (NothingLost d calls)
  | _, [] => inferInstanceAs (Decidable True)
  | d, c :: cs =>
    have := decidableNothingLost (d.decode c).1 cs
    inferInstanceAs (Decidable ((cs ≠ [] → ¬ Loses d c) ∧ NothingLost (d.decode c).1 cs))

/-- A text decoder has lost nothing of what the algorithm keeps. -/
structure Sync (d : TextDecoder enc) (q : Queued enc) : Prop where
  fatal : d.fatal = q.fatal
  ignoreBom : d.ignoreBom = q.ignoreBom
  doNotFlush : d.doNotFlush = q.doNotFlush
  decoder : d.doNotFlush = true → d.current = q.decoder
  queue : d.doNotFlush = true → q.queue = []

/-- They decode the same bytes in the same way. -/
private theorem Sync.decode {d : TextDecoder enc} {q : Queued enc} (h : Sync d q) (c : DecodeCall) :
    (q.decode c) = ({ q with
      decoder := (decodeItems enc d.fatal d.current c.bytes !c.stream).1
      queue := unread enc d.fatal d.current c.bytes !c.stream
      doNotFlush := c.stream }, c.bytes, (d.decodeSlowly c).2) := by
  have hdecoder : (if q.doNotFlush = true then q.decoder else newDecoder enc q.ignoreBom) =
      d.current := by
    rw [← h.doNotFlush, ← h.ignoreBom]
    cases hflush : d.doNotFlush with
    | true => exact (h.decoder hflush).symm
    | false => exact (TextDecoder.current_of_flushed hflush).symm
  have hqueue : (if q.doNotFlush = true then q.queue else []) ++ c.bytes = c.bytes := by
    rw [← h.doNotFlush]
    cases hflush : d.doNotFlush with
    | true => simp [h.queue hflush]
    | false => rfl
  simp only [Queued.decode, hdecoder, hqueue, ← h.fatal]
  rfl

/-- What a streamed call leaves in the queue. -/
private theorem unread_eq_nil_iff {d : TextDecoder enc} {c : DecodeCall} (hc : c.stream = true) :
    unread enc d.fatal d.current c.bytes (!c.stream) = [] ↔ ¬ Loses d c := by
  rw [unread, Loses, hc]
  simp only [Bool.not_true, true_and, Bool.and_eq_true]
  split
  next h => simp [h.1, h.2]
  next h => simpa [not_and] using fun hf hm => absurd ⟨hf, hm⟩ h

/-- **The bytes and results of the algorithm** are those of the code as long as nothing is lost. -/
private theorem traces_eq_iff (h : enc.Documented) {d : TextDecoder enc} {q : Queued enc}
    (hsync : Sync d q) (calls : List DecodeCall) :
    answers TextDecoder.decodeTraced d calls = answers Queued.decode q calls ↔
      NothingLost d calls := by
  induction calls generalizing d q with
  | nil => exact ⟨fun _ => trivial, fun _ => rfl⟩
  | cons c cs ih =>
    obtain ⟨hagree, hresult⟩ := TextDecoder.decode_sim h (.refl d) c
    have hanswer : (d.decodeTraced c).2 = (q.decode c).2 := by
      rw [hsync.decode c]
      exact Prod.ext rfl hresult
    rw [answers, answers, hanswer, NothingLost, List.cons_inj_right]
    by_cases hlost : Loses d c
    · cases cs with
      | nil => exact ⟨fun _ => ⟨fun hne => absurd rfl hne, trivial⟩, fun _ => rfl⟩
      | cons c' cs =>
        refine ⟨fun heq => ?_, fun hkept => absurd hlost (hkept.1 (List.cons_ne_nil c' cs))⟩
        have hbytes := congrArg Prod.fst (List.cons.inj heq).1
        have hqueue : (q.decode c).1.doNotFlush = true ∧ (q.decode c).1.queue ≠ [] := by
          rw [hsync.decode c]
          exact ⟨hlost.2.1, fun hnil => (unread_eq_nil_iff hlost.2.1).mp hnil hlost⟩
        change c'.bytes = (if (q.decode c).1.doNotFlush = true then (q.decode c).1.queue else []) ++
          c'.bytes at hbytes
        rw [if_pos hqueue.1] at hbytes
        exact absurd (List.self_eq_append_left.mp hbytes) hqueue.2
    · have hnext : Sync (d.decode c).1 (q.decode c).1 := by
        rw [hsync.decode c]
        have hflush : (d.decode c).1.doNotFlush = c.stream := hagree.doNotFlush
        refine ⟨hagree.fatal.trans hsync.fatal, hagree.ignoreBom.trans hsync.ignoreBom, hflush,
          fun hstream => ?_, fun hstream => ?_⟩
        · rw [hflush] at hstream
          refine hagree.current.trans ((TextDecoder.next_current ..).trans (if_pos hstream))
        · rw [hflush] at hstream
          exact (unread_eq_nil_iff hstream).mpr hlost
      exact (ih hnext).trans ⟨fun h => ⟨fun _ => hlost, h⟩, And.right⟩

/-! ### The claim -/

/-- **What calls on one `TextDecoder` do**, and the algorithm `q` with them. -/
structure AsClaimed (d : TextDecoder enc) (q : Queued enc) (calls : List DecodeCall) : Prop where
  /-- The shorter ways are not noticed. -/
  shorter : answers TextDecoder.decode d calls = answers TextDecoder.decodeSlowly d calls
  /-- Chunks, of which only the last one is not streamed, come to what one call comes to. -/
  chunks : ∀ pre cs c post, calls = pre ++ (cs ++ c :: post) → (∀ b ∈ cs, b.stream = true) →
    c.stream = false →
      joined (answers TextDecoder.decode (after TextDecoder.decode d pre) (cs ++ [c])) =
        ((after TextDecoder.decode d pre).decode (whole cs c)).2
  /-- One of them throws exactly if the one call throws. -/
  throws : ∀ pre cs c post, calls = pre ++ (cs ++ c :: post) → (∀ b ∈ cs, b.stream = true) →
    c.stream = false →
      ((∃ e, .error e ∈ answers TextDecoder.decode (after TextDecoder.decode d pre) (cs ++ [c])) ↔
        ∃ e, ((after TextDecoder.decode d pre).decode (whole cs c)).2 = .error e)
  /-- After a call that is not streamed, calls come to what they come to on a new decoder. -/
  flushed : ∀ pre c post, calls = pre ++ c :: post → c.stream = false →
    answers TextDecoder.decode (after TextDecoder.decode d (pre ++ [c])) post =
      answers TextDecoder.decode (TextDecoder.new enc d.fatal d.ignoreBom) post
  /-- The bytes that each call decodes, and its result, are those of the algorithm. -/
  queue : answers TextDecoder.decodeTraced d calls = answers Queued.decode q calls

namespace TextDecoder

/-- Calls on text decoders that agree, with the shorter ways and without. -/
private theorem answers_slowly (h : enc.Documented) {d t : TextDecoder enc} (hdt : d.Agree t)
    (calls : List DecodeCall) : answers decode d calls = answers decodeSlowly t calls :=
  answers_congr hdt (fun _ _ c hst => decode_sim h hst c) calls

/-- The settings of a text decoder stay. -/
private theorem after_settings (h : enc.Documented) (d : TextDecoder enc)
    (calls : List DecodeCall) : (after decode d calls).fatal = d.fatal ∧
      (after decode d calls).ignoreBom = d.ignoreBom := by
  induction calls generalizing d with
  | nil => exact ⟨rfl, rfl⟩
  | cons c calls ih =>
    obtain ⟨hagree, -⟩ := decode_sim h (.refl d) c
    obtain ⟨hfatal, hbom⟩ := ih (d.decode c).1
    exact ⟨hfatal.trans hagree.fatal, hbom.trans hagree.ignoreBom⟩

private theorem joined_decode (h : enc.Documented) (d : TextDecoder enc) {cs : List DecodeCall}
    (hcs : ∀ b ∈ cs, b.stream = true) {c : DecodeCall} (hc : c.stream = false) :
    joined (answers decode d (cs ++ [c])) = (d.decode (whole cs c)).2 := by
  rw [answers_slowly h (.refl d), joined_decodeSlowly h d hcs hc,
    (decode_sim h (.refl d) (whole cs c)).2]

end TextDecoder

/-- **A `TextDecoder` does as claimed** on a sequence of calls exactly if no streamed call throws
before the end of its chunk while another call follows: what is left of the chunk is not kept. -/
theorem decode_asClaimed_iff (enc : Encoding) (h : enc.Documented) (fatal ignoreBom : Bool)
    (calls : List DecodeCall) :
    AsClaimed (TextDecoder.new enc fatal ignoreBom) (Queued.new enc fatal ignoreBom) calls ↔
      NothingLost (TextDecoder.new enc fatal ignoreBom) calls := by
  have hsync : Sync (TextDecoder.new enc fatal ignoreBom) (Queued.new enc fatal ignoreBom) :=
    ⟨rfl, rfl, rfl, Bool.noConfusion, Bool.noConfusion⟩
  refine ⟨fun hclaim => (traces_eq_iff h hsync calls).mp hclaim.queue, fun hkept => ?_⟩
  refine ⟨TextDecoder.answers_slowly h (.refl _) calls, ?_, ?_, ?_,
    (traces_eq_iff h hsync calls).mpr hkept⟩
  · intro pre cs c post _ hcs hc
    exact TextDecoder.joined_decode h _ hcs hc
  · intro pre cs c post _ hcs hc
    rw [← TextDecoder.joined_decode h _ hcs hc]
    exact (joined_throws_iff _).symm
  · intro pre c post _ hc
    have hflushed : (after TextDecoder.decode (TextDecoder.new enc fatal ignoreBom)
        (pre ++ [c])).doNotFlush = false := by
      rw [after_append]
      exact (TextDecoder.decode_sim h (.refl _) c).1.doNotFlush.trans hc
    obtain ⟨hfatal, hbom⟩ :=
      TextDecoder.after_settings h (TextDecoder.new enc fatal ignoreBom) (pre ++ [c])
    have hagree := TextDecoder.agree_of_flushed (t := TextDecoder.new enc fatal ignoreBom)
      hfatal hbom hflushed rfl
    exact (TextDecoder.answers_slowly h hagree post).trans
      (TextDecoder.answers_slowly h (.refl _) post).symm

/-- A fatal UTF-8 decoder: a character in two chunks, and a malformed sequence at the end of one. -/
theorem decode_asClaimed_utf8 :
    AsClaimed (TextDecoder.new utf8 true false) (Queued.new utf8 true false)
      [⟨some [0x61, 0xE2], some true⟩, ⟨some [0x82, 0xAC, 0xFF], some true⟩, ⟨none, none⟩] ∧
    AsClaimed (TextDecoder.new windows1252 false false) (Queued.new windows1252 false false)
      [⟨some [0x61], some true⟩, ⟨some [0x80], none⟩] :=
  ⟨(decode_asClaimed_iff utf8 utf8_documented true false _).mpr (by decide),
    (decode_asClaimed_iff windows1252 windows1252_documented false false _).mpr (by decide)⟩

/-- The character after a malformed sequence is lost. -/
theorem decode_loses_rest : answers TextDecoder.decode (TextDecoder.new utf8 true false)
      [⟨some [0xFF, 0x41], some true⟩, ⟨some [0x42], none⟩] =
      [.error "The encoded data was not valid.", .ok [0x42]] ∧
    ¬ AsClaimed (TextDecoder.new utf8 true false) (Queued.new utf8 true false)
      [⟨some [0xFF, 0x41], some true⟩, ⟨some [0x42], none⟩] := by
  refine ⟨by decide, fun hclaim => ?_⟩
  have hqueue := hclaim.queue
  exact absurd hqueue (by decide)

end WebGlobals
