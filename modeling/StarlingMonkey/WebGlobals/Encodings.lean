import StarlingMonkey.Lib.Transducer
import Mathlib.Data.UInt

/-!
# Encodings

What the code uses of `encoding_rs`: encodings and their incremental decoders.

* `Encoding.Documented` is what the library promises: decoders read chunk by chunk and stop after a
  malformed sequence, and what the decoders of ASCII-compatible encodings and of windows-1252 make
  of single bytes.
* `Encoding.Literal.bytes` and `Encoding.Literal.last`: bytes that are read as themselves come out
  as they are.
* `utf8` and `windows1252` are two encodings that keep the promises.
-/

namespace WebGlobals

/-- An encoding, with its decoders. A decoder reads bytes, which are the `last` ones or not. -/
structure Encoding where
  Decoder : Type
  /-- `encoding == encoding_rs::WINDOWS_1252`. -/
  isWindows1252 : Bool
  isAsciiCompatible : Bool
  newDecoderWithBomRemoval : Decoder
  newDecoderWithoutBomHandling : Decoder
  /-- `decode_to_utf16_without_replacement`, into a buffer of `max_utf16_buffer_length`. -/
  strict : Decoder → List UInt8 → Bool → Decoder × Decoded UInt16
  /-- `decode_to_utf16`, into such a buffer. -/
  lossy : Decoder → List UInt8 → Bool → Decoder × List UInt16

/-- `new_decoder`. -/
def newDecoder (enc : Encoding) (ignoreBom : Bool) : enc.Decoder :=
  if ignoreBom then enc.newDecoderWithoutBomHandling else enc.newDecoderWithBomRemoval

/-- The code units of a string made by `from_latin1`. -/
def latin1 (bytes : List UInt8) : List UInt16 := bytes.map UInt8.toUInt16

namespace Encoding

variable (enc : Encoding)

/-- A decoder writes a byte as the code point of the same value. -/
def Reads (d : enc.Decoder) (b : UInt8) (d' : enc.Decoder) : Prop :=
  enc.lossy d [b] false = (d', latin1 [b]) ∧ enc.strict d [b] false = (d', ⟨false, 1, latin1 [b]⟩)

/-- A decoder writes nothing when its input ends. -/
def Ends (d : enc.Decoder) : Prop :=
  (enc.lossy d [] true).2 = [] ∧ (enc.strict d [] true).2 = ⟨false, 0, []⟩

/-- In the states `Ground`, the bytes `p` are read as themselves. -/
def Literal (Ground : enc.Decoder → Prop) (p : UInt8 → Prop) : Prop :=
  ∀ d, Ground d → enc.Ends d ∧ ∀ b, p b → ∃ d', Ground d' ∧ enc.Reads d b d'

/-- **What `encoding_rs` promises.** -/
structure Documented : Prop where
  /-- Nothing is read from nothing. -/
  lossy_nil (d : enc.Decoder) : enc.lossy d [] false = (d, [])
  strict_nil (d : enc.Decoder) : enc.strict d [] false = (d, ⟨false, 0, []⟩)
  /-- Chunks are read as their concatenation. -/
  lossy_append (d : enc.Decoder) (a b : List UInt8) (last : Bool) : enc.lossy d (a ++ b) last =
    ((enc.lossy (enc.lossy d a false).1 b last).1,
      (enc.lossy d a false).2 ++ (enc.lossy (enc.lossy d a false).1 b last).2)
  strict_append (d : enc.Decoder) (a b : List UInt8) (last : Bool)
    (h : (enc.strict d a false).2.malformed = false) : enc.strict d (a ++ b) last =
    ((enc.strict (enc.strict d a false).1 b last).1,
      (enc.strict (enc.strict d a false).1 b last).2.goOn a.length (enc.strict d a false).2.written)
  /-- Decoding stops after a malformed sequence. -/
  strict_malformed (d : enc.Decoder) (a b : List UInt8) (last : Bool)
    (h : (enc.strict d a false).2.malformed = true) :
    enc.strict d (a ++ b) last = enc.strict d a false
  /-- ASCII bytes are read as themselves, from the start on. -/
  ascii (h : enc.isAsciiCompatible = true) : ∃ Ground : enc.Decoder → Prop,
    (∀ ignoreBom, Ground (newDecoder enc ignoreBom)) ∧ enc.Literal Ground (· < 0x80)
  /-- The decoder of windows-1252 has no state, and maps the bytes from 0x80 to 0x9F only. -/
  windows1252 (h : enc.isWindows1252 = true) (d : enc.Decoder) :
    enc.Literal (· = d) fun b => ¬ (0x80 ≤ b ∧ b ≤ 0x9F)

variable {enc} {Ground : enc.Decoder → Prop} {p : UInt8 → Prop} {d : enc.Decoder}
  {input : List UInt8}

/-- Bytes that are read as themselves, one after another. -/
theorem Literal.bytes (hl : enc.Literal Ground p) (h : enc.Documented) (hd : Ground d)
    (hp : ∀ b ∈ input, p b) : ∃ d', Ground d' ∧ enc.lossy d input false = (d', latin1 input) ∧
      enc.strict d input false = (d', ⟨false, input.length, latin1 input⟩) := by
  induction input generalizing d with
  | nil => exact ⟨d, hd, h.lossy_nil d, h.strict_nil d⟩
  | cons b input ih =>
    obtain ⟨d₁, hd₁, hlossy₁, hstrict₁⟩ := (hl d hd).2 b (hp b (List.mem_cons_self ..))
    obtain ⟨d₂, hd₂, hlossy₂, hstrict₂⟩ := ih hd₁ fun c hc => hp c (List.mem_cons_of_mem b hc)
    refine ⟨d₂, hd₂, ?_, ?_⟩
    · rw [← List.singleton_append, h.lossy_append, hlossy₁]
      simp only [hlossy₂]
      rfl
    · rw [← List.singleton_append, h.strict_append _ _ _ _ (by rw [hstrict₁]), hstrict₁]
      simp only [hstrict₂]
      rw [Decoded.goOn, List.length_cons, List.length_nil, List.singleton_append, List.length_cons,
        Nat.add_comm]
      rfl

/-- The same when they are the last ones. -/
theorem Literal.last (hl : enc.Literal Ground p) (h : enc.Documented) (hd : Ground d)
    (hp : ∀ b ∈ input, p b) : (enc.lossy d input true).2 = latin1 input ∧
      (enc.strict d input true).2 = ⟨false, input.length, latin1 input⟩ := by
  obtain ⟨d', hd', hlossy, hstrict⟩ := hl.bytes h hd hp
  obtain ⟨hend, hend'⟩ := (hl d' hd').1
  constructor
  · rw [← List.append_nil input, h.lossy_append, hlossy]
    simp only [hend, List.append_nil]
  · rw [← List.append_nil input, h.strict_append _ _ _ _ (by rw [hstrict]), hstrict]
    simp only [hend', Decoded.goOn, List.append_nil, Nat.add_zero]

end Encoding

/-! ### Two encodings -/

/-- The encoding of a transducer. Malformed sequences become U+FFFD. -/
def Encoding.ofTransducer {σ : Type} (T : Transducer σ UInt8 UInt16) (start : Bool → σ)
    (isWindows1252 isAsciiCompatible : Bool) : Encoding where
  Decoder := σ
  isWindows1252
  isAsciiCompatible
  newDecoderWithBomRemoval := start false
  newDecoderWithoutBomHandling := start true
  strict := T.strict
  lossy := T.lossy 0xFFFD

/-- A transducer writes a byte as itself. -/
private theorem Encoding.reads_ofTransducer {σ : Type} {T : Transducer σ UInt8 UInt16}
    {start : Bool → σ} {w a : Bool} {s s' : σ} {b : UInt8}
    (h : T.read s b = .wrote s' [b.toUInt16]) :
    (Encoding.ofTransducer T start w a).Reads s b s' := by
  constructor
  · simp [ofTransducer, Transducer.lossy, Transducer.lossyRead, h, latin1]
  · simp [ofTransducer, Transducer.strict, Decoded.goOn, h, latin1]

/-- A transducer that is between characters writes nothing at the end. -/
private theorem Encoding.ends_ofTransducer {σ : Type} {T : Transducer σ UInt8 UInt16}
    {start : Bool → σ} {w a : Bool} {s : σ} (h : T.complete s = true) :
    (Encoding.ofTransducer T start w a).Ends s := by
  constructor
  · simp [ofTransducer, Transducer.lossy, h]
  · simp [ofTransducer, Transducer.strict, h]

/-- **A transducer keeps the promises** about chunks, whatever it does with single bytes. -/
theorem Encoding.documented_ofTransducer {σ : Type} {T : Transducer σ UInt8 UInt16}
    {start : Bool → σ} {w a : Bool}
    (hascii : a = true → ∃ Ground : σ → Prop, (∀ ignoreBom, Ground (start ignoreBom)) ∧
      (Encoding.ofTransducer T start w a).Literal Ground (· < 0x80))
    (hwindows : w = true → ∀ s, (Encoding.ofTransducer T start w a).Literal (· = s) fun b =>
      ¬ (0x80 ≤ b ∧ b ≤ 0x9F)) : (Encoding.ofTransducer T start w a).Documented where
  lossy_nil _ := rfl
  strict_nil _ := rfl
  lossy_append _ _ _ _ := Transducer.lossy_append ..
  strict_append _ _ _ _ h := Transducer.strict_append h ..
  strict_malformed _ _ _ _ h := Transducer.strict_append_malformed h ..
  ascii h := by
    obtain ⟨Ground, hground, hl⟩ := hascii h
    refine ⟨Ground, fun ignoreBom => ?_, hl⟩
    cases ignoreBom
    · exact hground false
    · exact hground true
  windows1252 h s := hwindows h s

/-- Where the UTF-8 decoder is: how many bytes it still needs for a code point, between which bounds
the next one lies, and what it has of the code point; and whether a byte order mark would be one
more character. -/
structure Utf8State where
  needed : ℕ
  lower : UInt8
  upper : UInt8
  point : ℕ
  bomSeen : Bool
deriving DecidableEq, Repr

namespace Utf8State

/-- Between code points. -/
def ground (bomSeen : Bool) : Utf8State := ⟨0, 0x80, 0xBF, 0, bomSeen⟩

/-- The code units of a code point. -/
def utf16 (point : ℕ) : List UInt16 :=
  if point < 0x10000 then [UInt16.ofNat point]
  else [UInt16.ofNat (0xD800 + (point - 0x10000) / 0x400),
    UInt16.ofNat (0xDC00 + (point - 0x10000) % 0x400)]

/-- A code point is complete. -/
def emit (s : Utf8State) (point : ℕ) : Reading Utf8State UInt16 :=
  .wrote (ground true) (if point = 0xFEFF ∧ s.bomSeen = false then [] else utf16 point)

/-- The first byte of a code point. -/
def first (s : Utf8State) (b : UInt8) : Reading Utf8State UInt16 :=
  if b < 0x80 then s.emit b.toNat
  else if 0xC2 ≤ b ∧ b ≤ 0xDF then .wrote ⟨1, 0x80, 0xBF, b.toNat % 0x20, s.bomSeen⟩ []
  else if 0xE0 ≤ b ∧ b ≤ 0xEF then
    .wrote ⟨2, if b = 0xE0 then 0xA0 else 0x80, if b = 0xED then 0x9F else 0xBF, b.toNat % 0x10,
      s.bomSeen⟩ []
  else if 0xF0 ≤ b ∧ b ≤ 0xF4 then
    .wrote ⟨3, if b = 0xF0 then 0x90 else 0x80, if b = 0xF4 then 0x8F else 0xBF, b.toNat % 0x08,
      s.bomSeen⟩ []
  else .malformed (ground true) true

/-- A byte. -/
def read (s : Utf8State) (b : UInt8) : Reading Utf8State UInt16 :=
  if s.needed = 0 then s.first b
  else if ¬ (s.lower ≤ b ∧ b ≤ s.upper) then .malformed (ground true) false
  else
    let point := s.point * 0x40 + b.toNat % 0x40
    if s.needed = 1 then s.emit point
    else .wrote ⟨s.needed - 1, 0x80, 0xBF, point, s.bomSeen⟩ []

end Utf8State

/-- UTF-8. -/
def utf8 : Encoding :=
  .ofTransducer ⟨Utf8State.read, fun s => s.needed = 0⟩ Utf8State.ground false true

/-- An ASCII byte between code points. -/
private theorem utf8_read_ascii {s : Utf8State} {b : UInt8} (hs : s.needed = 0) (hb : b < 0x80) :
    s.read b = .wrote (.ground true) [b.toUInt16] := by
  have hlt : b.toNat < 0x80 := hb
  have hne : ¬ (b.toNat = 0xFEFF ∧ s.bomSeen = false) := by omega
  have hunit : UInt16.ofNat b.toNat = b.toUInt16 := by
    apply UInt16.toNat_inj.mp
    simp
  rw [Utf8State.read, if_pos hs, Utf8State.first, if_pos hb, Utf8State.emit, if_neg hne,
    Utf8State.utf16, if_pos (by omega), hunit]

theorem utf8_documented : utf8.Documented := by
  refine Encoding.documented_ofTransducer (fun _ => ⟨fun s => s.needed = 0, fun _ => rfl, ?_⟩) ?_
  · intro s hs
    exact ⟨Encoding.ends_ofTransducer (by simpa using hs), fun b hb =>
      ⟨.ground true, rfl, Encoding.reads_ofTransducer (utf8_read_ascii hs hb)⟩⟩
  · rintro ⟨⟩

/-- The code points of the bytes from 0x80 to 0x9F in windows-1252. -/
def windows1252Index : List UInt16 :=
  [0x20AC, 0x0081, 0x201A, 0x0192, 0x201E, 0x2026, 0x2020, 0x2021, 0x02C6, 0x2030, 0x0160, 0x2039,
    0x0152, 0x008D, 0x017D, 0x008F, 0x0090, 0x2018, 0x2019, 0x201C, 0x201D, 0x2022, 0x2013, 0x2014,
    0x02DC, 0x2122, 0x0161, 0x203A, 0x0153, 0x009D, 0x017E, 0x0178]

/-- windows-1252. -/
def windows1252 : Encoding :=
  .ofTransducer ⟨fun _ b => .wrote () [if 0x80 ≤ b ∧ b ≤ 0x9F then
    windows1252Index.getD (b.toNat - 0x80) 0 else b.toUInt16], fun _ => true⟩ (fun _ => ())
    true true

theorem windows1252_documented : windows1252.Documented := by
  have hliteral (Ground : Unit → Prop) (h : Ground ()) :
      windows1252.Literal Ground fun b => ¬ (0x80 ≤ b ∧ b ≤ 0x9F) := fun _ _ =>
    ⟨Encoding.ends_ofTransducer rfl, fun b hb => ⟨(), h, Encoding.reads_ofTransducer (by
      simp only [if_neg hb])⟩⟩
  refine Encoding.documented_ofTransducer (fun _ => ⟨fun _ => True, fun _ => trivial, ?_⟩)
    fun _ _ => hliteral _ rfl
  intro s hs
  obtain ⟨hend, hread⟩ := hliteral (fun _ => True) trivial s hs
  exact ⟨hend, fun b hb => hread b fun hb' => UInt8.not_le.mpr hb hb'.1⟩

end WebGlobals
