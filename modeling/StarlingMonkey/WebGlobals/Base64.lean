import Mathlib.Algebra.Order.Ring.Int
import Mathlib.Data.List.Basic
import Mathlib.Tactic.Common

/-!
# `btoa` and `atob`

`btoa` encodes a string of code points up to U+00FF. `atob` leaves the decoding to a library, which
is a parameter here; `decodeForgiving` is the algorithm that it is to implement.

* `sextets`: the 6-bit values of the characters that encode a sequence of bytes.
* `base64Encode_eq`: the encoding is their characters, and padding.
* `accumulate_sextets`: the algorithm makes the bytes of them again.
* `atob_btoa`: the result of `btoa`, and what `atob` makes of it.
-/

namespace WebGlobals.Base64

/-- A string, by its scalar values. -/
abbrev Text := List Char

/-! ### The code -/

/-- `BASE64_CHARS`. -/
def base64Chars : List Char :=
  ['A', 'B', 'C', 'D', 'E', 'F', 'G', 'H', 'I', 'J', 'K', 'L', 'M', 'N', 'O', 'P', 'Q', 'R', 'S',
    'T', 'U', 'V', 'W', 'X', 'Y', 'Z', 'a', 'b', 'c', 'd', 'e', 'f', 'g', 'h', 'i', 'j', 'k', 'l',
    'm', 'n', 'o', 'p', 'q', 'r', 's', 't', 'u', 'v', 'w', 'x', 'y', 'z', '0', '1', '2', '3', '4',
    '5', '6', '7', '8', '9', '+', '/']

/-- `BASE64_CHARS[i]`, for 6 bits `i`. -/
def base64Char (i : ℕ) : Char := base64Chars.getD i 'A'

/-- The characters of a chunk of up to three bytes. -/
def encodeChunk (chunk : List UInt8) : Text :=
  let b0 := (chunk.getD 0 0).toNat
  let b1 := if chunk.length > 1 then (chunk.getD 1 0).toNat else 0
  let b2 := if chunk.length > 2 then (chunk.getD 2 0).toNat else 0
  let triple := b0 <<< 16 ||| b1 <<< 8 ||| b2
  [base64Char (triple >>> 18 &&& 0x3F), base64Char (triple >>> 12 &&& 0x3F),
    if chunk.length > 1 then base64Char (triple >>> 6 &&& 0x3F) else '=',
    if chunk.length > 2 then base64Char (triple &&& 0x3F) else '=']

/-- `base64_encode`, over `chunks(3)`. -/
def base64Encode : List UInt8 → Text
  | [] => []
  | [b0] => encodeChunk [b0]
  | [b0, b1] => encodeChunk [b0, b1]
  | b0 :: b1 :: b2 :: bytes => encodeChunk [b0, b1, b2] ++ base64Encode bytes

/-- `btoa`. -/
def btoa (data : Text) : Except String Text :=
  if data.any fun c => 0xFF < c.toNat then
    .error "The string to be encoded contains characters outside of the Latin1 range."
  else .ok (base64Encode (data.map fun c => UInt8.ofNat c.toNat))

/-- `data.as_bytes()`. -/
def asBytes (data : Text) : List UInt8 := data.flatMap String.utf8EncodeChar

/-- `forgiving_base64_decode`, which gives the bytes of the string to the library's
`decode_to_vec`. -/
def forgivingBase64Decode (decodeToVec : List UInt8 → Option (List UInt8)) (data : Text) :
    Except String (List UInt8) :=
  match decodeToVec (asBytes data) with
  | some bytes => .ok bytes
  | none => .error "The string to be decoded is not correctly encoded."

/-- `atob`. -/
def atob (decodeToVec : List UInt8 → Option (List UInt8)) (data : Text) : Except String Text := do
  let bytes ← forgivingBase64Decode decodeToVec data
  .ok (bytes.map fun b => Char.ofNat b.toNat)

/-! ### The algorithm -/

/-- An ASCII whitespace code point. -/
def isAsciiWhitespace (c : Char) : Bool :=
  c.toNat = 0x09 || c.toNat = 0x0A || c.toNat = 0x0C || c.toNat = 0x0D || c.toNat = 0x20

/-- Remove one or two `=` from the end. -/
def stripPadding (data : Text) : Text :=
  if ['=', '='] <:+ data then data.dropLast.dropLast
  else if ['='] <:+ data then data.dropLast
  else data

/-- What is left in the buffer at the end: 12 or 18 bits, of which the last 4 or 2 are discarded. -/
def flush (buffer bits : ℕ) : List UInt8 :=
  if bits = 12 then [UInt8.ofNat (buffer / 0x10)]
  else if bits = 18 then [UInt8.ofNat (buffer / 0x400), UInt8.ofNat (buffer / 4)]
  else []

/-- Append 6 bits for each code point to the buffer; at 24, three bytes go to the output. -/
def accumulate (buffer bits : ℕ) : List ℕ → List UInt8
  | [] => flush buffer bits
  | v :: vs =>
    let buffer := buffer * 0x40 + v
    if bits = 18 then
      UInt8.ofNat (buffer / 0x10000) :: UInt8.ofNat (buffer / 0x100) :: UInt8.ofNat buffer ::
        accumulate 0 0 vs
    else accumulate buffer (bits + 6) vs

/-- Forgiving-base64 decode, as the standard has it. -/
def decodeForgiving (data : Text) : Option (List UInt8) :=
  let data := data.filter fun c => !isAsciiWhitespace c
  let data := if data.length % 4 = 0 then stripPadding data else data
  if data.length % 4 = 1 then none
  else (data.mapM fun c => base64Chars.idxOf? c).map (accumulate 0 0)

/-! ### Groups of bits -/

/-- The 6-bit values of a sequence of bytes. -/
def sextets : List UInt8 → List ℕ
  | [] => []
  | [b0] => [b0.toNat / 4, b0.toNat % 4 * 0x10]
  | [b0, b1] => [b0.toNat / 4, b0.toNat % 4 * 0x10 + b1.toNat / 0x10, b1.toNat % 0x10 * 4]
  | b0 :: b1 :: b2 :: bytes =>
    b0.toNat / 4 :: (b0.toNat % 4 * 0x10 + b1.toNat / 0x10) ::
      (b1.toNat % 0x10 * 4 + b2.toNat / 0x40) :: b2.toNat % 0x40 :: sextets bytes

/-- How many padding characters follow. -/
def padding (n : ℕ) : ℕ := (3 - n % 3) % 3

/-- The 24 bits of three bytes, and their groups. -/
private theorem triple_groups {a b c : ℕ} (hb : b < 0x100) (hc : c < 0x100) :
    let triple := a <<< 16 ||| b <<< 8 ||| c
    triple >>> 18 &&& 0x3F = a / 4 % 0x40 ∧
      triple >>> 12 &&& 0x3F = (a % 4 * 0x10 + b / 0x10) ∧
      triple >>> 6 &&& 0x3F = b % 0x10 * 4 + c / 0x40 ∧ triple &&& 0x3F = c % 0x40 := by
  have htriple : a <<< 16 ||| b <<< 8 ||| c = a * 0x10000 + b * 0x100 + c := by
    have hlow : b <<< 8 < 2 ^ 16 := by
      rw [Nat.shiftLeft_eq]
      omega
    rw [← Nat.shiftLeft_add_eq_or_of_lt hlow]
    have hsum : a <<< 16 + b <<< 8 = (a * 0x100 + b) <<< 8 := by
      simp only [Nat.shiftLeft_eq]
      omega
    rw [hsum, ← Nat.shiftLeft_add_eq_or_of_lt (by omega : c < 2 ^ 8)]
    simp only [Nat.shiftLeft_eq]
    omega
  have hmask (x : ℕ) : x &&& 0x3F = x % 0x40 := Nat.and_two_pow_sub_one_eq_mod x 6
  simp only [htriple, hmask, Nat.shiftRight_eq_div_pow]
  omega

/-- **The encoding.** -/
theorem base64Encode_eq (bytes : List UInt8) : base64Encode bytes =
    (sextets bytes).map base64Char ++ List.replicate (padding bytes.length) '=' := by
  induction bytes using base64Encode.induct with
  | case1 => rfl
  | case2 b0 =>
    have hb0 := b0.toNat_lt
    obtain ⟨h0, h1, -, -⟩ := triple_groups (a := b0.toNat) (b := 0) (c := 0) (by decide) (by decide)
    rw [Nat.mod_eq_of_lt (by omega)] at h0
    have hcode : base64Encode [b0] = [base64Char (b0.toNat / 4),
        base64Char (b0.toNat % 4 * 0x10 + 0 / 0x10), '=', '='] := by
      rw [← h0, ← h1]
      rfl
    rw [hcode]
    rfl
  | case3 b0 b1 =>
    have hb0 := b0.toNat_lt
    obtain ⟨h0, h1, h2, -⟩ := triple_groups (a := b0.toNat) (b := b1.toNat) (c := 0) b1.toNat_lt
      (by decide)
    rw [Nat.mod_eq_of_lt (by omega)] at h0
    have hcode : base64Encode [b0, b1] = [base64Char (b0.toNat / 4),
        base64Char (b0.toNat % 4 * 0x10 + b1.toNat / 0x10),
        base64Char (b1.toNat % 0x10 * 4 + 0 / 0x40), '='] := by
      rw [← h0, ← h1, ← h2]
      rfl
    rw [hcode]
    rfl
  | case4 b0 b1 b2 bytes ih =>
    have hb0 := b0.toNat_lt
    obtain ⟨h0, h1, h2, h3⟩ := triple_groups (a := b0.toNat) (b := b1.toNat) (c := b2.toNat)
      b1.toNat_lt b2.toNat_lt
    rw [Nat.mod_eq_of_lt (by omega)] at h0
    have hcode : encodeChunk [b0, b1, b2] = [base64Char (b0.toNat / 4),
        base64Char (b0.toNat % 4 * 0x10 + b1.toNat / 0x10),
        base64Char (b1.toNat % 0x10 * 4 + b2.toNat / 0x40), base64Char (b2.toNat % 0x40)] := by
      rw [← h0, ← h1, ← h2, ← h3]
      rfl
    have hpad : padding (b0 :: b1 :: b2 :: bytes).length = padding bytes.length := by
      simp only [padding, List.length_cons]
      omega
    rw [base64Encode, ih, hcode, hpad]
    rfl

/-- Every group is below 64. -/
theorem sextets_lt (bytes : List UInt8) : ∀ v ∈ sextets bytes, v < 0x40 := by
  induction bytes using sextets.induct with
  | case1 => simp [sextets]
  | case2 b0 =>
    have hb0 := b0.toNat_lt
    simp only [sextets, List.forall_mem_cons, List.not_mem_nil, false_implies, implies_true,
      and_true]
    omega
  | case3 b0 b1 =>
    have hb0 := b0.toNat_lt
    have hb1 := b1.toNat_lt
    simp only [sextets, List.forall_mem_cons, List.not_mem_nil, false_implies, implies_true,
      and_true]
    omega
  | case4 b0 b1 b2 bytes ih =>
    have hb0 := b0.toNat_lt
    have hb1 := b1.toNat_lt
    have hb2 := b2.toNat_lt
    simp only [sextets, List.forall_mem_cons]
    exact ⟨by omega, by omega, by omega, by omega, ih⟩

/-- How many groups there are: with the padding, four for three bytes. -/
theorem sextets_length (bytes : List UInt8) :
    (sextets bytes).length + padding bytes.length = 4 * ((bytes.length + 2) / 3) := by
  induction bytes using sextets.induct with
  | case1 => decide
  | case2 b0 => simp [sextets, padding]
  | case3 b0 b1 => simp [sextets, padding]
  | case4 b0 b1 b2 bytes ih =>
    simp only [sextets, padding, List.length_cons] at ih ⊢
    omega

private theorem toByte {n : ℕ} {b : UInt8} (h : n % 0x100 = b.toNat) : UInt8.ofNat n = b := by
  apply UInt8.toNat_inj.mp
  rw [UInt8.toNat_ofNat']
  exact h

private theorem accumulate_four (a b c d : ℕ) (vs : List ℕ) :
    accumulate 0 0 (a :: b :: c :: d :: vs) =
      let buffer := (((0 * 0x40 + a) * 0x40 + b) * 0x40 + c) * 0x40 + d
      UInt8.ofNat (buffer / 0x10000) :: UInt8.ofNat (buffer / 0x100) :: UInt8.ofNat buffer ::
        accumulate 0 0 vs := rfl

private theorem accumulate_three (a b c : ℕ) : accumulate 0 0 [a, b, c] =
    let buffer := ((0 * 0x40 + a) * 0x40 + b) * 0x40 + c
    [UInt8.ofNat (buffer / 0x400), UInt8.ofNat (buffer / 4)] := rfl

private theorem accumulate_two (a b : ℕ) :
    accumulate 0 0 [a, b] = [UInt8.ofNat (((0 * 0x40 + a) * 0x40 + b) / 0x10)] := rfl

/-- **The algorithm makes the bytes of the groups again.** -/
theorem accumulate_sextets (bytes : List UInt8) : accumulate 0 0 (sextets bytes) = bytes := by
  induction bytes using sextets.induct with
  | case1 => rfl
  | case2 b0 =>
    have hb0 := b0.toNat_lt
    rw [sextets, accumulate_two, toByte (b := b0) (by omega)]
  | case3 b0 b1 =>
    have hb0 := b0.toNat_lt
    have hb1 := b1.toNat_lt
    rw [sextets, accumulate_three]
    simp only
    rw [toByte (b := b0) (by omega), toByte (b := b1) (by omega)]
  | case4 b0 b1 b2 bytes ih =>
    have hb0 := b0.toNat_lt
    have hb1 := b1.toNat_lt
    have hb2 := b2.toNat_lt
    rw [sextets, accumulate_four, ih]
    simp only
    rw [toByte (b := b0) (by omega), toByte (b := b1) (by omega), toByte (b := b2) (by omega)]

/-! ### The characters -/

private theorem idxOf_char : ∀ v < 0x40, base64Chars.idxOf? (base64Char v) = some v := by decide

private theorem char_mem : ∀ v < 0x40, base64Char v ∈ base64Chars := by decide

private theorem plain : ∀ c ∈ base64Chars,
    isAsciiWhitespace c = false ∧ c ≠ '=' ∧ c.toNat < 0x80 := by
  have hall : base64Chars.all (fun c =>
      decide (isAsciiWhitespace c = false ∧ c ≠ '=' ∧ c.toNat < 0x80)) = true := by decide
  exact fun c hc => of_decide_eq_true (List.all_eq_true.mp hall c hc)

/-- The characters of the groups are of the alphabet. -/
theorem base64Char_mem (bytes : List UInt8) :
    ∀ c ∈ (sextets bytes).map base64Char, c ∈ base64Chars := by
  intro c hc
  obtain ⟨v, hv, rfl⟩ := List.mem_map.mp hc
  exact char_mem v (sextets_lt bytes v hv)

/-- The characters of the groups, read. -/
theorem mapM_idxOf {vs : List ℕ} (h : ∀ v ∈ vs, v < 0x40) :
    (vs.map base64Char).mapM (fun c => base64Chars.idxOf? c) = some vs := by
  induction vs with
  | nil => rfl
  | cons v vs ih =>
    rw [List.forall_mem_cons] at h
    rw [List.map_cons, List.mapM_cons, idxOf_char v h.1, ih h.2]
    rfl

/-- Nothing of the alphabet is removed from the end, and the padding is. -/
theorem stripPadding_append {body : Text} (h : ∀ c ∈ body, c ≠ '=') {n : ℕ} (hn : n ≤ 2) :
    stripPadding (body ++ List.replicate n '=') = body := by
  have hlast (rest : Text) (hsuffix : rest ++ ['='] <:+ body) : False := by
    obtain ⟨pre, hpre⟩ := hsuffix
    exact h '=' (by rw [← hpre]; simp) rfl
  rcases (by omega : n = 0 ∨ n = 1 ∨ n = 2) with rfl | rfl | rfl
  · have htwo : ¬ ['=', '='] <:+ body := hlast ['=']
    have hone : ¬ ['='] <:+ body := hlast []
    rw [List.replicate_zero, List.append_nil, stripPadding, if_neg htwo, if_neg hone]
  · have hnot : ¬ ['=', '='] <:+ body ++ ['='] := by
      rintro ⟨pre, hpre⟩
      refine hlast [] ⟨pre, List.append_cancel_right (?_ : pre ++ ['='] ++ ['='] = body ++ ['='])⟩
      rw [← hpre]
      simp
    rw [List.replicate_one, stripPadding, if_neg hnot, if_pos (List.suffix_append _ _),
      List.dropLast_concat]
  · have htwo : body ++ List.replicate 2 '=' = body ++ ['='] ++ ['='] := by simp
    rw [stripPadding, if_pos ⟨body, rfl⟩, htwo, List.dropLast_concat, List.dropLast_concat]

/-- **The algorithm undoes the encoding.** -/
theorem decodeForgiving_base64Encode (bytes : List UInt8) :
    decodeForgiving (base64Encode bytes) = some bytes := by
  have hlt := sextets_lt bytes
  have hlength := sextets_length bytes
  have hpadding : padding bytes.length ≤ 2 := by
    unfold padding
    omega
  have hbody := base64Char_mem bytes
  have hfilter : (base64Encode bytes).filter (fun c => !isAsciiWhitespace c) =
      base64Encode bytes := by
    rw [List.filter_eq_self, base64Encode_eq]
    intro c hc
    rcases List.mem_append.mp hc with hc | hc
    · rw [(plain c (hbody c hc)).1]
      rfl
    · rw [List.eq_of_mem_replicate hc]
      rfl
  have hlen : (base64Encode bytes).length = 4 * ((bytes.length + 2) / 3) := by
    rw [base64Encode_eq, List.length_append, List.length_map, List.length_replicate, hlength]
  have hstrip : stripPadding (base64Encode bytes) = (sextets bytes).map base64Char := by
    rw [base64Encode_eq]
    exact stripPadding_append (fun c hc => (plain c (hbody c hc)).2.1) hpadding
  have hwhole : (if (base64Encode bytes).length % 4 = 0 then stripPadding (base64Encode bytes)
      else base64Encode bytes) = (sextets bytes).map base64Char := by
    rw [if_pos (by omega), hstrip]
  have hrest : ((sextets bytes).map base64Char).length % 4 ≠ 1 := by
    rw [List.length_map]
    omega
  rw [decodeForgiving]
  simp only [hfilter, hwhole]
  rw [if_neg hrest, mapM_idxOf hlt, Option.map_some, accumulate_sextets]

/-! ### The functions -/

/-- The bytes of a string of code points up to U+00FF, and the string of the bytes. -/
theorem latin1_bytes {s : Text} (h : ∀ c ∈ s, c.toNat ≤ 0xFF) :
    ((s.map fun c => UInt8.ofNat c.toNat).map fun b => Char.ofNat b.toNat) = s := by
  rw [List.map_map]
  refine (List.map_congr_left fun c hc => ?_).trans (List.map_id s)
  have hc := h c hc
  have hbyte : (UInt8.ofNat c.toNat).toNat = c.toNat := by
    rw [UInt8.toNat_ofNat', Nat.mod_eq_of_lt (by omega)]
  rw [Function.comp_apply, hbyte, Char.ofNat_toNat, id]

/-- `btoa` encodes exactly the strings of code points up to U+00FF. -/
theorem btoa_eq_ok {s out : Text} : btoa s = .ok out ↔
    (∀ c ∈ s, c.toNat ≤ 0xFF) ∧ out = base64Encode (s.map fun c => UInt8.ofNat c.toNat) := by
  unfold btoa
  split
  · rename_i hany
    obtain ⟨c, hc, hlarge⟩ := List.any_eq_true.mp hany
    have hlarge : 0xFF < c.toNat := of_decide_eq_true hlarge
    constructor
    · rintro ⟨⟩
    · rintro ⟨hall, -⟩
      exact absurd (hall c hc) (by omega)
  · rename_i hany
    have hall : ∀ c ∈ s, c.toNat ≤ 0xFF := by
      intro c hc
      by_contra hlarge
      exact hany (List.any_eq_true.mpr ⟨c, hc, decide_eq_true (by omega)⟩)
    constructor
    · rintro ⟨⟩
      exact ⟨hall, rfl⟩
    · rintro ⟨-, rfl⟩
      rfl

/-- `btoa` fails exactly on a code point above U+00FF. -/
theorem btoa_error_iff {s : Text} : (∃ e, btoa s = .error e) ↔ ∃ c ∈ s, 0xFF < c.toNat := by
  constructor
  · rintro ⟨e, he⟩
    by_contra hnone
    have hall : ∀ c ∈ s, c.toNat ≤ 0xFF := by
      intro c hc
      by_contra hlarge
      exact hnone ⟨c, hc, by omega⟩
    rw [btoa_eq_ok.mpr ⟨hall, rfl⟩] at he
    cases he
  · rintro ⟨c, hc, hlarge⟩
    cases h : btoa s with
    | error e => exact ⟨e, rfl⟩
    | ok out => exact absurd ((btoa_eq_ok.mp h).1 c hc) (by omega)

/-- The UTF-8 bytes of an ASCII string. -/
theorem asBytes_ascii {s : Text} (h : ∀ c ∈ s, c.toNat < 0x80) :
    asBytes s = s.map fun c => UInt8.ofNat c.toNat := by
  induction s with
  | nil => rfl
  | cons c s ih =>
    rw [List.forall_mem_cons] at h
    have hsize : c.utf8Size = 1 := by
      rw [Char.utf8Size, if_pos]
      exact UInt32.le_iff_toNat_le.mpr (Nat.le_of_lt_succ h.1)
    rw [asBytes, List.flatMap_cons, String.utf8EncodeChar_eq_singleton hsize, ← asBytes, ih h.2]
    rfl

/-- **`atob` undoes `btoa`.** -/
theorem atob_btoa (decodeToVec : List UInt8 → Option (List UInt8))
    (hdecode : ∀ data : Text, (∀ c ∈ data, c.toNat < 0x80) →
      decodeToVec (asBytes data) = decodeForgiving data) (s : Text) :
    ((∃ e, btoa s = .error e) ↔ ∃ c ∈ s, 0xFF < c.toNat) ∧
      ∀ out, btoa s = .ok out →
        out.length = 4 * ((s.length + 2) / 3) ∧
        (∃ body, (∀ c ∈ body, c ∈ base64Chars) ∧
          out = body ++ List.replicate (padding s.length) '=') ∧
        (∀ t, btoa t = .ok out → t = s) ∧ atob decodeToVec out = .ok s := by
  refine ⟨btoa_error_iff, fun out hout => ?_⟩
  obtain ⟨hall, rfl⟩ := btoa_eq_ok.mp hout
  generalize hbytes : (s.map fun c => UInt8.ofNat c.toNat) = bytes
  have hlen : bytes.length = s.length := by rw [← hbytes, List.length_map]
  have hback : (bytes.map fun b => Char.ofNat b.toNat) = s := by rw [← hbytes, latin1_bytes hall]
  have hbody : ∀ c ∈ (sextets bytes).map base64Char, c ∈ base64Chars := base64Char_mem bytes
  have hshape := base64Encode_eq bytes
  have hascii : ∀ c ∈ base64Encode bytes, c.toNat < 0x80 := by
    intro c hc
    rw [hshape] at hc
    rcases List.mem_append.mp hc with hc | hc
    · exact (plain c (hbody c hc)).2.2
    · rw [List.eq_of_mem_replicate hc]
      decide
  refine ⟨?_, ⟨_, hbody, hlen ▸ hshape⟩, fun t ht => ?_, ?_⟩
  · rw [← hlen, hshape, List.length_append, List.length_map, List.length_replicate,
      sextets_length]
  · obtain ⟨hallt, hsame⟩ := btoa_eq_ok.mp ht
    have hbytest : bytes = t.map fun c => UInt8.ofNat c.toNat := by
      apply Option.some.inj
      rw [← decodeForgiving_base64Encode, ← decodeForgiving_base64Encode, hsame]
    rw [← hback, hbytest, latin1_bytes hallt]
  · rw [atob, forgivingBase64Decode, hdecode _ hascii, decodeForgiving_base64Encode]
    exact congrArg Except.ok hback

/-- The decoder that reads the bytes as ASCII. -/
theorem atob_btoa_latin1 : atob (fun bytes => decodeForgiving (bytes.map fun b =>
    Char.ofNat b.toNat)) ['Y', 'e', 'k', '='] = .ok ['a', 'é'] :=
  ((atob_btoa _ (fun data h => by
    have hall : ∀ c ∈ data, c.toNat ≤ 0xFF := fun c hc => by
      have := h c hc
      omega
    rw [asBytes_ascii h]
    exact congrArg decodeForgiving (latin1_bytes hall)) ['a', 'é']).2 _ (by decide)).2.2.2

end WebGlobals.Base64
