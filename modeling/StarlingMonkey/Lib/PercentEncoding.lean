import Mathlib.Algebra.Order.Ring.Int
import Mathlib.Data.List.Forall2
import Mathlib.Tactic.Common

/-!
# Percent-encoding and form-urlencoded lists

A percent-encoded byte is a percent sign and two hex digits. The form-urlencoded format writes a
list of pairs as `name=value` pieces with `&` between them, spaces as `+`, and percent-encodes what
could be mistaken for these.

* `Escaped l l'`: some bytes of `l` are percent-encoded in `l'`, none of which means anything to a
  reader of the format. `formParse_escaped`: the reader cannot tell the two apart.
* `formParse_formSerialize`: reading what was written. What the names and values are is a parameter,
  as are their bytes.
-/

namespace PercentEncoding

/-- A sequence of bytes. -/
abbrev Bytes := List UInt8

/-- The upper-case hex digit of 4 bits. -/
def hexDigit (v : UInt8) : UInt8 := if v < 10 then 0x30 + v else 0x37 + v

/-- The value of a hex digit. -/
def hexValue (b : UInt8) : Option UInt8 :=
  if 0x30 ≤ b ∧ b ≤ 0x39 then some (b - 0x30)
  else if 0x41 ≤ b ∧ b ≤ 0x46 then some (b - 0x37)
  else if 0x61 ≤ b ∧ b ≤ 0x66 then some (b - 0x57)
  else none

/-- The value of the two hex digits a sequence starts with. -/
def hexPair : Bytes → Option UInt8
  | x :: y :: _ => do
    let high ← hexValue x
    let low ← hexValue y
    some (high * 0x10 + low)
  | _ => none

/-- Percent-encode a byte. -/
def percentEncodeByte (b : UInt8) : Bytes := [0x25, hexDigit (b / 0x10), hexDigit (b % 0x10)]

/-- Percent-decode a sequence of bytes. A percent sign that two hex digits do not follow stands for
itself. -/
def percentDecode : Bytes → Bytes
  | [] => []
  | [b] => [b]
  | [b, x] => [b, x]
  | b :: x :: y :: rest =>
    if b = 0x25 then
      match hexPair [x, y] with
      | some v => v :: percentDecode rest
      | none => b :: percentDecode (x :: y :: rest)
    else b :: percentDecode (x :: y :: rest)

/-! ### Decoding -/

private theorem hexValue_hexDigit_fin :
    ∀ v : Fin 0x10, hexValue (hexDigit (UInt8.ofNat v)) = some (UInt8.ofNat v) := by
  decide

theorem hexValue_hexDigit {v : UInt8} (h : v.toNat < 0x10) : hexValue (hexDigit v) = some v := by
  have hv := hexValue_hexDigit_fin ⟨v.toNat, h⟩
  rwa [UInt8.ofNat_toNat] at hv

private theorem toNat_nibbles (b : UInt8) :
    (b / 0x10).toNat = b.toNat / 0x10 ∧ (b % 0x10).toNat = b.toNat % 0x10 := by
  constructor
  · rw [UInt8.toNat_div]
    rfl
  · rw [UInt8.toNat_mod]
    rfl

private theorem nibbles_lt (b : UInt8) : (b / 0x10).toNat < 0x10 ∧ (b % 0x10).toNat < 0x10 := by
  obtain ⟨hdiv, hmod⟩ := toNat_nibbles b
  have hb : b.toNat < 256 := b.toNat_lt
  omega

theorem hexPair_percentEncodeByte (b : UInt8) (rest : Bytes) :
    hexPair (hexDigit (b / 0x10) :: hexDigit (b % 0x10) :: rest) = some b := by
  obtain ⟨hhigh, hlow⟩ := nibbles_lt b
  have hsum : b / 0x10 * 0x10 + b % 0x10 = b := by
    apply UInt8.toNat_inj.mp
    obtain ⟨hdiv, hmod⟩ := toNat_nibbles b
    have hb : b.toNat < 256 := b.toNat_lt
    rw [UInt8.toNat_add, UInt8.toNat_mul, hdiv, hmod]
    change (b.toNat / 16 * 16 % 2 ^ 8 + b.toNat % 16) % 2 ^ 8 = b.toNat
    omega
  simp [hexPair, hexValue_hexDigit hhigh, hexValue_hexDigit hlow, hsum]

private theorem hexPair_take (x y : UInt8) (rest : Bytes) :
    hexPair (x :: y :: rest) = hexPair [x, y] := rfl

theorem percentDecode_cons_of_ne {b : UInt8} (h : b ≠ 0x25) (l : Bytes) :
    percentDecode (b :: l) = b :: percentDecode l := by
  obtain _ | ⟨x, _ | ⟨y, rest⟩⟩ := l
  · rfl
  · rfl
  · rw [percentDecode, if_neg h]

theorem percentDecode_cons_of_none {l : Bytes} (h : hexPair l = none) (b : UInt8) :
    percentDecode (b :: l) = b :: percentDecode l := by
  obtain _ | ⟨x, _ | ⟨y, rest⟩⟩ := l
  · rfl
  · rfl
  · rw [hexPair_take] at h
    simp [percentDecode, h]

theorem percentDecode_percent {x y v : UInt8} {rest : Bytes}
    (h : hexPair (x :: y :: rest) = some v) :
    percentDecode (0x25 :: x :: y :: rest) = v :: percentDecode rest := by
  rw [percentDecode, if_pos rfl, ← hexPair_take x y rest, h]

/-- **An encoded byte is read as the byte.** -/
@[simp] theorem percentDecode_percentEncodeByte (b : UInt8) (rest : Bytes) :
    percentDecode (percentEncodeByte b ++ rest) = b :: percentDecode rest :=
  percentDecode_percent (hexPair_percentEncodeByte b rest)

/-! ### Escaping -/

/-- A byte that means nothing to a reader of the format: no separator, and no part of a
percent-encoded byte. -/
structure Escapable (b : UInt8) : Prop where
  percent : b ≠ 0x25
  ampersand : b ≠ 0x26
  plus : b ≠ 0x2B
  equals : b ≠ 0x3D
  digit : hexValue b = none

/-- `l'` is `l` with some bytes percent-encoded. -/
inductive Escaped : Bytes → Bytes → Prop where
  | nil : Escaped [] []
  | keep (b : UInt8) {l l' : Bytes} (h : Escaped l l') : Escaped (b :: l) (b :: l')
  | escape {b : UInt8} (hb : Escapable b) {l l' : Bytes} (h : Escaped l l') :
      Escaped (b :: l) (percentEncodeByte b ++ l')

theorem Escaped.refl (l : Bytes) : Escaped l l := by
  induction l with
  | nil => exact .nil
  | cons b l ih => exact .keep b ih

theorem Escaped.nil_iff {l l' : Bytes} (h : Escaped l l') : l' = [] ↔ l = [] := by
  cases h <;> simp [percentEncodeByte]

private theorem hexPair_of_left {x : UInt8} (h : hexValue x = none) (l : Bytes) :
    hexPair (x :: l) = none := by
  cases l <;> simp [hexPair, h]

private theorem hexPair_of_right {y : UInt8} (h : hexValue y = none) (x : UInt8) (l : Bytes) :
    hexPair (x :: y :: l) = none := by
  simp [hexPair, h]

private theorem hexValue_percent : hexValue 0x25 = none := by decide

/-- Escaping makes no percent-encoded bytes, and breaks none. -/
theorem Escaped.hexPair_eq {l l' : Bytes} (h : Escaped l l') : hexPair l' = hexPair l := by
  cases h with
  | nil => rfl
  | escape hb h =>
    rw [hexPair_of_left hb.digit]
    exact hexPair_of_left hexValue_percent _
  | keep b h =>
    cases h with
    | nil => rfl
    | keep c h => rfl
    | escape hc h =>
      rw [hexPair_of_right hc.digit]
      exact hexPair_of_right hexValue_percent b _

private theorem Escaped.of_hexPair {l l' : Bytes} (h : Escaped l l') {v : UInt8}
    (hv : hexPair l = some v) :
    ∃ x y rest rest', l = x :: y :: rest ∧ l' = x :: y :: rest' ∧ Escaped rest rest' := by
  cases h with
  | nil => cases hv
  | escape hb h =>
    rw [hexPair_of_left hb.digit] at hv
    cases hv
  | keep b h =>
    cases h with
    | nil => cases hv
    | keep c h => exact ⟨b, c, _, _, rfl, rfl, h⟩
    | escape hc h =>
      rw [hexPair_of_right hc.digit] at hv
      cases hv

/-- **Decoding does not see what was escaped.** -/
theorem Escaped.percentDecode_eq {l l' : Bytes} (h : Escaped l l') :
    percentDecode l' = percentDecode l := by
  induction hn : l.length using Nat.strong_induction_on generalizing l l' with
  | _ n ih =>
    subst hn
    cases h with
    | nil => rfl
    | @escape b hb l l' h =>
      rw [percentDecode_percentEncodeByte, percentDecode_cons_of_ne hb.percent,
        ih _ (by simp) h rfl]
    | @keep b l l' h =>
      by_cases hb : b = 0x25
      · cases hv : hexPair l with
        | none =>
          rw [percentDecode_cons_of_none hv, percentDecode_cons_of_none (h.hexPair_eq.trans hv),
            ih _ (by simp) h rfl]
        | some v =>
          obtain ⟨x, y, rest, rest', rfl, rfl, hrest⟩ := h.of_hexPair hv
          subst hb
          rw [percentDecode_percent hv, percentDecode_percent (h.hexPair_eq.trans hv),
            ih _ (by simp only [List.length_cons]; omega) hrest rfl]
      · rw [percentDecode_cons_of_ne hb, percentDecode_cons_of_ne hb, ih _ (by simp) h rfl]

/-! ### The format -/

/-- Replace every `+` by a space. -/
def plusToSpace (l : Bytes) : Bytes := l.map fun b => if b = 0x2B then 0x20 else b

/-- The name of a piece: what comes before the first `=`. -/
def nameOf (piece : Bytes) : Bytes := piece.takeWhile (· ≠ 0x3D)

/-- The value of a piece: what comes after the first `=`. -/
def valueOf (piece : Bytes) : Bytes := (piece.dropWhile (· ≠ 0x3D)).drop 1

/-- A byte that stands for itself in a name or a value. -/
def isUnreserved (b : UInt8) : Bool :=
  (0x30 ≤ b && b ≤ 0x39) || (0x41 ≤ b && b ≤ 0x5A) || (0x61 ≤ b && b ≤ 0x7A) || b = 0x2A ||
    b = 0x2D || b = 0x2E || b = 0x5F

/-- Write a byte of a name or a value. -/
def byteSerialize (b : UInt8) : Bytes :=
  if isUnreserved b then [b] else if b = 0x20 then [0x2B] else percentEncodeByte b

section Format

variable {T : Type} (encode : T → Bytes) (decode : Bytes → T)

/-- Read a name or a value. -/
def readComponent (l : Bytes) : T := decode (percentDecode (plusToSpace l))

/-- Read a piece. -/
def readPiece (piece : Bytes) : T × T :=
  (readComponent decode (nameOf piece), readComponent decode (valueOf piece))

/-- Read a form-urlencoded list. -/
def formParse (input : Bytes) : List (T × T) :=
  ((input.splitOn 0x26).filter fun piece => !piece.isEmpty).map (readPiece decode)

/-- Write a name or a value. -/
def writeComponent (t : T) : Bytes := (encode t).flatMap byteSerialize

/-- Write a piece. -/
def writePiece (pair : T × T) : Bytes :=
  writeComponent encode pair.1 ++ 0x3D :: writeComponent encode pair.2

/-- Write a form-urlencoded list. -/
def formSerialize (list : List (T × T)) : Bytes := [0x26].intercalate (list.map (writePiece encode))

variable {decode}

/-! ### Reading what is escaped -/

private theorem percentEncodeByte_eq (b : UInt8) :
    ∃ x y, percentEncodeByte b = [0x25, x, y] ∧ hexValue x ≠ none ∧ hexValue y ≠ none := by
  obtain ⟨hhigh, hlow⟩ := nibbles_lt b
  refine ⟨_, _, rfl, ?_, ?_⟩
  · simp [hexValue_hexDigit hhigh]
  · simp [hexValue_hexDigit hlow]

/-- A separator is no hex digit, and no percent sign. -/
private theorem ne_separator {x c : UInt8} (hx : hexValue x ≠ none) (hc : hexValue c = none) :
    x ≠ c := by
  rintro rfl
  exact hx hc

private theorem plusToSpace_percentEncodeByte (b : UInt8) :
    plusToSpace (percentEncodeByte b) = percentEncodeByte b := by
  obtain ⟨x, y, heq, hx, hy⟩ := percentEncodeByte_eq b
  have hplus : hexValue 0x2B = none := by decide
  simp [heq, plusToSpace, ne_separator hx hplus, ne_separator hy hplus]

private theorem Escaped.plusToSpace {l l' : Bytes} (h : Escaped l l') :
    Escaped (plusToSpace l) (plusToSpace l') := by
  induction h with
  | nil => exact .nil
  | keep b h ih => exact .keep _ ih
  | @escape b hb l l' h ih =>
    have hleft : PercentEncoding.plusToSpace (b :: l) = b :: PercentEncoding.plusToSpace l := by
      simp [PercentEncoding.plusToSpace, hb.plus]
    have hright : PercentEncoding.plusToSpace (percentEncodeByte b ++ l') =
        percentEncodeByte b ++ PercentEncoding.plusToSpace l' := by
      conv_rhs => rw [← plusToSpace_percentEncodeByte b]
      simp [PercentEncoding.plusToSpace]
    rw [hleft, hright]
    exact .escape hb ih

private theorem nameOf_percentEncodeByte (b : UInt8) (l : Bytes) :
    nameOf (percentEncodeByte b ++ l) = percentEncodeByte b ++ nameOf l ∧
      valueOf (percentEncodeByte b ++ l) = valueOf l := by
  obtain ⟨x, y, heq, hx, hy⟩ := percentEncodeByte_eq b
  have hequals : hexValue 0x3D = none := by decide
  simp [heq, nameOf, valueOf, ne_separator hx hequals, ne_separator hy hequals]

private theorem nameOf_cons {b : UInt8} (h : b ≠ 0x3D) (l : Bytes) :
    nameOf (b :: l) = b :: nameOf l ∧ valueOf (b :: l) = valueOf l := by
  simp [nameOf, valueOf, h]

private theorem Escaped.piece {l l' : Bytes} (h : Escaped l l') :
    Escaped (nameOf l) (nameOf l') ∧ Escaped (valueOf l) (valueOf l') := by
  induction h with
  | nil => exact ⟨.nil, .nil⟩
  | @keep b l l' h ih =>
    by_cases hb : b = 0x3D
    · subst hb
      have hname (m : Bytes) : nameOf (0x3D :: m) = [] ∧ valueOf (0x3D :: m) = m := by
        simp [nameOf, valueOf]
      rw [(hname l).1, (hname l').1, (hname l).2, (hname l').2]
      exact ⟨.nil, h⟩
    · rw [(nameOf_cons hb l).1, (nameOf_cons hb l').1, (nameOf_cons hb l).2, (nameOf_cons hb l').2]
      exact ⟨.keep b ih.1, ih.2⟩
  | @escape b hb l l' h ih =>
    rw [(nameOf_cons hb.equals l).1, (nameOf_cons hb.equals l).2,
      (nameOf_percentEncodeByte b l').1, (nameOf_percentEncodeByte b l').2]
    exact ⟨.escape hb ih.1, ih.2⟩

private theorem forall₂_modifyHead {R : Bytes → Bytes → Prop} {f g : Bytes → Bytes}
    {ls ls' : List Bytes} (h : List.Forall₂ R ls ls') (hf : ∀ a b, R a b → R (f a) (g b)) :
    List.Forall₂ R (ls.modifyHead f) (ls'.modifyHead g) := by
  cases h with
  | nil => exact .nil
  | cons hab h => exact .cons (hf _ _ hab) h

private theorem splitOn_percentEncodeByte (b : UInt8) (l : Bytes) :
    (percentEncodeByte b ++ l).splitOn 0x26 =
      (l.splitOn 0x26).modifyHead (percentEncodeByte b ++ ·) := by
  obtain ⟨x, y, heq, hx, hy⟩ := percentEncodeByte_eq b
  have hamp : hexValue 0x26 = none := by decide
  obtain ⟨piece, pieces, hl⟩ := List.exists_cons_of_ne_nil (List.splitOn_ne_nil 0x26 l)
  simp [heq, List.splitOn_cons_eq_if_modifyHead, ne_separator hx hamp, ne_separator hy hamp, hl]

private theorem Escaped.splitOn {l l' : Bytes} (h : Escaped l l') :
    List.Forall₂ Escaped (l.splitOn 0x26) (l'.splitOn 0x26) := by
  induction h with
  | nil => exact .cons .nil .nil
  | @keep b l l' h ih =>
    rw [List.splitOn_cons_eq_if_modifyHead, List.splitOn_cons_eq_if_modifyHead]
    split
    next => exact .cons .nil ih
    next => exact forall₂_modifyHead ih fun _ _ h => .keep b h
  | @escape b hb l l' h ih =>
    rw [List.splitOn_cons_eq_if_modifyHead, if_neg (by simpa using hb.ampersand),
      splitOn_percentEncodeByte]
    exact forall₂_modifyHead ih fun _ _ h => .escape hb h

private theorem Escaped.readComponent_eq (decode : Bytes → T) {l l' : Bytes} (h : Escaped l l') :
    readComponent decode l' = readComponent decode l := by
  rw [readComponent, readComponent, h.plusToSpace.percentDecode_eq]

private theorem readPieces_eq (decode : Bytes → T) {ps ps' : List Bytes}
    (h : List.Forall₂ Escaped ps ps') :
    (ps'.filter fun piece => !piece.isEmpty).map (readPiece decode) =
      (ps.filter fun piece => !piece.isEmpty).map (readPiece decode) := by
  induction h with
  | nil => rfl
  | @cons p p' ps ps' hp hps ih =>
    have hread : readPiece decode p' = readPiece decode p := by
      rw [readPiece, readPiece, hp.piece.1.readComponent_eq, hp.piece.2.readComponent_eq]
    have hempty : p'.isEmpty = p.isEmpty := by
      rw [Bool.eq_iff_iff, List.isEmpty_iff, List.isEmpty_iff, hp.nil_iff]
    rw [List.filter_cons, List.filter_cons, hempty]
    split
    next => rw [List.map_cons, List.map_cons, hread, ih]
    next => exact ih

/-- **The reader does not see what was escaped.** -/
theorem formParse_escaped (decode : Bytes → T) {l l' : Bytes} (h : Escaped l l') :
    formParse decode l' = formParse decode l :=
  readPieces_eq decode h.splitOn

/-! ### Reading what was written -/

/-- An unreserved byte is no separator and no percent sign. -/
private theorem not_unreserved :
    isUnreserved 0x25 = false ∧ isUnreserved 0x26 = false ∧ isUnreserved 0x2B = false ∧
      isUnreserved 0x3D = false := by
  decide

private theorem ne_of_unreserved {b c : UInt8} (h : isUnreserved b = true)
    (hc : isUnreserved c = false) : b ≠ c := by
  rintro rfl
  rw [h] at hc
  cases hc

/-- **A byte that was written is read.** -/
private theorem read_byteSerialize (b : UInt8) (l : Bytes) :
    percentDecode (plusToSpace (byteSerialize b ++ l)) = b :: percentDecode (plusToSpace l) := by
  rw [plusToSpace, List.map_append, ← plusToSpace, ← plusToSpace, byteSerialize]
  split_ifs with hb hspace
  · have hplus := ne_of_unreserved hb not_unreserved.2.2.1
    have hpercent := ne_of_unreserved hb not_unreserved.1
    simpa [plusToSpace, hplus] using percentDecode_cons_of_ne hpercent _
  · subst hspace
    exact percentDecode_cons_of_ne (by decide) _
  · rw [plusToSpace_percentEncodeByte, percentDecode_percentEncodeByte]

private theorem read_flatMap_byteSerialize (l : Bytes) :
    percentDecode (plusToSpace (l.flatMap byteSerialize)) = l := by
  induction l with
  | nil => rfl
  | cons b l ih => rw [List.flatMap_cons, read_byteSerialize, ih]

/-- No separator is written in a name or a value. -/
private theorem not_mem_byteSerialize {c : UInt8} (hc : c = 0x26 ∨ c = 0x3D) (b : UInt8) :
    c ∉ byteSerialize b := by
  have hhex : hexValue c = none ∧ isUnreserved c = false ∧ c ≠ 0x2B ∧ c ≠ 0x25 := by
    rcases hc with rfl | rfl <;> decide
  obtain ⟨x, y, heq, hx, hy⟩ := percentEncodeByte_eq b
  rw [byteSerialize]
  split_ifs with hb hspace
  · simpa using (ne_of_unreserved hb hhex.2.1).symm
  · simpa using hhex.2.2.1
  · simpa [heq, hhex.2.2.2] using
      ⟨(ne_separator hx hhex.1).symm, (ne_separator hy hhex.1).symm⟩

private theorem not_mem_writeComponent {c : UInt8} (hc : c = 0x26 ∨ c = 0x3D) (t : T) :
    c ∉ writeComponent encode t := by
  simp only [writeComponent, List.mem_flatMap, not_exists, not_and]
  exact fun b _ => not_mem_byteSerialize hc b

private theorem not_mem_writePiece (pair : T × T) : 0x26 ∉ writePiece encode pair := by
  have hname := not_mem_writeComponent encode (.inl rfl) pair.1
  have hvalue := not_mem_writeComponent encode (.inl rfl) pair.2
  simp [writePiece, hname, hvalue]

private theorem split_piece {name : Bytes} (h : 0x3D ∉ name) (value : Bytes) :
    nameOf (name ++ 0x3D :: value) = name ∧ valueOf (name ++ 0x3D :: value) = value := by
  have hpos : ∀ b ∈ name, decide (b ≠ 0x3D) = true := by
    intro b hb
    exact decide_eq_true fun heq => h (heq ▸ hb)
  rw [nameOf, valueOf, List.takeWhile_append_of_pos hpos, List.dropWhile_append_of_pos hpos]
  simp

variable {encode}

theorem readComponent_writeComponent (hdecode : ∀ t, decode (encode t) = t) (t : T) :
    readComponent decode (writeComponent encode t) = t := by
  rw [readComponent, writeComponent, read_flatMap_byteSerialize, hdecode]

theorem readPiece_writePiece (hdecode : ∀ t, decode (encode t) = t) (pair : T × T) :
    readPiece decode (writePiece encode pair) = pair := by
  obtain ⟨hname, hvalue⟩ := split_piece (not_mem_writeComponent encode (.inr rfl) pair.1)
    (writeComponent encode pair.2)
  rw [readPiece, writePiece, hname, hvalue, readComponent_writeComponent hdecode,
    readComponent_writeComponent hdecode]

/-- **Reading what was written.** -/
theorem formParse_formSerialize (hdecode : ∀ t, decode (encode t) = t) (list : List (T × T)) :
    formParse decode (formSerialize encode list) = list := by
  obtain rfl | hne := eq_or_ne list []
  · rfl
  · have hsplit : (formSerialize encode list).splitOn 0x26 = list.map (writePiece encode) := by
      refine List.splitOn_intercalate 0x26 ?_ (by simpa using hne)
      simp only [List.mem_map]
      rintro l ⟨pair, -, rfl⟩
      exact not_mem_writePiece encode pair
    have hfilter : ((list.map (writePiece encode)).filter fun piece => !piece.isEmpty) =
        list.map (writePiece encode) := by
      rw [List.filter_eq_self]
      simp only [List.mem_map]
      rintro l ⟨pair, -, rfl⟩
      simp [writePiece]
    rw [formParse, hsplit, hfilter, List.map_map]
    conv_rhs => rw [← List.map_id list]
    exact List.map_congr_left fun pair _ => readPiece_writePiece hdecode pair

/-! ### What is written -/

/-- A visible ASCII character. -/
def IsVisible (b : UInt8) : Prop := 0x20 < b.toNat ∧ b.toNat < 0x7F

private theorem isVisible_hexDigit_fin :
    ∀ v : Fin 0x10, 0x20 < (hexDigit (UInt8.ofNat v)).toNat ∧
      (hexDigit (UInt8.ofNat v)).toNat < 0x7F := by
  decide

theorem isVisible_percentEncodeByte (b : UInt8) : ∀ x ∈ percentEncodeByte b, IsVisible x := by
  have hdigit {v : UInt8} (hv : v.toNat < 0x10) : IsVisible (hexDigit v) := by
    have h := isVisible_hexDigit_fin ⟨v.toNat, hv⟩
    rwa [UInt8.ofNat_toNat] at h
  obtain ⟨hhigh, hlow⟩ := nibbles_lt b
  simp only [percentEncodeByte, List.mem_cons, List.not_mem_nil, or_false]
  rintro x (rfl | rfl | rfl)
  · exact ⟨by decide, by decide⟩
  · exact hdigit hhigh
  · exact hdigit hlow

private theorem isVisible_byteSerialize (b : UInt8) : ∀ x ∈ byteSerialize b, IsVisible x := by
  rw [byteSerialize]
  split_ifs with hb hspace
  · simp only [List.mem_singleton, forall_eq]
    simp only [isUnreserved, Bool.or_eq_true, Bool.and_eq_true, decide_eq_true_eq,
      UInt8.le_iff_toNat_le, ← UInt8.toNat_inj] at hb
    simp only [IsVisible]
    grind
  · simp only [List.mem_singleton, forall_eq]
    exact ⟨by decide, by decide⟩
  · exact isVisible_percentEncodeByte b

private theorem isVisible_writePiece (encode : T → Bytes) (pair : T × T) :
    ∀ x ∈ writePiece encode pair, IsVisible x := by
  have hcomponent (t : T) : ∀ x ∈ writeComponent encode t, IsVisible x := by
    simp only [writeComponent, List.mem_flatMap]
    rintro x ⟨b, -, hx⟩
    exact isVisible_byteSerialize b x hx
  intro x hx
  rw [writePiece, List.mem_append, List.mem_cons] at hx
  rcases hx with hx | rfl | hx
  · exact hcomponent _ x hx
  · exact ⟨by decide, by decide⟩
  · exact hcomponent _ x hx

/-- **Only visible ASCII characters are written.** -/
theorem isVisible_formSerialize (encode : T → Bytes) (list : List (T × T)) :
    ∀ x ∈ formSerialize encode list, IsVisible x := by
  induction list with
  | nil => simp [formSerialize]
  | cons pair pairs ih =>
    cases pairs with
    | nil => simpa [formSerialize] using isVisible_writePiece encode pair
    | cons next pairs =>
      intro x hx
      rw [formSerialize, List.map_cons, List.map_cons, List.intercalate_cons_cons,
        ← List.map_cons, ← formSerialize, List.mem_append, List.mem_append,
        List.mem_singleton] at hx
      rcases hx with (hx | rfl) | hx
      · exact isVisible_writePiece encode pair x hx
      · exact ⟨by decide, by decide⟩
      · exact ih x hx

end Format

end PercentEncoding
