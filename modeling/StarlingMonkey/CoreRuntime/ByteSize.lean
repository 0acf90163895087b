import Mathlib.Algebra.Order.Ring.Int
import Mathlib.Data.List.DropRight
import Mathlib.Tactic.Common

/-!
# Byte sizes

Limits are written on the command line as a count with an optional unit, and printed in the help the
same way.

* `ByteSize.display` and `ByteSize.fromStr` are the code.
* `Denotes s n`: the string is, apart from the whitespace around it, a number, whitespace and a
  unit, which make `n` bytes.
* `fromStr_ok_iff`: what is read is what is denoted, where it fits.
* `byteSize_reads`: that, and each size is read from what it is printed as.
-/

namespace CoreRuntime

/-- `u64::MAX`. -/
def u64Max : ℕ := 2 ^ 64 - 1

/-- A count of bytes, a `u64`. -/
@[ext]
structure ByteSize where
  bytes : ℕ
  le : bytes ≤ u64Max
deriving DecidableEq

/-- The errors of `from_str`, with the trimmed value they name. -/
inductive ByteSizeError where
  /-- "… is not a byte size (try 512MiB, 64KiB, 1MB, or a plain byte count)". -/
  | malformed (value : List Char)
  /-- "… is more than 18446744073709551615 bytes". -/
  | tooLarge (value : List Char)
deriving DecidableEq

/-- `char::is_whitespace`. -/
def isWhitespace (c : Char) : Bool :=
  let n := c.toNat
  (0x09 ≤ n && n ≤ 0x0D) || n = 0x20 || n = 0x85 || n = 0xA0 || n = 0x1680 ||
    (0x2000 ≤ n && n ≤ 0x200A) || n = 0x2028 || n = 0x2029 || n = 0x202F || n = 0x205F || n = 0x3000

/-- `str::trim`. -/
def trim (s : List Char) : List Char := (s.dropWhile isWhitespace).rdropWhile isWhitespace

/-- `u64::from_str`, on digits. -/
def parseU64 (digits : List Char) : Option ℕ :=
  if digits = [] then none
  else digits.foldlM (fun count c =>
    let count := 10 * count + (c.toNat - '0'.toNat)
    if count ≤ u64Max then some count else none) 0

/-- The spellings of the units, in lower case. -/
def unitFactors : List (List Char × ℕ) :=
  [([], 1), (['b'], 1), (['k'], 1 <<< 10), (['k', 'i', 'b'], 1 <<< 10), (['m'], 1 <<< 20),
    (['m', 'i', 'b'], 1 <<< 20), (['g'], 1 <<< 30), (['g', 'i', 'b'], 1 <<< 30),
    (['k', 'b'], 1000), (['m', 'b'], 1000000), (['g', 'b'], 1000000000)]

/-- `BINARY_UNITS`. -/
def binaryUnits : List (List Char × ℕ) :=
  [(['G', 'i', 'B'], 1 <<< 30), (['M', 'i', 'B'], 1 <<< 20), (['K', 'i', 'B'], 1 <<< 10)]

namespace ByteSize

/-- `Display`. -/
def display (size : ByteSize) : List Char :=
  match binaryUnits.find? fun unit => unit.2 ≤ size.bytes && size.bytes % unit.2 = 0 with
  | some (unit, multiple) => Nat.toDigits 10 (size.bytes / multiple) ++ unit
  | none => Nat.toDigits 10 size.bytes ++ ['B']

/-- `FromStr`. -/
def fromStr (s : List Char) : Except ByteSizeError ByteSize :=
  let value := trim s
  let count := value.takeWhile Char.isDigit
  let unit := value.dropWhile Char.isDigit
  match parseU64 count with
  | none => .error (.malformed value)
  | some count =>
    match unitFactors.lookup ((trim unit).map Char.toLower) with
    | none => .error (.malformed value)
    | some multiple =>
      if h : count * multiple ≤ u64Max then .ok ⟨count * multiple, h⟩ else .error (.tooLarge value)

end ByteSize

/-! ### What a string denotes -/

/-- A string is a size, in any case of letters: digits, whitespace and a unit, once the whitespace
around it is taken off. -/
def Denotes (s : List Char) (n : ℕ) : Prop :=
  ∃ digits space unit factor, trim s = digits ++ (space ++ unit) ∧ digits ≠ [] ∧
    (∀ c ∈ digits, c.isDigit = true) ∧ (∀ c ∈ space, isWhitespace c = true) ∧
    (unit.map Char.toLower, factor) ∈ unitFactors ∧ n = Nat.ofDigitChars 10 digits 0 * factor

/-- **Digits are read**, unless they are more than a `u64`. -/
theorem parseU64_eq_some_iff {digits : List Char} {n : ℕ} : parseU64 digits = some n ↔
    digits ≠ [] ∧ n = Nat.ofDigitChars 10 digits 0 ∧ n ≤ u64Max := by
  have hmono (count : ℕ) (digits : List Char) : count ≤ Nat.ofDigitChars 10 digits count := by
    induction digits generalizing count with
    | nil => simp
    | cons c digits ih =>
      rw [Nat.ofDigitChars_cons]
      exact le_trans (by omega) (ih _)
  have hfold (count : ℕ) (hcount : count ≤ u64Max) (digits : List Char) :
      (digits.foldlM (fun count c =>
        let count := 10 * count + (c.toNat - '0'.toNat)
        if count ≤ u64Max then some count else none) count) = some n ↔
      n = Nat.ofDigitChars 10 digits count ∧ n ≤ u64Max := by
    induction digits generalizing count with
    | nil =>
      rw [Nat.ofDigitChars_nil]
      constructor
      · rintro ⟨⟩
        exact ⟨rfl, hcount⟩
      · rintro ⟨rfl, -⟩
        rfl
    | cons c digits ih =>
      rw [List.foldlM_cons, Nat.ofDigitChars_cons]
      have hstep := hmono (10 * count + (c.toNat - '0'.toNat)) digits
      by_cases hfits : 10 * count + (c.toNat - '0'.toNat) ≤ u64Max
      · simp only [if_pos hfits]
        exact ih _ hfits
      · simp only [if_neg hfits]
        refine iff_of_false (by rintro ⟨⟩) ?_
        rintro ⟨rfl, hn⟩
        exact hfits (hstep.trans hn)
  rw [parseU64]
  split
  next h => simp [h]
  next h => simp only [hfold 0 (Nat.zero_le _), h, ne_eq, not_false_eq_true, true_and]

/-! ### Splitting a string -/

private theorem digit_range {c : Char} (h : c.isDigit = true) : 48 ≤ c.toNat ∧ c.toNat ≤ 57 :=
  Char.isDigit_iff_toNat.mp h

private theorem isDigit_of_isWhitespace {c : Char} (h : isWhitespace c = true) :
    c.isDigit = false := by
  by_contra hc
  have hdigit := digit_range (by simpa using hc)
  simp only [isWhitespace, Bool.or_eq_true, Bool.and_eq_true, decide_eq_true_eq] at h
  omega

/-- A character of a unit is no digit and no whitespace. -/
private theorem of_unit_char {c : Char} (h : c.toLower ∈ ['b', 'k', 'i', 'm', 'g']) :
    isWhitespace c = false ∧ c.isDigit = false := by
  delta Char.toLower at h
  split at h
  next hupper =>
    have hrange : 65 ≤ c.toNat ∧ c.toNat ≤ 90 := by
      simp only [ge_iff_le, UInt32.le_iff_toNat_le] at hupper
      exact hupper
    constructor
    · by_contra hc
      simp only [isWhitespace, Bool.not_eq_false, Bool.or_eq_true, Bool.and_eq_true,
        decide_eq_true_eq] at hc
      omega
    · by_contra hc
      have hdigit := digit_range (by simpa using hc)
      omega
  next =>
    simp only [List.mem_cons, List.not_mem_nil, or_false] at h
    obtain rfl | rfl | rfl | rfl | rfl := h <;> decide

/-- The spellings of units are made of these characters. -/
private theorem of_unit {unit : List Char} {factor : ℕ}
    (h : (unit.map Char.toLower, factor) ∈ unitFactors) :
    ∀ c ∈ unit, isWhitespace c = false ∧ c.isDigit = false := by
  have hchars : ∀ unit ∈ unitFactors,
      unit.1.all (fun c => decide (c ∈ ['b', 'k', 'i', 'm', 'g'])) = true := by decide
  exact fun c hc => of_unit_char
    (of_decide_eq_true (List.all_eq_true.mp (hchars _ h) _ (List.mem_map_of_mem hc)))

/-- Nothing is taken off at the end. -/
private theorem rdropWhile_of_last {l : List Char} (h : ∀ c ∈ l.getLast?, isWhitespace c = false) :
    l.rdropWhile isWhitespace = l := by
  rw [List.rdropWhile_eq_self_iff]
  intro hl
  rw [h _ (List.getLast?_eq_some_getLast hl)]
  exact Bool.false_ne_true

/-- A string that was trimmed ends in no whitespace, nor does a part at its end. -/
private theorem last_of_suffix {s l : List Char} (h : l <:+ trim s) :
    ∀ c ∈ l.getLast?, isWhitespace c = false := by
  intro c hc
  obtain ⟨t, ht⟩ := h
  have hlast : (trim s).getLast? = some c := by
    rw [← ht, List.getLast?_append, hc]
    rfl
  obtain ⟨hne, rfl⟩ := List.mem_getLast?_eq_getLast hlast
  exact Bool.eq_false_of_not_eq_true
    (List.rdropWhile_last_not isWhitespace (s.dropWhile isWhitespace) hne)

/-- Digits, and what does not start with one, are split where they meet. -/
private theorem split_digits {digits rest : List Char} (hdigits : ∀ c ∈ digits, c.isDigit = true)
    (hrest : ∀ c ∈ rest.head?, c.isDigit = false) :
    (digits ++ rest).takeWhile Char.isDigit = digits ∧
      (digits ++ rest).dropWhile Char.isDigit = rest := by
  have htake : rest.takeWhile Char.isDigit = [] ∧ rest.dropWhile Char.isDigit = rest := by
    obtain _ | ⟨c, rest⟩ := rest
    · exact ⟨rfl, rfl⟩
    · have hc := hrest c rfl
      exact ⟨List.takeWhile_cons_of_neg (by simp [hc]), List.dropWhile_cons_of_neg (by simp [hc])⟩
  rw [List.takeWhile_append_of_pos hdigits, List.dropWhile_append_of_pos hdigits, htake.1, htake.2]
  exact ⟨List.append_nil _, rfl⟩

/-- Whitespace in front of a unit is taken off. -/
private theorem trim_unit {space unit : List Char} (hspace : ∀ c ∈ space, isWhitespace c = true)
    (hunit : ∀ c ∈ unit, isWhitespace c = false) : trim (space ++ unit) = unit := by
  have hdrop : unit.dropWhile isWhitespace = unit := by
    obtain _ | ⟨c, unit⟩ := unit
    · rfl
    · exact List.dropWhile_cons_of_neg (by simp [hunit c (List.mem_cons_self ..)])
  rw [trim, List.dropWhile_append_of_pos hspace, hdrop]
  exact rdropWhile_of_last fun c hc => hunit c (List.mem_of_getLast? hc)

/-! ### Reading and printing -/

namespace ByteSize

/-- **What is read is what is denoted.** -/
theorem fromStr_ok_iff (s : List Char) (size : ByteSize) :
    fromStr s = .ok size ↔ Denotes s size.bytes := by
  constructor
  · intro h
    rw [fromStr] at h
    cases hcount : parseU64 ((trim s).takeWhile Char.isDigit) with
    | none => simp [hcount] at h
    | some count =>
      obtain ⟨hne, rfl, -⟩ := parseU64_eq_some_iff.mp hcount
      cases hlookup : unitFactors.lookup
          ((trim ((trim s).dropWhile Char.isDigit)).map Char.toLower) with
      | none => simp [hcount, hlookup] at h
      | some factor =>
        simp only [hcount, hlookup] at h
        split at h
        next hfits =>
          have hunit : trim ((trim s).dropWhile Char.isDigit) =
              ((trim s).dropWhile Char.isDigit).dropWhile isWhitespace := by
            refine rdropWhile_of_last (last_of_suffix (s := s) ?_)
            exact (List.dropWhile_suffix _).trans (List.dropWhile_suffix _)
          rw [hunit] at hlookup
          refine ⟨(trim s).takeWhile Char.isDigit,
            ((trim s).dropWhile Char.isDigit).takeWhile isWhitespace,
            ((trim s).dropWhile Char.isDigit).dropWhile isWhitespace, factor,
            ?_, hne, ?_, ?_, ?_, ?_⟩
          · rw [List.takeWhile_append_dropWhile, List.takeWhile_append_dropWhile]
          · exact fun c hc => List.mem_takeWhile_imp hc
          · exact fun c hc => List.mem_takeWhile_imp hc
          · obtain ⟨before, after, htable, -⟩ := List.lookup_eq_some_iff.mp hlookup
            rw [htable]
            exact List.mem_append_right _ (List.mem_cons_self ..)
          · exact (congrArg ByteSize.bytes (Except.ok.inj h)).symm
        next => cases h
  · rintro ⟨digits, space, unit, factor, htrim, hne, hdigits, hspace, hmem, hbytes⟩
    have hunit := of_unit hmem
    have hrest : ∀ c ∈ (space ++ unit).head?, c.isDigit = false := by
      intro c hc
      rcases List.mem_append.mp (List.mem_of_mem_head? hc) with hc | hc
      · exact isDigit_of_isWhitespace (hspace c hc)
      · exact (hunit c hc).2
    obtain ⟨htake, hdrop⟩ := split_digits hdigits hrest
    have hfactor : 1 ≤ factor := by
      have hpos : ∀ unit ∈ unitFactors, 1 ≤ unit.2 := by decide
      exact hpos _ hmem
    have hlookup : unitFactors.lookup (unit.map Char.toLower) = some factor := by
      have hall : ∀ unit ∈ unitFactors, unitFactors.lookup unit.1 = some unit.2 := by decide
      exact hall _ hmem
    have hfits := size.le
    have hcount : parseU64 digits = some (Nat.ofDigitChars 10 digits 0) := by
      refine parseU64_eq_some_iff.mpr ⟨hne, rfl, ?_⟩
      exact (Nat.le_mul_of_pos_right _ hfactor).trans (by omega)
    rw [fromStr]
    simp only [htrim, htake, hdrop, hcount, trim_unit hspace fun c hc => (hunit c hc).1, hlookup]
    rw [dif_pos (by omega)]
    exact congrArg Except.ok (ByteSize.ext hbytes.symm)

/-- **A size is read from what it is printed as.** -/
theorem denotes_display (size : ByteSize) : Denotes size.display size.bytes := by
  -- The number that is printed, and the unit that it is a number of.
  obtain ⟨count, unit, factor, hdisplay, hunit, hmem, hbytes⟩ : ∃ count unit factor,
      size.display = Nat.toDigits 10 count ++ unit ∧ unit ≠ [] ∧
        (unit.map Char.toLower, factor) ∈ unitFactors ∧ size.bytes = count * factor := by
    rw [display]
    cases hfind : binaryUnits.find? fun unit => unit.2 ≤ size.bytes && size.bytes % unit.2 = 0 with
    | none => exact ⟨size.bytes, ['B'], 1, rfl, by simp, by decide, (Nat.mul_one _).symm⟩
    | some unit =>
      have htable : ∀ unit ∈ binaryUnits,
          unit.1 ≠ [] ∧ (unit.1.map Char.toLower, unit.2) ∈ unitFactors := by decide
      obtain ⟨hne, hmem⟩ := htable unit (List.mem_of_find?_eq_some hfind)
      have hdvd := List.find?_some hfind
      simp only [Bool.and_eq_true, decide_eq_true_eq] at hdvd
      exact ⟨_, unit.1, unit.2, rfl, hne, hmem,
        (Nat.div_mul_cancel (Nat.dvd_of_mod_eq_zero hdvd.2)).symm⟩
  have hdigits : ∀ c ∈ Nat.toDigits 10 count, c.isDigit = true := fun c hc =>
    Nat.isDigit_of_mem_toDigits (by decide) (by decide) hc
  have hchars : ∀ c ∈ Nat.toDigits 10 count ++ unit, isWhitespace c = false := by
    intro c hc
    rcases List.mem_append.mp hc with hc | hc
    · by_contra hspace
      have hspace := isDigit_of_isWhitespace (c := c) (by simpa using hspace)
      rw [hdigits c hc] at hspace
      cases hspace
    · exact (of_unit hmem c hc).1
  refine ⟨Nat.toDigits 10 count, [], unit, factor, ?_, Nat.toDigits_ne_nil, hdigits, by simp, hmem,
    ?_⟩
  · rw [hdisplay]
    exact trim_unit (List.forall_mem_nil _) hchars
  · rw [Nat.ofDigitChars_toDigits (by decide) (by decide), hbytes]

end ByteSize

/-- **Byte sizes print and parse back**, and exactly the strings that denote a size are parsed, each
as the size it denotes. -/
theorem byteSize_reads :
    (∀ size : ByteSize, ByteSize.fromStr size.display = .ok size) ∧
      ∀ (s : List Char) (size : ByteSize),
        ByteSize.fromStr s = .ok size ↔ Denotes s size.bytes :=
  ⟨fun size => (ByteSize.fromStr_ok_iff _ size).mpr size.denotes_display, ByteSize.fromStr_ok_iff⟩

end CoreRuntime
