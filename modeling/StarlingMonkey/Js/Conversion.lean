import Mathlib.Data.Int.Bitwise
import StarlingMonkey.Lib.Binary

/-!
# Conversion of doubles to integers

`enforce_range` and `clamp_to`, the conversions of arguments with `[EnforceRange]` and `[Clamp]`. A
double is a rational number of 53 bits, an infinity or not a number; both zeros are one number here,
since what is computed from a zero is a zero.

* `EnforceLaw` and `ClampLaw` are what WebIDL asks of them.
* `Misrounded` are the doubles at which `clamp_to` masks a bit of an integer that was not a tie, or
  masks it away from zero.
* `conversions_iff`: elsewhere both laws hold, and only there.
-/

namespace Js

open Binary

/-! ### Doubles -/

/-- A double. -/
inductive Double where
  | nan
  | infinite (negative : Bool)
  | finite (value : ℚ) (bits : Representable 53 value)

namespace Double

/-- The double nearest to a rational, ties to even. -/
def ofRat (x : ℚ) : Double := .finite (roundTo 53 x) (representable_roundTo (by decide) x)

/-- The conversion of an integer. -/
def ofInt (n : ℤ) : Double := ofRat n

/-- `f64::is_nan`. -/
def isNan : Double → Bool
  | nan => true
  | infinite _ | finite .. => false

/-- `f64::is_infinite`. -/
def isInfinite : Double → Bool
  | infinite _ => true
  | nan | finite .. => false

/-- The sum of a double and a rational that is a double. -/
def add (d : Double) (x : ℚ) : Double :=
  match d with
  | finite y _ => ofRat (y + x)
  | nan => nan
  | infinite negative => infinite negative

/-- `d.signum() * d.abs().floor()`. -/
def signumMulAbsFloor : Double → Double
  | nan => nan
  | infinite negative => infinite negative
  | finite x _ => if x < 0 then ofRat (-⌊|x|⌋) else ofRat ⌊|x|⌋

/-- `<=`. Nothing is comparable to what is not a number. -/
def le : Double → Double → Bool
  | nan, _ | _, nan => false
  | infinite negative, infinite negative' => negative || !negative'
  | infinite negative, finite .. => negative
  | finite .., infinite negative => !negative
  | finite x _, finite y _ => x ≤ y

/-- `==`. -/
def eq (d d' : Double) : Bool := d.le d' && d'.le d

/-- Whether a double is less than zero. -/
def isNegative : Double → Bool
  | nan => false
  | infinite negative => negative
  | finite x _ => x < 0

end Double

/-! ### Integer types -/

/-- The integer types that `Number` is implemented for. -/
inductive IntType where
  | u8
  | u16
  | u32
  | u64
  | i8
  | i16
  | i32
  | i64
deriving DecidableEq, Repr

namespace IntType

/-- The least value of the type. -/
def least : IntType → ℤ
  | u8 | u16 | u32 | u64 => 0
  | i8 => -2 ^ 7
  | i16 => -2 ^ 15
  | i32 => -2 ^ 31
  | i64 => -2 ^ 63

/-- The greatest value of the type. -/
def greatest : IntType → ℤ
  | u8 => 2 ^ 8 - 1
  | u16 => 2 ^ 16 - 1
  | u32 => 2 ^ 32 - 1
  | u64 => 2 ^ 64 - 1
  | i8 => 2 ^ 7 - 1
  | i16 => 2 ^ 15 - 1
  | i32 => 2 ^ 31 - 1
  | i64 => 2 ^ 63 - 1

/-- `Number::MIN`. -/
def min : IntType → ℤ
  | i64 => -(2 ^ 53) + 1
  | T => T.least

/-- `Number::MAX`. -/
def max : IntType → ℤ
  | u64 | i64 => 2 ^ 53 - 1
  | T => T.greatest

/-- `f64: As<D>`: the cast truncates and saturates. -/
def ofDouble (T : IntType) : Double → ℤ
  | .nan => 0
  | .infinite negative => if negative then T.least else T.greatest
  | .finite x _ => Max.max T.least (Min.min (if x < 0 then ⌈x⌉ else ⌊x⌋) T.greatest)

end IntType

/-! ### Conversions -/

/-- `enforce_range`. -/
def enforceRange (T : IntType) (d : Double) : Except String ℤ :=
  if d.isInfinite then .error "value out of range in an EnforceRange argument"
  else
    let rounded := d.signumMulAbsFloor
    if (Double.ofInt T.min).le rounded && rounded.le (Double.ofInt T.max) then
      .ok (T.ofDouble rounded)
    else .error "value out of range in an EnforceRange argument"

/-- `clamp_to`. -/
def clampTo (T : IntType) (d : Double) : ℤ :=
  if d.isNan then 0
  else if (Double.ofInt T.max).le d then T.max
  else if d.le (Double.ofInt T.min) then T.min
  else
    let toTruncate := if d.isNegative then d.add (-1 / 2) else d.add (1 / 2)
    let truncated := T.ofDouble toTruncate
    if (Double.ofInt truncated).eq toTruncate then Int.land truncated (Int.lnot 1)
    else truncated

/-! ### What WebIDL asks for -/

/-- The integer that WebIDL's clamped conversion asks for. -/
def ClampLaw (T : IntType) (d : Double) (n : ℤ) : Prop :=
  match d with
  | .nan => n = 0
  | .infinite negative => n = if negative then T.min else T.max
  | .finite x _ => NearestEven (Max.max T.min (Min.min x T.max)) n

/-- The integer part of a number. -/
def truncation (x : ℚ) : ℤ := if x < 0 then ⌈x⌉ else ⌊x⌋

/-- What WebIDL's conversion with a range enforced asks for. -/
def EnforceLaw (T : IntType) (d : Double) (result : Except String ℤ) : Prop :=
  match d with
  | .nan | .infinite _ => ∃ message, result = .error message
  | .finite x _ =>
    if T.min ≤ truncation x ∧ truncation x ≤ T.max then result = .ok (truncation x)
    else ∃ message, result = .error message

/-- A double between the bounds at which the masked bit is wrong: a negative tie above an odd
number, a number next to a half that one half is added to inexactly, or an odd number so large that
one half cannot be added to it. -/
def Misrounded (T : IntType) (d : Double) : Prop :=
  ∃ x bits, d = .finite x bits ∧ T.min < x ∧ x < T.max ∧
    ((x < 0 ∧ ∃ n : ℤ, Even n ∧ x = n - 1 / 2) ∨
      x = -(1 / 2 - 1 / 2 ^ 54) ∨ |x| = 1 / 2 + 1 / 2 ^ 53 ∨
      ∃ n : ℤ, Odd n ∧ x = n ∧ 2 ^ 52 < |n|)

/-! ### Adding one half -/

/-- What adding one half to a number of 53 bits, and rounding, comes to. -/
inductive HalfSum (x : ℚ) : ℚ → Prop where
  /-- The sum has 53 bits. -/
  | exact : HalfSum x (x + 1 / 2)
  /-- The nearest integer is even, and the integer part of the sum. -/
  | even {s : ℚ} (n : ℤ) (heven : Even n) (hlow : n ≤ s) (hhigh : s < n + 1) (hx : n - 1 / 2 ≤ x)
      (hx' : x < n + 1 / 2) : HalfSum x s
  /-- The last number before one half. -/
  | below (hx : x = 1 / 2 - 1 / 2 ^ 54) : HalfSum x 1
  /-- The first number after one half. -/
  | above (hx : x = 1 / 2 + 1 / 2 ^ 53) : HalfSum x 1
  /-- The nearest integer is the integer part of the sum, which is no integer. -/
  | between {s : ℚ} (n : ℤ) (hlow : n < s) (hhigh : s < n + 1) (hx : n - 1 / 2 < x)
      (hx' : x < n + 1 / 2) : HalfSum x s
  /-- An odd number to which one half cannot be added. -/
  | odd (n : ℤ) (hodd : Odd n) (hx : x = n) (hn : 2 ^ 52 < n) : HalfSum x (n + 1)

section HalfSum

variable {x : ℚ}

/-- Rounding a positive number, given its binade. -/
private theorem roundTo_binade {k n : ℤ} (hlow : 2 ^ k ≤ x) (hhigh : x < 2 ^ (k + 1))
    (hn : NearestEven (x / 2 ^ (k - 52)) n) : roundTo 53 x = n * 2 ^ (k - 52) := by
  have hpos : 0 < x := (two_zpow_pos k).trans_le hlow
  have hexp : exponent 53 x = k - 52 := by
    rw [exponent_eq (by rwa [abs_of_pos hpos]) (by rwa [abs_of_pos hpos])]
    push_cast
    ring
  rw [roundTo, hexp, roundEven_eq_iff.mpr hn]

/-- A positive number that is a multiple of the last bit of its binade is not rounded. -/
private theorem roundTo_multiple {k j : ℤ} (hlow : 2 ^ k ≤ x) (hhigh : x < 2 ^ (k + 1))
    (hj : x = j * 2 ^ (k - 52)) : roundTo 53 x = x := by
  have hdiv : x / 2 ^ (k - 52) = j := by rw [hj, mul_div_cancel_right₀ _ (two_zpow_pos _).ne']
  rw [roundTo_binade hlow hhigh (n := j) (by rw [hdiv]; exact nearestEven_intCast j), ← hj]

/-- Rounding does not cross multiples of the last bit. -/
private theorem roundTo_mem {k i j : ℤ} (hlow : 2 ^ k ≤ x) (hhigh : x < 2 ^ (k + 1))
    (hi : i * 2 ^ (k - 52) ≤ x) (hj : x ≤ j * 2 ^ (k - 52)) :
    i * 2 ^ (k - 52) ≤ roundTo 53 x ∧ roundTo 53 x ≤ j * 2 ^ (k - 52) := by
  have hpos : 0 < x := (two_zpow_pos k).trans_le hlow
  have hexp : exponent 53 x = k - 52 := by
    rw [exponent_eq (by rwa [abs_of_pos hpos]) (by rwa [abs_of_pos hpos])]
    push_cast
    ring
  rw [← hexp] at hi hj ⊢
  exact ⟨le_roundTo hi, roundTo_le hj⟩

/-- The last number before one half. -/
private theorem roundTo_below : roundTo 53 (1 / 2 - 1 / 2 ^ 54 + 1 / 2) = 1 := by
  rw [roundTo_binade (k := -1) (n := 2 ^ 53) (by norm_num) (by norm_num)
    ⟨by norm_num, fun _ => by decide⟩]
  norm_num

/-- The first number after one half. -/
private theorem roundTo_above : roundTo 53 (1 / 2 + 1 / 2 ^ 53 + 1 / 2) = 1 := by
  rw [roundTo_binade (k := 0) (n := 2 ^ 52) (by norm_num) (by norm_num)
    ⟨by norm_num, fun _ => by decide⟩]
  norm_num

/-- An integer to which one half cannot be added. -/
private theorem roundTo_large {n m : ℤ} (hn : 2 ^ 52 ≤ n) (hn' : n < 2 ^ 53)
    (hm : NearestEven ((n : ℚ) + 1 / 2) m) : roundTo 53 (n + 1 / 2) = m := by
  have hlow : (2 ^ 52 : ℚ) ≤ n := by exact_mod_cast hn
  have hhigh : (n : ℚ) + 1 ≤ 2 ^ 53 := by exact_mod_cast hn'
  rw [roundTo_binade (k := 52) (n := m) (by norm_num at hlow ⊢; linarith)
    (by norm_num at hhigh ⊢; linarith) (by simpa using hm)]
  simp

/-- The even one of the two integers next to it is the next one after an odd number. -/
private theorem roundTo_odd {n : ℤ} (hodd : Odd n) (hn : 2 ^ 52 ≤ n) (hn' : n < 2 ^ 53) :
    roundTo 53 (n + 1 / 2) = n + 1 := by
  rw [roundTo_large hn hn' (m := n + 1)]
  · push_cast
    rfl
  · refine ⟨?_, fun _ => hodd.add_one⟩
    rw [show (n : ℚ) + 1 / 2 - ((n + 1 : ℤ) : ℚ) = -(1 / 2) by push_cast; ring, abs_neg]
    norm_num [abs_of_pos]

/-- Below one half. -/
private theorem halfSum_lt_half (h : Representable 53 x) (h0 : 0 ≤ x) (hx : x < 1 / 2) :
    HalfSum x (roundTo 53 (x + 1 / 2)) := by
  have hlow : (2 : ℚ) ^ (-1 : ℤ) ≤ x + 1 / 2 := by norm_num; linarith
  have hhigh : x + 1 / 2 < (2 : ℚ) ^ (-1 + 1 : ℤ) := by norm_num; linarith
  by_cases hbelow : x + 1 / 2 ≤ (2 ^ 53 - 1 : ℤ) * (2 : ℚ) ^ (-1 - 52 : ℤ)
  · obtain ⟨hs, hs'⟩ := roundTo_mem (i := 2 ^ 52) hlow hhigh (by norm_num; linarith) hbelow
    norm_num at hs hs'
    exact .even 0 (by simp) (by push_cast; linarith) (by push_cast; linarith)
      (by push_cast; linarith) (by push_cast; linarith)
  · obtain ⟨j, hj⟩ := h.multiple (k := -2) (e := -54)
      (by rw [abs_of_nonneg h0]; norm_num at hbelow ⊢; linarith) (by norm_num)
    norm_num at hj hbelow
    have hj1 : (2 ^ 53 - 2 : ℚ) < j := by rw [hj] at hbelow; norm_num; linarith
    have hj2 : (j : ℚ) < 2 ^ 53 := by rw [hj] at hx; norm_num; linarith
    obtain rfl : j = 2 ^ 53 - 1 := by
      have h1 : (2 ^ 53 - 2 : ℤ) < j := by exact_mod_cast hj1
      have h2 : j < 2 ^ 53 := by exact_mod_cast hj2
      omega
    have hx : x = 1 / 2 - 1 / 2 ^ 54 := by rw [hj]; norm_num
    rw [hx, roundTo_below]
    exact .below rfl

/-- From one half on, below one. -/
private theorem halfSum_lt_one (h : Representable 53 x) (h2 : 1 / 2 ≤ x) (hx : x < 1) :
    HalfSum x (roundTo 53 (x + 1 / 2)) := by
  have hlow : (2 : ℚ) ^ (0 : ℤ) ≤ x + 1 / 2 := by norm_num; linarith
  have hhigh : x + 1 / 2 < (2 : ℚ) ^ (0 + 1 : ℤ) := by norm_num; linarith
  obtain ⟨j, hj⟩ := h.multiple (k := -1) (e := -53)
    (by rw [abs_of_nonneg (by linarith)]; norm_num; linarith) (by norm_num)
  norm_num at hj
  have hj1 : (2 ^ 52 : ℤ) ≤ j := by
    have : (2 ^ 52 : ℚ) ≤ j := by rw [hj] at h2; norm_num; linarith
    exact_mod_cast this
  rcases hj1.eq_or_lt with rfl | hj1
  · have hx : x = 1 / 2 := by rw [hj]; norm_num
    rw [roundTo_multiple (j := 2 ^ 52) hlow hhigh (by rw [hx]; norm_num)]
    exact .exact
  rcases (Int.add_one_le_iff.mpr hj1).eq_or_lt with rfl | hj1
  · have hx : x = 1 / 2 + 1 / 2 ^ 53 := by rw [hj]; norm_num
    rw [hx, roundTo_above]
    exact .above rfl
  · have hj1 : (2 ^ 52 + 2 : ℚ) ≤ j := by
      have : (2 ^ 52 + 2 : ℤ) ≤ j := by omega
      exact_mod_cast this
    obtain ⟨hs, hs'⟩ := roundTo_mem (i := 2 ^ 52 + 1) (j := 2 ^ 52 + 2 ^ 51) hlow hhigh
      (by rw [hj]; norm_num at hj1 ⊢; linarith) (by norm_num; linarith)
    norm_num at hs hs'
    exact .between 1 (by push_cast; linarith) (by push_cast; linarith)
      (by push_cast; linarith) (by push_cast; linarith)

/-- From one on, as long as one half is a multiple of the last bit. -/
private theorem halfSum_lt_large (h : Representable 53 x) (h1 : 1 ≤ x) (hx : x < 2 ^ 52) :
    HalfSum x (roundTo 53 (x + 1 / 2)) := by
  have hpos : 0 < x := by linarith
  obtain ⟨k, hlow, hhigh⟩ := exists_binade hpos.ne'
  rw [abs_of_pos hpos] at hlow hhigh
  have hk0 : 0 ≤ k := by
    have : (2 : ℚ) ^ (0 : ℤ) < 2 ^ (k + 1) := by rw [zpow_zero]; linarith
    have := (zpow_lt_zpow_iff_right₀ one_lt_two).mp this
    omega
  have hk : k < 52 := by
    have : (2 : ℚ) ^ k < 2 ^ (52 : ℤ) := hlow.trans_lt (by exact_mod_cast hx)
    exact (zpow_lt_zpow_iff_right₀ one_lt_two).mp this
  obtain ⟨j, hj⟩ := h.multiple (k := k) (e := k - 52) (by rwa [abs_of_pos hpos])
    (by push_cast; omega)
  -- One half, in units of a bit that is not greater.
  have hhalf : ∀ b : ℤ, b ≤ -1 → (1 / 2 : ℚ) = ((2 ^ (-1 - b).toNat : ℤ) : ℚ) * 2 ^ b := by
    intro b hb
    push_cast
    rw [← zpow_natCast, ← zpow_add₀ two_ne_zero, Int.toNat_of_nonneg (by omega)]
    norm_num
  rcases lt_or_ge (x + 1 / 2) (2 ^ (k + 1)) with hcarry | hcarry
  · rw [roundTo_multiple (k := k) (by linarith) hcarry
      (by rw [hj, hhalf (k - 52) (by omega), ← add_mul, ← Int.cast_add])]
    exact .exact
  have hhigh' : x + 1 / 2 < 2 ^ (k + 1 + 1) := by
    have : (2 : ℚ) ^ (0 : ℤ) ≤ 2 ^ (k + 1) := zpow_le_zpow_right₀ one_le_two (by omega)
    rw [zpow_add_one₀ two_ne_zero (k + 1)]
    rw [zpow_zero] at this
    linarith
  lift k to ℕ using hk0
  have hpow : ((2 ^ (k + 1) : ℤ) : ℚ) = 2 ^ ((k : ℤ) + 1) := by
    push_cast
    exact_mod_cast rfl
  have hpow' : ((2 ^ 52 : ℤ) : ℚ) * 2 ^ ((k : ℤ) + 1 - 52) = 2 ^ ((k : ℤ) + 1) := by
    rw [show ((2 ^ 52 : ℤ) : ℚ) = 2 ^ (52 : ℤ) by norm_num, ← zpow_add₀ two_ne_zero]
    congr 1
    ring
  rcases Nat.lt_or_ge k 51 with hk51 | hk51
  · obtain ⟨hs, hs'⟩ := roundTo_mem (k := k + 1) (i := 2 ^ 52)
      (j := 2 ^ 52 + 2 ^ (-1 - ((k : ℤ) + 1 - 52)).toNat) hcarry hhigh' (by rwa [hpow'])
      (by rw [Int.cast_add, add_mul, hpow', ← hhalf _ (by omega)]; linarith)
    rw [hpow'] at hs
    rw [Int.cast_add, add_mul, hpow', ← hhalf _ (by omega)] at hs'
    exact .even (2 ^ (k + 1)) ⟨2 ^ k, by ring⟩ (by rwa [hpow]) (by rw [hpow]; linarith)
      (by rw [hpow]; linarith) (by rw [hpow]; linarith)
  · obtain rfl : k = 51 := by omega
    norm_num at hj hcarry hx
    have hj1 : (2 ^ 53 - 1 : ℤ) ≤ j := by
      have : (2 ^ 53 - 1 : ℚ) ≤ j := by rw [hj] at hcarry; norm_num; linarith
      exact_mod_cast this
    have hj2 : j < 2 ^ 53 := by
      have : (j : ℚ) < 2 ^ 53 := by rw [hj] at hx; norm_num; linarith
      exact_mod_cast this
    obtain rfl : j = 2 ^ 53 - 1 := by omega
    rw [roundTo_multiple (k := 52) (j := 2 ^ 52) (by rw [hj]; norm_num) (by rw [hj]; norm_num)
      (by rw [hj]; norm_num)]
    exact .exact

/-- Integers to which one half cannot be added. -/
private theorem halfSum_large (h : Representable 53 x) (hx : 2 ^ 52 ≤ x) (hx' : x < 2 ^ 53) :
    HalfSum x (roundTo 53 (x + 1 / 2)) := by
  obtain ⟨n, hn⟩ := h.multiple (k := 52) (e := 0)
    (by rw [abs_of_nonneg (by linarith)]; exact_mod_cast hx) (by norm_num)
  rw [zpow_zero, mul_one] at hn
  subst hn
  have hn : (2 ^ 52 : ℤ) ≤ n := by exact_mod_cast hx
  have hn' : n < (2 ^ 53 : ℤ) := by exact_mod_cast hx'
  rcases Int.even_or_odd n with heven | hodd
  · rw [roundTo_large hn hn' ⟨by rw [add_sub_cancel_left]; norm_num [abs_of_pos], fun _ => heven⟩]
    exact .even n heven le_rfl (by linarith) (by linarith) (by linarith)
  · rw [roundTo_odd hodd hn hn']
    refine .odd n hodd rfl (lt_of_le_of_ne hn ?_)
    rintro rfl
    exact absurd hodd (by decide)

/-- **Adding one half.** -/
theorem halfSum (h : Representable 53 x) (h0 : 0 ≤ x) (hx : x < 2 ^ 53) :
    HalfSum x (roundTo 53 (x + 1 / 2)) := by
  rcases lt_or_ge x (1 / 2) with h2 | h2
  · exact halfSum_lt_half h h0 h2
  rcases lt_or_ge x 1 with h1 | h1
  · exact halfSum_lt_one h h2 h1
  rcases lt_or_ge x (2 ^ 52) with h52 | h52
  · exact halfSum_lt_large h h1 h52
  · exact halfSum_large h h52 hx

variable {s : ℚ}

theorem HalfSum.nonneg (h : HalfSum x s) (h0 : 0 ≤ x) : 0 ≤ s := by
  have hfloor : ∀ n : ℤ, x < n + 1 / 2 → (0 : ℚ) ≤ n := by
    intro n hn
    have : (0 : ℚ) < ((n + 1 : ℤ) : ℚ) := by push_cast; linarith
    have : 0 < n + 1 := by exact_mod_cast this
    exact_mod_cast (by omega : 0 ≤ n)
  cases h with
  | exact => linarith
  | even n heven hlow hhigh hx hx' => exact (hfloor n hx').trans hlow
  | below | above => exact zero_le_one
  | between n hlow hhigh hx hx' => exact (hfloor n hx').trans hlow.le
  | odd n hodd hx hn => linarith

/-- Truncating the sum does not leave a bound that is an integer. -/
theorem HalfSum.floor_le (h : HalfSum x s) (h0 : 0 ≤ x) {b : ℤ} (hb : x < b) : ⌊s⌋ ≤ b := by
  have hnear : ∀ n : ℤ, (n : ℚ) - 1 / 2 ≤ x → n ≤ b := by
    intro n hn
    have : (n : ℚ) < ((b + 1 : ℤ) : ℚ) := by push_cast; linarith
    have : n < b + 1 := by exact_mod_cast this
    omega
  have hone : (1 : ℤ) ≤ b := by
    have : (0 : ℚ) < b := by linarith
    exact_mod_cast this
  cases h with
  | exact => exact hnear _ (by linarith [Int.floor_le (x + 1 / 2)])
  | even n heven hlow hhigh hx hx' =>
    rw [Int.floor_eq_iff.mpr ⟨hlow, hhigh⟩]
    exact hnear n hx
  | below | above => simpa using hone
  | between n hlow hhigh hx hx' =>
    rw [Int.floor_eq_iff.mpr ⟨hlow.le, hhigh⟩]
    exact hnear n hx.le
  | odd n hodd hx hn =>
    rw [hx] at hb
    have : n < b := by exact_mod_cast hb
    rw [show (n : ℚ) + 1 = ((n + 1 : ℤ) : ℚ) by push_cast; rfl, Int.floor_intCast]
    omega

end HalfSum

/-! ### Masking -/

/-- Masking the lowest bit goes down to an even number. -/
theorem land_lnot_one (n : ℤ) : Int.land n (Int.lnot 1) = n - n % 2 := by
  have hneg : ∀ m : ℤ, Int.land m (-1) = m := by
    intro m
    cases m with
    | ofNat m =>
      have hdiff : m.ldiff 0 = m := Nat.eq_of_testBit_eq fun i => by simp [Nat.testBit_ldiff]
      exact congrArg Int.ofNat hdiff
    | negSucc m => exact congrArg Int.negSucc (Nat.or_zero m)
  have hone : Int.lnot 1 = Int.bit false (-1) := rfl
  conv_lhs => rw [← Int.bit_decomp n, hone, Int.land_bit, hneg, Bool.and_false]
  rw [Int.bit_val, Bool.cond_false, add_zero, Int.div2_val]
  omega

/-! ### The conversions of doubles between the bounds -/

section Bounds

variable (T : IntType)

theorem IntType.min_le_zero : T.min ≤ 0 := by cases T <;> decide

theorem IntType.zero_lt_max : 0 < T.max := by cases T <;> decide

theorem IntType.least_le_min : T.least ≤ T.min := by cases T <;> decide

theorem IntType.max_le_greatest : T.max ≤ T.greatest := by cases T <;> decide

theorem IntType.neg_lt_min : -2 ^ 53 < T.min := by cases T <;> decide

theorem IntType.max_lt : T.max < 2 ^ 53 := by cases T <;> decide

theorem IntType.abs_min_le : |T.min| ≤ 2 ^ 53 := by cases T <;> decide

theorem IntType.abs_max_le : |T.max| ≤ 2 ^ 53 := by cases T <;> decide

end Bounds

section Between

variable {T : IntType} {x : ℚ} {bits : Representable 53 x}

theorem representable_intCast {n : ℤ} (h : |n| ≤ 2 ^ 53) : Representable 53 (n : ℚ) := by
  rcases h.lt_or_eq with h | h
  · exact ⟨n, 0, h, by simp⟩
  · rcases (abs_eq (by norm_num)).mp h with rfl | rfl
    · exact ⟨2 ^ 52, 1, by norm_num, by norm_num⟩
    · exact ⟨-2 ^ 52, 1, by norm_num, by norm_num⟩

/-- Integers up to `2 ^ 53` are converted exactly. -/
theorem Double.ofInt_eq {n : ℤ} (h : |n| ≤ 2 ^ 53) :
    Double.ofInt n = .finite n (representable_intCast h) := by
  have hround := (representable_intCast h).roundTo_eq
  simp only [Double.ofInt, Double.ofRat, hround]

theorem IntType.ofInt_min (T : IntType) :
    Double.ofInt T.min = .finite T.min (representable_intCast T.abs_min_le) :=
  Double.ofInt_eq T.abs_min_le

theorem IntType.ofInt_max (T : IntType) :
    Double.ofInt T.max = .finite T.max (representable_intCast T.abs_max_le) :=
  Double.ofInt_eq T.abs_max_le

theorem IntType.max_le_iff :
    (Double.ofInt T.max).le (.finite x bits) = decide ((T.max : ℚ) ≤ x) := by
  rw [T.ofInt_max]
  rfl

theorem IntType.le_min_iff :
    (Double.finite x bits).le (Double.ofInt T.min) = decide (x ≤ T.min) := by
  rw [T.ofInt_min]
  rfl

/-- The integer part of the sum, the lowest bit masked if there is no other part. -/
def repaired (negative : Bool) (s : ℚ) : ℤ :=
  let n := if negative then -⌊s⌋ else ⌊s⌋
  if s = ⌊s⌋ then n - n % 2 else n

/-- The end of `clamp_to`, given the sum. -/
private theorem clamp_sum {v s : ℚ} {hv : Representable 53 v} (negative : Bool)
    (hvs : v = if negative then -s else s) (h0 : 0 ≤ s)
    (hlow : T.least ≤ if negative then -⌊s⌋ else ⌊s⌋)
    (hhigh : (if negative then -⌊s⌋ else ⌊s⌋) ≤ T.greatest) (hsmall : ⌊s⌋ ≤ 2 ^ 53) :
    (if (Double.ofInt (T.ofDouble (.finite v hv))).eq (.finite v hv) then
      Int.land (T.ofDouble (.finite v hv)) (Int.lnot 1) else T.ofDouble (.finite v hv)) =
    repaired negative s := by
  have hfloor : 0 ≤ ⌊s⌋ := Int.floor_nonneg.mpr h0
  have hcast : T.ofDouble (.finite v hv) = if negative then -⌊s⌋ else ⌊s⌋ := by
    have htrunc : (if v < 0 then ⌈v⌉ else ⌊v⌋) = if negative then -⌊s⌋ else ⌊s⌋ := by
      subst hvs
      cases negative with
      | false => exact if_neg (not_lt.mpr h0)
      | true =>
        rcases h0.eq_or_lt with rfl | h0
        · simp
        · rw [if_pos rfl, if_pos (neg_lt_zero.mpr h0), Int.ceil_neg, if_pos rfl]
    rw [IntType.ofDouble, htrunc, min_eq_left hhigh, max_eq_right hlow]
  rw [hcast, Double.ofInt_eq (by cases negative <;> simpa [abs_of_nonneg hfloor] using hsmall),
    land_lnot_one]
  have heq : (Double.finite ((if negative then -⌊s⌋ else ⌊s⌋ : ℤ) : ℚ)
      (representable_intCast (by cases negative <;> simpa [abs_of_nonneg hfloor] using hsmall))).eq
        (.finite v hv) = decide (s = ⌊s⌋) := by
    rw [Double.eq, Double.le, Double.le, ← Bool.decide_and, decide_eq_decide, ← le_antisymm_iff,
      hvs]
    cases negative with
    | false => simp [eq_comm]
    | true => simp [eq_comm]
  rw [heq]
  simp only [repaired, decide_eq_true_eq]

theorem representable_abs (h : Representable 53 x) : Representable 53 |x| := by
  rcases abs_choice x with habs | habs <;> rw [habs]
  · exact h
  · exact h.neg

/-- `clamp_to` between the bounds: one half is added to the absolute value. -/
theorem clampTo_between (hmin : T.min < x) (hmax : x < T.max) :
    clampTo T (.finite x bits) = repaired (x < 0) (roundTo 53 (|x| + 1 / 2)) := by
  have hmax' : (T.max : ℚ) < 2 ^ 53 := by exact_mod_cast T.max_lt
  have hmin' : (-2 ^ 53 : ℚ) < T.min := by exact_mod_cast T.neg_lt_min
  have hsum := halfSum (representable_abs bits) (abs_nonneg x)
    (abs_lt.mpr ⟨by linarith, by linarith⟩)
  have h0 := hsum.nonneg (abs_nonneg x)
  have hfloor : 0 ≤ ⌊roundTo 53 (|x| + 1 / 2)⌋ := Int.floor_nonneg.mpr h0
  simp only [clampTo, Double.isNan, IntType.max_le_iff, IntType.le_min_iff, not_le.mpr hmax,
    not_le.mpr hmin, decide_false, Bool.false_eq_true, if_false, Double.isNegative,
    decide_eq_true_eq]
  rcases lt_or_ge x 0 with hx | hx
  · have hbound := hsum.floor_le (abs_nonneg x) (b := -T.min)
      (by rw [abs_of_neg hx]; push_cast; linarith)
    have hround : roundTo 53 (x + -1 / 2) = -roundTo 53 (|x| + 1 / 2) := by
      rw [← roundTo_neg, abs_of_neg hx]
      congr 1
      ring
    rw [if_pos hx, decide_eq_true hx]
    refine clamp_sum true hround h0 ?_ ?_ ?_
    · have := T.least_le_min
      simp only [if_true]
      omega
    · have := T.max_le_greatest
      have := T.zero_lt_max
      simp only [if_true]
      omega
    · have := T.neg_lt_min
      omega
  · have hbound := hsum.floor_le (abs_nonneg x) (b := T.max) (by rwa [abs_of_nonneg hx])
    rw [if_neg (not_lt.mpr hx), decide_eq_false (not_lt.mpr hx)]
    refine clamp_sum false (by rw [abs_of_nonneg hx]; rfl) h0 ?_ ?_ ?_
    · have := T.least_le_min
      have := T.min_le_zero
      simp only [Bool.false_eq_true, if_false]
      omega
    · have := T.max_le_greatest
      simp only [Bool.false_eq_true, if_false]
      omega
    · have := T.max_lt
      omega

end Between

/-! ### Where the right bit is masked -/

section Masked

variable {a s : ℚ}

theorem repaired_of_even {negative : Bool} {n : ℤ} (heven : Even n) (hlow : n ≤ s)
    (hhigh : s < n + 1) : repaired negative s = if negative then -n else n := by
  have hn : n % 2 = 0 := Int.even_iff.mp heven
  rw [repaired, Int.floor_eq_iff.mpr ⟨hlow, hhigh⟩]
  cases negative <;> simp only [Bool.false_eq_true, if_false, if_true] <;> split <;> omega

theorem repaired_of_ne {negative : Bool} {n : ℤ} (hlow : n < s) (hhigh : s < n + 1) :
    repaired negative s = if negative then -n else n := by
  have hfloor : ⌊s⌋ = n := Int.floor_eq_iff.mpr ⟨hlow.le, hhigh⟩
  rw [repaired, if_neg (by rw [hfloor]; exact hlow.ne'), hfloor]

theorem repaired_intCast (negative : Bool) (n : ℤ) :
    repaired negative n =
      (if negative then -n else n) - (if negative then -n else n) % 2 := by
  rw [repaired, Int.floor_intCast, if_pos rfl]

theorem nearestEven_sign {negative : Bool} {n : ℤ} (h : NearestEven a n) :
    NearestEven (if negative then -a else a) (if negative then -n else n) := by
  cases negative with
  | false => exact h
  | true => exact_mod_cast h.neg

/-- Elsewhere what is masked is an even integer, or the wrong one of two that are equally near. -/
theorem HalfSum.nearestEven (h : HalfSum a s) {negative : Bool}
    (htie : negative = true → ¬ ∃ n : ℤ, Even n ∧ a = n + 1 / 2)
    (hbelow : negative = true → a ≠ 1 / 2 - 1 / 2 ^ 54) (habove : a ≠ 1 / 2 + 1 / 2 ^ 53)
    (hodd : ¬ ∃ n : ℤ, Odd n ∧ a = n ∧ 2 ^ 52 < n) :
    NearestEven (if negative then -a else a) (repaired negative s) := by
  cases h with
  | exact =>
    obtain ⟨n, hn⟩ : ∃ n, n = ⌊a + 1 / 2⌋ := ⟨_, rfl⟩
    have hlow : (n : ℚ) ≤ a + 1 / 2 := hn ▸ Int.floor_le _
    have hhigh : a + 1 / 2 < n + 1 := hn ▸ Int.lt_floor_add_one _
    rcases hlow.eq_or_lt with heq | hlow
    -- A tie: the sum is an integer.
    · have ha : a = n - 1 / 2 := by linarith
      rw [← heq, repaired_intCast]
      rcases Int.even_or_odd n with heven | hodd'
      · have hn : n % 2 = 0 := Int.even_iff.mp heven
        have hresult : ((if negative then -n else n) - (if negative then -n else n) % 2) =
            if negative then -n else n := by cases negative <;> simp <;> omega
        rw [hresult]
        exact nearestEven_sign (.of_even heven ha.ge (by linarith))
      · cases negative with
        | true =>
          refine absurd ⟨n - 1, hodd'.sub_odd odd_one, ?_⟩ (htie rfl)
          rw [ha]
          push_cast
          ring
        | false =>
          have hn : n % 2 = 1 := Int.odd_iff.mp hodd'
          simp only [Bool.false_eq_true, if_false, hn]
          exact .of_even (hodd'.sub_odd odd_one) (by push_cast; linarith) (by push_cast; linarith)
    · rw [repaired_of_ne hlow hhigh]
      exact nearestEven_sign (.of_lt (by linarith) (by linarith))
  | even n heven hlow hhigh hx hx' =>
    rw [repaired_of_even heven hlow hhigh]
    exact nearestEven_sign (.of_even heven hx hx'.le)
  | below hx =>
    cases negative with
    | true => exact absurd hx (hbelow rfl)
    | false =>
      have hone := repaired_intCast false 1
      rw [Int.cast_one] at hone
      rw [hone, hx]
      exact .of_lt (by norm_num) (by norm_num)
  | above hx => exact absurd hx habove
  | between n hlow hhigh hx hx' =>
    rw [repaired_of_ne hlow hhigh]
    exact nearestEven_sign (.of_lt hx hx')
  | odd n hodd' hx hn => exact absurd ⟨n, hodd', hx, hn⟩ hodd

end Masked

/-! ### The laws -/

section Laws

variable (T : IntType) (x : ℚ) (bits : Representable 53 x)

/-- Where the wrong bit is masked the result is more than one half away. -/
theorem not_nearestEven_clampTo (hmin : T.min < x) (hmax : x < T.max)
    (h : (x < 0 ∧ ∃ n : ℤ, Even n ∧ x = n - 1 / 2) ∨
      x = -(1 / 2 - 1 / 2 ^ 54) ∨ |x| = 1 / 2 + 1 / 2 ^ 53 ∨
      ∃ n : ℤ, Odd n ∧ x = n ∧ 2 ^ 52 < |n|) :
    ¬ NearestEven x (clampTo T (.finite x bits)) := by
  have hmax' : (T.max : ℚ) < 2 ^ 53 := by exact_mod_cast T.max_lt
  have hmin' : (-2 ^ 53 : ℚ) < T.min := by exact_mod_cast T.neg_lt_min
  rw [clampTo_between hmin hmax]
  rintro ⟨hnear, -⟩
  rw [abs_le] at hnear
  rcases h with ⟨hx, n, heven, rfl⟩ | rfl | habs | ⟨n, hodd, rfl, hn⟩
  · have hn : n % 2 = 0 := Int.even_iff.mp heven
    have hn0 : n ≤ 0 := by
      have : (n : ℚ) < ((1 : ℤ) : ℚ) := by push_cast; linarith
      have : n < 1 := by exact_mod_cast this
      omega
    have hlow : -2 ^ 53 < n := by
      have : ((-2 ^ 53 : ℤ) : ℚ) < n := by push_cast; linarith
      exact_mod_cast this
    have hsum : |(n : ℚ) - 1 / 2| + 1 / 2 = ((1 - n : ℤ) : ℚ) := by
      rw [abs_of_neg hx]
      push_cast
      ring
    have hsmall : |1 - n| ≤ 2 ^ 53 := by
      rw [abs_of_pos (by omega)]
      omega
    rw [hsum, (representable_intCast hsmall).roundTo_eq, decide_eq_true hx,
      repaired_intCast] at hnear
    have hresult : ((if true then -(1 - n) else 1 - n) -
        (if true then -(1 - n) else 1 - n) % 2 : ℤ) = n - 2 := by simp; omega
    rw [hresult] at hnear
    push_cast at hnear
    linarith [hnear.2]
  · have hx : -(1 / 2 - 1 / 2 ^ 54 : ℚ) < 0 := by norm_num
    have hone := repaired_intCast true 1
    rw [Int.cast_one] at hone
    rw [abs_neg, abs_of_pos (by norm_num), roundTo_below, decide_eq_true hx, hone] at hnear
    norm_num at hnear
  · rw [habs, roundTo_above] at hnear
    have hone := fun negative => repaired_intCast negative 1
    rw [Int.cast_one] at hone
    rw [hone] at hnear
    rcases lt_or_ge x 0 with hx | hx
    · rw [abs_of_neg hx] at habs
      rw [decide_eq_true hx] at hnear
      norm_num at hnear habs
      linarith
    · rw [abs_of_nonneg hx] at habs
      rw [decide_eq_false (not_lt.mpr hx)] at hnear
      norm_num at hnear habs
      linarith
  · have hlarge : |n| < 2 ^ 53 := by
      rw [abs_lt]
      constructor
      · have : ((-2 ^ 53 : ℤ) : ℚ) < n := by push_cast; linarith
        exact_mod_cast this
      · have : (n : ℚ) < ((2 ^ 53 : ℤ) : ℚ) := by push_cast; linarith
        exact_mod_cast this
    have hodd' : Odd |n| := odd_abs.mpr hodd
    have hn2 : n % 2 = 1 := Int.odd_iff.mp hodd
    have hsum : roundTo 53 (|(n : ℚ)| + 1 / 2) = ((|n| + 1 : ℤ) : ℚ) := by
      rw [← Int.cast_abs, roundTo_odd hodd' hn.le hlarge]
      push_cast
      rfl
    rw [hsum, repaired_intCast] at hnear
    rcases lt_or_ge n 0 with hneg | hpos
    · have hx : (n : ℚ) < 0 := by exact_mod_cast hneg
      rw [decide_eq_true hx, abs_of_neg hneg] at hnear
      have hresult : ((if true then -(-n + 1) else -n + 1) -
          (if true then -(-n + 1) else -n + 1) % 2 : ℤ) = n - 1 := by simp; omega
      rw [hresult] at hnear
      push_cast at hnear
      linarith [hnear.2]
    · have hx : (0 : ℚ) ≤ n := by exact_mod_cast hpos
      rw [decide_eq_false (not_lt.mpr hx), abs_of_nonneg hpos] at hnear
      have hresult : ((if false then -(n + 1) else n + 1) -
          (if false then -(n + 1) else n + 1) % 2 : ℤ) = n + 1 := by simp; omega
      rw [hresult] at hnear
      push_cast at hnear
      linarith [hnear.1]

theorem IntType.min_lt_max : (T.min : ℚ) < T.max := by
  exact_mod_cast T.min_le_zero.trans_lt T.zero_lt_max

/-- **`clamp_to` is what WebIDL asks for, except where it masks the wrong bit.** -/
theorem clampLaw_iff (d : Double) : ClampLaw T d (clampTo T d) ↔ ¬ Misrounded T d := by
  cases d with
  | nan =>
    refine iff_of_true rfl ?_
    rintro ⟨x, bits, ⟨⟩, -⟩
  | infinite negative =>
    refine iff_of_true ?_ (by rintro ⟨x, bits, ⟨⟩, -⟩)
    simp only [ClampLaw, clampTo, IntType.ofInt_min, IntType.ofInt_max, Double.isNan, Double.le]
    cases negative <;> rfl
  | finite x bits =>
    change NearestEven (max T.min (min x T.max)) _ ↔ _
    have hne : T.min < x ∧ x < T.max ∨ ¬ Misrounded T (.finite x bits) := by
      by_cases hbetween : T.min < x ∧ x < T.max
      · exact .inl hbetween
      · refine .inr ?_
        rintro ⟨x', bits', heq, hmin, hmax, -⟩
        cases heq
        exact hbetween ⟨hmin, hmax⟩
    rcases le_or_gt (T.max : ℚ) x with hmax | hmax
    · refine iff_of_true ?_ (hne.resolve_left fun h => absurd h.2 (not_lt.mpr hmax))
      have hresult : clampTo T (.finite x bits) = T.max := by
        simp [clampTo, Double.isNan, IntType.max_le_iff, hmax]
      rw [min_eq_right hmax, max_eq_right T.min_lt_max.le, hresult]
      exact nearestEven_intCast _
    rcases le_or_gt x (T.min : ℚ) with hmin | hmin
    · refine iff_of_true ?_ (hne.resolve_left fun h => absurd h.1 (not_lt.mpr hmin))
      have hresult : clampTo T (.finite x bits) = T.min := by
        simp [clampTo, Double.isNan, IntType.max_le_iff, IntType.le_min_iff, hmin, not_le.mpr hmax]
      rw [min_eq_left hmax.le, max_eq_left hmin, hresult]
      exact nearestEven_intCast _
    rw [min_eq_left hmax.le, max_eq_right hmin.le]
    constructor
    · rintro h ⟨x', bits', heq, hmin, hmax, hwrong⟩
      cases heq
      exact not_nearestEven_clampTo T _ _ hmin hmax hwrong h
    · intro h
      have hwrong := fun hwrong => h ⟨x, bits, rfl, hmin, hmax, hwrong⟩
      have hmax' : (T.max : ℚ) < 2 ^ 53 := by exact_mod_cast T.max_lt
      have hmin' : (-2 ^ 53 : ℚ) < T.min := by exact_mod_cast T.neg_lt_min
      have hsum := halfSum (representable_abs bits) (abs_nonneg x)
        (abs_lt.mpr ⟨by linarith, by linarith⟩)
      have hsign : (if decide (x < 0) = true then -|x| else |x|) = x := by
        rcases lt_or_ge x 0 with hx | hx
        · rw [decide_eq_true hx, if_pos rfl, abs_of_neg hx, neg_neg]
        · rw [decide_eq_false (not_lt.mpr hx), if_neg (by simp), abs_of_nonneg hx]
      rw [clampTo_between hmin hmax]
      nth_rewrite 1 [← hsign]
      refine hsum.nearestEven ?_ ?_ ?_ ?_
      · rintro hneg ⟨n, heven, hn⟩
        rw [decide_eq_true_eq] at hneg
        rw [abs_of_neg hneg] at hn
        exact hwrong (.inl ⟨hneg, -n, heven.neg, by push_cast; linarith⟩)
      · intro hneg hx
        rw [decide_eq_true_eq] at hneg
        rw [abs_of_neg hneg] at hx
        exact hwrong (.inr (.inl (by linarith)))
      · exact fun hx => hwrong (.inr (.inr (.inl hx)))
      · rintro ⟨n, hodd, hn, hlarge⟩
        rcases abs_choice x with hx | hx
        · refine hwrong (.inr (.inr (.inr ⟨n, hodd, by rw [← hn, hx], ?_⟩)))
          exact hlarge.trans_le (le_abs_self n)
        · refine hwrong (.inr (.inr (.inr ⟨-n, hodd.neg, ?_, ?_⟩)))
          · push_cast
            linarith
          · rw [abs_neg]
            exact hlarge.trans_le (le_abs_self n)

/-- The integer part of a double is a double. -/
theorem representable_floor {x : ℚ} (h : Representable 53 x) : Representable 53 (⌊x⌋ : ℚ) := by
  rcases le_or_gt (2 ^ 53) |x| with hlarge | hsmall
  · obtain ⟨n, hn⟩ := h.multiple (k := 53) (e := 0) (by exact_mod_cast hlarge) (by norm_num)
    rw [zpow_zero, mul_one] at hn
    rw [hn, Int.floor_intCast]
    exact hn ▸ h
  · refine representable_intCast (abs_le.mpr ?_)
    rw [abs_lt] at hsmall
    constructor
    · exact Int.le_floor.mpr (by push_cast; linarith)
    · exact Int.floor_le_iff.mpr (by push_cast; linarith)

/-- `enforce_range` is what WebIDL asks for. -/
theorem enforceLaw (d : Double) : EnforceLaw T d (enforceRange T d) := by
  cases d with
  | nan => exact ⟨_, rfl⟩
  | infinite negative => exact ⟨_, rfl⟩
  | finite x bits =>
    have hfloor := representable_floor (representable_abs bits)
    have hrounded : (Double.finite x bits).signumMulAbsFloor = Double.ofRat (truncation x) := by
      rw [Double.signumMulAbsFloor, truncation]
      split
      next hx => rw [abs_of_neg hx, Int.floor_neg, Int.cast_neg, neg_neg]
      next hx => rw [abs_of_nonneg (not_lt.mp hx)]
    have htrunc : Representable 53 (truncation x : ℚ) := by
      rw [truncation]
      split
      next hx =>
        rw [abs_of_neg hx, Int.floor_neg, Int.cast_neg] at hfloor
        simpa using hfloor.neg
      next hx => rwa [abs_of_nonneg (not_lt.mp hx)] at hfloor
    have hof : Double.ofRat (truncation x) = .finite (truncation x) htrunc := by
      simp only [Double.ofRat, htrunc.roundTo_eq]
    have hcast : (if ((truncation x : ℤ) : ℚ) < 0 then ⌈((truncation x : ℤ) : ℚ)⌉
        else ⌊((truncation x : ℤ) : ℚ)⌋) = truncation x := by
      rw [Int.ceil_intCast, Int.floor_intCast, ite_self]
    simp only [EnforceLaw, enforceRange, Double.isInfinite, Bool.false_eq_true, if_false, hrounded,
      hof, IntType.ofInt_min, IntType.ofInt_max, Double.le, IntType.ofDouble, hcast,
      Bool.and_eq_true, decide_eq_true_eq, Int.cast_le]
    split
    next hrange =>
      have hleast := T.least_le_min
      have hgreatest := T.max_le_greatest
      rw [min_eq_left (by omega), max_eq_right (by omega)]
    next => exact ⟨_, rfl⟩

/-- **The conversions are those of WebIDL**, for every type, at every double but those that are
misrounded. -/
theorem conversions_iff (d : Double) :
    ClampLaw T d (clampTo T d) ∧ EnforceLaw T d (enforceRange T d) ↔ ¬ Misrounded T d := by
  rw [← clampLaw_iff]
  exact and_iff_left (enforceLaw T d)

end Laws

private theorem minusHalf_bits : Representable 53 (-1 / 2 : ℚ) := ⟨-1, -1, by norm_num, by norm_num⟩

/-- Clamped to eight bits, `-0.5` is `-2`, and not `0`. -/
theorem minusHalf_misrounded :
    clampTo .i8 (.finite (-1 / 2) minusHalf_bits) = -2 ∧
    ¬ ClampLaw .i8 (.finite (-1 / 2) minusHalf_bits)
      (clampTo .i8 (.finite (-1 / 2) minusHalf_bits)) := by
  have hround : roundTo 53 (|(-1 / 2 : ℚ)| + 1 / 2) = ((1 : ℤ) : ℚ) := by
    rw [show |(-1 / 2 : ℚ)| + 1 / 2 = ((1 : ℤ) : ℚ) by norm_num [abs_of_neg]]
    exact (representable_intCast (by norm_num)).roundTo_eq
  have hclamp : clampTo .i8 (.finite (-1 / 2) minusHalf_bits) = -2 := by
    rw [clampTo_between (by norm_num [IntType.min, IntType.least])
      (by norm_num [IntType.max, IntType.greatest]), hround, repaired_intCast]
    norm_num
  refine ⟨hclamp, fun h => ?_⟩
  rw [hclamp] at h
  have h := h.1
  norm_num [IntType.min, IntType.max, IntType.least, IntType.greatest] at h

end Js
