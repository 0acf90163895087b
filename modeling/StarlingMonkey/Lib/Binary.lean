import Mathlib.Algebra.Order.Round
import Mathlib.Data.Int.Log
import Mathlib.Data.Rat.Floor
import Mathlib.Tactic.FieldSimp
import Mathlib.Tactic.Linarith
import Mathlib.Tactic.Positivity
import Mathlib.Tactic.Ring

/-!
# Binary numbers of a given precision

A number is representable with `p` bits if it is `m * 2 ^ e` with `|m| < 2 ^ p`; exponents are
unbounded. `Binary.roundTo` rounds a rational to such a number, ties to even.

* `NearestEven x n`: the integer `n` is nearest to `x`, and the even one where two are. `roundEven`
  finds it (`roundEven_eq_iff`).
* `exponent p x` is the exponent of the last of the `p` bits of `x`. A number that is a multiple of
  that power of two is not rounded (`roundTo_eq_self`), and rounding stays on one side of each
  (`le_roundTo`, `roundTo_le`).
* `binade` finds the exponent of a number between two powers of two.
-/

namespace Binary

/-- The integer nearest to `x`, and the even one where two are equally near. -/
def NearestEven (x : ℚ) (n : ℤ) : Prop := |x - n| ≤ 1 / 2 ∧ (|x - n| = 1 / 2 → Even n)

/-- Round to the nearest integer, ties to even. -/
def roundEven (x : ℚ) : ℤ :=
  if x - ⌊x⌋ < 1 / 2 then ⌊x⌋
  else if 1 / 2 < x - ⌊x⌋ then ⌊x⌋ + 1
  else if ⌊x⌋ % 2 = 0 then ⌊x⌋
  else ⌊x⌋ + 1

/-- The exponent of the last of the `p` bits of a number. -/
def exponent (p : ℕ) (x : ℚ) : ℤ := Int.log 2 |x| + 1 - p

/-- Round to `p` bits, ties to even. -/
def roundTo (p : ℕ) (x : ℚ) : ℚ := roundEven (x / 2 ^ exponent p x) * 2 ^ exponent p x

/-- The number has `p` bits. -/
def Representable (p : ℕ) (x : ℚ) : Prop := ∃ m e : ℤ, |m| < 2 ^ p ∧ x = m * 2 ^ e

/-! ### Rounding to an integer -/

section RoundEven

variable {x : ℚ} {m n : ℤ}

theorem nearestEven_roundEven (x : ℚ) : NearestEven x (roundEven x) := by
  have hlow := Int.floor_le x
  have hhigh := Int.lt_floor_add_one x
  unfold roundEven NearestEven
  split_ifs with h1 h2 h3
  · rw [abs_of_nonneg (by linarith)]
    exact ⟨by linarith, fun heq => by linarith⟩
  · push_cast
    rw [abs_of_nonpos (by linarith)]
    exact ⟨by linarith, fun heq => by linarith⟩
  · rw [abs_of_nonneg (by linarith)]
    exact ⟨by linarith, fun _ => Int.even_iff.mpr h3⟩
  · push_cast
    rw [abs_of_nonpos (by linarith)]
    exact ⟨by linarith, fun _ => Int.even_add_one.mpr (by rwa [Int.even_iff])⟩

theorem NearestEven.unique (hm : NearestEven x m) (hn : NearestEven x n) : m = n := by
  obtain ⟨hm, hmeven⟩ := hm
  obtain ⟨hn, hneven⟩ := hn
  -- Two that are not the same are next to each other, with `x` halfway between.
  by_contra hne
  wlog hlt : m < n generalizing m n with h
  · exact h hn hneven hm hmeven (Ne.symm hne) (lt_of_le_of_ne (not_lt.mp hlt) (Ne.symm hne))
  have hstep : (m : ℚ) + 1 ≤ n := by exact_mod_cast hlt
  rw [abs_le] at hm hn
  have hx : x = m + 1 / 2 := by linarith
  have hnm : n = m + 1 := by
    have : (n : ℚ) = m + 1 := by linarith
    exact_mod_cast this
  have heven := hmeven (by rw [hx, abs_of_nonneg] <;> linarith)
  have heven' := hneven (by rw [hx, hnm, abs_of_nonpos] <;> push_cast <;> linarith)
  rw [hnm, Int.even_add_one] at heven'
  exact heven' heven

theorem nearestEven_intCast (n : ℤ) : NearestEven n n := ⟨by simp, by simp⟩

theorem NearestEven.neg (h : NearestEven x n) : NearestEven (-x) (-n) := by
  obtain ⟨habs, heven⟩ := h
  refine ⟨?_, fun h => (heven ?_).neg⟩
  · rwa [Int.cast_neg, ← neg_add', abs_neg, ← sub_eq_add_neg]
  · rwa [Int.cast_neg, ← neg_add', abs_neg, ← sub_eq_add_neg] at h

/-- Only one integer is less than one half away. -/
theorem NearestEven.of_lt (hlow : n - 1 / 2 < x) (hhigh : x < n + 1 / 2) : NearestEven x n := by
  have habs : |x - n| < 1 / 2 := abs_lt.mpr ⟨by linarith, by linarith⟩
  exact ⟨habs.le, fun h => absurd h habs.ne⟩

theorem NearestEven.of_even (heven : Even n) (hlow : n - 1 / 2 ≤ x) (hhigh : x ≤ n + 1 / 2) :
    NearestEven x n :=
  ⟨abs_le.mpr ⟨by linarith, by linarith⟩, fun _ => heven⟩

theorem roundEven_eq_iff : roundEven x = n ↔ NearestEven x n :=
  ⟨fun h => h ▸ nearestEven_roundEven x, (nearestEven_roundEven x).unique⟩

@[simp] theorem roundEven_intCast (n : ℤ) : roundEven n = n :=
  roundEven_eq_iff.mpr (nearestEven_intCast n)

theorem le_roundEven (h : (n : ℚ) ≤ x) : n ≤ roundEven x := by
  obtain ⟨habs, heven⟩ := nearestEven_roundEven x
  by_contra hlt
  have hlt : (roundEven x : ℚ) + 1 ≤ n := by exact_mod_cast not_le.mp hlt
  rw [abs_le] at habs
  linarith

theorem roundEven_le (h : x ≤ n) : roundEven x ≤ n := by
  obtain ⟨habs, heven⟩ := nearestEven_roundEven x
  by_contra hlt
  have hlt : (n : ℚ) + 1 ≤ roundEven x := by exact_mod_cast not_le.mp hlt
  rw [abs_le] at habs
  linarith

theorem roundEven_neg (x : ℚ) : roundEven (-x) = -roundEven x :=
  roundEven_eq_iff.mpr (nearestEven_roundEven x).neg

end RoundEven

/-! ### Rounding to a number of bits -/

section Round

variable {p : ℕ} {x y : ℚ}

theorem two_zpow_pos (e : ℤ) : (0 : ℚ) < 2 ^ e := zpow_pos two_pos e

/-- The exponent of a number between two powers of two. -/
theorem exponent_eq {k : ℤ} (hlow : 2 ^ k ≤ |x|) (hhigh : |x| < 2 ^ (k + 1)) :
    exponent p x = k + 1 - p := by
  have hx : 0 < |x| := (two_zpow_pos k).trans_le hlow
  have hk : Int.log 2 |x| = k := by
    refine le_antisymm (Int.lt_add_one_iff.mp ((Int.lt_zpow_iff_log_lt one_lt_two hx).mp ?_))
      ((Int.zpow_le_iff_le_log one_lt_two hx).mp ?_)
    · exact_mod_cast hhigh
    · exact_mod_cast hlow
  rw [exponent, hk]

/-- Every number but zero is between two powers of two. -/
theorem exists_binade (hx : x ≠ 0) : ∃ k : ℤ, 2 ^ k ≤ |x| ∧ |x| < 2 ^ (k + 1) := by
  refine ⟨Int.log 2 |x|, ?_, ?_⟩
  · exact_mod_cast Int.zpow_log_le_self one_lt_two (abs_pos.mpr hx)
  · exact_mod_cast Int.lt_zpow_succ_log_self one_lt_two |x|

@[simp] theorem roundTo_neg (p : ℕ) (x : ℚ) : roundTo p (-x) = -roundTo p x := by
  simp only [roundTo, exponent, abs_neg, neg_div, roundEven_neg, Int.cast_neg, neg_mul]

/-- A multiple of the last bit is not rounded. -/
theorem roundTo_eq_self {j : ℤ} (h : x = j * 2 ^ exponent p x) : roundTo p x = x := by
  have hdiv : x / 2 ^ exponent p x = j := by
    rw [div_eq_iff (two_zpow_pos _).ne']
    exact h
  rw [roundTo, hdiv, roundEven_intCast, ← h]

/-- Rounding does not cross a multiple of the last bit. -/
theorem le_roundTo {j : ℤ} (h : j * 2 ^ exponent p x ≤ x) : j * 2 ^ exponent p x ≤ roundTo p x := by
  refine mul_le_mul_of_nonneg_right ?_ (two_zpow_pos _).le
  exact_mod_cast le_roundEven ((le_div_iff₀ (two_zpow_pos _)).mpr h)

theorem roundTo_le {j : ℤ} (h : x ≤ j * 2 ^ exponent p x) : roundTo p x ≤ j * 2 ^ exponent p x := by
  refine mul_le_mul_of_nonneg_right ?_ (two_zpow_pos _).le
  exact_mod_cast roundEven_le ((div_le_iff₀ (two_zpow_pos _)).mpr h)

/-- A number of `p` bits is a multiple of any power of two up to its last bit's. -/
theorem Representable.multiple (h : Representable p x) {k e : ℤ} (hlow : 2 ^ k ≤ |x|)
    (he : e ≤ k + 1 - p) : ∃ j : ℤ, x = j * 2 ^ e := by
  obtain ⟨m, e', hm, rfl⟩ := h
  -- The exponent is at least that of the last bit, since the mantissa is small.
  have hmq : |(m : ℚ)| < 2 ^ (p : ℤ) := by exact_mod_cast hm
  have hlt : (2 : ℚ) ^ k < 2 ^ (p + e') := by
    calc (2 : ℚ) ^ k ≤ |(m : ℚ)| * 2 ^ e' := by rwa [abs_mul, abs_of_pos (two_zpow_pos e')] at hlow
      _ < 2 ^ (p : ℤ) * 2 ^ e' := mul_lt_mul_of_pos_right hmq (two_zpow_pos e')
      _ = 2 ^ (p + e') := (zpow_add₀ two_ne_zero _ _).symm
  have hk := (zpow_lt_zpow_iff_right₀ one_lt_two).mp hlt
  refine ⟨m * 2 ^ (e' - e).toNat, ?_⟩
  have hsplit : e' = (e' - e).toNat + e := by omega
  conv_lhs => rw [hsplit, zpow_add₀ two_ne_zero, zpow_natCast]
  push_cast
  ring

/-- A number of `p` bits is not rounded. -/
theorem Representable.roundTo_eq (h : Representable p x) : roundTo p x = x := by
  rcases eq_or_ne x 0 with rfl | hx
  · exact roundTo_eq_self (j := 0) (by simp)
  · obtain ⟨k, hlow, hhigh⟩ := exists_binade hx
    obtain ⟨j, hj⟩ := h.multiple hlow le_rfl
    exact roundTo_eq_self (j := j) (by rw [exponent_eq hlow hhigh]; exact hj)

theorem Representable.neg (h : Representable p x) : Representable p (-x) := by
  obtain ⟨m, e, hm, rfl⟩ := h
  exact ⟨-m, e, by rwa [abs_neg], by push_cast; ring⟩

/-- What is rounded has `p` bits. -/
theorem representable_roundTo (hp : 0 < p) (x : ℚ) : Representable p (roundTo p x) := by
  rcases eq_or_ne x 0 with rfl | hx
  · exact ⟨0, 0, by positivity, by simp [roundTo, roundEven]⟩
  obtain ⟨k, hlow, hhigh⟩ := exists_binade hx
  have hscaled : |x / 2 ^ exponent p x| ≤ ((2 ^ p : ℤ) : ℚ) := by
    rw [abs_div, abs_of_pos (two_zpow_pos _), div_le_iff₀ (two_zpow_pos _), exponent_eq hlow hhigh]
    refine hhigh.le.trans_eq ?_
    push_cast
    rw [← zpow_natCast, ← zpow_add₀ two_ne_zero]
    congr 1
    ring
  have hm : |roundEven (x / 2 ^ exponent p x)| ≤ 2 ^ p := by
    rw [abs_le] at hscaled ⊢
    refine ⟨le_roundEven ?_, roundEven_le hscaled.2⟩
    rw [Int.cast_neg]
    exact hscaled.1
  rcases hm.lt_or_eq with hm | hm
  · exact ⟨_, _, hm, rfl⟩
  -- A carry out of the first bit is a power of two.
  · obtain ⟨q, rfl⟩ : ∃ q, p = q + 1 := ⟨p - 1, by omega⟩
    have hsign : roundEven (x / 2 ^ exponent (q + 1) x) = 2 ^ (q + 1) ∨
        roundEven (x / 2 ^ exponent (q + 1) x) = -2 ^ (q + 1) := (abs_eq (by positivity)).mp hm
    have hpow : (2 : ℤ) ^ q < 2 ^ (q + 1) := pow_lt_pow_right₀ one_lt_two (Nat.lt_succ_self q)
    rcases hsign with hr | hr
    · refine ⟨2 ^ q, exponent (q + 1) x + 1, by rwa [abs_of_pos (by positivity)], ?_⟩
      rw [roundTo, hr, zpow_add_one₀ two_ne_zero]
      push_cast
      ring
    · refine ⟨-2 ^ q, exponent (q + 1) x + 1, by rwa [abs_neg, abs_of_pos (by positivity)], ?_⟩
      rw [roundTo, hr, zpow_add_one₀ two_ne_zero]
      push_cast
      ring

end Round

end Binary
