import StarlingMonkey.Lib.StableSort
import Mathlib.Algebra.Order.Ring.Int
import Mathlib.Order.Compare

/-!
# Sorting search parameters

`URLSearchParams::sort` sorts name-value pairs by the UTF-16 code units of their names. Strings are
kept in UTF-8, so that a name that is ASCII is compared by its bytes instead, whatever the other one
is.

* `nameCmp_eq`: the two comparisons agree where the bytes are compared.
* `encodeUtf16_injective`: names that compare equal are equal.
* `sort_stablySorted_iff`: `sort` yields the list that is ordered by the code units of the names and
  keeps the order of pairs with equal names.
-/

namespace WebUrl

open StableSort

/-- A string, by its scalar values. -/
abbrev Text := List Char

/-! ### The code -/

/-- The UTF-8 encoding of a scalar value. -/
def utf8Bytes (c : Char) : List ℕ :=
  let n := c.toNat
  if n < 0x80 then [n]
  else if n < 0x800 then [0xC0 + n / 0x40, 0x80 + n % 0x40]
  else if n < 0x10000 then [0xE0 + n / 0x1000, 0x80 + n / 0x40 % 0x40, 0x80 + n % 0x40]
  else [0xF0 + n / 0x40000, 0x80 + n / 0x1000 % 0x40, 0x80 + n / 0x40 % 0x40, 0x80 + n % 0x40]

/-- The UTF-16 encoding of a scalar value. -/
def utf16Units (c : Char) : List ℕ :=
  let n := c.toNat
  if n < 0x10000 then [n]
  else [0xD800 + (n - 0x10000) / 0x400, 0xDC00 + (n - 0x10000) % 0x400]

/-- The bytes of a string. -/
def encodeUtf8 (s : Text) : List ℕ := s.flatMap utf8Bytes

/-- `encode_utf16`. -/
def encodeUtf16 (s : Text) : List ℕ := s.flatMap utf16Units

/-- `is_ascii`. -/
def isAscii (s : Text) : Bool := s.all fun c => c.toNat < 0x80

/-- The comparison of `sort`. -/
def nameCmp (a b : Text) : Ordering :=
  if isAscii a then compare (encodeUtf8 a) (encodeUtf8 b)
  else compare (encodeUtf16 a) (encodeUtf16 b)

/-- What `sort` makes of the list. `sort_by` is stable. -/
def sort (list : List (Text × Text)) : List (Text × Text) :=
  list.mergeSort fun a b => (nameCmp a.1 b.1).isLE

/-! ### The comparison -/

/-- The order of code units. -/
def codeUnitCmp (a b : Text) : Ordering := compare (encodeUtf16 a) (encodeUtf16 b)

/-- A scalar value beyond ASCII starts above the ASCII characters in both encodings. -/
private theorem heads_of_not_ascii {c : Char} (hc : ¬ c.toNat < 0x80) :
    (∃ b bs, utf8Bytes c = b :: bs ∧ 0x80 ≤ b) ∧ ∃ u us, utf16Units c = u :: us ∧ 0x80 ≤ u := by
  constructor
  · simp only [utf8Bytes, if_neg hc]
    split_ifs
    all_goals exact ⟨_, _, rfl, by omega⟩
  · simp only [utf16Units]
    split_ifs
    all_goals exact ⟨_, _, rfl, by omega⟩

private theorem encodings_of_ascii {c : Char} (hc : c.toNat < 0x80) :
    utf8Bytes c = [c.toNat] ∧ utf16Units c = [c.toNat] := by
  simp [utf8Bytes, utf16Units, hc, show c.toNat < 0x10000 by omega]

private theorem compare_cons_of_lt {a b : ℕ} (h : a < b) (as bs : List ℕ) :
    compare (a :: as) (b :: bs) = .lt := by
  rw [List.compare_cons_cons, Nat.compare_eq_lt.mpr h]
  rfl

/-- **The bytes of an ASCII name** compare like its code units. -/
theorem compare_encodeUtf8 {a : Text} (ha : isAscii a = true) (b : Text) :
    compare (encodeUtf8 a) (encodeUtf8 b) = compare (encodeUtf16 a) (encodeUtf16 b) := by
  induction a generalizing b with
  | nil =>
    obtain _ | ⟨c, cs⟩ := b
    · rfl
    · by_cases hc : c.toNat < 0x80
      · obtain ⟨h8, h16⟩ := encodings_of_ascii hc
        simp [encodeUtf8, encodeUtf16, h8, h16]
      · obtain ⟨⟨b, bs, h8, -⟩, u, us, h16, -⟩ := heads_of_not_ascii hc
        simp [encodeUtf8, encodeUtf16, h8, h16]
  | cons x xs ih =>
    obtain ⟨hx, hxs⟩ : x.toNat < 0x80 ∧ isAscii xs = true := by simpa [isAscii] using ha
    obtain ⟨hx8, hx16⟩ := encodings_of_ascii hx
    have h8 : encodeUtf8 (x :: xs) = x.toNat :: encodeUtf8 xs := by simp [encodeUtf8, hx8]
    have h16 : encodeUtf16 (x :: xs) = x.toNat :: encodeUtf16 xs := by simp [encodeUtf16, hx16]
    rw [h8, h16]
    obtain _ | ⟨c, cs⟩ := b
    · rfl
    · by_cases hc : c.toNat < 0x80
      · obtain ⟨hc8, hc16⟩ := encodings_of_ascii hc
        have h8' : encodeUtf8 (c :: cs) = c.toNat :: encodeUtf8 cs := by simp [encodeUtf8, hc8]
        have h16' : encodeUtf16 (c :: cs) = c.toNat :: encodeUtf16 cs := by simp [encodeUtf16, hc16]
        rw [h8', h16', List.compare_cons_cons, List.compare_cons_cons, ih hxs]
      · obtain ⟨⟨b, bs, hc8, hb⟩, u, us, hc16, hu⟩ := heads_of_not_ascii hc
        have h8' : encodeUtf8 (c :: cs) = b :: (bs ++ encodeUtf8 cs) := by simp [encodeUtf8, hc8]
        have h16' : encodeUtf16 (c :: cs) = u :: (us ++ encodeUtf16 cs) := by
          simp [encodeUtf16, hc16]
        rw [h8', h16', compare_cons_of_lt (by omega), compare_cons_of_lt (by omega)]

theorem nameCmp_eq (a b : Text) : nameCmp a b = codeUnitCmp a b := by
  rw [nameCmp, codeUnitCmp]
  split
  next h => exact compare_encodeUtf8 h b
  next => rfl

/-- A scalar value is no surrogate. -/
private theorem not_surrogate (c : Char) :
    c.toNat < 0xD800 ∨ 0xDFFF < c.toNat ∧ c.toNat < 0x110000 :=
  c.valid

/-- No code of a scalar value is the start of another's. -/
private theorem utf16Units_append_inj {c d : Char} {s t : List ℕ}
    (h : utf16Units c ++ s = utf16Units d ++ t) : c = d ∧ s = t := by
  have hc := not_surrogate c
  have hd := not_surrogate d
  have hchar (hn : c.toNat = d.toNat) : c = d := Char.toNat_inj.mp hn
  simp only [utf16Units] at h
  split_ifs at h <;> simp only [List.cons_append, List.nil_append, List.cons.injEq] at h
  · exact ⟨hchar h.1, h.2⟩
  · omega
  · omega
  · exact ⟨hchar (by omega), h.2.2⟩

private theorem utf16Units_ne_nil (c : Char) : utf16Units c ≠ [] := by
  simp only [utf16Units]
  split_ifs <;> simp

theorem encodeUtf16_injective : Function.Injective encodeUtf16 := by
  intro a b h
  induction a generalizing b with
  | nil =>
    obtain _ | ⟨c, cs⟩ := b
    · rfl
    · exact absurd (List.append_eq_nil_iff.mp h.symm).1 (utf16Units_ne_nil c)
  | cons x xs ih =>
    obtain _ | ⟨c, cs⟩ := b
    · exact absurd (List.append_eq_nil_iff.mp h).1 (utf16Units_ne_nil x)
    · obtain ⟨rfl, hrest⟩ := utf16Units_append_inj h
      rw [ih hrest]

/-! ### The sort -/

/-- **The comparison is a total order of names.** -/
instance : Std.TransCmp nameCmp := by
  have h : nameCmp = compareOn encodeUtf16 := funext fun a => funext fun b => nameCmp_eq a b
  rw [h]
  infer_instance

instance : Std.LawfulEqCmp nameCmp where
  compare_self {a} := by
    rw [nameCmp_eq]
    exact Std.ReflOrd.compare_self
  eq_of_compare {a b} h := by
    rw [nameCmp_eq] at h
    exact encodeUtf16_injective (Std.LawfulEqCmp.eq_of_compare h)

/-- The list is sorted by the code units of its names, and pairs with equal names are in their
original order. -/
structure SortedByCodeUnits (list sorted : List (Text × Text)) : Prop where
  ordered : sorted.Pairwise fun a b => (codeUnitCmp a.1 b.1).isLE = true
  perm : sorted.Perm list
  stable : ∀ name, (sorted.filter fun a => a.1 = name) = list.filter fun a => a.1 = name

theorem sortedByCodeUnits_iff (list sorted : List (Text × Text)) :
    SortedByCodeUnits list sorted ↔ StablySorted nameCmp Prod.fst list sorted := by
  have h (a b : Text × Text) : codeUnitCmp a.1 b.1 = nameCmp a.1 b.1 := (nameCmp_eq a.1 b.1).symm
  constructor
  · rintro ⟨hord, hperm, hstable⟩
    exact ⟨hord.imp fun {a b} hab => by rwa [← h a b], hperm, hstable⟩
  · rintro ⟨hord, hperm, hstable⟩
    exact ⟨hord.imp fun {a b} hab => by rwa [h a b], hperm, hstable⟩

/-- **`sort` sorts by code units.** The comparison of names is that of their UTF-16 encodings, a
total order, and the list that `sort` yields is the only one that is sorted so. -/
theorem sort_by_code_units :
    (∀ a b, nameCmp a b = codeUnitCmp a b) ∧ Std.TransCmp nameCmp ∧ Std.LawfulEqCmp nameCmp ∧
      ∀ list sorted, SortedByCodeUnits list sorted ↔ sorted = sort list := by
  refine ⟨nameCmp_eq, inferInstance, inferInstance, fun list sorted => ?_⟩
  rw [sortedByCodeUnits_iff]
  constructor
  · exact fun h => h.unique (stablySorted_mergeSort list)
  · rintro rfl
    exact stablySorted_mergeSort list

/-- A supplementary character comes before U+FFFD, although its bytes come after. -/
example : nameCmp [Char.ofNat 0x1F600] [Char.ofNat 0xFFFD] = .lt ∧
    compare (encodeUtf8 [Char.ofNat 0x1F600]) (encodeUtf8 [Char.ofNat 0xFFFD]) = .gt := by decide

end WebUrl
