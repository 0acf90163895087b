import Mathlib.Algebra.Order.Ring.Int
import Mathlib.Tactic.Common
import StarlingMonkey.Lib.Outcome

/-!
# Body channels

The parts of `platform::http` that both transports write a response body with: `Remaining` is the
content a body of a declared length may still send. `feed` takes a whole sequence of chunks, and
`budget_kept` is the law of such a sequence.

Lengths of chunks are `usize`s, which `usizeMax` bounds, and declared lengths are `u64`s.
-/

namespace Platform

/-- The bytes of a chunk, `Bytes` or `Vec<u8>`. -/
abbrev Bytes := List UInt8

/-- `Remaining`: how much content may still be sent, where a length was declared. -/
abbrev Remaining := Option ℕ

/-- An arithmetic operation that overflows. -/
inductive Overflow where
  /-- The subtraction in `Remaining::take`. -/
  | remaining
deriving DecidableEq, Repr

namespace Remaining

/-- `Remaining::take`: the trimmed chunk, and what remains. -/
def take (usizeMax : ℕ) (remaining : Remaining) (chunk : Bytes) :
    Outcome Overflow Empty Remaining (Option Bytes × Remaining) :=
  match remaining with
  | none => pure (some chunk, none)
  | some 0 => pure (none, some 0)
  | some remaining => do
    let taken := min chunk.length (if remaining ≤ usizeMax then remaining else usizeMax)
    Outcome.guard (taken ≤ remaining) .remaining
    pure (some (chunk.take taken), some (remaining - taken))

/-- `Remaining::is_unfilled`. -/
def isUnfilled (remaining : Remaining) : Bool := remaining.any (0 < ·)

/-- Take one chunk after another: the answers, and what remains. -/
def feed (usizeMax : ℕ) (remaining : Remaining) :
    List Bytes → Outcome Overflow Empty Remaining (List (Option Bytes) × Remaining)
  | [] => pure ([], remaining)
  | chunk :: chunks => do
    let (answer, remaining) ← remaining.take usizeMax chunk
    let (answers, remaining) ← feed usizeMax remaining chunks
    pure (answer :: answers, remaining)

/-! ### What is taken -/

/-- The bytes of a list of answers. -/
def bytesOf (answers : List (Option Bytes)) : Bytes := (answers.filterMap id).flatten

@[simp] theorem bytesOf_nil : bytesOf [] = [] := rfl

@[simp] theorem bytesOf_cons (answer : Option Bytes) (answers : List (Option Bytes)) :
    bytesOf (answer :: answers) = answer.getD [] ++ bytesOf answers := by
  cases answer <;> simp [bytesOf]

/-- The part of `bytes` that fits. -/
def fit (remaining : Remaining) (bytes : Bytes) : Bytes :=
  match remaining with
  | none => bytes
  | some remaining => bytes.take remaining

/-- What remains after `n` bytes. -/
def less (remaining : Remaining) (n : ℕ) : Remaining := remaining.map (· - n)

@[simp] theorem fit_nil (remaining : Remaining) : remaining.fit [] = [] := by
  cases remaining <;> simp [fit]

@[simp] theorem less_zero (remaining : Remaining) : remaining.less 0 = remaining := by
  cases remaining <;> simp [less]

theorem less_less (remaining : Remaining) (m n : ℕ) :
    (remaining.less m).less n = remaining.less (m + n) := by
  cases remaining with
  | none => rfl
  | some r => simp only [less, Option.map_some, Nat.sub_sub]

/-- What fits of a longer sequence. -/
theorem fit_append (remaining : Remaining) (l m : Bytes) :
    remaining.fit (l ++ m) =
      remaining.fit l ++ (remaining.less (remaining.fit l).length).fit m := by
  cases remaining with
  | none => rfl
  | some r =>
    change (l ++ m).take r = l.take r ++ m.take (r - (l.take r).length)
    rw [List.take_append, List.length_take]
    by_cases h : r ≤ l.length
    · rw [Nat.min_eq_left h, Nat.sub_self, Nat.sub_eq_zero_of_le h]
    · rw [Nat.min_eq_right (by omega)]

/-- **One chunk.** Nothing more is taken once nothing remains, and otherwise what fits. -/
theorem take_eq (remaining : Remaining) {usizeMax : ℕ} {chunk : Bytes}
    (hchunk : chunk.length ≤ usizeMax) :
    remaining.take usizeMax chunk =
      .ok (if remaining = some 0 then none else some (remaining.fit chunk),
        remaining.less (remaining.fit chunk).length) := by
  match remaining with
  | none => rfl
  | some 0 => simp [take, less, fit]
  | some (r + 1) =>
    have htaken : min chunk.length (if r + 1 ≤ usizeMax then r + 1 else usizeMax) =
        min (r + 1) chunk.length := by
      split_ifs <;> omega
    have hle : min (r + 1) chunk.length ≤ r + 1 := Nat.min_le_left ..
    have htake : chunk.take (min (r + 1) chunk.length) = chunk.take (r + 1) := by
      rw [← List.take_eq_take_min]
    simp only [take, htaken, hle, decide_true, Outcome.guard_true, Outcome.ok_bind, htake, fit,
      less, List.length_take, Option.map_some, Outcome.pure_eq_ok]
    simp

/-- **A sequence of chunks**, from any budget. -/
theorem feed_eq (usizeMax : ℕ) (remaining : Remaining) {chunks : List Bytes}
    (hchunks : ∀ chunk ∈ chunks, chunk.length ≤ usizeMax) :
    ∃ answers, remaining.feed usizeMax chunks =
        .ok (answers, remaining.less (bytesOf answers).length) ∧
      answers.length = chunks.length ∧ bytesOf answers = remaining.fit chunks.flatten ∧
      ∀ i < chunks.length, answers[i]? = some none ↔
        remaining.less (bytesOf (answers.take i)).length = some 0 := by
  induction chunks generalizing remaining with
  | nil => exact ⟨[], by simp [feed], rfl, by simp, fun i hi => by cases hi⟩
  | cons chunk chunks ih =>
    have htake := remaining.take_eq (hchunks chunk List.mem_cons_self)
    set answer := if remaining = some 0 then none else some (remaining.fit chunk) with hanswer
    have hbytes : answer.getD [] = remaining.fit chunk := by
      rw [hanswer]
      split_ifs with h
      · rw [h]
        rfl
      · rfl
    obtain ⟨answers, heq, hlength, hfit, hnone⟩ :=
      ih (remaining.less (remaining.fit chunk).length) fun c hc => hchunks c (.tail chunk hc)
    refine ⟨answer :: answers, ?_, by simp [hlength], ?_, fun i hi => ?_⟩
    · rw [feed, htake, Outcome.ok_bind]
      simp only [heq, Outcome.ok_bind]
      rw [less_less, bytesOf_cons, hbytes, List.length_append]
      rfl
    · rw [bytesOf_cons, hbytes, List.flatten_cons, fit_append, hfit]
    · cases i with
      | zero =>
        rw [List.getElem?_cons_zero, List.take_zero, bytesOf_nil, List.length_nil, less_zero,
          hanswer]
        split_ifs with h <;> simp [h]
      | succ i =>
        rw [List.getElem?_cons_succ, List.take_succ_cons, bytesOf_cons, hbytes, List.length_append,
          ← less_less]
        exact hnone i (by simpa using hi)

/-- **The length budget.** Nothing underflows; what is taken is the content up to the declared
length; the answer is `None` exactly when all of that was taken before. -/
theorem budget_kept (usizeMax : ℕ) (declared : Option ℕ) (chunks : List Bytes)
    (hchunks : ∀ chunk ∈ chunks, chunk.length ≤ usizeMax) :
    ∃ answers remaining, feed usizeMax declared chunks = .ok (answers, remaining) ∧
      answers.length = chunks.length ∧
      (declared = none → bytesOf answers = chunks.flatten) ∧
      (∀ length, declared = some length →
        bytesOf answers = chunks.flatten.take (min length chunks.flatten.length)) ∧
      (∀ i < chunks.length, answers[i]? = some none ↔
        declared = some (bytesOf (answers.take i)).length) ∧
      (remaining.isUnfilled = true ↔
        ∃ length, declared = some length ∧ (bytesOf answers).length < length) := by
  obtain ⟨answers, heq, hlength, hfit, hnone⟩ := feed_eq usizeMax declared hchunks
  refine ⟨answers, _, heq, hlength, ?_, ?_, fun i hi => ?_, ?_⟩
  · rintro rfl
    exact hfit
  · rintro length rfl
    rw [hfit, ← List.take_eq_take_min]
    rfl
  · rw [hnone i hi]
    cases declared with
    | none => simp [less]
    | some length =>
      -- what was taken before is not longer than the declared length
      have hle : (bytesOf (answers.take i)).length ≤ length := by
        have hall : (bytesOf answers).length ≤ length := by
          rw [hfit]
          exact List.length_take_le ..
        have hsplit : bytesOf answers = bytesOf (answers.take i) ++ bytesOf (answers.drop i) := by
          rw [bytesOf, bytesOf, bytesOf, ← List.flatten_append, ← List.filterMap_append,
            List.take_append_drop]
        rw [hsplit, List.length_append] at hall
        omega
      simp only [less, Option.map_some, Option.some.injEq]
      omega
  · cases declared with
    | none => simp [isUnfilled, less]
    | some length =>
      simp only [isUnfilled, less, Option.map_some, Option.any_some, decide_eq_true_eq,
        Option.some.injEq, exists_eq_left']
      omega

/-- A declared length of three bytes on a 32-bit target. -/
theorem budget_kept_three :
    feed (2 ^ 32 - 1) (some 3) [[1, 2], [], [3, 4], [5]] =
        .ok ([some [1, 2], some [], some [3], none], some 0) ∧
      ∃ answers remaining, feed (2 ^ 32 - 1) (some 3) [[1, 2], [], [3, 4], [5]] =
        .ok (answers, remaining) ∧ remaining.isUnfilled = false := by
  refine ⟨by decide, ?_⟩
  obtain ⟨answers, remaining, heq, -, -, hbytes, -, hunfilled⟩ :=
    budget_kept (2 ^ 32 - 1) (some 3) [[1, 2], [], [3, 4], [5]] (by decide)
  refine ⟨answers, remaining, heq, ?_⟩
  rw [Bool.eq_false_iff, Ne, hunfilled, hbytes 3 rfl]
  rintro ⟨length, hlength, hlt⟩
  cases hlength
  revert hlt
  decide

end Remaining

end Platform
