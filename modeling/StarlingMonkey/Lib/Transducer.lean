import Mathlib.Algebra.Order.Ring.Int
import Mathlib.Tactic.Common

/-!
# Transducers that stumble

A `Transducer` reads symbols and writes others, and may find what it reads malformed.

* `Transducer.strict` stops at a malformed sequence, `Transducer.lossy` writes a replacement for it.
* `strict_append`, `lossy_append`: both read a text chunk by chunk as they read it whole.
-/

/-- What a transducer makes of one symbol: it goes on, having written something, or finds that a
sequence is malformed, which the symbol belongs to or not. -/
inductive Reading (σ β : Type) where
  | wrote (s : σ) (out : List β)
  | malformed (s : σ) (consumed : Bool)

/-- A machine that reads symbols and writes others. It may not be done when its input ends. -/
structure Transducer (σ α β : Type) where
  read : σ → α → Reading σ β
  complete : σ → Bool

/-- What a strict run comes to: whether it met a malformed sequence, how many symbols it read, and
what it wrote. -/
structure Decoded (β : Type) where
  malformed : Bool
  read : ℕ
  written : List β
deriving DecidableEq, Repr

/-- A run that goes on after another one, which read `n` symbols and wrote `out`. -/
def Decoded.goOn {β : Type} (n : ℕ) (out : List β) (d : Decoded β) : Decoded β :=
  ⟨d.malformed, n + d.read, out ++ d.written⟩

namespace Transducer

variable {σ α β : Type} (T : Transducer σ α β)

/-- A run that stops after a malformed sequence. The input ends with it if it is the `last` one. -/
def strict : σ → List α → Bool → σ × Decoded β
  | s, [], last => (s, ⟨last && !T.complete s, 0, []⟩)
  | s, a :: as, last =>
    match T.read s a with
    | .wrote s out => ((strict s as last).1, (strict s as last).2.goOn 1 out)
    | .malformed s consumed => (s, ⟨true, consumed.toNat, []⟩)

/-- One symbol of a lossy run. A symbol that is no part of a malformed sequence is read again. -/
def lossyRead (bad : β) (s : σ) (a : α) : σ × List β :=
  match T.read s a with
  | .wrote s out => (s, out)
  | .malformed s true => (s, [bad])
  | .malformed s false =>
    match T.read s a with
    | .wrote s out => (s, bad :: out)
    | .malformed s _ => (s, [bad, bad])

/-- A run that writes `bad` for a malformed sequence. -/
def lossy (bad : β) : σ → List α → Bool → σ × List β
  | s, [], last => (s, if last && !T.complete s then [bad] else [])
  | s, a :: as, last =>
    ((lossy bad (T.lossyRead bad s a).1 as last).1,
      (T.lossyRead bad s a).2 ++ (lossy bad (T.lossyRead bad s a).1 as last).2)

variable {T} {s : σ} {as : List α}

/-- A strict run that met a malformed sequence does not look at what comes after. -/
theorem strict_append_malformed (h : (T.strict s as false).2.malformed = true) (bs : List α)
    (last : Bool) : T.strict s (as ++ bs) last = T.strict s as false := by
  induction as generalizing s with
  | nil => simp [strict] at h
  | cons a as ih =>
    rw [List.cons_append, strict, strict]
    rw [strict] at h
    cases hread : T.read s a with
    | malformed s consumed => rfl
    | wrote s out =>
      rw [hread] at h
      simp only [ih h]

/-- **A strict run reads chunk by chunk.** -/
theorem strict_append (h : (T.strict s as false).2.malformed = false) (bs : List α) (last : Bool) :
    T.strict s (as ++ bs) last =
      ((T.strict (T.strict s as false).1 bs last).1,
        (T.strict (T.strict s as false).1 bs last).2.goOn as.length
          (T.strict s as false).2.written) := by
  induction as generalizing s with
  | nil => simp [strict, Decoded.goOn]
  | cons a as ih =>
    rw [List.cons_append, strict]
    rw [strict] at h
    cases hread : T.read s a with
    | malformed s consumed => rw [hread] at h; cases h
    | wrote s' out =>
      rw [hread] at h
      simp only [strict, hread, ih h]
      simp only [Decoded.goOn, List.length_cons, List.append_assoc, Prod.mk.injEq, Decoded.mk.injEq,
        true_and, and_true]
      omega

/-- **A lossy run reads chunk by chunk.** -/
theorem lossy_append (bad : β) (bs : List α) (last : Bool) :
    T.lossy bad s (as ++ bs) last =
      ((T.lossy bad (T.lossy bad s as false).1 bs last).1,
        (T.lossy bad s as false).2 ++ (T.lossy bad (T.lossy bad s as false).1 bs last).2) := by
  induction as generalizing s with
  | nil => simp [lossy]
  | cons a as ih =>
    rw [List.cons_append, lossy, ih]
    simp [lossy]

end Transducer
