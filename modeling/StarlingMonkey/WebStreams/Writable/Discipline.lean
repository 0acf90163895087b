import StarlingMonkey.WebStreams.Writable.Controller
import Mathlib.Data.List.Infix

/-!
# What a sink may see

The records of a stream and its sink, read as a protocol. `Allowed l r` says when `r` may follow
the records `l`, and a log is `Disciplined` when each of its records was allowed.

* A write takes the chunk that was accepted next, after the start promise was fulfilled and while
  nothing that was invoked is unsettled.
* The close comes once, when every chunk that was accepted was written; the abort comes once, and
  nothing is invoked after it.
-/

namespace WebStreams

variable {χ : Type}

namespace SinkRecord

/-- Whether an algorithm of the sink was invoked. -/
def isInvocation : SinkRecord χ → Bool
  | .write .. | .close | .abort => true
  | _ => false

/-- Whether the promise of an invocation was settled. -/
def isSettlement : SinkRecord χ → Bool
  | .wrote .. | .closed _ | .aborted _ => true
  | _ => false

/-- The chunk that was accepted, with the promise of its write. -/
def accept? : SinkRecord χ → Option (ℕ × χ)
  | .accepted p c => some (p, c)
  | _ => none

/-- The chunk that the sink was given, with the promise of its write. -/
def write? : SinkRecord χ → Option (ℕ × χ)
  | .write p c => some (p, c)
  | _ => none

end SinkRecord

/-- The chunks that were accepted, with the promises of their writes, in order. -/
def acceptedOf (l : List (SinkRecord χ)) : List (ℕ × χ) := l.filterMap SinkRecord.accept?

/-- The chunks that the sink was given, with the promises of their writes, in order. -/
def writesOf (l : List (SinkRecord χ)) : List (ℕ × χ) := l.filterMap SinkRecord.write?

/-- How many invocations are unsettled. -/
def unsettled (l : List (SinkRecord χ)) : ℤ :=
  l.countP SinkRecord.isInvocation - l.countP SinkRecord.isSettlement

/-- When a record may follow others. -/
def Allowed (l : List (SinkRecord χ)) : SinkRecord χ → Prop
  | .write p c => .started ∈ l ∧ unsettled l = 0 ∧ .close ∉ l ∧ .abort ∉ l ∧
      writesOf l ++ [(p, c)] <+: acceptedOf l
  | .close => .started ∈ l ∧ unsettled l = 0 ∧ .close ∉ l ∧ .abort ∉ l ∧
      ∀ p c, .accepted p c ∈ l → .wrote p true ∈ l
  | .abort => unsettled l = 0 ∧ .abort ∉ l
  | _ => True

/-- Each record was allowed when it was made. -/
def Disciplined (log : List (SinkRecord χ)) : Prop := ∀ l r l', log = l ++ r :: l' → Allowed l r

variable {l : List (SinkRecord χ)} {r : SinkRecord χ}

theorem disciplined_nil : Disciplined ([] : List (SinkRecord χ)) := by
  intro l r l' h
  simp at h

theorem Disciplined.concat (h : Disciplined l) (hr : Allowed l r) : Disciplined (l ++ [r]) := by
  intro l₁ r' l₂ heq
  rcases List.eq_nil_or_concat l₂ with rfl | ⟨l₃, r'', rfl⟩
  · obtain ⟨rfl, hr'⟩ := List.append_inj' heq rfl
    obtain rfl : r = r' := by simpa using hr'
    exact hr
  · rw [List.concat_eq_append, ← List.cons_append, ← List.append_assoc] at heq
    exact h _ _ _ (List.append_inj' heq rfl).1

@[simp] theorem acceptedOf_concat (l : List (SinkRecord χ)) (r : SinkRecord χ) :
    acceptedOf (l ++ [r]) = acceptedOf l ++ r.accept?.toList := by
  cases hr : r.accept? <;> simp [acceptedOf, List.filterMap_append, hr]

@[simp] theorem writesOf_concat (l : List (SinkRecord χ)) (r : SinkRecord χ) :
    writesOf (l ++ [r]) = writesOf l ++ r.write?.toList := by
  cases hr : r.write? <;> simp [writesOf, List.filterMap_append, hr]

@[simp] theorem unsettled_concat (l : List (SinkRecord χ)) (r : SinkRecord χ) :
    unsettled (l ++ [r]) =
      unsettled l + (if r.isInvocation then 1 else 0) - if r.isSettlement then 1 else 0 := by
  simp only [unsettled, List.countP_append, List.countP_singleton, Nat.cast_add, Nat.cast_ite,
    Nat.cast_one, Nat.cast_zero]
  omega

theorem mem_acceptedOf {p : ℕ} {c : χ} : (p, c) ∈ acceptedOf l ↔ .accepted p c ∈ l := by
  simp only [acceptedOf, List.mem_filterMap]
  constructor
  · rintro ⟨r, hr, heq⟩
    cases r with
    | accepted p' c' =>
      cases heq
      exact hr
    | _ => cases heq
  · exact fun h => ⟨_, h, rfl⟩

theorem mem_writesOf {p : ℕ} {c : χ} : (p, c) ∈ writesOf l ↔ .write p c ∈ l := by
  simp only [writesOf, List.mem_filterMap]
  constructor
  · rintro ⟨r, hr, heq⟩
    cases r with
    | write p' c' =>
      cases heq
      exact hr
    | _ => cases heq
  · exact fun h => ⟨_, h, rfl⟩

/-- The chunks that were written are the first that were accepted, in order. -/
theorem Disciplined.writes_prefix (h : Disciplined l) : writesOf l <+: acceptedOf l := by
  induction l using List.reverseRecOn with
  | nil => exact List.prefix_rfl
  | append_singleton l r ih =>
    have hr := h l r [] rfl
    have ih := ih fun l₁ r' l₂ heq => h l₁ r' (l₂ ++ [r]) (by rw [heq]; simp)
    rw [acceptedOf_concat, writesOf_concat]
    cases r with
    | write p c =>
      simp only [SinkRecord.accept?, SinkRecord.write?, Option.toList_none, Option.toList_some,
        List.append_nil]
      exact hr.2.2.2.2
    | accepted p c =>
      simp only [SinkRecord.write?, Option.toList_none, List.append_nil]
      exact ih.trans (List.prefix_append _ _)
    | _ =>
      simp only [SinkRecord.accept?, SinkRecord.write?, Option.toList_none, List.append_nil]
      exact ih

/-- Nothing is invoked after the abort. -/
theorem Disciplined.last_abort (h : Disciplined l) {l₁ l₂ : List (SinkRecord χ)}
    (heq : l = l₁ ++ .abort :: l₂) : ∀ r ∈ l₂, r.isInvocation = false := by
  intro r hr
  obtain ⟨l₃, l₄, rfl⟩ := List.append_of_mem hr
  have hr := h (l₁ ++ .abort :: l₃) r l₄ (by rw [heq]; simp)
  cases r with
  | write p c => exact absurd hr.2.2.2.1 (by simp)
  | close => exact absurd hr.2.2.2.1 (by simp)
  | abort => exact absurd hr.2 (by simp)
  | _ => rfl

end WebStreams
