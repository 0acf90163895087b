import Mathlib.Algebra.Order.Ring.Int
import Mathlib.Tactic.Common

/-!
# Outcomes of a stateful call that can throw or abort

A call of a stateful program ends in one of three ways: it returns a value, it throws (the
program goes on, from the state the throw left behind), or it hits a failed assertion and the
whole process is gone

* `Outcome` is a monad: a throw or an abort skips the rest of the block.
* `Outcome.Sat x P Q E` is the weakest precondition reading: a returned value satisfies `P`, the
  state of a throw satisfies `Q`, and an abort site satisfies `E`. Total correctness without
  aborts is `E := fun _ => False`.
* The rules `sat_bind`, `Sat.mono` and `Sat.bind` take a block apart step by step.
-/

/-- How a call ends: with a value, with a thrown exception and the state it leaves behind, or
with an abort of the process at a given site. -/
inductive Outcome (π ε σ α : Type) where
  /-- The call returned. -/
  | ok (a : α)
  /-- The call threw `e` and left the state `s`. -/
  | threw (e : ε) (s : σ)
  /-- The process aborted at `p`. -/
  | panic (p : π)
deriving DecidableEq, Repr

namespace Outcome

variable {π ε σ α β : Type}

/-- Sequencing: a throw or an abort ends the block. -/
protected def bind (x : Outcome π ε σ α) (f : α → Outcome π ε σ β) : Outcome π ε σ β :=
  match x with
  | ok a => f a
  | threw e s => threw e s
  | panic p => panic p

instance : Monad (Outcome π ε σ) where
  pure := ok
  bind := Outcome.bind

@[simp] theorem pure_eq_ok (a : α) : (pure a : Outcome π ε σ α) = ok a := rfl

@[simp] theorem ok_bind (a : α) (f : α → Outcome π ε σ β) : (ok a >>= f) = f a := rfl

@[simp] theorem threw_bind (e : ε) (s : σ) (f : α → Outcome π ε σ β) :
    (threw e s >>= f) = threw e s := rfl

@[simp] theorem panic_bind (p : π) (f : α → Outcome π ε σ β) : (panic p >>= f) = panic p := rfl

/-- Check an assertion: abort at `p` when it fails. -/
def guard (c : Bool) (p : π) : Outcome π ε σ Unit := if c then ok () else panic p

@[simp] theorem guard_true (p : π) : (guard true p : Outcome π ε σ Unit) = ok () := rfl

/-- Unwrap an option that must be present: abort at `p` when it is not. -/
def expect (o : Option α) (p : π) : Outcome π ε σ α :=
  match o with
  | some a => ok a
  | none => panic p

@[simp] theorem expect_some (a : α) (p : π) : (expect (some a) p : Outcome π ε σ α) = ok a := rfl

/-- Unwrap a result that must not be an exception: abort at `p` when it is. -/
def infallible (x : Outcome π ε σ α) (p : π) : Outcome π ε σ α :=
  match x with
  | threw _ _ => panic p
  | x => x

@[simp] theorem infallible_ok (a : α) (p : π) :
    (ok a : Outcome π ε σ α).infallible p = ok a := rfl

/-- Weakest precondition: `P` of a returned value, `Q` of the state of a throw, `E` of the site
of an abort. -/
def Sat (x : Outcome π ε σ α) (P : α → Prop) (Q : σ → Prop) (E : π → Prop) : Prop :=
  match x with
  | ok a => P a
  | threw _ s => Q s
  | panic p => E p

variable {x : Outcome π ε σ α} {P P' : α → Prop} {Q Q' : σ → Prop} {E E' : π → Prop}

@[simp] theorem sat_ok {a : α} : (ok a : Outcome π ε σ α).Sat P Q E ↔ P a := Iff.rfl

@[simp] theorem sat_threw {e : ε} {s : σ} :
    (threw e s : Outcome π ε σ α).Sat P Q E ↔ Q s := Iff.rfl

@[simp] theorem sat_panic {p : π} : (panic p : Outcome π ε σ α).Sat P Q E ↔ E p := Iff.rfl

/-- The rule of sequencing. -/
@[simp] theorem sat_bind {f : α → Outcome π ε σ β} {P : β → Prop} :
    (x >>= f).Sat P Q E ↔ x.Sat (fun a => (f a).Sat P Q E) Q E := by
  cases x <;> rfl

@[simp] theorem sat_guard {c : Bool} {p : π} {P : Unit → Prop} :
    (guard c p : Outcome π ε σ Unit).Sat P Q E ↔ (c = true → P ()) ∧ (c = false → E p) := by
  cases c <;> simp [guard]

theorem sat_expect {o : Option α} {p : π} :
    (expect o p : Outcome π ε σ α).Sat P Q E ↔ (∀ a, o = some a → P a) ∧ (o = none → E p) := by
  cases o <;> simp [expect]

@[simp] theorem sat_expect_some {a : α} {p : π} :
    (expect (some a) p : Outcome π ε σ α).Sat P Q E ↔ P a := Iff.rfl

/-- The rule of consequence. -/
theorem Sat.mono (h : x.Sat P Q E) (hP : ∀ a, P a → P' a) (hQ : ∀ s, Q s → Q' s)
    (hE : ∀ p, E p → E' p) : x.Sat P' Q' E' := by
  cases x with
  | ok a => exact hP a h
  | threw e s => exact hQ s h
  | panic p => exact hE p h

theorem Sat.of_forall (hP : ∀ a, P a) (hQ : ∀ s, Q s) (hE : ∀ p, E p) : x.Sat P Q E := by
  cases x with
  | ok a => exact hP a
  | threw e s => exact hQ s
  | panic p => exact hE p

/-- A call that cannot throw and may abort anywhere: only the value counts. -/
theorem Sat.of_value {x : Outcome π Empty σ α} (hP : ∀ a, x = ok a → P a) (hE : ∀ p, E p) :
    x.Sat P Q E := by
  cases x with
  | ok a => exact hP a rfl
  | threw e s => exact e.elim
  | panic p => exact hE p

/-- Consequence in the value only. -/
theorem Sat.imp (h : x.Sat P Q E) (hP : ∀ a, P a → P' a) : x.Sat P' Q E :=
  h.mono hP (fun _ => id) fun _ => id

/-- A call that does not throw may be taken for one that does. -/
theorem Sat.mayThrow (h : x.Sat P (fun _ => False) E) : x.Sat P Q E :=
  h.mono (fun _ => id) (fun _ => False.elim) fun _ => id

/-- A call that must not throw aborts where it would. -/
theorem Sat.infallible {p : π} (h : x.Sat P Q E) (hp : E p) :
    (x.infallible p).Sat P (fun _ => False) E := by
  cases x with
  | ok a => exact h
  | threw e s => exact hp
  | panic q => exact h

/-- Sequencing from a specification of the first call. -/
theorem Sat.bind {f : α → Outcome π ε σ β} {R : β → Prop} (h : x.Sat P Q E)
    (hf : ∀ a, P a → (f a).Sat R Q E) : (x >>= f).Sat R Q E :=
  sat_bind.mpr (h.imp hf)

/-- Two specifications of one call hold together. -/
theorem Sat.and (h : x.Sat P Q E) (h' : x.Sat P' Q' E') :
    x.Sat (fun a => P a ∧ P' a) (fun s => Q s ∧ Q' s) fun p => E p ∧ E' p := by
  cases x with
  | ok a => exact ⟨h, h'⟩
  | threw e s => exact ⟨h, h'⟩
  | panic p => exact ⟨h, h'⟩

theorem Sat.both (h : x.Sat P Q E) (h' : x.Sat P' Q' E) :
    x.Sat (fun a => P a ∧ P' a) (fun s => Q s ∧ Q' s) E :=
  (h.and h').mono (fun _ => id) (fun _ => id) fun _ hp => hp.1

/-- The state an outcome leaves behind when the process survives it, for a call that returns
the new state. -/
def state? (x : Outcome π ε σ σ) : Option σ :=
  match x with
  | ok s => some s
  | threw _ s => some s
  | panic _ => none

/-- What becomes of an exception that is caught: the state it left behind. -/
def caught (x : Outcome π ε σ σ) : Except π σ :=
  match x with
  | ok s => .ok s
  | threw _ s => .ok s
  | panic p => .error p

theorem state?_of_caught {x : Outcome π ε σ σ} {s : σ} (h : x.caught = .ok s) :
    x.state? = some s := by
  cases x <;> simp_all [caught, state?]

/-- A call that cannot throw and leaves a state has returned it. -/
theorem eq_ok_of_state? {x : Outcome π Empty σ σ} {s : σ} (h : x.state? = some s) : x = ok s := by
  cases x with
  | ok a => exact congrArg ok (Option.some.inj h)
  | threw e s => exact e.elim
  | panic p => cases h

/-- A call that cannot throw is one whatever state a throw would leave. -/
def lift {σ' : Type} (x : Outcome π Empty σ α) : Outcome π ε σ' α :=
  match x with
  | ok a => ok a
  | threw e _ => e.elim
  | panic p => panic p

theorem lift_eq_ok {σ' : Type} {x : Outcome π Empty σ α} {a : α}
    (h : (x.lift : Outcome π ε σ' α) = ok a) : x = ok a := by
  cases x with
  | ok b => exact congrArg ok (Outcome.ok.inj h)
  | threw e s => exact e.elim
  | panic p => cases h

/-- A call that cannot throw, whose abort sites get other names. -/
def relabel {π' σ' : Type} (x : Outcome π Empty σ α) (f : π → π') : Outcome π' ε σ' α :=
  match x with
  | ok a => ok a
  | threw e _ => e.elim
  | panic p => panic (f p)

@[simp] theorem relabel_ok {π' σ' : Type} (a : α) (f : π → π') :
    ((ok a : Outcome π Empty σ α).relabel f : Outcome π' ε σ' α) = ok a := rfl

theorem bind_eq_ok {f : α → Outcome π ε σ β} {b : β} (h : x >>= f = ok b) :
    ∃ a, x = ok a ∧ f a = ok b := by
  cases x with
  | ok a => exact ⟨a, rfl, h⟩
  | threw e s => cases h
  | panic p => cases h

/-- Whether the process aborted. -/
def isPanic (x : Outcome π ε σ α) : Bool :=
  match x with
  | panic _ => true
  | _ => false

theorem Sat.state? {x : Outcome π ε σ σ} {P : σ → Prop} {s : σ} (h : x.Sat P P E)
    (hs : x.state? = some s) : P s := by
  cases x <;> simp_all [Outcome.state?, Sat]

theorem Sat.not_isPanic (h : x.Sat P Q fun _ => False) : x.isPanic = false := by
  cases x <;> simp_all [Outcome.isPanic, Sat]

end Outcome
