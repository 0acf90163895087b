import Mathlib.Algebra.Order.Ring.Int
import Mathlib.Tactic.Common

/-!
# What the streams have in common

The states of a readable stream, the values thrown and stored, and the numbers that measure
chunks: `SizeNum` is what the controllers use of `f64`, so that a result over an arbitrary
`SizeNum` holds whatever the rounding.
-/

namespace WebStreams

/-- `ReadableStreamState`. -/
inductive StreamState where
  | readable | closed | errored
deriving DecidableEq, Repr

/-- A thrown or stored value: an error made by the streams code, one thrown by the engine, or a
reason given by the author. -/
inductive JsError where
  | typeError (msg : String)
  | rangeError (msg : String)
  | engine
  | reason (v : ℕ)
deriving DecidableEq, Repr

/-- Whether a promise was settled. -/
inductive PromiseState where
  | pending | fulfilled | rejected
deriving DecidableEq, Repr

/-- The numbers that measure chunks. -/
class SizeNum (F : Type) where
  zero : F
  one : F
  add : F → F → F
  sub : F → F → F
  /-- `<`. -/
  lt : F → F → Bool
  /-- `is_non_negative_number`, and not `+∞`. -/
  isSize : F → Bool

/-- Exact numbers. -/
instance : SizeNum ℤ where
  zero := 0
  one := 1
  add := (· + ·)
  sub := (· - ·)
  lt a b := a < b
  isSize a := 0 ≤ a

end WebStreams
