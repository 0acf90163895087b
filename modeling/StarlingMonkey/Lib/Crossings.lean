import Mathlib.Tactic.Common

/-!
# Entries and exits

A log of entries and exits is properly nested if every exit is that of the last entry that was not
exited. `Crossing.replay` finds what is open after a log, innermost first, and has no answer for a
log that is not properly nested; `Nested.enter` and `Nested.exit` extend a log.
-/

/-- An entry or an exit. -/
inductive Crossing (α : Type) where
  | enter (a : α)
  | exit (a : α)
deriving DecidableEq, Repr

namespace Crossing

variable {α : Type} [DecidableEq α] {log log' : List (Crossing α)} {stack : List α} {a : α}

/-- What is open after a log, if that is properly nested. -/
def replay : List (Crossing α) → List α → Option (List α)
  | [], stack => some stack
  | .enter a :: log, stack => replay log (a :: stack)
  | .exit _ :: _, [] => none
  | .exit a :: log, b :: stack => if a = b then replay log stack else none

theorem replay_append (log log' : List (Crossing α)) (stack : List α) :
    replay (log ++ log') stack = (replay log stack).bind (replay log') := by
  induction log generalizing stack with
  | nil => rfl
  | cons crossing log ih =>
    cases crossing with
    | enter a => exact ih (a :: stack)
    | exit a =>
      cases stack with
      | nil => rfl
      | cons b stack =>
        rw [List.cons_append, replay, replay]
        split_ifs
        · exact ih stack
        · rfl

/-- The log is properly nested, and leaves this open. -/
def Nested (log : List (Crossing α)) (stack : List α) : Prop := replay log [] = some stack

theorem Nested.append (h : Nested log stack) {stack' : List α}
    (h' : replay log' stack = some stack') : Nested (log ++ log') stack' := by
  rw [Nested, replay_append, h, Option.bind_some, h']

/-- An entry. -/
theorem Nested.enter (h : Nested log stack) (a : α) : Nested (log ++ [.enter a]) (a :: stack) :=
  h.append rfl

/-- The exit of what was entered last. -/
theorem Nested.exit (h : Nested log (a :: stack)) : Nested (log ++ [.exit a]) stack :=
  h.append (by rw [replay, if_pos rfl, replay])

/-- What is open can be exited one after another. -/
theorem Nested.exits {as : List α} (h : Nested log (as ++ stack)) :
    Nested (log ++ as.map .exit) stack := by
  induction as generalizing log with
  | nil => simpa using h
  | cons a as ih =>
    rw [List.map_cons, List.append_cons]
    exact ih h.exit

end Crossing
