import StarlingMonkey.WebGlobals.Console
import Mathlib.Data.Fintype.Card

/-!
# How the console prints a value

`ToSource` prints a value into a string; arrays, plain objects, Maps and Sets are printed with what
they hold. One list of visited objects is passed along, to which every container is appended when it
is reached and from which none is removed. `console_out` joins what the arguments are printed as.

Values are primitives, or refer to one of the finitely many containers of a graph, which may be
shared or contain themselves.

* `tokens` is what a value should be printed as: a container inside itself is `<Circular>`, any
  other is printed in full. It keeps the path to the value, not a list of what was visited.
* `Printed`: what a step of the printer does to its state. It prints as it should exactly if it
  visits nothing twice.
* `consoleOut_iff`: when a line of the log is as it should be.
-/

namespace WebGlobals.ConsoleFormat

open Console (Text LogType Line Stream cString builtinImplConsoleLog)

/-! ### Values -/

/-- A code point of a JavaScript string: a scalar value, or a surrogate on its own. -/
inductive CodePoint where
  | scalar (c : Char)
  | surrogate (n : Fin 0x800)
deriving DecidableEq

/-- A JavaScript string. -/
abbrev JsString := List CodePoint

/-- `core::encode`. A surrogate on its own has no encoding, and is replaced. -/
def encode (s : JsString) : Text :=
  s.map fun c =>
    match c with
    | .scalar c => c
    | .surrogate _ => Char.ofNat 0xFFFD

/-- A boolean, number, bigint or symbol, by what `JS_ValueToSource` makes of it: that is not empty,
and does not start with a quotation mark. -/
structure OtherPrimitive where
  /-- What it is printed as. -/
  source : Text
  /-- It is not printed like a string. -/
  bare : ∃ c t, source = c :: t ∧ c ≠ '"'
deriving DecidableEq

/-- A value: a primitive, or one of the `n` containers of a graph. -/
inductive Value (n : ℕ) where
  | undefined
  | null
  | string (s : JsString)
  | other (p : OtherPrimitive)
  | object (obj : Fin n)
deriving DecidableEq

/-- The prototype of a plain object. -/
inductive Proto where
  | objectPrototype
  | null
deriving DecidableEq

/-- A container, with what it holds. The keys of a plain object are its own enumerable string keys,
none of them an accessor. -/
inductive Container (n : ℕ) where
  | array (elements : List (Value n))
  | set (values : List (Value n))
  | map (entries : List (Value n × Value n))
  | plain (proto : Proto) (properties : List (JsString × Value n))
deriving DecidableEq

/-- The containers, and what they hold. -/
abbrev Graph (n : ℕ) := Fin n → Container n

variable {n : ℕ}

/-! ### The code -/

/-- A container that was reached. -/
structure Occurrence (n : ℕ) where
  /-- The containers around it. The code does not know them. -/
  above : List (Fin n)
  /-- The container. -/
  obj : Fin n
  /-- Whether it was printed as `<Circular>`. -/
  circular : Bool
deriving DecidableEq

/-- The state of the printer. -/
structure State (n : ℕ) where
  /-- `sourceOut`. -/
  sourceOut : Text
  /-- `visitedObjects`. -/
  visitedObjects : List (Fin n)
  /-- The containers that were reached so far. -/
  occurrences : List (Occurrence n)
deriving DecidableEq

/-- `sourceOut += text`. -/
def State.push (s : State n) (text : Text) : State n :=
  { s with sourceOut := s.sourceOut ++ text }

/-- A container was reached. -/
def State.reach (s : State n) (above : List (Fin n)) (obj : Fin n) (circular : Bool) : State n :=
  { s with occurrences := s.occurrences ++ [⟨above, obj, circular⟩] }

/-- `visitedObjects.emplaceBack`. -/
def State.visit (s : State n) (obj : Fin n) : State n :=
  { s with visitedObjects := s.visitedObjects ++ [obj] }

/-- A step of the printer. There is no result if the recursion went deeper than it was allowed
to. -/
abbrev Printer (n : ℕ) (α : Type) := α → State n → Option (State n)

/-- The loop of the four printers: `opening` before the first element, a comma before the others. -/
def printEach {α : Type} (opening : Text) (print : Printer n α) :
    (firstValue : Bool) → Printer n (List α)
  | _, [], s => some s
  | firstValue, a :: as, s => do
    let s ← print a (s.push (if firstValue then opening else [',', ' ']))
    printEach opening print false as s

/-- `MapToSource`. -/
def mapToSource (toSource : Printer n (Value n)) : Printer n (List (Value n × Value n)) :=
  fun entries s => do
    let s := s.push (['M', 'a', 'p', '('] ++ Nat.toDigits 10 entries.length ++ [')', ' ', '{', ' '])
    let s ← printEach [] (fun entry s => do
      let s ← toSource entry.1 s
      toSource entry.2 (s.push [' ', '=', '>', ' '])) true entries s
    some (s.push [' ', '}'])

/-- `SetToSource`. -/
def setToSource (toSource : Printer n (Value n)) : Printer n (List (Value n)) :=
  fun values s => do
    let s := s.push (['S', 'e', 't', '('] ++ Nat.toDigits 10 values.length ++ [')', ' ', '{', ' '])
    let s ← printEach [] toSource true values s
    some (s.push [' ', '}'])

/-- `ArrayToSource`. -/
def arrayToSource (toSource : Printer n (Value n)) : Printer n (List (Value n)) :=
  fun elements s => do
    let s ← printEach [] toSource true elements (s.push ['['])
    some (s.push [']'])

/-- `ObjectToSource`. No key is a symbol, no property has an accessor or is a function. -/
def objectToSource (toSource : Printer n (Value n)) : Printer n (List (JsString × Value n)) :=
  fun properties s => do
    let s ← printEach [' '] (fun property s =>
      toSource property.2 ((s.push (encode property.1)).push [':', ' '])) true properties
      (s.push ['{'])
    let s := if properties.isEmpty then s else s.push [' ']
    some (s.push ['}'])

/-- A property of a plain object. -/
def ownProperty (key : List Char) (properties : List (JsString × Value n)) : Option (Value n) :=
  (properties.find? fun property => property.1 = key.map .scalar).map Prod.snd

/-- `get_class_name` of a plain object. -/
def getClassName (g : Graph n) (proto : Proto) (properties : List (JsString × Value n)) :
    Option Text :=
  match ownProperty ['c', 'o', 'n', 's', 't', 'r', 'u', 'c', 't', 'o', 'r'] properties with
  | none =>
    match proto with
    | .objectPrototype => some ['O', 'b', 'j', 'e', 'c', 't']
    | .null => none
  | some (.object constructorObj) =>
    match g constructorObj with
    | .plain _ properties =>
      match ownProperty ['n', 'a', 'm', 'e'] properties with
      | some (.string name) => some (encode name)
      | _ => none
    | _ => none
  | some _ => none

/-- What is printed before a plain object. -/
def classPrefix (g : Graph n) (proto : Proto) (properties : List (JsString × Value n)) : Text :=
  match getClassName g proto properties with
  | some name => if name ≠ ['O', 'b', 'j', 'e', 'c', 't'] then name ++ [' '] else []
  | none => []

/-- `ToSource`, to a depth of `fuel` containers. -/
def toSource (g : Graph n) : (fuel : ℕ) → (above : List (Fin n)) → Printer n (Value n)
  | _, _, .undefined, s => some (s.push ['u', 'n', 'd', 'e', 'f', 'i', 'n', 'e', 'd'])
  | _, _, .null, s => some (s.push ['n', 'u', 'l', 'l'])
  | _, _, .string str, s => some (((s.push ['"']).push (encode str)).push ['"'])
  | _, _, .other p, s => some (s.push p.source)
  | fuel, above, .object obj, s =>
    if obj ∈ s.visitedObjects then
      some ((s.reach above obj true).push ['<', 'C', 'i', 'r', 'c', 'u', 'l', 'a', 'r', '>'])
    else
      let s := (s.reach above obj false).visit obj
      match fuel with
      | 0 => none
      | fuel + 1 =>
        match g obj with
        | .array elements => arrayToSource (toSource g fuel (obj :: above)) elements s
        | .set values => setToSource (toSource g fuel (obj :: above)) values s
        | .map entries => mapToSource (toSource g fuel (obj :: above)) entries s
        | .plain proto properties =>
          objectToSource (toSource g fuel (obj :: above)) properties
            (s.push (classPrefix g proto properties))

/-- Strip the quotes for direct string logs. -/
def stripQuotes (source : Text) : Text :=
  if source.head? = some '"' ∧ source.getLast? = some '"' then source.tail.dropLast else source

/-- What `console_out` keeps between two arguments. -/
structure LogState (n : ℕ) where
  /-- `fullLogLine`. -/
  fullLogLine : Text
  /-- `visitedObjects`. -/
  visitedObjects : List (Fin n)
  /-- The containers that were reached so far. -/
  occurrences : List (Occurrence n)
deriving DecidableEq

/-- `fullLogLine` with one more source. -/
def appendSource (fullLogLine source : Text) : Text :=
  if fullLogLine.isEmpty then fullLogLine ++ source else fullLogLine ++ [' '] ++ source

/-- The loop of `console_out`. -/
def logArgs (g : Graph n) (fuel : ℕ) : List (Value n) → LogState n → Option (LogState n)
  | [], s => some s
  | arg :: args, s => do
    let t ← toSource g fuel [] arg ⟨[], s.visitedObjects, s.occurrences⟩
    logArgs g fuel args
      ⟨appendSource s.fullLogLine (stripQuotes t.sourceOut), t.visitedObjects, t.occurrences⟩

/-- What a call leaves. -/
structure Logged (n : ℕ) where
  /-- The line of the log. -/
  line : Line
  /-- The containers that were reached. -/
  occurrences : List (Occurrence n)
deriving DecidableEq

/-- `console_out`, where `ToSource` may go to a depth of `fuel` containers. -/
def consoleOut (g : Graph n) (fuel : ℕ) (logTy : LogType) (args : List (Value n)) :
    Option (Logged n) := do
  let s ← logArgs g fuel args ⟨[], [], []⟩
  some ⟨builtinImplConsoleLog logTy s.fullLogLine, s.occurrences⟩

/-! ### How a value should be printed -/

/-- A part of what a value is printed as. -/
inductive Token (n : ℕ) where
  /-- A text of the printer's own. It has no NUL. -/
  | fixed (t : Text) (h : '\x00' ∉ t)
  /-- A text that comes from the program: a string, a key, a name, another primitive. -/
  | given (t : Text)
  /-- A container starts here. -/
  | enter (obj : Fin n)

/-- What a part looks like. -/
def Token.text : Token n → Text
  | fixed t _ => t
  | given t => t
  | enter _ => []

/-- The container that starts. -/
def Token.entered : Token n → Option (Fin n)
  | enter obj => some obj
  | _ => none

/-- The text of a sequence of parts. -/
def textOf (ts : List (Token n)) : Text := ts.flatMap Token.text

/-- The containers that are printed in full, in order. -/
def enteredIn (ts : List (Token n)) : List (Fin n) := ts.filterMap Token.entered

/-- `, `. -/
def comma : Token n := .fixed [',', ' '] (by decide)

/-- A number. -/
def count (k : ℕ) : Token n :=
  .fixed (Nat.toDigits 10 k) (by
    intro h
    have hdigit := Nat.isDigit_of_mem_toDigits (by omega) (by omega) h
    revert hdigit
    decide)

/-- The name of the class of a plain object, unless that is `Object`. -/
def className (g : Graph n) (proto : Proto) (properties : List (JsString × Value n)) :
    List (Token n) :=
  match getClassName g proto properties with
  | some name =>
    if name ≠ ['O', 'b', 'j', 'e', 'c', 't'] then [.given name, .fixed [' '] (by decide)] else []
  | none => []

/-- What a container is printed as in full, given what the values in it are printed as. -/
def full (g : Graph n) (f : Value n → List (Token n)) : Container n → List (Token n)
  | .array elements =>
    .fixed ['['] (by decide) ::
      ([comma].intercalate (elements.map f) ++ [.fixed [']'] (by decide)])
  | .set values =>
    .fixed ['S', 'e', 't', '('] (by decide) :: count values.length ::
      .fixed [')', ' ', '{', ' '] (by decide) ::
      ([comma].intercalate (values.map f) ++ [.fixed [' ', '}'] (by decide)])
  | .map entries =>
    .fixed ['M', 'a', 'p', '('] (by decide) :: count entries.length ::
      .fixed [')', ' ', '{', ' '] (by decide) ::
      ([comma].intercalate (entries.map fun entry =>
          f entry.1 ++ .fixed [' ', '=', '>', ' '] (by decide) :: f entry.2) ++
        [.fixed [' ', '}'] (by decide)])
  | .plain proto properties =>
    className g proto properties ++
      if properties.isEmpty then [.fixed ['{', '}'] (by decide)]
      else
        .fixed ['{', ' '] (by decide) ::
          ([comma].intercalate (properties.map fun property =>
              .given (encode property.1) :: .fixed [':', ' '] (by decide) :: f property.2) ++
            [.fixed [' ', '}'] (by decide)])

/-- How many containers are not around a value. -/
def inside (above : List (Fin n)) : ℕ := (Finset.univ.filter (· ∉ above)).card

theorem inside_cons_lt {above : List (Fin n)} {obj : Fin n} (h : obj ∉ above) :
    inside (obj :: above) < inside above := by
  apply Finset.card_lt_card
  rw [Finset.ssubset_iff_of_subset]
  · exact ⟨obj, by simpa using h, by simp⟩
  · intro x hx
    simp only [Finset.mem_filter, Finset.mem_univ, true_and, List.mem_cons, not_or] at hx ⊢
    exact hx.2

/-- **What a value should be printed as**, inside the containers `above`: a container that is one of
these is `<Circular>`, and any other is printed in full, with what it holds. -/
def tokens (g : Graph n) (above : List (Fin n)) : Value n → List (Token n)
  | .undefined => [.fixed ['u', 'n', 'd', 'e', 'f', 'i', 'n', 'e', 'd'] (by decide)]
  | .null => [.fixed ['n', 'u', 'l', 'l'] (by decide)]
  | .string s => [.fixed ['"'] (by decide), .given (encode s), .fixed ['"'] (by decide)]
  | .other p => [.given p.source]
  | .object obj =>
    if h : obj ∈ above then
      [.fixed ['<', 'C', 'i', 'r', 'c', 'u', 'l', 'a', 'r', '>'] (by decide)]
    else
      have := inside_cons_lt h
      .enter obj :: full g (fun v => tokens g (obj :: above) v) (g obj)
  termination_by inside above

/-- What an argument should be shown as: a string as it is. -/
def shown (g : Graph n) : Value n → Text
  | .string s => encode s
  | v => textOf (tokens g [] v)

/-- A line of the log, with nothing cut off. -/
def logLine (logTy : LogType) (msg : Text) : Line :=
  match logTy with
  | .warn => ⟨.stderr, "Warn: ".toList ++ msg ++ ['\n']⟩
  | .error => ⟨.stderr, "Error: ".toList ++ msg ++ ['\n']⟩
  | .log | .info | .debug => ⟨.stdout, msg ++ ['\n']⟩

/-- The container is printed as `<Circular>` exactly if it is inside itself. -/
def Occurrence.Good (o : Occurrence n) : Prop := o.circular = true ↔ o.obj ∈ o.above

/-- **The log line is as it should be.** -/
structure FormatsWell (g : Graph n) (logTy : LogType) (args : List (Value n)) (out : Logged n) :
    Prop where
  /-- `<Circular>` stands for a container inside itself, and for no other. -/
  circular : ∀ o ∈ out.occurrences, o.Good
  /-- The arguments are shown in order, with one space between them. -/
  line : out.line = logLine logTy ([' '].intercalate (args.map (shown g)))

/-! ### Parts -/

@[simp] theorem textOf_nil : textOf ([] : List (Token n)) = [] := rfl

@[simp] theorem textOf_cons (t : Token n) (ts : List (Token n)) :
    textOf (t :: ts) = t.text ++ textOf ts := rfl

@[simp] theorem textOf_append (ts us : List (Token n)) :
    textOf (ts ++ us) = textOf ts ++ textOf us :=
  List.flatMap_append

@[simp] theorem enteredIn_nil : enteredIn ([] : List (Token n)) = [] := rfl

@[simp] theorem enteredIn_fixed (t : Text) (h : '\x00' ∉ t) (ts : List (Token n)) :
    enteredIn (.fixed t h :: ts) = enteredIn ts := rfl

@[simp] theorem enteredIn_given (t : Text) (ts : List (Token n)) :
    enteredIn (.given t :: ts) = enteredIn ts := rfl

@[simp] theorem enteredIn_enter (obj : Fin n) (ts : List (Token n)) :
    enteredIn (.enter obj :: ts) = obj :: enteredIn ts := rfl

@[simp] theorem enteredIn_append (ts us : List (Token n)) :
    enteredIn (ts ++ us) = enteredIn ts ++ enteredIn us :=
  List.filterMap_append

section Separated

variable {α : Type} (f : α → List (Token n))

private theorem textOf_separated (a : α) (as : List α) :
    textOf ([comma].intercalate ((a :: as).map f)) =
      textOf (f a) ++ as.flatMap fun b => [',', ' '] ++ textOf (f b) := by
  induction as generalizing a with
  | nil => simp
  | cons b bs ih =>
    rw [List.map_cons, List.map_cons, List.intercalate_cons_cons, ← List.map_cons, textOf_append,
      textOf_append, ih b, List.flatMap_cons]
    simp [comma, Token.text]

private theorem enteredIn_separated (as : List α) :
    enteredIn ([comma].intercalate (as.map f)) = as.flatMap fun b => enteredIn (f b) := by
  cases as with
  | nil => rfl
  | cons a as =>
    induction as generalizing a with
    | nil => simp
    | cons b bs ih =>
      rw [List.map_cons, List.map_cons, List.intercalate_cons_cons, ← List.map_cons,
        enteredIn_append, enteredIn_append, ih b, List.flatMap_cons, List.flatMap_cons]
      simp [comma]

end Separated

/-! ### Steps of the printer -/

/-- **What a step of the printer does.** It appends the text `t` and visits the containers `e`, and
every container it reaches is printed as it should be; or else it visits one of them twice. -/
structure Printed (t : Text) (e : List (Fin n)) (s s' : State n) : Prop where
  /-- The containers that were reached, and what follows if they were printed as they should be. -/
  log : ∃ log, s'.occurrences = s.occurrences ++ log ∧
    ((∀ o ∈ log, o.Good) ↔ (s.visitedObjects ++ e).Nodup) ∧
    ((∀ o ∈ log, o.Good) →
      s'.sourceOut = s.sourceOut ++ t ∧ s'.visitedObjects = s.visitedObjects ++ e)
  /-- Nothing is removed from the list. -/
  grows : s.visitedObjects <+: s'.visitedObjects
  /-- Nothing is visited twice. -/
  nodup : s'.visitedObjects.Nodup

theorem Printed.trans {t t' : Text} {e e' : List (Fin n)} {s s' s'' : State n}
    (h : Printed t e s s') (h' : Printed t' e' s' s'') : Printed (t ++ t') (e ++ e') s s'' := by
  obtain ⟨log, hlog, hgood, htext⟩ := h.log
  obtain ⟨log', hlog', hgood', htext'⟩ := h'.log
  refine ⟨⟨log ++ log', by rw [hlog', hlog, List.append_assoc], ?_, ?_⟩, h.grows.trans h'.grows,
    h'.nodup⟩
  · simp only [List.mem_append, or_imp, forall_and]
    constructor
    · rintro ⟨hl, hl'⟩
      rw [← List.append_assoc, ← (htext hl).2]
      exact hgood'.mp hl'
    · intro hnodup
      rw [← List.append_assoc] at hnodup
      have hl := hgood.mpr (hnodup.sublist (List.sublist_append_left _ _))
      rw [← (htext hl).2] at hnodup
      exact ⟨hl, hgood'.mpr hnodup⟩
  · intro hall
    obtain ⟨hl, hl'⟩ := List.forall_mem_append.mp hall
    obtain ⟨hsource, hvisited⟩ := htext hl
    obtain ⟨hsource', hvisited'⟩ := htext' hl'
    rw [hsource', hsource, hvisited', hvisited, List.append_assoc, List.append_assoc]
    exact ⟨rfl, rfl⟩

/-- A step of the printer inside the containers `above`, to a depth of `fuel`. -/
def Prints (fuel : ℕ) (above : List (Fin n)) (t : Text) (e : List (Fin n))
    (print : State n → Option (State n)) : Prop :=
  ∀ s : State n, s.visitedObjects.Nodup → above ⊆ s.visitedObjects →
    (∀ s', print s = some s' → Printed t e s s') ∧
      (n ≤ fuel + s.visitedObjects.length → ∃ s', print s = some s')

variable {fuel : ℕ} {above : List (Fin n)} {t t' : Text} {e e' : List (Fin n)}

theorem prints_push (t : Text) : Prints fuel above t [] fun s => some (s.push t) := by
  refine fun s hs _ => ⟨?_, fun _ => ⟨_, rfl⟩⟩
  rintro s' ⟨⟩
  exact ⟨⟨[], by simp [State.push], by simpa using hs, by simp [State.push]⟩, List.prefix_rfl, hs⟩

theorem prints_nothing : Prints (n := n) fuel above [] [] some := by
  refine fun s hs _ => ⟨?_, fun _ => ⟨_, rfl⟩⟩
  rintro s' ⟨⟩
  exact ⟨⟨[], by simp, by simpa using hs, by simp⟩, List.prefix_rfl, hs⟩

/-- **One step after another.** -/
theorem Prints.bind {print print' : State n → Option (State n)}
    (h : Prints fuel above t e print) (h' : Prints fuel above t' e' print') :
    Prints fuel above (t ++ t') (e ++ e') fun s => print s >>= print' := by
  intro s hs habove
  obtain ⟨hprinted, hreturns⟩ := h s hs habove
  constructor
  · intro s'' heq
    obtain ⟨s', heq', heq''⟩ := Option.bind_eq_some_iff.mp heq
    have hp := hprinted s' heq'
    exact hp.trans ((h' s' hp.nodup fun x hx => hp.grows.subset (habove hx)).1 s'' heq'')
  · intro hfuel
    obtain ⟨s', heq'⟩ := hreturns hfuel
    have hp := hprinted s' heq'
    have hlength := hp.grows.length_le
    obtain ⟨s'', heq''⟩ :=
      (h' s' hp.nodup fun x hx => hp.grows.subset (habove hx)).2 (by omega)
    exact ⟨s'', Option.bind_eq_some_iff.mpr ⟨s', heq', heq''⟩⟩

/-- Text before a step. -/
theorem Prints.push {print : State n → Option (State n)} (t : Text)
    (h : Prints fuel above t' e print) :
    Prints fuel above (t ++ t') e fun s => print (s.push t) :=
  (prints_push t).bind h

/-- Text after a step. -/
theorem Prints.then_push {print : State n → Option (State n)}
    (h : Prints fuel above t e print) (t' : Text) :
    Prints fuel above (t ++ t') e fun s => print s >>= fun s => some (s.push t') := by
  have hbind := h.bind (prints_push t')
  rwa [List.append_nil] at hbind

theorem Prints.congr {print : State n → Option (State n)} (h : Prints fuel above t e print)
    (ht : t = t') (he : e = e') : Prints fuel above t' e' print := by
  rwa [← ht, ← he]

/-! ### The printers of containers -/

section PrintEach

variable {α : Type} {print : Printer n α} {f : α → List (Token n)}

private theorem prints_others
    (h : ∀ a, Prints fuel above (textOf (f a)) (enteredIn (f a)) (print a)) (opening : Text)
    (as : List α) :
    Prints fuel above (as.flatMap fun b => [',', ' '] ++ textOf (f b))
      (as.flatMap fun b => enteredIn (f b)) (printEach opening print false as) := by
  induction as with
  | nil => exact prints_nothing
  | cons a as ih => exact ((h a).push [',', ' ']).bind ih

/-- **The loop of the printers** prints the elements with commas between them. -/
theorem prints_printEach
    (h : ∀ a, Prints fuel above (textOf (f a)) (enteredIn (f a)) (print a)) (opening : Text)
    (as : List α) :
    Prints fuel above
      ((if as.isEmpty then [] else opening) ++ textOf ([comma].intercalate (as.map f)))
      (enteredIn ([comma].intercalate (as.map f))) (printEach opening print true as) := by
  rw [enteredIn_separated]
  cases as with
  | nil => exact prints_others h opening []
  | cons a as =>
    rw [textOf_separated]
    exact (((h a).push opening).bind (prints_others h opening as)).congr
      (by simp [List.append_assoc]) rfl

end PrintEach

theorem textOf_className (g : Graph n) (proto : Proto) (properties : List (JsString × Value n)) :
    textOf (className g proto properties) = classPrefix g proto properties := by
  rw [className, classPrefix]
  cases getClassName g proto properties with
  | none => rfl
  | some name =>
    simp only
    split_ifs
    · rfl
    · rfl

theorem enteredIn_className (g : Graph n) (proto : Proto) (properties : List (JsString × Value n)) :
    enteredIn (className g proto properties) = [] := by
  rw [className]
  cases getClassName g proto properties with
  | none => rfl
  | some name =>
    simp only
    split_ifs
    · rfl
    · rfl

section Containers

variable {toSource : Printer n (Value n)} {f : Value n → List (Token n)}

theorem prints_arrayToSource (g : Graph n)
    (h : ∀ v, Prints fuel above (textOf (f v)) (enteredIn (f v)) (toSource v))
    (elements : List (Value n)) :
    Prints fuel above (textOf (full g f (.array elements))) (enteredIn (full g f (.array elements)))
      (arrayToSource toSource elements) :=
  (((prints_printEach h [] elements).push ['[']).then_push [']']).congr
    (by simp [full, Token.text]) (by simp [full])

theorem prints_setToSource (g : Graph n)
    (h : ∀ v, Prints fuel above (textOf (f v)) (enteredIn (f v)) (toSource v))
    (values : List (Value n)) :
    Prints fuel above (textOf (full g f (.set values))) (enteredIn (full g f (.set values)))
      (setToSource toSource values) :=
  (((prints_printEach h [] values).push _).then_push [' ', '}']).congr
    (by simp [full, Token.text, count]) (by simp [full, count])

theorem prints_mapToSource (g : Graph n)
    (h : ∀ v, Prints fuel above (textOf (f v)) (enteredIn (f v)) (toSource v))
    (entries : List (Value n × Value n)) :
    Prints fuel above (textOf (full g f (.map entries))) (enteredIn (full g f (.map entries)))
      (mapToSource toSource entries) := by
  have hentry (entry : Value n × Value n) :
      Prints fuel above
        (textOf (f entry.1 ++ .fixed [' ', '=', '>', ' '] (by decide) :: f entry.2))
        (enteredIn (f entry.1 ++ .fixed [' ', '=', '>', ' '] (by decide) :: f entry.2))
        (fun s => toSource entry.1 s >>= fun s => toSource entry.2 (s.push [' ', '=', '>', ' '])) :=
    ((h entry.1).bind ((h entry.2).push [' ', '=', '>', ' '])).congr (by simp [Token.text])
      (by simp)
  exact (((prints_printEach hentry [] entries).push _).then_push [' ', '}']).congr
    (by simp [full, Token.text, count]) (by simp [full, count])

theorem prints_objectToSource (g : Graph n)
    (h : ∀ v, Prints fuel above (textOf (f v)) (enteredIn (f v)) (toSource v)) (proto : Proto)
    (properties : List (JsString × Value n)) :
    Prints fuel above (textOf (full g f (.plain proto properties)))
      (enteredIn (full g f (.plain proto properties)))
      (fun s => objectToSource toSource properties (s.push (classPrefix g proto properties))) := by
  have hproperty (property : JsString × Value n) :
      Prints fuel above
        (textOf (.given (encode property.1) :: .fixed [':', ' '] (by decide) :: f property.2))
        (enteredIn (.given (encode property.1) :: .fixed [':', ' '] (by decide) :: f property.2))
        (fun s => toSource property.2 ((s.push (encode property.1)).push [':', ' '])) :=
    (((h property.2).push [':', ' ']).push (encode property.1)).congr (by simp [Token.text])
      (by simp)
  have hend : Prints (n := n) fuel above ((if properties.isEmpty then [] else [' ']) ++ ['}']) []
      (fun s => some ((if properties.isEmpty then s else s.push [' ']).push ['}'])) := by
    split_ifs
    · exact prints_push ['}']
    · exact (prints_push ['}']).push [' ']
  refine ((((prints_printEach hproperty [' '] properties).push ['{']).bind hend).push
    (classPrefix g proto properties)).congr ?_ ?_
  · cases properties with
    | nil => simp [full, Token.text, textOf_className]
    | cons property properties => simp [full, Token.text, textOf_className]
  · cases properties with
    | nil => simp [full, enteredIn_className]
    | cons property properties => simp [full, enteredIn_className]

end Containers

/-! ### `ToSource` -/

theorem tokens_of_mem (g : Graph n) {obj : Fin n} (h : obj ∈ above) :
    tokens g above (.object obj) =
      [.fixed ['<', 'C', 'i', 'r', 'c', 'u', 'l', 'a', 'r', '>'] (by decide)] := by
  rw [tokens, dif_pos h]

theorem tokens_of_notMem (g : Graph n) {obj : Fin n} (h : obj ∉ above) :
    tokens g above (.object obj) = .enter obj :: full g (tokens g (obj :: above)) (g obj) := by
  rw [tokens, dif_neg h]

/-- A container that was visited is printed as `<Circular>`, whether or not it is inside itself. -/
private theorem printed_visited (g : Graph n) {obj : Fin n} {s : State n}
    (hs : s.visitedObjects.Nodup) (h : obj ∈ s.visitedObjects) :
    Printed (textOf (tokens g above (.object obj))) (enteredIn (tokens g above (.object obj))) s
      ((s.reach above obj true).push ['<', 'C', 'i', 'r', 'c', 'u', 'l', 'a', 'r', '>']) := by
  refine ⟨⟨[⟨above, obj, true⟩], rfl, ?_, ?_⟩, List.prefix_rfl, hs⟩
  · simp only [List.mem_singleton, forall_eq, Occurrence.Good, true_iff]
    by_cases hmem : obj ∈ above
    · rw [tokens_of_mem g hmem]
      exact iff_of_true hmem (by simpa using hs)
    · rw [tokens_of_notMem g hmem, enteredIn_enter]
      refine iff_of_false hmem fun hnodup => ?_
      exact (List.nodup_append.mp hnodup).2.2 obj h obj List.mem_cons_self rfl
  · simp only [List.mem_singleton, forall_eq, Occurrence.Good, true_iff]
    intro hmem
    rw [tokens_of_mem g hmem]
    simp [State.push, State.reach, Token.text]

/-- A container that was not visited is printed in full. -/
private theorem printed_entered {obj : Fin n} {s s' : State n} (h : obj ∉ above)
    (hbody : Printed t e ((s.reach above obj false).visit obj) s') :
    Printed t (obj :: e) s s' := by
  obtain ⟨log, hlog, hgood, htext⟩ := hbody.log
  have hvisited : ((s.reach above obj false).visit obj).visitedObjects ++ e =
      s.visitedObjects ++ obj :: e := by
    simp [State.visit, State.reach]
  have hfirst : Occurrence.Good (⟨above, obj, false⟩ : Occurrence n) := by
    simpa [Occurrence.Good] using h
  refine ⟨⟨⟨above, obj, false⟩ :: log, ?_, ?_, ?_⟩, ?_, hbody.nodup⟩
  · rw [hlog]
    simp [State.visit, State.reach]
  · rw [← hvisited, ← hgood, List.forall_mem_cons]
    exact and_iff_right hfirst
  · intro hall
    obtain ⟨hsource, hvisited'⟩ := htext (List.forall_mem_cons.mp hall).2
    exact ⟨hsource, hvisited'.trans hvisited⟩
  · exact (List.prefix_append s.visitedObjects [obj]).trans hbody.grows

private theorem toSource_of_mem (g : Graph n) {obj : Fin n} {s : State n}
    (h : obj ∈ s.visitedObjects) :
    toSource g fuel above (.object obj) s =
      some ((s.reach above obj true).push ['<', 'C', 'i', 'r', 'c', 'u', 'l', 'a', 'r', '>']) := by
  cases fuel with
  | zero => rw [toSource, if_pos h]
  | succ fuel => rw [toSource, if_pos h]

/-- A primitive is printed as it should be. -/
private theorem prints_primitive (g : Graph n) {v : Value n} (h : ∀ obj, v ≠ .object obj) :
    Prints fuel above (textOf (tokens g above v)) (enteredIn (tokens g above v))
      (toSource g fuel above v) := by
  have hfuel {print : State n → Option (State n)}
      (hzero : toSource g 0 above v = print) (hsucc : ∀ k, toSource g (k + 1) above v = print) :
      toSource g fuel above v = print := by
    cases fuel with
    | zero => exact hzero
    | succ k => exact hsucc k
  cases v with
  | undefined =>
    rw [hfuel rfl fun _ => rfl]
    exact (prints_push _).congr (by simp [tokens, Token.text]) (by simp [tokens])
  | null =>
    rw [hfuel rfl fun _ => rfl]
    exact (prints_push _).congr (by simp [tokens, Token.text]) (by simp [tokens])
  | string str =>
    rw [hfuel rfl fun _ => rfl]
    exact (((prints_push ['"']).push (encode str)).push ['"']).congr
      (by simp [tokens, Token.text]) (by simp [tokens])
  | other p =>
    rw [hfuel rfl fun _ => rfl]
    exact (prints_push _).congr (by simp [tokens, Token.text]) (by simp [tokens])
  | object obj => exact absurd rfl (h obj)

/-- A container that was not visited, where the printer may go one container deeper. -/
private theorem toSource_of_notMem (g : Graph n) {obj : Fin n}
    (ih : ∀ v, Prints fuel (obj :: above) (textOf (tokens g (obj :: above) v))
      (enteredIn (tokens g (obj :: above) v)) (toSource g fuel (obj :: above) v)) :
    ∃ print : State n → Option (State n),
      Prints fuel (obj :: above) (textOf (full g (tokens g (obj :: above)) (g obj)))
        (enteredIn (full g (tokens g (obj :: above)) (g obj))) print ∧
      ∀ s : State n, obj ∉ s.visitedObjects →
        toSource g (fuel + 1) above (.object obj) s =
          print ((s.reach above obj false).visit obj) := by
  cases hg : g obj with
  | array elements =>
    refine ⟨_, prints_arrayToSource g ih elements, fun s h => ?_⟩
    rw [toSource, if_neg h, hg]
  | set values =>
    refine ⟨_, prints_setToSource g ih values, fun s h => ?_⟩
    rw [toSource, if_neg h, hg]
  | map entries =>
    refine ⟨_, prints_mapToSource g ih entries, fun s h => ?_⟩
    rw [toSource, if_neg h, hg]
  | plain proto properties =>
    refine ⟨_, prints_objectToSource g ih proto properties, fun s h => ?_⟩
    rw [toSource, if_neg h, hg]

/-- A container that was not visited leaves room for one more. -/
private theorem length_lt_of_notMem {obj : Fin n} {visited : List (Fin n)} (hs : visited.Nodup)
    (h : obj ∉ visited) : visited.length < n := by
  have hlength : (obj :: visited).length ≤ Fintype.card (Fin n) :=
    (List.nodup_cons.mpr ⟨h, hs⟩).length_le_card
  rwa [Fintype.card_fin] at hlength

/-- A container, given what happens if it was not visited. -/
private theorem prints_object (g : Graph n) {obj : Fin n}
    (h : ∀ s : State n, s.visitedObjects.Nodup → above ⊆ s.visitedObjects →
      obj ∉ s.visitedObjects →
      (∀ s', toSource g fuel above (.object obj) s = some s' →
        Printed (textOf (tokens g above (.object obj))) (enteredIn (tokens g above (.object obj)))
          s s') ∧
        (n ≤ fuel + s.visitedObjects.length →
          ∃ s', toSource g fuel above (.object obj) s = some s')) :
    Prints fuel above (textOf (tokens g above (.object obj)))
      (enteredIn (tokens g above (.object obj))) (toSource g fuel above (.object obj)) := by
  intro s hs habove
  by_cases hmem : obj ∈ s.visitedObjects
  · rw [toSource_of_mem g hmem]
    refine ⟨?_, fun _ => ⟨_, rfl⟩⟩
    rintro s' ⟨⟩
    exact printed_visited g hs hmem
  · exact h s hs habove hmem

/-- **`ToSource`** returns if it may go deep enough for the containers that were not visited, and
prints the value as it should be unless it visits a container twice. -/
theorem prints_toSource (g : Graph n) (fuel : ℕ) (above : List (Fin n)) (v : Value n) :
    Prints fuel above (textOf (tokens g above v)) (enteredIn (tokens g above v))
      (toSource g fuel above v) := by
  induction fuel generalizing above v with
  | zero =>
    by_cases hv : ∃ obj, v = .object obj
    · obtain ⟨obj, rfl⟩ := hv
      refine prints_object g fun s hs _ h => ?_
      have hnone : toSource g 0 above (.object obj) s = none := by
        rw [toSource, if_neg h]
      rw [hnone]
      refine ⟨by rintro s' ⟨⟩, fun hfuel => ?_⟩
      have hlt := length_lt_of_notMem hs h
      omega
    · exact prints_primitive g fun obj h => hv ⟨obj, h⟩
  | succ fuel ih =>
    by_cases hv : ∃ obj, v = .object obj
    · obtain ⟨obj, rfl⟩ := hv
      refine prints_object g fun s hs habove h => ?_
      obtain ⟨print, hprint, heq⟩ := toSource_of_notMem g (ih (obj :: above))
      have hmem : obj ∉ above := fun hmem => h (habove hmem)
      have hvisited : ((s.reach above obj false).visit obj).visitedObjects =
          s.visitedObjects ++ [obj] := rfl
      have hnodup : ((s.reach above obj false).visit obj).visitedObjects.Nodup := by
        rw [hvisited, List.nodup_append_comm]
        exact List.nodup_cons.mpr ⟨h, hs⟩
      have hsubset : obj :: above ⊆ ((s.reach above obj false).visit obj).visitedObjects := by
        rw [hvisited]
        intro x hx
        rcases List.mem_cons.mp hx with rfl | hx
        · simp
        · exact List.mem_append_left _ (habove hx)
      obtain ⟨hprinted, hreturns⟩ := hprint _ hnodup hsubset
      rw [heq s h, tokens_of_notMem g hmem]
      refine ⟨fun s' hs' => printed_entered hmem (hprinted s' hs'), fun hfuel => hreturns ?_⟩
      rw [hvisited, List.length_append, List.length_singleton]
      omega
    · exact prints_primitive g fun obj h => hv ⟨obj, h⟩

/-! ### Arguments -/

/-- No container ends with a quotation mark. -/
private theorem full_end (g : Graph n) (f : Value n → List (Token n)) (c : Container n) :
    ∃ ts t h x, full g f c = ts ++ [.fixed t h] ∧ t.getLast? = some x ∧ x ≠ '"' := by
  cases c with
  | array elements => exact ⟨_ :: _, _, _, ']', rfl, rfl, by decide⟩
  | set values => exact ⟨_ :: _ :: _ :: _, _, _, '}', rfl, rfl, by decide⟩
  | map entries => exact ⟨_ :: _ :: _ :: _, _, _, '}', rfl, rfl, by decide⟩
  | plain proto properties =>
    cases properties with
    | nil => exact ⟨className g proto [], ['{', '}'], by decide, '}', rfl, rfl, by decide⟩
    | cons property properties =>
      obtain ⟨ts, hfull⟩ : ∃ ts, full g f (.plain proto (property :: properties)) =
          className g proto (property :: properties) ++
            (ts ++ [.fixed [' ', '}'] (by decide)]) := ⟨_ :: _, rfl⟩
      exact ⟨className g proto (property :: properties) ++ ts, [' ', '}'], by decide, '}',
        by rw [hfull, List.append_assoc], rfl, by decide⟩

private theorem textOf_object (g : Graph n) (obj : Fin n) :
    ∃ l x, textOf (tokens g [] (.object obj)) = l ++ [x] ∧ x ≠ '"' := by
  obtain ⟨ts, t, h, x, hfull, hlast, hx⟩ := full_end g (tokens g [obj]) (g obj)
  obtain ⟨l, hl⟩ := List.getLast?_eq_some_iff.mp hlast
  refine ⟨textOf ts ++ l, x, ?_, hx⟩
  rw [tokens_of_notMem g List.not_mem_nil, hfull, textOf_cons, textOf_append, textOf_cons,
    textOf_nil]
  simp [Token.text, hl]

/-- **Stripping the quotes** leaves of a string what it is, and everything else as it is. -/
theorem stripQuotes_textOf (g : Graph n) (v : Value n) :
    stripQuotes (textOf (tokens g [] v)) = shown g v := by
  cases v with
  | undefined => simp [tokens, Token.text, stripQuotes, shown]
  | null => simp [tokens, Token.text, stripQuotes, shown]
  | string s =>
    have htext : textOf (tokens g [] (.string s)) = '"' :: (encode s ++ ['"']) := by
      simp [tokens, Token.text]
    have hlast : ('"' :: (encode s ++ ['"'])).getLast? = some '"' := by
      rw [← List.cons_append, List.getLast?_concat]
    rw [htext, stripQuotes, if_pos ⟨rfl, hlast⟩, shown, List.tail_cons, List.dropLast_concat]
  | other p =>
    obtain ⟨c, t, hsource, hc⟩ := p.bare
    rw [stripQuotes, if_neg, shown]
    · simp
    · simp [tokens, Token.text, hsource, hc]
  | object obj =>
    obtain ⟨l, x, htext, hx⟩ := textOf_object g obj
    rw [stripQuotes, if_neg, shown]
    · simp
    · simp [htext, hx]

/-- Only the empty string is shown as nothing. -/
theorem shown_eq_nil_iff (g : Graph n) (v : Value n) : shown g v = [] ↔ v = .string [] := by
  cases v with
  | undefined => simp [shown, tokens, Token.text]
  | null => simp [shown, tokens, Token.text]
  | string s => simp [shown, encode]
  | other p =>
    obtain ⟨c, t, hsource, -⟩ := p.bare
    simp [shown, tokens, Token.text, hsource]
  | object obj =>
    obtain ⟨l, x, htext, -⟩ := textOf_object g obj
    simp [shown, htext]

/-- The containers that the arguments are printed with in full, in order. -/
def enteredBy (g : Graph n) (args : List (Value n)) : List (Fin n) :=
  args.flatMap fun v => enteredIn (tokens g [] v)

/-- **The loop of `console_out`**: the line is the one of what the arguments are shown as, unless a
container is visited twice. -/
theorem logArgs_spec (g : Graph n) (fuel : ℕ) (args : List (Value n)) (s : LogState n)
    (hs : s.visitedObjects.Nodup) :
    (∀ s', logArgs g fuel args s = some s' → ∃ log, s'.occurrences = s.occurrences ++ log ∧
      ((∀ o ∈ log, o.Good) ↔ (s.visitedObjects ++ enteredBy g args).Nodup) ∧
      ((∀ o ∈ log, o.Good) →
        s'.fullLogLine = (args.map (shown g)).foldl appendSource s.fullLogLine)) ∧
      (n ≤ fuel + s.visitedObjects.length → ∃ s', logArgs g fuel args s = some s') := by
  induction args generalizing s with
  | nil =>
    refine ⟨?_, fun _ => ⟨s, rfl⟩⟩
    rintro s' ⟨⟩
    exact ⟨[], by simp, by simpa [enteredBy] using hs, fun _ => rfl⟩
  | cons arg args ih =>
    have hprints := prints_toSource g fuel [] arg ⟨[], s.visitedObjects, s.occurrences⟩ hs
      (List.nil_subset _)
    constructor
    · intro s'' heq
      obtain ⟨t, ht, heq'⟩ := Option.bind_eq_some_iff.mp heq
      have hp := hprints.1 t ht
      obtain ⟨log, hlog, hgood, htext⟩ := hp.log
      obtain ⟨log', hlog', hgood', htext'⟩ := (ih _ hp.nodup).1 s'' heq'
      refine ⟨log ++ log', by rw [hlog', hlog, List.append_assoc], ?_, ?_⟩
      · have hentered : s.visitedObjects ++ enteredBy g (arg :: args) =
            (s.visitedObjects ++ enteredIn (tokens g [] arg)) ++ enteredBy g args := by
          simp [enteredBy]
        rw [hentered, List.forall_mem_append]
        constructor
        · rintro ⟨hl, hl'⟩
          rw [← (htext hl).2]
          exact hgood'.mp hl'
        · intro hnodup
          have hl := hgood.mpr (hnodup.sublist (List.sublist_append_left _ _))
          rw [← (htext hl).2] at hnodup
          exact ⟨hl, hgood'.mpr hnodup⟩
      · intro hall
        obtain ⟨hl, hl'⟩ := List.forall_mem_append.mp hall
        rw [htext' hl', (htext hl).1, List.nil_append, stripQuotes_textOf]
        rfl
    · intro hfuel
      obtain ⟨t, ht⟩ := hprints.2 hfuel
      have hp := hprints.1 t ht
      have hlength : s.visitedObjects.length ≤ t.visitedObjects.length := hp.grows.length_le
      obtain ⟨s', hs'⟩ := (ih ⟨appendSource s.fullLogLine (stripQuotes t.sourceOut),
        t.visitedObjects, t.occurrences⟩ hp.nodup).2 (by simp only; omega)
      exact ⟨s', Option.bind_eq_some_iff.mpr ⟨t, ht, hs'⟩⟩

/-! ### The line -/

/-- The code's line after one that is not empty: a space before each of the others. -/
private theorem foldl_appendSource {line : Text} (h : line ≠ []) (sources : List Text) :
    sources.foldl appendSource line = [' '].intercalate (line :: sources) := by
  induction sources generalizing line with
  | nil => simp
  | cons source sources ih =>
    have happend : appendSource line source = line ++ [' '] ++ source := by
      simp [appendSource, h]
    rw [List.foldl_cons, happend, ih (by simp), List.intercalate_cons_cons]
    cases sources with
    | nil => simp
    | cons next sources =>
      rw [List.intercalate_cons_cons, List.intercalate_cons_cons]
      simp [List.append_assoc]

private theorem length_foldl_appendSource (sources : List Text) :
    (sources.foldl appendSource []).length ≤ ([' '].intercalate sources).length := by
  induction sources with
  | nil => simp
  | cons source sources ih =>
    by_cases h : source = []
    · subst h
      cases sources with
      | nil => simp [appendSource]
      | cons next sources =>
        rw [List.intercalate_cons_cons, List.foldl_cons]
        simp only [appendSource, List.isEmpty_nil, if_true, List.append_nil, List.nil_append,
          List.length_append] at ih ⊢
        omega
    · rw [List.foldl_cons]
      have happend : appendSource [] source = source := rfl
      rw [happend, foldl_appendSource h]

/-- **The line has all its spaces** exactly if it does not start with an empty source followed by
others. -/
private theorem foldl_appendSource_eq_iff (sources : List Text) :
    (sources.foldl appendSource []).length = ([' '].intercalate sources).length ↔
      ∀ rest, sources = [] :: rest → rest = [] := by
  cases sources with
  | nil => simp
  | cons source sources =>
    have happend : appendSource [] source = source := rfl
    rw [List.foldl_cons, happend]
    by_cases h : source = []
    · subst h
      cases sources with
      | nil => simp
      | cons next sources =>
        have hle := length_foldl_appendSource (next :: sources)
        rw [List.intercalate_cons_cons]
        simp only [List.length_append, List.length_nil, List.length_singleton, List.cons.injEq,
          true_and, forall_eq', reduceCtorEq, iff_false]
        omega
    · rw [foldl_appendSource h]
      simp [h]

private theorem foldl_appendSource_eq {sources : List Text}
    (h : ∀ rest, sources = [] :: rest → rest = []) :
    sources.foldl appendSource [] = [' '].intercalate sources := by
  cases sources with
  | nil => rfl
  | cons source sources =>
    by_cases hsource : source = []
    · subst hsource
      rw [h sources rfl]
      rfl
    · exact foldl_appendSource hsource sources

/-- What is printed of a line is all of it exactly if it holds no NUL. -/
private theorem cString_eq_iff (msg : Text) : (cString msg).length = msg.length ↔ '\x00' ∉ msg := by
  induction msg with
  | nil => simp [cString]
  | cons c msg ih =>
    by_cases h : c = '\x00'
    · simp [cString, h]
    · have hcons : cString (c :: msg) = c :: cString msg := by simp [cString, h]
      rw [hcons, List.length_cons, List.length_cons, Nat.add_right_cancel_iff, ih]
      simp [Ne.symm h]

private theorem cString_eq {msg : Text} (h : '\x00' ∉ msg) : cString msg = msg :=
  (List.takeWhile_prefix _).eq_of_length ((cString_eq_iff msg).mpr h)

private theorem builtinImplConsoleLog_eq (logTy : LogType) (msg : Text) :
    builtinImplConsoleLog logTy msg = logLine logTy (cString msg) := by
  cases logTy <;> rfl

private theorem logLine_inj (logTy : LogType) {msg msg' : Text}
    (h : logLine logTy msg = logLine logTy msg') : msg = msg' := by
  cases logTy
  all_goals
    simp only [logLine, Line.mk.injEq, true_and] at h
    simpa using h

private theorem mem_intercalate_iff (c : Char) (sources : List Text) (hc : c ≠ ' ') :
    c ∈ [' '].intercalate sources ↔ ∃ source ∈ sources, c ∈ source := by
  induction sources with
  | nil => simp
  | cons source sources ih =>
    cases sources with
    | nil => simp
    | cons next sources =>
      rw [List.intercalate_cons_cons, List.mem_append, List.mem_append, ih]
      simp [hc]

/-- **The line that is printed** is the sources with one space between them exactly if it does not
start with an empty source followed by others, and no source holds a NUL. -/
theorem cString_foldl_eq_iff (sources : List Text) :
    cString (sources.foldl appendSource []) = [' '].intercalate sources ↔
      (∀ rest, sources = [] :: rest → rest = []) ∧ ∀ source ∈ sources, '\x00' ∉ source := by
  have hcut : (cString (sources.foldl appendSource [])).length ≤
      (sources.foldl appendSource []).length := (List.takeWhile_prefix _).length_le
  have hle := length_foldl_appendSource sources
  constructor
  · intro h
    have hlength := congrArg List.length h
    have hspaces := (foldl_appendSource_eq_iff sources).mp (by omega)
    refine ⟨hspaces, ?_⟩
    have hnul := (cString_eq_iff _).mp
      (by omega : (cString (sources.foldl appendSource [])).length =
        (sources.foldl appendSource []).length)
    rw [foldl_appendSource_eq hspaces] at hnul
    exact fun source hsource hmem =>
      hnul ((mem_intercalate_iff '\x00' sources (by decide)).mpr ⟨source, hsource, hmem⟩)
  · rintro ⟨hspaces, hnul⟩
    rw [foldl_appendSource_eq hspaces]
    refine cString_eq fun hmem => ?_
    obtain ⟨source, hsource, hmem⟩ := (mem_intercalate_iff '\x00' sources (by decide)).mp hmem
    exact hnul source hsource hmem

/-! ### When a line of the log is as it should be -/

/-- No container occurs twice in what the arguments are printed as, but for inside itself. -/
def Unshared (g : Graph n) (args : List (Value n)) : Prop := (enteredBy g args).Nodup

/-- The first argument is not the empty string, unless it is the only one. -/
def Spaced (args : List (Value n)) : Prop := ∀ rest, args = .string [] :: rest → rest = []

/-- No string, key, class name or other primitive in the arguments holds a NUL. -/
def NulFree (g : Graph n) (args : List (Value n)) : Prop :=
  ∀ v ∈ args, ∀ t, .given t ∈ tokens g [] v → '\x00' ∉ t

private theorem nul_mem_textOf_iff (ts : List (Token n)) :
    '\x00' ∈ textOf ts ↔ ∃ t, .given t ∈ ts ∧ '\x00' ∈ t := by
  simp only [textOf, List.mem_flatMap]
  constructor
  · rintro ⟨token, htoken, hmem⟩
    cases token with
    | fixed t h => exact absurd hmem h
    | given t => exact ⟨t, htoken, hmem⟩
    | enter obj => exact absurd hmem List.not_mem_nil
  · rintro ⟨t, ht, hmem⟩
    exact ⟨.given t, ht, hmem⟩

private theorem nul_mem_shown_iff (g : Graph n) (v : Value n) :
    '\x00' ∈ shown g v ↔ ∃ t, .given t ∈ tokens g [] v ∧ '\x00' ∈ t := by
  cases v with
  | string s => simp [shown, tokens]
  | undefined => exact nul_mem_textOf_iff _
  | null => exact nul_mem_textOf_iff _
  | other p => exact nul_mem_textOf_iff _
  | object obj => exact nul_mem_textOf_iff _

private theorem nulFree_iff (g : Graph n) (args : List (Value n)) :
    (∀ source ∈ args.map (shown g), '\x00' ∉ source) ↔ NulFree g args := by
  simp only [List.mem_map, forall_exists_index, and_imp, forall_apply_eq_imp_iff₂]
  refine forall₂_congr fun v _ => ?_
  rw [nul_mem_shown_iff]
  simp

private theorem spaced_iff (g : Graph n) (args : List (Value n)) :
    (∀ rest, args.map (shown g) = [] :: rest → rest = []) ↔ Spaced args := by
  cases args with
  | nil => simp [Spaced]
  | cons v args =>
    simp only [Spaced, List.map_cons, List.cons.injEq, shown_eq_nil_iff, and_imp]
    constructor
    · rintro h rest hv rfl
      exact List.map_eq_nil_iff.mp (h _ hv rfl)
    · rintro h rest hv rfl
      rw [h _ hv rfl]
      rfl

/-- **The call returns**, whatever the values, if `ToSource` may go as deep as there are
containers. -/
theorem consoleOut_returns (g : Graph n) (logTy : LogType) (args : List (Value n)) :
    ∃ out, consoleOut g n logTy args = some out := by
  obtain ⟨s, hs⟩ := (logArgs_spec g n args ⟨[], [], []⟩ List.nodup_nil).2 (Nat.le_add_right n _)
  exact ⟨_, Option.bind_eq_some_iff.mpr ⟨s, hs, rfl⟩⟩

/-- What a call leaves, if it returns. -/
private theorem consoleOut_spec {g : Graph n} {fuel : ℕ} {logTy : LogType} {args : List (Value n)}
    {out : Logged n} (hout : consoleOut g fuel logTy args = some out) :
    ((∀ o ∈ out.occurrences, o.Good) ↔ Unshared g args) ∧
      ((∀ o ∈ out.occurrences, o.Good) →
        out.line = logLine logTy (cString ((args.map (shown g)).foldl appendSource []))) := by
  obtain ⟨s, hs, hline⟩ := Option.bind_eq_some_iff.mp hout
  cases hline
  obtain ⟨log, hlog, hgood, hline⟩ :=
    (logArgs_spec g fuel args ⟨[], [], []⟩ List.nodup_nil).1 s hs
  rw [List.nil_append] at hlog hgood
  simp only [hlog, builtinImplConsoleLog_eq]
  exact ⟨hgood, fun h => by rw [hline h]⟩

/-- **A line of the log is as it should be** exactly if no container occurs twice in the arguments,
other than inside itself, the first argument is not the empty string unless it is the only one, and
there is no NUL in any of them. -/
theorem consoleOut_iff (g : Graph n) (logTy : LogType) (args : List (Value n)) :
    (∃ fuel out, consoleOut g fuel logTy args = some out ∧ FormatsWell g logTy args out) ↔
      Unshared g args ∧ Spaced args ∧ NulFree g args := by
  have hiff := cString_foldl_eq_iff (args.map (shown g))
  rw [spaced_iff, nulFree_iff] at hiff
  constructor
  · rintro ⟨fuel, out, hout, hwell⟩
    obtain ⟨hunshared, hline⟩ := consoleOut_spec hout
    have heq := logLine_inj logTy ((hline hwell.circular).symm.trans hwell.line)
    exact ⟨hunshared.mp hwell.circular, hiff.mp heq⟩
  · rintro ⟨hunshared, hline⟩
    obtain ⟨out, hout⟩ := consoleOut_returns g logTy args
    obtain ⟨hcircular, hout'⟩ := consoleOut_spec hout
    have hgood := hcircular.mpr hunshared
    exact ⟨n, out, hout, hgood, by rw [hout' hgood, hiff.mpr hline]⟩

/-- An array that holds the same empty array twice. -/
def sharedArray : Graph 2 := fun obj =>
  if obj = 0 then .array [.object 1, .object 1] else .array []

/-- **A line that is not as it should be.** The second of the two is printed as `<Circular>`. -/
theorem consoleOut_shared :
    ¬ ∃ fuel out, consoleOut sharedArray fuel .log [.object 0] = some out ∧
      FormatsWell sharedArray .log [.object 0] out := by
  rintro ⟨fuel, out, hout, hwell⟩
  obtain _ | _ | k := fuel
  · have hnone : consoleOut sharedArray 0 .log [.object 0] = none := by decide
    rw [hnone] at hout
    cases hout
  · have hnone : consoleOut sharedArray 1 .log [.object 0] = none := by decide
    rw [hnone] at hout
    cases hout
  · have hsome : consoleOut sharedArray (k + 2) .log [.object 0] =
        some ⟨⟨.stdout, ['[', '[', ']', ',', ' ', '<', 'C', 'i', 'r', 'c', 'u', 'l', 'a', 'r', '>',
          ']', '\n']⟩, [⟨[], 0, false⟩, ⟨[0], 1, false⟩, ⟨[0], 1, true⟩]⟩ := rfl
    rw [hsome] at hout
    cases hout
    have hgood : (1 : Fin 2) ∈ [(0 : Fin 2)] :=
      (hwell.circular ⟨[0], 1, true⟩ (by decide)).mp rfl
    revert hgood
    decide

end WebGlobals.ConsoleFormat
