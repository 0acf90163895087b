import StarlingMonkey.Lib.Run
import Mathlib.Logic.Function.Basic
import Mathlib.Data.List.Basic

/-!
# The module registry

Modules are found in one map, under strings of four kinds: the names of native and synthetic
modules, the names of entry modules without a file, canonical paths, and canonical paths behind
`json:` for JSON modules. Resolving and canonicalizing paths, and printing them, are parameters
(`ModuleFiles`).

* `Kept`: between two clears or entry registrations an import of a file gets one module, imports of
  different files get different ones, an import gets a module of its kind, and the namespace of the
  entry is that of the module that was recorded last.
* `modules_kept`: that holds in every run that keeps the four kinds of strings apart and does not
  fail to replace a module (`Apart`). A registration that fails removes the name it was given.

What a module requests while it is loaded is further events of the loader.
-/

namespace CoreRuntime

/-- `ModuleKind`: the kinds of module the loader compiles from a file. -/
inductive ModuleKind where
  | javaScript | json
deriving DecidableEq, Repr

/-- `ModuleType`: what an import asks for. -/
inductive ModuleType where
  | javaScript | json | other
deriving DecidableEq, Repr

/-- The file system and the resolver. -/
structure ModuleFiles (P : Type) where
  /-- The canonical path that a specifier resolves to, against a directory. -/
  canonical : P → String → Except String P
  /-- `to_string_lossy`. -/
  toStringLossy : P → String
  /-- The path is text that `to_string_lossy` prints as it is. -/
  isText : P → Bool
  /-- The extension of the path is `json`, in any case. -/
  isJson : P → Bool

/-- A key that JSON modules are kept under. -/
def isJsonKey (key : String) : Bool := "json:".toList.isPrefixOf key.toList

namespace ModuleFiles

variable {P : Type}

/-- The key a file's module is kept under. -/
def cacheKey (files : ModuleFiles P) (path : P) : ModuleKind → String
  | .javaScript => files.toStringLossy path
  | .json => "json:" ++ files.toStringLossy path

/-- What the loader relies on. -/
structure Lawful (files : ModuleFiles P) : Prop where
  /-- A path that is text can be read off its string. -/
  text : ∀ p q, files.isText p = true → files.isText q = true →
    files.toStringLossy p = files.toStringLossy q → p = q
  /-- A canonical path does not begin with `json:`. -/
  noJson : ∀ p, isJsonKey (files.toStringLossy p) = false

end ModuleFiles

/-- A module that was compiled. -/
structure ModuleObject (P : Type) where
  kind : ModuleKind
  /-- The file whose module it is, if any. -/
  file : Option P
deriving DecidableEq, Repr

/-- An import that got a module. -/
structure Import (P : Type) where
  /-- How many clears and entry registrations there had been. -/
  epoch : ℕ
  kind : ModuleKind
  /-- The file that was imported. A name that is not a file's has none. -/
  file : Option P
  module : ℕ
deriving DecidableEq, Repr

/-- `ModuleState`, with the modules that were compiled, by number. `epoch`, `imports` and
`entryModule` are a record: no function of the loader reads them. -/
structure ModuleState (P : Type) where
  registry : String → Option ℕ
  /-- The registry key of the entry module recorded last. -/
  entry : Option String
  objects : List (ModuleObject P)
  epoch : ℕ
  imports : List (Import P)
  /-- The entry module that was recorded last, unless the registry was cleared since. -/
  entryModule : Option ℕ

/-- Why `resolve_file_module` could not produce a module. -/
inductive ModuleLoadError where
  | failed (message : String)
  | compileThrew
deriving DecidableEq, Repr

/-- How reading and compiling a file goes. -/
structure FileAttempt where
  /-- `read_to_string`. -/
  read : Except String Unit
  /-- `compile_module` or `compile_json_module`. -/
  compiles : Bool
  /-- The string for the module private is allocated. -/
  stored : Bool

/-- An import, as the load hook sees it. -/
structure Request (P : Type) where
  specifier : String
  type : ModuleType
  /-- `referrer_base_dir`. -/
  base : Option P
  attempt : FileAttempt

/-- The step at which the registration of a native or synthetic module fails. -/
inductive BuildFailure where
  | compile | load | link | evaluate | environment | populate
deriving DecidableEq, Repr

namespace ModuleState

variable {P : Type} (files : ModuleFiles P)

/-- The module state of a runtime whose loader was initialized. -/
def initial : ModuleState P := ⟨fun _ => none, none, [], 0, [], none⟩

/-- `registry.insert(key, module)`. -/
def insert (s : ModuleState P) (key : String) (module : ℕ) : ModuleState P :=
  { s with registry := Function.update s.registry key (some module) }

/-- `registry.remove(key)`. -/
def remove (s : ModuleState P) (key : String) : ModuleState P :=
  { s with registry := Function.update s.registry key none }

/-- Compile a module. Its number is that of the modules before it. -/
def compile (s : ModuleState P) (object : ModuleObject P) : ModuleState P :=
  { s with objects := s.objects ++ [object] }

/-- `resolve_file_module`. -/
def resolveFileModule (s : ModuleState P) (specifier : String) (base : Option P) (kind : ModuleKind)
    (attempt : FileAttempt) : Except ModuleLoadError ℕ × ModuleState P :=
  match base with
  | none => (.error (.failed s!"Module '{specifier}' not found (no base path configured)"), s)
  | some dir =>
    match files.canonical dir specifier with
    | .error e => (.error (.failed s!"Cannot resolve module '{specifier}': {e}"), s)
    | .ok path =>
      let key := files.toStringLossy path
      -- a `.json` file imported as JavaScript is refused rather than compiled as a script
      if kind = .javaScript ∧ files.isJson path = true then
        (.error (.failed (s!"Cannot import '{specifier}' as JavaScript: it resolves to the JSON " ++
          s!"file '{key}'. " ++ "Import it with `with \x7b type: \"json\" \x7d`.")), s)
      else
        match s.registry (files.cacheKey path kind) with
        | some module => (.ok module, s)
        | none =>
          match attempt.read with
          | .error e => (.error (.failed s!"Failed to read '{key}': {e}"), s)
          | .ok () =>
            if key.toList.contains (Char.ofNat 0) then (.error (.failed "Invalid filename"), s)
            else if !attempt.compiles then (.error .compileThrew, s)
            else if kind = .javaScript ∧ attempt.stored = false then
              (.error (.failed "Failed to allocate module path string"), s)
            else
              (.ok s.objects.length,
                (s.compile ⟨kind, some path⟩).insert (files.cacheKey path kind) s.objects.length)

/-- The registry's module for an import by name: a JavaScript import may name a registered module
or a canonical path. -/
def cached (s : ModuleState P) (specifier : String) (kind : ModuleKind) : Option ℕ :=
  if kind = .javaScript ∧ isJsonKey specifier = false then s.registry specifier else none

/-- `module_load_hook`, for a type of module that it supports. -/
def loadModule (s : ModuleState P) (r : Request P) (kind : ModuleKind) :
    Except ModuleLoadError ℕ × ModuleState P :=
  match s.cached r.specifier kind with
  | some module => (.ok module, s)
  | none => s.resolveFileModule files r.specifier r.base kind r.attempt

/-- The file that an import is of: the one that a registered module was compiled from, or the one
that the specifier resolves to. -/
def importedFile (s : ModuleState P) (r : Request P) (kind : ModuleKind) : Option P :=
  match s.cached r.specifier kind with
  | some module => s.objects[module]?.bind (·.file)
  | none => r.base.bind fun dir => (files.canonical dir r.specifier).toOption

/-- `module_load_hook`: the module that is handed over, or why there is none. -/
def moduleLoadHook (s : ModuleState P) (r : Request P) :
    Except ModuleLoadError ℕ × ModuleState P :=
  match r.type with
  | .javaScript => s.loadModule files r .javaScript
  | .json => s.loadModule files r .json
  | .other =>
    (.error (.failed (s!"Cannot import '{r.specifier}': only JavaScript and JSON modules are " ++
      "supported")), s)

/-- Import a module, for the record. -/
def importModule (s : ModuleState P) (r : Request P) : ModuleState P :=
  let kind := if r.type = .json then .json else .javaScript
  match s.moduleLoadHook files r with
  | (.ok module, t) =>
    { t with imports := t.imports ++ [⟨s.epoch, kind, s.importedFile files r kind, module⟩] }
  | (.error _, t) => t

/-- The steps that `register_module` and `register_synthetic_module` have in common: compile the
generated source, store the module, and link, evaluate and populate it. -/
def register (s : ModuleState P) (name : String) (failure : Option BuildFailure) :
    Bool × ModuleState P :=
  if failure = some .compile then (false, s)
  else
    -- the module is in the registry before the steps that may fail
    let s := (s.compile ⟨.javaScript, none⟩).insert name s.objects.length
    if failure.isSome then (false, s.remove name) else (true, s)

/-- `register_module`, for the name of a native module. -/
def registerModule (s : ModuleState P) (name : String) (failure : Option BuildFailure) :
    Bool × ModuleState P :=
  s.register name failure

/-- `register_synthetic_module`. -/
def registerSyntheticModule (s : ModuleState P) (name : String) (failure : Option BuildFailure) :
    Bool × ModuleState P :=
  s.register name failure

/-- A module becomes the entry under a key, and later imports are compared with each other only. -/
def becomeEntry (s : ModuleState P) (key : String) (module : ℕ) : ModuleState P :=
  { s.insert key module with
    entry := some key, epoch := s.epoch + 1, entryModule := some module }

/-- `register_entry_module`, if the path's string is `stored` in the module. -/
def registerEntryModule (s : ModuleState P) (module : ℕ) (path : P) (stored : Bool) :
    Bool × ModuleState P :=
  if stored then (true, s.becomeEntry (files.toStringLossy path) module) else (false, s)

/-- `record_entry_module`. -/
def recordEntryModule (s : ModuleState P) (module : ℕ) (name : String) : ModuleState P :=
  s.becomeEntry name module

/-- `evaluate_module`, up to loading what the module requests: `path` is the canonical path of the
file name, if that is a path. -/
def evaluateModule (s : ModuleState P) (filename : String) (path : Option P)
    (compiles stored : Bool) : ModuleState P :=
  if !compiles then s
  else
    let t := s.compile ⟨.javaScript, path⟩
    match path with
    | some path => (t.registerEntryModule files s.objects.length path stored).2
    | none => t.recordEntryModule s.objects.length filename

/-- `entry_namespace`, as the module whose namespace it is. -/
def entryNamespace (s : ModuleState P) : Option ℕ := s.entry.bind s.registry

/-- `clear_module_registry`. -/
def clearModuleRegistry (s : ModuleState P) : ModuleState P :=
  { s with registry := fun _ => none, epoch := s.epoch + 1, entryModule := none }

end ModuleState

/-! ### The machine -/

/-- What is done with the loader of a runtime. -/
inductive ModuleEvent (P : Type) where
  | registerModule (name : String) (failure : Option BuildFailure)
  | registerSyntheticModule (name : String) (failure : Option BuildFailure)
  | evaluateModule (filename : String) (path : Option P) (compiles stored : Bool)
  | importModule (r : Request P)
  | clearModuleRegistry

/-- The loader of a runtime. -/
def moduleMachine {P : Type} (files : ModuleFiles P) :
    Machine Empty Unit (ModuleState P) (ModuleEvent P) where
  step s
    | .registerModule name failure => .ok (s.registerModule name failure).2
    | .registerSyntheticModule name failure => .ok (s.registerSyntheticModule name failure).2
    | .evaluateModule filename path compiles stored =>
      .ok (s.evaluateModule files filename path compiles stored)
    | .importModule r => .ok (s.importModule files r)
    | .clearModuleRegistry => .ok s.clearModuleRegistry

/-- The event makes an entry module, or clears the registry. -/
def ModuleEvent.Enters {P : Type} : ModuleEvent P → Prop
  | .evaluateModule _ path compiles stored => compiles = true ∧ (path.isSome = true → stored = true)
  | .clearModuleRegistry => True
  | _ => False

section Keeping

variable {P : Type} (files : ModuleFiles P)

/-- What the loader keeps. -/
structure ModuleState.Kept (s : ModuleState P) : Prop where
  /-- Between two clears or entry registrations an import of a file as a kind of module gets the
  same module again, and any other import of a file gets another one. -/
  identity : ∀ i ∈ s.imports, ∀ j ∈ s.imports, i.epoch = j.epoch → ∀ p q, i.file = some p →
    j.file = some q → (i.module = j.module ↔ p = q ∧ i.kind = j.kind)
  /-- An import gets a module of its kind. -/
  kind : ∀ i ∈ s.imports, ∃ o, s.objects[i.module]? = some o ∧ o.kind = i.kind
  /-- The entry's namespace is that of the module that was recorded last. -/
  entry : ∀ m, s.entryModule = some m → s.entryNamespace = some m

/-- A module is registered under a name without disturbing others: the name is no JSON module's,
and it is a new one, or the name of no file and not the entry's, and the registration succeeds. -/
def ModuleState.ApartName (s : ModuleState P) (name : String) (failure : Option BuildFailure) :
    Prop :=
  (∀ p, name ≠ files.cacheKey p .json) ∧
    (s.registry name = none ∨ failure = some .compile ∨
      failure = none ∧ s.entry ≠ some name ∧ ∀ p, name ≠ files.cacheKey p .javaScript)

/-- The steps that keep modules apart. -/
def Apart (s : ModuleState P) : ModuleEvent P → Prop
  | .registerModule name failure | .registerSyntheticModule name failure =>
    s.ApartName files name failure
  | .evaluateModule filename path _ _ =>
    path.elim (∀ p, filename ≠ files.cacheKey p .json) fun p => files.isText p = true
  | .importModule r => ∀ dir p, r.base = some dir → files.canonical dir r.specifier = .ok p →
    files.isText p = true
  | .clearModuleRegistry => True

/-- What becomes of the entry's namespace. -/
structure ModuleState.Reads (s : ModuleState P) : Prop where
  /-- `register_entry_module` and `record_entry_module` make it that of their module. -/
  registers : ∀ module path, ∃ t, s.registerEntryModule files module path true = (true, t) ∧
    t.entryNamespace = some module
  records : ∀ module name, (s.recordEntryModule module name).entryNamespace = some module
  /-- An entry whose path is not stored is refused, and changes nothing. -/
  refused : ∀ module path, s.registerEntryModule files module path false = (false, s)
  /-- It stays until the next entry or clear. -/
  stays : ∀ e t m, Apart files s e → ¬ e.Enters → (moduleMachine files).step s e = .ok t →
    s.entryNamespace = some m → t.entryNamespace = some m

/-! ### Keys -/

variable {files} {s t : ModuleState P}

variable (files) in
theorem isJsonKey_cacheKey (p : P) : isJsonKey (files.cacheKey p .json) = true := by
  rw [isJsonKey, ModuleFiles.cacheKey, String.toList_append, List.isPrefixOf_iff_prefix]
  exact List.prefix_append _ _

theorem ModuleFiles.Lawful.cacheKey_eq (h : files.Lawful) {p q : P} {k l : ModuleKind}
    (hp : files.isText p = true) (hq : files.isText q = true)
    (heq : files.cacheKey p k = files.cacheKey q l) : p = q ∧ k = l := by
  cases k with
  | javaScript =>
    cases l with
    | javaScript => exact ⟨h.text p q hp hq heq, rfl⟩
    | json =>
      have hjson := isJsonKey_cacheKey files q
      rw [← heq, ModuleFiles.cacheKey, h.noJson p] at hjson
      cases hjson
  | json =>
    cases l with
    | javaScript =>
      have hjson := isJsonKey_cacheKey files p
      rw [heq, ModuleFiles.cacheKey, h.noJson q] at hjson
      cases hjson
    | json =>
      simp only [ModuleFiles.cacheKey, String.append_right_inj] at heq
      exact ⟨h.text p q hp hq heq, rfl⟩

/-! ### What is registered -/

variable (files) in
/-- The registry, the modules that were compiled and the record of the imports agree. -/
structure Registered (s : ModuleState P) : Prop where
  bound : ∀ k m, s.registry k = some m → m < s.objects.length
  /-- A module is registered once. -/
  once : ∀ k l m, s.registry k = some m → s.registry l = some m → k = l
  /-- JSON modules have the keys that are kept for them. -/
  kind : ∀ k m o, s.registry k = some m → s.objects[m]? = some o →
    (o.kind = .json ↔ ∃ p, k = files.cacheKey p .json)
  /-- The module of a file has the key of the file. -/
  file : ∀ k m o p, s.registry k = some m → s.objects[m]? = some o → o.file = some p →
    k = files.cacheKey p o.kind ∧ files.isText p = true
  entry : ∀ m, s.entryModule = some m → ∃ k, s.entry = some k ∧ s.registry k = some m
  imports : ∀ i ∈ s.imports, i.epoch ≤ s.epoch ∧ i.module < s.objects.length ∧
    ∃ o, s.objects[i.module]? = some o ∧ o.kind = i.kind
  /-- What was imported since the last clear or entry registration is still registered. -/
  current : ∀ i ∈ s.imports, i.epoch = s.epoch → ∀ p, i.file = some p →
    files.isText p = true ∧ s.registry (files.cacheKey p i.kind) = some i.module
  identity : ∀ i ∈ s.imports, ∀ j ∈ s.imports, i.epoch = j.epoch → ∀ p q, i.file = some p →
    j.file = some q → (i.module = j.module ↔ p = q ∧ i.kind = j.kind)

theorem Registered.kept (h : Registered files s) : s.Kept where
  identity := h.identity
  kind := fun i hi => (h.imports i hi).2.2
  entry := fun m hm => by
    obtain ⟨k, hk, hm⟩ := h.entry m hm
    rw [ModuleState.entryNamespace, hk]
    exact hm

theorem registered_initial : Registered files (ModuleState.initial : ModuleState P) where
  bound := by rintro k m ⟨⟩
  once := by rintro k l m ⟨⟩
  kind := by rintro k m o ⟨⟩
  file := by rintro k m o p ⟨⟩
  entry := by rintro m ⟨⟩
  imports := by intros; contradiction
  current := by intros; contradiction
  identity := by intros; contradiction

theorem getElem?_compile {o : ModuleObject P} {m : ℕ} (hm : m < s.objects.length) :
    (s.objects ++ [o])[m]? = s.objects[m]? :=
  List.getElem?_append_left hm

/-- A module is compiled. -/
theorem Registered.compile (h : Registered files s) (o : ModuleObject P) :
    Registered files (s.compile o) where
  bound := fun k m hm => by
    have hlt := h.bound k m hm
    simp only [ModuleState.compile, List.length_append, List.length_singleton]
    omega
  once := h.once
  kind := fun k m o' hm ho => by
    rw [ModuleState.compile, getElem?_compile (h.bound k m hm)] at ho
    exact h.kind k m o' hm ho
  file := fun k m o' p hm ho => by
    rw [ModuleState.compile, getElem?_compile (h.bound k m hm)] at ho
    exact h.file k m o' p hm ho
  entry := h.entry
  imports := fun i hi => by
    obtain ⟨hle, hlt, ho⟩ := h.imports i hi
    rw [ModuleState.compile, getElem?_compile hlt]
    refine ⟨hle, ?_, ho⟩
    simp only [List.length_append, List.length_singleton]
    omega
  current := h.current
  identity := h.identity

/-- A module that was compiled is stored under a key that is not the entry's, and not that of a file
that was imported. -/
theorem Registered.store (h : Registered files s) {o : ModuleObject P} {key : String}
    (hkind : o.kind = .json ↔ ∃ p, key = files.cacheKey p .json)
    (hfile : ∀ p, o.file = some p → key = files.cacheKey p o.kind ∧ files.isText p = true)
    (hentry : ∀ m, s.entryModule = some m → s.entry = some key → s.registry key = none)
    (hcurrent : ∀ i ∈ s.imports, i.epoch = s.epoch → ∀ p, i.file = some p →
      key = files.cacheKey p i.kind → s.registry key = none) :
    Registered files ((s.compile o).insert key s.objects.length) := by
  have hc := h.compile o
  -- the table is as before under the other keys
  have hkey (k : String) (m : ℕ)
      (hm : ((s.compile o).insert key s.objects.length).registry k = some m) :
      k = key ∧ m = s.objects.length ∨ k ≠ key ∧ s.registry k = some m := by
    by_cases hk : k = key
    · subst hk
      simp only [ModuleState.insert, Function.update_self, Option.some.injEq] at hm
      exact .inl ⟨rfl, hm.symm⟩
    · simp only [ModuleState.insert, Function.update_of_ne hk] at hm
      exact .inr ⟨hk, hm⟩
  have hother {k : String} (hk : k ≠ key) :
      ((s.compile o).insert key s.objects.length).registry k = s.registry k :=
    Function.update_of_ne hk ..
  have hnew : ((s.compile o).insert key s.objects.length).objects[s.objects.length]? = some o :=
    List.getElem?_concat_length
  refine { hc with bound := ?_, once := ?_, kind := ?_, file := ?_, entry := ?_, current := ?_ }
  · intro k m hm
    rcases hkey k m hm with ⟨-, rfl⟩ | ⟨-, hm⟩
    · simp [ModuleState.insert, ModuleState.compile]
    · exact hc.bound k m hm
  -- a module is under one key: the new one is under none yet
  · intro k l m hk hl
    rcases hkey k m hk with ⟨rfl, rfl⟩ | ⟨-, hk⟩
    · rcases hkey l _ hl with ⟨rfl, -⟩ | ⟨-, hl⟩
      · rfl
      · exact absurd (h.bound l _ hl) (lt_irrefl _)
    · rcases hkey l _ hl with ⟨-, rfl⟩ | ⟨-, hl⟩
      · exact absurd (h.bound k _ hk) (lt_irrefl _)
      · exact h.once k l m hk hl
  · intro k m o' hm ho
    rcases hkey k m hm with ⟨rfl, rfl⟩ | ⟨-, hm⟩
    · rw [hnew] at ho
      obtain rfl := Option.some.inj ho
      exact hkind
    · exact hc.kind k m o' hm ho
  · intro k m o' p hm ho hp
    rcases hkey k m hm with ⟨rfl, rfl⟩ | ⟨-, hm⟩
    · rw [hnew] at ho
      obtain rfl := Option.some.inj ho
      exact hfile p hp
    · exact hc.file k m o' p hm ho hp
  -- an entry or an import keeps its key, which was not free
  · intro m hmodule
    obtain ⟨k, hk, hm⟩ := h.entry m hmodule
    refine ⟨k, hk, ?_⟩
    rw [hother, hm]
    rintro rfl
    rw [hentry m hmodule hk] at hm
    cases hm
  · intro i hi hepoch p hp
    obtain ⟨htext, hm⟩ := h.current i hi hepoch p hp
    refine ⟨htext, ?_⟩
    rw [hother, hm]
    intro heq
    rw [heq, hcurrent i hi hepoch p hp heq.symm] at hm
    cases hm

/-- What the loader was used for before is of no concern any more. -/
theorem Registered.next (h : Registered files s) :
    Registered files { s with epoch := s.epoch + 1, entryModule := none } :=
  { h with
    entry := by rintro m ⟨⟩
    imports := fun i hi => ⟨(h.imports i hi).1.trans (Nat.le_succ _), (h.imports i hi).2⟩
    current := fun i hi hepoch => by
      have hle := (h.imports i hi).1
      rw [hepoch] at hle
      exact absurd hle (Nat.not_succ_le_self _) }

theorem Registered.clear (h : Registered files s) : Registered files s.clearModuleRegistry :=
  { h.next with
    bound := by rintro k m ⟨⟩
    once := by rintro k l m ⟨⟩
    kind := by rintro k m o ⟨⟩
    file := by rintro k m o p ⟨⟩
    entry := by rintro m ⟨⟩
    current := fun i hi hepoch => absurd hepoch (by
      have hle := (h.imports i hi).1
      simp only [ModuleState.clearModuleRegistry]
      omega) }

/-- A module that was compiled becomes the entry. -/
theorem Registered.becomeEntry (h : Registered files s) {o : ModuleObject P} {key : String}
    (hkind : o.kind = .json ↔ ∃ p, key = files.cacheKey p .json)
    (hfile : ∀ p, o.file = some p → key = files.cacheKey p o.kind ∧ files.isText p = true) :
    Registered files ((s.compile o).becomeEntry key s.objects.length) := by
  have hstore := h.next.store hkind hfile (by rintro m ⟨⟩) fun i hi hepoch => absurd hepoch (by
    have hle := (h.imports i hi).1
    simp only
    omega)
  exact { hstore with
    entry := fun m hm => ⟨key, rfl, by
      obtain rfl := Option.some.inj hm
      exact Function.update_self ..⟩ }

/-! ### Steps -/

theorem Registered.evaluateModule (hfiles : files.Lawful) (h : Registered files s)
    {filename : String} {path : Option P} {compiles stored : Bool}
    (hapart : Apart files s (.evaluateModule filename path compiles stored)) :
    Registered files (s.evaluateModule files filename path compiles stored) := by
  rw [ModuleState.evaluateModule]
  split
  · exact h
  · cases path with
    | none =>
      refine h.becomeEntry ⟨by rintro ⟨⟩, ?_⟩ (by rintro p ⟨⟩)
      rintro ⟨p, hp⟩
      exact absurd hp (hapart p)
    | some path =>
      simp only [ModuleState.registerEntryModule]
      split
      · refine h.becomeEntry ⟨by rintro ⟨⟩, ?_⟩ ?_
        · rintro ⟨p, hp⟩
          have hjson := isJsonKey_cacheKey files p
          rw [← hp, hfiles.noJson path] at hjson
          cases hjson
        · rintro p ⟨⟩
          exact ⟨rfl, hapart⟩
      · exact h.compile _

/-- Storing and removing a module under a new name changes nothing. -/
theorem ModuleState.remove_insert {name : String} (hnew : s.registry name = none) (m : ℕ) :
    (s.insert name m).remove name = s := by
  simp only [ModuleState.insert, ModuleState.remove, Function.update_idem]
  rw [Function.update_eq_self_iff.mpr hnew.symm]

theorem Registered.register (h : Registered files s) {name : String} {failure : Option BuildFailure}
    (hapart : s.ApartName files name failure) : Registered files (s.register name failure).2 := by
  obtain ⟨hjson, hname⟩ := hapart
  rw [ModuleState.register]
  split
  next => exact h
  next hcompiled =>
    dsimp only
    split
    next hfailed =>
      have hnew : s.registry name = none := by
        rcases hname with hnew | hcompile | ⟨rfl, -⟩
        · exact hnew
        · exact absurd hcompile hcompiled
        · cases hfailed
      rw [ModuleState.remove_insert (s := s.compile _) hnew]
      exact h.compile _
    next =>
      have hcases : s.registry name = none ∨
          s.entry ≠ some name ∧ ∀ p, name ≠ files.cacheKey p .javaScript := by
        rcases hname with hnew | hcompile | ⟨-, hname⟩
        · exact .inl hnew
        · exact absurd hcompile hcompiled
        · exact .inr hname
      refine h.store ⟨by rintro ⟨⟩, fun ⟨p, hp⟩ => absurd hp (hjson p)⟩ (by rintro p ⟨⟩) ?_ ?_
      · intro m _ hentry
        exact hcases.resolve_right fun hno => hno.1 hentry
      · intro i _ _ p _ hkey
        refine hcases.resolve_right fun hno => ?_
        cases hkind : i.kind with
        | javaScript => exact hno.2 p (by rw [hkey, hkind])
        | json => exact hjson p (by rw [hkey, hkind])

/-- An import is recorded. -/
theorem Registered.record (h : Registered files s) (hfiles : files.Lawful) {kind : ModuleKind}
    {file : Option P} {m : ℕ} (hkind : ∃ o, s.objects[m]? = some o ∧ o.kind = kind)
    (hfile : ∀ p, file = some p →
      files.isText p = true ∧ s.registry (files.cacheKey p kind) = some m) :
    Registered files { s with imports := s.imports ++ [⟨s.epoch, kind, file, m⟩] } := by
  have hcurrent (i : Import P) (hi : i ∈ s.imports ++ [⟨s.epoch, kind, file, m⟩])
      (hepoch : i.epoch = s.epoch) (p : P) (hp : i.file = some p) :
      files.isText p = true ∧ s.registry (files.cacheKey p i.kind) = some i.module := by
    rcases List.mem_append.mp hi with hi | hi
    · exact h.current i hi hepoch p hp
    · obtain rfl := List.mem_singleton.mp hi
      exact hfile p hp
  -- two imports of this epoch are compared by what is registered for them
  have hpair (i j : Import P) (hi : i ∈ s.imports ++ [⟨s.epoch, kind, file, m⟩])
      (hj : j ∈ s.imports ++ [⟨s.epoch, kind, file, m⟩]) (hei : i.epoch = s.epoch)
      (hej : j.epoch = s.epoch) (p q : P) (hp : i.file = some p) (hq : j.file = some q) :
      i.module = j.module ↔ p = q ∧ i.kind = j.kind := by
    obtain ⟨hpt, hpm⟩ := hcurrent i hi hei p hp
    obtain ⟨hqt, hqm⟩ := hcurrent j hj hej q hq
    constructor
    · intro heq
      rw [heq] at hpm
      exact hfiles.cacheKey_eq hpt hqt (h.once _ _ _ hpm hqm)
    · rintro ⟨rfl, hk⟩
      rw [hk, hqm] at hpm
      exact (Option.some.inj hpm).symm
  refine { h with imports := ?_, current := hcurrent, identity := ?_ }
  · intro i hi
    rcases List.mem_append.mp hi with hi | hi
    · exact h.imports i hi
    · obtain rfl := List.mem_singleton.mp hi
      obtain ⟨o, ho, hk⟩ := hkind
      exact ⟨le_rfl, (List.getElem?_eq_some_iff.mp ho).1, o, ho, hk⟩
  · intro i hi j hj hepoch p q hp hq
    by_cases hei : i.epoch = s.epoch
    · exact hpair i j hi hj hei (hepoch ▸ hei) p q hp hq
    · have hold {k : Import P} (hk : k ∈ s.imports ++ [⟨s.epoch, kind, file, m⟩])
          (hne : k.epoch ≠ s.epoch) : k ∈ s.imports := by
        rcases List.mem_append.mp hk with hk | hk
        · exact hk
        · exact absurd (by rw [List.mem_singleton.mp hk]) hne
      exact h.identity i (hold hi hei) j (hold hj (hepoch ▸ hei)) hepoch p q hp hq

/-- A JavaScript import by name gets a registered module. -/
theorem Registered.cached (h : Registered files s) {specifier : String} {kind : ModuleKind} {m : ℕ}
    (hm : s.cached specifier kind = some m) :
    kind = .javaScript ∧ s.registry specifier = some m ∧
      ∃ o, s.objects[m]? = some o ∧ o.kind = kind := by
  rw [ModuleState.cached] at hm
  split at hm
  · rename_i hname
    obtain ⟨rfl, hname⟩ := hname
    have hlt := h.bound _ m hm
    refine ⟨rfl, hm, s.objects[m], List.getElem?_eq_getElem hlt, ?_⟩
    cases hkind : s.objects[m].kind with
    | javaScript => rfl
    | json =>
      obtain ⟨p, rfl⟩ := (h.kind _ m _ hm (List.getElem?_eq_getElem hlt)).mp hkind
      rw [isJsonKey_cacheKey] at hname
      cases hname
  · cases hm

/-- The module that is registered for a file has the kind that its key says. -/
theorem Registered.kind_cacheKey (hfiles : files.Lawful) (h : Registered files s) {p : P}
    {kind : ModuleKind} {m : ℕ} (hm : s.registry (files.cacheKey p kind) = some m) :
    ∃ o, s.objects[m]? = some o ∧ o.kind = kind := by
  have hlt := h.bound _ m hm
  have hkind := h.kind _ m _ hm (List.getElem?_eq_getElem hlt)
  refine ⟨s.objects[m], List.getElem?_eq_getElem hlt, ?_⟩
  cases kind with
  | json => exact hkind.mpr ⟨p, rfl⟩
  | javaScript =>
    cases ho : s.objects[m].kind with
    | javaScript => rfl
    | json =>
      obtain ⟨q, hq⟩ := hkind.mp ho
      have hjson := isJsonKey_cacheKey files q
      rw [← hq, ModuleFiles.cacheKey, hfiles.noJson p] at hjson
      cases hjson

/-- **What resolving a module leads to.** Nothing, or the module that is registered for the file
that the specifier resolves to. -/
theorem Registered.resolveFileModule (hfiles : files.Lawful) (h : Registered files s)
    {specifier : String} {base : Option P} {kind : ModuleKind} {attempt : FileAttempt}
    (htext : ∀ dir p, base = some dir → files.canonical dir specifier = .ok p →
      files.isText p = true) {result : Except ModuleLoadError ℕ} {t : ModuleState P}
    (heq : s.resolveFileModule files specifier base kind attempt = (result, t)) :
    Registered files t ∧ t.epoch = s.epoch ∧ ∀ m, result = .ok m → ∃ dir p, base = some dir ∧
      files.canonical dir specifier = .ok p ∧ t.registry (files.cacheKey p kind) = some m := by
  have hfailed {e : ModuleLoadError} (heq : (.error e, s) = (result, t)) :
      Registered files t ∧ t.epoch = s.epoch ∧ ∀ m, result = .ok m → ∃ dir p, base = some dir ∧
        files.canonical dir specifier = .ok p ∧ t.registry (files.cacheKey p kind) = some m := by
    obtain ⟨rfl, rfl⟩ := Prod.mk.inj heq
    exact ⟨h, rfl, by rintro m ⟨⟩⟩
  rw [ModuleState.resolveFileModule.eq_def] at heq
  rcases base with - | dir
  · exact hfailed heq
  rcases hpath : files.canonical dir specifier with e | path
  · simp only [hpath] at heq
    exact hfailed heq
  simp only [hpath] at heq
  split at heq
  next => exact hfailed heq
  next =>
    -- the file is read only if the table has no module for it
    rcases hcached : s.registry (files.cacheKey path kind) with - | m
    · simp only [hcached] at heq
      rcases hread : attempt.read with e | _
      · simp only [hread] at heq
        exact hfailed heq
      simp only [hread] at heq
      split at heq
      next => exact hfailed heq
      -- it is text, it compiles, and it is stored
      next =>
        split at heq
        next => exact hfailed heq
        next =>
          split at heq
          next => exact hfailed heq
          next =>
            obtain ⟨rfl, rfl⟩ := Prod.mk.inj heq
            refine ⟨h.store ?_ ?_ (fun _ _ _ => hcached) (fun _ _ _ _ _ _ => hcached), rfl, ?_⟩
            · cases kind with
              | json => exact ⟨fun _ => ⟨path, rfl⟩, fun _ => rfl⟩
              | javaScript =>
                refine ⟨by rintro ⟨⟩, fun ⟨q, hq⟩ => ?_⟩
                have hjson := isJsonKey_cacheKey files q
                rw [← hq, ModuleFiles.cacheKey, hfiles.noJson path] at hjson
                cases hjson
            · rintro p ⟨⟩
              exact ⟨rfl, htext dir path rfl hpath⟩
            · rintro m ⟨⟩
              exact ⟨dir, path, rfl, hpath, Function.update_self ..⟩
    · simp only [hcached] at heq
      obtain ⟨rfl, rfl⟩ := Prod.mk.inj heq
      refine ⟨h, rfl, ?_⟩
      rintro m ⟨⟩
      exact ⟨dir, path, rfl, hpath, hcached⟩

/-- **What loading a module leads to.** -/
theorem Registered.loadModule (hfiles : files.Lawful) (h : Registered files s) {r : Request P}
    {kind : ModuleKind}
    (htext : ∀ dir p, r.base = some dir → files.canonical dir r.specifier = .ok p →
      files.isText p = true) {result : Except ModuleLoadError ℕ} {t : ModuleState P}
    (heq : s.loadModule files r kind = (result, t)) :
    Registered files t ∧ t.epoch = s.epoch ∧ ∀ m, result = .ok m →
      (∃ o, t.objects[m]? = some o ∧ o.kind = kind) ∧
        ∀ p, s.importedFile files r kind = some p →
          files.isText p = true ∧ t.registry (files.cacheKey p kind) = some m := by
  rw [ModuleState.loadModule] at heq
  rcases hcached : s.cached r.specifier kind with - | m
  · simp only [hcached] at heq
    obtain ⟨ht, hepoch, hresult⟩ := h.resolveFileModule hfiles htext heq
    refine ⟨ht, hepoch, fun m hm => ?_⟩
    obtain ⟨dir, path, hbase, hpath, hreg⟩ := hresult m hm
    refine ⟨ht.kind_cacheKey hfiles hreg, fun p hp => ?_⟩
    simp only [ModuleState.importedFile, hcached, hbase, hpath, Except.toOption,
      Option.bind_some, Option.some.injEq] at hp
    obtain rfl := hp
    exact ⟨htext dir path hbase hpath, hreg⟩
  · simp only [hcached] at heq
    obtain ⟨rfl, rfl⟩ := Prod.mk.inj heq
    obtain ⟨-, hm, o, ho, hkind⟩ := h.cached hcached
    refine ⟨h, rfl, ?_⟩
    rintro m ⟨⟩
    refine ⟨⟨o, ho, hkind⟩, fun p hp => ?_⟩
    simp only [ModuleState.importedFile, hcached, ho, Option.bind_some] at hp
    obtain ⟨hkey, htext⟩ := h.file _ _ o p hm ho hp
    rw [hkind] at hkey
    exact ⟨htext, by rw [← hkey]; exact hm⟩

theorem Registered.importModule (hfiles : files.Lawful) (h : Registered files s) {r : Request P}
    (hapart : Apart files s (.importModule r)) : Registered files (s.importModule files r) := by
  have hload (kind : ModuleKind) (hhook : s.moduleLoadHook files r = s.loadModule files r kind)
      (hkind : (if r.type = .json then .json else .javaScript) = kind) :
      Registered files (s.importModule files r) := by
    rcases hresult : s.loadModule files r kind with ⟨result, t⟩
    obtain ⟨ht, hepoch, hmodule⟩ := h.loadModule hfiles hapart hresult
    rw [ModuleState.importModule, hhook, hresult, hkind]
    rcases result with e | m
    · exact ht
    · obtain ⟨hkind, hfile⟩ := hmodule m rfl
      simp only [← hepoch]
      exact ht.record hfiles hkind hfile
  rcases htype : r.type with - | - | -
  · exact hload .javaScript (by rw [ModuleState.moduleLoadHook, htype]) (by rw [htype]; rfl)
  · exact hload .json (by rw [ModuleState.moduleLoadHook, htype]) (by rw [htype]; rfl)
  · rw [ModuleState.importModule, ModuleState.moduleLoadHook, htype]
    exact h

/-- A registration that fails leaves the registry as it was if it does not compile, or the name was
a new one. -/
theorem register_registry_eq_iff {name : String} {failure : Option BuildFailure}
    (hfailed : failure ≠ none) : (s.register name failure).2.registry = s.registry ↔
      failure = some .compile ∨ s.registry name = none := by
  rw [ModuleState.register]
  split
  next hcompile => exact ⟨fun _ => .inl hcompile, fun _ => rfl⟩
  next hcompiled =>
    simp only [Option.isSome_iff_ne_none.mpr hfailed, if_true]
    constructor
    · intro heq
      refine .inr ?_
      rw [← heq]
      exact Function.update_self ..
    · intro hname
      have hnew := hname.resolve_left hcompiled
      rw [ModuleState.remove_insert (s := s.compile _) hnew]
      rfl

/-! ### The entry -/

theorem entryNamespace_becomeEntry (s : ModuleState P) (key : String) (m : ℕ) :
    (s.becomeEntry key m).entryNamespace = some m :=
  Function.update_self ..

/-- A module is stored under a key that is not the entry's. -/
theorem entryNamespace_insert {key : String} {n m : ℕ} (hm : s.entryNamespace = some m)
    (hkey : s.entry = some key → s.registry key = none) :
    (s.insert key n).entryNamespace = some m := by
  obtain ⟨entry, hentry, hregistry⟩ := Option.bind_eq_some_iff.mp hm
  have hne : entry ≠ key := by
    rintro rfl
    cases hregistry.symm.trans (hkey hentry)
  refine Option.bind_eq_some_iff.mpr ⟨entry, hentry, ?_⟩
  exact (Function.update_of_ne hne _ _).trans hregistry

theorem entryNamespace_register {name : String} {failure : Option BuildFailure} {m : ℕ}
    (hapart : s.ApartName files name failure) (hm : s.entryNamespace = some m) :
    (s.register name failure).2.entryNamespace = some m := by
  rw [ModuleState.register]
  split
  next => exact hm
  next hcompiled =>
    dsimp only
    split
    next hfailed =>
      have hnew : s.registry name = none := by
        rcases hapart.2 with hnew | hcompile | ⟨rfl, -⟩
        · exact hnew
        · exact absurd hcompile hcompiled
        · cases hfailed
      rw [ModuleState.remove_insert (s := s.compile _) hnew]
      exact hm
    next =>
      refine entryNamespace_insert (s := s.compile _) hm fun hentry => ?_
      rcases hapart.2 with hnew | hcompile | ⟨-, hno, -⟩
      · exact hnew
      · exact absurd hcompile hcompiled
      · exact absurd hentry hno

/-- A file's module is found, or it is new and stored under a key that is free. -/
theorem resolveFileModule_cases (s : ModuleState P) (specifier : String) (base : Option P)
    (kind : ModuleKind) (attempt : FileAttempt) :
    (s.resolveFileModule files specifier base kind attempt).2 = s ∨ ∃ o key,
      s.registry key = none ∧ (s.resolveFileModule files specifier base kind attempt).2 =
        (s.compile o).insert key s.objects.length := by
  rw [ModuleState.resolveFileModule.eq_def]
  rcases base with - | dir
  · exact .inl rfl
  rcases hpath : files.canonical dir specifier with e | path
  · exact .inl (by simp only [hpath])
  simp only [hpath]
  split
  next => exact .inl rfl
  next =>
    rcases hcached : s.registry (files.cacheKey path kind) with - | m
    · rcases attempt.read with e | _
      · exact .inl rfl
      dsimp only
      split
      next => exact .inl rfl
      next =>
        split
        next => exact .inl rfl
        next =>
          split
          next => exact .inl rfl
          next => exact .inr ⟨_, _, hcached, rfl⟩
    · exact .inl rfl

theorem entryNamespace_loadModule {r : Request P} {kind : ModuleKind} {m : ℕ}
    (hm : s.entryNamespace = some m) :
    (s.loadModule files r kind).2.entryNamespace = some m := by
  rw [ModuleState.loadModule]
  split
  · exact hm
  · rcases resolveFileModule_cases s r.specifier r.base kind r.attempt with
      heq | ⟨o, key, hkey, heq⟩
    · rw [heq]
      exact hm
    · rw [heq]
      exact entryNamespace_insert (s := s.compile o) hm fun _ => hkey

theorem entryNamespace_importModule {r : Request P} {m : ℕ} (hm : s.entryNamespace = some m) :
    (s.importModule files r).entryNamespace = some m := by
  have hhook : (s.moduleLoadHook files r).2.entryNamespace = some m := by
    rw [ModuleState.moduleLoadHook]
    split
    · exact entryNamespace_loadModule hm
    · exact entryNamespace_loadModule hm
    · exact hm
  rw [ModuleState.importModule]
  split
  all_goals
    rename_i heq
    rw [heq] at hhook
    exact hhook

theorem reads (s : ModuleState P) : s.Reads files where
  registers := fun module path =>
    ⟨s.becomeEntry (files.toStringLossy path) module, rfl, entryNamespace_becomeEntry ..⟩
  records := fun module name => entryNamespace_becomeEntry s name module
  refused := fun _ _ => rfl
  stays := by
    intro e t m hapart henters hstep hm
    cases e with
    | registerModule name failure =>
      cases hstep
      exact entryNamespace_register hapart hm
    | registerSyntheticModule name failure =>
      cases hstep
      exact entryNamespace_register hapart hm
    | importModule r =>
      cases hstep
      exact entryNamespace_importModule hm
    | clearModuleRegistry => exact absurd trivial henters
    | evaluateModule filename path compiles stored =>
      cases hstep
      rw [ModuleState.evaluateModule]
      split
      next => exact hm
      next hcompiles =>
        -- a file whose path is not stored
        have hcompiled : compiles = true := by simpa using hcompiles
        cases path with
        | none => exact absurd ⟨hcompiled, by simp⟩ henters
        | some path =>
          cases stored with
          | true => exact absurd ⟨hcompiled, fun _ => rfl⟩ henters
          | false => exact hm

/-! ### Runs -/

/-- **The module registry.** In every run of a loader that keeps its modules apart an import of a
file gets the same module until the next clear or entry registration, and no other import gets that;
imports get modules of their kind, and the entry's namespace is that of the last entry module. A
registration that fails leaves the registry as it was unless it fails to replace a module, and an
entry that is refused changes nothing. -/
theorem modules_kept (files : ModuleFiles P) (hfiles : files.Lawful) (t : ModuleState P)
    (hrun : (moduleMachine files).RunWhere (Apart files) .initial t) :
    t.Kept ∧ t.Reads files ∧ ∀ name failure, failure ≠ none →
      ((t.registerModule name failure).2.registry = t.registry ↔
        failure = some .compile ∨ t.registry name = none) ∧
      ((t.registerSyntheticModule name failure).2.registry = t.registry ↔
        failure = some .compile ∨ t.registry name = none) := by
  have ht : Registered files t := by
    refine hrun.inv_of_sat (E := fun _ => True) registered_initial fun s e hs hapart => ?_
    cases e with
    | registerModule name failure => exact hs.register hapart
    | registerSyntheticModule name failure => exact hs.register hapart
    | evaluateModule filename path compiles stored => exact hs.evaluateModule hfiles hapart
    | importModule r => exact hs.importModule hfiles hapart
    | clearModuleRegistry => exact hs.clear
  exact ⟨ht.kept, reads t, fun name failure hfailed =>
    ⟨register_registry_eq_iff hfailed, register_registry_eq_iff hfailed⟩⟩

end Keeping

/-- A file system in which every absolute path is canonical. -/
def plainFiles : ModuleFiles (List Char) where
  canonical _ specifier := .ok specifier.toList
  toStringLossy p := String.ofList ('/' :: p)
  isText _ := true
  isJson p := ".json".toList.isSuffixOf p

theorem plainFiles_lawful : plainFiles.Lawful where
  text p q _ _ h := (List.cons.inj (String.ofList_injective h)).2
  noJson p := by
    rw [isJsonKey, show plainFiles.toStringLossy p = String.ofList ('/' :: p) from rfl,
      String.toList_ofList, String.toList_ofList]
    rfl

/-- A native module, an entry, a file that is imported twice, another one, a JSON file and an import
of the native module. -/
theorem modules_kept_imports : ∃ t : ModuleState (List Char),
    (moduleMachine plainFiles).RunWhere (Apart plainFiles) .initial t ∧
      t.imports.map (·.module) = [2, 2, 3, 4, 0] ∧ t.entryNamespace = some 1 ∧ t.Kept := by
  have hjson : ∀ p, "test" ≠ plainFiles.cacheKey p .json := by
    intro p heq
    have hkey := isJsonKey_cacheKey plainFiles p
    rw [← heq] at hkey
    revert hkey
    decide
  obtain ⟨es, hmeets, hexec⟩ : ∃ es,
      (moduleMachine plainFiles).Meets (Apart plainFiles) .initial es ∧
      ((moduleMachine plainFiles).exec .initial es).any (fun t =>
        decide (t.imports.map (·.module) = [2, 2, 3, 4, 0] ∧ t.entryNamespace = some 1)) =
          true := by
    refine ⟨[.registerModule "test" none,
      .evaluateModule "main.js" (some "main.js".toList) true true,
      .importModule ⟨"a.js", .javaScript, some [], ⟨.ok (), true, true⟩⟩,
      .importModule ⟨"a.js", .javaScript, some [], ⟨.ok (), true, true⟩⟩,
      .importModule ⟨"b.js", .javaScript, some [], ⟨.ok (), true, true⟩⟩,
      .importModule ⟨"c.json", .json, some [], ⟨.ok (), true, true⟩⟩,
      .importModule ⟨"test", .javaScript, some [], ⟨.ok (), true, true⟩⟩], ?_, by decide⟩
    refine ⟨⟨hjson, .inl rfl⟩, fun s _ => ⟨rfl, fun s _ => Machine.meets_of_forall ?_⟩⟩
    intro e he s
    simp only [List.mem_cons, List.not_mem_nil, or_false] at he
    rcases he with rfl | rfl | rfl | rfl | rfl <;> exact fun _ _ _ _ => rfl
  obtain ⟨t, ht, hP⟩ := (Option.any_eq_true _ _).mp hexec
  have hrun := Machine.runWhere_of_exec hmeets ht
  obtain ⟨himports, hentry⟩ := of_decide_eq_true hP
  exact ⟨t, hrun, himports, hentry, (modules_kept plainFiles plainFiles_lawful t hrun).1⟩

/-- A registration that fails to replace a module takes that module with it. -/
theorem registration_forgets : ¬ ∀ (P : Type) (files : ModuleFiles P) (t : ModuleState P),
    files.Lawful → (moduleMachine files).Run .initial t → ∀ name failure, failure ≠ none →
      (t.registerModule name failure).2.registry = t.registry := by
  intro h
  have hexec : (moduleMachine plainFiles).exec .initial [.registerModule "test" none] =
      some (ModuleState.registerModule .initial "test" none).2 := rfl
  have hrun := Machine.run_of_exec hexec
  have heq := congrFun (h _ plainFiles _ plainFiles_lawful hrun "test" (some .populate)
    (by rintro ⟨⟩)) "test"
  simp [ModuleState.registerModule, ModuleState.register, ModuleState.insert,
    ModuleState.remove] at heq

end CoreRuntime
