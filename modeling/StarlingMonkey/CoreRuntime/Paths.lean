import Mathlib.Algebra.Order.Ring.Int
import Mathlib.Data.List.Induction
import Mathlib.Tactic.Common

/-!
# Normalizing paths

`lexically_normalize` gives the key of a module whose file cannot be found. Two paths that lead to
the same place lexically are to have the same key.

A path is the list of its components; pushing the root replaces what was there. `Place` is where a
path leads: a directory above the start or the root, and the names below it. The components of a
place are in its `render`.

* `lexicallyNormalize_eq`: what the code builds is the `render` of what it has read so far.
* `oneKey_iff`: a path has a key of its own place exactly if no `..` of it is read at the root,
  where the code keeps the `..`.
-/

namespace CoreRuntime

/-- `std::path::Component`, without the prefixes of other systems. -/
inductive PathComponent (ν : Type) where
  | rootDir
  | curDir
  | parentDir
  | normal (name : ν)
deriving DecidableEq, Repr

/-- A path, by its components. -/
abbrev LexPath (ν : Type) := List (PathComponent ν)

variable {ν : Type}

namespace LexPath

/-! ### The code -/

/-- `PathBuf::push`. The root is an absolute path, which replaces the one it is pushed to. -/
def push (path : LexPath ν) : PathComponent ν → LexPath ν
  | .rootDir => [.rootDir]
  | component => path ++ [component]

/-- Whether the last component is a normal one. -/
def endsNormal (path : LexPath ν) : Bool :=
  match path.getLast? with
  | some (.normal _) => true
  | _ => false

/-- One component of `lexically_normalize`. -/
def normalizeStep (out : LexPath ν) : PathComponent ν → LexPath ν
  | .curDir => out
  | .parentDir => if !endsNormal out then push out .parentDir else out.dropLast
  | other => push out other

/-- `lexically_normalize`. -/
def lexicallyNormalize (path : LexPath ν) : LexPath ν := path.foldl normalizeStep []

end LexPath

/-! ### Places -/

/-- Where a path leads: how far above the start, and from there down the names. The start is the
root for an absolute path. -/
structure Place (ν : Type) where
  absolute : Bool
  ups : ℕ
  names : List ν
deriving DecidableEq, Repr

namespace Place

/-- The place a path starts from. -/
def start : Place ν := ⟨false, 0, []⟩

/-- The root. -/
def root : Place ν := ⟨true, 0, []⟩

/-- The parent of a place, which above the names is one further `up`. -/
def parent (up : Place ν → ℕ) (p : Place ν) : Place ν :=
  if p.names = [] then { p with ups := up p } else { p with names := p.names.dropLast }

/-- One component. -/
def go (up : Place ν → ℕ) (p : Place ν) : PathComponent ν → Place ν
  | .rootDir => root
  | .curDir => p
  | .parentDir => p.parent up
  | .normal name => { p with names := p.names ++ [name] }

/-- The parent of the root is the root. -/
def above (p : Place ν) : ℕ := if p.absolute then p.ups else p.ups + 1

/-- The parent of the root is kept. -/
def keptAbove (p : Place ν) : ℕ := p.ups + 1

/-- The components of a place. -/
def render (p : Place ν) : LexPath ν :=
  (if p.absolute then [.rootDir] else []) ++
    (List.replicate p.ups .parentDir ++ p.names.map .normal)

end Place

/-- **Where a path leads lexically.** -/
def denote (path : LexPath ν) : Place ν := path.foldl (Place.go Place.above) Place.start

/-- What the code has of a path. -/
def kept (path : LexPath ν) : Place ν := path.foldl (Place.go Place.keptAbove) Place.start

/-- A `..` is read at the root. -/
def ClimbsPastRoot (path : LexPath ν) : Prop :=
  ∃ pre post, path = pre ++ .parentDir :: post ∧ .rootDir ∉ post ∧ denote pre = Place.root

/-- **A path has the key of its place**, as far as another path is concerned. -/
structure OneKey (p q : LexPath ν) : Prop where
  /-- The key has no `.`, and `..` only at the start of a relative path. -/
  canonical : ∃ names : List ν, p.lexicallyNormalize = .rootDir :: names.map .normal ∨
    ∃ ups, p.lexicallyNormalize = List.replicate ups .parentDir ++ names.map .normal
  /-- The key leads where the path leads. -/
  location : denote p.lexicallyNormalize = denote p
  /-- A path that leads there has the same key. -/
  unique : denote q = denote p → q.lexicallyNormalize = p.lexicallyNormalize
  idempotent : p.lexicallyNormalize.lexicallyNormalize = p.lexicallyNormalize

namespace Place

theorem render_push (p : Place ν) (name : ν) :
    ({ p with names := p.names ++ [name] } : Place ν).render = p.render ++ [.normal name] := by
  simp [render]

private theorem endsNormal_append (path : LexPath ν) (component : PathComponent ν) :
    LexPath.endsNormal (path ++ [component]) = LexPath.endsNormal [component] := by
  simp [LexPath.endsNormal]

/-- The last component is a name if there is one. -/
theorem endsNormal_render (p : Place ν) : p.render.endsNormal = !p.names.isEmpty := by
  obtain ⟨absolute, ups, names⟩ := p
  rcases List.eq_nil_or_concat names with rfl | ⟨names, name, rfl⟩
  · cases ups with
    | zero => cases absolute <;> rfl
    | succ ups =>
      rw [render, List.replicate_succ', List.map_nil, List.append_nil, ← List.append_assoc,
        endsNormal_append]
      rfl
  · rw [List.concat_eq_append, render_push ⟨absolute, ups, names⟩ name, endsNormal_append]
    simp [LexPath.endsNormal]

/-- **A step of the code** goes on in the place. -/
theorem normalizeStep_render (p : Place ν) (component : PathComponent ν) :
    p.render.normalizeStep component = (p.go keptAbove component).render := by
  cases component with
  | rootDir => rfl
  | curDir => rfl
  | normal name => exact (render_push p name).symm
  | parentDir =>
    rw [LexPath.normalizeStep, endsNormal_render, go, parent]
    obtain ⟨absolute, ups, names⟩ := p
    rcases List.eq_nil_or_concat names with rfl | ⟨names, name, rfl⟩
    · simp [render, LexPath.push, keptAbove, List.replicate_succ']
    · simp [render]

end Place

/-- **What the code builds.** -/
theorem lexicallyNormalize_eq (path : LexPath ν) :
    path.lexicallyNormalize = (kept path).render := by
  have h (p : Place ν) :
      path.foldl LexPath.normalizeStep p.render =
        (path.foldl (Place.go Place.keptAbove) p).render := by
    induction path generalizing p with
    | nil => rfl
    | cons component path ih =>
      rw [List.foldl_cons, Place.normalizeStep_render, ih, List.foldl_cons]
  exact h Place.start

/-! ### Where the key leads -/

namespace Place

/-- The place, with what is kept above the root forgotten. -/
def forget (p : Place ν) : Place ν := if p.absolute then { p with ups := 0 } else p

theorem forget_go (p : Place ν) (component : PathComponent ν) :
    (p.go keptAbove component).forget = p.forget.go above component := by
  obtain ⟨_ | _, ups, names⟩ := p
  · cases component with
    | parentDir => cases names <;> rfl
    | rootDir => rfl
    | curDir => rfl
    | normal name => rfl
  · cases component with
    | parentDir => cases names <;> rfl
    | rootDir => rfl
    | curDir => rfl
    | normal name => rfl

/-- The components of a place lead there. -/
theorem kept_render (p : Place ν) : kept p.render = p := by
  have hnames (q : Place ν) (names : List ν) :
      (names.map PathComponent.normal).foldl (go keptAbove) q =
        { q with names := q.names ++ names } := by
    induction names generalizing q with
    | nil => simp
    | cons name names ih => simp [go, ih]
  have hups (q : Place ν) (hq : q.names = []) (n : ℕ) :
      (List.replicate n PathComponent.parentDir).foldl (go keptAbove) q =
        { q with ups := q.ups + n } := by
    induction n with
    | zero => rfl
    | succ n ih =>
      rw [List.replicate_succ', List.foldl_append, ih]
      simp [go, parent, hq, keptAbove, Nat.add_assoc]
  obtain ⟨_ | _, ups, names⟩ := p
  · simp [kept, render, hups, hnames, start]
  · simp [kept, render, hups, hnames, start, go, root]

end Place

theorem denote_eq_forget (path : LexPath ν) : denote path = (kept path).forget := by
  have h (p : Place ν) : path.foldl (Place.go Place.above) p.forget =
      (path.foldl (Place.go Place.keptAbove) p).forget := by
    induction path generalizing p with
    | nil => rfl
    | cons component path ih => rw [List.foldl_cons, ← Place.forget_go, ih, List.foldl_cons]
  exact h Place.start

theorem kept_lexicallyNormalize (path : LexPath ν) : kept path.lexicallyNormalize = kept path := by
  rw [lexicallyNormalize_eq, Place.kept_render]

/-- The key is that of what was kept. -/
theorem lexicallyNormalize_inj {p q : LexPath ν} :
    p.lexicallyNormalize = q.lexicallyNormalize ↔ kept p = kept q := by
  constructor
  · intro h
    rw [← kept_lexicallyNormalize p, h, kept_lexicallyNormalize]
  · intro h
    rw [lexicallyNormalize_eq, lexicallyNormalize_eq, h]

/-! ### The root -/

theorem climbsPastRoot_append (path : LexPath ν) (component : PathComponent ν) :
    ClimbsPastRoot (path ++ [component]) ↔ (component ≠ .rootDir ∧ ClimbsPastRoot path) ∨
      (component = .parentDir ∧ denote path = Place.root) := by
  constructor
  · rintro ⟨pre, post, heq, hpost, hpre⟩
    rcases List.eq_nil_or_concat post with rfl | ⟨post, last, rfl⟩
    · obtain ⟨rfl, hlast⟩ := List.append_inj' heq rfl
      exact .inr ⟨(List.cons.inj hlast).1, hpre⟩
    · rw [List.concat_eq_append, ← List.cons_append, ← List.append_assoc] at heq
      obtain ⟨rfl, hlast⟩ := List.append_inj' heq rfl
      obtain rfl := (List.cons.inj hlast).1
      rw [List.concat_eq_append, List.mem_append, not_or] at hpost
      exact .inl ⟨fun hroot => hpost.2 (by simp [hroot]), pre, post, rfl, hpost.1, hpre⟩
  · rintro (⟨hroot, pre, post, rfl, hpost, hpre⟩ | ⟨rfl, hroot⟩)
    · exact ⟨pre, post ++ [component], by simp, by simp [hpost, hroot.symm], hpre⟩
    · exact ⟨path, [], rfl, by simp, hroot⟩

/-- **A path climbs past the root** exactly if the code keeps a `..` there. -/
theorem climbsPastRoot_iff (path : LexPath ν) :
    ClimbsPastRoot path ↔ (kept path).absolute = true ∧ (kept path).ups ≠ 0 := by
  induction path using List.reverseRecOn with
  | nil =>
    constructor
    · rintro ⟨pre, post, heq, -⟩
      cases pre <;> cases heq
    · exact fun h => absurd rfl h.2
  | append_singleton path component ih =>
    have hkept : kept (path ++ [component]) = (kept path).go Place.keptAbove component := by
      rw [kept, List.foldl_append]
      rfl
    rw [climbsPastRoot_append, ih, denote_eq_forget, hkept]
    generalize kept path = p
    obtain ⟨_ | _, ups, names⟩ := p <;> cases component <;> cases names <;>
      simp [Place.go, Place.parent, Place.forget, Place.root, Place.keptAbove]

/-- What leads to a place without climbing past the root is the place itself. -/
private theorem kept_eq_denote {path : LexPath ν} (h : ¬ ClimbsPastRoot path) :
    kept path = denote path := by
  rw [climbsPastRoot_iff] at h
  rw [denote_eq_forget]
  generalize kept path = p at h
  obtain ⟨_ | _, ups, names⟩ := p
  · rfl
  · obtain rfl : ups = 0 := by simpa using h
    rfl

/-- The keys of places that were kept as they are. -/
private theorem canonical_iff (path : LexPath ν) :
    (∃ names : List ν, path.lexicallyNormalize = .rootDir :: names.map .normal ∨
      ∃ ups, path.lexicallyNormalize = List.replicate ups .parentDir ++ names.map .normal) ↔
      ¬ ClimbsPastRoot path := by
  rw [climbsPastRoot_iff, lexicallyNormalize_eq]
  have hrender (p : Place ν) (names : List ν) : p.render = .rootDir :: names.map .normal ↔
      p = ⟨true, 0, names⟩ :=
    ⟨fun h => by rw [← Place.kept_render p, h]; exact Place.kept_render ⟨true, 0, names⟩,
      fun h => by rw [h]; rfl⟩
  have hrender' (p : Place ν) (ups : ℕ) (names : List ν) :
      p.render = List.replicate ups .parentDir ++ names.map .normal ↔ p = ⟨false, ups, names⟩ :=
    ⟨fun h => by rw [← Place.kept_render p, h]; exact Place.kept_render ⟨false, ups, names⟩,
      fun h => by rw [h]; rfl⟩
  simp only [hrender, hrender']
  generalize kept path = p
  obtain ⟨_ | _, ups, names⟩ := p <;> simp

/-- **One key for each place**, exactly as long as no `..` is read at the root: neither in the path,
nor in the other one if that leads to the same place. -/
theorem oneKey_iff (p q : LexPath ν) :
    OneKey p q ↔ ¬ ClimbsPastRoot p ∧ (denote q = denote p → ¬ ClimbsPastRoot q) := by
  constructor
  · rintro ⟨hcanonical, -, hunique, -⟩
    have hp := (canonical_iff p).mp hcanonical
    refine ⟨hp, fun hpq hq => hp ?_⟩
    rw [climbsPastRoot_iff] at hq ⊢
    rwa [lexicallyNormalize_inj.mp (hunique hpq)] at hq
  · rintro ⟨hp, hq⟩
    refine ⟨(canonical_iff p).mpr hp, ?_, fun hpq => ?_, ?_⟩
    · rw [denote_eq_forget, kept_lexicallyNormalize, ← denote_eq_forget]
    · rw [lexicallyNormalize_inj, kept_eq_denote hp, kept_eq_denote (hq hpq), hpq]
    · exact lexicallyNormalize_inj.mpr (kept_lexicallyNormalize p)

/-- `/../a` is not `/a`. -/
theorem parent_of_root_kept : ¬ OneKey [.rootDir, .parentDir, .normal 0] [.rootDir, .normal 0] ∧
    denote [.rootDir, .parentDir, .normal 0] = denote [.rootDir, .normal 0] ∧
    LexPath.lexicallyNormalize [.rootDir, .parentDir, .normal 0] ≠
      LexPath.lexicallyNormalize [.rootDir, .normal 0] := by
  have hkeys : LexPath.lexicallyNormalize [.rootDir, .parentDir, .normal 0] ≠
      LexPath.lexicallyNormalize [.rootDir, .normal 0] := by decide
  exact ⟨fun h => hkeys (h.unique (by decide)).symm, by decide, hkeys⟩

end CoreRuntime
