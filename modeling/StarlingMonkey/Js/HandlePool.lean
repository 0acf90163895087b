import Mathlib.Algebra.Order.Ring.Int
import Mathlib.Logic.Function.Basic
import Mathlib.Tactic.Common
import StarlingMonkey.Lib.LinkedList
import StarlingMonkey.Lib.Run

/-!
# The pool of root handles

The model of `js::gc::pool`. Every scope roots its values through a `ScopeAlloc`. The innermost live
scope allocates on a root stack all scopes share; a scope that roots a value while a scope nested
in it is alive gets `PrivatePages`, which the pool finds again through a doubly linked list.

Pages and boxes are addresses: `HandlePool.memory` and `HandlePool.boxes` are what is behind them,
and the links of the list are in `HandlePool.links`. `Roots` adds the scopes to the pool, with
everything their allocators ever returned, and `rootsMachine` runs it.
-/

namespace Js

/-- `PAGE_SIZE`. -/
def pageSize : ℕ := 128

/-- `MAX_FREE_ALLOCS`. -/
def maxFreeAllocs : ℕ := 32

/-- `SlotTag`. -/
inductive SlotTag where
  | object
  | value
  | string
  | script
  | id
  | symbol
  | function
  | bigInt
deriving DecidableEq, Repr

/-- What is in a slot. -/
structure Slot where
  tag : SlotTag
  value : UInt64
deriving DecidableEq, Repr

/-- Where a slot is. -/
structure SlotAddr where
  page : ℕ
  index : ℕ
deriving DecidableEq, Repr

/-- `Level`. -/
structure Level where
  /-- The height of the root stack when the scope was created. -/
  base : ℕ
  alive : Bool
deriving DecidableEq, Repr

/-- `PrivatePages`, but for its links. -/
structure PrivatePages where
  currentPage : Option ℕ
  /-- The next slot of the current page. -/
  cursor : ℕ
  fullPages : List ℕ
  active : Bool
deriving DecidableEq, Repr

/-- `HandlePool`, and the memory its pointers lead to. -/
structure HandlePool where
  stack : List ℕ
  top : ℕ
  levels : List Level
  /-- The page that was returned last is the first. -/
  freelist : List ℕ
  activeHead : Option ℕ
  /-- The box that was returned last is the first. -/
  allocFreelist : List ℕ
  /-- What is in the slots. -/
  memory : SlotAddr → Slot
  /-- What is in the boxes. -/
  boxes : ℕ → PrivatePages
  /-- The links between the boxes. -/
  links : Links ℕ
  /-- The address of the next page that is allocated. -/
  nextPage : ℕ
  /-- The address of the next box that is allocated. -/
  nextBox : ℕ

/-- `ScopeAlloc`. -/
structure ScopeAlloc where
  level : ℕ
  privatePages : Option ℕ
deriving DecidableEq, Repr

/-- Where the pool can abort. -/
inductive PoolAbort where
  /-- `levels.len() - 1` in `is_innermost`. -/
  | noLevel
  /-- `levels[level]` in `pop_level`. -/
  | levelIndex
  /-- `stack[page_index]` in `stack_alloc`. -/
  | stackIndex
  /-- `current_page` is unwrapped in `PrivatePages::alloc`. -/
  | noPage
  /-- `tags[cursor]` in `PrivatePages::alloc`. -/
  | slotIndex
  /-- The assertion in `PrivatePages::new`. -/
  | usedBox
  /-- The assertion in `return_alloc`. -/
  | activeBox
deriving DecidableEq, Repr

/-- A call of the pool. -/
abbrev Pooling := Outcome PoolAbort Empty HandlePool

namespace HandlePool

/-- `HandlePool::new`; the memory of a page that was never written is zeroed. -/
def new : HandlePool :=
  ⟨[], 0, [], [], none, [], fun _ => ⟨.object, 0⟩, fun _ => ⟨none, 0, [], false⟩,
    ⟨fun _ => none, fun _ => none⟩, 0, 0⟩

/-- Write a slot. -/
def write (p : HandlePool) (addr : SlotAddr) (slot : Slot) : HandlePool :=
  { p with memory := Function.update p.memory addr slot }

/-- Write a box. -/
def setBox (p : HandlePool) (b : ℕ) (box : PrivatePages) : HandlePool :=
  { p with boxes := Function.update p.boxes b box }

/-- `push_level`. -/
def pushLevel (p : HandlePool) : HandlePool × ℕ :=
  ({ p with levels := p.levels ++ [⟨p.top, true⟩] }, p.levels.length)

/-- `is_innermost`. -/
def isInnermost (p : HandlePool) (level : ℕ) : Pooling Bool := do
  Outcome.guard (!p.levels.isEmpty) .noLevel
  pure (level == p.levels.length - 1)

/-- The loop of `pop_level`, in at most so many rounds. -/
def popDead : ℕ → HandlePool → HandlePool
  | 0, p => p
  | rounds + 1, p =>
    match p.levels.getLast? with
    | none => p
    | some last =>
      if last.alive then p
      else popDead rounds { p with top := last.base, levels := p.levels.dropLast }

/-- `pop_level`. -/
def popLevel (p : HandlePool) (level : ℕ) : Pooling HandlePool := do
  Outcome.guard (level < p.levels.length) .levelIndex
  pure (popDead p.levels.length
    { p with levels := p.levels.modify level ({ · with alive := false }) })

/-- `grow_stack`. -/
def growStack (p : HandlePool) : HandlePool :=
  { p with stack := p.stack ++ [p.nextPage], nextPage := p.nextPage + 1 }

/-- `stack_alloc`. -/
def stackAlloc (p : HandlePool) (slot : Slot) : Pooling (HandlePool × SlotAddr) := do
  let pageIndex := p.top / pageSize
  let p := if pageIndex = p.stack.length then p.growStack else p
  let page ← Outcome.expect p.stack[pageIndex]? .stackIndex
  let addr := ⟨page, p.top % pageSize⟩
  pure ({ p.write addr slot with top := p.top + 1 }, addr)

/-- `take_page`. -/
def takePage (p : HandlePool) : HandlePool × ℕ :=
  match p.freelist with
  | page :: freelist => ({ p with freelist := freelist }, page)
  | [] => ({ p with nextPage := p.nextPage + 1 }, p.nextPage)

/-- `return_page`. -/
def returnPage (p : HandlePool) (page : ℕ) : HandlePool :=
  { p with freelist := page :: p.freelist }

/-- `take_alloc`, or a new box. -/
def takeAlloc (p : HandlePool) : HandlePool × ℕ :=
  match p.allocFreelist with
  | b :: allocFreelist => ({ p with allocFreelist := allocFreelist }, b)
  | [] => ({ p.setBox p.nextBox ⟨none, 0, [], false⟩ with nextBox := p.nextBox + 1 }, p.nextBox)

/-- `register`. -/
def register (p : HandlePool) (b : ℕ) : HandlePool :=
  { p with links := p.links.pushFront p.activeHead b, activeHead := some b }

/-- `unregister`. -/
def unregister (p : HandlePool) (b : ℕ) : HandlePool :=
  { p with links := p.links.remove b, activeHead := p.links.headAfter p.activeHead b }

/-- `PrivatePages::release`. -/
def release (p : HandlePool) (b : ℕ) : HandlePool :=
  let box := p.boxes b
  if !box.active then p
  else
    let p := (p.setBox b ⟨none, box.cursor, [], false⟩).unregister b
    (box.currentPage.toList ++ box.fullPages).foldl returnPage p

/-- `return_alloc`; a box that is not kept is dropped, which releases it once more. -/
def returnAlloc (p : HandlePool) (b : ℕ) : Pooling HandlePool := do
  Outcome.guard (!(p.boxes b).active) .activeBox
  pure (if p.allocFreelist.length < maxFreeAllocs then
      { p with allocFreelist := b :: p.allocFreelist }
    else p.release b)

/-- `PrivatePages::recycle`. -/
def recycle (p : HandlePool) (b : ℕ) : Pooling HandlePool :=
  (p.release b).returnAlloc b

/-- `PrivatePages::new`. -/
def newPrivate (p : HandlePool) : Pooling (HandlePool × ℕ) := do
  let (p, b) := p.takeAlloc
  let box := p.boxes b
  Outcome.guard (!box.active && box.currentPage.isNone && box.fullPages.isEmpty) .usedBox
  pure ((p.setBox b { box with cursor := 0, active := true }).register b, b)

/-- `PrivatePages::alloc`, up to a current page. -/
def ensurePage (p : HandlePool) (b : ℕ) : HandlePool :=
  if (p.boxes b).currentPage.isNone then
    let (p, page) := p.takePage
    p.setBox b { p.boxes b with currentPage := some page }
  else p

/-- `PrivatePages::alloc`, from there up to a free slot. -/
def ensureRoom (p : HandlePool) (b : ℕ) : Pooling HandlePool :=
  let box := p.boxes b
  if box.cursor = pageSize then do
    let full ← Outcome.expect box.currentPage .noPage
    let (p, page) := p.takePage
    pure (p.setBox b ⟨some page, 0, box.fullPages ++ [full], box.active⟩)
  else pure p

/-- `PrivatePages::alloc`, the rest of it. -/
def fillSlot (p : HandlePool) (b : ℕ) (slot : Slot) : Pooling (HandlePool × SlotAddr) := do
  let box := p.boxes b
  let page ← Outcome.expect box.currentPage .noPage
  Outcome.guard (box.cursor < pageSize) .slotIndex
  let addr := ⟨page, box.cursor⟩
  pure ((p.write addr slot).setBox b { box with cursor := box.cursor + 1 }, addr)

/-- `PrivatePages::alloc`. -/
def privateAlloc (p : HandlePool) (b : ℕ) (slot : Slot) : Pooling (HandlePool × SlotAddr) := do
  let p ← (p.ensurePage b).ensureRoom b
  p.fillSlot b slot

/-! ### Tracing -/

/-- A slot the tracer comes by, and what it finds there. -/
abbrev Visit := SlotAddr × Slot

/-- `trace_page`. -/
def tracePage (p : HandlePool) (page count : ℕ) : List Visit :=
  (List.range count).map fun i => (⟨page, i⟩, p.memory ⟨page, i⟩)

/-- `PrivatePages::trace`. -/
def tracePrivate (p : HandlePool) (b : ℕ) : List Visit :=
  let box := p.boxes b
  (box.fullPages.flatMap fun page => p.tracePage page pageSize) ++
    box.currentPage.toList.flatMap fun page => p.tracePage page box.cursor

/-- The first loop of `HandlePool::trace`, from the page at an index on. -/
def traceStack (p : HandlePool) : ℕ → List ℕ → List Visit
  | _, [] => []
  | index, page :: pages =>
    let start := index * pageSize
    if p.top ≤ start then []
    else p.tracePage page (min (p.top - start) pageSize) ++ p.traceStack (index + 1) pages

/-- `HandlePool::trace`. Its walk along the list has no end if that meets more boxes than there
ever were. -/
def trace (p : HandlePool) : Option (List Visit) := do
  let active ← p.links.walk p.nextBox p.activeHead
  pure (p.traceStack 0 p.stack ++ active.flatMap p.tracePrivate)

end HandlePool

/-- Whether `trace_page` hands a slot to the collector: a null pointer is left out. -/
def Slot.isTraced (slot : Slot) : Bool :=
  match slot.tag with
  | .value | .id => true
  | _ => slot.value != 0

/-- The slots `HandlePool::trace` hands to the collector. -/
def HandlePool.collected (p : HandlePool) : Option (List HandlePool.Visit) :=
  p.trace.map (·.filter fun v => v.2.isTraced)

namespace ScopeAlloc

/-- `ScopeAlloc::new`. -/
def new (p : HandlePool) : HandlePool × ScopeAlloc :=
  let (p, level) := p.pushLevel
  (p, ⟨level, none⟩)

/-- `ScopeAlloc::private_alloc`. -/
def privateAlloc (scope : ScopeAlloc) (p : HandlePool) (slot : Slot) :
    Pooling (HandlePool × ScopeAlloc × SlotAddr) := do
  let (p, b) ←
    match scope.privatePages with
    | some b => pure (p, b)
    | none => p.newPrivate
  let (p, addr) ← p.privateAlloc b slot
  pure (p, { scope with privatePages := some b }, addr)

/-- `ScopeAlloc::alloc`. -/
def alloc (scope : ScopeAlloc) (p : HandlePool) (slot : Slot) :
    Pooling (HandlePool × ScopeAlloc × SlotAddr) := do
  if ← p.isInnermost scope.level then
    let (p, addr) ← p.stackAlloc slot
    pure (p, scope, addr)
  else scope.privateAlloc p slot

/-- `ScopeAlloc::drop`. -/
def drop (scope : ScopeAlloc) (p : HandlePool) : Pooling HandlePool := do
  let p ←
    match scope.privatePages with
    | some b => p.recycle b
    | none => pure p
  p.popLevel scope.level

end ScopeAlloc

/-! ### Scopes -/

/-- A slot that was returned to a scope. -/
structure Handle where
  /-- The scope. -/
  scope : ℕ
  /-- The slot. -/
  addr : SlotAddr
  /-- What the scope rooted there. -/
  slot : Slot
deriving DecidableEq, Repr

/-- A pool and the scopes that use it, which are numbered in the order of their creation. -/
structure Roots where
  pool : HandlePool
  /-- The scopes that are alive. -/
  scopes : ℕ → Option ScopeAlloc
  /-- How many scopes were created. -/
  born : ℕ
  /-- Every slot that was ever returned, the last one first. -/
  handles : List Handle

/-- What happens to the scopes of a pool. -/
inductive RootsEvent where
  /-- A scope is created. -/
  | newScope
  /-- A scope roots a value. -/
  | alloc (s : ℕ) (slot : Slot)
  /-- A scope is dropped. -/
  | dropScope (s : ℕ)
deriving DecidableEq, Repr

namespace Roots

/-- No scope was created. -/
def initial : Roots := ⟨.new, fun _ => none, 0, []⟩

/-- One event; nothing can be asked of a scope that is not alive. -/
def step (w : Roots) : RootsEvent → Outcome PoolAbort Empty Roots Roots
  | .newScope =>
    let (pool, scope) := ScopeAlloc.new w.pool
    pure { w with
      pool := pool
      scopes := Function.update w.scopes w.born (some scope)
      born := w.born + 1 }
  | .alloc s slot =>
    match w.scopes s with
    | none => pure w
    | some scope => do
      let (pool, scope, addr) ← (scope.alloc w.pool slot).lift
      pure { w with
        pool := pool
        scopes := Function.update w.scopes s (some scope)
        handles := ⟨s, addr, slot⟩ :: w.handles }
  | .dropScope s =>
    match w.scopes s with
    | none => pure w
    | some scope => do
      let pool ← (scope.drop w.pool).lift
      pure { w with pool := pool, scopes := Function.update w.scopes s none }

/-- The scope is alive. -/
def Live (w : Roots) (s : ℕ) : Prop := (w.scopes s).isSome

/-- The box belongs to a live scope. -/
def Owned (w : Roots) (b : ℕ) : Prop := ∃ s scope, w.scopes s = some scope ∧
  scope.privatePages = some b

end Roots

/-- The scopes of a pool as a machine. -/
def rootsMachine : Machine PoolAbort Empty Roots RootsEvent := ⟨Roots.step⟩

end Js
